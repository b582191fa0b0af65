/-!
# Ids of new folders

A folder that is made up needs an id of its own.  Ids are written like random
128-bit identifiers: 32 hexadecimal digits in five groups, where six bits are
fixed and the other 122 hold a number.
-/

namespace Relocate.Catalog.FolderId

/-- The lowest hexadecimal digits of a number, so many of them. -/
def hexDigits : Nat → Nat → List Char
  | 0, _ => []
  | count + 1, value => hexDigits count (value / 16) ++ [Nat.digitChar (value % 16)]

/-- The id that holds a number. -/
def ofNumber (number : Nat) : String :=
  let group (count shift : Nat) : String := String.ofList (hexDigits count (number >>> shift))
  let variant : Char := Nat.digitChar (8 + number >>> 60 % 4)
  group 8 90 ++ "-" ++ group 4 74 ++ "-4" ++ group 3 62 ++ "-" ++ variant.toString ++
    group 3 48 ++ "-" ++ group 12 0

/-- The supply of ids from a number on. -/
def supply (start : Nat) : Nat → String :=
  fun index => ofNumber (start + index)

end Relocate.Catalog.FolderId
