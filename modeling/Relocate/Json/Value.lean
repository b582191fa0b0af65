import Relocate.Json.Double

/-!
# Values

The values of JSON.  Integers of at most 64 bits stay integers; other numbers
are rounded.  The members of an object that was read are sorted by their names
and have different names; `insertMember` keeps it so.
-/

namespace Relocate.Json

/-- A number. -/
inductive Number
  | natural (value : Nat)
  /-- The negative of a positive integer. -/
  | negative (value : Nat)
  | float (isNegative : Bool) (magnitude : Double)
deriving DecidableEq, Repr

/-- The number as it is written. -/
def Number.render : Number → String
  | natural value => toString value
  | negative value => "-" ++ toString value
  | float isNegative magnitude => (if isNegative then "-" else "") ++ magnitude.render

/-- A value. -/
inductive Value
  | null
  | bool (value : Bool)
  | number (value : Number)
  | text (value : String)
  | array (items : List Value)
  | object (members : List (String × Value))
deriving Repr

instance : Inhabited Value := ⟨.null⟩

/-- The members with one more, in the order of names; an old member of the same
name is replaced. -/
def insertMember {α : Type} (name : String) (value : α) :
    List (String × α) → List (String × α)
  | [] => [(name, value)]
  | (first, old) :: rest =>
    if name = first then (name, value) :: rest
    else if name < first then (name, value) :: (first, old) :: rest
    else (first, old) :: insertMember name value rest

/-- The members in the order of names; of several of the same name the last. -/
def sortMembers {α : Type} (members : List (String × α)) : List (String × α) :=
  members.foldl (fun sorted (name, value) => insertMember name value sorted) []

/-- The digits of a hexadecimal number with two digits. -/
def twoHexDigits (code : Nat) : List Char :=
  [Nat.digitChar (code / 16), Nat.digitChar (code % 16)]

/-- A character inside a text. -/
def writeChar (c : Char) : List Char :=
  match c with
  | '"' => ['\\', '"']
  | '\\' => ['\\', '\\']
  | '\n' => ['\\', 'n']
  | '\r' => ['\\', 'r']
  | '\t' => ['\\', 't']
  | c =>
    if c.toNat = 8 then ['\\', 'b']
    else if c.toNat = 12 then ['\\', 'f']
    else if c.toNat < 0x20 then '\\' :: 'u' :: '0' :: '0' :: twoHexDigits c.toNat
    else [c]

/-- A text between quotes. -/
def writeText (text : String) : String :=
  "\"" ++ String.ofList (text.toList.flatMap writeChar) ++ "\""

mutual

/-- The value without blanks. -/
def Value.compact : Value → String
  | .null => "null"
  | .bool true => "true"
  | .bool false => "false"
  | .number value => value.render
  | .text value => writeText value
  | .array items => "[" ++ compactItems items ++ "]"
  | .object members => "\x7b" ++ compactMembers members ++ "\x7d"

/-- The items of an array. -/
def compactItems : List Value → String
  | [] => ""
  | [item] => item.compact
  | item :: rest => item.compact ++ "," ++ compactItems rest

/-- The members of an object. -/
def compactMembers : List (String × Value) → String
  | [] => ""
  | [(name, value)] => writeText name ++ ":" ++ value.compact
  | (name, value) :: rest =>
    writeText name ++ ":" ++ value.compact ++ "," ++ compactMembers rest

end

/-- The start of a line at a depth. -/
def newLine (depth : Nat) : String :=
  "\n" ++ String.ofList (List.replicate (2 * depth) ' ')

mutual

/-- The value with every item and every member on a line of its own. -/
def Value.pretty (depth : Nat) : Value → String
  | .null => "null"
  | .bool true => "true"
  | .bool false => "false"
  | .number value => value.render
  | .text value => writeText value
  | .array [] => "[]"
  | .array items => "[" ++ prettyItems (depth + 1) items ++ newLine depth ++ "]"
  | .object [] => "\x7b\x7d"
  | .object members => "\x7b" ++ prettyMembers (depth + 1) members ++ newLine depth ++ "\x7d"

/-- The items of an array, each on its line. -/
def prettyItems (depth : Nat) : List Value → String
  | [] => ""
  | [item] => newLine depth ++ item.pretty depth
  | item :: rest => newLine depth ++ item.pretty depth ++ "," ++ prettyItems depth rest

/-- The members of an object, each on its line. -/
def prettyMembers (depth : Nat) : List (String × Value) → String
  | [] => ""
  | [(name, value)] => newLine depth ++ writeText name ++ ": " ++ value.pretty depth
  | (name, value) :: rest =>
    newLine depth ++ writeText name ++ ": " ++ value.pretty depth ++ "," ++
      prettyMembers depth rest

end

end Relocate.Json
