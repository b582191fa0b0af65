/-!
# Comparison up to ASCII case

Names of catalog objects are matched up to the case of the ASCII letters and
of no others.

A prefix is looked for in the bytes of a text and cut off at its number of bytes.
Slices that are past the end of a text or start inside one of its characters do
not exist; `startsWithBytes` and `replaceBytes` say so when they meet one.  They
never do, so `startsWithFold` and `replacePrefix?` are what they find.
-/

namespace Relocate.Text

/-- Equality of two texts up to the case of ASCII letters. -/
def sameFold (a b : String) : Bool :=
  a.toList.map Char.toLower == b.toList.map Char.toLower

theorem sameFold_refl (a : String) : sameFold a a = true := by
  simp [sameFold]

theorem sameFold_comm (a b : String) : sameFold a b = sameFold b a := by
  simp only [sameFold, Bool.beq_comm]

/-! ## Bytes and slices -/

/-- The bytes of a text in UTF-8. -/
def utf8Bytes (text : String) : List UInt8 :=
  text.toByteArray.data.toList

/-- Why there is no slice at an offset. -/
inductive BadSlice
  | pastEnd
  | insideCharacter
deriving DecidableEq, Repr

/-- The bytes of a text in front of an offset. -/
def bytesBefore (text : String) (offset : Nat) : Except BadSlice (List UInt8) :=
  if offset ≤ text.utf8ByteSize then .ok ((utf8Bytes text).take offset) else .error .pastEnd

/-- The text behind an offset. -/
def textBehind (text : String) (offset : Nat) : Except BadSlice String :=
  if h : String.Pos.Raw.IsValid text ⟨offset⟩ then
    .ok (text.sliceFrom (text.pos ⟨offset⟩ h)).copy
  else if offset ≤ text.utf8ByteSize then .error .insideCharacter
  else .error .pastEnd

/-- The small letter for the byte of an ASCII capital; every other byte stays. -/
def lowerByte (byte : UInt8) : UInt8 :=
  if 0x41 ≤ byte ∧ byte ≤ 0x5A then byte + 0x20 else byte

/-- Equality of bytes up to the case of ASCII letters. -/
def sameFoldBytes (a b : List UInt8) : Bool :=
  a.map lowerByte == b.map lowerByte

/-! ## Prefixes -/

/-- The text is long enough, the prefix would end between two characters of it, and
its first bytes are those of the prefix up to ASCII case. -/
def startsWithBytes (text start : String) : Except BadSlice Bool := do
  let size := start.utf8ByteSize
  if size ≤ text.utf8ByteSize ∧ String.Pos.Raw.IsValid text ⟨size⟩ then
    return sameFoldBytes (← bytesBefore text size) (utf8Bytes start)
  else return false

/-- The text with the prefix replaced; what is behind the prefix keeps its case. -/
def replaceBytes (text start replacement : String) : Except BadSlice (Option String) := do
  if ← startsWithBytes text start then
    return some (replacement ++ (← textBehind text start.utf8ByteSize))
  else return none

/-- The text starts with the prefix up to the case of ASCII letters. -/
def startsWithFold (text start : String) : Bool :=
  (startsWithBytes text start).toOption.getD false

/-- The text with the prefix replaced; `none` when it does not start with it. -/
def replacePrefix? (text start replacement : String) : Option String :=
  (replaceBytes text start replacement).toOption.join

end Relocate.Text
