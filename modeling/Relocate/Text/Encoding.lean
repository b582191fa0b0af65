/-!
# Texts in files

Most files are UTF-8.  Others start with a byte order mark that says how they are
encoded, or come from old programs that wrote one byte for each character.  A
byte order mark is no part of the text.
-/

namespace Relocate.Text

/-- The characters that the bytes from 0x80 to 0x9F stand for. -/
def highControls : List Nat := [
  0x20AC, 0x81, 0x201A, 0x0192, 0x201E, 0x2026, 0x2020, 0x2021, 0x02C6, 0x2030, 0x0160, 0x2039,
  0x0152, 0x8D, 0x017D, 0x8F, 0x90, 0x2018, 0x2019, 0x201C, 0x201D, 0x2022, 0x2013, 0x2014,
  0x02DC, 0x2122, 0x0161, 0x203A, 0x0153, 0x9D, 0x017E, 0x0178]

/-- The character that a single byte stands for. -/
def singleByte (byte : UInt8) : Char :=
  let code := byte.toNat
  if 0x80 ≤ code ∧ code < 0xA0 then Char.ofNat (highControls.getD (code - 0x80) code)
  else Char.ofNat code

/-- The codes in pairs of bytes; `none` when a byte is left over. -/
def codeUnits? (join : Nat → Nat → Nat) : List UInt8 → Option (List Nat)
  | [] => some []
  | [_] => none
  | a :: b :: rest => (codeUnits? join rest).map fun units => join a.toNat b.toNat :: units

/-- The characters that codes of 16 bits stand for; `none` when a half of a pair
stands alone. -/
def pairedCodes? : List Nat → Option (List Char)
  | [] => some []
  | [unit] => if 0xD800 ≤ unit ∧ unit < 0xE000 then none else some [Char.ofNat unit]
  | unit :: next :: rest =>
    if 0xD800 ≤ unit ∧ unit < 0xDC00 then
      if 0xDC00 ≤ next ∧ next < 0xE000 then
        (pairedCodes? rest).map fun text =>
          Char.ofNat ((unit - 0xD800) * 0x400 + (next - 0xDC00) + 0x10000) :: text
      else none
    else if 0xDC00 ≤ unit ∧ unit < 0xE000 then none
    else (pairedCodes? (next :: rest)).map fun text => Char.ofNat unit :: text

/-- The byte order mark as a character. -/
def byteOrderMark : Char := Char.ofNat 0xFEFF

/-- The text without one byte order mark at its start. -/
def dropByteOrderMark (text : String) : String :=
  match text.toList with
  | c :: rest => if c = byteOrderMark then String.ofList rest else text
  | [] => text

/-- The text in bytes that are not UTF-8. -/
def decodeOther? (bytes : List UInt8) : Option String :=
  match bytes with
  | 0xEF :: 0xBB :: 0xBF :: _ => none
  | 0xFF :: 0xFE :: rest =>
    ((codeUnits? (fun low high => high * 256 + low) rest).bind pairedCodes?).map String.ofList
  | 0xFE :: 0xFF :: rest =>
    ((codeUnits? (fun high low => high * 256 + low) rest).bind pairedCodes?).map String.ofList
  | _ => some (String.ofList (bytes.map singleByte))

/-- The text in a file. -/
def decode? (bytes : ByteArray) : Option String :=
  let text :=
    match String.fromUTF8? bytes with
    | some text => some text
    | none => decodeOther? bytes.data.toList
  text.map dropByteOrderMark

end Relocate.Text
