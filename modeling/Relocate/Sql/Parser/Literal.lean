import Relocate.Sql.Parser.DataType

/-!
# Constants

A constant is kept as the text that it is written as, so reading one decides
its spelling: truth values in lower case, `NULL` in upper case, text constants
with their quotes doubled or their escapes restored.
-/

namespace Relocate.Sql

namespace Literal

open Relocate.Sql.Parser Text Lexer

/-- A character of an escape constant. -/
def escapedCharacter (c : Char) : List Char :=
  match c with
  | '\'' => ['\\', '\'']
  | '\\' => ['\\', '\\']
  | '\n' => ['\\', 'n']
  | '\t' => ['\\', 't']
  | '\r' => ['\\', 'r']
  | _ => [c]

/-- Upper-case hexadecimal digits of a number, at least `width` of them. -/
def paddedHex (width value : Nat) : List Char :=
  let digits := (Nat.toDigits 16 value).map Char.toUpper
  List.replicate (width - digits.length) '0' ++ digits

/-- A character of a constant with code point escapes. -/
def unicodeCharacter (c : Char) : List Char :=
  match c with
  | '\'' => ['\'', '\'']
  | '\\' => ['\\', '\\']
  | _ =>
    let code := c.toNat
    if code < 0x80 then [c]
    else if code ≤ 0xFFFF then '\\' :: paddedHex 4 code
    else '\\' :: '+' :: paddedHex 6 code

/-- A text constant as it is written. -/
def writeQuoted (form : Quotation) (value : String) : String :=
  match form with
  | .plain => inQuotes '\'' value
  | .escaped => "E'" ++ String.ofList (value.toList.flatMap escapedCharacter) ++ "'"
  | .unicode => "U&'" ++ String.ofList (value.toList.flatMap unicodeCharacter) ++ "'"
  | _ => form.opening ++ value ++ form.closing

/-- The text of a token that is a constant by itself. -/
def ofToken? : Token → Option String
  | .number digits long => some (Token.number digits long).text
  | .quoted form value => some (writeQuoted form value)
  | .dollarQuoted tag value => some (Token.dollarQuoted tag value).text
  | .placeholder text => some text
  | _ => none

/-- What follows the mark of a named parameter. -/
def parameterName : Parser String :=
  fun rest =>
    match rest with
    | ⟨⟨.word ident, _⟩, _⟩ :: tail => .ok (ident.value, tail)
    | ⟨⟨.number digits false, _⟩, _⟩ :: tail => .ok (digits, tail)
    | _ => expected "placeholder" rest

/-- Reads a constant. -/
def parser : Parser String :=
  fun rest =>
    match rest with
    | ⟨⟨.word ident, _⟩, word⟩ :: tail =>
      match word, ident.quote with
      | "TRUE", _ => .ok ("true", tail)
      | "FALSE", _ => .ok ("false", tail)
      | "NULL", _ => .ok ("NULL", tail)
      | _, some '"' => .ok (inQuotes '"' ident.value, tail)
      | _, some _ => expected "A value?" rest
      | _, none => expected "a concrete value" rest
    | ⟨⟨.symbol ":", _⟩, _⟩ :: tail => ((":" ++ ·) <$> parameterName) tail
    | ⟨⟨.symbol "@", _⟩, _⟩ :: tail => (("@" ++ ·) <$> parameterName) tail
    | ⟨⟨token, _⟩, _⟩ :: tail =>
      match ofToken? token with
      | some text => .ok (text, tail)
      | none => expected "a value" rest
    | [] => expected "a value" rest

/-- Reads a text: a text constant, or a word that is no keyword. -/
def text : Parser String :=
  fun rest =>
    match rest with
    | ⟨⟨.word ident, _⟩, word⟩ :: tail =>
      if Keyword.allKeywords.contains word then expected "literal string" rest
      else .ok (ident.value, tail)
    | ⟨⟨.quoted .plain value, _⟩, _⟩ :: tail => .ok (value, tail)
    | ⟨⟨.quoted .escaped value, _⟩, _⟩ :: tail => .ok (value, tail)
    | ⟨⟨.quoted .unicode value, _⟩, _⟩ :: tail => .ok (value, tail)
    | _ => expected "literal string" rest

/-- Reads a number. -/
def number : Parser String :=
  fun rest =>
    match rest with
    | ⟨⟨.number digits long, _⟩, _⟩ :: tail => .ok ((Token.number digits long).text, tail)
    | ⟨⟨.placeholder text, _⟩, _⟩ :: tail => .ok (text, tail)
    | _ => expected "literal number" rest

/-- The units of time that may follow an interval. -/
def timeUnits : List String := [
  "YEAR", "YEARS", "MONTH", "MONTHS", "WEEK", "WEEKS", "DAY", "DAYS", "DATE", "DATETIME",
  "HOUR", "HOURS", "MINUTE", "MINUTES", "SECOND", "SECONDS", "CENTURY", "DECADE", "DOW",
  "DOY", "EPOCH", "ISODOW", "ISOYEAR", "JULIAN", "MICROSECOND", "MICROSECONDS",
  "MILLENIUM", "MILLENNIUM", "MILLISECOND", "MILLISECONDS", "NANOSECOND", "NANOSECONDS",
  "QUARTER", "TIME", "TIMEZONE", "TIMEZONE_ABBR", "TIMEZONE_HOUR", "TIMEZONE_MINUTE",
  "TIMEZONE_REGION"]

/-- The fields of a time that have a name of their own. -/
def timeFields : List String :=
  timeUnits ++ ["DAYOFWEEK", "DAYOFYEAR", "ISOWEEK"]

/-- Reads a field of a time; any other word or text is a field of that name. -/
def timeField : Parser String := do
  match ← remaining with
  | ⟨⟨.word ident, _⟩, word⟩ :: _ =>
    advance
    if word == "WEEK" then
      if ← symbol? "(" then
        let day ← Parser.ident
        symbol ")"
        return "WEEK(" ++ day.render ++ ")"
      return "WEEK"
    if timeFields.contains word then return word
    return ident.render
  | ⟨⟨.quoted .plain value, _⟩, _⟩ :: _ =>
    advance
    return inQuotes '\'' value
  | _ => expected "date/time field"

end Literal

end Relocate.Sql
