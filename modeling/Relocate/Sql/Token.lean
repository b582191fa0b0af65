import Relocate.Sql.Ident

/-!
# Tokens

The lexical elements of a statement and where each starts.  A token is printed
in messages by `Token.text`, which shows a quoted text without escapes.
-/

namespace Relocate.Sql

/-- A place in a text: line and column count from one, columns in characters. -/
structure Location where
  line : Nat
  column : Nat
deriving DecidableEq, Repr, Inhabited

namespace Location

/-- The first character of a text. -/
def start : Location := ⟨1, 1⟩

/-- The place after a character. -/
def step (place : Location) (c : Char) : Location :=
  if c = '\n' then ⟨place.line + 1, 1⟩ else ⟨place.line, place.column + 1⟩

/-- How a message names the place. -/
def describe (place : Location) : String :=
  " at Line: " ++ toString place.line ++ ", Column: " ++ toString place.column

end Location

/-- The ways to write a text constant. -/
inductive Quotation
  | plain
  | national
  | escaped
  | unicode
  | hexadecimal
  | bytes (quote : Char)
  | raw (quote : Char)
  | rawTriple (quote : Char)
deriving DecidableEq, Repr

namespace Quotation

/-- What opens a constant of this kind. -/
def opening : Quotation → String
  | plain => "'"
  | national => "N'"
  | escaped => "E'"
  | unicode => "U&'"
  | hexadecimal => "X'"
  | bytes quote => "B" ++ quote.toString
  | raw quote => "R" ++ quote.toString
  | rawTriple quote => "R" ++ quote.toString ++ quote.toString ++ quote.toString

/-- What closes a constant of this kind. -/
def closing : Quotation → String
  | bytes quote | raw quote => quote.toString
  | rawTriple quote => quote.toString ++ quote.toString ++ quote.toString
  | _ => "'"

end Quotation

/-- A lexical element. -/
inductive Token
  /-- A blank or a comment. -/
  | blank (text : String)
  /-- A bare or quoted word. -/
  | word (ident : Ident)
  /-- A number as written; `long` marks a trailing `L`. -/
  | number (digits : String) (long : Bool)
  /-- A text constant. -/
  | quoted (form : Quotation) (value : String)
  /-- A text constant between dollar marks. -/
  | dollarQuoted (tag value : String)
  /-- A parameter such as `?` or `$1`. -/
  | placeholder (text : String)
  /-- A punctuation mark or an operator, or any other character. -/
  | symbol (text : String)
deriving DecidableEq, Repr

namespace Token

/-- The token as messages show it. -/
def text : Token → String
  | blank text => text
  | word ⟨value, none⟩ => value
  | word ⟨value, some quote⟩ => quote.toString ++ value ++ quote.toString
  | number digits long => if long then digits ++ "L" else digits
  | quoted form value => form.opening ++ value ++ form.closing
  | dollarQuoted tag value => "$" ++ tag ++ "$" ++ value ++ "$" ++ tag ++ "$"
  | placeholder text => text
  | symbol text => text

/-- The token separates others and has no meaning of its own. -/
def isBlank : Token → Bool
  | blank _ => true
  | _ => false

end Token

/-- A token and the place where it starts. -/
structure Placed where
  token : Token
  place : Location
deriving DecidableEq, Repr

end Relocate.Sql
