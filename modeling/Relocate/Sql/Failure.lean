import Relocate.Text.Blank
import Relocate.Text.Letter

/-!
# Failures of single views

A view whose text is no statement, or whose statement cannot be written, fails
for itself and does not end a run.  The failure keeps the line that its message
names.
-/

namespace Relocate.Sql

open Text

/-- The stage at which a view failed. -/
inductive Stage
  | parse
  | format
deriving DecidableEq, Repr

/-- The name of the stage in messages. -/
def Stage.label : Stage → String
  | parse => "parse"
  | format => "format"

namespace Failure

/-- What follows a text at the start of another one. -/
def dropExact? : List Char → List Char → Option (List Char)
  | [], rest => some rest
  | _ :: _, [] => none
  | p :: ps, c :: cs => if p = c then dropExact? ps cs else none

/-- The digits of the first number that a message names as a line: after the word
`Line:` and any blanks. -/
def lineDigits? : List Char → Option (List Char)
  | [] => none
  | c :: rest =>
    match (dropExact? "Line:".toList (c :: rest)).map fun rest =>
      (rest.dropWhile isBlank).takeWhile isDecimalDigit with
    | some (d :: ds) => some (d :: ds)
    | _ => lineDigits? rest

/-- The value of ASCII digits; `none` for other digits. -/
def value? (digits : List Char) : Option Nat :=
  digits.foldlM (fun value c => if c.isDigit then some (value * 10 + (c.toNat - 48)) else none) 0

/-- The largest line number. -/
def maxLine : Nat := UInt64.size - 1

/-- The line that a message names. -/
def lineOf (message : String) : Option Nat := do
  let value ← value? (← lineDigits? message.toList)
  if value ≤ maxLine then some value else none

end Failure

/-- Why the statement of a view could not be read or written. -/
structure Failure where
  stage : Stage
  message : String
  /-- The line in the text, counted from one, when the message names one. -/
  line : Option Nat
  /-- The messages of the errors behind this one, the nearest first. -/
  causes : List String
deriving DecidableEq, Repr

namespace Failure

/-- A failure without further causes. -/
def ofMessage (stage : Stage) (message : String) : Failure :=
  ⟨stage, message, lineOf message, []⟩

/-- A failure from an error and the errors behind it; only the first one is
looked at for a line. -/
def ofChain (stage : Stage) (message : String) (causes : List String) : Failure :=
  ⟨stage, message, lineOf message, causes⟩

/-- The failure with one more cause, whose line counts when none is known yet. -/
def withCause (failure : Failure) (cause : String) : Failure :=
  { failure with
    line := failure.line <|> lineOf cause
    causes := failure.causes ++ [cause] }

/-- The failure on one line. -/
def describe (failure : Failure) : String :=
  "SQL " ++ failure.stage.label ++ " error: " ++ failure.message

end Failure

end Relocate.Sql
