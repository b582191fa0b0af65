import Relocate.Text.Blank

/-!
# Comments

Texts of views hold `//` comments and block comments over several lines; the
parser is given `--` comments only.  `normalizeComments` works on trimmed lines
and carries from line to line whether a block comment is open.  A line that is
cut at block comments becomes one line for each of its pieces.
-/

namespace Relocate.Sql

open Text

namespace Comments

/-- What stands before and after the first place where two characters follow one
another. -/
def splitAtMark? (a b : Char) : List Char → Option (List Char × List Char)
  | [] => none
  | [_] => none
  | c :: d :: rest =>
    if c = a ∧ d = b then some ([], rest)
    else (splitAtMark? a b (d :: rest)).map fun (front, back) => (c :: front, back)

/-- A piece of a line. -/
inductive Piece
  | code (text : List Char)
  | comment (text : List Char)
deriving DecidableEq, Repr

/-- The output line of a piece, unless the piece is blank. -/
def Piece.line? : Piece → Option (List Char)
  | code text => if (trim text).isEmpty then none else some (trim text)
  | comment text => if (trim text).isEmpty then none else some ('-' :: '-' :: ' ' :: trim text)

/-- The pieces of a line and whether a block comment is open behind it; `inside`
says whether one is open before it.  Every piece but the last is followed by a
mark, so the length of the line is enough fuel. -/
def pieces : Nat → Bool → List Char → List Piece × Bool
  | 0, inside, _ => ([], inside)
  | fuel + 1, true, rest =>
    match splitAtMark? '*' '/' rest with
    | some (front, back) =>
      let (more, inside) := pieces fuel false (trim back)
      (.comment front :: more, inside)
    | none => ([.comment rest], true)
  | fuel + 1, false, rest =>
    match splitAtMark? '/' '*' rest with
    | some (front, back) =>
      let (more, inside) := pieces fuel true (trim back)
      (.code front :: more, inside)
    | none => ([.code rest], false)

/-- The output lines of a line that is cut at block comments. -/
def cutLine (inside : Bool) (line : List Char) : List (List Char) × Bool :=
  let (found, inside) := pieces line.length inside line
  (found.filterMap Piece.line?, inside)

/-- What follows the marks of a comment that takes the whole line. -/
def lineComment? : List Char → Option (List Char)
  | '/' :: '/' :: text => some text
  | '-' :: '-' :: text => some text
  | _ => none

/-- A whole line as a comment; one blank after the marks is not doubled. -/
def commentLine (text : List Char) : List Char :=
  match text with
  | ' ' :: rest => '-' :: '-' :: ' ' :: rest
  | _ => '-' :: '-' :: ' ' :: text

/-- The line with `--` for every `//` that follows a space. -/
def replaceSlashes : List Char → List Char
  | ' ' :: '/' :: '/' :: rest => ' ' :: '-' :: '-' :: replaceSlashes rest
  | c :: rest => c :: replaceSlashes rest
  | [] => []

/-- A block comment is opened on the line before any `--` comment. -/
def opensBlock (line : List Char) : Bool :=
  match splitAtMark? '/' '*' line with
  | some (front, _) => (splitAtMark? '-' '-' front).isNone
  | none => false

/-- The output lines of a trimmed line and whether a block comment is open
behind it. -/
def normalizeLine (inside : Bool) (line : List Char) : List (List Char) × Bool :=
  if inside then cutLine true line
  else
    match lineComment? line with
    | some text => ([commentLine text], false)
    | none => if opensBlock line then cutLine false line else ([replaceSlashes line], false)

/-- The output lines of all lines. -/
def normalizeLines : Bool → List (List Char) → List (List Char)
  | _, [] => []
  | inside, line :: rest =>
    let (found, inside) := normalizeLine inside (trim line)
    found ++ normalizeLines inside rest

end Comments

/-- The text with trimmed lines and every comment as a `--` comment. -/
def normalizeComments (sql : String) : String :=
  join "\n" ((Comments.normalizeLines false (lines sql.toList)).map String.ofList)

end Relocate.Sql
