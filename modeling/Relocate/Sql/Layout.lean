import Relocate.Sql.Failure
import Relocate.Sql.Keyword
import Relocate.Sql.Lexer

/-!
# Layout of statements

`reindent` puts every clause of a query on a line of its own.  The clauses of a
query in parentheses are indented by one level for each query around it; other
parentheses, as in `OVER (ORDER BY d)`, stay on their line.

The places of the breaks are found on the tokens alone; then the text is cut
there, so nothing but the blanks before a break changes.
-/

namespace Relocate.Sql

open Text

namespace Layout

/-- The columns of one level of indentation. -/
def indentWidth : Nat := 2

/-- Words before `JOIN` that start the clause in its place. -/
def joinWords : List String :=
  ["LEFT", "RIGHT", "FULL", "INNER", "CROSS", "OUTER", "NATURAL"]

/-- A word starts a clause, judged by the keywords before and after it. -/
def startsClause (before word after : String) : Bool :=
  match word with
  | "SELECT" | "FROM" | "WHERE" | "HAVING" | "LIMIT" | "OFFSET" | "UNION" | "EXCEPT"
  | "INTERSECT" | "INNER" | "CROSS" | "NATURAL" => true
  | "GROUP" | "ORDER" => after == "BY"
  | "LEFT" | "RIGHT" | "FULL" => after == "JOIN" || after == "OUTER"
  | "JOIN" =>
    !joinWords.contains before
  | _ => false

/-- A place where a line is to start, and the number of queries around it. -/
structure Break where
  place : Location
  depth : Nat
deriving DecidableEq, Repr

/-- The breaks of a token list.  `open` holds one entry for each open
parenthesis, the innermost first: whether it holds a query. -/
def breaks (before : Token) (opened : List Bool) : List Placed → List Break
  | [] => []
  | ⟨token, place⟩ :: rest =>
    match token with
    | .symbol "(" => breaks token (false :: opened) rest
    | .symbol ")" => breaks token (opened.drop 1) rest
    | .word _ =>
      let word := token.keyword
      if before = .symbol "(" ∧ (word = "SELECT" ∨ word = "WITH") then
        breaks token (true :: opened.drop 1) rest
      else
        let after := (rest.head?.map fun next => next.token.keyword).getD ""
        if opened.headD true && startsClause before.keyword word after then
          ⟨place, opened.countP id⟩ :: breaks token opened rest
        else breaks token opened rest
    | _ => breaks token opened rest

/-- The breaks of a whole text; its first token starts no line. -/
def allBreaks : List Placed → List Break
  | [] => []
  | ⟨token, _⟩ :: rest => breaks token (if token = .symbol "(" then [false] else []) rest

/-- The text cut at the breaks: what stands before the first break, and for each
break what follows it up to the next one. -/
def cut : List Break → Location → List Char → List Char × List (Nat × List Char)
  | _, _, [] => ([], [])
  | [], _, text => (text, [])
  | next :: breaks, place, c :: rest =>
    if next.place = place then
      let (line, lines) := cut breaks (place.step c) rest
      ([], (next.depth, c :: line) :: lines)
    else
      let (line, lines) := cut (next :: breaks) (place.step c) rest
      (c :: line, lines)

/-- The lines of a cut text; only the last one keeps the blanks at its end. -/
def assemble (line : List Char) : List (Nat × List Char) → List Char
  | [] => line
  | (depth, next) :: lines =>
    trimEnd line ++ '\n' :: List.replicate (depth * indentWidth) ' ' ++ assemble next lines

end Layout

/-- The text with every clause of a query on a line of its own. -/
def reindent (sql : String) : Except Failure String :=
  match significantTokens sql with
  | .error issue => .error (.ofMessage .format issue.describe)
  | .ok tokens =>
    let (line, lines) := Layout.cut (Layout.allBreaks tokens) Location.start sql.toList
    .ok (String.ofList (Layout.assemble line lines))

end Relocate.Sql
