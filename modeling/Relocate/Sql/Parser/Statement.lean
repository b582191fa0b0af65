import Relocate.Sql.Parser.Query

/-!
# Reading statements

Besides queries there are the commands that a view may hold by mistake:
`DROP`, `DELETE`, `UPDATE`, `INSERT`, `CREATE VIEW` and `EXPLAIN`.  `parseAll`
reads all statements of a text.
-/

namespace Relocate.Sql

namespace Command

open Relocate.Sql.Parser Text

/-- Parts separated by commas. -/
def listParts (parts : List Part) : List Part :=
  parts.intersperse (.words ", ")

/-- A part behind some words, when there is one. -/
def optionalPart (words : String) (part : Option Part) : List Part :=
  match part with
  | none => []
  | some part => [.words words, part]

/-- The condition of a command, when there is one. -/
def condition? (g : Grammar) : Parser (List Part) := do
  let value ← after? "WHERE" (g.expr Level.none)
  return optionalPart " WHERE " (value.map Part.expr)

/-- The columns that a command returns, when it is said. -/
def returning? (g : Grammar) : Parser (List Part) := do
  if ← keyword? "RETURNING" then
    let items ← commaSeparated (Selection.item g)
    return .words " RETURNING " :: listParts (items.map Part.item)
  else return []

/-- `DELETE`, behind that word. -/
def delete (g : Grammar) : Parser Statement := do
  let marked ← keyword? "FROM"
  let tables ← commaSeparated (Table.parser g)
  let others ←
    if ← keyword? "USING" then
      (fun tables => .words " USING " :: listParts (tables.map Part.tables)) <$>
        commaSeparated (Table.parser g)
    else pure []
  let condition ← condition? g
  let returning ← returning? g
  let ordering ←
    if ← keywords? ["ORDER", "BY"] then
      (fun keys => [Part.words " ", .expr (.clause "ORDER BY" keys)]) <$>
        commaSeparated (Expression.sortKey g)
    else pure []
  let limit ←
    if ← keyword? "LIMIT" then
      if ← keyword? "ALL" then pure []
      else (fun value => [Part.words " LIMIT ", .expr value]) <$> g.expr Level.none
    else pure []
  return .command ([.words (if marked then "DELETE FROM " else "DELETE ")] ++
    listParts (tables.map Part.tables) ++ others ++ condition ++ returning ++ ordering ++ limit)

/-- A column and its new value. -/
def assignment (g : Grammar) : Parser (List Part) := do
  let mentioned (column : Name) : Part := .expr (.mention .column "" column "")
  let target ←
    if ← symbol? "(" then
      let columns ← commaSeparated name
      symbol ")"
      pure ([.words "("] ++ listParts (columns.map mentioned) ++ [.words ")"])
    else (fun column : Name => [mentioned column]) <$> name
  symbol "="
  let value ← g.expr Level.none
  return target ++ [.words " = ", .expr value]

/-- The assignments of a command. -/
def assignments (g : Grammar) : Parser (List Part) := do
  let values ← commaSeparated (assignment g)
  return (values.intersperse [.words ", "]).flatten

/-- `UPDATE`, behind that word. -/
def update (g : Grammar) : Parser Statement := do
  let table ← Table.parser g
  keyword "SET"
  let values ← assignments g
  let source ← after? "FROM" (Table.parser g)
  let condition ← condition? g
  let returning ← returning? g
  return .command ([.words "UPDATE ", .tables table, .words " SET "] ++ values ++
    optionalPart " FROM " (source.map Part.tables) ++ condition ++ returning)

/-- A query comes next, possibly in parentheses. -/
def atQueryStart : Parser Bool := do
  match ← remaining with
  | ⟨⟨.symbol "(", _⟩, _⟩ :: ⟨_, word⟩ :: _ => return word == "SELECT" || word == "WITH"
  | _ => return false

/-- `INSERT`, behind that word. -/
def insert (g : Grammar) : Parser Statement := do
  let overwrite ← keyword? "OVERWRITE"
  let into ← keyword? "INTO"
  let marked ← keyword? "TABLE"
  let target ← name
  let start := "INSERT" ++ (if overwrite then " OVERWRITE" else "") ++
    (if into then " INTO" else "") ++ (if marked then " TABLE" else "") ++ " "
  if ← keywords? ["DEFAULT", "VALUES"] then
    let returning ← returning? g
    return .command ([.words start, .target target, .words " DEFAULT VALUES"] ++ returning)
  let columns ←
    if ← atQueryStart then pure ""
    else if ← atSymbol "(" then
      (fun columns => "(" ++ commaList (columns.map Ident.render) ++ ") ") <$> columnNames
    else pure ""
  let source ← g.query
  let returning ← returning? g
  return .command ([.words start, .target target, .words (" " ++ columns), .query source] ++
    returning)

/-- The kinds of objects that can be dropped. -/
def droppable : List String := [
  "TABLE", "VIEW", "INDEX", "ROLE", "SCHEMA", "DATABASE", "SEQUENCE", "STAGE", "TYPE"]

/-- `DROP`, behind that word. -/
def drop : Parser Statement := do
  let temporary ← keyword? "TEMPORARY"
  let persistent := if temporary then "TEMPORARY " else ""
  let kind ←
    if ← keywords? ["MATERIALIZED", "VIEW"] then pure "MATERIALIZED VIEW"
    else
      match ← oneOf? droppable with
      | some word => pure word
      | none =>
        expected ("TABLE, VIEW, INDEX, ROLE, SCHEMA, DATABASE, FUNCTION, PROCEDURE, STAGE, " ++
          "TRIGGER, SECRET, SEQUENCE, TYPE, or MATERIALIZED VIEW after DROP")
  let guarded ← keywords? ["IF", "EXISTS"]
  let names ← commaSeparated name
  let cascade ← keyword? "CASCADE"
  let restrict ← keyword? "RESTRICT"
  let purge ← keyword? "PURGE"
  if cascade && restrict then
    failHere "Cannot specify both CASCADE and RESTRICT in DROP"
  return .command [.words ("DROP " ++ persistent ++ kind ++
    (if guarded then " IF EXISTS " else " ") ++
    commaList (names.map fun name : Name => name.render) ++
    (if cascade then " CASCADE" else "") ++ (if restrict then " RESTRICT" else "") ++
    (if purge then " PURGE" else ""))]

/-- `CREATE VIEW`, behind the word `CREATE`. -/
def create (g : Grammar) : Parser Statement := do
  let replace ← keywords? ["OR", "REPLACE"]
  let temporary := (← oneOf? ["TEMP", "TEMPORARY"]).isSome
  let materialized ← keyword? "MATERIALIZED"
  unless ← keyword? "VIEW" do expected "an object type after CREATE"
  let guarded ← keywords? ["IF", "NOT", "EXISTS"]
  let target ← name
  let columns ← if ← atSymbol "(" then columnNames else pure []
  keyword "AS"
  let source ← g.query
  return .command [.words ("CREATE " ++ (if replace then "OR REPLACE " else "") ++
    (if materialized then "MATERIALIZED " else "") ++ (if temporary then "TEMPORARY " else "") ++
    "VIEW " ++ (if guarded then "IF NOT EXISTS " else "") ++ target.render ++
    (if columns.isEmpty then "" else " (" ++ commaList (columns.map Ident.render) ++ ")") ++
    " AS "), .query source]

/-- The statement explains another one. -/
def isExplanation : Statement → Bool
  | .command (.words text :: _) => text.startsWith "EXPLAIN " || text.startsWith "DESCRIBE " ||
      text.startsWith "DESC "
  | _ => false

/-- `EXPLAIN` or one of its synonyms, behind that word. -/
def explain (g : Grammar) (word : String) : Parser Statement := do
  let options ←
    if ← keywords? ["QUERY", "PLAN"] then pure " QUERY PLAN"
    else if ← keyword? "ESTIMATE" then pure " ESTIMATE"
    else
      let analyze := if ← keyword? "ANALYZE" then " ANALYZE" else ""
      let verbose := if ← keyword? "VERBOSE" then " VERBOSE" else ""
      pure (analyze ++ verbose)
  match ← attempt g.statement with
  | some inner =>
    if isExplanation inner then
      fail (.failed "Explain must be root of the plan" none)
    else return .command [.words (word ++ options ++ " "), .statement inner]
  | none => return .command [.words (word ++ " " ++ (← name).render)]

/-- A command that may stand in place of the body of a query. -/
def inQuery? (g : Grammar) : Parser (Option Statement) := do
  if ← keyword? "INSERT" then return some (← insert g)
  if ← keyword? "UPDATE" then return some (← update g)
  return none

end Command

namespace Statement

open Relocate.Sql.Parser

/-- A statement. -/
def parser (g : Grammar) : Parser Statement := do
  let start ← remaining
  let word ← peekKeyword 0
  match word with
  | "SELECT" | "WITH" | "VALUES" => query <$> g.query
  | "DROP" =>
    advance
    Command.drop
  | "DELETE" =>
    advance
    Command.delete g
  | "UPDATE" =>
    advance
    Command.update g
  | "INSERT" =>
    advance
    Command.insert g
  | "CREATE" =>
    advance
    Command.create g
  | "EXPLAIN" | "DESCRIBE" | "DESC" =>
    advance
    Command.explain g word
  | _ =>
    match start with
    | ⟨⟨.symbol "(", _⟩, _⟩ :: _ => query <$> g.query
    | _ => expected "an SQL statement"

/-- How deeply expressions, queries and statements may be nested. -/
def maxDepth : Nat := 50

end Statement

/-- The readers that may nest up to a depth. -/
def Grammar.ofDepth : Nat → Grammar
  | 0 => ⟨fun _ => Parser.fail .tooDeep, Parser.fail .tooDeep, Parser.fail .tooDeep⟩
  | depth + 1 =>
    let inner := ofDepth depth
    ⟨Expression.parser inner, Query.parser inner (Command.inQuery? inner),
      Statement.parser inner⟩

namespace Statement

open Relocate.Sql.Parser

/-- The statements that remain, separated by semicolons; the fuel bounds their
number.  A lone `END` behind a statement ends the text. -/
def allFrom (g : Grammar) : Nat → Parser (List Statement)
  | 0 => pure []
  | fuel + 1 => do
    let separated := !(← many (do return if ← symbol? ";" then some () else none)).isEmpty
    let rest ← remaining
    match rest with
    | [] => return []
    | ⟨_, word⟩ :: _ =>
      if separated then
        let first ← g.statement
        return first :: (← allFrom g fuel)
      else if word == "END" then return []
      else expected "end of statement"

/-- The statements of some tokens.  The tokens are read in a row, so an error tells a
token by its column there. -/
def ofTokens (tokens : List Token) : Except ParseError (List Statement) :=
  let g := Grammar.ofDepth maxDepth
  let reader : Parser (List Statement) := do
    let _ ← many (do return if ← symbol? ";" then some () else none)
    match ← remaining with
    | [] => return []
    | _ =>
      let first ← g.statement
      return first :: (← allFrom g tokens.length)
  (reader (Lexeme.row 1 tokens)).map Prod.fst

/-- All statements of a text.  They depend on its tokens alone; the places of the tokens
matter to errors only. -/
def parseAll (text : String) : Except ParseError (List Statement) :=
  match significantTokens text with
  | .error issue => .error (.lexical issue)
  | .ok tokens =>
    match ofTokens (tokens.map Placed.token) with
    | .error issue => .error (issue.relocated (placeInText tokens))
    | .ok statements => .ok statements

end Statement

end Relocate.Sql
