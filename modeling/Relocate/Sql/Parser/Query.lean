import Relocate.Sql.Parser.Table

/-!
# Reading queries

A query is a `WITH` clause, a body and the clauses behind the body.  The body
combines selects, lists of rows and queries in parentheses; `INTERSECT` binds
more strongly than `UNION` and `EXCEPT`.
-/

namespace Relocate.Sql

namespace Selection

open Relocate.Sql.Parser Text

/-- A column and its new name. -/
def newName : Parser String := do
  let column ← ident
  keyword "AS"
  return column.render ++ " AS " ++ (← ident).render

/-- The options behind a star. -/
def starOptions (g : Grammar) : Parser (List Expr) := do
  let similar ←
    if ← keyword? "ILIKE" then
      match ← remaining with
      | ⟨⟨.quoted .plain value, _⟩, _⟩ :: _ =>
        advance
        pure [Expr.constant ("ILIKE " ++ inQuotes '\'' value)]
      | _ => (expected "ilike pattern" : Parser (List Expr))
    else pure []
  let exclude ←
    if similar.isEmpty then
      if ← keyword? "EXCLUDE" then
        if ← atSymbol "(" then
          (fun columns => [Expr.constant ("EXCLUDE (" ++
            commaList (columns.map Ident.render) ++ ")")]) <$> columnNames
        else (fun column => [Expr.constant ("EXCLUDE " ++ column.render)]) <$> ident
      else pure []
    else pure []
  let except ←
    if ← keyword? "EXCEPT" then
      let columns ← if ← atSymbol "(" then columnNames else (fun column => [column]) <$> ident
      pure [Expr.constant ("EXCEPT (" ++ commaList (columns.map Ident.render) ++ ")")]
    else pure []
  let replace ←
    if ← keyword? "REPLACE" then
      if ← symbol? "(" then
        let elements ← commaSeparated do
          let value ← g.expr Level.none
          let marked ← keyword? "AS"
          let column ← ident
          return Expr.suffixed value ((if marked then " AS " else " ") ++ column.render)
        symbol ")"
        pure [Expr.enclosed "REPLACE (" elements ")"]
      else (expected "( after REPLACE but" : Parser (List Expr))
    else pure []
  let rename ←
    if ← keyword? "RENAME" then
      if ← symbol? "(" then
        let pairs ← commaSeparated newName
        symbol ")"
        pure [Expr.constant ("RENAME (" ++ commaList pairs ++ ")")]
      else (fun pair => [Expr.constant ("RENAME " ++ pair)]) <$> newName
    else pure []
  return similar ++ exclude ++ except ++ replace ++ rename

/-- The word that ends the list of items, when it was read as a column. -/
def endingWord? (value : Expr) : Option String :=
  match value with
  | .column ⟨word, none⟩ =>
    if word.toList.map Char.toLower == ['f', 'r', 'o', 'm'] then some word else none
  | _ => none

/-- An item of a select. -/
def item (g : Grammar) : Parser Item := do
  match ← Expression.starred g with
  | .all => return .all (← starOptions g)
  | .allOf qualifier => return .allOf qualifier (← starOptions g)
  | .expr value =>
    match endingWord? value with
    | some word => failHere ("Expected an expression, found: " ++ word)
    | none => return .expr value (← alias? Keyword.notColumnAlias)

/-- Which duplicates a select drops, when it is said. -/
def duplicates? (g : Grammar) : Parser (List Expr) := do
  let start ← remaining
  let all ← keyword? "ALL"
  unless ← keyword? "DISTINCT" do return []
  if all then
    resume start
    failHere "Cannot specify both ALL and DISTINCT"
  unless ← keyword? "ON" do return [.constant "DISTINCT"]
  symbol "("
  let keys ← commaSeparatedUntil ")" (g.expr Level.none)
  symbol ")"
  return [.enclosed "DISTINCT ON (" keys ")"]

/-- How many rows a select keeps, when it is said before its items. -/
def top? (g : Grammar) : Parser (List Expr) := do
  unless ← keyword? "TOP" do return []
  if ← symbol? "(" then
    let amount ← g.expr Level.none
    symbol ")"
    return [.enclosed "TOP (" [amount] (")" ++ (← suffix))]
  let amount ← DataType.count
  return [.constant ("TOP " ++ toString amount ++ (← suffix))]
where
  /-- Whether the amount is a percentage and whether ties are kept. -/
  suffix : Parser String := do
    let percent := if ← keyword? "PERCENT" then " PERCENT" else ""
    let ties := if ← keywords? ["WITH", "TIES"] then " WITH TIES" else ""
    return percent ++ ties

/-- The table that the rows go to, when it is said. -/
def target? : Parser (Option Target) := do
  unless ← keyword? "INTO" do return none
  let temporary ← oneOf? ["TEMP", "TEMPORARY"]
  let unlogged ← keyword? "UNLOGGED"
  let table ← keyword? "TABLE"
  let tableName ← name
  return some ⟨" INTO " ++ (if temporary.isSome then "TEMPORARY " else "") ++
    (if unlogged then "UNLOGGED " else "") ++ (if table then "TABLE " else ""), tableName⟩

/-- Expressions in parentheses, possibly none; `bare` says whether a single
expression may stand without parentheses. -/
def group (g : Grammar) (bare : Bool) : Parser (List Expr) := do
  if bare then
    unless ← atSymbol "(" do return [← g.expr Level.none]
  symbol "("
  if ← symbol? ")" then return []
  let values ← commaSeparated (g.expr Level.none)
  symbol ")"
  return values

/-- A group as it is written among other groups. -/
def groupText (values : List Expr) : Expr :=
  match values with
  | [value] => value
  | _ => .parenthesized values

/-- A key of a `GROUP BY` clause. -/
def groupKey (g : Grammar) : Parser Expr := do
  if ← keywords? ["GROUPING", "SETS"] then
    let sets ← parenthesized (commaSeparated (group g false))
    return .enclosed "GROUPING SETS (" (sets.map Expr.parenthesized) ")"
  match ← oneOf? ["CUBE", "ROLLUP"] with
  | some word =>
    let sets ← parenthesized (commaSeparated (group g true))
    return .enclosed (word ++ " (") (sets.map groupText) ")"
  | none =>
    match ← remaining with
    | ⟨⟨.symbol "(", _⟩, _⟩ :: ⟨⟨.symbol ")", _⟩, _⟩ :: _ =>
      advance
      advance
      return .constant "()"
    | _ => g.expr Level.none

/-- A modifier behind the keys of a `GROUP BY` clause. -/
def groupModifier? : Parser (Option Expr) := do
  unless ← keyword? "WITH" do return none
  match ← oneOf? ["ROLLUP", "CUBE", "TOTALS"] with
  | some word => return some (.constant ("WITH " ++ word))
  | none => expected "one of ROLLUP or CUBE or TOTALS"

/-- A `GROUP BY` clause, when there is one. -/
def grouping? (g : Grammar) : Parser (List Expr) := do
  unless ← keywords? ["GROUP", "BY"] do return []
  let keys ←
    if ← keyword? "ALL" then pure (Expr.constant "GROUP BY ALL")
    else Expr.clause "GROUP BY" <$> commaSeparated (groupKey g)
  let modifiers ← many groupModifier?
  return keys :: modifiers

/-- A named window. -/
def namedWindow (g : Grammar) : Parser Expr := do
  let label ← ident
  keyword "AS"
  if ← symbol? "(" then
    let window ← Expression.window g (Expression.operand g)
    return .enclosed (label.render ++ " AS (") [window] ")"
  return .constant (label.render ++ " AS " ++ (← ident).render)

/-- The `WINDOW` and `QUALIFY` clauses.  The windows are visited first, even
when they are written second. -/
def finalClauses (g : Grammar) : Parser (List Expr) := do
  let windows : Parser Expr := Expr.clause "WINDOW" <$> commaSeparated (namedWindow g)
  let qualify : Parser Expr := (fun value => Expr.clause "QUALIFY" [value]) <$> g.expr Level.none
  if ← keyword? "WINDOW" then
    let first ← windows
    return first :: (← after? "QUALIFY" qualify).toList
  if ← keyword? "QUALIFY" then
    let first ← qualify
    match ← after? "WINDOW" windows with
    | none => return [first]
    | some second => return [.swapped second first]
  return []

/-- A clause with a single expression behind its word, when it comes next. -/
def single? (g : Grammar) (word : String) : Parser (List Expr) := do
  if ← keyword? word then return [.clause word [← g.expr Level.none]]
  else return []

/-- A clause with a list of expressions behind its words, when it comes next. -/
def listed? (g : Grammar) (words : List String) : Parser (List Expr) := do
  if ← keywords? words then
    return [.clause (join " " words) (← commaSeparated (g.expr Level.none))]
  else return []

/-- A select, from its first word on. -/
def select (g : Grammar) : Parser Select := do
  keyword "SELECT"
  let duplicates ← duplicates? g
  let top ← top? g
  let items ←
    if (← peekKeyword 0) == "FROM" then pure []
    else commaSeparated (item g)
  let target ← target?
  let tables ← if ← keyword? "FROM" then commaSeparated (Table.parser g) else pure []
  let prewhere ← single? g "PREWHERE"
  let condition ← single? g "WHERE"
  let grouping ← grouping? g
  let cluster ← listed? g ["CLUSTER", "BY"]
  let distribute ← listed? g ["DISTRIBUTE", "BY"]
  let sort ← listed? g ["SORT", "BY"]
  let having ← single? g "HAVING"
  let final ← finalClauses g
  return .mk (duplicates ++ top) items target tables
    (prewhere ++ condition ++ grouping ++ cluster ++ distribute ++ sort ++ having ++ final)

end Selection

namespace Combination

open Relocate.Sql.Parser Text

/-- The words behind an operator that say which duplicates it drops. -/
def quantifier : Parser String := do
  if ← keywords? ["DISTINCT", "BY", "NAME"] then return " DISTINCT BY NAME"
  if ← keywords? ["BY", "NAME"] then return " BY NAME"
  if ← keyword? "ALL" then
    if ← keywords? ["BY", "NAME"] then return " ALL BY NAME"
    return " ALL"
  if ← keyword? "DISTINCT" then return " DISTINCT"
  return ""

/-- How strongly an operator between queries binds; zero for other words. -/
def level (word : String) : Nat :=
  match word with
  | "UNION" | "EXCEPT" => 10
  | "INTERSECT" => 20
  | _ => 0

/-- The words that name a table that stands for all its rows.  Three tokens are
taken, also when the name has no schema in front of it. -/
def tableName : Parser (List String) := do
  match ← remaining with
  | ⟨⟨.word schema, _⟩, _⟩ :: ⟨⟨.symbol ".", _⟩, _⟩ :: rest =>
    match rest with
    | ⟨⟨.word table, _⟩, _⟩ :: rest =>
      resume rest
      return [schema.value, table.value]
    | _ =>
      resume rest
      expected "Table name"
  | ⟨⟨.word table, _⟩, _⟩ :: rest =>
    resume (rest.drop 2)
    return [table.value]
  | _ :: ⟨⟨.symbol ".", _⟩, _⟩ :: _ => expected "Schema name"
  | _ => expected "Table name"

/-- A body without operators. -/
def plain (g : Grammar) : Parser Body := do
  let word ← peekKeyword 0
  if word == "SELECT" then return .select (← Selection.select g)
  if ← symbol? "(" then
    let query ← g.query
    symbol ")"
    return .query query
  if ← keyword? "VALUES" then return .values (← Table.rows g)
  if ← keyword? "TABLE" then return .table (← tableName)
  expected "SELECT, VALUES, or a subquery in the query body"

/-- A body whose operators bind more strongly than a level; the fuel bounds
the nesting of operators. -/
def bodyFrom (g : Grammar) : Nat → Nat → Parser Body
  | 0, _ => plain g
  | fuel + 1, limit => do
    let left ← plain g
    grow (fun left => do
      let word ← peekKeyword 0
      if level word ≤ limit then return none
      else
        advance
        let words := word ++ (← quantifier)
        let right ← bodyFrom g fuel (level word)
        return some (Body.combined words left right)) left

/-- The body of a query. -/
def body (g : Grammar) : Parser Body := do
  bodyFrom g 2 0

end Combination

namespace Query

open Relocate.Sql.Parser Text

/-- A query named in a `WITH` clause. -/
def named (g : Grammar) : Parser Named := do
  let label ← ident
  let columns ←
    if ← keyword? "AS" then pure []
    else
      let columns ← Table.aliasColumns
      keyword "AS"
      pure columns
  symbol "("
  let inner ← g.query
  symbol ")"
  let source ← after? "FROM" ident
  return .mk ⟨label, columns⟩ inner source

/-- How the values of filled rows are computed, when it is said. -/
def interpolation? (g : Grammar) : Parser (List Expr) := do
  unless ← keyword? "INTERPOLATE" do return []
  if ← symbol? "(" then
    let columns ← commaSeparatedUntil ")" do
      let column ← ident
      if ← keyword? "AS" then
        return Expr.prefixed (column.render ++ " AS ") (← g.expr Level.none)
      else return Expr.constant column.render
    symbol ")"
    return [.enclosed "INTERPOLATE (" columns ")"]
  return [.constant "INTERPOLATE"]

/-- An `ORDER BY` clause, when there is one. -/
def ordering? (g : Grammar) : Parser (List Expr) := do
  unless ← keywords? ["ORDER", "BY"] do return []
  let keys ← commaSeparated (Expression.sortKey g)
  let interpolation ← interpolation? g
  return .clause "ORDER BY" keys :: interpolation

/-- What a query says about the number of its rows. -/
structure Extent where
  limit : Option Expr
  offset : Option Expr

/-- The unit behind an offset. -/
def offsetUnit : Parser String := do
  match ← oneOf? ["ROW", "ROWS"] with
  | some word => return " " ++ word
  | none => return ""

/-- One round of reading `LIMIT` and `OFFSET`.  After a limit a comma makes it
the offset, and what follows is the limit. -/
def extentRound (g : Grammar) (extent : Extent) : Parser Extent := do
  let limit ←
    if extent.limit.isNone then
      if ← keyword? "LIMIT" then
        if ← keyword? "ALL" then pure none else some <$> g.expr Level.none
      else pure none
    else pure extent.limit
  let offset ←
    if extent.offset.isNone then
      if ← keyword? "OFFSET" then
        let value ← g.expr Level.none
        let unit ← offsetUnit
        pure (some (Expr.enclosed "OFFSET " [value] unit))
      else pure none
    else pure extent.offset
  match limit, offset with
  | some value, none =>
    if ← symbol? "," then
      return ⟨some (← g.expr Level.none), some (.clause "OFFSET" [value])⟩
    else return ⟨limit, offset⟩
  | _, _ => return ⟨limit, offset⟩

/-- The clauses on the number of rows.  The keys behind `BY`, which say to which
groups of rows the limit applies, are visited before the offset and written
after it. -/
def extent (g : Grammar) : Parser (List Expr) := do
  let extent ← extentRound g ⟨none, none⟩
  let extent ← extentRound g extent
  let keys ← Selection.listed? g ["BY"]
  let limit := extent.limit.toList.map fun value => Expr.clause "LIMIT" [value]
  match extent.offset, keys with
  | some offset, [keys] => return limit ++ [.swapped keys offset]
  | offset, _ => return limit ++ offset.toList ++ keys

/-- A `FETCH` clause, when there is one. -/
def fetch? : Parser (List Expr) := do
  unless ← keyword? "FETCH" do return []
  let start ← remaining
  if (← oneOf? ["FIRST", "NEXT"]).isNone then
    resume start
    expected "one of FIRST or NEXT"
  if (← oneOf? ["ROW", "ROWS"]).isSome then
    return [.constant ("FETCH FIRST ROWS " ++ (← ending))]
  let amount ← constantAmount
  let percent := if ← keyword? "PERCENT" then " PERCENT" else ""
  if (← oneOf? ["ROW", "ROWS"]).isNone then expected "one of ROW or ROWS"
  return [.enclosed "FETCH FIRST " [amount] (percent ++ " ROWS " ++ (← ending))]
where
  /-- Whether ties are kept. -/
  ending : Parser String := do
    if ← keyword? "ONLY" then return "ONLY"
    if ← keywords? ["WITH", "TIES"] then return "WITH TIES"
    expected "one of ONLY or WITH TIES"
  /-- The number of rows. -/
  constantAmount : Parser Expr :=
    Expr.constant <$> Literal.parser

/-- A lock on the rows, behind the word `FOR`. -/
def lock : Parser Expr := do
  match ← oneOf? ["UPDATE", "SHARE"] with
  | none => expected "one of UPDATE or SHARE"
  | some kind =>
    let table ← after? "OF" name
    let waiting ←
      if ← keyword? "NOWAIT" then pure " NOWAIT"
      else if ← keywords? ["SKIP", "LOCKED"] then pure " SKIP LOCKED"
      else pure ""
    match table with
    | some table => return .mention .table ("FOR " ++ kind ++ " OF ") table waiting
    | none => return .constant ("FOR " ++ kind ++ waiting)

/-- The locks on the rows, as far as there are any. -/
def locks : Parser (List Expr) :=
  many (after? "FOR" lock)

/-- The clauses behind the body of a query. -/
def clauses (g : Grammar) : Parser (List Expr) := do
  let ordering ← ordering? g
  let rows ← extent g
  let settings ← Table.settings?
  let fetch ← fetch?
  let locks ← locks
  let format ←
    if ← keyword? "FORMAT" then
      if ← keyword? "NULL" then pure [Expr.constant "FORMAT NULL"]
      else (fun ident => [Expr.constant ("FORMAT " ++ ident.render)]) <$> ident
    else pure []
  return ordering ++ rows ++ (settings.map Expr.constant).toList ++ fetch ++
    locks ++ format

/-- A query; `command` reads what may stand in place of its body. -/
def parser (g : Grammar) (command : Parser (Option Statement)) : Parser Query := do
  let (recursive, names) ←
    if ← keyword? "WITH" then
      let recursive ← keyword? "RECURSIVE"
      let names ← commaSeparated (named g)
      pure (recursive, names)
    else pure (false, [])
  match ← command with
  | some statement => return .mk recursive names (.command statement) []
  | none =>
    let body ← Combination.body g
    let clauses ← clauses g
    return .mk recursive names body clauses

end Query

end Relocate.Sql
