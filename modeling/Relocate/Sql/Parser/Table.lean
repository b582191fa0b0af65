import Relocate.Sql.Parser.Expression

/-!
# Reading tables

Tables of a `FROM` clause: names with their arguments and hints, queries and
joins in parentheses, tables computed by an expression, and the operations that
turn one table into another.
-/

namespace Relocate.Sql

namespace Table

open Relocate.Sql.Parser Text

/-- The names of the columns behind an alias, with their types if given. -/
def aliasColumns : Parser (List String) := do
  if ← symbol? "(" then
    let columns ← commaSeparated do
      let column ← ident
      match ← attempt DataType.parser with
      | some type => return column.render ++ " " ++ type.text
      | none => return column.render
    symbol ")"
    return columns
  else return []

/-- The alias of a table, when there is one. -/
def tableAlias? : Parser (Option Alias) := do
  match ← alias? Keyword.notTableAlias with
  | none => return none
  | some ident => return some ⟨ident, ← aliasColumns⟩

/-- An expression with an optional alias. -/
def namedExpr (g : Grammar) : Parser Expr := do
  let value ← g.expr Level.none
  if ← keyword? "AS" then return .suffixed value (" AS " ++ (← ident).render)
  else return value

/-- A call with an optional alias. -/
def namedCall (g : Grammar) : Parser Expr := do
  match ← remaining with
  | ⟨⟨.word word, _⟩, _⟩ :: _ =>
    advance
    let value ← Expression.call g (Expression.operand g) [.bare word.value]
    if ← keyword? "AS" then return .suffixed value (" AS " ++ (← ident).render)
    else return value
  | _ =>
    advance
    expected "a function identifier"

/-- The rows turned into columns, behind the word `PIVOT`. -/
def pivot (g : Grammar) : Parser Expr := do
  symbol "("
  let aggregates ← commaSeparated (namedCall g)
  keyword "FOR"
  let column ← name
  keyword "IN"
  symbol "("
  let source ←
    if ← keyword? "ANY" then
      if ← keywords? ["ORDER", "BY"] then
        (fun keys => Expr.enclosed "(ANY ORDER BY " keys ")") <$>
          commaSeparated (Expression.sortKey g)
      else pure (Expr.constant "(ANY)")
    else if ← Expression.atQuery then Expr.query <$> g.query
    else Expr.parenthesized <$> commaSeparated (namedExpr g)
  symbol ")"
  let otherwise ←
    if ← keywords? ["DEFAULT", "ON", "NULL"] then
      (fun value => [Expr.enclosed "DEFAULT ON NULL (" [value] ")"]) <$>
        parenthesized (g.expr Level.none)
    else pure []
  symbol ")"
  return .enclosed "PIVOT("
    [.sequence ([.list aggregates, .mention .column "FOR " column " IN", source] ++
      otherwise)] ")"

/-- The columns turned into rows, behind the word `UNPIVOT`. -/
def unpivot : Parser Expr := do
  symbol "("
  let value ← ident
  keyword "FOR"
  let label ← ident
  keyword "IN"
  let columns ← columnNames
  symbol ")"
  return .constant ("UNPIVOT(" ++ value.render ++ " FOR " ++ label.render ++ " IN (" ++
    commaList (columns.map Ident.render) ++ "))")

/-- How often a part of a row pattern repeats, when it is said. -/
def repetition? : Parser (Option String) := do
  match ← remaining with
  | ⟨⟨.symbol "*", _⟩, _⟩ :: _ =>
    advance
    return some "*"
  | ⟨⟨.symbol "+", _⟩, _⟩ :: _ =>
    advance
    return some "+"
  | ⟨⟨.placeholder "?", _⟩, _⟩ :: _ =>
    advance
    return some "?"
  | ⟨⟨.symbol "\x7b", _⟩, _⟩ :: _ =>
    advance
    if ← symbol? "," then
      let most ← DataType.count
      symbol "\x7d"
      return some ("\x7b," ++ toString most ++ "\x7d")
    match ← peek? with
    | some (.number _ _) =>
      let least ← DataType.count
      if ← symbol? "," then
        if ← symbol? "\x7d" then return some ("\x7b" ++ toString least ++ ",\x7d")
        let most ← DataType.count
        symbol "\x7d"
        return some ("\x7b" ++ toString least ++ "," ++ toString most ++ "\x7d")
      symbol "\x7d"
      return some ("\x7b" ++ toString least ++ "\x7d")
    | _ => expected "quantifier range"
  | _ => return none

/-- A row pattern; the fuel bounds its nesting. -/
def rowPattern : Nat → Parser String
  | 0 => expected "identifier"
  | fuel + 1 => do
    let firstPart ← repeated fuel
    let more ← many do
      if (← atSymbol ")") || (← atSymbol "|") then return none
      else return some (← repeated fuel)
    let whole := join " " (firstPart :: more)
    if ← symbol? "|" then return whole ++ " | " ++ (← rowPattern fuel)
    else return whole
where
  /-- One part of a pattern. -/
  part (fuel : Nat) : Parser String := do
    match ← remaining with
    | ⟨⟨.symbol "^", _⟩, _⟩ :: _ =>
      advance
      return "^"
    | ⟨⟨.placeholder "$", _⟩, _⟩ :: _ =>
      advance
      return "$"
    | ⟨⟨.symbol "\x7b", _⟩, _⟩ :: _ =>
      advance
      symbol "-"
      let excluded ← ident
      symbol "-"
      symbol "\x7d"
      return "\x7b- " ++ excluded.render ++ " -\x7d"
    | ⟨⟨.word ⟨"PERMUTE", none⟩, _⟩, _⟩ :: _ =>
      advance
      let symbols ← parenthesized (commaSeparated ident)
      return "PERMUTE(" ++ commaList (symbols.map Ident.render) ++ ")"
    | ⟨⟨.symbol "(", _⟩, _⟩ :: _ =>
      advance
      let inner ← rowPattern fuel
      symbol ")"
      return "( " ++ inner ++ " )"
    | _ => Ident.render <$> ident
  /-- One part of a pattern and how often it repeats. -/
  repeated (fuel : Nat) : Parser String := do
    let base ← part fuel
    let marks ← many repetition?
    return base ++ String.join marks

/-- The rows found by a pattern, behind the word `MATCH_RECOGNIZE`. -/
def rowMatching (g : Grammar) : Parser Expr := do
  symbol "("
  let partitions ←
    if ← keywords? ["PARTITION", "BY"] then
      (fun values => [Expr.clause "PARTITION BY" values]) <$> commaSeparated (g.expr Level.none)
    else pure []
  let keys ←
    if ← keywords? ["ORDER", "BY"] then
      (fun values => [Expr.clause "ORDER BY" values]) <$>
        commaSeparated (Expression.sortKey g)
    else pure []
  let measures ←
    if ← keyword? "MEASURES" then
      (fun values => [Expr.clause "MEASURES" values]) <$> commaSeparated do
        let value ← g.expr Level.none
        let _ ← keyword? "AS"
        return Expr.suffixed value (" AS " ++ (← ident).render)
    else pure []
  let rows ←
    if ← keywords? ["ONE", "ROW", "PER", "MATCH"] then pure [Expr.constant "ONE ROW PER MATCH"]
    else if ← keywords? ["ALL", "ROWS", "PER", "MATCH"] then
      let mode ←
        if ← keywords? ["SHOW", "EMPTY", "MATCHES"] then pure " SHOW EMPTY MATCHES"
        else if ← keywords? ["OMIT", "EMPTY", "MATCHES"] then pure " OMIT EMPTY MATCHES"
        else if ← keywords? ["WITH", "UNMATCHED", "ROWS"] then pure " WITH UNMATCHED ROWS"
        else pure ""
      pure [Expr.constant ("ALL ROWS PER MATCH" ++ mode)]
    else pure []
  let afterwards ←
    if ← keywords? ["AFTER", "MATCH", "SKIP"] then
      if ← keywords? ["PAST", "LAST", "ROW"] then
        pure [Expr.constant "AFTER MATCH SKIP PAST LAST ROW"]
      else if ← keywords? ["TO", "NEXT", "ROW"] then
        pure [Expr.constant "AFTER MATCH SKIP  TO NEXT ROW"]
      else if ← keywords? ["TO", "FIRST"] then
        pure [Expr.constant ("AFTER MATCH SKIP TO FIRST " ++ (← ident).render)]
      else if ← keywords? ["TO", "LAST"] then
        pure [Expr.constant ("AFTER MATCH SKIP TO LAST " ++ (← ident).render)]
      else expected "after match skip option"
    else pure []
  keyword "PATTERN"
  let rest ← remaining
  let pattern ← parenthesized (rowPattern (rest.length + 1))
  keyword "DEFINE"
  let definitions ← commaSeparated do
    let symbolName ← ident
    keyword "AS"
    let condition ← g.expr Level.none
    return Expr.prefixed (symbolName.render ++ " AS ") condition
  symbol ")"
  return .enclosed "MATCH_RECOGNIZE("
    [.sequence (partitions ++ keys ++ measures ++ rows ++ afterwards ++
      [.constant ("PATTERN (" ++ pattern ++ ")"), .clause "DEFINE" definitions])] ")"

/-- A seed behind its first word. -/
def sampleSeed (word : String) : Parser Expr := do
  symbol "("
  let value ← Literal.number
  symbol ")"
  return .constant (word ++ " (" ++ value ++ ")")

/-- A sample of the rows of a table, when one is asked for. -/
def sample? (g : Grammar) : Parser (Option Expr) := do
  match ← oneOf? ["TABLESAMPLE", "SAMPLE"] with
  | none => return none
  | some word =>
    let method ← oneOf? ["BERNOULLI", "ROW", "SYSTEM", "BLOCK"]
    let opened ← symbol? "("
    let bucket ← if opened then keyword? "BUCKET" else pure false
    let (amount, bucket) ←
      if bucket then
        let chosen ← Literal.number
        keywords ["OUT", "OF"]
        let total ← Literal.number
        let opening := "(BUCKET " ++ chosen ++ " OUT OF " ++ total
        if ← keyword? "ON" then
          pure ([], [Expr.enclosed (opening ++ " ON ") [← g.expr Level.none] ")"])
        else pure ([], [Expr.constant (opening ++ ")")])
      else
        let value ←
          match ← attempt (g.expr Level.none) with
          | some value => pure value
          | none =>
            match ← remaining with
            | ⟨⟨.word ident, _⟩, _⟩ :: _ =>
              advance
              pure (Expr.constant ident.value)
            | _ =>
              advance
              failHere "Expecting number or byte length e.g. 100M"
        let unit ← oneOf? ["ROWS", "PERCENT"]
        let opening := if opened then "(" else ""
        let closing := (unit.map (" " ++ ·)).getD "" ++ (if opened then ")" else "")
        pure ([Expr.enclosed opening [value] closing], [])
    if opened then symbol ")"
    let seed ←
      match ← oneOf? ["REPEATABLE", "SEED"] with
      | some seedWord => (fun seed => [seed]) <$> sampleSeed seedWord
      | none => pure []
    let offset ←
      if ← keyword? "OFFSET" then
        (fun value => [Expr.clause "OFFSET" [value]]) <$> g.expr Level.none
      else pure []
    return some (.sequence ([.constant word] ++ (method.map Expr.constant).toList ++ amount ++
      seed ++ bucket ++ offset))

/-- What a computed column does when it has no value or the computation fails,
when it is said. -/
def columnFallback? : Parser (Option String) := do
  let fallback ←
    if ← keyword? "NULL" then pure (some "NULL")
    else if ← keyword? "ERROR" then pure (some "ERROR")
    else if ← keyword? "DEFAULT" then
      (fun value => some ("DEFAULT " ++ value)) <$> Literal.parser
    else pure none
  match fallback with
  | none => return none
  | some text =>
    keyword "ON"
    if ← keyword? "EMPTY" then return some (" " ++ text ++ " ON EMPTY")
    keyword "ERROR"
    return some (" " ++ text ++ " ON ERROR")

/-- A column of a table made from a document; the fuel bounds the nesting. -/
def documentColumn : Nat → Parser String
  | 0 => expected "identifier"
  | fuel + 1 => do
    if ← keyword? "NESTED" then
      let _ ← keyword? "PATH"
      let path ← Literal.parser
      keyword "COLUMNS"
      let columns ← parenthesized (commaSeparated (documentColumn fuel))
      return "NESTED PATH " ++ path ++ " COLUMNS (" ++ commaList columns ++ ")"
    let column ← ident
    if ← keyword? "FOR" then
      keyword "ORDINALITY"
      return column.render ++ " FOR ORDINALITY"
    let type ← DataType.parser
    let exists? := if ← keyword? "EXISTS" then " EXISTS" else ""
    keyword "PATH"
    let path ← Literal.parser
    let fallbacks ← many columnFallback?
    let (onEmpty, onError) := fallbacks.partition fun text => text.endsWith "EMPTY"
    return column.render ++ " " ++ type.text ++ exists? ++ " PATH " ++ path ++
      onEmpty.getLast?.getD "" ++ onError.getLast?.getD ""

/-- A table made from a document, behind `JSON_TABLE(`. -/
def document (g : Grammar) : Parser Expr := do
  let value ← g.expr Level.none
  symbol ","
  let path ← Literal.parser
  keyword "COLUMNS"
  symbol "("
  let rest ← remaining
  let columns ← commaSeparated (documentColumn rest.length)
  symbol ")"
  symbol ")"
  return .enclosed "JSON_TABLE(" [value, .constant path]
    (" COLUMNS(" ++ commaList columns ++ "))")

/-- A table made from a document with a schema, behind `OPENJSON(`. -/
def openDocument (g : Grammar) : Parser Expr := do
  let value ← g.expr Level.none
  let path ← if ← symbol? "," then (fun path => [Expr.constant path]) <$> Literal.parser else pure []
  symbol ")"
  let columns ←
    if ← keyword? "WITH" then
      parenthesized (commaSeparated do
        let column ← ident
        let type ← DataType.parser
        let path ←
          match ← remaining with
          | ⟨⟨.quoted .plain path, _⟩, _⟩ :: _ =>
            advance
            pure (" " ++ inQuotes '\'' path)
          | _ => pure ""
        let whole ←
          if ← keyword? "AS" then
            keyword "JSON"
            pure " AS JSON"
          else pure ""
        return column.render ++ " " ++ type.text ++ path ++ whole)
    else pure []
  return .enclosed "OPENJSON(" (value :: path)
    (")" ++ (if columns.isEmpty then "" else " WITH (" ++ commaList columns ++ ")"))

/-- Settings of a query, when there are any. -/
def settings? : Parser (Option String) := do
  if ← keyword? "SETTINGS" then
    let pairs ← commaSeparated do
      let key ← ident
      symbol "="
      let value ← Literal.parser
      return key.render ++ " = " ++ value
    return some ("SETTINGS " ++ commaList pairs)
  else return none

/-- The arguments of a table function, behind the opening parenthesis. -/
def tableArguments (g : Grammar) : Parser Expr := do
  if ← symbol? ")" then return .constant "()"
  match ← settings? with
  | some text =>
    symbol ")"
    return .constant ("(" ++ text ++ ")")
  | none =>
    let firstValue ← Expression.argument g
    let more ← many do
      if ← symbol? "," then
        match ← settings? with
        | some text => return some (Expr.constant text)
        | none => return some (← Expression.argument g)
      else return none
    symbol ")"
    return .parenthesized (firstValue :: more)

/-- The rows of a `VALUES` list, behind that word. -/
def rows (g : Grammar) : Parser (List Expr) := do
  let values ← commaSeparated do
    let marked ← keyword? "ROW"
    symbol "("
    let values ← commaSeparated (g.expr Level.none)
    symbol ")"
    return (marked, values)
  let explicit := values.any Prod.fst
  return values.map fun row => .enclosed (if explicit then "ROW(" else "(") row.2 ")"

/-- The condition of a join. -/
def joinCondition (g : Grammar) : Parser (List Expr) := do
  if ← keyword? "ON" then return [.clause "ON" [← g.expr Level.none]]
  if ← keyword? "USING" then
    let columns ← columnNames
    return [.constant ("USING(" ++ commaList (columns.map Ident.render) ++ ")")]
  return []

/-- The words of a join that has a condition, once its first word is seen. -/
def joinWords? (natural : Bool) : Parser (Option String) := do
  let word ← peekKeyword 0
  match word with
  | "INNER" | "JOIN" =>
    let _ ← keyword? "INNER"
    keyword "JOIN"
    return some "JOIN"
  | "LEFT" | "RIGHT" =>
    advance
    match ← oneOf? ["OUTER", "SEMI", "ANTI", "JOIN"] with
    | some "JOIN" => return some (word ++ " JOIN")
    | some "OUTER" =>
      keyword "JOIN"
      return some (word ++ " JOIN")
    | some kind =>
      keyword "JOIN"
      return some (word ++ " " ++ kind ++ " JOIN")
    | none =>
      fail (.failed ("expected OUTER, SEMI, ANTI or JOIN after " ++ word) none)
  | "ANTI" | "SEMI" =>
    advance
    keyword "JOIN"
    return some (word ++ " JOIN")
  | "FULL" =>
    advance
    let _ ← keyword? "OUTER"
    keyword "JOIN"
    return some "FULL JOIN"
  | "OUTER" => expected "LEFT, RIGHT, or FULL"
  | _ => if natural then expected "a join type after NATURAL" else return none

/-- The next join of a table, when there is one. -/
def join? (g : Grammar) (factor : Parser Factor) : Parser (Option Join) := do
  let global := if ← keyword? "GLOBAL" then "GLOBAL " else ""
  if ← keyword? "CROSS" then
    if ← keyword? "JOIN" then return some (.mk (global ++ "CROSS JOIN") (← factor) [])
    if ← keyword? "APPLY" then return some (.mk (global ++ "CROSS APPLY") (← factor) [])
    expected "JOIN or APPLY after CROSS"
  else if ← keyword? "OUTER" then
    keyword "APPLY"
    return some (.mk (global ++ "OUTER APPLY") (← factor) [])
  else if ← keyword? "ASOF" then
    keyword "JOIN"
    let table ← factor
    keyword "MATCH_CONDITION"
    let condition ← parenthesized (g.expr Level.none)
    let constraint ← joinCondition g
    return some (.mk (global ++ "ASOF JOIN") table
      (.enclosed "MATCH_CONDITION (" [condition] ")" :: constraint))
  else
    let natural ← keyword? "NATURAL"
    match ← joinWords? natural with
    | none => return none
    | some words =>
      let table ← factor
      if natural then return some (.mk (global ++ "NATURAL " ++ words) table [])
      else
        let constraint ← joinCondition g
        return some (.mk (global ++ words) table constraint)

/-- A table with its joins. -/
def joinedBy (g : Grammar) (factor : Parser Factor) : Parser Joined := do
  let first ← factor
  let joins ← many (join? g factor)
  return .mk first joins

/-- The alias that a table has. -/
def aliasOf : Factor → Option Alias
  | .table _ _ label _ | .derived _ _ label | .nested _ label | .transformed _ _ label
  | .computed _ label _ => label

/-- The table with another alias. -/
def withAlias (label : Option Alias) : Factor → Factor
  | .table name details _ hints => .table name details label hints
  | .derived lateral query _ => .derived lateral query label
  | .nested inner _ => .nested inner label
  | .transformed inner operation _ => .transformed inner operation label
  | .computed source _ suffix => .computed source label suffix

/-- A query in place of a table, behind its opening parenthesis. -/
def derived (g : Grammar) (lateral : Bool) : Parser Factor := do
  let query ← g.query
  symbol ")"
  return .derived lateral query (← tableAlias?)

/-- A table with the operations that turn its rows and columns around. -/
def turned (g : Grammar) (table : Factor) : Parser Factor :=
  grow (fun table => do
    match ← oneOf? ["PIVOT", "UNPIVOT"] with
    | some "PIVOT" =>
      let operation ← pivot g
      return some (.transformed table operation (← tableAlias?))
    | some _ =>
      let operation ← unpivot
      return some (.transformed table operation (← tableAlias?))
    | none => return none) table

/-- A named table. -/
def named (g : Grammar) : Parser Factor := do
  let tableName ← name
  let partitions ←
    if ← keyword? "PARTITION" then
      let columns ← parenthesized (commaSeparated ident)
      pure [Expr.constant ("PARTITION (" ++ commaList (columns.map Ident.render) ++ ")")]
    else pure []
  let arguments ← if ← symbol? "(" then (fun value => [value]) <$> tableArguments g else pure []
  let ordinality ←
    if ← keywords? ["WITH", "ORDINALITY"] then pure [Expr.constant " WITH ORDINALITY"]
    else pure []
  let label ← tableAlias?
  let start ← remaining
  let hints ←
    if ← keyword? "WITH" then
      if ← symbol? "(" then
        let hints ← commaSeparated (g.expr Level.none)
        symbol ")"
        pure [Expr.enclosed "WITH (" hints ")"]
      else
        resume start
        pure []
    else pure []
  let sample ← sample? g
  let table := Factor.table tableName (partitions ++ arguments ++ ordinality) label
    (hints ++ sample.toList)
  let table ← turned g table
  if ← keyword? "MATCH_RECOGNIZE" then
    let operation ← rowMatching g
    return .transformed table operation (← tableAlias?)
  else return table

/-- What stands in parentheses where a table is expected, behind the opening
one: a query, joined tables or a single table. -/
def parenthesizedTable (g : Grammar) (factor : Parser Factor) : Parser Factor := do
  match ← attempt (derived g false) with
  | some table => turned g table
  | none =>
    let inner ← joinedBy g factor
    match inner with
    | .mk first [] =>
      symbol ")"
      match first with
      | .nested _ _ => return .nested inner (← tableAlias?)
      | _ =>
        match ← tableAlias?, aliasOf first with
        | none, _ => return first
        | some label, none => return withAlias (some label) first
        | some _, some given =>
          fail (.failed ("duplicate alias " ++ given.name.render ++
            (if given.columns.isEmpty then ""
              else " (" ++ commaList given.columns ++ ")")) none)
    | .mk _ _ =>
      symbol ")"
      return .nested inner (← tableAlias?)

/-- A table; the fuel bounds the nesting of parentheses. -/
def factorFrom (g : Grammar) : Nat → Parser Factor
  | 0 => expected "identifier"
  | fuel + 1 => do
    if ← keyword? "LATERAL" then
      if ← symbol? "(" then derived g true
      else
        let function ← name
        symbol "("
        let arguments ←
          if ← symbol? ")" then pure []
          else
            let values ← commaSeparated (Expression.argument g)
            symbol ")"
            pure values
        return .computed (.enclosed ("LATERAL " ++ function.render ++ "(") arguments ")")
          (← tableAlias?) ""
    else if ← keyword? "TABLE" then
      let value ← parenthesized (g.expr Level.none)
      return .computed (.enclosed "TABLE(" [value] ")") (← tableAlias?) ""
    else if ← symbol? "(" then parenthesizedTable g (factorFrom g fuel)
    else if ← atKeywordAndSymbol "VALUES" "(" then
      advance
      let values ← rows g
      return .derived false (.mk false [] (.values values) []) (← tableAlias?)
    else if ← keyword? "UNNEST" then
      symbol "("
      let arrays ← commaSeparated (g.expr Level.none)
      symbol ")"
      let ordinality := if ← keywords? ["WITH", "ORDINALITY"] then " WITH ORDINALITY" else ""
      let label ← tableAlias?
      let offset ←
        if ← keyword? "WITH" then
          if ← keyword? "OFFSET" then
            match ← alias? Keyword.notColumnAlias with
            | some ident => pure (" WITH OFFSET AS " ++ ident.render)
            | none => pure " WITH OFFSET"
          else pure ""
        else pure ""
      return .computed (.enclosed "UNNEST(" arrays (")" ++ ordinality)) label offset
    else if ← atKeywordAndSymbol "JSON_TABLE" "(" then
      advance
      advance
      let source ← document g
      return .computed source (← tableAlias?) ""
    else if ← atKeywordAndSymbol "OPENJSON" "(" then
      advance
      advance
      let source ← openDocument g
      return .computed source (← tableAlias?) ""
    else named g

/-- A table of a `FROM` clause with its joins. -/
def parser (g : Grammar) : Parser Joined := do
  let rest ← remaining
  joinedBy g (factorFrom g (rest.length + 1))

end Table

end Relocate.Sql
