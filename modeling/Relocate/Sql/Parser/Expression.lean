import Relocate.Sql.Parser.Literal

/-!
# Reading expressions

Expressions are read by precedence climbing: a first operand, then operators
whose level is above the given one.  Words that introduce a form of their own
(`CASE`, `CAST`, …) are first read as that form; when that fails and the word is
not reserved, it is an ordinary name.

Everything here is given the `Grammar` for what is nested one level deeper.
-/

namespace Relocate.Sql

/-- How strongly an operator binds. -/
abbrev Level := Nat

namespace Level

/-- No operator at all. -/
def none : Level := 0

/-- The level of `NOT` before its operand. -/
def not : Level := 15

/-- The level of `LIKE` and its kin. -/
def like : Level := 19

/-- The level of `IN`, `BETWEEN` and the comparisons. -/
def comparison : Level := 20

/-- The level of multiplication. -/
def product : Level := 40

/-- The level of an operator that is a symbol. -/
def ofSymbol (text : String) : Level :=
  match text with
  | "=" | "<" | "<=" | "<>" | ">" | ">=" | "==" | "~" | "~*" | "!~" | "!~*" | "~~" | "~~*"
  | "!~~" | "!~~*" | "<=>" => comparison
  | "|" => 21
  | "^" | "#" | ">>" | "<<" => 22
  | "&" => 23
  | "+" | "-" => 30
  | "*" | "/" | "//" | "%" | "||" => product
  | "::" | "!" | "[" | "&&" | "^@" => 50
  | "->" | "->>" | "#>" | "#>>" | "@>" | "<@" | "#-" | "@?" | "@@" => 16
  | "." => 100
  | _ => none

/-- The level of an operator that is a word, given the words behind it. -/
def ofWord (word next afterNext : String) : Level :=
  match word with
  | "OR" => 5
  | "AND" => 10
  | "XOR" => 24
  | "AT" => if next == "TIME" && afterNext == "ZONE" then 41 else none
  | "NOT" =>
    match next with
    | "IN" | "BETWEEN" => comparison
    | "LIKE" | "ILIKE" | "RLIKE" | "REGEXP" | "SIMILAR" => like
    | _ => none
  | "IS" => 17
  | "IN" | "BETWEEN" | "OVERLAPS" | "OPERATOR" => comparison
  | "LIKE" | "ILIKE" | "RLIKE" | "REGEXP" | "SIMILAR" => like
  | "DIV" => product
  | _ => none

/-- The level of the operator that comes next. -/
def next : List Lexeme → Level
  | ⟨⟨.symbol text, _⟩, _⟩ :: _ => ofSymbol text
  | ⟨_, word⟩ :: rest =>
    ofWord word ((rest.head?.map Lexeme.keyword).getD "")
      ((rest[1]?.map Lexeme.keyword).getD "")
  | [] => none

end Level

namespace Expression

open Relocate.Sql.Parser Text

/-- The operators between two operands that are symbols, other than those with
two spellings. -/
def binarySymbols : List String := [
  "<=>", "=", "<>", ">", ">=", "<", "<=", "+", "-", "*", "%", "||", "|", "^", "&", "/",
  "//", "<<", ">>", "&&", "^@", "~", "~*", "!~", "!~*", "~~", "~~*", "!~~", "!~~*", "->",
  "->>", "#>", "#>>", "@>", "<@", "#-", "@?", "@@"]

/-- How a message shows a token that has a level and yet stands between no
operands. -/
def unreadText (token : Token) : String :=
  match token with
  | .symbol "!" => "ExclamationMark"
  | .symbol "#" => "Sharp"
  | .word ident => "Word(Word \x7b value: \"" ++ ident.value ++ "\", quote_style: None, keyword: " ++
      token.keyword ++ " \x7d)"
  | _ => token.text

/-- The operators that may be applied to all or some elements of a set. -/
def comparisons : List String := ["=", "<>", ">", ">=", "<", "<="]

/-- A sort key: an expression, its direction and the place of nulls. -/
def sortKey (g : Grammar) : Parser Expr := do
  let value ← g.expr Level.none
  let direction ← oneOf? ["ASC", "DESC"]
  let nulls ←
    if ← keywords? ["NULLS", "FIRST"] then pure " NULLS FIRST"
    else if ← keywords? ["NULLS", "LAST"] then pure " NULLS LAST"
    else pure ""
  let suffix := (direction.map (" " ++ ·)).getD "" ++ nulls
  let key := if suffix.isEmpty then value else .suffixed value suffix
  if ← keywords? ["WITH", "FILL"] then
    let start ← bound? "FROM"
    let stop ← bound? "TO"
    let step ← bound? "STEP"
    return .sequence (key :: .constant "WITH FILL" :: start ++ stop ++ step)
  return key
where
  /-- A value behind its word, when the word comes next. -/
  bound? (word : String) : Parser (List Expr) := do
    if ← keyword? word then return [.clause word [← g.expr Level.none]] else return []

/-- What a star can stand for, or an ordinary expression. -/
inductive Starred
  | all
  | allOf (qualifier : Name)
  | expr (value : Expr)

/-- The parts of a qualified name up to a star; `none` when there is none. -/
def qualifierFrom : Nat → Name → Parser (Option Name)
  | 0, _ => pure none
  | fuel + 1, parts => do
    if ← symbol? "." then
      match ← remaining with
      | ⟨⟨.word ident, _⟩, _⟩ :: _ =>
        advance
        qualifierFrom fuel (parts ++ [ident])
      | ⟨⟨.quoted .plain value, _⟩, _⟩ :: _ =>
        advance
        qualifierFrom fuel (parts ++ [⟨value, some '\''⟩])
      | ⟨⟨.symbol "*", _⟩, _⟩ :: _ =>
        advance
        return some parts
      | _ => expected "an identifier or a '*' after '.'"
    else return none

/-- A star, a qualified star or an expression. -/
def starred (g : Grammar) : Parser Starred := do
  let start ← remaining
  match start with
  | ⟨⟨.symbol "*", _⟩, _⟩ :: _ =>
    advance
    return .all
  | ⟨⟨.word _, _⟩, _⟩ :: _ | ⟨⟨.quoted .plain _, _⟩, _⟩ :: _ =>
    let first ← ident
    match ← qualifierFrom start.length [first] with
    | some qualifier => return .allOf qualifier
    | none =>
      resume start
      return .expr (← g.expr Level.none)
  | _ => return .expr (← g.expr Level.none)

/-- An argument of a call without a name. -/
def plainArgument (g : Grammar) : Parser Expr := do
  match ← starred g with
  | .all => return .constant "*"
  | .allOf qualifier => return .mention .allOf "" qualifier ".*"
  | .expr value => return value

/-- The mark between the name of an argument and its value. -/
def argumentMark : Parser String := do
  if ← keyword? "VALUE" then return "VALUE"
  if ← symbol? "=>" then return "=>"
  if ← symbol? ":=" then return ":="
  expected "argument operator"

/-- An argument of a call. -/
def argument (g : Grammar) : Parser Expr := do
  let named ← attempt do
    let label ← ident
    let mark ← argumentMark
    let value ← plainArgument g
    return Expr.prefixed (label.render ++ " " ++ mark ++ " ") value
  match named with
  | some value => return value
  | none => plainArgument g

/-- How nulls are treated, when it is said. -/
def nullTreatment? : Parser (Option String) := do
  match ← oneOf? ["RESPECT", "IGNORE"] with
  | none => return none
  | some word =>
    keyword "NULLS"
    return some (word ++ " NULLS")

/-- Whether a constructor of composite values keeps nulls, when it is said. -/
def nullClause? : Parser (Option String) := do
  if ← keywords? ["ABSENT", "ON", "NULL"] then return some "ABSENT ON NULL"
  if ← keywords? ["NULL", "ON", "NULL"] then return some "NULL ON NULL"
  return none

/-- What happens when a list becomes too long, when it is said. -/
def overflow? (g : Grammar) : Parser (Option Expr) := do
  unless ← keywords? ["ON", "OVERFLOW"] do return none
  if ← keyword? "ERROR" then return some (.constant "ON OVERFLOW ERROR")
  keyword "TRUNCATE"
  let filler ←
    match ← remaining with
    | ⟨⟨.word _, _⟩, "WITH"⟩ :: _ | ⟨⟨.word _, _⟩, "WITHOUT"⟩ :: _ => pure []
    | ⟨⟨.quoted _ _, _⟩, _⟩ :: _ => (fun value => [value]) <$> g.expr Level.none
    | _ => expected "either filler, WITH, or WITHOUT in LISTAGG"
  let withCount ← keyword? "WITH"
  unless withCount || (← keyword? "WITHOUT") do
    expected "either WITH or WITHOUT in LISTAGG"
  keyword "COUNT"
  return some (.sequence (.constant "ON OVERFLOW TRUNCATE" :: filler ++
    [.constant (if withCount then "WITH COUNT" else "WITHOUT COUNT")]))

/-- Which duplicates a call drops, when it is said. -/
def duplicates? : Parser String := do
  let start ← remaining
  let all ← keyword? "ALL"
  let distinct ← keyword? "DISTINCT"
  if all && distinct then
    resume start
    failHere "Cannot specify both ALL and DISTINCT"
  return if all then "ALL " else if distinct then "DISTINCT " else ""

/-- The arguments of a call behind the opening parenthesis, and whether they say
how nulls are treated. -/
def arguments (g : Grammar) : Parser (Expr × Bool) := do
  let leading ← nullClause?
  let leading := leading.toList.map Expr.constant
  if ← symbol? ")" then return (.parenthesized leading, false)
  let duplicates ← duplicates?
  let values ← commaSeparated (argument g)
  let nulls ← nullTreatment?
  let sorted ←
    if ← keywords? ["ORDER", "BY"] then
      (fun keys => [Expr.clause "ORDER BY" keys]) <$> commaSeparated (sortKey g)
    else pure []
  let limit ← after? "LIMIT" do return Expr.clause "LIMIT" [← g.expr Level.none]
  let bound ← after? "HAVING" do
    match ← oneOf? ["MIN", "MAX"] with
    | some word => return Expr.clause ("HAVING " ++ word) [← g.expr Level.none]
    | none => expected "one of MIN or MAX"
  let separator ← after? "SEPARATOR" do
    return Expr.constant ("SEPARATOR " ++ (← Literal.parser))
  let overflow ← overflow? g
  let trailing ← nullClause?
  symbol ")"
  let clauses := leading ++ nulls.toList.map Expr.constant ++ sorted ++ limit.toList ++
    bound.toList ++ separator.toList ++ overflow.toList ++ trailing.toList.map Expr.constant
  let opening := "(" ++ duplicates
  if clauses.isEmpty then return (.enclosed opening values ")", nulls.isSome)
  return (.enclosed opening [.sequence (.list values :: clauses)] ")", nulls.isSome)

/-- An interval whose value is read by the reader. -/
def interval (value : Parser Expr) : Parser Expr := do
  let amount ← value
  let word ← peekKeyword 0
  if Literal.timeUnits.contains word then
    let unit ← Literal.timeField
    if unit == "SECOND" then
      if ← symbol? "(" then
        let leading ← DataType.count
        let fraction ←
          if ← symbol? "," then (fun n => ", " ++ toString n) <$> DataType.count else pure ""
        symbol ")"
        return .enclosed "INTERVAL " [amount]
          (" SECOND (" ++ toString leading ++ fraction ++ ")")
      return .enclosed "INTERVAL " [amount] " SECOND"
    let precision ← spacedLength
    let last ← lastUnit
    return .enclosed "INTERVAL " [amount] (" " ++ unit ++ precision ++ last)
  let precision ← spacedLength
  let last ← lastUnit
  return .enclosed "INTERVAL " [amount] (precision ++ last)
where
  /-- A length in parentheses behind a space, when there is one. -/
  spacedLength : Parser String := do
    let length ← DataType.length?
    return if length.isEmpty then "" else " " ++ length
  /-- The smaller unit of a range of units, when there is one. -/
  lastUnit : Parser String := do
    if ← keyword? "TO" then
      let unit ← Literal.timeField
      let precision ← if unit == "SECOND" then spacedLength else pure ""
      return " TO " ++ unit ++ precision
    else return ""

/-- A bound of the rows that a window function sees. -/
def frameBound (g : Grammar) (first : Parser Expr) : Parser Expr := do
  if ← keywords? ["CURRENT", "ROW"] then return .constant "CURRENT ROW"
  let rows ←
    if ← keyword? "UNBOUNDED" then pure (Expr.constant "UNBOUNDED")
    else
      match ← peek? with
      | some (.quoted .plain _) => interval first
      | _ => g.expr Level.none
  if ← keyword? "PRECEDING" then return .suffixed rows " PRECEDING"
  if ← keyword? "FOLLOWING" then return .suffixed rows " FOLLOWING"
  expected "PRECEDING or FOLLOWING"

/-- A window behind its opening parenthesis, up to the closing one. -/
def window (g : Grammar) (first : Parser Expr) : Parser Expr := do
  let base ←
    match ← remaining with
    | ⟨⟨.word ident, _⟩, word⟩ :: _ =>
      if Keyword.allKeywords.contains word then pure []
      else
        advance
        pure [Expr.constant ident.render]
    | _ => pure []
  let partitions ←
    if ← keywords? ["PARTITION", "BY"] then
      (fun values => [Expr.clause "PARTITION BY" values]) <$> commaSeparated (g.expr Level.none)
    else pure []
  let keys ←
    if ← keywords? ["ORDER", "BY"] then
      (fun values => [Expr.clause "ORDER BY" values]) <$> commaSeparated (sortKey g)
    else pure []
  let frame ←
    if ← symbol? ")" then pure []
    else
      match ← oneOf? ["ROWS", "RANGE", "GROUPS"] with
      | none => expected "ROWS, RANGE, GROUPS"
      | some unit =>
        let bounds ←
          if ← keyword? "BETWEEN" then
            let start ← frameBound g first
            keyword "AND"
            let stop ← frameBound g first
            pure (Expr.clause (unit ++ " BETWEEN") [.infixed start "AND" stop])
          else (fun start => Expr.clause unit [start]) <$> frameBound g first
        symbol ")"
        pure [bounds]
  return .sequence (base ++ partitions ++ keys ++ frame)

/-- A call of a named function, from its opening parenthesis on. -/
def call (g : Grammar) (first : Parser Expr) (callee : Name) : Parser Expr := do
  symbol "("
  let (inner, treated) ← arguments g
  let (parameters, inner, treated) ←
    if ← symbol? "(" then
      let (values, treated) ← arguments g
      pure ([inner], values, treated)
    else pure ([], inner, treated)
  let ordering ←
    if ← keywords? ["WITHIN", "GROUP"] then
      symbol "("
      keywords ["ORDER", "BY"]
      let keys ← commaSeparated (sortKey g)
      symbol ")"
      pure [Expr.enclosed " WITHIN GROUP (ORDER BY " keys ")"]
    else pure []
  let nulls ← if treated then pure none else nullTreatment?
  let windowing ←
    if ← keyword? "OVER" then
      if ← symbol? "(" then
        (fun spec => [Expr.enclosed " OVER (" [spec] ")"]) <$> window g first
      else (fun ident => [Expr.constant (" OVER " ++ ident.render)]) <$> ident
    else pure []
  let parts := parameters.map (fun _ => CallPart.parameters) ++ [.arguments] ++
    windowing.map (fun _ => CallPart.window) ++ ordering.map (fun _ => CallPart.ordering)
  return .form (.call callee parts ((nulls.map (" " ++ ·)).getD ""))
    (parameters ++ [inner] ++ windowing ++ ordering)

/-- An element or a range of elements, behind its opening bracket. -/
def subscript (g : Grammar) : Parser Expr := do
  let lower ← if ← symbol? ":" then pure none else some <$> g.expr Level.none
  if ← symbol? "]" then
    match lower with
    | some index => return index
    | none => return .form (.slice false false false) []
  if lower.isSome then symbol ":"
  if ← symbol? "]" then return .form (.slice lower.isSome false false) lower.toList
  let upper ← g.expr Level.none
  if ← symbol? "]" then return .form (.slice lower.isSome true false) (lower.toList ++ [upper])
  symbol ":"
  if ← symbol? "]" then return .form (.slice lower.isSome true false) (lower.toList ++ [upper])
  let stride ← g.expr Level.none
  symbol "]"
  return .form (.slice lower.isSome true true) (lower.toList ++ [upper, stride])

/-- Subscripts one after the other, as far as there are any. -/
def subscripts (g : Grammar) : Parser (List (Link × Expr)) :=
  many do
    if ← symbol? "[" then return some (.element, ← subscript g)
    else return none

/-- Fields and subscripts behind a value, at most `fuel` fields. -/
def linksFrom (g : Grammar) : Nat → Parser (List (Link × Expr))
  | 0 => pure []
  | fuel + 1 => do
    if ← symbol? "." then
      match ← remaining with
      | ⟨⟨.word ident, _⟩, _⟩ :: _ =>
        advance
        let indices ← subscripts g
        let more ← linksFrom g fuel
        return (.field, .column ident) :: indices ++ more
      | ⟨⟨.quoted .plain value, _⟩, _⟩ :: _ =>
        advance
        let more ← linksFrom g fuel
        return (.field, .column ⟨value, some '\''⟩) :: more
      | ⟨⟨.symbol "*", _⟩, _⟩ :: _ => expected "an identifier after '.'"
      | _ => expected "an identifier or a '*' after '.'"
    else return []

/-- The identifiers of links that are all fields. -/
def fieldNames? : List (Link × Expr) → Option Name
  | [] => some []
  | (.field, .column ident) :: rest => (fieldNames? rest).map (ident :: ·)
  | _ => none

/-- The name that a value and the links behind it spell, if they do. -/
def nameOf? (root : Expr) (links : List (Link × Expr)) : Option Name :=
  match root with
  | .column ident => (fieldNames? links).map (ident :: ·)
  | _ => none

/-- A value with the fields and subscripts behind it, of which some have been
read: a qualified name, a call or an access to parts. -/
def compound (g : Grammar) (first : Parser Expr) (root : Expr) (read : List (Link × Expr)) :
    Parser Expr := do
  let rest ← remaining
  let links := read ++ (← linksFrom g rest.length)
  if ← atSymbol "(" then
    match nameOf? root links with
    | some callee => call g first callee
    | none =>
      advance
      expected "an identifier or a '*' after '.'"
  else
    match nameOf? root links, links with
    | _, [] => return root
    | some parts, _ => return .path parts
    | none, _ =>
      return .form (.access (links.map Prod.fst)) (root :: links.map Prod.snd)

/-- An ordinary word that starts an expression: a column, a qualified name, a
call or an access to parts. -/
def ordinaryWord (g : Grammar) (first : Parser Expr) (word : Ident) : Parser Expr := do
  match ← peek? with
  | some (.symbol ".") => compound g first (.column word) []
  | some (.symbol "(") =>
    let value ← call g first [word]
    compound g first value []
  | some (.symbol "[") =>
    let indices ← subscripts g
    compound g first (.column word) indices
  | some (.quoted .plain value) =>
    if word.value.startsWith "_" then
      advance
      return .constant (word.value ++ " " ++ Literal.writeQuoted .plain value)
    else return .column word
  | some (.quoted .hexadecimal value) =>
    if word.value.startsWith "_" then
      advance
      return .constant (word.value ++ " " ++ Literal.writeQuoted .hexadecimal value)
    else return .column word
  | _ => return .column word

/-- A query comes next. -/
def atQuery : Parser Bool := do
  let word ← peekKeyword 0
  return word == "SELECT" || word == "WITH"

/-- A `CASE` behind its first word. -/
def choice (g : Grammar) : Parser Expr := do
  let subject ←
    if ← keyword? "WHEN" then pure []
    else
      let value ← g.expr Level.none
      keyword "WHEN"
      pure [value]
  let branch : Parser (Expr × Expr) := do
    let condition ← g.expr Level.none
    keyword "THEN"
    let result ← g.expr Level.none
    return (condition, result)
  let firstBranch ← branch
  let more ← many (after? "WHEN" branch)
  let otherwise ← after? "ELSE" (g.expr Level.none)
  keyword "END"
  let branches := firstBranch :: more
  return .form (.choice (!subject.isEmpty) branches.length otherwise.isSome)
    (subject ++ branches.map Prod.fst ++ branches.map Prod.snd ++ otherwise.toList)

/-- A conversion behind its first word. -/
def cast (g : Grammar) (word : String) : Parser Expr := do
  symbol "("
  let value ← g.expr Level.none
  keyword "AS"
  let type ← DataType.parser
  let format ←
    if ← keyword? "FORMAT" then
      let text ← Literal.parser
      let zone ←
        if ← keywords? ["AT", "TIME", "ZONE"] then
          (fun zone => " AT TIME ZONE " ++ zone) <$> Literal.parser
        else pure ""
      pure (" FORMAT " ++ text ++ zone)
    else pure ""
  symbol ")"
  return .enclosed (word ++ "(") [value] (" AS " ++ type.text ++ format ++ ")")

/-- A conversion to a type or a character set, behind its first word. -/
def convert (g : Grammar) (word : String) : Parser Expr := do
  symbol "("
  let value ← g.expr Level.none
  if ← keyword? "USING" then
    let charset ← name
    symbol ")"
    return .enclosed (word ++ "(") [value] (" USING " ++ charset.render ++ ")")
  symbol ","
  let type ← DataType.parser
  let charset ←
    if ← keywords? ["CHARACTER", "SET"] then
      (fun charset : Name => " CHARACTER SET " ++ charset.render) <$> name
    else pure ""
  symbol ")"
  return .enclosed (word ++ "(") [value] (", " ++ type.text ++ charset ++ ")")

/-- A field of a time, behind the word `EXTRACT`. -/
def extract (g : Grammar) : Parser Expr := do
  symbol "("
  let field ← Literal.timeField
  let mark ←
    if ← keyword? "FROM" then pure " FROM "
    else if ← symbol? "," then pure ", "
    else fail (.failed "Expected 'FROM' or ','" none)
  let value ← g.expr Level.none
  symbol ")"
  return .enclosed ("EXTRACT(" ++ field ++ mark) [value] ")"

/-- Rounding up or down, behind its first word. -/
def rounding (g : Grammar) (word : String) : Parser Expr := do
  symbol "("
  let value ← g.expr Level.none
  let suffix ←
    if ← keyword? "TO" then (fun field => " TO " ++ field) <$> Literal.timeField
    else if ← symbol? "," then
      match ← peek? with
      | some (.number _ _) => (fun scale => ", " ++ scale) <$> Literal.parser
      | _ =>
        let _ ← Literal.parser
        fail (.failed "Scale field can only be of number type" none)
    else pure ""
  symbol ")"
  return .enclosed (word ++ "(") [value] (suffix ++ ")")

/-- The place of a text in another one, behind the word `POSITION`. -/
def position (g : Grammar) (first : Parser Expr) (word : Ident) : Parser Expr := do
  let found ← attempt do
    symbol "("
    let what ← g.expr Level.comparison
    keyword "IN"
    let text ← g.expr Level.none
    symbol ")"
    return Expr.enclosed "POSITION(" [.infixed what "IN" text] ")"
  match found with
  | some value => return value
  | none => call g first [word]

/-- A part of a text, behind the word `SUBSTRING`. -/
def substring (g : Grammar) : Parser Expr := do
  symbol "("
  let value ← g.expr Level.none
  let byCommas ← symbol? ","
  let start ←
    if byCommas then (fun start => [start]) <$> g.expr Level.none
    else (Option.toList ·) <$> after? "FROM" (g.expr Level.none)
  let length ←
    if ← keyword? "FOR" then (fun length => [length]) <$> g.expr Level.none
    else if ← symbol? "," then (fun length => [length]) <$> g.expr Level.none
    else pure []
  symbol ")"
  if byCommas then return .enclosed "SUBSTRING(" (value :: start ++ length) ")"
  return .enclosed "SUBSTRING("
    [.sequence (value :: start.map (.prefixed "FROM ") ++ length.map (.prefixed "FOR "))] ")"

/-- A text with a part replaced, behind the word `OVERLAY`. -/
def overlay (g : Grammar) : Parser Expr := do
  symbol "("
  let value ← g.expr Level.none
  keyword "PLACING"
  let what ← g.expr Level.none
  keyword "FROM"
  let start ← g.expr Level.none
  let length ← after? "FOR" (g.expr Level.none)
  symbol ")"
  return .enclosed "OVERLAY("
    [.sequence ([value, .prefixed "PLACING " what, .prefixed "FROM " start] ++
      length.toList.map (.prefixed "FOR "))] ")"

/-- A text without what stands at its ends, behind the word `TRIM`. -/
def trim (g : Grammar) : Parser Expr := do
  symbol "("
  let side ← oneOf? ["BOTH", "LEADING", "TRAILING"]
  let sideText := (side.map (· ++ " ")).getD ""
  let value ← g.expr Level.none
  if ← keyword? "FROM" then
    let text ← g.expr Level.none
    symbol ")"
    return .form (.trim sideText) [text, value]
  if ← symbol? "," then
    let characters ← commaSeparated (g.expr Level.none)
    symbol ")"
    return .enclosed "TRIM(" (value :: characters) ")"
  symbol ")"
  return .enclosed ("TRIM(" ++ sideText) [value] ")"

/-- A test for rows, behind the word `EXISTS`. -/
def existence (g : Grammar) (negated : Bool) : Parser Expr := do
  symbol "("
  let query ← g.query
  symbol ")"
  return .prefixed (if negated then "NOT EXISTS " else "EXISTS ") (.query query)

/-- A composite value, from its first word on. -/
def composite (g : Grammar) : Parser Expr := do
  let type ←
    match ← remaining with
    | _ :: ⟨⟨.symbol "<", _⟩, _⟩ :: _ => (fun type => type.text) <$> DataType.parser
    | _ =>
      advance
      pure "STRUCT"
  symbol "("
  let values ← commaSeparated do
    let value ← g.expr Level.none
    if type != "STRUCT" && (← peekKeyword 0) == "AS" then
      failHere "Typed syntax does not allow AS"
    else if ← keyword? "AS" then return .suffixed value (" AS " ++ (← ident).render)
    else return value
  symbol ")"
  return .enclosed (type ++ "(") values ")"

/-- Keys and values in braces, from the opening brace on. -/
def dictionary (key : Parser Expr) (g : Grammar) (opening : String) : Parser Expr := do
  symbol "\x7b"
  let fields ← commaSeparatedUntil "\x7d" do
    let key ← key
    symbol ":"
    let value ← g.expr Level.none
    return Expr.sequence [.suffixed key ":", value]
  symbol "\x7d"
  return .enclosed opening fields "\x7d"

/-- Elements in brackets, behind the opening bracket. -/
def array (g : Grammar) (opening : String) : Parser Expr := do
  let elements ← commaSeparatedUntil "]" (g.expr Level.none)
  symbol "]"
  return .enclosed opening elements "]"

/-- The form that a word introduces, if it introduces one.  The list holds the
tokens from the word on, and the word has been read. -/
def specialWord (g : Grammar) (first : Parser Expr) (start : List Lexeme) (ident : Ident)
    (word : String) : Parser (Option Expr) := do
  match word with
  | "TRUE" => return some (.constant "true")
  | "FALSE" => return some (.constant "false")
  | "NULL" => return some (.constant "NULL")
  | "CURRENT_CATALOG" | "CURRENT_USER" | "SESSION_USER" | "USER" =>
    return some (.form (.call [ident] [] "") [])
  | "CURRENT_TIMESTAMP" | "CURRENT_TIME" | "CURRENT_DATE" | "LOCALTIME" | "LOCALTIMESTAMP" =>
    if ← symbol? "(" then
      let (values, _) ← arguments g
      return some (.form (.call [ident] [.arguments] "") [values])
    else return some (.form (.call [ident] [] "") [])
  | "CASE" => some <$> choice g
  | "CONVERT" | "TRY_CONVERT" => some <$> convert g word
  | "CAST" | "TRY_CAST" | "SAFE_CAST" => some <$> cast g word
  | "EXISTS" => some <$> existence g false
  | "EXTRACT" => some <$> extract g
  | "CEIL" | "FLOOR" => some <$> rounding g word
  | "POSITION" => if ← atSymbol "(" then some <$> position g first ident else return none
  | "SUBSTRING" => some <$> substring g
  | "OVERLAY" => some <$> overlay g
  | "TRIM" => some <$> trim g
  | "INTERVAL" => some <$> interval first
  | "ARRAY" =>
    if ← symbol? "[" then some <$> array g "ARRAY["
    else if ← symbol? "(" then
      let query ← g.query
      symbol ")"
      return some (.form (.call [ident] [.arguments] "") [.query query])
    else return none
  | "NOT" =>
    if ← keyword? "EXISTS" then some <$> existence g true
    else return some (.prefixed "NOT " (← g.expr Level.not))
  | "STRUCT" =>
    resume start
    some <$> composite g
  | "MAP" =>
    if ← atSymbol "\x7b" then some <$> dictionary (g.expr Level.none) g "MAP \x7b"
    else return none
  | _ => return none

/-- An expression that starts with a word. -/
def startingWithWord (g : Grammar) (first : Parser Expr) (start : List Lexeme) (ident : Ident)
    (word : String) : Parser Expr := do
  advance
  match ← trying (specialWord g first start ident word) with
  | .ok (some value) => return value
  | .ok none => ordinaryWord g first ident
  | .error issue =>
    if Keyword.notIdentifier.contains word then fail issue
    else
      match ← trying (ordinaryWord g first ident) with
      | .ok value => return value
      | .error _ => fail issue

/-- What stands in parentheses, from the opening one on. -/
def parentheses (g : Grammar) : Parser Expr := do
  symbol "("
  if ← atQuery then
    let query ← g.query
    symbol ")"
    fieldOf (.query query)
  else
    let values ← commaSeparated (g.expr Level.none)
    symbol ")"
    fieldOf (.parenthesized values)
where
  /-- A field of the value in parentheses, when one follows. -/
  fieldOf (value : Expr) : Parser Expr := do
    if ← symbol? "." then
      match ← remaining with
      | ⟨⟨.word ident, _⟩, _⟩ :: _ =>
        advance
        return .suffixed value ("." ++ ident.render)
      | ⟨⟨token, place⟩, _⟩ :: _ =>
        fail (.failed ("Expected identifier, found: " ++ token.text) (some place))
      | [] => fail (.failed "Expected identifier, found: EOF" none)
    else return value

/-- The first operand of an expression, without a collation. -/
def primary (g : Grammar) (first : Parser Expr) : Parser Expr := do
  let start ← remaining
  match start with
  | ⟨⟨.word ident, _⟩, word⟩ :: _ => startingWithWord g first start ident word
  | ⟨⟨.symbol text, _⟩, _⟩ :: _ =>
    match text with
    | "[" =>
      advance
      array g "["
    | "-" | "+" =>
      advance
      return .prefixed text (← g.expr Level.product)
    | "(" => parentheses g
    | ":" | "@" => Expr.constant <$> Literal.parser
    | "\x7b" =>
      let functionCall ← attempt do
        symbol "\x7b"
        keyword "FN"
        let callee ← name
        call g first callee
      match functionCall with
      | some value =>
        symbol "\x7d"
        return .enclosed "\x7bfn " [value] "\x7d"
      | none => dictionary ((fun ident => Expr.constant ident.render) <$> ident) g "\x7b"
    | _ => expected "an expression"
  | ⟨⟨token, _⟩, _⟩ :: _ =>
    match Literal.ofToken? token with
    | some text =>
      advance
      return .constant text
    | none => expected "an expression"
  | [] => expected "an expression"

/-- A constant of a type that stands in front of it. -/
def typedConstant (first : Parser Expr) : Parser Expr := do
  let type ← DataType.parser
  match type.kind with
  | .interval => interval first
  | .custom => fail (.failed "dummy" none)
  | .known => return .constant (type.text ++ " " ++ inQuotes '\'' (← Literal.text))

/-- The first operand of an expression; the fuel bounds the nesting of
intervals. -/
def operandFrom (g : Grammar) : Nat → Parser Expr
  | 0 => expected "an expression"
  | fuel + 1 => do
    let first := operandFrom g fuel
    match ← attempt (typedConstant first) with
    | some value => return value
    | none =>
      let value ← primary g first
      if ← keyword? "COLLATE" then
        let collation ← name
        return .suffixed value (" COLLATE " ++ collation.render)
      else return value

/-- The first operand of an expression. -/
def operand (g : Grammar) : Parser Expr := do
  let rest ← remaining
  operandFrom g (rest.length + 1)

/-- A comparison with all or some elements, when one follows the operator. -/
def quantified? (g : Grammar) (level : Level) (left : Expr) (operator : String)
    (place : Location) : Parser (Option Expr) := do
  match ← oneOf? ["ANY", "ALL", "SOME"] with
  | none => return none
  | some word =>
    let opening ← remaining
    symbol "("
    let right ←
      if ← atQuery then
        resume opening
        g.expr level
      else
        let right ← g.expr level
        symbol ")"
        pure right
    unless comparisons.contains operator do
      fail (.failed ("Expected one of [=, >, <, =>, =<, !=] as comparison operator, found: " ++
        operator) (some place))
    let set :=
      match right with
      | .query _ => Expr.prefixed word right
      | _ => Expr.enclosed (word ++ "(") [right] ")"
    return some (.infixed left operator set)

/-- An operator between two operands, once the operator has been read. -/
def binary (g : Grammar) (level : Level) (left : Expr) (operator : String) (place : Location) :
    Parser Expr := do
  match ← quantified? g level left operator place with
  | some value => return value
  | none => return .infixed left operator (← g.expr level)

/-- A test behind the word `IS`. -/
def isTest (g : Grammar) (left : Expr) : Parser Expr := do
  if ← keyword? "NULL" then return .suffixed left " IS NULL"
  if ← keywords? ["NOT", "NULL"] then return .suffixed left " IS NOT NULL"
  if ← keyword? "TRUE" then return .suffixed left " IS TRUE"
  if ← keywords? ["NOT", "TRUE"] then return .suffixed left " IS NOT TRUE"
  if ← keyword? "FALSE" then return .suffixed left " IS FALSE"
  if ← keywords? ["NOT", "FALSE"] then return .suffixed left " IS NOT FALSE"
  if ← keyword? "UNKNOWN" then return .suffixed left " IS UNKNOWN"
  if ← keywords? ["NOT", "UNKNOWN"] then return .suffixed left " IS NOT UNKNOWN"
  if ← keywords? ["DISTINCT", "FROM"] then
    return .infixed left "IS DISTINCT FROM" (← g.expr Level.none)
  if ← keywords? ["NOT", "DISTINCT", "FROM"] then
    return .infixed left "IS NOT DISTINCT FROM" (← g.expr Level.none)
  let negated ← keyword? "NOT"
  let normalForm ← oneOf? ["NFC", "NFD", "NFKC", "NFKD"]
  if ← keyword? "NORMALIZED" then
    return .suffixed left (" IS " ++ (if negated then "NOT " else "") ++
      (normalForm.map (· ++ " ")).getD "" ++ "NORMALIZED")
  expected "[NOT] NULL | TRUE | FALSE | DISTINCT | [form] NORMALIZED FROM after IS"

/-- A test for membership behind the word `IN`. -/
def membership (g : Grammar) (left : Expr) (operator : String) : Parser Expr := do
  if ← keyword? "UNNEST" then
    let array ← parenthesized (g.expr Level.none)
    return .infixed left operator (.enclosed "UNNEST(" [array] ")")
  symbol "("
  let set ←
    if ← atQuery then Expr.query <$> g.query
    else Expr.parenthesized <$> commaSeparated (g.expr Level.none)
  symbol ")"
  return .infixed left operator set

/-- A match with a pattern, behind its operator. -/
def pattern (g : Grammar) (left : Expr) (operator : String) : Parser Expr := do
  let right ← g.expr Level.like
  let value := Expr.infixed left operator right
  match ← after? "ESCAPE" Literal.text with
  | some mark => return .suffixed value (" ESCAPE '" ++ mark ++ "'")
  | none => return value

/-- A test that may be negated by `NOT` in front of its operator. -/
def negatable (g : Grammar) (left : Expr) : Parser Expr := do
  let no := if ← keyword? "NOT" then "NOT " else ""
  if ← keyword? "REGEXP" then return .infixed left (no ++ "REGEXP") (← g.expr Level.like)
  if ← keyword? "RLIKE" then return .infixed left (no ++ "RLIKE") (← g.expr Level.like)
  if ← keyword? "IN" then return ← membership g left (no ++ "IN")
  if ← keyword? "BETWEEN" then
    let low ← g.expr Level.comparison
    keyword "AND"
    let high ← g.expr Level.comparison
    return .infixed left (no ++ "BETWEEN") (.infixed low "AND" high)
  if ← keyword? "LIKE" then
    let any := if ← keyword? "ANY" then " ANY" else ""
    return ← pattern g left (no ++ "LIKE" ++ any)
  if ← keyword? "ILIKE" then
    let any := if ← keyword? "ANY" then " ANY" else ""
    return ← pattern g left (no ++ "ILIKE" ++ any)
  if ← keywords? ["SIMILAR", "TO"] then return ← pattern g left (no ++ "SIMILAR TO")
  expected "IN or BETWEEN after NOT"

/-- The parts of an operator name in parentheses, up to the closing one. -/
def operatorName : Nat → Parser (List String)
  | 0 => pure []
  | fuel + 1 => do
    let part ← peek?
    advance
    let text := (part.map Token.text).getD "EOF"
    if ← symbol? "." then
      return text :: (← operatorName fuel)
    else return [text]

/-- The expression that an operator and what follows it make of a left operand.
The level is that of the operator. -/
def extend (g : Grammar) (level : Level) (left : Expr) : Parser Expr := do
  match ← remaining with
  | [] => expected "an expression"
  | ⟨⟨token, place⟩, word⟩ :: rest =>
    let unread : Parser Expr :=
      fail (.failed ("No infix parser for token " ++ unreadText token) (some place))
    match token with
    | .symbol text =>
      if binarySymbols.contains text then
        advance
        binary g level left text place
      else
        match text with
        | "==" =>
          advance
          binary g level left "=" place
        | "::" =>
          advance
          let type ← DataType.parser
          return .suffixed left ("::" ++ type.text)
        | "[" =>
          let indices ← subscripts g
          compound g (operand g) left indices
        | _ => unread
    | _ =>
      match word with
      | "AND" | "OR" | "XOR" | "OVERLAPS" =>
        advance
        binary g level left word place
      | "OPERATOR" =>
        advance
        symbol "("
        let parts ← operatorName rest.length
        symbol ")"
        binary g level left ("OPERATOR(" ++ ".".intercalate parts ++ ")") place
      | "IS" =>
        advance
        isTest g left
      | "AT" =>
        advance
        keywords ["TIME", "ZONE"]
        return .infixed left "AT TIME ZONE" (← g.expr level)
      | "NOT" | "IN" | "BETWEEN" | "LIKE" | "ILIKE" | "SIMILAR" | "REGEXP" | "RLIKE" =>
        negatable g left
      | _ => unread

/-- An expression whose operators bind more strongly than a level. -/
def parser (g : Grammar) (level : Level) : Parser Expr := do
  let left ← operand g
  grow (fun left => do
    let rest ← remaining
    let next := Level.next rest
    if next ≤ level || next == Level.ofSymbol "." then return none
    else return some (← extend g next left)) left

end Expression

end Relocate.Sql
