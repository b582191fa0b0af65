import Relocate.Sql.Keyword
import Relocate.Sql.Lexer
import Relocate.Sql.Syntax

/-!
# Readers of token lists

A `Parser α` takes the tokens that remain and returns a value with the tokens
behind it, or the reason why none can be read.  Going back is keeping the old
list, so a failed attempt leaves no trace.

Nesting is bounded: a `Grammar` holds the three readers that may contain
themselves, and a reader of depth `n + 1` is built from the grammar of depth
`n`.  The grammar of depth zero refuses everything with `tooDeep`.
-/

namespace Relocate.Sql

/-- Why a text is no statement. -/
inductive ParseError
  | lexical (issue : LexicalError)
  /-- Something else was expected; `none` when the text ends. -/
  | expected (wanted : String) (found : Option Placed)
  | failed (message : String) (place : Option Location)
  | tooDeep

namespace ParseError

/-- The message, with the place where one is known. -/
def describe : ParseError → String
  | lexical issue => "sql parser error: " ++ issue.describe
  | expected wanted none => "sql parser error: Expected: " ++ wanted ++ ", found: EOF"
  | expected wanted (some found) =>
    "sql parser error: Expected: " ++ wanted ++ ", found: " ++ found.token.text ++
      found.place.describe
  | failed message place =>
    "sql parser error: " ++ message ++ (place.map Location.describe).getD ""
  | tooDeep => "sql parser error: recursion limit exceeded"

/-- The error with its place told in another way. -/
def relocated (move : Location → Location) : ParseError → ParseError
  | expected wanted found =>
    expected wanted (found.map fun found => ⟨found.token, move found.place⟩)
  | failed message place => failed message (place.map move)
  | issue => issue

end ParseError

/-- A token with its place and the word by which it is compared with keywords. -/
structure Lexeme where
  placed : Placed
  keyword : String

/-- The lexeme of a placed token. -/
def Lexeme.ofPlaced (placed : Placed) : Lexeme :=
  ⟨placed, placed.token.keyword⟩

/-- The lexemes of tokens in a row: all on one line, from a column on, one column each. -/
def Lexeme.row (column : Nat) : List Token → List Lexeme
  | [] => []
  | token :: rest => .ofPlaced ⟨token, ⟨1, column⟩⟩ :: row (column + 1) rest

/-- The place in the text of the token at a place of the row. -/
def placeInText (tokens : List Placed) (inRow : Location) : Location :=
  (tokens[inRow.column - 1]?.map Placed.place).getD inRow

/-- A reader of a value from the start of a token list. -/
def Parser (α : Type) := List Lexeme → Except ParseError (α × List Lexeme)

namespace Parser

variable {α β : Type}

instance : Monad Parser where
  pure value := fun rest => .ok (value, rest)
  bind first next := fun rest =>
    match first rest with
    | .ok (value, rest) => next value rest
    | .error issue => .error issue

/-- The reader that fails. -/
def fail (issue : ParseError) : Parser α :=
  fun _ => .error issue

/-- The tokens that remain. -/
def remaining : Parser (List Lexeme) :=
  fun rest => .ok (rest, rest)

/-- Goes back to a place where the reader has been before. -/
def resume (rest : List Lexeme) : Parser Unit :=
  fun _ => .ok ((), rest)

/-- The failure at the next token. -/
def expected (wanted : String) : Parser α :=
  fun rest => .error (.expected wanted (rest.head?.map Lexeme.placed))

/-- A failure with a message and the place of the next token. -/
def failHere (message : String) : Parser α :=
  fun rest => .error (.failed message (rest.head?.map fun lexeme => lexeme.placed.place))

/-- The next token, which stays. -/
def peek? : Parser (Option Token) :=
  fun rest => .ok (rest.head?.map fun lexeme => lexeme.placed.token, rest)

/-- The keyword at a distance from the next token; empty when there is none. -/
def peekKeyword (distance : Nat) : Parser String :=
  fun rest => .ok ((rest[distance]?.map Lexeme.keyword).getD "", rest)

/-- The next token is this symbol. -/
def atSymbol (text : String) : Parser Bool :=
  fun rest =>
    .ok (match rest with
      | ⟨⟨.symbol found, _⟩, _⟩ :: _ => found == text
      | _ => false, rest)

/-- The next tokens are this keyword and this symbol. -/
def atKeywordAndSymbol (word text : String) : Parser Bool :=
  fun rest =>
    .ok (match rest with
      | ⟨_, keyword⟩ :: ⟨⟨.symbol found, _⟩, _⟩ :: _ => keyword == word && found == text
      | _ => false, rest)

/-- Drops the next token. -/
def advance : Parser Unit :=
  fun rest => .ok ((), rest.drop 1)

/-- Reads a symbol when it comes next. -/
def symbol? (text : String) : Parser Bool :=
  fun rest =>
    match rest with
    | ⟨⟨.symbol found, _⟩, _⟩ :: tail => if found == text then .ok (true, tail) else .ok (false, rest)
    | _ => .ok (false, rest)

/-- Reads a symbol. -/
def symbol (text : String) : Parser Unit := do
  unless ← symbol? text do expected text

/-- Reads a keyword when it comes next. -/
def keyword? (word : String) : Parser Bool :=
  fun rest =>
    match rest with
    | ⟨_, found⟩ :: tail => if found == word then .ok (true, tail) else .ok (false, rest)
    | [] => .ok (false, rest)

/-- Reads a keyword. -/
def keyword (word : String) : Parser Unit := do
  unless ← keyword? word do expected word

/-- What follows a phrase of keywords, when the tokens start with it. -/
def dropKeywords? : List String → List Lexeme → Option (List Lexeme)
  | [], rest => some rest
  | _ :: _, [] => none
  | word :: words, lexeme :: rest =>
    if lexeme.keyword == word then dropKeywords? words rest else none

/-- Reads a phrase of keywords when all of them come next. -/
def keywords? (words : List String) : Parser Bool :=
  fun rest =>
    match dropKeywords? words rest with
    | some tail => .ok (true, tail)
    | none => .ok (false, rest)

/-- Reads a phrase of keywords. -/
def keywords : List String → Parser Unit
  | [] => pure ()
  | word :: words => do
    keyword word
    keywords words

/-- Reads the first of some keywords that comes next. -/
def oneOf? (words : List String) : Parser (Option String) :=
  fun rest =>
    match rest with
    | ⟨_, found⟩ :: tail =>
      if found != "" && words.contains found then .ok (some found, tail) else .ok (none, rest)
    | [] => .ok (none, rest)

/-- The result of an attempt; a failure other than excessive nesting leaves the
tokens as they were. -/
def attempt (reader : Parser α) : Parser (Option α) :=
  fun rest =>
    match reader rest with
    | .ok (value, tail) => .ok (some value, tail)
    | .error .tooDeep => .error .tooDeep
    | .error _ => .ok (none, rest)

/-- The value, or the reason why there is none; a failure leaves the tokens as
they were. -/
def trying (reader : Parser α) : Parser (Except ParseError α) :=
  fun rest =>
    match reader rest with
    | .ok (value, tail) => .ok (.ok value, tail)
    | .error issue => .ok (.error issue, rest)

/-- Reads what follows a keyword, when the keyword comes next. -/
def after? (word : String) (reader : Parser α) : Parser (Option α) := do
  if ← keyword? word then some <$> reader else return none

/-- Values separated by a symbol, at most `fuel` more than one. -/
def separatedFrom (mark : String) (reader : Parser α) : Nat → Parser (List α)
  | 0 => (fun value => [value]) <$> reader
  | fuel + 1 => do
    let value ← reader
    if ← symbol? mark then
      let more ← separatedFrom mark reader fuel
      return value :: more
    else return [value]

/-- One or more values separated by a symbol. -/
def separated (mark : String) (reader : Parser α) : Parser (List α) :=
  fun rest => separatedFrom mark reader rest.length rest

/-- One or more values separated by commas. -/
def commaSeparated (reader : Parser α) : Parser (List α) :=
  separated "," reader

/-- Values separated by commas, none at all when the closing symbol is next. -/
def commaSeparatedUntil (closing : String) (reader : Parser α) : Parser (List α) := do
  if ← atSymbol closing then return []
  commaSeparated reader

/-- A value in parentheses. -/
def parenthesized (reader : Parser α) : Parser α := do
  symbol "("
  let value ← reader
  symbol ")"
  return value

/-- Values read one after the other while there are any, at most `fuel`. -/
def manyFrom (reader : Parser (Option α)) : Nat → Parser (List α)
  | 0 => pure []
  | fuel + 1 => do
    match ← reader with
    | none => return []
    | some value =>
      let more ← manyFrom reader fuel
      return value :: more

/-- Values read one after the other while there are any. -/
def many (reader : Parser (Option α)) : Parser (List α) :=
  fun rest => manyFrom reader rest.length rest

/-- A value grown step by step while there is a step, at most `fuel` times. -/
def growFrom (step : α → Parser (Option α)) : Nat → α → Parser α
  | 0, value => pure value
  | fuel + 1, value => do
    match ← step value with
    | none => return value
    | some value => growFrom step fuel value

/-- A value grown step by step while there is a step. -/
def grow (step : α → Parser (Option α)) (value : α) : Parser α :=
  fun rest => growFrom step rest.length value rest

/-- An identifier: any word, or a text constant. -/
def ident : Parser Ident :=
  fun rest =>
    match rest with
    | ⟨⟨.word ident, _⟩, _⟩ :: tail => .ok (ident, tail)
    | ⟨⟨.quoted .plain value, _⟩, _⟩ :: tail => .ok (⟨value, some '\''⟩, tail)
    | _ => expected "identifier" rest

/-- A name: identifiers with points between them. -/
def name : Parser Name :=
  separated "." ident

/-- Identifiers in parentheses. -/
def columnNames : Parser (List Ident) := do
  unless ← atSymbol "(" do expected "a list of columns in parentheses"
  parenthesized (commaSeparated ident)

/-- An alias: any identifier after `AS`, or a word that is not reserved here. -/
def alias? (reserved : List String) : Parser (Option Ident) := do
  let marked ← keyword? "AS"
  match ← remaining with
  | ⟨⟨.word ident, _⟩, word⟩ :: _ =>
    if marked || !reserved.contains word then
      advance
      return some ident
    else return none
  | ⟨⟨.quoted .plain value, _⟩, _⟩ :: _ =>
    advance
    return some ⟨value, some '\''⟩
  | _ => if marked then expected "an identifier after AS" else return none

end Parser

/-- The readers that may contain themselves. -/
structure Grammar where
  /-- An expression whose operators bind more strongly than a level. -/
  expr : Nat → Parser Expr
  query : Parser Query
  statement : Parser Statement

end Relocate.Sql
