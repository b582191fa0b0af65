import Relocate.Sql.Token
import Relocate.Text.Blank
import Relocate.Text.Letter

/-!
# Lexical analysis

`tokenize` cuts a text into placed tokens or names the first character at which
no token can be read.  A `Cursor` is what remains of the text together with the
place of its first character; every reader below takes the remaining characters
and their place and returns the cursor behind what it read.
-/

namespace Relocate.Sql

/-- Why a text has no tokens. -/
structure LexicalError where
  message : String
  place : Location
deriving DecidableEq, Repr

/-- The message with the place. -/
def LexicalError.describe (issue : LexicalError) : String :=
  issue.message ++ issue.place.describe

/-- The rest of a text and the place of its first character. -/
structure Cursor where
  rest : List Char
  place : Location
deriving Repr

namespace Lexer

open Text

/-- A character that may start a bare word. -/
def isWordStart (c : Char) : Bool :=
  isLetter c || c == '_' || c == '#' || c == '@'

/-- A character that may continue a bare word. -/
def isWordPart (c : Char) : Bool :=
  isLetter c || c.isDigit || c == '@' || c == '$' || c == '#' || c == '_'

/-- The longest run of characters with a property, and what follows it. -/
def run (p : Char → Bool) : List Char → Location → List Char × Cursor
  | [], place => ([], ⟨[], place⟩)
  | c :: rest, place =>
    if p c then
      let (front, cursor) := run p rest (place.step c)
      (c :: front, cursor)
    else ([], ⟨c :: rest, place⟩)

/-- The cursor behind the first `n` characters. -/
def skip : Nat → List Char → Location → Cursor
  | 0, rest, place => ⟨rest, place⟩
  | _, [], place => ⟨[], place⟩
  | n + 1, c :: rest, place => skip n rest (place.step c)

/-- A text that ends at a quote; a doubled quote stands for one.  Reading starts
behind the opening quote; `none` when the closing one is missing. -/
def untilQuote (quote : Char) : List Char → Location → Option (List Char × Cursor)
  | [], _ => none
  | c :: rest, place =>
    if c = quote then
      match rest with
      | [] => some ([], ⟨[], place.step c⟩)
      | d :: tail =>
        if d = quote then
          (untilQuote quote tail ((place.step c).step d)).map fun (front, cursor) =>
            (quote :: front, cursor)
        else some ([], ⟨d :: tail, place.step c⟩)
    else
      (untilQuote quote rest (place.step c)).map fun (front, cursor) => (c :: front, cursor)

/-- The character that a backslash and a letter stand for in a hexadecimal
constant. -/
def controlCharacter (c : Char) : Char :=
  match c with
  | '0' => '\x00'
  | 'a' => '\x07'
  | 'b' => '\x08'
  | 'f' => '\x0c'
  | 'n' => '\n'
  | 'r' => '\r'
  | 't' => '\t'
  | 'Z' => '\x1a'
  | _ => c

/-- Like `untilQuote`, with backslash escapes. -/
def untilQuoteEscaped (quote : Char) : List Char → Location → Option (List Char × Cursor)
  | [], _ => none
  | c :: rest, place =>
    if c = quote then
      match rest with
      | [] => some ([], ⟨[], place.step c⟩)
      | d :: tail =>
        if d = quote then
          (untilQuoteEscaped quote tail ((place.step c).step d)).map fun (front, cursor) =>
            (quote :: front, cursor)
        else some ([], ⟨d :: tail, place.step c⟩)
    else if c = '\\' then
      match rest with
      | [] => none
      | d :: tail =>
        (untilQuoteEscaped quote tail ((place.step c).step d)).map fun (front, cursor) =>
          (controlCharacter d :: front, cursor)
    else
      (untilQuoteEscaped quote rest (place.step c)).map fun (front, cursor) =>
        (c :: front, cursor)

/-- A text that ends at three quotes in a row. -/
def untilTripleQuote (quote : Char) : List Char → Location → Option (List Char × Cursor)
  | [], _ => none
  | c :: rest, place =>
    if c = quote ∧ rest.take 2 = [quote, quote] then
      some ([], skip 2 rest (place.step c))
    else
      (untilTripleQuote quote rest (place.step c)).map fun (front, cursor) =>
        (c :: front, cursor)

/-- The value of a hexadecimal digit. -/
def hexValue? (c : Char) : Option Nat :=
  if c.isDigit then some (c.toNat - '0'.toNat)
  else if 'a' ≤ c ∧ c ≤ 'f' then some (c.toNat - 'a'.toNat + 10)
  else if 'A' ≤ c ∧ c ≤ 'F' then some (c.toNat - 'A'.toNat + 10)
  else none

/-- The character with a code point, if there is one. -/
def character? (code : Nat) : Option Char :=
  if h : code.isValidChar then some (Char.ofNatAux code h) else none

/-- The number that a list of digits denotes in a base. -/
def digitsValue (base : Nat) (digits : List Nat) : Nat :=
  digits.foldl (fun value digit => value * base + digit) 0

/-- Up to `limit` leading digits of a base, and the number of them. -/
def leadingDigits (base : Nat) : Nat → List Char → List Nat
  | 0, _ | _, [] => []
  | limit + 1, c :: rest =>
    match hexValue? c with
    | some value => if value < base then value :: leadingDigits base limit rest else []
    | none => []

/-- A byte given by its value; only ASCII bytes denote a character. -/
def asciiByte? (value : Nat) : Option Char :=
  if value % 256 ≤ 127 then character? (value % 256) else none

/-- The character that an escape sequence denotes, and how many characters the
sequence has behind its backslash. -/
def escapeSequence? : List Char → Option (Char × Nat)
  | [] => none
  | c :: rest =>
    match c with
    | 'b' => some ('\x08', 1)
    | 'f' => some ('\x0c', 1)
    | 'n' => some ('\n', 1)
    | 'r' => some ('\r', 1)
    | 't' => some ('\t', 1)
    | 'u' => fixed 4 rest
    | 'U' => fixed 8 rest
    | 'x' =>
      match leadingDigits 16 2 rest with
      | [] => some ('x', 1)
      | digits => (asciiByte? (digitsValue 16 digits)).map fun found => (found, 1 + digits.length)
    | _ =>
      match leadingDigits 8 3 (c :: rest) with
      | [] => some (c, 1)
      | digits => (asciiByte? (digitsValue 8 digits)).map fun found => (found, digits.length)
where
  /-- A code point of exactly `width` hexadecimal digits. -/
  fixed (width : Nat) (rest : List Char) : Option (Char × Nat) :=
    let digits := leadingDigits 16 width rest
    if digits.length = width then
      (character? (digitsValue 16 digits)).map fun found => (found, 1 + width)
    else none

/-- An escape constant behind its opening quote; `none` when it is not closed
or holds an escape sequence without a value.  The fuel bounds the number of
characters. -/
def escapedText : Nat → List Char → Location → Option (List Char × Cursor)
  | 0, _, _ | _, [], _ => none
  | fuel + 1, c :: rest, place =>
    if c = '\'' then
      match rest with
      | '\'' :: tail =>
        (escapedText fuel tail ((place.step c).step c)).map fun (front, cursor) =>
          ('\'' :: front, cursor)
      | _ => some ([], ⟨rest, place.step c⟩)
    else if c = '\\' then
      match escapeSequence? rest with
      | none => none
      | some (found, width) =>
        if found = '\x00' then none
        else
          let after := skip width rest (place.step c)
          (escapedText fuel after.rest after.place).map fun (front, cursor) =>
            (found :: front, cursor)
    else
      (escapedText fuel rest (place.step c)).map fun (front, cursor) => (c :: front, cursor)

/-- A number in lower-case hexadecimal digits. -/
def hexText (value : Nat) : String :=
  String.ofList (Nat.toDigits 16 value)

/-- A code point of exactly `width` hexadecimal digits. -/
def codePoint (width : Nat) : Nat → List Char → Location →
    Except LexicalError (Char × Cursor)
  | value, rest, place =>
    match width with
    | 0 =>
      match character? value with
      | some found => .ok (found, ⟨rest, place⟩)
      | none => .error ⟨"Invalid unicode character: " ++ hexText value, place⟩
    | width + 1 =>
      match rest with
      | [] =>
        .error ⟨"Unexpected EOF while parsing hex digit in escaped unicode string.", place⟩
      | c :: tail =>
        match hexValue? c with
        | none =>
          .error ⟨"Invalid hex digit in escaped unicode string: " ++ c.toString, place.step c⟩
        | some digit => codePoint width (value * 16 + digit) tail (place.step c)

/-- A constant with code point escapes behind its opening quote. -/
def unicodeText : Nat → List Char → Location → Except LexicalError (List Char × Cursor)
  | 0, _, place | _, [], place =>
    .error ⟨"Unterminated unicode encoded string literal", place⟩
  | fuel + 1, c :: rest, place => do
    let place := place.step c
    if c = '\'' then
      match rest with
      | '\'' :: tail =>
        let (front, cursor) ← unicodeText fuel tail (place.step '\'')
        return ('\'' :: front, cursor)
      | _ => return ([], ⟨rest, place⟩)
    else if c = '\\' then
      match rest with
      | '\\' :: tail =>
        let (front, cursor) ← unicodeText fuel tail (place.step '\\')
        return ('\\' :: front, cursor)
      | '+' :: tail =>
        let (found, after) ← codePoint 6 0 tail (place.step '+')
        let (front, cursor) ← unicodeText fuel after.rest after.place
        return (found :: front, cursor)
      | _ =>
        let (found, after) ← codePoint 4 0 rest place
        let (front, cursor) ← unicodeText fuel after.rest after.place
        return (found :: front, cursor)
    else
      let (front, cursor) ← unicodeText fuel rest place
      return (c :: front, cursor)

/-- The rest of a comment that opens with a slash and a star, at a nesting
depth; comments of this kind nest.  The place of a failure is the end. -/
def blockComment : Nat → List Char → Location → Except Location (List Char × Cursor)
  | _, [], place => .error place
  | depth, '/' :: '*' :: rest, place =>
    (blockComment (depth + 1) rest ((place.step '/').step '*')).map fun (front, cursor) =>
      ('/' :: '*' :: front, cursor)
  | depth, '*' :: '/' :: rest, place =>
    let place := (place.step '*').step '/'
    match depth with
    | 0 | 1 => .ok (['*', '/'], ⟨rest, place⟩)
    | depth + 1 =>
      (blockComment depth rest place).map fun (front, cursor) => ('*' :: '/' :: front, cursor)
  | depth, c :: rest, place =>
    (blockComment depth rest (place.step c)).map fun (front, cursor) => (c :: front, cursor)

/-- What follows `mark` in a text that starts with it. -/
def dropExact? : List Char → List Char → Option (List Char)
  | [], text => some text
  | _ :: _, [] => none
  | m :: mark, c :: text => if m = c then dropExact? mark text else none

/-- A text up to the first occurrence of a mark, which is consumed.  On failure
the place of the end of the text. -/
def untilMark (mark : List Char) : List Char → Location → Except Location (List Char × Cursor)
  | [], place => .error place
  | c :: rest, place =>
    match dropExact? mark (c :: rest) with
    | some _ => .ok ([], skip mark.length (c :: rest) place)
    | none =>
      (untilMark mark rest (place.step c)).map fun (front, cursor) => (c :: front, cursor)

/-- What may be read at one place: a token and the cursor behind it. -/
abbrev Step := Except LexicalError (Token × Cursor)

/-- A bare word whose first characters are known. -/
def bareWord (front : List Char) (rest : List Char) (place : Location) : Step :=
  let (back, cursor) := run isWordPart rest place
  .ok (.word (.bare (String.ofList (front ++ back))), cursor)

/-- A text constant behind its opening quote, which started at `start`. -/
def constant (form : Quotation) (start : Location) (found : Option (List Char × Cursor)) :
    Step :=
  match found with
  | some (value, cursor) => .ok (.quoted form (String.ofList value), cursor)
  | none => .error ⟨"Unterminated string literal", start⟩

/-- A raw constant, behind its letter: one quote or three on each side, and two
quotes in a row are an empty constant. -/
def rawConstant (quote : Char) (rest : List Char) (place : Location) : Step :=
  let (marks, after) := run (· == quote) (rest.take 3) place
  let behind := skip marks.length rest place
  match marks.length with
  | 2 => .ok (.quoted (.raw quote) "", behind)
  | 3 => constant (.rawTriple quote) behind.place
      (untilTripleQuote quote behind.rest behind.place)
  | _ => constant (.raw quote) after.place (untilQuote quote behind.rest behind.place)

/-- A number or a point.  A point directly before an underscore belongs to a
qualified name and is read only after a word. -/
def numberOrPoint (before : Option Token) (c : Char) (rest : List Char) (place : Location) :
    Step :=
  match c, rest with
  | '.', '_' :: _ =>
    match before with
    | some (.word _) => .ok (.symbol ".", ⟨rest, place.step c⟩)
    | _ => .error ⟨"Unexpected character '_'", place⟩
  | _, _ =>
    let (whole, cursor) := run Char.isDigit (c :: rest) place
    match whole, cursor.rest with
    | ['0'], 'x' :: tail =>
      let (digits, cursor) := run (fun d => (hexValue? d).isSome) tail (cursor.place.step 'x')
      .ok (.quoted .hexadecimal (String.ofList digits), cursor)
    | _, _ =>
      let (point, cursor) : List Char × Cursor :=
        match cursor.rest with
        | '.' :: tail => (['.'], ⟨tail, cursor.place.step '.'⟩)
        | _ => ([], cursor)
      let (fraction, cursor) := run Char.isDigit cursor.rest cursor.place
      let plain := whole ++ point ++ fraction
      if plain = ['.'] then .ok (.symbol ".", cursor)
      else
        let (exponent, cursor) := exponentOf cursor
        let digits := String.ofList (plain ++ exponent)
        match cursor.rest with
        | 'L' :: tail => .ok (.number digits true, ⟨tail, cursor.place.step 'L'⟩)
        | _ => .ok (.number digits false, cursor)
where
  /-- The exponent of a number, when one stands here. -/
  exponentOf (cursor : Cursor) : List Char × Cursor :=
    let mark :=
      match cursor.rest with
      | e :: sign :: _ =>
        if e = 'e' ∨ e = 'E' then
          if sign = '+' ∨ sign = '-' then [e, sign] else [e]
        else []
      | _ => []
    let after := skip mark.length cursor.rest cursor.place
    match mark, after.rest with
    | [], _ => ([], cursor)
    | _, d :: _ =>
      if d.isDigit then
        let (digits, behind) := run Char.isDigit after.rest after.place
        (mark ++ digits, behind)
      else ([], cursor)
    | _, [] => ([], cursor)

/-- What starts with a dollar mark, behind it: a quoted text or a parameter. -/
def afterDollar (rest : List Char) (place : Location) : Step :=
  match rest with
  | '$' :: tail =>
    match untilMark ['$', '$'] tail (place.step '$') with
    | .ok (value, cursor) => .ok (.dollarQuoted "" (String.ofList value), cursor)
    | .error stop => .error ⟨"Unterminated dollar-quoted string", stop⟩
  | _ =>
    let (tag, cursor) := run (fun c => isLetterOrNumber c || c == '_') rest place
    match cursor.rest with
    | '$' :: tail =>
      match untilMark ('$' :: tag ++ ['$']) tail (cursor.place.step '$') with
      | .ok (value, cursor) =>
        .ok (.dollarQuoted (String.ofList tag) (String.ofList value), cursor)
      | .error stop => .error ⟨"Unterminated dollar-quoted, expected $", stop⟩
    | _ => .ok (.placeholder (String.ofList ('$' :: tag)), cursor)

/-- The operators and marks whose reading needs no more than the longest match,
longest first. -/
def marks : List String := [
  "!~~*", "!~~", "!~*", "~~*", "||/", "<=>", "->>", "#>>",
  "!=", "!!", "!~", "<=", "<>", "<<", "<@", ">=", ">>", "::", ":=", "&&", "^@",
  "~*", "~~", "||", "|/", "==", "=>", "->", "//", "#-", "#>", "@>", "@?",
  "(", ")", ",", "-", "/", "+", "*", "%", "|", "=", "!", "<", ">", ":", ";", "\\",
  "[", "]", "&", "^", "\x7b", "\x7d", "~"]

/-- The first of the marks that the text starts with. -/
def mark? (text : List Char) : Option String :=
  marks.find? fun mark => (dropExact? mark.toList text).isSome

/-- Inequality has two spellings and one token. -/
def markToken (mark : String) : Token :=
  .symbol (if mark = "!=" then "<>" else mark)

/-- The token that starts with a mark, or any other single character. -/
def markOrCharacter (c : Char) (rest : List Char) (place : Location) : Step :=
  match mark? (c :: rest) with
  | some mark => .ok (markToken mark, skip mark.length (c :: rest) place)
  | none => .ok (.symbol c.toString, ⟨rest, place.step c⟩)

/-- What starts with a number sign: an operator or a word. -/
def afterNumberSign (rest : List Char) (place : Location) : Step :=
  match rest with
  | [] | '-' :: _ | '>' :: _ | ' ' :: _ => markOrCharacter '#' rest place
  | d :: tail => bareWord ['#', d] tail ((place.step '#').step d)

/-- What starts with an at sign: an operator or a word. -/
def afterAtSign (rest : List Char) (place : Location) : Step :=
  let behind := place.step '@'
  match rest with
  | '@' :: [] | '@' :: ' ' :: _ =>
    .ok (.symbol "@@", ⟨rest.drop 1, behind.step '@'⟩)
  | '@' :: d :: tail => bareWord ['@', '@', d] tail ((behind.step '@').step d)
  | [] | ' ' :: _ | '\'' :: _ | '"' :: _ | '`' :: _ => .ok (.symbol "@", ⟨rest, behind⟩)
  | '>' :: _ | '?' :: _ => markOrCharacter '@' rest place
  | d :: tail => bareWord ['@', d] tail (behind.step d)

/-- A word, or a text constant introduced by a letter. -/
def wordOrConstant (c : Char) (rest : List Char) (place : Location) : Step :=
  let behind := place.step c
  match c.toLower, rest with
  | 'b', '\'' :: tail =>
    constant (.bytes '\'') behind (untilQuote '\'' tail (behind.step '\''))
  | 'b', '"' :: tail =>
    constant (.bytes '"') behind (untilQuote '"' tail (behind.step '"'))
  | 'r', '\'' :: _ => rawConstant '\'' rest behind
  | 'r', '"' :: _ => rawConstant '"' rest behind
  | 'n', '\'' :: tail =>
    constant .national behind (untilQuote '\'' tail (behind.step '\''))
  | 'e', '\'' :: tail =>
    match escapedText (tail.length + 1) tail (behind.step '\'') with
    | some (value, cursor) => .ok (.quoted .escaped (String.ofList value), cursor)
    | none => .error ⟨"Unterminated encoded string literal", place⟩
  | 'u', '&' :: '\'' :: tail =>
    match unicodeText (tail.length + 1) tail ((behind.step '&').step '\'') with
    | .ok (value, cursor) => .ok (.quoted .unicode (String.ofList value), cursor)
    | .error issue => .error issue
  | 'x', '\'' :: tail =>
    constant .hexadecimal behind (untilQuoteEscaped '\'' tail (behind.step '\''))
  | _, _ => bareWord [c] rest behind

/-- The token at the first character of a non-empty text. -/
def next (before : Option Token) (c : Char) (rest : List Char) (place : Location) : Step :=
  let behind := place.step c
  match c with
  | ' ' | '\t' | '\n' => .ok (.blank c.toString, ⟨rest, behind⟩)
  | '\r' =>
    match rest with
    | '\n' :: tail => .ok (.blank "\r\n", ⟨tail, behind.step '\n'⟩)
    | _ => .ok (.blank "\r", ⟨rest, behind⟩)
  | '\'' => constant .plain place (untilQuote '\'' rest behind)
  | '"' | '`' =>
    match untilQuote c rest behind with
    | some (value, cursor) => .ok (.word ⟨String.ofList value, some c⟩, cursor)
    | none =>
      .error ⟨"Expected close delimiter '" ++ c.toString ++ "' before EOF.", place⟩
  | '-' =>
    match rest with
    | '-' :: _ =>
      let (front, cursor) := run (· != '\n') rest behind
      let after := skip 1 cursor.rest cursor.place
      .ok (.blank (String.ofList (c :: front ++ cursor.rest.take 1)), after)
    | _ => markOrCharacter c rest place
  | '/' =>
    match rest with
    | '*' :: tail =>
      match blockComment 1 tail (behind.step '*') with
      | .ok (text, cursor) => .ok (.blank (String.ofList ('/' :: '*' :: text)), cursor)
      | .error stop => .error ⟨"Unexpected EOF while in a multi-line comment", stop⟩
    | _ => markOrCharacter c rest place
  | '#' => afterNumberSign rest place
  | '@' => afterAtSign rest place
  | '?' =>
    let (digits, cursor) := run isNumber rest behind
    .ok (.placeholder (String.ofList ('?' :: digits)), cursor)
  | '$' => afterDollar rest behind
  | _ =>
    if c.isDigit || c == '.' then numberOrPoint before c rest place
    else if isWordStart c then wordOrConstant c rest place
    else if isBlank c then .ok (.blank c.toString, ⟨rest, behind⟩)
    else markOrCharacter c rest place

/-- All tokens of a text, blanks included.  The fuel bounds their number. -/
def scan : Nat → Option Token → List Char → Location → Except LexicalError (List Placed)
  | 0, _, _, _ | _, _, [], _ => .ok []
  | fuel + 1, before, c :: rest, place => do
    let (token, cursor) ← next before c rest place
    let more ← scan fuel (some token) cursor.rest cursor.place
    return ⟨token, place⟩ :: more

end Lexer

/-- All tokens of a text in order, blanks and comments included. -/
def tokenize (text : String) : Except LexicalError (List Placed) :=
  Lexer.scan text.toList.length none text.toList Location.start

/-- The tokens of a text that have a meaning. -/
def significantTokens (text : String) : Except LexicalError (List Placed) :=
  (tokenize text).map fun tokens => tokens.filter fun placed => !placed.token.isBlank

end Relocate.Sql
