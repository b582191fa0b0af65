import Relocate.Json.Value

/-!
# Reading JSON

A `Reader α` takes what remains of a text, with its place, and returns a value
and what remains behind it, or an issue with the place where it was found.
Columns count bytes and a line feed starts the next line at column zero.  An
issue is placed behind the last character that was read, or behind the one that
was looked at.

Nesting of values that are kept is bounded by a depth that every array and every
object uses up; values that are skipped may nest without bound.
-/

namespace Relocate.Json

/-- Why a text is not read. -/
structure Issue where
  message : String
  line : Nat
  column : Nat
deriving DecidableEq, Repr

/-- The message with the place. -/
def Issue.describe (issue : Issue) : String :=
  issue.message ++ " at line " ++ toString issue.line ++ " column " ++ toString issue.column

/-- The rest of a text and the place behind the last character that was read. -/
structure Cursor where
  rest : List Char
  line : Nat
  column : Nat
deriving Repr

namespace Cursor

/-- The start of a text. -/
def start (text : String) : Cursor :=
  ⟨text.toList, 1, 0⟩

/-- The cursor behind a character, with what remains behind it. -/
def behind (cursor : Cursor) (c : Char) (rest : List Char) : Cursor :=
  if c = '\n' then ⟨rest, cursor.line + 1, 0⟩
  else ⟨rest, cursor.line, cursor.column + c.utf8Size⟩

/-- An issue at the cursor. -/
def issue (cursor : Cursor) (message : String) : Issue :=
  ⟨message, cursor.line, cursor.column⟩

/-- An issue behind the next bytes, as far as there are any. -/
def issueBehind (message : String) : Nat → List Char → Cursor → Issue
  | 0, _, cursor | _, [], cursor => cursor.issue message
  | bytes, c :: rest, cursor =>
    if c.utf8Size ≤ bytes then
      issueBehind message (bytes - c.utf8Size) rest (cursor.behind c rest)
    else ⟨message, cursor.line, cursor.column + bytes⟩

end Cursor

/-- A reader of a value from the start of a text. -/
def Reader (α : Type) := Cursor → Except Issue (α × Cursor)

namespace Reader

variable {α β : Type}

instance : Monad Reader where
  pure value := fun cursor => .ok (value, cursor)
  bind first next := fun cursor =>
    match first cursor with
    | .ok (value, cursor) => next value cursor
    | .error issue => .error issue

/-- Fails with an issue. -/
def fail (issue : Issue) : Reader α :=
  fun _ => .error issue

/-- The cursor. -/
def cursor : Reader Cursor :=
  fun cursor => .ok (cursor, cursor)

/-- Fails behind the last character that was read. -/
def failHere (message : String) : Reader α :=
  fun cursor => .error (cursor.issue message)

/-- Fails behind the next bytes. -/
def failBehind (bytes : Nat) (message : String) : Reader α :=
  fun cursor => .error (Cursor.issueBehind message bytes cursor.rest cursor)

/-- Fails behind the character that was looked at. -/
def failAt (message : String) : Reader α :=
  failBehind 1 message

/-- The next character, which stays. -/
def peek? : Reader (Option Char) :=
  fun cursor => .ok (cursor.rest.head?, cursor)

/-- Drops the next character. -/
def advance : Reader Unit :=
  fun cursor =>
    match cursor.rest with
    | [] => .ok ((), cursor)
    | c :: rest => .ok ((), cursor.behind c rest)

/-- A blank of JSON. -/
def isBlank (c : Char) : Bool :=
  c == ' ' || c == '\n' || c == '\t' || c == '\r'

/-- The cursor behind the characters at the start that have a property. -/
def dropWhileFrom (p : Char → Bool) : List Char → Cursor → Cursor
  | [], cursor => cursor
  | c :: rest, cursor =>
    if p c then dropWhileFrom p rest (cursor.behind c rest) else cursor

/-- The next character behind any blanks. -/
def afterBlanks? : Reader (Option Char) :=
  fun cursor =>
    let cursor := dropWhileFrom isBlank cursor.rest cursor
    .ok (cursor.rest.head?, cursor)

/-- The characters at the start that have a property. -/
def takeWhile (p : Char → Bool) : Reader (List Char) :=
  fun cursor => .ok (cursor.rest.takeWhile p, dropWhileFrom p cursor.rest cursor)

/-- As much fuel as characters remain. -/
def fuel : Reader Nat :=
  fun cursor => .ok (cursor.rest.length, cursor)

/-- The rest of a word whose first letter has been read. -/
def wordEnd : List Char → Reader Unit
  | [] => pure ()
  | letter :: letters => do
    match ← peek? with
    | none => failHere "EOF while parsing a value"
    | some c =>
      if c = letter then
        advance
        wordEnd letters
      else failAt "expected ident"

/-! ## Texts -/

/-- The value of a hexadecimal digit. -/
def hexDigit? (c : Char) : Option Nat :=
  if c.isDigit then some (c.toNat - 48)
  else if 'a' ≤ c ∧ c ≤ 'f' then some (c.toNat - 87)
  else if 'A' ≤ c ∧ c ≤ 'F' then some (c.toNat - 55)
  else none

/-- The value of hexadecimal digits. -/
def hexValue? (digits : List Char) : Option Nat :=
  digits.foldlM (fun value c => (hexDigit? c).map (value * 16 + ·)) 0

/-- The number of bytes of characters. -/
def byteCount (text : List Char) : Nat :=
  text.foldl (fun count c => count + c.utf8Size) 0

/-- The code behind `\u`: four hexadecimal digits. -/
def codeUnit : Reader Nat := do
  let here ← cursor
  if byteCount (here.rest.take 4) < 4 then failBehind 4 "EOF while parsing a string"
  match hexValue? (here.rest.take 4) with
  | some value =>
    advance
    advance
    advance
    advance
    return value
  | none => failBehind 4 "invalid escape"

/-- The character that `\u` and a code stand for, possibly with a second code
behind it. -/
def unicodeEscape : Reader Char := do
  let first ← codeUnit
  if 0xDC00 ≤ first ∧ first ≤ 0xDFFF then failHere "lone leading surrogate in hex escape"
  else if first < 0xD800 ∨ 0xDBFF < first then return Char.ofNat first
  else
    secondMark '\\'
    secondMark 'u'
    let second ← codeUnit
    if second < 0xDC00 ∨ 0xDFFF < second then failHere "lone leading surrogate in hex escape"
    else return Char.ofNat ((first - 0xD800) * 0x400 + (second - 0xDC00) + 0x10000)
where
  /-- A character that has to stand between the two codes. -/
  secondMark (mark : Char) : Reader Unit := do
    match ← peek? with
    | none => failHere "EOF while parsing a string"
    | some c => if c = mark then advance else failAt "unexpected end of hex escape"

/-- The character that an escape stands for when it is a single letter. -/
def simpleEscape? (c : Char) : Option Char :=
  match c with
  | '"' => some '"'
  | '\\' => some '\\'
  | '/' => some '/'
  | 'b' => some '\x08'
  | 'f' => some '\x0C'
  | 'n' => some '\n'
  | 'r' => some '\r'
  | 't' => some '\t'
  | _ => none

/-- What an escape stands for, behind the backslash; `unicode` reads what follows
`\u`. -/
def escape (unicode : Reader Char) : Reader Char := do
  match ← peek? with
  | none => failHere "EOF while parsing a string"
  | some c =>
    match simpleEscape? c with
    | some value =>
      advance
      return value
    | none =>
      if c = 'u' then
        advance
        unicode
      else failAt "invalid escape"

/-- The message on a control character inside a text. -/
def controlMessage : String :=
  "control character (\\u0000-\\u001F) found while parsing a string"

/-- The characters up to the closing quote. -/
def textFrom : Nat → Reader (List Char)
  | 0 => failHere "EOF while parsing a string"
  | fuel + 1 => do
    match ← peek? with
    | none => failHere "EOF while parsing a string"
    | some '"' =>
      advance
      return []
    | some '\\' =>
      advance
      let c ← escape unicodeEscape
      return c :: (← textFrom fuel)
    | some c =>
      if c.toNat < 0x20 then failAt controlMessage
      else
        advance
        return c :: (← textFrom fuel)

/-- A text, behind the opening quote. -/
def text : Reader String := do
  return String.ofList (← textFrom ((← fuel) + 1))

/-- Skips the characters up to the closing quote. -/
def skipTextFrom : Nat → Reader Unit
  | 0 => failHere "EOF while parsing a string"
  | fuel + 1 => do
    match ← peek? with
    | none => failHere "EOF while parsing a string"
    | some '"' => advance
    | some '\\' =>
      advance
      let _ ← escape ((fun _ => 'u') <$> codeUnit)
      skipTextFrom fuel
    | some c =>
      if c.toNat < 0x20 then failHere controlMessage
      else
        advance
        skipTextFrom fuel

/-- Skips a text, behind the opening quote. -/
def skipText : Reader Unit := do
  skipTextFrom ((← fuel) + 1)

/-! ## Numbers -/

/-- The digits that come next. -/
def digits : Reader (List Nat) := do
  return (← takeWhile Char.isDigit).map fun c => c.toNat - 48

/-- The digits before the point; a zero stands alone. -/
def integerDigits (atEnd : String) : Reader (List Nat) := do
  match ← peek? with
  | none => failHere atEnd
  | some '0' =>
    advance
    match ← peek? with
    | some c => if c.isDigit then failAt "invalid number" else return [0]
    | none => return [0]
  | some c => if c.isDigit then digits else failAt "invalid number"

/-- The digits behind the point, when there is one. -/
def fraction? (atEnd : String) : Reader (Option (List Nat)) := do
  match ← peek? with
  | some '.' =>
    advance
    match ← digits with
    | [] =>
      match ← peek? with
      | none => failHere atEnd
      | some _ => failAt "invalid number"
    | found => return some found
  | _ => return none

/-- The sign behind the mark of an exponent, when there is an exponent: whether
it is negative. -/
def exponentSign? : Reader (Option Bool) := do
  match ← peek? with
  | some 'e' | some 'E' =>
    advance
    match ← peek? with
    | some '+' =>
      advance
      return some false
    | some '-' =>
      advance
      return some true
    | _ => return some false
  | _ => return none

/-- The first digit of an exponent has to be there. -/
def requireDigit (atEnd : String) : Reader Unit := do
  match ← peek? with
  | none => failHere atEnd
  | some c => unless c.isDigit do failAt "invalid number"

/-- The largest integer that is kept. -/
def maxNatural : Nat := UInt64.size - 1

/-- The largest exponent that is counted. -/
def maxExponent : Nat := 1 <<< 31 - 1

/-- The digits that fit into an integer, and how many do not, from the digits
before the point. -/
def integerPart : Nat → List Nat → Nat × Nat
  | value, [] => (value, 0)
  | value, digit :: rest =>
    if value * 10 + digit ≤ maxNatural then integerPart (value * 10 + digit) rest
    else (value, rest.length + 1)

/-- The digits that fit into an integer, and how many of them stand behind the
point. -/
def fractionPart : Nat → List Nat → Nat × Nat
  | value, [] => (value, 0)
  | value, digit :: rest =>
    if value * 10 + digit ≤ maxNatural then
      let (value, count) := fractionPart (value * 10 + digit) rest
      (value, count + 1)
    else (value, 0)

/-- The digits of an exponent; `none` when it is too large to be counted.  A
large positive exponent of a number other than zero is an issue at once. -/
def exponentValue (isZero isNegative : Bool) : Nat → Nat → Reader (Option Nat)
  | 0, value => return some value
  | fuel + 1, value => do
    match ← peek? with
    | some c =>
      if c.isDigit then
        advance
        let next := value * 10 + (c.toNat - 48)
        if next ≤ maxExponent then exponentValue isZero isNegative fuel next
        else if !isZero && !isNegative then failHere "number out of range"
        else
          let _ ← digits
          return none
      else return some value
    | none => return some value

/-- The number with these digits and this exponent. -/
def rounded (isNegative : Bool) (significand : Nat) (exponent : Int) : Reader Number := do
  match Double.ofDecimal? significand exponent with
  | some magnitude => return .float isNegative magnitude
  | none => failHere "number out of range"

/-- An integer without a point and an exponent. -/
def integer (isNegative : Bool) (value : Nat) : Number :=
  if isNegative then
    if value = 0 ∨ 1 <<< 63 < value then .float true (Double.ofNat value) else .negative value
  else .natural value

/-- A number behind its sign. -/
def number (isNegative : Bool) : Reader Number := do
  let atEnd := "EOF while parsing a value"
  let whole ← integerDigits atEnd
  let (significand, dropped) := integerPart 0 whole
  let behind ← fraction? atEnd
  let (significand, shift) := fractionPart significand (behind.getD [])
  let start : Int := (dropped : Int) - (shift : Int)
  match ← exponentSign? with
  | some negativeExponent =>
    requireDigit atEnd
    match ← exponentValue (significand = 0) negativeExponent (← fuel) 0 with
    | some value => rounded isNegative significand (if negativeExponent then start - value else start + value)
    | none => return .float isNegative Double.zero
  | none =>
    if behind.isNone ∧ dropped = 0 then return integer isNegative significand
    else rounded isNegative significand start

/-- Skips a number behind its sign. -/
def skipNumber : Reader Unit := do
  let atEnd := "invalid number"
  let _ ← integerDigits atEnd
  let _ ← fraction? atEnd
  match ← exponentSign? with
  | some _ =>
    requireDigit atEnd
    let _ ← digits
    return ()
  | none => return ()

/-! ## Values -/

/-- A value that is no array and no object, from its first character on. -/
def scalar? (c : Char) : Reader (Option Value) := do
  match c with
  | 'n' =>
    advance
    wordEnd ['u', 'l', 'l']
    return some .null
  | 't' =>
    advance
    wordEnd ['r', 'u', 'e']
    return some (.bool true)
  | 'f' =>
    advance
    wordEnd ['a', 'l', 's', 'e']
    return some (.bool false)
  | '-' =>
    advance
    return some (.number (← number true))
  | '"' =>
    advance
    return some (.text (← text))
  | _ => if c.isDigit then return some (.number (← number false)) else return none

/-- Another item of an array comes next; `first` says that none was read yet. -/
def nextItem? (first : Bool) : Reader Bool := do
  match ← afterBlanks? with
  | none => failHere "EOF while parsing a list"
  | some c =>
    if c = ']' then return false
    else if first then return true
    else if c = ',' then
      advance
      match ← afterBlanks? with
      | some c => if c = ']' then failAt "trailing comma" else return true
      | none => failHere "EOF while parsing a value"
    else failAt "expected `,` or `]`"

/-- The end of an array. -/
def arrayEnd : Reader Unit := do
  match ← afterBlanks? with
  | none => failHere "EOF while parsing a list"
  | some c =>
    if c = ']' then advance
    else if c = ',' then
      advance
      match ← afterBlanks? with
      | some c => failAt (if c = ']' then "trailing comma" else "trailing characters")
      | none => failHere "trailing characters"
    else failAt "trailing characters"

/-- The name of another member of an object, when one comes next, up to and with
its opening quote; `first` says that none was read yet. -/
def nextName? (first : Bool) : Reader Bool := do
  match ← afterBlanks? with
  | none => failHere "EOF while parsing an object"
  | some c =>
    if c = '}' then return false
    else if first then
      if c = '"' then
        advance
        return true
      else failAt "key must be a string"
    else if c = ',' then
      advance
      match ← afterBlanks? with
      | some '"' =>
        advance
        return true
      | some c => failAt (if c = '}' then "trailing comma" else "key must be a string")
      | none => failHere "EOF while parsing a value"
    else failAt "expected `,` or `\x7d`"

/-- The end of an object. -/
def objectEnd : Reader Unit := do
  match ← afterBlanks? with
  | none => failHere "EOF while parsing an object"
  | some c =>
    if c = '}' then advance
    else failAt (if c = ',' then "trailing comma" else "trailing characters")

/-- The colon between a name and its value. -/
def colon : Reader Unit := do
  match ← afterBlanks? with
  | none => failHere "EOF while parsing an object"
  | some c => if c = ':' then advance else failAt "expected `:`"

/-- The items of an array from the next one on; the fuel bounds their number. -/
def itemsFrom {α : Type} (item : Reader α) : Nat → Bool → Reader (List α)
  | 0, _ => return []
  | fuel + 1, first => do
    if ← nextItem? first then
      let value ← item
      return value :: (← itemsFrom item fuel false)
    else return []

/-- An array behind its bracket. -/
def array {α : Type} (item : Reader α) : Reader (List α) := do
  advance
  let items ← itemsFrom item ((← fuel) + 1) true
  arrayEnd
  return items

/-- The members of an object from the next one on; the fuel bounds their number. -/
def membersFrom (member : Reader Value) : Nat → Bool → Reader (List (String × Value))
  | 0, _ => return []
  | fuel + 1, first => do
    if ← nextName? first then
      let name ← text
      colon
      let value ← member
      return (name, value) :: (← membersFrom member fuel false)
    else return []

/-- A value; the depth bounds how deeply it may be nested. -/
def value : Nat → Reader Value
  | 0 => failAt "recursion limit exceeded"
  | depth + 1 => do
    match ← afterBlanks? with
    | none => failHere "EOF while parsing a value"
    | some c =>
      if c = '[' ∨ c = '{' then
        if depth = 0 then failAt "recursion limit exceeded"
        else if c = '[' then return .array (← array (value depth))
        else
          advance
          let members ← membersFrom (value depth) ((← fuel) + 1) true
          objectEnd
          return .object (sortMembers members)
      else
        match ← scalar? c with
        | some value => return value
        | none => failAt "expected value"

/-- How deeply a document may be nested, its root counted. -/
def maxDepth : Nat := 128

/-- Skips the items of an array behind the bracket or behind a comma. -/
def skipItems (skip : Reader Unit) : Nat → Reader Unit
  | 0 => return ()
  | fuel + 1 => do
    skip
    match ← afterBlanks? with
    | none => failHere "EOF while parsing a list"
    | some c =>
      if c = ',' then
        advance
        skipItems skip fuel
      else if c = ']' then advance
      else failAt "expected `,` or `]`"

/-- Skips the members of an object behind the brace or behind a comma. -/
def skipMembers (skip : Reader Unit) : Nat → Reader Unit
  | 0 => return ()
  | fuel + 1 => do
    match ← afterBlanks? with
    | none => failHere "EOF while parsing an object"
    | some c =>
      if c = '"' then
        advance
        skipText
        colon
        skip
        match ← afterBlanks? with
        | none => failHere "EOF while parsing an object"
        | some c =>
          if c = ',' then
            advance
            skipMembers skip fuel
          else if c = '}' then advance
          else failAt "expected `,` or `\x7d`"
      else failAt "key must be a string"

/-- Skips a value; the fuel bounds how deeply it is nested. -/
def skipValueFrom : Nat → Reader Unit
  | 0 => failHere "EOF while parsing a value"
  | fuel + 1 => do
    match ← afterBlanks? with
    | none => failHere "EOF while parsing a value"
    | some c =>
      match c with
      | 'n' =>
        advance
        wordEnd ['u', 'l', 'l']
      | 't' =>
        advance
        wordEnd ['r', 'u', 'e']
      | 'f' =>
        advance
        wordEnd ['a', 'l', 's', 'e']
      | '-' =>
        advance
        skipNumber
      | '"' =>
        advance
        skipText
      | '[' =>
        advance
        match ← afterBlanks? with
        | none => failHere "EOF while parsing a list"
        | some c =>
          if c = ']' then advance
          else skipItems (skipValueFrom fuel) ((← Reader.fuel) + 1)
      | '{' =>
        advance
        match ← afterBlanks? with
        | none => failHere "EOF while parsing an object"
        | some c =>
          if c = '}' then advance
          else skipMembers (skipValueFrom fuel) ((← Reader.fuel) + 1)
      | c => if c.isDigit then skipNumber else failAt "expected value"

/-- Skips a value. -/
def skipValue : Reader Unit := do
  skipValueFrom ((← fuel) + 1)

/-- A whole text with one value in it. -/
def document {α : Type} (reader : Reader α) (text : String) : Except Issue α := do
  let (value, cursor) ← reader (Cursor.start text)
  let (next, cursor) ← afterBlanks? cursor
  match next with
  | none => return value
  | some _ => throw (Cursor.issueBehind "trailing characters" 1 cursor.rest cursor)

end Reader

/-- The value in a text. -/
def parse (text : String) : Except Issue Value :=
  Reader.document (Reader.value Reader.maxDepth) text

end Relocate.Json
