import Relocate.Sql.Parser.Basic

/-!
# Data types

A type is kept as the text that it is written as: known names in upper case,
lengths without spaces.  Its kind is kept beside the text, since a type in
front of a text constant makes a typed constant unless it is `INTERVAL` or a
name that the grammar does not know.
-/

namespace Relocate.Sql

/-- What a type is, as far as reading depends on it. -/
inductive TypeKind
  | known
  | interval
  | custom
deriving DecidableEq, Repr

/-- A data type as it is written. -/
structure DataType where
  kind : TypeKind
  text : String
deriving DecidableEq, Repr

namespace DataType

open Relocate.Sql.Parser Text

/-- A type that the grammar knows. -/
def named (text : String) : DataType :=
  ⟨.known, text⟩

/-- The largest number that counts and lengths can have. -/
def maxCount : Nat :=
  UInt64.size - 1

/-- The decimal number that the digits of a token denote, as a count. -/
def count? (digits : String) : Option Nat :=
  let chars := digits.toList
  if !chars.isEmpty && chars.all Char.isDigit then
    some (chars.foldl (fun value c => value * 10 + (c.toNat - '0'.toNat)) 0)
  else none

/-- The message for a number that is no count. -/
def countMessage (digits reason : String) : String :=
  "Could not parse '" ++ digits ++ "' as u64: " ++ reason

/-- Reads a count. -/
def count : Parser Nat :=
  fun rest =>
    match rest with
    | ⟨⟨.number digits _, place⟩, _⟩ :: tail =>
      match count? digits with
      | none =>
        .error (.failed (countMessage digits "invalid digit found in string") (some place))
      | some value =>
        if value ≤ maxCount then .ok (value, tail)
        else
          .error (.failed
            (countMessage digits "number too large to fit in target type") (some place))
    | _ => expected "literal int" rest

/-- A length in parentheses, when there is one. -/
def length? : Parser String := do
  if ← symbol? "(" then
    let value ← count
    symbol ")"
    return "(" ++ toString value ++ ")"
  else return ""

/-- A precision with or without a scale in parentheses, when there is one. -/
def precision? : Parser String := do
  if ← symbol? "(" then
    let precision ← count
    let scale ← if ← symbol? "," then (fun n => "," ++ toString n) <$> count else pure ""
    symbol ")"
    return "(" ++ toString precision ++ scale ++ ")"
  else return ""

/-- A length in characters, when there is one. -/
def characterLength? : Parser String := do
  if ← symbol? "(" then
    if ← keyword? "MAX" then
      symbol ")"
      return "(MAX)"
    let value ← count
    let unit ← oneOf? ["CHARACTERS", "OCTETS"]
    symbol ")"
    return "(" ++ toString value ++ (unit.map (" " ++ ·)).getD "" ++ ")"
  else return ""

/-- The words that say whether a time has a zone. -/
def zone? : Parser String := do
  if ← keywords? ["WITH", "TIME", "ZONE"] then return " WITH TIME ZONE"
  if ← keywords? ["WITHOUT", "TIME", "ZONE"] then return " WITHOUT TIME ZONE"
  return ""

/-- What is written in parentheses after the name of an unknown type. -/
def modifiers : Nat → Parser (List String)
  | 0 => expected "type modifiers"
  | fuel + 1 =>
    fun rest =>
      match rest with
      | ⟨⟨.word ident, _⟩, _⟩ :: tail => ((ident.render :: ·) <$> modifiers fuel) tail
      | ⟨⟨.number digits _, _⟩, _⟩ :: tail => ((digits :: ·) <$> modifiers fuel) tail
      | ⟨⟨.quoted .plain value, _⟩, _⟩ :: tail => ((value :: ·) <$> modifiers fuel) tail
      | ⟨⟨.symbol ",", _⟩, _⟩ :: tail => modifiers fuel tail
      | ⟨⟨.symbol ")", _⟩, _⟩ :: tail => .ok ([], tail)
      | _ => expected "type modifiers" rest

/-- A type whose name the grammar does not know. -/
def custom : Parser DataType := do
  let typeName ← name
  if ← symbol? "(" then
    let rest ← remaining
    let parts ← modifiers (rest.length + 1)
    return ⟨.custom, typeName.render ++ (if parts.isEmpty then "" else "(" ++ commaList parts ++ ")")⟩
  else return ⟨.custom, typeName.render⟩

/-- Types that are written as their name alone. -/
def plainNames : List String := [
  "BOOLEAN", "BOOL", "REAL", "FLOAT4", "FLOAT64", "FLOAT8", "INT64", "UUID", "DATE",
  "JSON", "JSONB", "REGCLASS", "TEXT", "TINYTEXT", "MEDIUMTEXT", "LONGTEXT", "TINYBLOB",
  "MEDIUMBLOB", "LONGBLOB", "BYTEA", "TRIGGER"]

/-- Types that are written in mixed case. -/
def mixedNames : List (String × String) := [
  ("FLOAT32", "Float32"), ("INT16", "Int16"), ("INT32", "Int32"), ("INT128", "Int128"),
  ("INT256", "Int256"), ("UINT8", "UInt8"), ("UINT16", "UInt16"), ("UINT32", "UInt32"),
  ("UINT64", "UInt64"), ("UINT128", "UInt128"), ("UINT256", "UInt256"),
  ("DATE32", "Date32")]

/-- Types with an optional length. -/
def lengthNames : List String := [
  "FLOAT", "CLOB", "BINARY", "VARBINARY", "BLOB", "BYTES", "VARBIT", "DATETIME",
  "STRING", "TIMESTAMPTZ", "TIMETZ"]

/-- Types with an optional length that may be unsigned. -/
def integerNames : List String := [
  "TINYINT", "INT2", "SMALLINT", "MEDIUMINT", "INT", "INT4", "INTEGER", "BIGINT", "INT8"]

/-- Types with an optional precision and scale. -/
def exactNames : List String := ["NUMERIC", "DECIMAL", "DEC", "BIGNUMERIC", "BIGDECIMAL"]

/-- A type with one word as its name, once that word has been read. -/
def afterWord (word : String) : Parser (Option DataType) := do
  if plainNames.contains word then return some (named word)
  if lengthNames.contains word then return some (named (word ++ (← length?)))
  if exactNames.contains word then return some (named (word ++ (← precision?)))
  if integerNames.contains word then
    let length ← length?
    let unsigned ← keyword? "UNSIGNED"
    return some (named (word ++ length ++ (if unsigned then " UNSIGNED" else "")))
  if let some text := mixedNames.lookup word then return some (named text)
  match word with
  | "VARCHAR" | "NVARCHAR" => return some (named (word ++ (← characterLength?)))
  | "CHARACTER" | "CHAR" =>
    if ← keyword? "VARYING" then
      return some (named (word ++ " VARYING" ++ (← characterLength?)))
    if ← keywords? ["LARGE", "OBJECT"] then
      return some (named (word ++ " LARGE OBJECT" ++ (← length?)))
    return some (named (word ++ (← characterLength?)))
  | "BIT" =>
    if ← keyword? "VARYING" then return some (named ("BIT VARYING" ++ (← length?)))
    return some (named ("BIT" ++ (← length?)))
  | "DOUBLE" =>
    if ← keyword? "PRECISION" then return some (named "DOUBLE PRECISION")
    return some (named ("DOUBLE" ++ (← precision?)))
  | "TIMESTAMP" | "TIME" =>
    let length ← length?
    return some (named (word ++ length ++ (← zone?)))
  | "INTERVAL" => return some ⟨.interval, "INTERVAL"⟩
  | _ => return none

/-- The angle bracket behind the parameters of a type.  Two brackets that are
one token close two types; the result says whether one bracket is left over. -/
def closeAngle (excess : Bool) : Parser Bool := do
  if excess then return false
  if ← symbol? ">" then return false
  if ← symbol? ">>" then return true
  expected ">"

/-- The sizes written behind the element type of an array. -/
def arraySuffix : Parser (Option String) := do
  if ← symbol? "[" then
    let size ← attempt count
    symbol "]"
    return some ("[" ++ (size.map toString).getD "" ++ "]")
  else return none

/-- A type and whether a closing angle bracket is left over.  The fuel bounds
the nesting. -/
def nested : Nat → Parser (DataType × Bool)
  | 0 => expected "a data type name"
  | fuel + 1 => do
    let (base, excess) ← base fuel
    if excess then return (base, excess)
    let sizes ← many arraySuffix
    if sizes.isEmpty then return (base, excess)
    return (named (base.text ++ String.join sizes), excess)
where
  /-- A type without array sizes. -/
  base (fuel : Nat) : Parser (DataType × Bool) := do
    let start ← remaining
    match start with
    | ⟨⟨.word _, _⟩, word⟩ :: _ =>
      advance
      match ← afterWord word with
      | some found => return (found, false)
      | none =>
        match word with
        | "ARRAY" =>
          symbol "<"
          let (element, excess) ← nested fuel
          let excess ← closeAngle excess
          return (named ("ARRAY<" ++ element.text ++ ">"), excess)
        | "STRUCT" =>
          if ← symbol? "<" then
            let (fields, excess) ← fieldsFrom fuel fuel
            let excess ← closeAngle excess
            return (named ("STRUCT<" ++ commaList fields ++ ">"), excess)
          else return (named "STRUCT", false)
        | "MAP" =>
          symbol "("
          let (key, _) ← nested fuel
          symbol ","
          let (value, _) ← nested fuel
          symbol ")"
          return (named ("Map(" ++ key.text ++ ", " ++ value.text ++ ")"), false)
        | _ =>
          resume start
          return (← custom, false)
    | _ => expected "a data type name"
  /-- The fields of a composite type. -/
  fieldsFrom (fuel : Nat) : Nat → Parser (List String × Bool)
    | 0 => expected "a data type name"
    | more + 1 => do
      let label ←
        match ← remaining with
        | ⟨⟨.word ident, _⟩, _⟩ :: ⟨⟨.word _, _⟩, _⟩ :: _ =>
          advance
          pure (ident.render ++ " ")
        | ⟨⟨.word ident, _⟩, _⟩ :: ⟨⟨.symbol ":", _⟩, _⟩ :: _ =>
          advance
          advance
          pure (ident.render ++ " ")
        | _ => pure ""
      let (type, excess) ← nested fuel
      let field := label ++ type.text
      if excess then return ([field], true)
      if ← symbol? "," then
        let (fields, excess) ← fieldsFrom fuel more
        return (field :: fields, excess)
      return ([field], false)

/-- Reads a data type. -/
def parser : Parser DataType := do
  let rest ← remaining
  let (type, excess) ← nested rest.length
  if excess then failHere ("unmatched > after parsing data type " ++ type.text)
  return type

end DataType

end Relocate.Sql
