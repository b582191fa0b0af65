/-!
# Identifiers

An identifier is its characters together with the quote it is written in, if
any.  A name is a list of identifiers, written with dots between them.

A quote inside a quoted identifier is written twice, unless it already is, or
follows a backslash: `escapeQuotes` leaves those as they are.
-/

namespace Relocate.Sql

/-- A quoted text with each quote doubled that is neither doubled already nor
preceded by a backslash.  The second argument is the character before. -/
def escapeQuotes (quote : Char) : Char → List Char → List Char
  | _, [] => []
  | before, c :: rest =>
    if c = quote then
      if before = '\\' then c :: escapeQuotes quote before rest
      else
        match rest with
        | [] => [c, c]
        | d :: tail =>
          if d = quote then c :: d :: escapeQuotes quote c tail
          else c :: c :: escapeQuotes quote c (d :: tail)
    else c :: escapeQuotes quote c rest

/-- The text between two quotes, escaped. -/
def inQuotes (quote : Char) (text : String) : String :=
  let mark := quote.toString
  mark ++ String.ofList (escapeQuotes quote '\x00' text.toList) ++ mark

/-- An identifier and the quote it is written in. -/
structure Ident where
  value : String
  quote : Option Char
deriving DecidableEq, Repr, Inhabited

/-- An identifier written without quotes. -/
def Ident.bare (value : String) : Ident :=
  ⟨value, none⟩

/-- The identifier as it is written in a statement. -/
def Ident.render (ident : Ident) : String :=
  match ident.quote with
  | none => ident.value
  | some quote => inQuotes quote ident.value

/-- A possibly qualified name. -/
abbrev Name := List Ident

/-- The name as it is written in a statement. -/
def Name.render (name : Name) : String :=
  ".".intercalate (name.map Ident.render)

/-- The characters of the name, without quotes, for messages. -/
def Name.dotted (name : Name) : String :=
  ".".intercalate (name.map Ident.value)

end Relocate.Sql
