import Relocate.Log
import Relocate.Sql.Names
import Relocate.Text.Fold
import Relocate.Text.Letter

/-!
# Quoting of identifiers

Whether an identifier is written in quotes is decided by its characters alone,
so quoting twice is the same as quoting once.  Plain words made of letters and
numbers stay bare unless the engine reserves them; all others are quoted.
-/

namespace Relocate.Sql

open Text

/-- Words that the engine reserves. -/
def alwaysQuoted : List String :=
  ["default", "key", "index", "join", "from", "both", "order"]

/-- The identifier has to be written in quotes.  The word `day` is left bare even
as a column, because it is also a unit of time and units must not be quoted. -/
def needsQuoting (word : String) : Bool :=
  if word = "day" then false
  else if alwaysQuoted.any (sameFold word) then true
  else
    match word.toList with
    | [] => true
    | first :: rest => isNumber first || !(first :: rest).all isLetterOrNumber

/-- What the decision on a word has to tell. -/
def quotingLog (word : String) : List Entry :=
  if word = "day" then
    [⟨.warn, "Identifier 'day' is left unquoted because it doubles as a TIMESTAMPDIFF unit; " ++
      "rename the column if it is not meant as a unit"⟩]
  else []

/-- The identifier with the quotes that it needs. -/
def Ident.quoted (ident : Ident) : Ident :=
  ⟨ident.value, if needsQuoting ident.value then some '"' else none⟩

/-- The renaming that quotes tables, columns and aliases. -/
def Renaming.quoting : Renaming where
  relation := fun _ name => name.map Ident.quoted
  column := Ident.quoted
  path := fun _ name => name.map Ident.quoted
  allOf := fun _ name => name
  label := Ident.quoted

/-- The statement with its tables, columns and aliases quoted as they need. -/
def Statement.applyQuoting (statement : Statement) : Statement :=
  statement.rename .quoting []

/-- What the quoting at a site has to tell. -/
def Site.quotingLog (site : Site) : List Entry :=
  match site.role with
  | .allOf => []
  | _ => site.name.flatMap fun ident => Sql.quotingLog ident.value

/-- What the quoting of a statement has to tell. -/
def Statement.quotingLog (statement : Statement) : List Entry :=
  (statement.sites []).flatMap Site.quotingLog

theorem Ident.quoted_value (ident : Ident) : ident.quoted.value = ident.value :=
  rfl

theorem Ident.quoted_quoted (ident : Ident) : ident.quoted.quoted = ident.quoted :=
  rfl

end Relocate.Sql
