import Relocate.Sql.Layout
import Relocate.Sql.Parse
import Relocate.Sql.Quoting
import Relocate.Sql.Render

/-!
# Writing the statement of a view

A statement is quoted, written on one line and laid out.  The text is accepted
only if a single statement can be read back from it.
-/

namespace Relocate.Sql

/-- The text of a quoted statement, checked by reading it back. -/
def Statement.writeQuoted (statement : Statement) : Except Failure String := do
  let text ← reindent statement.render
  match parseSingle .format text with
  | .ok _ => return text
  | .error issue =>
    throw ((Failure.ofMessage .format "Formatted SQL does not parse back").withCause
      issue.message)

/-- The text of a statement. -/
def Statement.format (statement : Statement) : Except Failure String :=
  statement.applyQuoting.writeQuoted

end Relocate.Sql
