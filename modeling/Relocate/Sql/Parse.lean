import Relocate.Sql.Comments
import Relocate.Sql.Failure
import Relocate.Sql.Parser.Statement

/-!
# The statement of a view

The text of a view holds exactly one statement, after its comments have been
normalized.
-/

namespace Relocate.Sql

/-- The only statement of a text. -/
def parseSingle (stage : Stage) (sql : String) : Except Failure Statement :=
  match Statement.parseAll sql with
  | .error issue => .error (.ofMessage stage issue.describe)
  | .ok [] => .error (.ofMessage stage "SQL contains no statement")
  | .ok [statement] => .ok statement
  | .ok statements =>
    .error (.ofMessage stage ("SQL contains " ++ toString statements.length ++
      " statements, expected exactly one"))

/-- The statement in the text of a view. -/
def parseView (sql : String) : Except Failure Statement :=
  parseSingle .parse (normalizeComments sql)

end Relocate.Sql
