import Relocate.Catalog.Path

/-!
# Errors that end a run

Files that cannot be used, a configuration that says too little, and trees that
cannot be put together.  Failures of single views are no errors in this sense.
-/

namespace Relocate

open Catalog

/-- Why a run ends.  The causes are the words of the system or of the reader. -/
inductive Error
  | configRead (path cause : String)
  | configParse (path cause : String)
  | invalidConfig (message : String)
  | catalogRead (path cause : String)
  | catalogParse (path cause : String)
  | catalogWrite (path cause : String)
  | failureWrite (path cause : String)
  | missingSpace (space : String) (entity : Path)
  | rootLevel (path : Path)
  | pathCollision (path : Path) (first second : String)
deriving DecidableEq, Repr

namespace Error

/-- The message of the error. -/
def describe : Error → String
  | configRead path _ => "Failed to read migration config: " ++ path
  | configParse path _ => "Failed to parse migration config: " ++ path
  | invalidConfig message => "Invalid migration config: " ++ message
  | catalogRead path _ => "Failed to read catalog: " ++ path
  | catalogParse path _ => "Failed to parse catalog: " ++ path
  | catalogWrite path _ => "Failed to write catalog: " ++ path
  | failureWrite path _ => "Failed to write error file: " ++ path
  | missingSpace space entity =>
    "Space not found: " ++ space ++ " (required by " ++ entity.dotted ++ ")"
  | rootLevel path => "Entity has no parent container: " ++ path.dotted
  | pathCollision path first second =>
    "Views " ++ first ++ " and " ++ second ++ " were both moved to " ++ path.dotted

/-- What caused the error, when something else did. -/
def cause? : Error → Option String
  | configRead _ cause | configParse _ cause | catalogRead _ cause | catalogParse _ cause
  | catalogWrite _ cause | failureWrite _ cause => some cause
  | _ => none

end Error

end Relocate
