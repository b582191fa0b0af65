import Relocate.Catalog.Path
import Relocate.Log
import Relocate.Sql.Failure

/-!
# Reports on failed views

A view that fails is left out of the result; what is known about it goes into a
report.
-/

namespace Relocate

open Catalog

/-- A view that failed, with its text as it stands in the catalog. -/
structure ViewFailure where
  view : Path
  failure : Sql.Failure
  sql : String
deriving DecidableEq, Repr

namespace ViewFailure

/-- The report. -/
def report (failed : ViewFailure) : String :=
  let line := (failed.failure.line.map toString).getD "unknown"
  "View:\n" ++ failed.view.dotted ++ "\n\n-----\n" ++
    "Message:\n" ++ failed.failure.message ++ "\n\n-----\n" ++
    "Line:\n" ++ line ++ "\n\n" ++
    "\n--------------------\n" ++
    String.join (failed.failure.causes.map fun cause => cause ++ "\n")

/-- What there is to tell about the failure. -/
def entry (failed : ViewFailure) : Entry :=
  ⟨.error, "Dropping view " ++ failed.view.dotted ++ ": " ++ failed.failure.describe⟩

end ViewFailure

end Relocate
