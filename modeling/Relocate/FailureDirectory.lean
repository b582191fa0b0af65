import Relocate.Error
import Relocate.Files.Host
import Relocate.Report

/-!
# Failed views in files

The report on the n-th failed view and its text go into `error_n.txt` and
`error_n.sql` in a directory that is made for the first one.
-/

namespace Relocate

open Files

/-- A directory for failed views and the number of views recorded so far. -/
structure FailureDirectory where
  directory : String
  count : Nat
deriving DecidableEq, Repr

namespace FailureDirectory

variable {m : Type → Type} [Monad m] [Host m]

/-- The name of the report with a number. -/
def reportName (directory : String) (number : Nat) : String :=
  inDirectory directory ("error_" ++ toString number ++ ".txt")

/-- The name of the text with a number. -/
def sqlName (directory : String) (number : Nat) : String :=
  inDirectory directory ("error_" ++ toString number ++ ".sql")

/-- The outcome of an operation on a file of the directory. -/
def orFail (name : String) (outcome : Except Refusal Unit) : Except Error Unit :=
  outcome.mapError fun refusal => .failureWrite name refusal.words

/-- Writes the report and the text of a failed view. -/
def writePair (directory : String) (number : Nat) (failed : ViewFailure) :
    ExceptT Error m Unit := do
  let report := reportName directory number
  let sql := sqlName directory number
  ExceptT.mk ((orFail report) <$> (Host.write report failed.report : m (Except Refusal Unit)))
  ExceptT.mk ((orFail sql) <$> (Host.write sql failed.sql : m (Except Refusal Unit)))
  (say .debug ("Wrote " ++ report ++ " and " ++ sql) : m Unit)

/-- Records a failed view. -/
def record (target : FailureDirectory) (failed : ViewFailure) :
    ExceptT Error m FailureDirectory := do
  (Host.tell failed.entry : m Unit)
  if target.count = 0 then
    ExceptT.mk ((orFail target.directory) <$>
      (makeDirectories target.directory : m (Except Refusal Unit)))
  writePair target.directory (target.count + 1) failed
  return { target with count := target.count + 1 }

end FailureDirectory

end Relocate
