import Relocate.Config
import Relocate.FailureDirectory

/-!
# A run

A run reads a configuration, loads a catalog, migrates it and saves it.  The
failed views go into a directory next to the result.
-/

namespace Relocate

open Files

namespace Run

variable {m : Type → Type} [Monad m] [Host m]

/-- Carries out the events of a migration: tells the entries and records the
failed views. -/
def carryOut : List Event → FailureDirectory → ExceptT Error m FailureDirectory
  | [], target => return target
  | .told entry :: rest, target => do
    (Host.tell entry : m Unit)
    carryOut rest target
  | .failed failure :: rest, target => do
    let target ← target.record failure
    carryOut rest target

/-- Migrates a catalog and records its failed views. -/
def migrateInto (ids : Nat → String) (plan : Plan) (catalog : Catalog)
    (target : FailureDirectory) : ExceptT Error m (Catalog × Summary × FailureDirectory) := do
  let outcome := migrate ids plan catalog
  let target ← carryOut outcome.events target
  match outcome.result with
  | .ok (catalog, summary) => return (catalog, summary, target)
  | .error error => throw error

/-- A whole run with the configuration in a file. -/
def run (ids : Nat → String) (configName : String) : ExceptT Error m Summary := do
  (say .info ("Reading configuration: " ++ configName) : m Unit)
  let config ← Config.load configName
  match config.source, config.destination, config.errorDirectory with
  | some source, some destination, some directory =>
    let catalog ← Store.load source
    let (catalog, summary, target) ← migrateInto ids config.plan catalog ⟨directory, 0⟩
    if 0 < target.count then
      (say .info (toString target.count ++ " failed views written to " ++ target.directory) :
        m Unit)
    Store.save catalog destination
    return summary
  | _, _, _ => throw (.invalidConfig "source and destination locations are required")

/-- The last words of a successful run. -/
def summaryLog (summary : Summary) : List Entry :=
  [⟨.info, "Migration finished: " ++ toString summary.viewsWritten ++ " views written, " ++
      toString summary.parseFailures ++ " parse failures, " ++
      toString summary.formatFailures ++ " format failures"⟩,
    ⟨.info, toString summary.referencesRewritten ++ " references rewritten, " ++
      toString summary.unrecognizedShapes ++ " unrecognized clause shapes, " ++
      toString summary.entitiesDropped ++ " entities dropped, " ++
      toString summary.foldersSynthesized ++ " folders synthesized"⟩]

end Run

end Relocate
