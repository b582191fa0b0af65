import Relocate.Migrate.Apply
import Relocate.Migrate.Prune
import Relocate.Migrate.Reconcile
import Relocate.Report
import Relocate.Sql.Format

/-!
# Migration of a catalog

All views are parsed, the container rules are applied one after the other, the
tree is pruned and put together again, the source rules are applied, and the
views are written.  Views that fail on the way are left out.

The result is computed together with the events on the way, in order: what there
is to tell and the views that failed.  Who runs a migration carries the events
out and may stop in the middle when a failure cannot be recorded.
-/

namespace Relocate

open Catalog

/-- The rules of a migration. -/
structure Plan where
  containerRules : List Rule
  sourceRules : List Rule
deriving DecidableEq, Repr

/-- What a migration has done. -/
structure Summary where
  viewsParsed : Nat
  parseFailures : Nat
  formatFailures : Nat
  viewsWritten : Nat
  entitiesDropped : Nat
  foldersSynthesized : Nat
  referencesRewritten : Nat
  unrecognizedShapes : Nat
deriving DecidableEq, Repr

/-- What happens during a migration. -/
inductive Event
  | told (entry : Entry)
  | failed (failure : ViewFailure)
deriving DecidableEq, Repr

/-- What came of a migration. -/
structure Outcome where
  events : List Event
  result : Except Error (Catalog × Summary)

namespace Catalog.View

/-- The view with its statement parsed. -/
def parseQuery (view : View) : Except Sql.Failure View :=
  (Sql.parseView view.sql).map fun statement => { view with query := some statement }

/-- The view with its statement written; without a statement its text stays. -/
def writeQuery (view : View) : Except Sql.Failure View :=
  match view.query with
  | some statement => statement.format.map fun sql => { view with sql := sql, query := none }
  | none => .ok view

/-- What there is to tell about the writing of the statement. -/
def writeLog (view : View) : List Entry :=
  (view.query.map Sql.Statement.quotingLog).getD []

/-- The report on the view that failed. -/
def failed (view : View) (failure : Sql.Failure) : ViewFailure :=
  ⟨view.path, failure, view.sql⟩

end Catalog.View

/-- The views that can be parsed, with what happens. -/
def parseViews : List View → List View × List Event
  | [] => ([], [])
  | view :: rest =>
    let (kept, events) := parseViews rest
    let entry : Event := .told ⟨.debug, "Parsing SQL of view " ++ view.path.dotted⟩
    match view.parseQuery with
    | .ok parsed => (parsed :: kept, entry :: events)
    | .error failure => (kept, entry :: .failed (view.failed failure) :: events)

/-- The views that can be written, with what happens. -/
def writeViews : List View → List View × List Event
  | [] => ([], [])
  | view :: rest =>
    let (kept, events) := writeViews rest
    let told := view.writeLog.map Event.told
    match view.writeQuery with
    | .ok written => (written :: kept, told ++ events)
    | .error failure => (kept, told ++ .failed (view.failed failure) :: events)

/-- The catalog after rules, one after the other. -/
def applyRules (origin : String) (apply : Rule → Catalog → RuleResult) :
    List Rule → Catalog → RuleResult
  | [], catalog => ⟨catalog, .zero, []⟩
  | rule :: rest, catalog =>
    let first := apply rule catalog
    let more := applyRules origin apply rest first.catalog
    { catalog := more.catalog
      stats := first.stats + more.stats
      log := ⟨.info, origin ++ ": " ++ rule.describe⟩ :: first.log ++ more.log }

/-- A catalog after the container rules and the repair of its tree. -/
structure Restructured where
  result : Except Error (Catalog × Nat)
  dropped : Nat
  stats : Sql.RewriteStats
  log : List Entry

/-- Applies the container rules, prunes the tree and puts it together; without
rules the catalog stays as it is. -/
def restructure (ids : Nat → String) (rules : List Rule) (catalog : Catalog) : Restructured :=
  if rules.isEmpty then ⟨.ok (catalog, 0), 0, .zero, []⟩
  else
    let applied := applyRules View.containerOrigin Catalog.applyContainerRule rules catalog
    let pruned := applied.catalog.prune rules
    let reconciled := pruned.catalog.reconcile ids
    ⟨reconciled.result, pruned.dropped, applied.stats, applied.log ++ pruned.log ++ reconciled.log⟩

/-- Migrates a catalog. -/
def migrate (ids : Nat → String) (plan : Plan) (catalog : Catalog) : Outcome :=
  let catalog := catalog.retainMigratable
  let (parsed, parseEvents) := parseViews catalog.views
  let parseFailures := catalog.views.length - parsed.length
  let parseEntry : Entry := ⟨.info, "Parsed " ++ toString parsed.length ++ " views, " ++
    toString parseFailures ++ " failed"⟩
  let moved := restructure ids plan.containerRules { catalog with views := parsed }
  let events := parseEvents ++ .told parseEntry :: moved.log.map Event.told
  match moved.result with
  | .error error => ⟨events, .error error⟩
  | .ok (catalog, synthesized) =>
    let applied := applyRules View.sourceOrigin Catalog.applySourceRule plan.sourceRules catalog
    let (written, writeEvents) := writeViews applied.catalog.views
    let formatFailures := applied.catalog.views.length - written.length
    let writeEntry : Entry := ⟨.info, "Formatted " ++ toString written.length ++ " views, " ++
      toString formatFailures ++ " failed"⟩
    let stats := moved.stats + applied.stats
    { events := events ++ applied.log.map Event.told ++ writeEvents ++ [.told writeEntry]
      result := .ok ({ applied.catalog with views := written }.clearPhysical,
        { viewsParsed := parsed.length
          parseFailures := parseFailures
          formatFailures := formatFailures
          viewsWritten := written.length
          entitiesDropped := moved.dropped
          foldersSynthesized := synthesized
          referencesRewritten := stats.replaced
          unrecognizedShapes := stats.unrecognized }) }

end Relocate
