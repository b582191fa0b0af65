import Mathlib
import Relocate.Proofs.Migrate.Following
import Relocate.Proofs.Sql.BareWords

/-!
# What becomes of the views

A migration takes every view through its stages by itself: the view is parsed,
moved by the container rules, pruned or not, redirected by the source rules and
written.  `View.fate` says where that ends for one view.  Each stage treats its
list of views one by one and in order, so what a migration returns and records is
read off the fates of the input views: `migrate_accounts_for_views`.
-/

namespace Relocate

open Catalog

/-- The failed view of an event. -/
def Event.failure? : Event → Option ViewFailure
  | .told _ => none
  | .failed failure => some failure

/-- The failed views of events, in order. -/
def failures (events : List Event) : List ViewFailure :=
  events.filterMap Event.failure?

theorem failures_nil : failures [] = [] :=
  rfl

theorem failures_append (events more : List Event) :
    failures (events ++ more) = failures events ++ failures more :=
  List.filterMap_append

theorem failures_told (entries : List Entry) : failures (entries.map Event.told) = [] := by
  rw [failures, List.filterMap_map]
  exact List.filterMap_eq_nil_iff.mpr fun _ _ => rfl

/-- A view at this path stays when the tree is pruned, which container rules alone
bring about. -/
def Plan.keeps (plan : Plan) (path : Path) : Bool :=
  plan.containerRules.isEmpty || inDestinationScope plan.containerRules path

namespace Catalog

/-! ## Stages of failures -/

theorem stage_of_parseQuery
    {view : View} {failure : Sql.Failure} (h : view.parseQuery = .error failure) :
    failure.stage = .parse := by
  unfold View.parseQuery Sql.parseView Sql.parseSingle at h
  split at h <;> cases h <;> rfl

theorem stage_of_reindent {sql : String} {failure : Sql.Failure}
    (h : Sql.reindent sql = .error failure) : failure.stage = .format := by
  unfold Sql.reindent at h
  split at h
  · cases h
    rfl
  · cases h

theorem stage_of_writeQuery
    {view : View} {failure : Sql.Failure} (h : view.writeQuery = .error failure) :
    failure.stage = .format := by
  unfold View.writeQuery at h
  split at h
  · rename_i statement _
    unfold Sql.Statement.format Sql.Statement.writeQuoted at h
    cases hlayout : Sql.reindent statement.applyQuoting.render with
    | error issue =>
        rw [hlayout] at h
        cases h
        exact stage_of_reindent hlayout
    | ok text =>
        rw [hlayout] at h
        simp only [bind, Except.bind] at h
        split at h <;> cases h
        rfl
  · cases h

/-! ## Reading and writing one view -/

/-- A view that can be parsed is the same one with a statement. -/
theorem View.of_parseQuery {view parsed : View} (h : view.parseQuery = .ok parsed) :
    ∃ statement, parsed = { view with query := some statement } := by
  unfold parseQuery at h
  cases hparse : Sql.parseView view.sql with
  | error failure =>
      rw [hparse] at h
      cases h
  | ok statement =>
      rw [hparse] at h
      cases h
      exact ⟨statement, rfl⟩

/-- A view that can be written gets a text, and has no statement any more. -/
theorem View.of_writeQuery {view written : View} (h : view.writeQuery = .ok written) :
    ∃ sql, written = { view with sql := sql, query := none } := by
  unfold writeQuery at h
  split at h
  · rename_i statement _
    cases hformat : statement.format with
    | error failure =>
        rw [hformat] at h
        cases h
    | ok text =>
        rw [hformat] at h
        cases h
        exact ⟨text, rfl⟩
  · rename_i hnone
    cases h
    exact ⟨view.sql, by rw [← hnone]⟩

section

-- What a stage does with one view is known from the lemmas above; unfolding it
-- while stages are compared would run the parser.
attribute [local irreducible] View.parseQuery View.writeQuery View.writeLog

/-! ## Views keep their id and their text -/

/-- It is the same view, with the text that it had. -/
structure View.SameText (view after : View) : Prop where
  id : after.id = view.id
  sql : after.sql = view.sql

namespace View.SameText

theorem trans {view middle after : View} (hfirst : view.SameText middle)
    (hnext : middle.SameText after) : view.SameText after :=
  ⟨hnext.id.trans hfirst.id, hnext.sql.trans hfirst.sql⟩

theorem rewrite (rule : Rule) (origin : String) (view : View) :
    view.SameText (view.rewrite rule origin).view := by
  unfold View.rewrite
  split <;> exact ⟨rfl, rfl⟩

theorem applyContainerRule (rule : Rule) (view : View) :
    view.SameText (view.applyContainerRule rule).view := by
  cases hmoved : rule.moved? view.path with
  | none => simp [View.applyContainerRule, hmoved, View.SameText.mk]
  | some path =>
      simp only [View.applyContainerRule, hmoved]
      have hrewrite := rewrite rule containerOrigin { view with
        path := path, context := view.containerContext? rule <|> view.context }
      exact ⟨hrewrite.id, hrewrite.sql⟩

theorem applySourceRule (rule : Rule) (view : View) :
    view.SameText (view.applySourceRule rule).view := by
  have hrewrite := rewrite rule sourceOrigin { view with
    context := view.sourceContext? rule <|> view.context }
  exact ⟨hrewrite.id, hrewrite.sql⟩

theorem foldl {step : View → Rule → View}
    (hstep : ∀ view rule, View.SameText view (step view rule))
    (rules : List Rule) (view : View) : view.SameText (rules.foldl step view) := by
  induction rules generalizing view with
  | nil => exact ⟨rfl, rfl⟩
  | cons rule rest ih => exact (hstep view rule).trans (ih (step view rule))

theorem relocated (rules : List Rule) (view : View) : view.SameText (view.relocated rules) :=
  foldl (fun view rule => applyContainerRule rule view) rules view

end View.SameText

/-- The view after source rules, one after the other. -/
def View.redirected (rules : List Rule) (view : View) : View :=
  rules.foldl (fun view rule => (view.applySourceRule rule).view) view

theorem View.SameText.redirected (rules : List Rule) (view : View) :
    view.SameText (view.redirected rules) :=
  foldl (fun view rule => applySourceRule rule view) rules view

theorem View.path_applySourceRule (rule : Rule) (view : View) :
    (view.applySourceRule rule).view.path = view.path :=
  View.path_rewrite rule sourceOrigin _

theorem View.path_redirected (rules : List Rule) (view : View) :
    (view.redirected rules).path = view.path := by
  induction rules generalizing view with
  | nil => rfl
  | cons rule rest ih => exact (ih _).trans (View.path_applySourceRule rule view)

/-! ## The fate of one view -/

/-- What becomes of a view. -/
inductive Fate
  /-- It cannot be parsed. -/
  | unread (failure : ViewFailure)
  /-- It ends up outside all destinations. -/
  | pruned
  /-- It cannot be written. -/
  | unwritten (failure : ViewFailure)
  | kept (view : View)

namespace Fate

/-- The record of a view that cannot be parsed. -/
def unread? : Fate → Option ViewFailure
  | unread failure => some failure
  | _ => none

/-- The view is pruned. -/
def isPruned : Fate → Bool
  | pruned => true
  | _ => false

/-- The record of a view that cannot be written. -/
def unwritten? : Fate → Option ViewFailure
  | unwritten failure => some failure
  | _ => none

/-- The view as it is kept. -/
def kept? : Fate → Option View
  | kept view => some view
  | _ => none

theorem of_unread? {fate : Fate} {record : ViewFailure} (h : fate.unread? = some record) :
    fate = unread record := by
  cases fate <;> cases h
  rfl

theorem of_isPruned {fate : Fate} (h : fate.isPruned = true) : fate = pruned := by
  cases fate <;> cases h
  rfl

theorem of_unwritten? {fate : Fate} {record : ViewFailure}
    (h : fate.unwritten? = some record) : fate = unwritten record := by
  cases fate <;> cases h
  rfl

theorem of_kept? {fate : Fate} {written : View} (h : fate.kept? = some written) :
    fate = kept written := by
  cases fate <;> cases h
  rfl

end Fate

/-- What becomes of a view that is redirected and written. -/
def View.writtenFate (view : View) : Fate :=
  match view.writeQuery with
  | .ok written => .kept written
  | .error failure => .unwritten (view.failed failure)

/-- What becomes of a view in a migration. -/
def View.fate (plan : Plan) (view : View) : Fate :=
  match view.parseQuery with
  | .error failure => .unread (view.failed failure)
  | .ok parsed =>
    let moved := parsed.relocated plan.containerRules
    if plan.keeps moved.path then (moved.redirected plan.sourceRules).writtenFate else .pruned

/-! ## Lists of views through the stages -/

theorem failures_cons_told (entry : Entry) (events : List Event) :
    failures (.told entry :: events) = failures events :=
  rfl

theorem failures_cons_failed (failure : ViewFailure) (events : List Event) :
    failures (.failed failure :: events) = failure :: failures events :=
  rfl

theorem parseViews_cons (view : View) (rest : List View) :
    parseViews (view :: rest) =
      match view.parseQuery with
      | .ok parsed => (parsed :: (parseViews rest).1,
          .told ⟨.debug, "Parsing SQL of view " ++ view.path.dotted⟩ :: (parseViews rest).2)
      | .error failure => ((parseViews rest).1,
          .told ⟨.debug, "Parsing SQL of view " ++ view.path.dotted⟩ ::
            .failed (view.failed failure) :: (parseViews rest).2) := by
  rfl

theorem writeViews_cons (view : View) (rest : List View) :
    writeViews (view :: rest) =
      match view.writeQuery with
      | .ok written => (written :: (writeViews rest).1,
          view.writeLog.map Event.told ++ (writeViews rest).2)
      | .error failure => ((writeViews rest).1,
          view.writeLog.map Event.told ++
            .failed (view.failed failure) :: (writeViews rest).2) := by
  rfl

theorem parseViews_cons_ok
    {view parsed : View} (h : view.parseQuery = .ok parsed) (rest : List View) :
    (parseViews (view :: rest)).1 = parsed :: (parseViews rest).1 ∧
      failures (parseViews (view :: rest)).2 = failures (parseViews rest).2 := by
  simp only [parseViews_cons, h, failures_cons_told, and_self]

theorem parseViews_cons_error
    {view : View} {failure : Sql.Failure} (h : view.parseQuery = .error failure)
    (rest : List View) :
    (parseViews (view :: rest)).1 = (parseViews rest).1 ∧
      failures (parseViews (view :: rest)).2 =
        view.failed failure :: failures (parseViews rest).2 := by
  simp only [parseViews_cons, h, failures_cons_told, failures_cons_failed, and_self]

theorem writeViews_cons_ok
    {view written : View} (h : view.writeQuery = .ok written) (rest : List View) :
    (writeViews (view :: rest)).1 = written :: (writeViews rest).1 ∧
      failures (writeViews (view :: rest)).2 = failures (writeViews rest).2 := by
  simp only [writeViews_cons, h, failures_append, failures_told, List.nil_append, and_self]

theorem writeViews_cons_error
    {view : View} {failure : Sql.Failure} (h : view.writeQuery = .error failure)
    (rest : List View) :
    (writeViews (view :: rest)).1 = (writeViews rest).1 ∧
      failures (writeViews (view :: rest)).2 =
        view.failed failure :: failures (writeViews rest).2 := by
  simp only [writeViews_cons, h, failures_append, failures_told, failures_cons_failed,
    List.nil_append, and_self]

/-- Every view is parsed or recorded. -/
theorem length_parseViews (views : List View) :
    (parseViews views).1.length + (failures (parseViews views).2).length = views.length := by
  induction views with
  | nil => rfl
  | cons view rest ih =>
      cases hparse : view.parseQuery with
      | ok parsed =>
          obtain ⟨hkept, hfailures⟩ := parseViews_cons_ok hparse rest
          rw [hkept, hfailures, List.length_cons, List.length_cons]
          omega
      | error failure =>
          obtain ⟨hkept, hfailures⟩ := parseViews_cons_error hparse rest
          rw [hkept, hfailures, List.length_cons, List.length_cons]
          omega

/-- Every view is written or recorded. -/
theorem length_writeViews (views : List View) :
    (writeViews views).1.length + (failures (writeViews views).2).length = views.length := by
  induction views with
  | nil => rfl
  | cons view rest ih =>
      cases hwrite : view.writeQuery with
      | ok written =>
          obtain ⟨hkept, hfailures⟩ := writeViews_cons_ok hwrite rest
          rw [hkept, hfailures, List.length_cons, List.length_cons]
          omega
      | error failure =>
          obtain ⟨hkept, hfailures⟩ := writeViews_cons_error hwrite rest
          rw [hkept, hfailures, List.length_cons, List.length_cons]
          omega

/-- The records of the first stage are those of the views that end there. -/
theorem failures_parseViews (plan : Plan) (views : List View) :
    failures (parseViews views).2 = views.filterMap fun view => (view.fate plan).unread? := by
  induction views with
  | nil => rfl
  | cons view rest ih =>
      cases hparse : view.parseQuery with
      | ok parsed =>
          have hfate : (view.fate plan).unread? = none := by
            rw [View.fate, hparse]
            simp only
            split
            · unfold View.writtenFate
              split <;> rfl
            · rfl
          rw [(parseViews_cons_ok hparse rest).2, List.filterMap_cons, hfate, ih]
      | error failure =>
          have hfate : (view.fate plan).unread? = some (view.failed failure) := by
            rw [View.fate, hparse]
            rfl
          rw [(parseViews_cons_error hparse rest).2, List.filterMap_cons, hfate, ih]

/-- The last stage leaves each view to its fate. -/
theorem writeViews_eq_filterMap (views : List View) :
    (writeViews views).1 = views.filterMap (fun view => view.writtenFate.kept?) ∧
      failures (writeViews views).2 =
        views.filterMap fun view => view.writtenFate.unwritten? := by
  induction views with
  | nil => exact ⟨rfl, rfl⟩
  | cons view rest ih =>
      cases hwrite : view.writeQuery with
      | ok written =>
          have hfate : view.writtenFate = .kept written := by
            rw [View.writtenFate, hwrite]
          obtain ⟨hkept, hfailures⟩ := writeViews_cons_ok hwrite rest
          rw [hkept, hfailures, List.filterMap_cons, List.filterMap_cons, hfate, ih.1, ih.2]
          exact ⟨rfl, rfl⟩
      | error failure =>
          have hfate : view.writtenFate = .unwritten (view.failed failure) := by
            rw [View.writtenFate, hwrite]
          obtain ⟨hkept, hfailures⟩ := writeViews_cons_error hwrite rest
          rw [hkept, hfailures, List.filterMap_cons, List.filterMap_cons, hfate, ih.1, ih.2]
          exact ⟨rfl, rfl⟩

/-- What is read off the last stage is read off the fates of the input views, when
it does not concern views that end before. -/
theorem filterMap_fate
    {α : Type} (plan : Plan) {read : Fate → Option α}
    (hunread : ∀ failure, read (.unread failure) = none) (hpruned : read .pruned = none)
    (views : List View) :
    (((((parseViews views).1.map (View.relocated plan.containerRules)).filter fun view =>
      plan.keeps view.path).map (View.redirected plan.sourceRules)).filterMap fun view =>
        read view.writtenFate) = views.filterMap fun view => read (view.fate plan) := by
  induction views with
  | nil => rfl
  | cons view rest ih =>
      cases hparse : view.parseQuery with
      | ok parsed =>
          rw [(parseViews_cons_ok hparse rest).1, List.map_cons]
          by_cases hkeeps : plan.keeps (parsed.relocated plan.containerRules).path = true
          · have hfate : view.fate plan = ((parsed.relocated plan.containerRules).redirected
                plan.sourceRules).writtenFate := by
              simp only [View.fate, hparse, hkeeps, if_true]
            rw [List.filter_cons, if_pos hkeeps, List.map_cons, List.filterMap_cons,
              List.filterMap_cons, ih, hfate]
          · have hfate : read (view.fate plan) = none := by
              simp only [View.fate, hparse, hkeeps]
              exact hpruned
            rw [List.filter_cons, if_neg hkeeps, ih, List.filterMap_cons, hfate]
      | error failure =>
          have hfate : read (view.fate plan) = none := by
            rw [View.fate, hparse]
            exact hunread _
          rw [(parseViews_cons_error hparse rest).1, ih, List.filterMap_cons, hfate]

/-! ## The stages of a migration -/

theorem views_applySourceRules (origin : String) (rules : List Rule) (catalog : Catalog) :
    (applyRules origin Catalog.applySourceRule rules catalog).catalog.views =
      catalog.views.map (View.redirected rules) :=
  collection_applyRules Catalog.views (fun _ _ => List.map_map) origin rules catalog

/-- Without container rules nothing is done; otherwise the catalog is the one that
was put together after them. -/
theorem restructure_cases
    {ids : Nat → String} {rules : List Rule} {catalog moved : Catalog} {count : Nat}
    (h : (restructure ids rules catalog).result = .ok (moved, count)) :
    (rules = [] ∧ moved = catalog) ∨
    (rules ≠ [] ∧ (((applyRules View.containerOrigin Catalog.applyContainerRule rules
      catalog).catalog.prune rules).catalog.reconcile ids).result = .ok (moved, count)) := by
  unfold restructure at h
  by_cases hempty : rules.isEmpty = true
  · rw [if_pos hempty] at h
    cases h
    exact .inl ⟨List.isEmpty_iff.mp hempty, rfl⟩
  · rw [if_neg hempty] at h
    exact .inr ⟨fun heq => hempty (List.isEmpty_iff.mpr heq), h⟩

/-- Container rules with what follows them leave the relocated views that are not
pruned, in their old order. -/
theorem views_restructure
    {ids : Nat → String} {plan : Plan} {catalog moved : Catalog} {count : Nat}
    (h : (restructure ids plan.containerRules catalog).result = .ok (moved, count)) :
    moved.views = (catalog.views.map (View.relocated plan.containerRules)).filter fun view =>
      plan.keeps view.path := by
  unfold Plan.keeps
  rcases restructure_cases h with ⟨hempty, rfl⟩ | ⟨hrules, hmigrated⟩
  · rw [hempty]
    simp only [List.isEmpty_nil, Bool.true_or, List.filter_true]
    exact (List.map_id' _).symm
  · simp only [List.isEmpty_eq_false_iff.mpr hrules, Bool.false_or]
    exact views_migrated hmigrated

/-- The stages behind a migration that ends without an error. -/
theorem migrate_cases
    {ids : Nat → String} {plan : Plan} {catalog final : Catalog} {summary : Summary}
    (h : (migrate ids plan catalog).result = .ok (final, summary)) :
    ∃ (moved redirected : Catalog) (count : Nat),
      (restructure ids plan.containerRules
        { catalog.retainMigratable with views := (parseViews catalog.views).1 }).result =
          .ok (moved, count) ∧
      redirected =
        (applyRules View.sourceOrigin Catalog.applySourceRule plan.sourceRules moved).catalog ∧
      final = ({ redirected with views := (writeViews redirected.views).1 } :
        Catalog).clearPhysical ∧
      failures (migrate ids plan catalog).events =
        failures (parseViews catalog.views).2 ++ failures (writeViews redirected.views).2 ∧
      summary.viewsParsed = (parseViews catalog.views).1.length ∧
      summary.parseFailures = catalog.views.length - (parseViews catalog.views).1.length ∧
      summary.formatFailures = redirected.views.length - (writeViews redirected.views).1.length ∧
      summary.viewsWritten = (writeViews redirected.views).1.length := by
  have hviews : catalog.retainMigratable.views = catalog.views := rfl
  unfold migrate at h ⊢
  simp only [hviews] at h ⊢
  cases hmoved : (restructure ids plan.containerRules
      { catalog.retainMigratable with views := (parseViews catalog.views).1 }).result with
  | error error =>
      simp only [hmoved] at h
      cases h
  | ok result =>
      obtain ⟨moved, count⟩ := result
      simp only [hmoved] at h ⊢
      cases h
      refine ⟨moved, _, count, rfl, rfl, rfl, ?_, rfl, rfl, rfl, rfl⟩
      simp only [failures_append, failures_cons_told, failures_told, List.append_nil,
        List.append_assoc, List.nil_append, failures_nil]

/-! ## All views are accounted for -/

/-- The record names the stage, the path that the view had there, and its text. -/
structure View.RecordedAt (stage : Sql.Stage) (path : Path) (view : View)
    (record : ViewFailure) : Prop where
  stage_eq : record.failure.stage = stage
  path_eq : record.view = path
  sql_eq : record.sql = view.sql

/-- What each fate says about the view. -/
def Fate.Explains (plan : Plan) (view : View) : Fate → Prop
  | unread record => view.RecordedAt .parse view.path record
  | pruned => plan.keeps (view.relocated plan.containerRules).path = false
  | unwritten record => plan.keeps (view.relocated plan.containerRules).path = true ∧
      view.RecordedAt .format (view.relocated plan.containerRules).path record
  | kept written => plan.keeps (view.relocated plan.containerRules).path = true ∧
      written.id = view.id

theorem View.fate_explains (plan : Plan) (view : View) :
    (view.fate plan).Explains plan view := by
  cases hparse : view.parseQuery with
  | error failure =>
      simp only [View.fate, hparse]
      exact ⟨stage_of_parseQuery hparse, rfl, rfl⟩
  | ok parsed =>
      obtain ⟨statement, rfl⟩ := View.of_parseQuery hparse
      have hpath : (View.relocated plan.containerRules
          { view with query := some statement }).path =
            (view.relocated plan.containerRules).path := by
        rw [View.path_relocated, View.path_relocated]
      have hsame := (View.SameText.relocated plan.containerRules
        { view with query := some statement }).trans
          (View.SameText.redirected plan.sourceRules _)
      simp only [View.fate, hparse, hpath]
      by_cases hkeeps : plan.keeps (view.relocated plan.containerRules).path = true
      · rw [if_pos hkeeps, View.writtenFate]
        split
        · rename_i written hwrite
          obtain ⟨sql, rfl⟩ := View.of_writeQuery hwrite
          exact ⟨hkeeps, hsame.id⟩
        · rename_i failure hwrite
          exact ⟨hkeeps, stage_of_writeQuery hwrite, (View.path_redirected _ _).trans hpath,
            hsame.sql⟩
      · rw [if_neg hkeeps]
        exact Bool.eq_false_iff.mpr hkeeps

/-- What one view can be read for is read in the order of the views. -/
theorem forall₂_filterMap
    {α β : Type} (read : α → Option β) (items : List α) :
    List.Forall₂ (fun item value => read item = some value)
      (items.filter fun item => (read item).isSome) (items.filterMap read) := by
  induction items with
  | nil => exact List.Forall₂.nil
  | cons item rest ih =>
      cases hread : read item with
      | none => simpa [hread] using ih
      | some value =>
          simp only [List.filter_cons, List.filterMap_cons, hread, Option.isSome_some, if_true]
          exact List.Forall₂.cons hread ih

/-- The views with each of the four fates make up all views. -/
theorem perm_fates (plan : Plan) (views : List View) :
    List.Perm views
      ((views.filter fun view => (view.fate plan).unread?.isSome) ++
        ((views.filter fun view => (view.fate plan).isPruned) ++
        ((views.filter fun view => (view.fate plan).unwritten?.isSome) ++
        views.filter fun view => (view.fate plan).kept?.isSome))) := by
  induction views with
  | nil => exact List.Perm.refl _
  | cons view rest ih =>
      cases hfate : view.fate plan with
      | unread failure =>
          simp only [List.filter_cons, hfate, Fate.unread?, Fate.isPruned, Fate.unwritten?,
            Fate.kept?, Option.isSome_none, Option.isSome_some, if_true, List.cons_append]
          exact ih.cons view
      | pruned =>
          simp only [List.filter_cons, hfate, Fate.unread?, Fate.isPruned, Fate.unwritten?,
            Fate.kept?, Option.isSome_none, if_true, List.cons_append]
          exact (ih.cons view).trans List.perm_middle.symm
      | unwritten failure =>
          simp only [List.filter_cons, hfate, Fate.unread?, Fate.isPruned, Fate.unwritten?,
            Fate.kept?, Option.isSome_none, Option.isSome_some, if_true, List.cons_append]
          rw [← List.append_assoc] at ih ⊢
          exact (ih.cons view).trans List.perm_middle.symm
      | kept written =>
          simp only [List.filter_cons, hfate, Fate.unread?, Fate.isPruned, Fate.unwritten?,
            Fate.kept?, Option.isSome_none, Option.isSome_some, if_true]
          rw [← List.append_assoc, ← List.append_assoc] at ih ⊢
          exact (ih.cons view).trans List.perm_middle.symm

/-- How the views of a migration split: the lists are the views that cannot be
parsed, those that are pruned, those that cannot be written, and those that are
kept. -/
structure Accounted (plan : Plan) (views after : List View) (records : List ViewFailure)
    (unread pruned unwritten kept : List View) : Prop where
  /-- No view is lost and none is there twice. -/
  perm : List.Perm views (unread ++ (pruned ++ (unwritten ++ kept)))
  ordered : ∀ part ∈ [unread, pruned, unwritten, kept], part.Sublist views
  /-- The records are those of the first stage, with those of the last one behind. -/
  recorded : ∃ parsing formatting, records = parsing ++ formatting ∧
    List.Forall₂ (fun view => view.RecordedAt .parse view.path) unread parsing ∧
    List.Forall₂ (fun view => view.RecordedAt .format (view.relocated plan.containerRules).path)
      unwritten formatting
  outside : ∀ view ∈ pruned, plan.keeps (view.relocated plan.containerRules).path = false
  inside : ∀ view ∈ unwritten ++ kept,
    plan.keeps (view.relocated plan.containerRules).path = true
  same_ids : after.map View.id = kept.map View.id

theorem accounted_fates (plan : Plan) (views : List View) :
    Accounted plan views (views.filterMap fun view => (view.fate plan).kept?)
      (views.filterMap (fun view => (view.fate plan).unread?) ++
        views.filterMap fun view => (view.fate plan).unwritten?)
      (views.filter fun view => (view.fate plan).unread?.isSome)
      (views.filter fun view => (view.fate plan).isPruned)
      (views.filter fun view => (view.fate plan).unwritten?.isSome)
      (views.filter fun view => (view.fate plan).kept?.isSome) where
  perm := perm_fates plan views
  ordered := by
    intro part hpart
    simp only [List.mem_cons, List.not_mem_nil, or_false] at hpart
    rcases hpart with rfl | rfl | rfl | rfl <;> exact List.filter_sublist
  recorded := by
    refine ⟨_, _, rfl, (forall₂_filterMap _ views).imp ?_, (forall₂_filterMap _ views).imp ?_⟩
    · intro view record hread
      have hexplains := view.fate_explains plan
      rwa [Fate.of_unread? hread] at hexplains
    · intro view record hread
      have hexplains := view.fate_explains plan
      rw [Fate.of_unwritten? hread] at hexplains
      exact hexplains.2
  outside := by
    intro view hview
    have hexplains := view.fate_explains plan
    rwa [Fate.of_isPruned (List.mem_filter.mp hview).2] at hexplains
  inside := by
    intro view hview
    have hexplains := view.fate_explains plan
    rcases List.mem_append.mp hview with hunwritten | hkept
    · obtain ⟨record, hread⟩ := Option.isSome_iff_exists.mp (List.mem_filter.mp hunwritten).2
      rw [Fate.of_unwritten? hread] at hexplains
      exact hexplains.1
    · obtain ⟨written, hread⟩ := Option.isSome_iff_exists.mp (List.mem_filter.mp hkept).2
      rw [Fate.of_kept? hread] at hexplains
      exact hexplains.1
  same_ids := by
    have hsame : List.Forall₂ (fun view written => View.id view = written.id)
        (views.filter fun view => (view.fate plan).kept?.isSome)
        (views.filterMap fun view => (view.fate plan).kept?) := by
      refine (forall₂_filterMap _ views).imp ?_
      intro view written hread
      have hexplains := view.fate_explains plan
      rw [Fate.of_kept? hread] at hexplains
      exact hexplains.2.symm
    symm
    rwa [← List.forall₂_eq_eq_eq, List.forall₂_map_left_iff, List.forall₂_map_right_iff]

/-- A migration that ends without an error accounts for all its views: each one is
recorded as a parse failure, pruned, recorded as a format failure, or kept under its
id, always in the order of the views.  Every record carries the text that the view
had, and the numbers in the summary are those of the lists. -/
theorem migrate_accounts_for_views
    (ids : Nat → String) (plan : Plan) {catalog final : Catalog} {summary : Summary}
    (h : (migrate ids plan catalog).result = .ok (final, summary)) :
    ∃ unread pruned unwritten kept : List View,
      Accounted plan catalog.views final.views (failures (migrate ids plan catalog).events)
        unread pruned unwritten kept ∧
      summary.viewsParsed + summary.parseFailures = catalog.views.length ∧
      summary.parseFailures = unread.length ∧
      summary.formatFailures = unwritten.length ∧
      summary.viewsWritten = final.views.length ∧
      (failures (migrate ids plan catalog).events).length =
        summary.parseFailures + summary.formatFailures := by
  obtain ⟨moved, redirected, count, hmoved, hredirected, hfinal, hrecords, hparsed, hparse,
    hformat, hwritten⟩ := migrate_cases h
  have hviews : redirected.views = ((((parseViews catalog.views).1.map
      (View.relocated plan.containerRules)).filter fun view => plan.keeps view.path).map
        (View.redirected plan.sourceRules)) := by
    rw [hredirected, views_applySourceRules, views_restructure hmoved]
  have hkept : final.views = catalog.views.filterMap fun view => (view.fate plan).kept? := by
    have hlast : final.views = (writeViews redirected.views).1 := by
      rw [hfinal]
      rfl
    rw [hlast, (writeViews_eq_filterMap _).1, hviews]
    exact filterMap_fate plan (fun _ => rfl) rfl catalog.views
  have hunread := failures_parseViews plan catalog.views
  have hunwritten : failures (writeViews redirected.views).2 =
      catalog.views.filterMap fun view => (view.fate plan).unwritten? := by
    rw [(writeViews_eq_filterMap _).2, hviews]
    exact filterMap_fate plan (fun _ => rfl) rfl catalog.views
  have hreadCount := length_parseViews catalog.views
  have hwriteCount := length_writeViews redirected.views
  have hunreadCount := (forall₂_filterMap (fun view : View => (view.fate plan).unread?)
    catalog.views).length_eq
  have hunwrittenCount := (forall₂_filterMap (fun view : View => (view.fate plan).unwritten?)
    catalog.views).length_eq
  have hfinalCount : final.views.length = (writeViews redirected.views).1.length := by
    rw [hfinal]
    rfl
  rw [hunread] at hreadCount
  rw [hunwritten] at hwriteCount
  have haccounted := accounted_fates plan catalog.views
  rw [← hkept, ← hunread, ← hunwritten, ← hrecords] at haccounted
  refine ⟨_, _, _, _, haccounted, ?_, ?_, ?_, ?_, ?_⟩
  · omega
  · omega
  · omega
  · omega
  · rw [hrecords, hunread, hunwritten, List.length_append]
    omega

end

/-- A view without a text, one with a column that cannot be written, and two with a
command, one of them outside all destinations of `prodToTest`. -/
def mixedViews : Catalog := { empty with
  spaces := [⟨"prod", "Prod", [], []⟩]
  views := [
    ⟨"bad", ["Prod", "Bad"], "", none, [], none⟩,
    ⟨"squared", ["Prod", "Squared"], "SELECT \"x²\" FROM t", none, [], none⟩,
    ⟨"good", ["Prod", "Good"], "DROP VIEW v", none, [], none⟩,
    ⟨"far", ["Other", "Far"], "DROP VIEW v", none, [], none⟩] }

/-- `Prod` goes to `Test`. -/
def prodToTest : Plan := ⟨[⟨["Prod"], ["Test"]⟩], []⟩

/-- The statement in the views. -/
def dropV : Sql.Statement := .command [.words "DROP VIEW v"]

theorem parseSingle_dropV (stage : Sql.Stage) :
    Sql.parseSingle stage "DROP VIEW v" = .ok dropV := by
  have hparse : Sql.Statement.parseAll "DROP VIEW v" =
      .ok [.command [.words "DROP VIEW v"]] := by cbv
  rw [Sql.parseSingle, hparse]
  rfl

theorem parseView_dropV : Sql.parseView "DROP VIEW v" = .ok dropV := by
  have hsame : Sql.normalizeComments "DROP VIEW v" = "DROP VIEW v" := by rfl
  rw [Sql.parseView, hsame]
  exact parseSingle_dropV .parse

theorem format_dropV : dropV.format = .ok "DROP VIEW v" := by
  have hrender : dropV.applyQuoting.render = "DROP VIEW v" := by rfl
  have htokens : Sql.significantTokens "DROP VIEW v" = .ok [⟨.word ⟨"DROP", none⟩, ⟨1, 1⟩⟩,
    ⟨.word ⟨"VIEW", none⟩, ⟨1, 6⟩⟩, ⟨.word ⟨"v", none⟩, ⟨1, 11⟩⟩] := by cbv
  have hreindent : Sql.reindent "DROP VIEW v" = .ok "DROP VIEW v" := by
    rw [Sql.reindent, htokens]
    simp only [Sql.Layout.allBreaks]
    rfl
  rw [Sql.Statement.format, Sql.Statement.writeQuoted, hrender, hreindent]
  simp only [bind, Except.bind, parseSingle_dropV]
  rfl

theorem parseView_empty :
    Sql.parseView "" = .error (.ofMessage .parse "SQL contains no statement") := by
  have hparse : Sql.Statement.parseAll "" = .ok [] := by cbv
  have hsame : Sql.normalizeComments "" = "" := by rfl
  rw [Sql.parseView, hsame, Sql.parseSingle, hparse]

/-- The views of `mixedViews` that are left when the tree is put together. -/
def mixedMoved : List View := [
  ⟨"squared", ["Test", "Squared"], "SELECT \"x²\" FROM t", none, [], some Sql.squaredColumn⟩,
  ⟨"good", ["Test", "Good"], "DROP VIEW v", none, [], some dropV⟩]

/-- Each of the four fates is that of one view. -/
theorem mixedViews_accounted :
    ∃ final summary unread pruned unwritten kept,
      (migrate (FolderId.supply 0) prodToTest mixedViews).result = .ok (final, summary) ∧
      Accounted prodToTest mixedViews.views final.views
        (failures (migrate (FolderId.supply 0) prodToTest mixedViews).events)
        unread pruned unwritten kept ∧
      unread.length = 1 ∧ pruned.length = 1 ∧ unwritten.length = 1 ∧ kept.length = 1 := by
  have hparsed : (parseViews mixedViews.views).1 = [
      ⟨"squared", ["Prod", "Squared"], "SELECT \"x²\" FROM t", none, [],
        some Sql.squaredColumn⟩,
      ⟨"good", ["Prod", "Good"], "DROP VIEW v", none, [], some dropV⟩,
      ⟨"far", ["Other", "Far"], "DROP VIEW v", none, [], some dropV⟩] := by
    have hnil : parseViews [] = ([], []) := by rfl
    simp only [mixedViews, parseViews_cons, View.parseQuery, parseView_empty,
      Sql.parseView_squaredColumn, parseView_dropV, Except.map, hnil]
  have hmoved : (restructure (FolderId.supply 0) prodToTest.containerRules
      { mixedViews.retainMigratable with views := (parseViews mixedViews.views).1 }).result =
        .ok ({ empty with
          spaces := [⟨"prod", "Test", [.view "squared" ["Test", "Squared"],
            .view "good" ["Test", "Good"]], []⟩]
          views := mixedMoved }, 0) := by
    rw [hparsed]
    rfl
  have hwritten : (writeViews mixedMoved).1 =
      [⟨"good", ["Test", "Good"], "DROP VIEW v", none, [], none⟩] := by
    have hnil : writeViews [] = ([], []) := by rfl
    obtain ⟨failure, hformat⟩ := Sql.format_squaredColumn
    simp only [mixedMoved, writeViews_cons, View.writeQuery, hformat, format_dropV, Except.map,
      hnil]
  obtain ⟨final, summary, hresult⟩ : ∃ final summary,
      (migrate (FolderId.supply 0) prodToTest mixedViews).result = .ok (final, summary) := by
    have hsame : mixedViews.retainMigratable.views = mixedViews.views := rfl
    unfold migrate
    simp only [hsame, hmoved]
    exact ⟨_, _, rfl⟩
  obtain ⟨unread, pruned, unwritten, kept, haccounted, hparseCount, hunread, hunwritten, -⟩ :=
    migrate_accounts_for_views (FolderId.supply 0) prodToTest hresult
  obtain ⟨moved, redirected, count, hrestructured, hredirected, hfinal, -, hviewsParsed, -,
    hformat, -⟩ := migrate_cases hresult
  rw [hmoved] at hrestructured
  obtain ⟨rfl, -⟩ := Prod.mk.inj (Except.ok.inj hrestructured)
  have hviews : redirected.views = mixedMoved := by
    rw [hredirected]
    rfl
  have hkept : final.views.length = kept.length := by
    simpa using congrArg List.length haccounted.same_ids
  have hlast : final.views.length = 1 := by
    rw [hfinal]
    simp only [clearPhysical, hviews, hwritten, List.length_cons, List.length_nil]
  have hall := haccounted.perm.length_eq
  rw [hviews, hwritten] at hformat
  rw [hparsed] at hviewsParsed
  rw [List.length_append, List.length_append, List.length_append] at hall
  simp only [mixedViews, List.length_cons, List.length_nil] at hall hparseCount hviewsParsed
  simp only [mixedMoved, List.length_cons, List.length_nil] at hformat
  exact ⟨_, _, _, _, _, _, hresult, haccounted, by omega, by omega, by omega, by omega⟩

end Catalog

end Relocate
