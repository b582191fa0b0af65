import Relocate.Proofs.Migrate.Accounting
import Relocate.Proofs.Migrate.FixedPoint

/-!
# Entries of views that a migration leaves out

Dangling entries are removed once, when the tree is put together after container
rules.  What cannot be written is found out only later, so the entry of such a view
stays although the tree was repaired before (`unwritten_still_listed`).  A plan
without container rules leaves all entries as they are, also those of views that
cannot be parsed.  `migrate_entries_exist_iff` says that no other entry is ever left
without its object.
-/

namespace Relocate.Catalog

/-! ## Views are left out with a record -/

/-- A view goes on from the first stage, or there is a record of it. -/
theorem parsed_or_recorded {views : List View} {view : View} (hview : view ∈ views) :
    (∃ parsed ∈ (parseViews views).1, parsed.path = view.path) ∨
    ∃ record ∈ failures (parseViews views).2, record.view = view.path := by
  induction views with
  | nil => cases hview
  | cons first rest ih =>
      cases hparse : first.parseQuery with
      | ok parsed =>
          obtain ⟨hkept, hfailures⟩ := parseViews_cons_ok hparse rest
          rw [hkept, hfailures]
          rcases List.mem_cons.mp hview with rfl | hrest
          · obtain ⟨statement, rfl⟩ := View.of_parseQuery hparse
            exact .inl ⟨_, List.mem_cons_self, rfl⟩
          · rcases ih hrest with ⟨other, hother, hpath⟩ | hrecord
            · exact .inl ⟨other, List.mem_cons_of_mem _ hother, hpath⟩
            · exact .inr hrecord
      | error failure =>
          obtain ⟨hkept, hfailures⟩ := parseViews_cons_error hparse rest
          rw [hkept, hfailures]
          rcases List.mem_cons.mp hview with rfl | hrest
          · exact .inr ⟨_, List.mem_cons_self, rfl⟩
          · rcases ih hrest with hparsed | ⟨record, hrecord, hpath⟩
            · exact .inl hparsed
            · exact .inr ⟨record, List.mem_cons_of_mem _ hrecord, hpath⟩

/-- A view is left by the last stage, or there is a record of it. -/
theorem written_or_recorded {views : List View} {view : View} (hview : view ∈ views) :
    (∃ written ∈ (writeViews views).1, written.path = view.path) ∨
    ∃ record ∈ failures (writeViews views).2,
      record.view = view.path ∧ record.failure.stage = .format := by
  rw [(writeViews_eq_filterMap views).1, (writeViews_eq_filterMap views).2]
  cases hwrite : view.writeQuery with
  | ok written =>
      refine .inl ⟨written, List.mem_filterMap.mpr ⟨view, hview, ?_⟩, ?_⟩
      · rw [View.writtenFate, hwrite]
        rfl
      · obtain ⟨sql, rfl⟩ := View.of_writeQuery hwrite
        rfl
  | error failure =>
      refine .inr ⟨view.failed failure, List.mem_filterMap.mpr ⟨view, hview, ?_⟩, rfl,
        stage_of_writeQuery hwrite⟩
      rw [View.writtenFate, hwrite]
      rfl

/-! ## The tree after container rules -/

/-- What no rule changes stays under all of them. -/
theorem applyRules_preserves
    {α : Type} (read : Catalog → α) {apply : Rule → Catalog → RuleResult}
    (happly : ∀ rule catalog, read (apply rule catalog).catalog = read catalog)
    (origin : String) (rules : List Rule) (catalog : Catalog) :
    read (applyRules origin apply rules catalog).catalog = read catalog := by
  induction rules generalizing catalog with
  | nil => rfl
  | cons rule rest ih => exact (ih _).trans (happly rule catalog)

/-- Source rules keep the tree. -/
theorem tree_applySourceRules (origin : String) (rules : List Rule) (catalog : Catalog) :
    let after := (applyRules origin Catalog.applySourceRule rules catalog).catalog
    after.listings = catalog.listings ∧ after.folderPaths = catalog.folderPaths ∧
      after.viewPaths = catalog.viewPaths := by
  refine ⟨applyRules_preserves listings (fun _ _ => rfl) origin rules catalog,
    applyRules_preserves folderPaths (fun _ _ => rfl) origin rules catalog,
    applyRules_preserves viewPaths ?_ origin rules catalog⟩
  intro rule before
  rw [viewPaths, Catalog.applySourceRule, List.map_map, List.map_map]
  exact List.map_congr_left fun view _ => View.path_applySourceRule rule view

/-- After container rules with what follows them an entry without its object is
one of a view that could not be parsed, in a plan without container rules. -/
theorem exists_or_unread_of_restructure
    {ids : Nat → String} {rules : List Rule} {catalog moved : Catalog} {count : Nat}
    (h : (restructure ids rules { catalog.retainMigratable with
      views := (parseViews catalog.views).1 }).result = .ok (moved, count))
    (hexist : catalog.EntriesExist) {entry : Path × Child} (hentry : entry ∈ moved.listings)
    (hkind : entry.2.kind ≠ .other) :
    entry.2.path ∈ moved.existingPaths ∨ rules = [] ∧
      ∃ record ∈ failures (parseViews catalog.views).2, record.view = entry.2.path := by
  rcases restructure_cases h with ⟨hrules, rfl⟩ | ⟨-, hmigrated⟩
  · rcases mem_existingPaths.mp (hexist entry hentry hkind) with hfolder | hview
    · exact .inl (mem_existingPaths.mpr (.inl hfolder))
    · obtain ⟨view, hmem, hpath⟩ := List.mem_map.mp hview
      rw [← hpath]
      rcases parsed_or_recorded hmem with ⟨parsed, hparsed, hsame⟩ | hrecord
      · refine .inl (mem_existingPaths.mpr (.inr ?_))
        rw [← hsame]
        exact List.mem_map_of_mem hparsed
      · exact .inr ⟨hrules, hrecord⟩
  · exact .inl ((Repaired.of_reconcile hmigrated).entriesExist entry hentry hkind)

/-! ## The tree after a migration -/

/-- A migration ends with the tree that container rules leave.  Of its views those
are left that can be written. -/
theorem migrate_tree
    {ids : Nat → String} {plan : Plan} {catalog final : Catalog} {summary : Summary}
    (h : (migrate ids plan catalog).result = .ok (final, summary)) :
    ∃ (moved : Catalog) (views : List View) (count : Nat),
      (restructure ids plan.containerRules { catalog.retainMigratable with
        views := (parseViews catalog.views).1 }).result = .ok (moved, count) ∧
      final.listings = moved.listings ∧ final.folderPaths = moved.folderPaths ∧
      views.map View.path = moved.viewPaths ∧ final.views = (writeViews views).1 ∧
      failures (migrate ids plan catalog).events =
        failures (parseViews catalog.views).2 ++ failures (writeViews views).2 := by
  obtain ⟨moved, redirected, count, hmoved, hredirected, hfinal, hrecords, -⟩ := migrate_cases h
  obtain ⟨hlistings, hfolders, hviews⟩ :=
    tree_applySourceRules View.sourceOrigin plan.sourceRules moved
  rw [← hredirected] at hlistings hfolders hviews
  refine ⟨moved, redirected.views, count, hmoved, ?_, ?_, hviews, ?_, hrecords⟩
  · rw [hfinal, ← hlistings]
    rfl
  · rw [hfinal, ← hfolders]
    rfl
  · rw [hfinal]
    rfl

/-- When every entry of a folder or a view has the path of one, and a migration
ends without an error, then an entry of the result has the path of a folder or a
view of the result, except that it may be the path of a view recorded as one that
cannot be written or, where the plan has no container rules and all entries stay
as they are, of any recorded view. -/
theorem entry_exists_or_recorded
    {ids : Nat → String} {plan : Plan} {catalog final : Catalog} {summary : Summary}
    (h : (migrate ids plan catalog).result = .ok (final, summary))
    (hexist : catalog.EntriesExist) {entry : Path × Child} (hentry : entry ∈ final.listings)
    (hkind : entry.2.kind ≠ .other) :
    entry.2.path ∈ final.existingPaths ∨
      ∃ record ∈ failures (migrate ids plan catalog).events, record.view = entry.2.path ∧
        (record.failure.stage = .format ∨ plan.containerRules = []) := by
  obtain ⟨moved, views, count, hmoved, hlistings, hfolders, hviews, hfinal, hrecords⟩ :=
    migrate_tree h
  rw [hlistings] at hentry
  rw [mem_existingPaths, hfolders, hrecords]
  rcases exists_or_unread_of_restructure hmoved hexist hentry hkind with
    hmem | ⟨hrules, record, hrecord, hpath⟩
  · rcases mem_existingPaths.mp hmem with hfolder | hview
    · exact .inl (.inl hfolder)
    · rw [← hviews] at hview
      obtain ⟨view, hview, hpath⟩ := List.mem_map.mp hview
      rw [← hpath]
      rcases written_or_recorded hview with ⟨written, hwritten, hsame⟩ |
        ⟨record, hrecord, hsame, hstage⟩
      · refine .inl (.inr ?_)
        rw [viewPaths, hfinal, ← hsame]
        exact List.mem_map_of_mem hwritten
      · exact .inr ⟨record, List.mem_append_right _ hrecord, hsame, .inl hstage⟩
  · exact .inr ⟨record, List.mem_append_left _ hrecord, hpath, .inr hrules⟩

/-- A recorded format failure is that of a view that could not be written. -/
theorem unwritten_of_format
    {plan : Plan} {views written : List View} {record : ViewFailure}
    (hrecord : record ∈ failures (parseViews views).2 ++ failures (writeViews written).2)
    (hstage : record.failure.stage = .format) :
    ∃ view ∈ written, view.writtenFate = .unwritten record ∧ record.view = view.path := by
  rcases List.mem_append.mp hrecord with hunread | hunwritten
  · rw [failures_parseViews plan] at hunread
    obtain ⟨view, -, hread⟩ := List.mem_filterMap.mp hunread
    have hexplains := view.fate_explains plan
    rw [Fate.of_unread? hread] at hexplains
    rw [hexplains.stage_eq] at hstage
    cases hstage
  · rw [(writeViews_eq_filterMap written).2] at hunwritten
    obtain ⟨view, hview, hread⟩ := List.mem_filterMap.mp hunwritten
    have hfate := Fate.of_unwritten? hread
    refine ⟨view, hview, hfate, ?_⟩
    unfold View.writtenFate at hfate
    split at hfate <;> cases hfate
    rfl

/-- Where views have paths of their own, none is left at the path of one that cannot
be written. -/
theorem path_notMem_writeViews
    {views : List View} (hdistinct : (views.map View.path).Nodup) {view : View}
    (hview : view ∈ views) {record : ViewFailure}
    (hfate : view.writtenFate = .unwritten record) :
    view.path ∉ (writeViews views).1.map View.path := by
  intro hmem
  obtain ⟨written, hwritten, hpath⟩ := List.mem_map.mp hmem
  rw [(writeViews_eq_filterMap views).1] at hwritten
  obtain ⟨other, hother, hread⟩ := List.mem_filterMap.mp hwritten
  have hkept := Fate.of_kept? hread
  have hsame : other.path = view.path := by
    rw [← hpath]
    unfold View.writtenFate at hkept
    split at hkept
    · rename_i found hwrite
      cases hkept
      obtain ⟨sql, rfl⟩ := View.of_writeQuery hwrite
      rfl
    · cases hkept
  rw [List.inj_on_of_nodup_map hdistinct hother hview hsame, hfate] at hkept
  cases hkept

/-- A view that cannot be written is taken out of a tree that lists it, and the tree
is not put together again. -/
theorem unwritten_still_listed
    {ids : Nat → String} {plan : Plan} {catalog final : Catalog} {summary : Summary}
    (h : (migrate ids plan catalog).result = .ok (final, summary))
    (hrules : plan.containerRules ≠ []) {record : ViewFailure}
    (hrecord : record ∈ failures (migrate ids plan catalog).events)
    (hstage : record.failure.stage = .format) :
    record.view ∈ final.listedPaths ∧ record.view ∉ final.viewPaths := by
  obtain ⟨moved, views, count, hmoved, hlistings, -, hviews, hfinal, hrecords⟩ := migrate_tree h
  rw [hrecords] at hrecord
  obtain ⟨view, hview, hfate, hpath⟩ := @unwritten_of_format plan _ _ _ hrecord hstage
  rcases restructure_cases hmoved with ⟨hnone, -⟩ | ⟨-, hreconciled⟩
  · exact absurd hnone hrules
  · have hrepaired := Repaired.of_reconcile hreconciled
    have hmember : view.path ∈ moved.viewPaths := hviews ▸ List.mem_map_of_mem hview
    rw [hpath, listedPaths, hlistings, viewPaths, hfinal]
    exact ⟨hrepaired.views_listed _ hmember,
      path_notMem_writeViews (hviews ▸ hrepaired.views_distinct) hview hfate⟩

/-- When every entry of a folder or a view has the path of one, and a migration ends
without an error, then the entries of the result have objects exactly when this holds
of the entries that are left for views recorded as ones that cannot be written or,
where the plan has no container rules, for any recorded views.  After container rules
a view that cannot be written is always listed still and is no view of the result;
without them all entries stay as they are. -/
theorem migrate_entries_exist_iff
    (ids : Nat → String) (plan : Plan) {catalog final : Catalog} {summary : Summary}
    (h : (migrate ids plan catalog).result = .ok (final, summary))
    (hexist : catalog.EntriesExist) :
    (final.EntriesExist ↔ ∀ record ∈ failures (migrate ids plan catalog).events,
      record.failure.stage = .format ∨ plan.containerRules = [] →
      record.view ∈ final.existingPaths ∨
        ∀ entry ∈ final.listings, entry.2.path = record.view → entry.2.kind = .other) ∧
    (plan.containerRules ≠ [] → ∀ record ∈ failures (migrate ids plan catalog).events,
      record.failure.stage = .format →
      record.view ∈ final.listedPaths ∧ record.view ∉ final.viewPaths) ∧
    (plan.containerRules = [] → final.listings = catalog.listings) := by
  refine ⟨⟨?_, ?_⟩, fun hrules record => unwritten_still_listed h hrules, ?_⟩
  · intro hfinal record hrecord hdropped
    by_cases hexists : record.view ∈ final.existingPaths
    · exact .inl hexists
    · refine .inr fun entry hentry hpath => ?_
      by_contra hkind
      exact hexists (hpath ▸ hfinal entry hentry hkind)
  · intro hrecords entry hentry hkind
    rcases entry_exists_or_recorded h hexist hentry hkind with
      hmem | ⟨record, hrecord, hpath, hdropped⟩
    · exact hmem
    · rcases hrecords record hrecord hdropped with hmem | hother
      · exact hpath ▸ hmem
      · exact absurd (hother entry hentry hpath.symm) hkind
  · intro hrules
    obtain ⟨moved, _, _, hmoved, hlistings, -⟩ := migrate_tree h
    rw [hlistings]
    rcases restructure_cases hmoved with ⟨-, rfl⟩ | ⟨hsome, -⟩
    · rfl
    · exact absurd hrules hsome

/-- A space with the entry of its only view, which can be read and not written. -/
def squaredView : Catalog := { empty with
  spaces := [⟨"prod", "Prod", [.view "bad" ["Prod", "Bad"]], []⟩]
  views := [⟨"bad", ["Prod", "Bad"], "SELECT \"x²\" FROM t", none, [], none⟩] }

theorem entriesExist_squaredView : squaredView.EntriesExist := by
  unfold EntriesExist
  decide

/-- The view moves with its space and is left out, and its entry is kept. -/
theorem migrate_squaredView :
    ∃ summary, (migrate (FolderId.supply 0) prodToTest squaredView).result =
      .ok ({ empty with
        spaces := [⟨"prod", "Test", [.view "bad" ["Test", "Bad"]], []⟩] }, summary) := by
  have hviews : squaredView.retainMigratable.views = squaredView.views := rfl
  have hparsed : (parseViews squaredView.views).1 =
      [⟨"bad", ["Prod", "Bad"], "SELECT \"x²\" FROM t", none, [], some Sql.squaredColumn⟩] := by
    have hnil : parseViews [] = ([], []) := by rfl
    simp only [squaredView, parseViews_cons, View.parseQuery, Sql.parseView_squaredColumn,
      Except.map, hnil]
  have hmoved : (restructure (FolderId.supply 0) prodToTest.containerRules
      { squaredView.retainMigratable with views := (parseViews squaredView.views).1 }).result =
        .ok ({ empty with
          spaces := [⟨"prod", "Test", [.view "bad" ["Test", "Bad"]], []⟩]
          views := [⟨"bad", ["Test", "Bad"], "SELECT \"x²\" FROM t", none, [],
            some Sql.squaredColumn⟩] }, 0) := by
    rw [hparsed]
    rfl
  have hwritten : (writeViews [⟨"bad", ["Test", "Bad"], "SELECT \"x²\" FROM t", none, [],
      some Sql.squaredColumn⟩]).1 = [] := by
    have hnil : writeViews [] = ([], []) := by rfl
    obtain ⟨failure, hformat⟩ := Sql.format_squaredColumn
    simp only [writeViews_cons, View.writeQuery, hformat, Except.map, hnil]
  obtain ⟨final, summary, hresult⟩ : ∃ final summary,
      (migrate (FolderId.supply 0) prodToTest squaredView).result = .ok (final, summary) := by
    unfold migrate
    simp only [hviews, hmoved]
    exact ⟨_, _, rfl⟩
  obtain ⟨moved, redirected, count, hrestructured, hredirected, hfinal, -⟩ := migrate_cases hresult
  rw [hmoved] at hrestructured
  obtain ⟨rfl, -⟩ := Prod.mk.inj (Except.ok.inj hrestructured)
  refine ⟨summary, ?_⟩
  rw [hresult, hfinal, hredirected, prodToTest, applyRules, hwritten]
  rfl

/-- The entry that is left is that of a recorded view, which is none of the result. -/
theorem squaredView_recorded :
    ∃ final summary,
      (migrate (FolderId.supply 0) prodToTest squaredView).result = .ok (final, summary) ∧
      ∃ record ∈ failures (migrate (FolderId.supply 0) prodToTest squaredView).events,
        record.failure.stage = .format ∧ record.view = ["Test", "Bad"] ∧
        record.view ∈ final.listedPaths ∧ record.view ∉ final.viewPaths := by
  obtain ⟨summary, hresult⟩ := migrate_squaredView
  obtain ⟨hexact, hlisted, -⟩ := migrate_entries_exist_iff (FolderId.supply 0) prodToTest hresult
    entriesExist_squaredView
  refine ⟨_, summary, hresult, ?_⟩
  by_contra hnone
  -- Without such a record the entry of the view would have an object.
  have hexists := hexact.mpr fun record hrecord hdropped => ?_
  · exact absurd (hexists (["Test"], .view "bad" ["Test", "Bad"]) (by decide) (by decide))
      (by decide)
  · have hstage : record.failure.stage = .format := hdropped.resolve_right (by decide)
    refine .inr fun entry hentry hpath => absurd ?_ hnone
    refine ⟨record, hrecord, hstage, ?_, hlisted (by decide) record hrecord hstage⟩
    rw [← hpath, List.mem_singleton.mp hentry]
    rfl

/-- The view is gone from the result and its entry is still there. -/
theorem squaredView_still_listed :
    squaredView.EntriesExist ∧ ∃ final summary,
      (migrate (FolderId.supply 0) prodToTest squaredView).result = .ok (final, summary) ∧
      ∃ entry ∈ final.listings, entry.2.kind ≠ .other ∧
        entry.2.path ∉ final.folderPaths ∧ entry.2.path ∉ final.viewPaths := by
  obtain ⟨summary, hresult⟩ := migrate_squaredView
  refine ⟨entriesExist_squaredView, _, summary, hresult,
    (["Test"], .view "bad" ["Test", "Bad"]), ?_, ?_, ?_, ?_⟩ <;> decide

/-- A space with the entry of its only view, which has no text. -/
def textlessView : Catalog := { empty with
  spaces := [⟨"prod", "Prod", [.view "bad" ["Prod", "Bad"]], []⟩]
  views := [⟨"bad", ["Prod", "Bad"], "", none, [], none⟩] }

/-- The source `lake` is now `warehouse`; nothing moves. -/
def lakeToWarehouse : Plan := ⟨[], [⟨["lake"], ["warehouse"]⟩]⟩

theorem entriesExist_textlessView : textlessView.EntriesExist := by
  unfold EntriesExist
  decide

theorem migrate_textlessView :
    ∃ summary, (migrate (FolderId.supply 0) lakeToWarehouse textlessView).result =
      .ok ({ textlessView with views := [] }, summary) := by
  have hviews : textlessView.retainMigratable.views = textlessView.views := rfl
  have hparsed : (parseViews textlessView.views).1 = [] := by
    have hnil : parseViews [] = ([], []) := by rfl
    simp only [textlessView, parseViews_cons, View.parseQuery, parseView_empty, Except.map, hnil]
  unfold migrate
  simp only [hviews, hparsed]
  exact ⟨_, rfl⟩

/-- The view is gone from the result and its entry is still there. -/
theorem textlessView_still_listed :
    textlessView.EntriesExist ∧ ∃ final summary,
      (migrate (FolderId.supply 0) lakeToWarehouse textlessView).result = .ok (final, summary) ∧
      ∃ entry ∈ final.listings, entry.2.kind ≠ .other ∧
        entry.2.path ∉ final.folderPaths ∧ entry.2.path ∉ final.viewPaths := by
  obtain ⟨summary, hresult⟩ := migrate_textlessView
  refine ⟨entriesExist_textlessView, _, summary, hresult,
    (["Prod"], .view "bad" ["Prod", "Bad"]), ?_, ?_, ?_, ?_⟩ <;> decide

end Relocate.Catalog
