import Relocate.Proofs.Migrate.Synthesis

/-!
# The order of the folders

The folders of a catalog are declared in their order, so a folder belongs behind
its parent.  A repair puts the folders that it makes up for views behind all others
and those that it makes up for folders in front of them, the last one first.
Neither is always right: a folder that is made up for a view may be the parent of
one that is there already, and a folder that is made up for a folder may lie in
one that is there already, or in one that was made up before it.
`reconcile_parents_first_iff` says what the order is, and exactly when it keeps
parents in front.
-/

namespace Relocate.Catalog

/-- No folder is declared before its parent. -/
def ParentsFirst (paths : List Path) : Prop :=
  paths.Pairwise fun earlier later => earlier.parent ≠ later

instance (paths : List Path) : Decidable (ParentsFirst paths) :=
  inferInstanceAs (Decidable (paths.Pairwise _))

/-- Two lists one after the other: no parent of the first stands in the second. -/
theorem parentsFirst_append {first second : List Path} :
    ParentsFirst (first ++ second) ↔
      ParentsFirst first ∧ ParentsFirst second ∧ ∀ path ∈ first, path.parent ∉ second := by
  rw [ParentsFirst, List.pairwise_append]
  refine and_congr_right fun _ => and_congr_right fun _ => ?_
  constructor
  · intro hapart path hpath hparent
    exact hapart path hpath path.parent hparent rfl
  · rintro hapart path hpath _ hparent rfl
    exact hapart path hpath hparent

/-- The repaired tree has the folders made up for folders in front, the last one
first, and the folders made up for views at the back.  When the folders of the
input are distinct and declared behind their parents, so are those of the repaired
tree exactly when no folder of the input and no unlisted view lie in the same
missing folder, those made up for views are made up behind their parents, no folder
made up for a folder lies in one of the others, and those are made up before their
parents. -/
theorem reconcile_parents_first_iff
    (ids : Nat → String) {catalog final : Catalog} {count : Nat}
    (hdistinct : catalog.folderPaths.Nodup) (hordered : ParentsFirst catalog.folderPaths)
    (h : (catalog.reconcile ids).result = .ok (final, count)) :
    final.folderPaths = catalog.dropDangling.folderGaps.reverse ++
        (catalog.folderPaths ++ catalog.dropDangling.viewGaps) ∧
    (ParentsFirst final.folderPaths ↔
      (∀ path ∈ catalog.folderPaths, ∀ view ∈ catalog.dropDangling.unlistedViews,
        view.parent = path.parent → 2 ≤ path.parent.length →
          path.parent ∈ catalog.folderPaths) ∧
      ParentsFirst catalog.dropDangling.viewGaps ∧
      (∀ gap ∈ catalog.dropDangling.folderGaps, gap.parent ∉ catalog.folderPaths ∧
        gap.parent ∉ catalog.dropDangling.viewGaps) ∧
      ParentsFirst catalog.dropDangling.folderGaps.reverse) := by
  have hpaths := folderPaths_of_reconcile h
  rw [mergeDuplicates_of_nodup hdistinct, folderPaths_dropDangling] at hpaths
  have hviewGaps : ∀ path, path ∉ catalog.dropDangling.viewGaps ↔
      ∀ view ∈ catalog.dropDangling.unlistedViews, view.parent = path → 2 ≤ path.length →
        path ∈ catalog.folderPaths := by
    intro path
    rw [viewGaps, mem_missingParents, folderPaths_dropDangling]
    constructor
    · intro hgap view hview hparent hlong
      by_contra hmissing
      exact hgap ⟨⟨view, hview, hparent⟩, hlong, hmissing⟩
    · rintro hpresent ⟨⟨view, hview, hparent⟩, hlong, hmissing⟩
      exact hmissing (hpresent view hview hparent hlong)
  refine ⟨hpaths, ?_⟩
  rw [hpaths, parentsFirst_append, parentsFirst_append]
  constructor
  · rintro ⟨hfront, ⟨-, hback, hfolders⟩, hgaps⟩
    refine ⟨fun path hpath => (hviewGaps path.parent).mp (hfolders path hpath), hback, ?_, hfront⟩
    intro gap hgap
    have hothers := hgaps gap (List.mem_reverse.mpr hgap)
    rw [List.mem_append, not_or] at hothers
    exact hothers
  · rintro ⟨hfolders, hback, hgaps, hfront⟩
    refine ⟨hfront, ⟨hordered, hback, ?_⟩, ?_⟩
    · intro path hpath
      exact (hviewGaps path.parent).mpr (hfolders path hpath)
    · intro gap hgap
      rw [List.mem_append, not_or]
      exact hgaps gap (List.mem_reverse.mp hgap)

/-- The folders above the scattered objects are declared in front of them. -/
theorem scattered_parents_first :
    ∃ final count, (scattered.reconcile (FolderId.supply 0)).result = .ok (final, count) ∧
      final.folderPaths =
        [["Prod", "EU"], ["Prod", "Lab"], ["Prod", "Lab", "Trials"], ["Prod", "EU", "Sales"]] ∧
      ParentsFirst final.folderPaths := by
  refine ⟨_, _, rfl, ?_⟩
  obtain ⟨hpaths, hfirst⟩ := @reconcile_parents_first_iff (FolderId.supply 0) scattered _ _
    (by decide) (by decide) rfl
  exact ⟨hpaths, hfirst.mpr ⟨by decide, by decide, by decide, by decide⟩⟩

/-- A folder and a view in the same missing folder. -/
def siblings : Catalog := { empty with
  spaces := [⟨"analytics", "Analytics", [], []⟩]
  folders := [⟨"sales", ["Analytics", "EU", "Sales"], [], none, none, []⟩]
  views := [⟨"top", ["Analytics", "EU", "Top"], "SELECT 1", none, [], none⟩] }

/-- The missing folder is made up for the view, and so behind the other folder. -/
theorem siblings_declared_before_parent :
    siblings.folderPaths.Nodup ∧ ParentsFirst siblings.folderPaths ∧
      ∃ final count, (siblings.reconcile (FolderId.supply 0)).result = .ok (final, count) ∧
        final.folderPaths = [["Analytics", "EU", "Sales"], ["Analytics", "EU"]] ∧
        ¬ ParentsFirst final.folderPaths := by
  exact ⟨by decide, by decide, _, _, rfl, by decide, by decide⟩

end Relocate.Catalog
