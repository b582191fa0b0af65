import Relocate.Proofs.Migrate.Accounting
import Relocate.Proofs.Migrate.FixedPoint
import Relocate.Proofs.Migrate.Lockstep
import Relocate.Proofs.Migrate.Origins

/-!
# Paths that are shared after a migration

Folders at one path are merged and views at one path are refused, but spaces are
only renamed, and folders, views and spaces are never compared with each other.
`migrated_paths_distinct_iff` says exactly when the result has no two objects at
one path, in terms of where the rules send the paths of the input.
-/

namespace Relocate.Catalog

/-- The paths of all spaces, folders and views. -/
def objectPaths (catalog : Catalog) : List Path :=
  catalog.spacePaths ++ catalog.folderPaths ++ catalog.viewPaths

theorem nodup_objectPaths_iff {catalog : Catalog} :
    catalog.objectPaths.Nodup ↔
      (catalog.spacePaths.Nodup ∧ catalog.folderPaths.Nodup ∧ catalog.viewPaths.Nodup) ∧
      (∀ path ∈ catalog.spacePaths, path ∉ catalog.folderPaths ∧ path ∉ catalog.viewPaths) ∧
      ∀ path ∈ catalog.viewPaths, path ∉ catalog.folderPaths := by
  rw [objectPaths, List.nodup_append', List.nodup_append']
  constructor
  · rintro ⟨⟨hspaces, hfolders, hapart⟩, hviews, hothers⟩
    refine ⟨⟨hspaces, hfolders, hviews⟩, ?_, ?_⟩
    · intro path hpath
      exact ⟨hapart hpath, hothers (List.mem_append_left _ hpath)⟩
    · intro path hview hfolder
      exact hothers (List.mem_append_right _ hfolder) hview
  · rintro ⟨⟨hspaces, hfolders, hviews⟩, hapart, hothers⟩
    refine ⟨⟨hspaces, hfolders, ?_⟩, hviews, ?_⟩
    · intro path hpath
      exact (hapart path hpath).1
    · intro path hpath hview
      rcases List.mem_append.mp hpath with hspace | hfolder
      · exact (hapart path hspace).2 hview
      · exact hothers path hview hfolder

/-! ## Where the rules send the paths of the input -/

/-- The catalog after container rules and pruning. -/
def relocate (rules : List Rule) (catalog : Catalog) : Catalog :=
  ((applyRules View.containerOrigin Catalog.applyContainerRule rules catalog).catalog.prune
    rules).catalog

/-- The ids with the paths after the rules, as far as pruning keeps what is there. -/
def survivors (rules : List Rule) (labels : List (String × Path)) : List (String × Path) :=
  (labels.map fun label => (label.1, Path.relocated rules label.2)).filter fun label =>
    inDestinationScope rules label.2

/-- The paths after the rules, as far as pruning keeps what is there. -/
def survivingPaths (rules : List Rule) (paths : List Path) : List Path :=
  (paths.map (Path.relocated rules)).filter (inDestinationScope rules)

/-- The paths after the rules of the spaces that pruning keeps.  A rule moves a
space by its name alone. -/
def survivingSpaces (rules : List Rule) (catalog : Catalog) : List Path :=
  (catalog.spaces.map fun space => (space.relocated rules).path).filter
    (inDestinationScope rules)

/-- The folder after container rules, one after the other. -/
def Folder.relocated (rules : List Rule) (folder : Folder) : Folder :=
  rules.foldl (fun folder rule => folder.applyRule rule) folder

theorem Folder.path_relocated (rules : List Rule) (folder : Folder) :
    (folder.relocated rules).path = Path.relocated rules folder.path :=
  Path.relocated_foldl Folder.path_applyRule rules folder

theorem Folder.id_applyRule (rule : Rule) (folder : Folder) :
    (folder.applyRule rule).id = folder.id := by
  unfold Folder.applyRule
  split <;> rfl

theorem Folder.id_relocated (rules : List Rule) (folder : Folder) :
    (folder.relocated rules).id = folder.id := by
  induction rules generalizing folder with
  | nil => rfl
  | cons rule rest ih => exact (ih _).trans (Folder.id_applyRule rule folder)

theorem mem_survivors {rules : List Rule} {labels : List (String × Path)} {id : String}
    {path : Path} :
    (id, path) ∈ survivors rules labels ↔
      (∃ origin, (id, origin) ∈ labels ∧ Path.relocated rules origin = path) ∧
        inDestinationScope rules path = true := by
  rw [survivors, List.mem_filter, List.mem_map]
  constructor
  · rintro ⟨⟨before, hbefore, heq⟩, hscope⟩
    cases heq
    exact ⟨⟨before.2, hbefore, rfl⟩, hscope⟩
  · rintro ⟨⟨origin, horigin, rfl⟩, hscope⟩
    exact ⟨⟨(id, origin), horigin, rfl⟩, hscope⟩

theorem spaces_relocate (rules : List Rule) (catalog : Catalog) :
    (catalog.relocate rules).spaces = (catalog.spaces.map (Space.relocated rules)).filter
      fun space => inDestinationScope rules space.path := by
  rw [← spaces_applyRules View.containerOrigin rules catalog]
  rfl

theorem spacePaths_relocate (rules : List Rule) (catalog : Catalog) :
    (catalog.relocate rules).spacePaths = survivingSpaces rules catalog := by
  rw [spacePaths, spaces_relocate, survivingSpaces, List.filter_map, List.filter_map, List.map_map]
  rfl

theorem folderLabels_relocate (rules : List Rule) (catalog : Catalog) :
    (catalog.relocate rules).folderLabels = survivors rules catalog.folderLabels := by
  have hfolders : (applyRules View.containerOrigin Catalog.applyContainerRule rules
      catalog).catalog.folders = catalog.folders.map (Folder.relocated rules) :=
    collection_applyRules Catalog.folders (fun _ _ => rfl) View.containerOrigin rules catalog
  have hkept : (catalog.relocate rules).folders =
      (catalog.folders.map (Folder.relocated rules)).filter fun folder =>
        inDestinationScope rules folder.path := by
    rw [← hfolders]
    rfl
  rw [folderLabels, hkept, survivors, folderLabels, List.map_map, List.filter_map, List.filter_map,
    List.map_map]
  simp only [Function.comp_def, Folder.path_relocated, Folder.id_relocated]

theorem viewLabels_relocate (rules : List Rule) (catalog : Catalog) :
    (catalog.relocate rules).viewLabels = survivors rules catalog.viewLabels := by
  have hviews := views_applyRules View.containerOrigin rules catalog
  have hkept : (catalog.relocate rules).views =
      (catalog.views.map (View.relocated rules)).filter fun view =>
        inDestinationScope rules view.path := by
    rw [← hviews]
    rfl
  rw [viewLabels, hkept, survivors, viewLabels, List.map_map, List.filter_map, List.filter_map,
    List.map_map]
  simp only [Function.comp_def, View.path_relocated, (View.SameText.relocated _ _).id]

/-! ## The paths of the result -/

theorem paths_survivors (rules : List Rule) (labels : List (String × Path)) :
    (survivors rules labels).map Prod.snd = survivingPaths rules (labels.map Prod.snd) := by
  rw [survivors, survivingPaths, List.filter_map, List.filter_map, List.filter_map,
    List.map_map, List.map_map]
  rfl

theorem folderPaths_relocate (rules : List Rule) (catalog : Catalog) :
    (catalog.relocate rules).folderPaths = survivingPaths rules catalog.folderPaths := by
  rw [← paths_folderLabels, folderLabels_relocate, paths_survivors, paths_folderLabels]

theorem viewPaths_relocate (rules : List Rule) (catalog : Catalog) :
    (catalog.relocate rules).viewPaths = survivingPaths rules catalog.viewPaths := by
  rw [← paths_viewLabels, viewLabels_relocate, paths_survivors, paths_viewLabels]

/-- The repair makes up a folder at the path. -/
def NeedsFolder (rules : List Rule) (catalog : Catalog) (path : Path) : Prop :=
  (catalog.relocate rules).mergeDuplicates.dropDangling.MadeUp path

/-- In the result no two folders and no two views share a path.  Its spaces and
its views are where the rules send those of the input, its folders there or where
one has to be made up.  So no two objects of any kind share a path exactly when
the rules send different spaces to different names, no space, folder or view to
the path of one of another kind, and no folder has to be made up at the path of a
view. -/
theorem migrated_paths_distinct_iff
    (ids : Nat → String) (rules : List Rule) {catalog final : Catalog} {count : Nat}
    (hresult : (((applyRules View.containerOrigin Catalog.applyContainerRule rules
      catalog).catalog.prune rules).catalog.reconcile ids).result = .ok (final, count)) :
    (final.folderPaths.Nodup ∧ final.viewPaths.Nodup) ∧
    (final.spacePaths = survivingSpaces rules catalog ∧
      final.viewPaths = survivingPaths rules catalog.viewPaths ∧
      ∀ path, path ∈ final.folderPaths ↔
        path ∈ survivingPaths rules catalog.folderPaths ∨ NeedsFolder rules catalog path) ∧
    (final.objectPaths.Nodup ↔
      (survivingSpaces rules catalog).Nodup ∧
      (∀ path ∈ survivingSpaces rules catalog,
        path ∉ survivingPaths rules catalog.folderPaths ∧
          path ∉ survivingPaths rules catalog.viewPaths) ∧
      ∀ path ∈ survivingPaths rules catalog.viewPaths,
        path ∉ survivingPaths rules catalog.folderPaths ∧ ¬ NeedsFolder rules catalog path) := by
  have hrepaired := Repaired.of_reconcile hresult
  obtain ⟨after, hends, rfl⟩ := ends_of_reconcile hresult
  have hgrown := Ends.grown_reconcileTree hends
  obtain ⟨hstartSpaces, hstartFolders, hstartViews⟩ := mergedPaths (catalog.relocate rules)
  have hspaces : after.catalog.spacePaths = survivingSpaces rules catalog :=
    (hgrown.spaces.trans hstartSpaces).trans (spacePaths_relocate rules catalog)
  have hviews : after.catalog.viewPaths = survivingPaths rules catalog.viewPaths := by
    rw [← viewPaths_relocate, viewPaths, hgrown.views, viewPaths]
    exact congrArg (List.map View.path) hstartViews
  have hfolders : ∀ path, path ∈ after.catalog.folderPaths ↔
      path ∈ survivingPaths rules catalog.folderPaths ∨ NeedsFolder rules catalog path := by
    intro path
    rw [hgrown.mem_folderPaths_iff hrepaired.folders_listed hrepaired.views_listed,
      ← folderPaths_relocate]
    exact or_congr_left (hstartFolders path)
  refine ⟨⟨hrepaired.distinct, hrepaired.views_distinct⟩, ⟨hspaces, hviews, hfolders⟩, ?_⟩
  rw [nodup_objectPaths_iff, hspaces, hviews]
  constructor
  · rintro ⟨⟨hnodup, -, -⟩, hapart, hothers⟩
    refine ⟨hnodup, ?_, ?_⟩
    · intro path hspace
      obtain ⟨hfolder, hview⟩ := hapart path hspace
      exact ⟨fun hmem => hfolder ((hfolders path).mpr (.inl hmem)), hview⟩
    · intro path hview
      have hfolder := hothers path hview
      rw [hfolders, not_or] at hfolder
      exact hfolder
  · rintro ⟨hnodup, hapart, hothers⟩
    refine ⟨⟨hnodup, hrepaired.distinct, hviews ▸ hrepaired.views_distinct⟩, ?_, ?_⟩
    · intro path hspace
      obtain ⟨hfolder, hview⟩ := hapart path hspace
      refine ⟨?_, hview⟩
      intro hmem
      rcases (hfolders path).mp hmem with hold | hneeds
      · exact hfolder hold
      · -- a space has one segment, what is made up has two at least
        have hlong := hneeds.two_le_length
        obtain ⟨space, -, rfl⟩ := List.mem_map.mp (List.mem_filter.mp hspace).1
        simp [Space.path] at hlong
    · intro path hview hmem
      rcases (hfolders path).mp hmem with hold | hneeds
      · exact (hothers path hview).1 hold
      · exact (hothers path hview).2 hneeds

/-- The folder of the moved view is made up, and not at the path of a view. -/
theorem ordersInProd_paths_distinct :
    ∃ final count,
      (((applyRules View.containerOrigin Catalog.applyContainerRule
        [⟨["Prod", "Sales"], ["Analytics", "EU", "Sales"]⟩] ordersInProd).catalog.prune
          [⟨["Prod", "Sales"], ["Analytics", "EU", "Sales"]⟩]).catalog.reconcile
            (FolderId.supply 0)).result = .ok (final, count) ∧
      final.objectPaths.Nodup ∧
      NeedsFolder [⟨["Prod", "Sales"], ["Analytics", "EU", "Sales"]⟩] ordersInProd
        ["Analytics", "EU"] ∧
      ∀ path ∈ survivingPaths [⟨["Prod", "Sales"], ["Analytics", "EU", "Sales"]⟩]
        ordersInProd.viewPaths,
          ¬ NeedsFolder [⟨["Prod", "Sales"], ["Analytics", "EU", "Sales"]⟩] ordersInProd path := by
  refine ⟨_, _, rfl, ?_⟩
  obtain ⟨-, ⟨-, -, hfolders⟩, hdistinct⟩ := @migrated_paths_distinct_iff (FolderId.supply 0)
    [⟨["Prod", "Sales"], ["Analytics", "EU", "Sales"]⟩] ordersInProd _ _ rfl
  refine ⟨by decide, ?_, ?_⟩
  · exact ((hfolders ["Analytics", "EU"]).mp (by decide)).resolve_left (by decide)
  · intro path hpath
    exact ((hdistinct.mp (by decide)).2.2 path hpath).2

/-- Two spaces with a folder of the same name. -/
def prodAndDev : Catalog := { empty with
  spaces := [
    ⟨"prod", "Prod", [.folder "sales" ["Prod", "Sales"]], []⟩,
    ⟨"dev", "Dev", [.folder "trials" ["Dev", "Sales"]], []⟩]
  folders := [
    ⟨"sales", ["Prod", "Sales"], [], none, none, []⟩,
    ⟨"trials", ["Dev", "Sales"], [], none, none, []⟩] }

/-- Both spaces go to `Analytics`. -/
def allToAnalytics : List Rule :=
  [⟨["Prod"], ["Analytics"]⟩, ⟨["Dev"], ["Analytics"]⟩]

/-- The folders become one, but there are two spaces of the name `Analytics`. -/
theorem prodAndDev_share_path :
    prodAndDev.objectPaths.Nodup ∧
    (∀ rule ∈ allToAnalytics, rule.source ≠ [] ∧ rule.destination ≠ []) ∧
    ∃ final count,
      (((applyRules View.containerOrigin Catalog.applyContainerRule allToAnalytics
        prodAndDev).catalog.prune allToAnalytics).catalog.reconcile
          (FolderId.supply 0)).result = .ok (final, count) ∧
      final.folderPaths = [["Analytics", "Sales"]] ∧
      final.spacePaths = [["Analytics"], ["Analytics"]] ∧ ¬ final.objectPaths.Nodup := by
  refine ⟨by decide, by decide, _, _, rfl, by decide, by decide, by decide⟩

end Relocate.Catalog
