import Mathlib.Data.List.Nodup
import Relocate.Catalog.FolderId
import Relocate.Proofs.Migrate.Attach

/-!
# The tree after a migration

`Ends.tidyTree_reconcileTree` puts the steps together: a tidy catalog becomes a tidy tree
in which every folder and every view is listed.  By induction on the length of a
path every one of them is reached from its space: `migrated_listed_once`.
-/

namespace Relocate.Catalog

/-! ## Putting the tree together -/

theorem length_le_foldl_max (folders : List Folder) (start : Nat) :
    start ≤ folders.foldl (fun length folder => max length folder.path.length) start ∧
      ∀ folder ∈ folders, folder.path.length ≤
        folders.foldl (fun length folder => max length folder.path.length) start := by
  induction folders generalizing start with
  | nil => simp
  | cons folder rest ih =>
      obtain ⟨hstart, hrest⟩ := ih (max start folder.path.length)
      rw [List.foldl_cons]
      refine ⟨Nat.le_trans (Nat.le_max_left _ _) hstart, ?_⟩
      intro other hother
      rcases List.mem_cons.mp hother with rfl | hother
      · exact Nat.le_trans (Nat.le_max_right _ _) hstart
      · exact hrest other hother

theorem length_le_maxFolderLength {catalog : Catalog} {path : Path}
    (hpath : path ∈ catalog.folderPaths) : path.length ≤ catalog.maxFolderLength := by
  obtain ⟨folder, hfolder, rfl⟩ := List.mem_map.mp hpath
  exact (length_le_foldl_max catalog.folders 0).2 folder hfolder

theorem TidyTree.of_merged {catalog : Catalog} (htidy : catalog.Tidy) :
    catalog.mergeDuplicates.dropDangling.TidyTree := by
  have hpaths := folderPaths_dropDangling catalog.mergeDuplicates
  have hlistings : List.Subperm catalog.mergeDuplicates.dropDangling.listings
      catalog.listings :=
    (listings_dropDangling _).subperm.trans (listings_mergeDuplicates catalog)
  refine ⟨htidy.of_subperm hlistings ?_, ?_⟩
  · intro folder hfolder
    have hpath : folder.path ∈ catalog.mergeDuplicates.dropDangling.folderPaths :=
      List.mem_map_of_mem hfolder
    rw [hpaths, mem_folderPaths_mergeDuplicates] at hpath
    obtain ⟨before, hbefore, heq⟩ := List.mem_map.mp hpath
    rw [← heq]
    exact htidy.rooted before hbefore
  · rw [hpaths]
    exact nodup_folderPaths_mergeDuplicates catalog

/-- The steps behind the test for views at one path. -/
theorem Ends.reconcileTree_cases
    {ids : Nat → String} {before after : Progress} {value : Unit}
    (h : Ends (Catalog.reconcileTree ids) before value after) :
    before.catalog.collision? = none ∧ ∃ merged attached : Progress,
      merged.catalog = before.catalog.mergeDuplicates.dropDangling ∧
      merged.synthesized = before.synthesized ∧
      Ends (Catalog.attachAll ids .back
        (merged.catalog.unreferencedViews.map fun (id, path) => Child.view id path))
        merged () attached ∧
      Ends (Catalog.attachFolders ids (attached.catalog.maxFolderLength + 1)) attached value
        after := by
  unfold Catalog.reconcileTree at h
  rw [Ends.get_bind_iff] at h
  cases hcollision : before.catalog.collision? with
  | some error =>
      simp only [hcollision] at h
      exact absurd h Ends.not_throw
  | none =>
      simp only [hcollision] at h
      obtain ⟨_, merged, hmerge, h⟩ := Ends.bind_iff.mp h
      rw [Ends.get_bind_iff] at h
      obtain ⟨_, attached, hviews, h⟩ := Ends.bind_iff.mp h
      rw [Ends.get_bind_iff] at h
      have hmerged := Ends.modify_iff.mp hmerge
      exact ⟨rfl, merged, attached, by rw [hmerged], by rw [hmerged], hviews, h⟩

/-- Views are listed, but stay as they are. -/
theorem Ends.views_reconcileTree
    {ids : Nat → String} {before after : Progress} {value : Unit}
    (h : Ends (Catalog.reconcileTree ids) before value after) :
    after.catalog.views = before.catalog.views := by
  obtain ⟨-, merged, attached, hmerged, -, hviews, hfolders⟩ := Ends.reconcileTree_cases h
  obtain ⟨paths, hpaths⟩ := Ends.attachFolders hfolders
  rw [hpaths.views, (Ends.attachAll hviews).views, hmerged]
  rfl

/-- Every view was listed before, or is listed on its own account. -/
theorem Ends.views_listed_reconcileTree
    {ids : Nat → String} {before after : Progress} {value : Unit}
    (h : Ends (Catalog.reconcileTree ids) before value after) :
    ∀ path ∈ after.catalog.viewPaths, path ∈ after.catalog.listedPaths := by
  have hsame := Ends.views_reconcileTree h
  obtain ⟨-, merged, attached, hmerged, -, hviews, hfolders⟩ := Ends.reconcileTree_cases h
  have hpaths : after.catalog.viewPaths = merged.catalog.viewPaths := by
    rw [viewPaths, hsame, hmerged]
    rfl
  obtain ⟨paths, hmore⟩ := Ends.attachFolders hfolders
  have halso := (Ends.attachAll hviews).trans hmore
  intro path hpath
  rw [halso.listed.mem_iff, List.mem_append, List.mem_append, paths_map_view,
    paths_unreferencedViews, mem_filter_unreferenced]
  by_cases hlisted : path ∈ merged.catalog.listedPaths
  · exact .inr hlisted
  · exact .inl (.inl ⟨hpaths ▸ hpath, hlisted⟩)

theorem Ends.folders_listed_reconcileTree
    {ids : Nat → String} {before after : Progress} {value : Unit}
    (h : Ends (Catalog.reconcileTree ids) before value after) :
    ∀ path ∈ after.catalog.folderPaths, path ∈ after.catalog.listedPaths := by
  obtain ⟨-, merged, attached, -, -, -, hfolders⟩ := Ends.reconcileTree_cases h
  apply Ends.folders_listed_attachFolders hfolders
  intro path hfolder _
  exact Nat.lt_succ_of_le (length_le_maxFolderLength hfolder)

/-- A tidy catalog becomes a tidy tree that lists all its folders and views. -/
theorem Ends.tidyTree_reconcileTree
    {ids : Nat → String} {before after : Progress} {value : Unit}
    (h : Ends (Catalog.reconcileTree ids) before value after)
    (htidy : before.catalog.Tidy) :
    after.catalog.TidyTree ∧
      (∀ path ∈ after.catalog.folderPaths, path ∈ after.catalog.listedPaths) ∧
      ∀ path ∈ after.catalog.viewPaths, path ∈ after.catalog.listedPaths := by
  refine ⟨?_, Ends.folders_listed_reconcileTree h, Ends.views_listed_reconcileTree h⟩
  obtain ⟨hcollision, merged, attached, hmerged, -, hviews, hfolders⟩ := Ends.reconcileTree_cases h
  have hpaths : merged.catalog.viewPaths = before.catalog.viewPaths := by
    rw [hmerged]
    rfl
  have hunlisted := paths_unreferencedViews merged.catalog
  refine Ends.tidyTree_attachFolders hfolders ?_
  apply Ends.tidyTree_attachAll hviews (hmerged ▸ TidyTree.of_merged htidy)
  · rw [paths_map_view, hunlisted, hpaths]
    exact (nodup_viewPaths_of_collision? hcollision).filter _
  · intro path hpath
    rw [paths_map_view, hunlisted] at hpath
    exact (mem_filter_unreferenced.mp hpath).2

/-- A result without an error is what the last step left. -/
theorem reconcile_eq_ok_iff
    {ids : Nat → String} {catalog final : Catalog} {count : Nat} :
    (catalog.reconcile ids).result = .ok (final, count) ↔
      ∃ log, Ends (reconcileTree ids) ⟨catalog, 0, []⟩ () ⟨final, count, log⟩ := by
  unfold reconcile Ends
  rcases (reconcileTree ids).run.run ⟨catalog, 0, []⟩ with ⟨result, after⟩
  constructor
  · intro h
    cases result with
    | error error => cases h
    | ok value =>
        cases h
        exact ⟨after.log, rfl⟩
  · rintro ⟨log, h⟩
    cases h
    rfl

theorem ends_of_reconcile
    {ids : Nat → String} {catalog final : Catalog} {count : Nat}
    (h : (catalog.reconcile ids).result = .ok (final, count)) :
    ∃ after, Ends (reconcileTree ids) ⟨catalog, 0, []⟩ () after ∧ after.catalog = final := by
  obtain ⟨log, hends⟩ := reconcile_eq_ok_iff.mp h
  exact ⟨_, hends, rfl⟩

/-! ## Reachability -/

/-- The path is reached from the space by following entries: first one of the
space, then those of folders. -/
inductive ReachedFrom (catalog : Catalog) (space : Space) : Path → Prop
  | entry {child : Child} (hchild : child ∈ space.children) :
      ReachedFrom catalog space child.path
  | inside {folder : Folder} {child : Child} (hfolder : folder ∈ catalog.folders)
      (hreached : ReachedFrom catalog space folder.path) (hchild : child ∈ folder.children) :
      ReachedFrom catalog space child.path

theorem Path.root?_of_parent {path : Path} {name : String}
    (h : path.parent.root? = some name) : path.root? = some name := by
  unfold Path.parent Path.root? at *
  match path with
  | [] => simp at h
  | [_] => simp at h
  | first :: second :: rest => simpa using h

/-- Every listed path is reached when all folders are listed: its owner is a
space, or a folder with a shorter path that is reached itself. -/
theorem Housed.reachedFrom
    {catalog : Catalog} (hhoused : catalog.Housed)
    (hfolders : ∀ path ∈ catalog.folderPaths, path ∈ catalog.listedPaths)
    {path : Path} (hlisted : path ∈ catalog.listedPaths) :
    ∃ space ∈ catalog.spaces, path.root? = some space.name ∧
      catalog.ReachedFrom space path := by
  induction hlength : path.length using Nat.strongRecOn generalizing path with
  | ind length ih =>
      obtain ⟨owner, child, hentry, rfl⟩ := mem_listedPaths.mp hlisted
      have howner : child.path.parent = owner := hhoused.owned _ hentry
      rcases mem_listings.mp hentry with ⟨space, hspace, hpath, hchild⟩ |
        ⟨folder, hfolder, hpath, hchild⟩
      · refine ⟨space, hspace, ?_, .entry hchild⟩
        apply Path.root?_of_parent
        rw [howner, ← hpath]
        rfl
      · have hparent : child.path.parent ≠ [] := by
          rw [howner, ← hpath]
          exact hhoused.rooted folder hfolder
        have hshorter : folder.path.length < length := by
          rw [hpath, ← howner, ← hlength]
          exact Path.length_parent_lt hparent
        obtain ⟨space, hspace, hroot, hreached⟩ := ih folder.path.length hshorter
          (hfolders _ (List.mem_map_of_mem hfolder)) rfl
        refine ⟨space, hspace, ?_, .inside hfolder hreached hchild⟩
        apply Path.root?_of_parent
        rw [howner, ← hpath]
        exact hroot

theorem TidyTree.reachedFrom
    {catalog : Catalog} (htree : catalog.TidyTree)
    (hfolders : ∀ path ∈ catalog.folderPaths, path ∈ catalog.listedPaths)
    {path : Path} (hlisted : path ∈ catalog.listedPaths) :
    ∃ space ∈ catalog.spaces, path.root? = some space.name ∧
      catalog.ReachedFrom space path :=
  htree.toTidy.housed.reachedFrom hfolders hlisted

/-! ## The migrated tree -/

/-- A tidy catalog that container rules, pruning and the repair of the tree do
not end with an error has one entry for every folder and every view, in the
parent of it, and each of them is reached from the space it names. -/
theorem migrated_listed_once
    (ids : Nat → String) (rules : List Rule) {catalog final : Catalog} {count : Nat}
    (htidy : catalog.Tidy) (hdestinations : ∀ rule ∈ rules, rule.destination ≠ [])
    (hresult : (((applyRules View.containerOrigin Catalog.applyContainerRule rules
      catalog).catalog.prune rules).catalog.reconcile ids).result = .ok (final, count)) :
    ∀ path, path ∈ final.folderPaths ∨ path ∈ final.viewPaths →
      final.listedPaths.count path = 1 ∧
      (∃ child, child.path = path ∧ (path.parent, child) ∈ final.listings) ∧
      ∃ space ∈ final.spaces, path.root? = some space.name ∧
        final.ReachedFrom space path := by
  obtain ⟨after, hends, rfl⟩ := ends_of_reconcile hresult
  have hpruned := (htidy.applyRules hdestinations View.containerOrigin).prune rules
  obtain ⟨htree, hfolders, hviews⟩ := Ends.tidyTree_reconcileTree hends hpruned
  intro path hpath
  have hlisted : path ∈ after.catalog.listedPaths := by
    rcases hpath with hfolder | hview
    · exact hfolders path hfolder
    · exact hviews path hview
  refine ⟨List.count_eq_one_of_mem htree.nodup hlisted, ?_, htree.reachedFrom hfolders hlisted⟩
  obtain ⟨owner, child, hentry, rfl⟩ := mem_listedPaths.mp hlisted
  have howner : child.path.parent = owner := htree.owned _ hentry
  exact ⟨child, rfl, howner ▸ hentry⟩

/-- The view `Prod.Sales.Orders` in its folder and its space. -/
def ordersInProd : Catalog := { empty with
  spaces := [⟨"space", "Prod", [.folder "folder" ["Prod", "Sales"]], []⟩]
  folders := [⟨"folder", ["Prod", "Sales"], [.view "view" ["Prod", "Sales", "Orders"]], none,
    none, []⟩]
  views := [⟨"view", ["Prod", "Sales", "Orders"], "SELECT 1", none, [], none⟩] }

/-- The folder of the moved view and the one above it are listed once each. -/
theorem ordersInProd_listed_once :
    ∃ final count,
      (((applyRules View.containerOrigin Catalog.applyContainerRule
        [⟨["Prod", "Sales"], ["Analytics", "EU", "Sales"]⟩] ordersInProd).catalog.prune
          [⟨["Prod", "Sales"], ["Analytics", "EU", "Sales"]⟩]).catalog.reconcile
            (FolderId.supply 0)).result = .ok (final, count) ∧
      final.listedPaths.count ["Analytics", "EU"] = 1 ∧
      final.listedPaths.count ["Analytics", "EU", "Sales", "Orders"] = 1 := by
  have htidy : ordersInProd.Tidy := ⟨by decide, by decide, by decide⟩
  refine ⟨_, _, rfl, ?_⟩
  have hlisted := migrated_listed_once (FolderId.supply 0)
    [⟨["Prod", "Sales"], ["Analytics", "EU", "Sales"]⟩] htidy (by decide) rfl
  exact ⟨(hlisted _ (.inl (by decide))).1, (hlisted _ (.inr (by decide))).1⟩

end Relocate.Catalog
