import Mathlib.Data.List.Perm.Basic
import Relocate.Proofs.Migrate.Listings

/-!
# Merging folders and removing entries

Before anything is attached, views at one path are refused, folders at one path
become one, and entries of what does not exist are removed.  The entries that
are left are some of those before, and there is one folder for each path.
-/

namespace Relocate.Catalog

/-! ## Views at one path -/

theorem nodup_of_collisionAfter?
    {seen views : List View} (hnone : collisionAfter? seen views = none) :
    (views.map View.path).Nodup ∧
      ∀ view ∈ views, ∀ earlier ∈ seen, earlier.path ≠ view.path := by
  induction views generalizing seen with
  | nil => simp
  | cons view rest ih =>
      unfold collisionAfter? at hnone
      split at hnone
      · cases hnone
      · rename_i hfind
        obtain ⟨hnodup, hfresh⟩ := ih hnone
        have hview : ∀ earlier ∈ seen, earlier.path ≠ view.path := by
          intro earlier hearlier
          simpa using List.find?_eq_none.mp hfind earlier hearlier
        constructor
        · rw [List.map_cons, List.nodup_cons]
          refine ⟨?_, hnodup⟩
          intro hmem
          obtain ⟨later, hlater, hpath⟩ := List.mem_map.mp hmem
          exact hfresh later hlater view (by simp) hpath.symm
        · intro later hlater earlier hearlier
          rcases List.mem_cons.mp hlater with rfl | hlater
          · exact hview earlier hearlier
          · exact hfresh later hlater earlier (by simp [hearlier])

theorem nodup_viewPaths_of_collision?
    {catalog : Catalog} (hnone : catalog.collision? = none) : catalog.viewPaths.Nodup :=
  (nodup_of_collisionAfter? hnone).1

/-! ## Folders at one path -/

theorem mergeChildren_sublist (children more : List Child) :
    (mergeChildren children more).Sublist (children ++ more) := by
  induction more generalizing children with
  | nil => simp [mergeChildren]
  | cons child rest ih =>
      unfold mergeChildren
      split
      · have hskip : (children ++ rest).Sublist (children ++ child :: rest) :=
          (List.sublist_cons_self child rest).append_left children
        exact (ih children).trans hskip
      · have hrest := ih (children ++ [child])
        rwa [List.append_assoc] at hrest

theorem listings_merged
    {first folder : Folder} (hpath : first.path = folder.path) :
    ({ first with children := mergeChildren first.children folder.children } :
      Folder).listings.Sublist (first.listings ++ folder.listings) := by
  have hmap := (mergeChildren_sublist first.children folder.children).map
    fun child => (first.path, child)
  rw [List.map_append] at hmap
  unfold Folder.listings
  rw [← hpath]
  exact hmap

theorem listings_mergeFolder (merged : List Folder) (folder : Folder) :
    List.Subperm ((mergeFolder merged folder).flatMap Folder.listings)
      (merged.flatMap Folder.listings ++ folder.listings) := by
  induction merged with
  | nil =>
      rw [mergeFolder, List.flatMap_singleton]
      exact List.Subperm.refl _
  | cons first rest ih =>
      unfold mergeFolder
      split
      · rename_i hpath
        have hperm : List.Perm
            ((first.listings ++ folder.listings) ++ rest.flatMap Folder.listings)
            ((first.listings ++ rest.flatMap Folder.listings) ++ folder.listings) := by
          rw [List.append_assoc, List.append_assoc]
          exact List.perm_append_comm.append_left _
        rw [List.flatMap_cons, List.flatMap_cons]
        exact ((listings_merged hpath).append_right _).subperm.trans hperm.subperm
      · rw [List.flatMap_cons, List.flatMap_cons, List.append_assoc]
        exact (List.subperm_append_left _).mpr ih

theorem listings_foldl_mergeFolder (merged folders : List Folder) :
    List.Subperm ((folders.foldl mergeFolder merged).flatMap Folder.listings)
      (merged.flatMap Folder.listings ++ folders.flatMap Folder.listings) := by
  induction folders generalizing merged with
  | nil =>
      rw [List.foldl_nil, List.flatMap_nil, List.append_nil]
  | cons folder rest ih =>
      have hfolder := (List.subperm_append_right (rest.flatMap Folder.listings)).mpr
        (listings_mergeFolder merged folder)
      rw [List.append_assoc] at hfolder
      rw [List.foldl_cons, List.flatMap_cons]
      exact (ih _).trans hfolder

theorem listings_mergeDuplicates (catalog : Catalog) :
    List.Subperm catalog.mergeDuplicates.listings catalog.listings := by
  have hfolders := listings_foldl_mergeFolder [] catalog.folders
  exact (List.subperm_append_left _).mpr hfolders

/-- A folder at a path that is there already adds no path. -/
theorem paths_mergeFolder (merged : List Folder) (folder : Folder) :
    (mergeFolder merged folder).map Folder.path =
      if folder.path ∈ merged.map Folder.path then merged.map Folder.path
      else merged.map Folder.path ++ [folder.path] := by
  induction merged with
  | nil => simp [mergeFolder]
  | cons first rest ih =>
      unfold mergeFolder
      by_cases hpath : first.path = folder.path
      · simp [hpath]
      · have hne : folder.path ≠ first.path := fun heq => hpath heq.symm
        rw [if_neg hpath, List.map_cons, ih, List.map_cons]
        simp only [List.mem_cons, hne, false_or]
        split <;> rfl

theorem paths_foldl_mergeFolder
    (merged folders : List Folder) (hmerged : (merged.map Folder.path).Nodup) :
    ((folders.foldl mergeFolder merged).map Folder.path).Nodup ∧
      ∀ path, path ∈ (folders.foldl mergeFolder merged).map Folder.path ↔
        path ∈ merged.map Folder.path ∨ path ∈ folders.map Folder.path := by
  induction folders generalizing merged with
  | nil =>
      refine ⟨hmerged, ?_⟩
      simp
  | cons folder rest ih =>
      have hpaths := paths_mergeFolder merged folder
      have hnodup : ((mergeFolder merged folder).map Folder.path).Nodup := by
        rw [hpaths]
        split
        · exact hmerged
        · rename_i hfresh
          refine List.nodup_append.mpr ⟨hmerged, by simp, ?_⟩
          intro path hpath other hother heq
          rw [heq, List.mem_singleton.mp hother] at hpath
          exact hfresh hpath
      obtain ⟨hrest, hmem⟩ := ih _ hnodup
      refine ⟨hrest, ?_⟩
      intro path
      rw [List.foldl_cons, hmem, hpaths, List.map_cons, List.mem_cons]
      split
      · rename_i hold
        constructor
        · rintro (hpath | hpath)
          · exact .inl hpath
          · exact .inr (.inr hpath)
        · rintro (hpath | rfl | hpath)
          · exact .inl hpath
          · exact .inl hold
          · exact .inr hpath
      · rw [List.mem_append, List.mem_singleton, or_assoc]

theorem nodup_folderPaths_mergeDuplicates (catalog : Catalog) :
    catalog.mergeDuplicates.folderPaths.Nodup :=
  (paths_foldl_mergeFolder [] catalog.folders List.nodup_nil).1

theorem mem_folderPaths_mergeDuplicates {catalog : Catalog} {path : Path} :
    path ∈ catalog.mergeDuplicates.folderPaths ↔ path ∈ catalog.folderPaths := by
  have hmem := (paths_foldl_mergeFolder [] catalog.folders List.nodup_nil).2 path
  rw [List.map_nil, List.mem_nil_iff, false_or] at hmem
  exact hmem

/-! ## Entries of what does not exist -/

theorem listings_dropDangling (catalog : Catalog) :
    catalog.dropDangling.listings.Sublist catalog.listings := by
  simp only [dropDangling, listings, List.flatMap_map]
  refine List.Sublist.append ?_ ?_
  · exact List.Sublist.flatMap_right _ fun space _ => List.filter_sublist.map _
  · exact List.Sublist.flatMap_right _ fun folder _ => List.filter_sublist.map _

theorem folderPaths_dropDangling (catalog : Catalog) :
    catalog.dropDangling.folderPaths = catalog.folderPaths := by
  simp [dropDangling, folderPaths, Function.comp_def]

end Relocate.Catalog
