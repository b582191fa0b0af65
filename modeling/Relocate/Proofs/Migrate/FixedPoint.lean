import Relocate.Proofs.Migrate.Tree

/-!
# The repaired tree is a fixed point

`Repaired` says what putting the tree together is for: every folder and every
view is listed, no two of them share a path, and what is listed exists.  A
catalog gets there from any listings, also from duplicate, misplaced, dangling
and circular ones: attaching keeps what merging and dropping have set right
(`Settled`).  A repaired catalog is then left as it is.
-/

namespace Relocate.Catalog

/-- Every entry of a folder or a view has the path of one that exists. -/
def EntriesExist (catalog : Catalog) : Prop :=
  ∀ entry ∈ catalog.listings, entry.2.kind ≠ .other → entry.2.path ∈ catalog.existingPaths

/-- What merging and dropping set right: one folder for each path, and no entries
of what does not exist. -/
structure Settled (catalog : Catalog) : Prop where
  distinct : catalog.folderPaths.Nodup
  entriesExist : catalog.EntriesExist

/-- A settled catalog with different views that lists all its folders and views. -/
structure Repaired (catalog : Catalog) : Prop extends catalog.Settled where
  views_distinct : catalog.viewPaths.Nodup
  views_listed : ∀ path ∈ catalog.viewPaths, path ∈ catalog.listedPaths
  folders_listed : ∀ path ∈ catalog.folderPaths, path ∈ catalog.listedPaths

/-! ## Merging and dropping settle a catalog -/

theorem mem_existingPaths {catalog : Catalog} {path : Path} :
    path ∈ catalog.existingPaths ↔ path ∈ catalog.folderPaths ∨ path ∈ catalog.viewPaths :=
  List.mem_append

theorem existingPaths_dropDangling (catalog : Catalog) :
    catalog.dropDangling.existingPaths = catalog.existingPaths :=
  congrArg (fun paths => paths ++ catalog.viewPaths) (folderPaths_dropDangling catalog)

theorem isKept_iff {existing : List Path} {child : Child} :
    isKept existing child = true ↔ (child.kind ≠ .other → child.path ∈ existing) := by
  by_cases hother : child.kind = .other
  · simp [isKept, hother]
  · simp [isKept, hother]

/-- The entries that are left are kept ones. -/
theorem isKept_of_mem_dropDangling
    {catalog : Catalog} {entry : Path × Child} (hentry : entry ∈ catalog.dropDangling.listings) :
    isKept catalog.existingPaths entry.2 = true := by
  obtain ⟨owner, child⟩ := entry
  rcases mem_listings.mp hentry with ⟨space, hspace, -, hchild⟩ | ⟨folder, hfolder, -, hchild⟩
  · obtain ⟨before, -, rfl⟩ := List.mem_map.mp hspace
    exact (List.mem_filter.mp hchild).2
  · obtain ⟨before, -, rfl⟩ := List.mem_map.mp hfolder
    exact (List.mem_filter.mp hchild).2

theorem Settled.of_merged (catalog : Catalog) :
    catalog.mergeDuplicates.dropDangling.Settled where
  distinct := by
    rw [folderPaths_dropDangling]
    exact nodup_folderPaths_mergeDuplicates catalog
  entriesExist := by
    intro entry hentry hkind
    rw [existingPaths_dropDangling]
    exact isKept_iff.mp (isKept_of_mem_dropDangling hentry) hkind

/-! ## Attaching keeps a catalog settled -/

theorem Attached.existingPaths_mono
    {child : Child} {before after : Catalog} (h : Attached child before after) {path : Path}
    (hpath : path ∈ before.existingPaths) : path ∈ after.existingPaths := by
  rw [mem_existingPaths] at hpath ⊢
  rcases hpath with hfolder | hview
  · refine .inl ?_
    rcases h.folders with hsame | ⟨-, hnew⟩
    · exact hsame.mem_iff.mpr hfolder
    · exact hnew.mem_iff.mpr (List.mem_cons_of_mem _ hfolder)
  · refine .inr ?_
    rw [viewPaths, h.views]
    exact hview

/-- The new entry names what exists, and a new folder is at a path of its own. -/
theorem Attached.settled
    {child : Child} {before after : Catalog} (h : Attached child before after)
    (hsettled : before.Settled) (hchild : child.path ∈ before.existingPaths) :
    after.Settled where
  distinct := h.nodup_folderPaths hsettled.distinct
  entriesExist := by
    intro entry hentry hkind
    apply h.existingPaths_mono
    rcases List.mem_cons.mp (h.listings.mem_iff.mp hentry) with rfl | hold
    · exact hchild
    · exact hsettled.entriesExist entry hold hkind

theorem Ends.settled_attachAll
    {ids : Nat → String} {placement : Placement} {children : List Child}
    {before after : Progress} {value : Unit}
    (h : Ends (Catalog.attachAll ids placement children) before value after)
    (hsettled : before.catalog.Settled)
    (hexist : ∀ path ∈ children.map Child.path, path ∈ before.catalog.existingPaths) :
    after.catalog.Settled := by
  induction children generalizing before with
  | nil =>
      obtain ⟨-, rfl⟩ := Ends.pure_iff.mp h
      exact hsettled
  | cons child rest ih =>
      obtain ⟨_, middle, hfirst, hrest⟩ := Ends.bind_iff.mp h
      have hattached := Ends.attach hfirst
      apply ih hrest (hattached.settled hsettled (hexist _ List.mem_cons_self))
      intro path hpath
      exact hattached.existingPaths_mono (hexist path (List.mem_cons_of_mem _ hpath))

/-- The tree is settled before anything is attached, and so it stays. -/
theorem Ends.settled_reconcileTree
    {ids : Nat → String} {before after : Progress} {value : Unit}
    (h : Ends (Catalog.reconcileTree ids) before value after) : after.catalog.Settled := by
  obtain ⟨-, merged, attached, hmerged, -, hviews, hfolders⟩ := Ends.reconcileTree_cases h
  have hattached : attached.catalog.Settled := by
    apply Ends.settled_attachAll hviews (hmerged ▸ Settled.of_merged before.catalog)
    intro path hpath
    rw [paths_map_view, paths_unreferencedViews, mem_filter_unreferenced] at hpath
    exact mem_existingPaths.mpr (.inr hpath.1)
  refine Ends.attachFolders_induction hfolders hattached ?_
  intro told middle hall htold
  apply Ends.settled_attachAll hall htold
  intro path hpath
  rw [paths_map_folder, paths_unreferencedFolders, mem_filter_unreferenced] at hpath
  exact mem_existingPaths.mpr (.inl hpath.1)

theorem Repaired.of_reconcile
    {ids : Nat → String} {catalog final : Catalog} {count : Nat}
    (h : (catalog.reconcile ids).result = .ok (final, count)) : final.Repaired := by
  obtain ⟨after, hends, rfl⟩ := ends_of_reconcile h
  refine ⟨Ends.settled_reconcileTree hends, ?_, Ends.views_listed_reconcileTree hends,
    Ends.folders_listed_reconcileTree hends⟩
  rw [viewPaths, Ends.views_reconcileTree hends]
  exact nodup_viewPaths_of_collision? (Ends.reconcileTree_cases hends).1

/-! ## A repaired catalog is left as it is -/

theorem collisionAfter?_eq_none
    {seen views : List View} (hnodup : (views.map View.path).Nodup)
    (hfresh : ∀ view ∈ views, ∀ earlier ∈ seen, earlier.path ≠ view.path) :
    collisionAfter? seen views = none := by
  induction views generalizing seen with
  | nil => rfl
  | cons view rest ih =>
      obtain ⟨hnotin, hrest⟩ := List.nodup_cons.mp hnodup
      have hnone : seen.find? (fun earlier => earlier.path == view.path) = none := by
        rw [List.find?_eq_none]
        intro earlier hearlier
        simpa using hfresh view List.mem_cons_self earlier hearlier
      rw [collisionAfter?, hnone]
      apply ih hrest
      intro later hlater earlier hearlier
      rcases List.mem_append.mp hearlier with hold | hview
      · exact hfresh later (List.mem_cons_of_mem _ hlater) earlier hold
      · rw [List.mem_singleton.mp hview]
        intro heq
        exact hnotin (heq ▸ List.mem_map_of_mem hlater)

/-- A folder at a path of its own goes behind the others. -/
theorem mergeFolder_of_fresh
    {merged : List Folder} {folder : Folder} (hfresh : folder.path ∉ merged.map Folder.path) :
    mergeFolder merged folder = merged ++ [folder] ∧ mergeLog merged folder = [] := by
  induction merged with
  | nil => exact ⟨rfl, rfl⟩
  | cons first rest ih =>
      rw [List.map_cons, List.mem_cons, not_or] at hfresh
      obtain ⟨hmerged, hlog⟩ := ih hfresh.2
      have hfirst : first.path ≠ folder.path := fun heq => hfresh.1 heq.symm
      constructor
      · rw [mergeFolder, if_neg hfirst, hmerged, List.cons_append]
      · rw [mergeLog, List.find?_cons_of_neg (by simpa using hfirst)]
        exact hlog

theorem mergeFolders_of_nodup
    {merged folders : List Folder} (hnodup : ((merged ++ folders).map Folder.path).Nodup) :
    folders.foldl mergeFolder merged = merged ++ folders ∧ mergeLogAfter merged folders = [] := by
  induction folders generalizing merged with
  | nil => exact ⟨(List.append_nil merged).symm, rfl⟩
  | cons folder rest ih =>
      have hfresh : folder.path ∉ merged.map Folder.path := by
        rw [List.map_append, List.nodup_append] at hnodup
        intro hmem
        exact hnodup.2.2 _ hmem _ List.mem_cons_self rfl
      obtain ⟨hfolder, hlog⟩ := mergeFolder_of_fresh hfresh
      rw [List.append_cons] at hnodup
      obtain ⟨hrest, hmore⟩ := ih hnodup
      constructor
      · rw [List.foldl_cons, hfolder, hrest, ← List.append_cons]
      · rw [mergeLogAfter, hlog, hfolder, hmore, List.append_nil]

/-- Without two folders at one path there is nothing to merge. -/
theorem mergeDuplicates_of_nodup {catalog : Catalog} (hdistinct : catalog.folderPaths.Nodup) :
    catalog.mergeDuplicates = catalog := by
  have hsame := (@mergeFolders_of_nodup [] _ hdistinct).1
  rw [mergeDuplicates, mergeFolders, hsame]
  rfl

theorem collision?_eq_none_iff {catalog : Catalog} :
    catalog.collision? = none ↔ catalog.viewPaths.Nodup := by
  constructor
  · exact nodup_viewPaths_of_collision?
  · intro hviews
    exact collisionAfter?_eq_none hviews fun _ _ _ hearlier => absurd hearlier List.not_mem_nil

namespace Repaired

variable {catalog : Catalog}

theorem collision?_eq_none (h : catalog.Repaired) : catalog.collision? = none :=
  collision?_eq_none_iff.mpr h.views_distinct

theorem mergeDuplicates_eq (h : catalog.Repaired) : catalog.mergeDuplicates = catalog :=
  mergeDuplicates_of_nodup h.distinct

theorem isKept_eq_true (h : catalog.Repaired) {entry : Path × Child}
    (hentry : entry ∈ catalog.listings) : isKept catalog.existingPaths entry.2 = true :=
  isKept_iff.mpr (h.entriesExist entry hentry)

theorem isKept_of_mem_space (h : catalog.Repaired) {space : Space}
    (hspace : space ∈ catalog.spaces) :
    ∀ child ∈ space.children, isKept catalog.existingPaths child = true := by
  intro child hchild
  exact h.isKept_eq_true (mem_listings.mpr (.inl ⟨space, hspace, rfl, hchild⟩))

theorem isKept_of_mem_folder (h : catalog.Repaired) {folder : Folder}
    (hfolder : folder ∈ catalog.folders) :
    ∀ child ∈ folder.children, isKept catalog.existingPaths child = true := by
  intro child hchild
  exact h.isKept_eq_true (mem_listings.mpr (.inr ⟨folder, hfolder, rfl, hchild⟩))

theorem dropDangling_eq (h : catalog.Repaired) : catalog.dropDangling = catalog := by
  have hspaces : (catalog.spaces.map fun space =>
      { space with children := space.children.filter (isKept catalog.existingPaths) }) =
        catalog.spaces := by
    conv_rhs => rw [← List.map_id catalog.spaces]
    refine List.map_congr_left fun space hspace => ?_
    rw [List.filter_eq_self.mpr (h.isKept_of_mem_space hspace)]
    rfl
  have hfolders : (catalog.folders.map fun folder =>
      { folder with children := folder.children.filter (isKept catalog.existingPaths) }) =
        catalog.folders := by
    conv_rhs => rw [← List.map_id catalog.folders]
    refine List.map_congr_left fun folder hfolder => ?_
    rw [List.filter_eq_self.mpr (h.isKept_of_mem_folder hfolder)]
    rfl
  simp only [dropDangling, hspaces, hfolders]

theorem danglingLog_eq_nil
    {existing : List Path} (owner : Path) {children : List Child}
    (hkept : ∀ child ∈ children, isKept existing child = true) :
    danglingLog existing owner children = [] := by
  rw [danglingLog, List.map_eq_nil_iff, List.filter_eq_nil_iff]
  intro child hchild
  simp [hkept child hchild]

theorem dropDanglingLog_eq_nil (h : catalog.Repaired) : catalog.dropDanglingLog = [] := by
  rw [dropDanglingLog, List.append_eq_nil_iff, List.flatMap_eq_nil_iff, List.flatMap_eq_nil_iff]
  constructor
  · intro space hspace
    exact danglingLog_eq_nil space.path (h.isKept_of_mem_space hspace)
  · intro folder hfolder
    exact danglingLog_eq_nil folder.path (h.isKept_of_mem_folder hfolder)

theorem unreferencedViews_eq_nil (h : catalog.Repaired) : catalog.unreferencedViews = [] := by
  rw [← List.map_eq_nil_iff, paths_unreferencedViews, List.filter_eq_nil_iff]
  intro path hpath
  simpa using isReferenced_iff.mpr (h.views_listed path hpath)

theorem unreferencedFolders_eq_nil (h : catalog.Repaired) :
    catalog.unreferencedFolders = [] := by
  rw [← List.map_eq_nil_iff, paths_unreferencedFolders, List.filter_eq_nil_iff]
  intro path hpath
  simpa using isReferenced_iff.mpr (h.folders_listed path hpath)

/-- Each step finds nothing to do. -/
theorem ends_reconcileTree (h : catalog.Repaired) (ids : Nat → String) :
    Ends (Catalog.reconcileTree ids) ⟨catalog, 0, []⟩ () ⟨catalog, 0, []⟩ := by
  unfold Catalog.reconcileTree
  rw [Ends.get_bind_iff]
  simp only [h.collision?_eq_none]
  refine Ends.bind_iff.mpr ⟨(), ⟨catalog, 0, []⟩, Ends.modify_iff.mpr ?_, ?_⟩
  · have hlog := (@mergeFolders_of_nodup [] _ h.distinct).2
    rw [h.mergeDuplicates_eq, h.dropDangling_eq, hlog, h.dropDanglingLog_eq_nil]
    rfl
  · rw [Ends.get_bind_iff]
    refine Ends.bind_iff.mpr ⟨(), ⟨catalog, 0, []⟩, ?_, ?_⟩
    · rw [h.unreferencedViews_eq_nil]
      exact Ends.pure_iff.mpr ⟨rfl, rfl⟩
    · rw [Ends.get_bind_iff]
      unfold Catalog.attachFolders
      rw [Ends.get_bind_iff, h.unreferencedFolders_eq_nil]
      exact Ends.pure_iff.mpr ⟨rfl, rfl⟩

theorem reconcile_eq (h : catalog.Repaired) (ids : Nat → String) :
    catalog.reconcile ids = ⟨.ok (catalog, 0), []⟩ := by
  have hends := h.ends_reconcileTree ids
  unfold Ends at hends
  rw [reconcile, hends]
  rfl

end Repaired

/-! ## Repair is repair for good -/

/-- When the tree of a catalog is put together without an error, whatever its
entries are, then no view and no folder is unlisted, no two folders are at one
path, every entry of a folder or a view has the path of one, and putting the tree
together again makes up no folder, changes nothing and has nothing to tell. -/
theorem reconcile_reaches_fixed_point
    (ids more : Nat → String) {catalog final : Catalog} {count : Nat}
    (h : (catalog.reconcile ids).result = .ok (final, count)) :
    final.unreferencedViews = [] ∧ final.unreferencedFolders = [] ∧
    final.folderPaths.Nodup ∧
    (∀ entry ∈ final.listings, entry.2.kind ≠ .other →
      entry.2.path ∈ final.folderPaths ∨ entry.2.path ∈ final.viewPaths) ∧
    final.reconcile more = ⟨.ok (final, 0), []⟩ := by
  have hrepaired := Repaired.of_reconcile h
  refine ⟨hrepaired.unreferencedViews_eq_nil, hrepaired.unreferencedFolders_eq_nil,
    hrepaired.distinct, ?_, hrepaired.reconcile_eq more⟩
  intro entry hentry hkind
  exact mem_existingPaths.mp (hrepaired.entriesExist entry hentry hkind)

/-- Two folders at one path, a folder that lists itself, an entry of a view that
is gone, an entry of a view far from its parent, and a view that nothing lists. -/
def tangledTree : Catalog := { empty with
  spaces := [⟨"space", "Prod", [.view "gone" ["Prod", "Gone"]], []⟩]
  folders := [
    ⟨"sales", ["Prod", "Sales"], [.folder "sales" ["Prod", "Sales"]], none, none, []⟩,
    ⟨"again", ["Prod", "Sales"], [.view "far" ["Prod", "EU", "Far"]], none, none, []⟩]
  views := [
    ⟨"far", ["Prod", "EU", "Far"], "SELECT 1", none, [], none⟩,
    ⟨"lost", ["Prod", "US", "West", "Lost"], "SELECT 1", none, [], none⟩] }

/-- The tangled tree is put together with two new folders, and then left alone. -/
theorem tangledTree_reaches_fixed_point :
    ∃ final,
      (tangledTree.reconcile (FolderId.supply 0)).result = .ok (final, 2) ∧
      final.unreferencedFolders = [] ∧
      final.reconcile (FolderId.supply 2) = ⟨.ok (final, 0), []⟩ := by
  refine ⟨_, rfl, ?_⟩
  obtain ⟨-, hfolders, -, -, hagain⟩ :=
    @reconcile_reaches_fixed_point (FolderId.supply 0) (FolderId.supply 2) tangledTree _ _ rfl
  exact ⟨hfolders, hagain⟩

end Relocate.Catalog
