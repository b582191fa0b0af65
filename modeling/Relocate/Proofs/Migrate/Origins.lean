import Relocate.Proofs.Migrate.Tree

/-!
# Where folders and entries of a tree come from

Putting a tree together adds folders and entries and takes nothing away once the
folders are merged.  `Grown start after` says what is new in `after`: a new folder
is `MadeUp`, above an object that nothing listed at the start, and a new entry is
in the parent of an object that nothing listed, with the id and the kind of that
object.  One step of attaching keeps this (`Grown.attach`), and so the whole
repair does (`Ends.grown_reconcileTree`).
-/

namespace Relocate.Catalog

/-! ## Labels -/

/-- The id and the path of each folder. -/
def folderLabels (catalog : Catalog) : List (String × Path) :=
  catalog.folders.map fun folder => (folder.id, folder.path)

/-- The id and the path of each view. -/
def viewLabels (catalog : Catalog) : List (String × Path) :=
  catalog.views.map fun view => (view.id, view.path)

/-- The paths of the spaces. -/
def spacePaths (catalog : Catalog) : List Path :=
  catalog.spaces.map Space.path

theorem paths_folderLabels (catalog : Catalog) :
    catalog.folderLabels.map Prod.snd = catalog.folderPaths := by
  rw [folderLabels, List.map_map]
  rfl

theorem paths_viewLabels (catalog : Catalog) :
    catalog.viewLabels.map Prod.snd = catalog.viewPaths := by
  rw [viewLabels, List.map_map]
  rfl

theorem mem_folderPaths_of_label {catalog : Catalog} {label : String × Path}
    (hlabel : label ∈ catalog.folderLabels) : label.2 ∈ catalog.folderPaths := by
  rw [← paths_folderLabels]
  exact List.mem_map_of_mem hlabel

theorem mem_viewPaths_of_label {catalog : Catalog} {label : String × Path}
    (hlabel : label ∈ catalog.viewLabels) : label.2 ∈ catalog.viewPaths := by
  rw [← paths_viewLabels]
  exact List.mem_map_of_mem hlabel

theorem exists_label_of_mem_folderPaths {catalog : Catalog} {path : Path}
    (hpath : path ∈ catalog.folderPaths) : ∃ id, (id, path) ∈ catalog.folderLabels := by
  obtain ⟨folder, hfolder, rfl⟩ := List.mem_map.mp hpath
  exact ⟨folder.id, List.mem_map_of_mem hfolder⟩

theorem exists_label_of_mem_viewPaths {catalog : Catalog} {path : Path}
    (hpath : path ∈ catalog.viewPaths) : ∃ id, (id, path) ∈ catalog.viewLabels := by
  obtain ⟨view, hview, rfl⟩ := List.mem_map.mp hpath
  exact ⟨view.id, List.mem_map_of_mem hview⟩

/-! ## One step of attaching -/

theorem labels_addToFolder (path : Path) (child : Child) (folders : List Folder) :
    (addToFolder path child folders).map (fun folder => (folder.id, folder.path)) =
      folders.map fun folder => (folder.id, folder.path) :=
  map_addToFolder (fun _ _ => rfl) path child folders

theorem paths_addToSpace (name : String) (child : Child) (spaces : List Space) :
    (addToSpace name child spaces).map Space.path = spaces.map Space.path :=
  map_addToSpace (fun _ _ => rfl) name child spaces

/-- The spaces and the folders are the old ones, except for a missing parent of
the attached object. -/
structure Grows (path : Path) (before after : Catalog) : Prop where
  spaces : after.spacePaths = before.spacePaths
  kept : ∀ label ∈ before.folderLabels, label ∈ after.folderLabels
  fresh : ∀ label ∈ after.folderLabels, label ∈ before.folderLabels ∨
    label.2 = path.parent ∧ 2 ≤ path.parent.length ∧ path.parent ∉ before.folderPaths

theorem Grows.of_same
    {path : Path} {before after : Catalog} (hspaces : after.spacePaths = before.spacePaths)
    (hlabels : after.folderLabels = before.folderLabels) : Grows path before after where
  spaces := hspaces
  kept := by
    intro label hlabel
    rwa [hlabels]
  fresh := by
    intro label hlabel
    rw [hlabels] at hlabel
    exact .inl hlabel

theorem Ends.grows_attach
    {ids : Nat → String} {placement : Placement} {child : Child} {before after : Progress}
    {value : Unit} (h : Ends (Catalog.attach ids placement child) before value after) :
    Grows child.path before.catalog after.catalog := by
  rcases Ends.attach_cases h with ⟨name, -, -, hcatalog, -⟩ | ⟨hlong, hcatalog, -⟩
  · rw [hcatalog]
    exact Grows.of_same (paths_addToSpace name child before.catalog.spaces) rfl
  · have hspaces := congrArg spacePaths hcatalog
    have hlabels := (congrArg folderLabels hcatalog).trans (labels_addToFolder _ _ _)
    by_cases hpresent : child.path.parent ∈ before.catalog.folderPaths
    · rw [ensured_of_mem hpresent] at hlabels
      exact Grows.of_same hspaces hlabels
    · have hperm : List.Perm after.catalog.folderLabels
          ((ids before.synthesized, child.path.parent) :: before.catalog.folderLabels) := by
        rw [hlabels]
        exact (ensured_perm_of_not_mem hpresent).map _
      refine ⟨hspaces, ?_, ?_⟩
      · intro label hlabel
        exact hperm.mem_iff.mpr (List.mem_cons_of_mem _ hlabel)
      · intro label hlabel
        rcases List.mem_cons.mp (hperm.mem_iff.mp hlabel) with rfl | hold
        · exact .inr ⟨rfl, hlong, hpresent⟩
        · exact .inl hold

/-! ## What a repair adds -/

/-- The paths of the folders that have to be made up.  What nothing lists needs
the folder above it, and a folder that is made up is listed as little as any new
one, unless there is an entry for its path already. -/
inductive MadeUp (catalog : Catalog) : Path → Prop
  | above {path : Path} (hexists : path ∈ catalog.existingPaths)
      (hunlisted : path ∉ catalog.listedPaths) (hlong : 2 ≤ path.parent.length)
      (hmissing : path.parent ∉ catalog.folderPaths) : MadeUp catalog path.parent
  | higher {path : Path} (hbelow : MadeUp catalog path)
      (hunlisted : path ∉ catalog.listedPaths) (hlong : 2 ≤ path.parent.length)
      (hmissing : path.parent ∉ catalog.folderPaths) : MadeUp catalog path.parent

theorem MadeUp.two_le_length {catalog : Catalog} {path : Path} (h : catalog.MadeUp path) :
    2 ≤ path.length := by
  cases h with
  | above _ _ hlong _ => exact hlong
  | higher _ _ hlong _ => exact hlong

/-- The entry is that of a view of the first catalog, or of a folder of the
second. -/
def Child.IsOf (child : Child) (views folders : Catalog) : Prop :=
  (∃ id path, child = Child.view id path ∧ (id, path) ∈ views.viewLabels) ∨
    ∃ id path, child = Child.folder id path ∧ (id, path) ∈ folders.folderLabels

/-- The catalog with more folders, which are made up, and with more entries, each
for an object that nothing listed at the start. -/
structure Grown (start after : Catalog) : Prop where
  spaces : after.spacePaths = start.spacePaths
  views : after.views = start.views
  kept : ∀ label ∈ start.folderLabels, label ∈ after.folderLabels
  fresh : ∀ label ∈ after.folderLabels, label ∈ start.folderLabels ∨ start.MadeUp label.2
  listed : ∀ entry ∈ start.listings, entry ∈ after.listings
  entries : ∀ entry ∈ after.listings, entry ∈ start.listings ∨
    entry.1 = entry.2.path.parent ∧ entry.2.path ∉ start.listedPaths ∧ entry.2.IsOf start after

namespace Grown

variable {start before after : Catalog}

theorem refl (catalog : Catalog) : Grown catalog catalog where
  spaces := rfl
  views := rfl
  kept := fun _ hlabel => hlabel
  fresh := fun _ hlabel => .inl hlabel
  listed := fun _ hentry => hentry
  entries := fun _ hentry => .inl hentry

theorem mem_folderPaths (h : Grown start after) {path : Path} (hpath : path ∈ start.folderPaths) :
    path ∈ after.folderPaths := by
  obtain ⟨id, hlabel⟩ := exists_label_of_mem_folderPaths hpath
  exact mem_folderPaths_of_label (h.kept _ hlabel)

theorem mem_listedPaths (h : Grown start after) {path : Path} (hpath : path ∈ start.listedPaths) :
    path ∈ after.listedPaths := by
  obtain ⟨entry, hentry, rfl⟩ := List.mem_map.mp hpath
  exact List.mem_map_of_mem (h.listed entry hentry)

/-- A parent that is missing when the object is attached is one of those that have
to be made up. -/
theorem madeUp_parent
    (h : Grown start before) {child : Child} (horigin : child.IsOf start before)
    (hunlisted : child.path ∉ start.listedPaths) (hlong : 2 ≤ child.path.parent.length)
    (hmissing : child.path.parent ∉ before.folderPaths) : start.MadeUp child.path.parent := by
  have hstart : child.path.parent ∉ start.folderPaths := fun hmem =>
    hmissing (h.mem_folderPaths hmem)
  rcases horigin with ⟨id, path, rfl, hlabel⟩ | ⟨id, path, rfl, hlabel⟩
  · have hexists : path ∈ start.existingPaths :=
      List.mem_append_right _ (mem_viewPaths_of_label hlabel)
    exact .above hexists hunlisted hlong hstart
  · rcases h.fresh _ hlabel with hold | hmadeUp
    · have hexists : path ∈ start.existingPaths :=
        List.mem_append_left _ (mem_folderPaths_of_label hold)
      exact .above hexists hunlisted hlong hstart
    · exact .higher hmadeUp hunlisted hlong hstart

/-- One step: the object is one of the catalog, and nothing listed it at the
start. -/
theorem attach
    (h : Grown start before) {child : Child} (hattached : Attached child before after)
    (hgrows : Grows child.path before after) (horigin : child.IsOf start before)
    (hunlisted : child.path ∉ start.listedPaths) : Grown start after where
  spaces := hgrows.spaces.trans h.spaces
  views := hattached.views.trans h.views
  kept := fun label hlabel => hgrows.kept label (h.kept label hlabel)
  fresh := by
    intro label hlabel
    rcases hgrows.fresh label hlabel with hold | ⟨hpath, hlong, hmissing⟩
    · exact h.fresh label hold
    · rw [hpath]
      exact .inr (h.madeUp_parent horigin hunlisted hlong hmissing)
  listed := by
    intro entry hentry
    exact hattached.listings.mem_iff.mpr (List.mem_cons_of_mem _ (h.listed entry hentry))
  entries := by
    have hlater : ∀ other : Child, other.IsOf start before → other.IsOf start after := by
      intro other hother
      refine hother.imp id ?_
      rintro ⟨id, path, hfolder, hlabel⟩
      exact ⟨id, path, hfolder, hgrows.kept _ hlabel⟩
    intro entry hentry
    rcases List.mem_cons.mp (hattached.listings.mem_iff.mp hentry) with rfl | hold
    · exact .inr ⟨rfl, hunlisted, hlater child horigin⟩
    · refine (h.entries entry hold).imp id ?_
      rintro ⟨howner, hfresh, hof⟩
      exact ⟨howner, hfresh, hlater entry.2 hof⟩

end Grown

theorem Ends.grown_attachAll
    {ids : Nat → String} {placement : Placement} {children : List Child} {start : Catalog}
    {before after : Progress} {value : Unit}
    (h : Ends (Catalog.attachAll ids placement children) before value after)
    (hgrown : Grown start before.catalog)
    (horigins : ∀ child ∈ children, child.IsOf start before.catalog)
    (hunlisted : ∀ child ∈ children, child.path ∉ start.listedPaths) :
    Grown start after.catalog := by
  induction children generalizing before with
  | nil =>
      obtain ⟨-, rfl⟩ := Ends.pure_iff.mp h
      exact hgrown
  | cons child rest ih =>
      obtain ⟨_, middle, hfirst, hrest⟩ := Ends.bind_iff.mp h
      have hgrows := Ends.grows_attach hfirst
      have hmiddle := hgrown.attach (Ends.attach hfirst) hgrows
        (horigins child List.mem_cons_self) (hunlisted child List.mem_cons_self)
      apply ih hrest hmiddle
      · intro later hlater
        refine (horigins later (List.mem_cons_of_mem _ hlater)).imp id ?_
        rintro ⟨id, path, hfolder, hlabel⟩
        exact ⟨id, path, hfolder, hgrows.kept _ hlabel⟩
      · intro later hlater
        exact hunlisted later (List.mem_cons_of_mem _ hlater)

theorem mem_unreferencedFolders {catalog : Catalog} {label : String × Path}
    (hlabel : label ∈ catalog.unreferencedFolders) :
    label ∈ catalog.folderLabels ∧ label.2 ∉ catalog.listedPaths := by
  obtain ⟨folder, hfolder, rfl⟩ := List.mem_map.mp hlabel
  obtain ⟨hmem, hunlisted⟩ := List.mem_filter.mp hfolder
  refine ⟨List.mem_map_of_mem hmem, ?_⟩
  rw [← isReferenced_iff]
  simpa using hunlisted

theorem mem_unreferencedViews {catalog : Catalog} {label : String × Path}
    (hlabel : label ∈ catalog.unreferencedViews) :
    label ∈ catalog.viewLabels ∧ label.2 ∉ catalog.listedPaths := by
  obtain ⟨view, hview, rfl⟩ := List.mem_map.mp hlabel
  obtain ⟨hmem, hunlisted⟩ := List.mem_filter.mp hview
  refine ⟨List.mem_map_of_mem hmem, ?_⟩
  rw [← isReferenced_iff]
  simpa using hunlisted

theorem isOf_unlistedView
    {catalog : Catalog} {child : Child}
    (hchild : child ∈ catalog.unreferencedViews.map fun (id, path) => Child.view id path) :
    child.IsOf catalog catalog ∧ child.path ∉ catalog.listedPaths := by
  obtain ⟨label, hlabel, rfl⟩ := List.mem_map.mp hchild
  obtain ⟨hview, hunlisted⟩ := mem_unreferencedViews hlabel
  exact ⟨.inl ⟨label.1, label.2, rfl, hview⟩, hunlisted⟩

/-- What nothing lists now, nothing listed at the start. -/
theorem Grown.isOf_unlistedFolder
    {start catalog : Catalog} (h : Grown start catalog) {child : Child}
    (hchild : child ∈ catalog.unreferencedFolders.map fun (id, path) => Child.folder id path) :
    child.IsOf start catalog ∧ child.path ∉ start.listedPaths := by
  obtain ⟨label, hlabel, rfl⟩ := List.mem_map.mp hchild
  obtain ⟨hfolder, hunlisted⟩ := mem_unreferencedFolders hlabel
  exact ⟨.inr ⟨label.1, label.2, rfl, hfolder⟩,
    fun hlisted => hunlisted (h.mem_listedPaths hlisted)⟩

theorem Ends.grown_attachViews
    {ids : Nat → String} {before after : Progress} {value : Unit}
    (h : Ends (Catalog.attachAll ids .back
      (before.catalog.unreferencedViews.map fun (id, path) => Child.view id path))
      before value after) : Grown before.catalog after.catalog :=
  Ends.grown_attachAll h (Grown.refl before.catalog)
    (fun _ hchild => (isOf_unlistedView hchild).1) fun _ hchild => (isOf_unlistedView hchild).2

/-- One pass over the unlisted folders. -/
theorem Ends.grown_pass
    {ids : Nat → String} {start : Catalog} {before after : Progress} {value : Unit}
    (h : Ends (Catalog.attachAll ids .front
      (before.catalog.unreferencedFolders.map fun (id, path) => Child.folder id path))
      before value after) (hgrown : Grown start before.catalog) : Grown start after.catalog :=
  Ends.grown_attachAll h hgrown (fun _ hchild => (hgrown.isOf_unlistedFolder hchild).1)
    fun _ hchild => (hgrown.isOf_unlistedFolder hchild).2

/-- The repaired tree has grown from the one with merged folders and without
dangling entries. -/
theorem Ends.grown_reconcileTree
    {ids : Nat → String} {before after : Progress} {value : Unit}
    (h : Ends (Catalog.reconcileTree ids) before value after) :
    Grown before.catalog.mergeDuplicates.dropDangling after.catalog := by
  obtain ⟨-, merged, attached, hmerged, -, hviews, hfolders⟩ := Ends.reconcileTree_cases h
  rw [← hmerged]
  exact Ends.attachFolders_induction hfolders (Ends.grown_attachViews hviews)
    fun _ _ => Ends.grown_pass

/-! ## The folders of the repaired tree -/

/-- What nothing listed at the start is listed at the end in a folder above it. -/
theorem Grown.parent_mem_folderPaths
    {start after : Catalog} (h : Grown start after) {path : Path}
    (hlisted : path ∈ after.listedPaths) (hunlisted : path ∉ start.listedPaths)
    (hlong : 2 ≤ path.parent.length) : path.parent ∈ after.folderPaths := by
  obtain ⟨entry, hentry, rfl⟩ := List.mem_map.mp hlisted
  rcases h.entries entry hentry with hold | ⟨howner, -, -⟩
  · exact absurd (List.mem_map_of_mem hold) hunlisted
  · rcases mem_listings.mp hentry with ⟨space, -, hpath, -⟩ | ⟨folder, hfolder, hpath, -⟩
    · rw [← howner, ← hpath] at hlong
      simp [Space.path] at hlong
    · rw [← howner, ← hpath]
      exact List.mem_map_of_mem hfolder

/-- The folders are those of the start and the ones that have to be made up, when
all folders and views are listed at the end. -/
theorem Grown.mem_folderPaths_iff
    {start after : Catalog} (h : Grown start after)
    (hfolders : ∀ path ∈ after.folderPaths, path ∈ after.listedPaths)
    (hviews : ∀ path ∈ after.viewPaths, path ∈ after.listedPaths) {path : Path} :
    path ∈ after.folderPaths ↔ path ∈ start.folderPaths ∨ start.MadeUp path := by
  constructor
  · intro hpath
    obtain ⟨name, hlabel⟩ := exists_label_of_mem_folderPaths hpath
    exact (h.fresh _ hlabel).imp mem_folderPaths_of_label id
  · rintro (hpath | hmadeUp)
    · exact h.mem_folderPaths hpath
    · induction hmadeUp with
      | above hexists hunlisted hlong _ =>
          refine h.parent_mem_folderPaths ?_ hunlisted hlong
          rcases List.mem_append.mp hexists with hfolder | hview
          · exact hfolders _ (h.mem_folderPaths hfolder)
          · apply hviews
            rw [viewPaths, h.views]
            exact hview
      | higher _ hunlisted hlong _ ih =>
          exact h.parent_mem_folderPaths (hfolders _ ih) hunlisted hlong

/-! ## The folders and views that the repair starts from -/

/-- The tree that the repair starts from, with merged folders and without dangling
entries, has the spaces, the views and the paths of folders that pruning leaves. -/
theorem mergedPaths (catalog : Catalog) :
    catalog.mergeDuplicates.dropDangling.spacePaths = catalog.spacePaths ∧
      (∀ path, path ∈ catalog.mergeDuplicates.dropDangling.folderPaths ↔
        path ∈ catalog.folderPaths) ∧
      catalog.mergeDuplicates.dropDangling.views = catalog.views := by
  refine ⟨?_, ?_, rfl⟩
  · simp [mergeDuplicates, dropDangling, spacePaths, Space.path, Function.comp_def]
  · intro path
    rw [folderPaths_dropDangling]
    exact mem_folderPaths_mergeDuplicates

theorem labels_mergeFolder (merged : List Folder) (folder : Folder) :
    ∀ label ∈ (mergeFolder merged folder).map (fun folder => (folder.id, folder.path)),
      label ∈ merged.map (fun folder => (folder.id, folder.path)) ∨
        label = (folder.id, folder.path) := by
  induction merged with
  | nil =>
      intro label hlabel
      exact .inr (List.mem_singleton.mp hlabel)
  | cons first rest ih =>
      intro label hlabel
      unfold mergeFolder at hlabel
      split at hlabel
      · exact .inl hlabel
      · rcases List.mem_cons.mp hlabel with rfl | hrest
        · exact .inl List.mem_cons_self
        · exact (ih label hrest).imp (List.mem_cons_of_mem _) id

theorem labels_foldl_mergeFolder (merged folders : List Folder) :
    ∀ label ∈ (folders.foldl mergeFolder merged).map (fun folder => (folder.id, folder.path)),
      label ∈ (merged ++ folders).map fun folder => (folder.id, folder.path) := by
  induction folders generalizing merged with
  | nil =>
      intro label hlabel
      rwa [List.append_nil]
  | cons folder rest ih =>
      intro label hlabel
      have hlater := ih (mergeFolder merged folder) label hlabel
      rw [List.map_append, List.mem_append] at hlater ⊢
      rw [List.map_cons, List.mem_cons]
      rcases hlater with hmerged | hrest
      · exact (labels_mergeFolder merged folder label hmerged).imp id .inl
      · exact .inr (.inr hrest)

/-- Every folder that is left by merging and dropping was there before. -/
theorem mem_folderLabels_of_merged {catalog : Catalog} {label : String × Path}
    (hlabel : label ∈ catalog.mergeDuplicates.dropDangling.folderLabels) :
    label ∈ catalog.folderLabels := by
  have hsame : catalog.mergeDuplicates.dropDangling.folderLabels =
      catalog.mergeDuplicates.folderLabels := by
    simp [dropDangling, folderLabels, Function.comp_def]
  rw [hsame] at hlabel
  exact labels_foldl_mergeFolder [] catalog.folders label hlabel

end Relocate.Catalog
