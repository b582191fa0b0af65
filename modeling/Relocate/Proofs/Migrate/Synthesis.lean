import Relocate.Proofs.Migrate.Refusals

/-!
# Which folders are made up, and what stays

`outline` is a catalog without its listings.  Attaching changes an outline by
folders that are made up and by nothing else, and which ones these are depends on
paths alone: `missingParents` are the folders that are missing right above some
objects, and `missingAncestors` those that the passes over unlisted folders make
up, each in the order of the work.  So the outline of a repaired tree is computed
from the one that the repair starts from (`Ends.synthesizes_reconcileTree`).

A repaired tree has all folders above its objects, since each object is listed in
its parent; and nothing else was made up.  This is
`reconcile_synthesizes_ancestors`.
-/

namespace Relocate.Catalog

/-! ## Catalogs without their listings -/

/-- The space without its listings. -/
def Space.bare (space : Space) : Space :=
  { space with children := [] }

/-- The folder without its listings. -/
def Folder.bare (folder : Folder) : Folder :=
  { folder with children := [] }

/-- The catalog without its listings. -/
def outline (catalog : Catalog) : Catalog :=
  { catalog with
    spaces := catalog.spaces.map Space.bare
    folders := catalog.folders.map Folder.bare }

theorem folderPaths_outline (catalog : Catalog) :
    catalog.outline.folderPaths = catalog.folderPaths := by
  simp [outline, folderPaths, Folder.bare, Function.comp_def]

theorem outline_addToFolder
    (catalog : Catalog) (path : Path) (child : Child) :
    ({ catalog with folders := addToFolder path child catalog.folders } : Catalog).outline =
      catalog.outline := by
  have hfolders := @map_addToFolder _ Folder.bare (fun _ _ => rfl) path child catalog.folders
  simp only [outline, hfolders]

theorem outline_addToSpace
    (catalog : Catalog) (name : String) (child : Child) :
    ({ catalog with spaces := addToSpace name child catalog.spaces } : Catalog).outline =
      catalog.outline := by
  have hspaces := @map_addToSpace _ Space.bare (fun _ _ => rfl) name child catalog.spaces
  simp only [outline, hspaces]

theorem outline_dropDangling (catalog : Catalog) :
    catalog.dropDangling.outline = catalog.outline := by
  simp [dropDangling, outline, Space.bare, Folder.bare, Function.comp_def]

/-! ## Folders that are missing -/

theorem Placement.add_nil {α : Type} (placement : Placement) (old : List α) :
    placement.add old [] = old := by
  cases placement <;> simp [add]

theorem Placement.add_add {α : Type} (placement : Placement) (old new more : List α) :
    placement.add (placement.add old new) more = placement.add old (new ++ more) := by
  cases placement <;> simp [add]

theorem Placement.mem_add {α : Type} {placement : Placement} {old new : List α} {object : α} :
    object ∈ placement.add old new ↔ object ∈ new ∨ object ∈ old := by
  cases placement <;> simp [add, or_comm]

/-- The parent of the path, if it is a folder and is not present. -/
def missingParent (present : List Path) (path : Path) : List Path :=
  if 2 ≤ path.parent.length ∧ path.parent ∉ present then [path.parent] else []

/-- The parents of the paths that are folders and are not present, each once. -/
def missingParents (present : List Path) : List Path → List Path
  | [] => []
  | path :: rest =>
    missingParent present path ++ missingParents (missingParent present path ++ present) rest

/-- The folders that so many passes make up above those that nothing lists. -/
def missingAncestors (listed : List Path) : Nat → List Path → List Path
  | 0, _ => []
  | passes + 1, present =>
    let orphans := present.filter fun path => !listed.contains path
    let missing := missingParents present orphans
    missing ++ missingAncestors (orphans ++ listed) passes (Placement.front.add present missing)

/-- Only what is present matters, and not where. -/
theorem missingParents_congr
    {present other : List Path} (hsame : ∀ path, path ∈ present ↔ path ∈ other)
    (paths : List Path) : missingParents present paths = missingParents other paths := by
  induction paths generalizing present other with
  | nil => rfl
  | cons path rest ih =>
      have hfirst : missingParent present path = missingParent other path := by
        simp only [missingParent, hsame]
      have hmore : ∀ later, later ∈ missingParent other path ++ present ↔
          later ∈ missingParent other path ++ other := by
        intro later
        rw [List.mem_append, List.mem_append, hsame]
      rw [missingParents, missingParents, hfirst, ih hmore]

theorem mem_missingParent {present : List Path} {path gap : Path} :
    gap ∈ missingParent present path ↔ path.parent = gap ∧ 2 ≤ gap.length ∧ gap ∉ present := by
  by_cases hmissing : 2 ≤ path.parent.length ∧ path.parent ∉ present
  · rw [missingParent, if_pos hmissing, List.mem_singleton]
    constructor
    · rintro rfl
      exact ⟨rfl, hmissing⟩
    · rintro ⟨rfl, -⟩
      rfl
  · rw [missingParent, if_neg hmissing]
    constructor
    · intro hgap
      cases hgap
    · rintro ⟨rfl, hgap⟩
      exact absurd hgap hmissing

/-- The missing parents are the parents that are missing, whatever the order of the
work. -/
theorem mem_missingParents {present paths : List Path} {gap : Path} :
    gap ∈ missingParents present paths ↔
      (∃ path ∈ paths, path.parent = gap) ∧ 2 ≤ gap.length ∧ gap ∉ present := by
  induction paths generalizing present with
  | nil => simp [missingParents]
  | cons path rest ih =>
      rw [missingParents, List.mem_append, ih, List.mem_append, mem_missingParent,
        List.exists_mem_cons_iff]
      tauto

/-- Only what is listed matters, and not where. -/
theorem missingAncestors_congr
    {listed other : List Path} (hsame : ∀ path, path ∈ listed ↔ path ∈ other)
    (passes : Nat) (present : List Path) :
    missingAncestors listed passes present = missingAncestors other passes present := by
  induction passes generalizing listed other present with
  | zero => rfl
  | succ passes ih =>
      have horphans : (present.filter fun path => !listed.contains path) =
          present.filter fun path => !other.contains path := by
        apply List.filter_congr
        intro path _
        rw [Bool.eq_iff_iff]
        simp [hsame]
      have hmore : ∀ path, path ∈ present.filter (fun path => !other.contains path) ++ listed ↔
          path ∈ present.filter (fun path => !other.contains path) ++ other := by
        intro path
        rw [List.mem_append, List.mem_append, hsame]
      simp only [missingAncestors, horphans, ih hmore]

/-- When all that is present is listed, nothing is missing. -/
theorem missingAncestors_of_listed
    {listed present : List Path} (hlisted : ∀ path ∈ present, path ∈ listed) (passes : Nat) :
    missingAncestors listed passes present = [] := by
  induction passes with
  | zero => rfl
  | succ passes ih =>
      have horphans : (present.filter fun path => !listed.contains path) = [] := by
        rw [List.filter_eq_nil_iff]
        intro path hpath
        simp [hlisted path hpath]
      simp only [missingAncestors, horphans, missingParents, Placement.add_nil]
      exact ih

/-- Folders made up at the paths, with the ids of the supply from a number on. -/
def synthesizedAt (ids : Nat → String) (start : Nat) : List Path → List Folder
  | [] => []
  | path :: rest => Folder.synthesized (ids start) path :: synthesizedAt ids (start + 1) rest

theorem synthesizedAt_append (ids : Nat → String) (start : Nat) (paths more : List Path) :
    synthesizedAt ids start (paths ++ more) =
      synthesizedAt ids start paths ++ synthesizedAt ids (start + paths.length) more := by
  induction paths generalizing start with
  | nil => rfl
  | cons path rest ih =>
      have hlength : start + 1 + rest.length = start + (path :: rest).length := by
        rw [List.length_cons]
        omega
      rw [List.cons_append, synthesizedAt, synthesizedAt, ih, hlength, List.cons_append]

theorem paths_synthesizedAt (ids : Nat → String) (start : Nat) (paths : List Path) :
    (synthesizedAt ids start paths).map Folder.path = paths := by
  induction paths generalizing start with
  | nil => rfl
  | cons path rest ih =>
      rw [synthesizedAt, List.map_cons, ih]
      rfl

theorem exists_of_mem_synthesizedAt
    {ids : Nat → String} {start : Nat} {paths : List Path} {folder : Folder}
    (hfolder : folder ∈ synthesizedAt ids start paths) :
    ∃ index, start ≤ index ∧ index < start + paths.length ∧
      folder = Folder.synthesized (ids index) folder.path := by
  induction paths generalizing start with
  | nil => cases hfolder
  | cons path rest ih =>
      rw [List.length_cons]
      rcases List.mem_cons.mp hfolder with rfl | hrest
      · exact ⟨start, by omega, by omega, rfl⟩
      · obtain ⟨index, hstart, hend, heq⟩ := ih hrest
        exact ⟨index, by omega, by omega, heq⟩

/-! ## One step, one pass, all passes -/

/-- Folders were made up at the paths, and else only listings have changed. -/
structure Synthesizes (ids : Nat → String) (placement : Placement) (paths : List Path)
    (before after : Progress) : Prop where
  outline : after.catalog.outline = { before.catalog.outline with
    folders := placement.add before.catalog.outline.folders
      (synthesizedAt ids before.synthesized paths) }
  synthesized : after.synthesized = before.synthesized + paths.length

namespace Synthesizes

variable {ids : Nat → String} {placement : Placement} {before middle after : Progress}
variable {paths more : List Path}

theorem of_outline_eq
    (houtline : after.catalog.outline = before.catalog.outline)
    (hsynthesized : after.synthesized = before.synthesized) :
    Synthesizes ids placement [] before after where
  outline := by rw [houtline, synthesizedAt, Placement.add_nil]
  synthesized := hsynthesized

theorem trans
    (hfirst : Synthesizes ids placement paths before middle)
    (hnext : Synthesizes ids placement more middle after) :
    Synthesizes ids placement (paths ++ more) before after where
  outline := by
    rw [hnext.outline, hfirst.outline, hfirst.synthesized, Placement.add_add,
      synthesizedAt_append]
  synthesized := by
    rw [hnext.synthesized, hfirst.synthesized, List.length_append, Nat.add_assoc]

theorem folderPaths (h : Synthesizes ids placement paths before after) :
    after.catalog.folderPaths = placement.add before.catalog.folderPaths paths := by
  have hfolders := congrArg Catalog.folders h.outline
  have hpaths := congrArg (List.map Folder.path) hfolders
  rw [Placement.map_add, paths_synthesizedAt] at hpaths
  rw [← folderPaths_outline after.catalog, ← folderPaths_outline before.catalog]
  exact hpaths

end Synthesizes

/-- One object is attached: its parent is made up if it is a missing folder. -/
theorem Ends.synthesizes_attach
    {ids : Nat → String} {placement : Placement} {child : Child} {before after : Progress}
    {value : Unit} (h : Ends (Catalog.attach ids placement child) before value after) :
    Synthesizes ids placement (missingParent before.catalog.folderPaths child.path) before
      after := by
  rcases Ends.attach_cases h with
    ⟨name, hparent, -, hcatalog, hsynthesized⟩ | ⟨hlong, hcatalog, hsynthesized⟩
  · have hnothing : missingParent before.catalog.folderPaths child.path = [] := by
      refine if_neg fun hboth => ?_
      simp [hparent] at hboth
    rw [hnothing]
    refine .of_outline_eq ?_ hsynthesized
    rw [hcatalog]
    exact outline_addToSpace _ _ _
  · have houtline := (congrArg outline hcatalog).trans (outline_addToFolder { before.catalog with
      folders := ensured placement (ids before.synthesized) child.path.parent
        before.catalog.folders } _ _)
    by_cases hpresent : child.path.parent ∈ before.catalog.folderPaths
    · have hnothing : missingParent before.catalog.folderPaths child.path = [] :=
        if_neg fun hboth => hboth.2 hpresent
      rw [hnothing]
      rw [ensured_of_mem hpresent] at houtline
      rw [if_pos hpresent] at hsynthesized
      exact .of_outline_eq houtline hsynthesized
    · have hgap : missingParent before.catalog.folderPaths child.path = [child.path.parent] :=
        if_pos ⟨hlong, hpresent⟩
      rw [hgap]
      rw [if_neg hpresent] at hsynthesized
      refine ⟨?_, hsynthesized⟩
      rw [houtline, ensured_of_not_mem hpresent, outline, Placement.map_add]
      rfl

theorem Ends.synthesizes_attachAll
    {ids : Nat → String} {placement : Placement} {children : List Child}
    {before after : Progress} {value : Unit}
    (h : Ends (Catalog.attachAll ids placement children) before value after) :
    Synthesizes ids placement
      (missingParents before.catalog.folderPaths (children.map Child.path)) before after := by
  induction children generalizing before with
  | nil =>
      obtain ⟨-, rfl⟩ := Ends.pure_iff.mp h
      exact Synthesizes.of_outline_eq rfl rfl
  | cons child rest ih =>
      obtain ⟨_, middle, hfirst, hrest⟩ := Ends.bind_iff.mp h
      have hattached := Ends.synthesizes_attach hfirst
      have hpresent : ∀ path, path ∈ middle.catalog.folderPaths ↔
          path ∈ missingParent before.catalog.folderPaths child.path ++
            before.catalog.folderPaths := by
        intro path
        rw [hattached.folderPaths, Placement.mem_add, List.mem_append]
      have hmore := ih hrest
      rw [missingParents_congr hpresent] at hmore
      exact hattached.trans hmore

/-- The folders that nothing lists are found by their paths. -/
theorem paths_orphans (catalog : Catalog) :
    catalog.unreferencedFolders.map Prod.snd =
      catalog.folderPaths.filter fun path => !catalog.listedPaths.contains path := by
  rw [paths_unreferencedFolders]
  apply List.filter_congr
  intro path _
  rw [Bool.eq_iff_iff]
  simp [← isReferenced_iff]

theorem Ends.synthesizes_attachFolders
    {ids : Nat → String} {passes : Nat} {before after : Progress} {value : Unit}
    (h : Ends (Catalog.attachFolders ids passes) before value after) :
    Synthesizes ids .front
      (missingAncestors before.catalog.listedPaths passes before.catalog.folderPaths) before
      after := by
  induction passes generalizing before with
  | zero =>
      obtain ⟨-, rfl⟩ := Ends.pure_iff.mp h
      exact Synthesizes.of_outline_eq rfl rfl
  | succ passes ih =>
      rcases Ends.attachFolders_cases h with
        ⟨hnone, rfl⟩ | ⟨told, middle, htoldCatalog, hsame, hall, hrest⟩
      · have hlisted : ∀ path ∈ after.catalog.folderPaths, path ∈ after.catalog.listedPaths := by
          intro path hfolder
          by_contra hunlisted
          have hmem := mem_filter_unreferenced.mpr ⟨hfolder, hunlisted⟩
          rw [← paths_unreferencedFolders, hnone] at hmem
          cases hmem
        rw [missingAncestors_of_listed hlisted]
        exact Synthesizes.of_outline_eq rfl rfl
      · have htold : Synthesizes ids .front [] before told :=
          .of_outline_eq (congrArg outline htoldCatalog) hsame
        have hfirst := Ends.synthesizes_attachAll hall
        have halso := (Ends.attachAll hall).listed
        have hmore := ih hrest
        rw [paths_map_folder, htoldCatalog, paths_orphans] at hfirst halso
        rw [missingAncestors_congr fun path => halso.mem_iff, hfirst.folderPaths,
          htoldCatalog] at hmore
        exact htold.trans (hfirst.trans hmore)

/-! ## The repaired tree -/

/-- The length of the longest path. -/
def longest (paths : List Path) : Nat :=
  paths.foldl (fun length path => max length path.length) 0

theorem maxFolderLength_eq (catalog : Catalog) :
    catalog.maxFolderLength = longest catalog.folderPaths := by
  rw [maxFolderLength, longest, folderPaths, List.foldl_map]

/-- The paths of the views that nothing lists. -/
def unlistedViews (catalog : Catalog) : List Path :=
  catalog.unreferencedViews.map Prod.snd

/-- The folders that are made up right above unlisted views, in order. -/
def viewGaps (catalog : Catalog) : List Path :=
  missingParents catalog.folderPaths catalog.unlistedViews

/-- The folders that are then made up above unlisted folders, in order. -/
def folderGaps (catalog : Catalog) : List Path :=
  missingAncestors (catalog.unlistedViews ++ catalog.listedPaths)
    (longest (catalog.folderPaths ++ catalog.viewGaps) + 1)
    (catalog.folderPaths ++ catalog.viewGaps)

/-- The repair makes up the folders above unlisted views at the back, and then the
folders above unlisted folders in front. -/
theorem Ends.synthesizes_reconcileTree
    {ids : Nat → String} {before after : Progress} {value : Unit}
    (h : Ends (Catalog.reconcileTree ids) before value after) :
    ∃ merged attached : Progress,
      merged.catalog = before.catalog.mergeDuplicates.dropDangling ∧
      merged.synthesized = before.synthesized ∧
      Synthesizes ids .back merged.catalog.viewGaps merged attached ∧
      Synthesizes ids .front merged.catalog.folderGaps attached after := by
  obtain ⟨-, merged, attached, hmerged, hsame, hviews, hfolders⟩ := Ends.reconcileTree_cases h
  have hback := Ends.synthesizes_attachAll hviews
  have halso := (Ends.attachAll hviews).listed
  have hfront := Ends.synthesizes_attachFolders hfolders
  rw [paths_map_view] at hback halso
  rw [maxFolderLength_eq, missingAncestors_congr fun path => halso.mem_iff, hback.folderPaths]
    at hfront
  exact ⟨merged, attached, hmerged, hsame, hback, hfront⟩

/-- The folders of the repaired tree, in order. -/
theorem folderPaths_of_reconcile
    {ids : Nat → String} {catalog final : Catalog} {count : Nat}
    (h : (catalog.reconcile ids).result = .ok (final, count)) :
    final.folderPaths = catalog.mergeDuplicates.dropDangling.folderGaps.reverse ++
      (catalog.mergeDuplicates.dropDangling.folderPaths ++
        catalog.mergeDuplicates.dropDangling.viewGaps) := by
  obtain ⟨log, hends⟩ := reconcile_eq_ok_iff.mp h
  obtain ⟨merged, attached, hmerged, -, hback, hfront⟩ := Ends.synthesizes_reconcileTree hends
  have hpaths := hfront.folderPaths
  rw [hback.folderPaths, hmerged] at hpaths
  exact hpaths

/-- In the repaired tree there are made up folders, and those of the start. -/
theorem mem_folders_of_reconcile
    {ids : Nat → String} {catalog final : Catalog} {count : Nat}
    (h : (catalog.reconcile ids).result = .ok (final, count)) :
    count = catalog.mergeDuplicates.dropDangling.viewGaps.length +
        catalog.mergeDuplicates.dropDangling.folderGaps.length ∧
      { final.outline with folders := [] } = { catalog.outline with folders := [] } ∧
      ∀ folder, folder ∈ final.outline.folders ↔
        folder ∈ synthesizedAt ids catalog.mergeDuplicates.dropDangling.viewGaps.length
            catalog.mergeDuplicates.dropDangling.folderGaps ∨
          folder ∈ synthesizedAt ids 0 catalog.mergeDuplicates.dropDangling.viewGaps ∨
          folder ∈ catalog.mergeDuplicates.outline.folders := by
  obtain ⟨log, hends⟩ := reconcile_eq_ok_iff.mp h
  obtain ⟨merged, attached, hmerged, hstart, hback, hfront⟩ := Ends.synthesizes_reconcileTree hends
  have hattached := hback.synthesized
  have hcount := hfront.synthesized
  have hmiddle := hback.outline
  have hoverall := hfront.outline
  simp only [hattached, hmiddle, hstart, hmerged, outline_dropDangling, Nat.zero_add] at *
  refine ⟨hcount, ?_, ?_⟩
  · rw [hoverall]
    rfl
  · intro folder
    rw [hoverall, Placement.mem_add, Placement.mem_add]

/-! ## All folders above an object -/

/-- What is above an object is a folder when all objects are listed in their
parents. -/
theorem Housed.mem_folderPaths_of_prefix
    {catalog : Catalog} (hhoused : catalog.Housed)
    (hlisted : ∀ path ∈ catalog.existingPaths, path ∈ catalog.listedPaths)
    {path below : Path} (hbelow : below ∈ catalog.existingPaths) (hstarts : path <+: below)
    (hne : path ≠ below) (hlong : 2 ≤ path.length) : path ∈ catalog.folderPaths := by
  induction hlength : below.length using Nat.strongRecOn generalizing below with
  | ind length ih =>
      have habove : path <+: below.parent := Path.prefix_parent hstarts hne
      obtain ⟨owner, child, hentry, rfl⟩ := mem_listedPaths.mp (hlisted below hbelow)
      have howner : child.path.parent = owner := hhoused.owned _ hentry
      have hparent : child.path.parent ∈ catalog.folderPaths := by
        rw [howner]
        rcases mem_listings.mp hentry with ⟨space, -, hpath, -⟩ | ⟨folder, hfolder, hpath, -⟩
        · have hshort := habove.length_le
          rw [howner, ← hpath, Space.path, List.length_singleton] at hshort
          omega
        · exact hpath ▸ List.mem_map_of_mem hfolder
      by_cases hsame : path = child.path.parent
      · rw [hsame]
        exact hparent
      · have hshorter : child.path.parent.length < length := by
          rw [← hlength]
          apply Path.length_parent_lt
          intro hnil
          rw [hnil, List.prefix_nil] at habove
          simp [habove] at hlong
        exact ih _ hshorter (mem_existingPaths.mpr (.inl hparent)) habove hsame rfl

/-! ## The first folder at each path -/

/-- Merging keeps the first folder at a path, whatever it lists. -/
theorem find?_mergeFolder (merged : List Folder) (folder : Folder) (path : Path) :
    ((mergeFolder merged folder).find? fun first => first.path == path).map Folder.bare =
      ((merged ++ [folder]).find? fun first => first.path == path).map Folder.bare := by
  induction merged with
  | nil => rfl
  | cons first rest ih =>
      rw [mergeFolder, List.cons_append]
      by_cases hsame : first.path = folder.path
      · rw [if_pos hsame]
        by_cases hpath : first.path = path
        · have hfound : (first.path == path) = true := beq_iff_eq.mpr hpath
          simp only [List.find?_cons, hfound, Option.map_some]
          rfl
        · have hmissed : (first.path == path) = false := beq_eq_false_iff_ne.mpr hpath
          have hlast : (folder.path == path) = false := hsame ▸ hmissed
          simp [hmissed, hlast, List.find?_append]
      · rw [if_neg hsame]
        by_cases hpath : first.path = path
        · have hfound : (first.path == path) = true := beq_iff_eq.mpr hpath
          simp only [List.find?_cons, hfound]
        · have hmissed : (first.path == path) = false := beq_eq_false_iff_ne.mpr hpath
          simp only [List.find?_cons, hmissed]
          exact ih

theorem find?_foldl_mergeFolder (merged folders : List Folder) (path : Path) :
    ((folders.foldl mergeFolder merged).find? fun first => first.path == path).map Folder.bare =
      ((merged ++ folders).find? fun first => first.path == path).map Folder.bare := by
  induction folders generalizing merged with
  | nil => rw [List.foldl_nil, List.append_nil]
  | cons folder rest ih =>
      rw [List.foldl_cons, ih, List.append_cons, List.find?_append, List.find?_append,
        Option.map_or, Option.map_or, find?_mergeFolder]

/-- The first folder at a path is kept with all but its listings. -/
theorem bare_mem_outline_mergeDuplicates
    {catalog : Catalog} {path : Path} {folder : Folder}
    (hfirst : catalog.folders.find? (fun first => first.path == path) = some folder) :
    folder.bare ∈ catalog.mergeDuplicates.outline.folders := by
  have hmerged := find?_foldl_mergeFolder [] catalog.folders path
  rw [List.nil_append, hfirst, Option.map_some] at hmerged
  obtain ⟨kept, hkept, hbare⟩ := Option.map_eq_some_iff.mp hmerged
  exact List.mem_map.mpr ⟨kept, List.mem_of_find?_eq_some hkept, hbare⟩

/-! ## Exactly the missing ancestors -/

/-- The folders of the repaired tree are those of the input and what is above a
folder or a view. -/
theorem Housed.mem_folderPaths_reconcile
    {ids : Nat → String} {catalog final : Catalog} {count : Nat} (hhoused : catalog.Housed)
    (h : (catalog.reconcile ids).result = .ok (final, count)) (path : Path) :
    path ∈ final.folderPaths ↔
      path ∈ catalog.folderPaths ∨ 2 ≤ path.length ∧
        ∃ below, (below ∈ catalog.folderPaths ∨ below ∈ catalog.viewPaths) ∧
          path <+: below ∧ path ≠ below := by
  have hrepaired := Repaired.of_reconcile h
  obtain ⟨after, hends, rfl⟩ := ends_of_reconcile h
  have hgrown := Ends.grown_reconcileTree hends
  obtain ⟨-, hstart, hviews⟩ := mergedPaths catalog
  constructor
  · intro hpath
    rw [hgrown.mem_folderPaths_iff hrepaired.folders_listed hrepaired.views_listed, hstart] at hpath
    refine hpath.imp id fun hmadeUp => ⟨hmadeUp.two_le_length, ?_⟩
    obtain ⟨below, hbelow, hstarts, hshorter⟩ := hmadeUp.lies_above
    rw [mem_existingPaths, hstart, viewPaths, hviews] at hbelow
    refine ⟨below, hbelow, hstarts, ?_⟩
    rintro rfl
    exact absurd hshorter (Nat.lt_irrefl _)
  · rintro (hfolder | ⟨hlong, below, hbelow, hstarts, hne⟩)
    · exact hgrown.mem_folderPaths ((hstart path).mpr hfolder)
    · have hfinal : after.catalog.Housed := hgrown.housed hhoused.of_merged
      refine hfinal.mem_folderPaths_of_prefix ?_ ?_ hstarts hne hlong
      · intro other hother
        rcases mem_existingPaths.mp hother with hfolder | hview
        · exact hrepaired.folders_listed other hfolder
        · exact hrepaired.views_listed other hview
      · rw [mem_existingPaths, viewPaths, Ends.views_reconcileTree hends]
        exact hbelow.imp (fun hfolder => hgrown.mem_folderPaths ((hstart below).mpr hfolder)) id

/-- What is made up was no folder of the input. -/
theorem not_mem_of_gap
    {ids : Nat → String} {catalog final : Catalog} {count : Nat}
    (h : (catalog.reconcile ids).result = .ok (final, count)) {path : Path}
    (hgap : path ∈ catalog.mergeDuplicates.dropDangling.viewGaps ∨
      path ∈ catalog.mergeDuplicates.dropDangling.folderGaps) :
    path ∉ catalog.folderPaths := by
  have hnodup := (Repaired.of_reconcile h).distinct
  rw [folderPaths_of_reconcile h, List.nodup_append', List.nodup_append'] at hnodup
  obtain ⟨-, ⟨-, -, hviewGaps⟩, hfolderGaps⟩ := hnodup
  rw [← (mergedPaths catalog).2.1]
  intro hpath
  rcases hgap with hview | hfolder
  · exact hviewGaps hpath hview
  · exact hfolderGaps (List.mem_reverse.mpr hfolder) (List.mem_append_left _ hpath)

/-- When every entry is in the parent of what it lists and every folder has a
path, the folders of a repaired tree are those of the input and all that are above
a folder or a view, one for each path.  The count is the number of new ones.  The
first folder of the input at each path is kept with all but its listings, a new
folder is made up with an id of the supply, and nothing else has changed but the
listings. -/
theorem reconcile_synthesizes_ancestors
    (ids : Nat → String) {catalog final : Catalog} {count : Nat} (hhoused : catalog.Housed)
    (h : (catalog.reconcile ids).result = .ok (final, count)) :
    (final.folderPaths.Nodup ∧ ∀ path, path ∈ final.folderPaths ↔
      path ∈ catalog.folderPaths ∨ 2 ≤ path.length ∧
        ∃ below, (below ∈ catalog.folderPaths ∨ below ∈ catalog.viewPaths) ∧
          path <+: below ∧ path ≠ below) ∧
    final.folderPaths.countP (fun path => path ∉ catalog.folderPaths) = count ∧
    (∀ path folder, catalog.folders.find? (fun first => first.path == path) = some folder →
      ∃ kept ∈ final.folders, kept.bare = folder.bare) ∧
    (∀ folder ∈ final.folders, folder.path ∉ catalog.folderPaths →
      ∃ index < count, folder.bare = Folder.synthesized (ids index) folder.path) ∧
    { final.outline with folders := [] } = { catalog.outline with folders := [] } := by
  obtain ⟨hcount, hframe, hfolders⟩ := mem_folders_of_reconcile h
  refine ⟨⟨(Repaired.of_reconcile h).distinct, hhoused.mem_folderPaths_reconcile h⟩,
    ?_, ?_, ?_, hframe⟩
  · have hold : catalog.mergeDuplicates.dropDangling.folderPaths.countP
        (fun path => path ∉ catalog.folderPaths) = 0 := by
      rw [List.countP_eq_zero]
      intro path hpath
      simpa using (mergedPaths catalog).2.1 path |>.mp hpath
    have hviewGaps : catalog.mergeDuplicates.dropDangling.viewGaps.countP
        (fun path => path ∉ catalog.folderPaths) =
          catalog.mergeDuplicates.dropDangling.viewGaps.length := by
      rw [List.countP_eq_length]
      intro path hpath
      exact decide_eq_true (not_mem_of_gap h (.inl hpath))
    have hfolderGaps : catalog.mergeDuplicates.dropDangling.folderGaps.countP
        (fun path => path ∉ catalog.folderPaths) =
          catalog.mergeDuplicates.dropDangling.folderGaps.length := by
      rw [List.countP_eq_length]
      intro path hpath
      exact decide_eq_true (not_mem_of_gap h (.inr hpath))
    rw [folderPaths_of_reconcile h, List.countP_append, List.countP_append, List.countP_reverse,
      hold, hviewGaps, hfolderGaps, hcount]
    omega
  · intro path folder hfirst
    have hkept := (hfolders folder.bare).mpr (.inr (.inr (bare_mem_outline_mergeDuplicates hfirst)))
    exact List.mem_map.mp hkept
  · intro folder hfolder hfresh
    rcases (hfolders folder.bare).mp (List.mem_map_of_mem hfolder) with hgap | hgap | hold
    · obtain ⟨index, -, hlast, hmadeUp⟩ := exists_of_mem_synthesizedAt hgap
      exact ⟨index, by omega, hmadeUp⟩
    · obtain ⟨index, -, hlast, hmadeUp⟩ := exists_of_mem_synthesizedAt hgap
      exact ⟨index, by omega, hmadeUp⟩
    · have hpath := List.mem_map_of_mem (f := Folder.path) hold
      exact absurd (mem_folderPaths_mergeDuplicates.mp (folderPaths_outline _ ▸ hpath)) hfresh

/-- A folder and a view that nothing lists, far below their space. -/
def scattered : Catalog := { empty with
  spaces := [⟨"prod", "Prod", [], []⟩]
  folders := [⟨"trials", ["Prod", "Lab", "Trials"], [], some "folder", none, []⟩]
  views := [⟨"orders", ["Prod", "EU", "Sales", "Orders"], "SELECT 1", none, [], none⟩] }

/-- The three folders above the scattered objects are made up, and the one that
there was keeps its id and its type. -/
theorem scattered_synthesizes_three :
    scattered.Housed ∧ ∃ final,
      (scattered.reconcile (FolderId.supply 0)).result = .ok (final, 3) ∧
      ["Prod", "EU"] ∈ final.folderPaths ∧ ["Prod", "EU", "Sales"] ∈ final.folderPaths ∧
      ["Prod", "Lab"] ∈ final.folderPaths ∧
      final.folderPaths.countP (fun path => path ∉ scattered.folderPaths) = 3 ∧
      ∃ kept ∈ final.folders,
        kept.bare = ⟨"trials", ["Prod", "Lab", "Trials"], [], some "folder", none, []⟩ := by
  have hhoused : scattered.Housed := ⟨by decide, by decide⟩
  refine ⟨hhoused, _, rfl, ?_⟩
  obtain ⟨⟨-, hpaths⟩, hcount, hkept, -⟩ := @reconcile_synthesizes_ancestors (FolderId.supply 0)
    scattered _ _ hhoused rfl
  refine ⟨?_, ?_, ?_, hcount, hkept ["Prod", "Lab", "Trials"] _ rfl⟩
  · exact (hpaths _).mpr (.inr ⟨by decide, _, .inr List.mem_cons_self, by decide, by decide⟩)
  · exact (hpaths _).mpr (.inr ⟨by decide, _, .inr List.mem_cons_self, by decide, by decide⟩)
  · exact (hpaths _).mpr (.inr ⟨by decide, _, .inl List.mem_cons_self, by decide, by decide⟩)

end Relocate.Catalog
