import Mathlib.Data.List.Induction
import Relocate.Proofs.Migrate.Merge

/-!
# What folders at one path become

Folders are merged one after the other: each is put into the folder at its path that
is there already, whose children may come from earlier ones, or goes to the end.  Here
the result is said without the order of the steps.  For each path there is the first
folder at it, with its own children and then those of all later ones together that are
not listed yet: `mergeDuplicates_unites`.
-/

namespace Relocate.Catalog

/-! ## Children -/

/-- Of more children those whose paths are not among the first children, each path
where it comes first. -/
def additions (children more : List Child) : List Child :=
  (more.filter fun child => !lists children child.path).eraseDupsBy fun later earlier =>
    later.path == earlier.path

theorem lists_append (front back : List Child) (path : Path) :
    lists (front ++ back) path = (lists front path || lists back path) :=
  List.any_append

theorem mergeChildren_append (children front back : List Child) :
    mergeChildren children (front ++ back) =
      mergeChildren (mergeChildren children front) back := by
  induction front generalizing children with
  | nil => rfl
  | cons child front ih => exact ih _

/-- A child that is not listed bars its path for those that follow. -/
theorem additions_cons
    {children : List Child} {child : Child} (hfresh : lists children child.path = false)
    (rest : List Child) :
    additions children (child :: rest) = child :: additions (children ++ [child]) rest := by
  have hbarred : ∀ later : Child,
      (decide ((later.path == child.path) = false) && !lists children later.path) =
        !lists (children ++ [child]) later.path := by
    intro later
    rw [lists_append, Bool.not_or, Bool.and_comm]
    by_cases hpath : later.path = child.path
    · simp [lists, hpath]
    · have hother : ¬ child.path = later.path := fun heq => hpath heq.symm
      simp [lists, hpath, hother]
  unfold additions
  rw [List.filter_cons_of_pos (by simp [hfresh]), List.eraseDupsBy_cons, List.filter_filter]
  simp only [hbarred]

theorem mergeChildren_eq (children more : List Child) :
    mergeChildren children more = children ++ additions children more := by
  induction more generalizing children with
  | nil => simp [mergeChildren, additions, List.eraseDupsBy, List.eraseDupsBy.loop]
  | cons child rest ih =>
      rw [mergeChildren, ih]
      by_cases hlisted : lists children child.path = true
      · have hskip : additions children (child :: rest) = additions children rest := by
          unfold additions
          rw [List.filter_cons_of_neg (by simp [hlisted])]
        rw [if_pos hlisted, hskip]
      · have hfresh : lists children child.path = false := by simpa using hlisted
        rw [if_neg hlisted, additions_cons hfresh, List.append_assoc, List.singleton_append]

theorem additions_of_listed
    {children : List Child} {child : Child} (hlisted : lists children child.path = true)
    (rest : List Child) : additions children (child :: rest) = additions children rest := by
  unfold additions
  rw [List.filter_cons_of_neg (by simp [hlisted])]

theorem lists_eq_false_iff {children : List Child} {path : Path} :
    lists children path = false ↔ path ∉ children.map Child.path := by
  simp [lists]

/-- No path is added twice, and none that is listed already. -/
theorem paths_additions (children more : List Child) :
    ((additions children more).map Child.path).Nodup ∧
      ∀ path ∈ (additions children more).map Child.path, path ∉ children.map Child.path := by
  induction more generalizing children with
  | nil => simp [additions, List.eraseDupsBy, List.eraseDupsBy.loop]
  | cons child rest ih =>
      by_cases hlisted : lists children child.path = true
      · rw [additions_of_listed hlisted]
        exact ih children
      · have hfresh : lists children child.path = false := by simpa using hlisted
        obtain ⟨hnodup, hnew⟩ := ih (children ++ [child])
        rw [additions_cons hfresh, List.map_cons]
        refine ⟨List.nodup_cons.mpr ⟨?_, hnodup⟩, List.forall_mem_cons.mpr ⟨?_, ?_⟩⟩
        · intro hmem
          exact hnew _ hmem (by simp)
        · exact lists_eq_false_iff.mp hfresh
        · intro path hpath hold
          exact hnew path hpath (by simp [hold])

theorem lists_mergeChildren (children more : List Child) (path : Path) :
    lists (mergeChildren children more) path = (lists children path || lists more path) := by
  induction more generalizing children with
  | nil => simp [mergeChildren, lists]
  | cons child rest ih =>
      have hcons : lists (child :: rest) path = (child.path == path || lists rest path) := rfl
      rw [mergeChildren, ih, hcons, ← Bool.or_assoc]
      congr 1
      split
      · rename_i hlisted
        by_cases hpath : child.path = path
        · rw [← hpath, hlisted, Bool.true_or]
        · simp [hpath]
      · simp [lists]

/-! ## Folders -/

/-- The folder with the children of later ones that are not listed yet. -/
def Folder.absorb (first : Folder) (later : List Folder) : Folder :=
  { first with children :=
      first.children ++ additions first.children (later.flatMap Folder.children) }

/-- The folders at a path. -/
def foldersAt (folders : List Folder) (path : Path) : List Folder :=
  folders.filter fun folder => folder.path == path

/-- What the folders at a path become. -/
def united (folders : List Folder) (path : Path) : Option Folder :=
  match foldersAt folders path with
  | [] => none
  | first :: later => some (first.absorb later)

theorem Folder.absorb_nil (first : Folder) : first.absorb [] = first := by
  simp [absorb, additions, List.eraseDupsBy, List.eraseDupsBy.loop]

/-- Absorbing one more folder merges its children. -/
theorem Folder.absorb_append_singleton (first : Folder) (later : List Folder) (last : Folder) :
    first.absorb (later ++ [last]) =
      { first.absorb later with
        children := mergeChildren (first.absorb later).children last.children } := by
  have hchildren : first.children ++
      additions first.children ((later ++ [last]).flatMap Folder.children) =
        mergeChildren (first.children ++
          additions first.children (later.flatMap Folder.children)) last.children := by
    rw [← mergeChildren_eq, ← mergeChildren_eq, List.flatMap_append, List.flatMap_singleton,
      mergeChildren_append]
  unfold absorb
  rw [hchildren]

theorem foldersAt_append (front back : List Folder) (path : Path) :
    foldersAt (front ++ back) path = foldersAt front path ++ foldersAt back path :=
  List.filter_append ..

theorem foldersAt_singleton (folder : Folder) (path : Path) :
    foldersAt [folder] path = if folder.path = path then [folder] else [] := by
  by_cases hpath : folder.path = path <;> simp [foldersAt, hpath]

theorem foldersAt_eq_nil_iff {folders : List Folder} {path : Path} :
    foldersAt folders path = [] ↔ path ∉ folders.map Folder.path := by
  simp [foldersAt]

theorem path_of_united {folders : List Folder} {path : Path} {folder : Folder}
    (hunited : united folders path = some folder) : folder.path = path := by
  unfold united at hunited
  split at hunited
  · cases hunited
  · rename_i first later hat
    cases hunited
    have hfirst : first ∈ foldersAt folders path := by
      rw [hat]
      exact List.mem_cons_self
    exact beq_iff_eq.mp (List.mem_filter.mp hfirst).2

/-- One more folder changes nothing at other paths, is absorbed where there are
folders already, and stands for itself where there are none. -/
theorem united_append_singleton (folders : List Folder) (last : Folder) (path : Path) :
    united (folders ++ [last]) path =
      if last.path = path then
        some (((united folders path).map fun first =>
          { first with children := mergeChildren first.children last.children }).getD last)
      else united folders path := by
  unfold united
  rw [foldersAt_append, foldersAt_singleton]
  by_cases hpath : last.path = path
  · rw [if_pos hpath, if_pos hpath]
    cases foldersAt folders path with
    | nil => exact congrArg some last.absorb_nil
    | cons first later => exact congrArg some (first.absorb_append_singleton later last)
  · rw [if_neg hpath, if_neg hpath, List.append_nil]

theorem mergeFolder_of_not_mem {merged : List Folder} {folder : Folder}
    (hnew : folder.path ∉ merged.map Folder.path) :
    mergeFolder merged folder = merged ++ [folder] := by
  induction merged with
  | nil => rfl
  | cons first rest ih =>
      rw [List.map_cons, List.mem_cons, not_or] at hnew
      have hother : ¬ first.path = folder.path := fun heq => hnew.1 heq.symm
      rw [mergeFolder, if_neg hother, ih hnew.2, List.cons_append]

theorem mergeFolder_of_mem {merged : List Folder} {folder : Folder}
    (hnodup : (merged.map Folder.path).Nodup) (hold : folder.path ∈ merged.map Folder.path) :
    mergeFolder merged folder = merged.map fun first =>
      if folder.path = first.path then
        { first with children := mergeChildren first.children folder.children }
      else first := by
  induction merged with
  | nil => cases hold
  | cons first rest ih =>
      rw [List.map_cons, List.nodup_cons] at hnodup
      rw [mergeFolder, List.map_cons]
      by_cases hpath : first.path = folder.path
      · have hrest : ∀ other ∈ rest, ¬ folder.path = other.path := by
          intro other hother heq
          exact hnodup.1 (hpath.trans heq ▸ List.mem_map_of_mem hother)
        rw [if_pos hpath, if_pos hpath.symm, List.map_congr_left fun other hother =>
          if_neg (hrest other hother), List.map_id']
      · have hother : ¬ folder.path = first.path := fun heq => hpath heq.symm
        have hmem : folder.path ∈ rest.map Folder.path :=
          (List.mem_cons.mp hold).resolve_left hother
        rw [if_neg hpath, if_neg hother, ih hnodup.2 hmem]

theorem eraseDups_append_singleton (paths : List Path) (path : Path) :
    (paths ++ [path]).eraseDups =
      if path ∈ paths then paths.eraseDups else paths.eraseDups ++ [path] := by
  rw [List.eraseDups_append]
  split
  · rename_i hmem
    simp [List.removeAll, hmem]
  · rename_i hmem
    simp [List.removeAll, hmem, List.eraseDups_cons]

theorem united_eq_none_iff {folders : List Folder} {path : Path} :
    united folders path = none ↔ path ∉ folders.map Folder.path := by
  rw [← foldersAt_eq_nil_iff]
  unfold united
  split
  · rename_i hat
    simp [hat]
  · rename_i hat
    simp [hat]

/-- There is one folder for each of these paths, in their order. -/
theorem map_path_filterMap_united {folders : List Folder} {paths : List Path}
    (hthere : ∀ path ∈ paths, path ∈ folders.map Folder.path) :
    (paths.filterMap (united folders)).map Folder.path = paths := by
  induction paths with
  | nil => rfl
  | cons path rest ih =>
      obtain ⟨hpath, hrest⟩ := List.forall_mem_cons.mp hthere
      cases hunited : united folders path with
      | none => exact absurd hpath (united_eq_none_iff.mp hunited)
      | some folder =>
          rw [List.filterMap_cons_some hunited, List.map_cons, ih hrest, path_of_united hunited]

theorem mergeFolders_eq (folders : List Folder) :
    mergeFolders folders = (folders.map Folder.path).eraseDups.filterMap (united folders) := by
  induction folders using List.reverseRecOn with
  | nil => rfl
  | append_singleton folders last ih =>
      have hfold : mergeFolders (folders ++ [last]) = mergeFolder (mergeFolders folders) last :=
        List.foldl_append
      have hthere : ∀ path ∈ (folders.map Folder.path).eraseDups,
          path ∈ folders.map Folder.path := fun path hpath => List.mem_eraseDups.mp hpath
      have hpaths := map_path_filterMap_united hthere
      have hnodup : ((mergeFolders folders).map Folder.path).Nodup :=
        (paths_foldl_mergeFolder [] folders List.nodup_nil).1
      rw [hfold, List.map_append, List.map_singleton, eraseDups_append_singleton]
      by_cases hmem : last.path ∈ folders.map Folder.path
      · have hold : last.path ∈ (mergeFolders folders).map Folder.path := by
          rw [ih, hpaths]
          exact List.mem_eraseDups.mpr hmem
        rw [if_pos hmem, mergeFolder_of_mem hnodup hold, ih, List.map_filterMap]
        apply List.filterMap_congr
        intro path hpath
        rw [united_append_singleton]
        cases hunited : united folders path with
        | none => exact absurd (hthere path hpath) (united_eq_none_iff.mp hunited)
        | some folder =>
            rw [← path_of_united hunited]
            split <;> simp [*]
      · have hnew : last.path ∉ (mergeFolders folders).map Folder.path := by
          rw [ih, hpaths]
          exact fun hold => hmem (hthere _ hold)
        have hlast : united (folders ++ [last]) last.path = some last := by
          rw [united_append_singleton, if_pos rfl, united_eq_none_iff.mpr hmem]
          rfl
        rw [if_neg hmem, mergeFolder_of_not_mem hnew, ih, List.filterMap_append,
          List.filterMap_cons_some hlast, List.filterMap_nil]
        congr 1
        apply List.filterMap_congr
        intro path hpath
        have hother : ¬ last.path = path := fun heq => hmem (heq ▸ hthere path hpath)
        rw [united_append_singleton, if_neg hother]

/-! ## Listed paths -/

/-- Some folder lists the path. -/
def anyLists (folders : List Folder) (path : Path) : Bool :=
  folders.any fun folder => lists folder.children path

theorem anyLists_iff {folders : List Folder} {path : Path} :
    anyLists folders path = true ↔
      ∃ folder ∈ folders, path ∈ folder.children.map Child.path := by
  simp [anyLists, lists]

theorem anyLists_mergeFolder (merged : List Folder) (folder : Folder) (path : Path) :
    anyLists (mergeFolder merged folder) path =
      (anyLists merged path || lists folder.children path) := by
  induction merged with
  | nil => simp [mergeFolder, anyLists]
  | cons first rest ih =>
      unfold anyLists at ih ⊢
      rw [mergeFolder]
      split
      · rw [List.any_cons, List.any_cons, lists_mergeChildren, Bool.or_right_comm]
      · rw [List.any_cons, List.any_cons, ih, Bool.or_assoc]

theorem anyLists_mergeFolders (folders : List Folder) (path : Path) :
    anyLists (mergeFolders folders) path = anyLists folders path := by
  induction folders using List.reverseRecOn with
  | nil => rfl
  | append_singleton folders last ih =>
      have hfold : mergeFolders (folders ++ [last]) = mergeFolder (mergeFolders folders) last :=
        List.foldl_append
      rw [hfold, anyLists_mergeFolder, ih]
      simp [anyLists]

/-- Merging leaves one folder for each path, in the order in which the paths come first.
It is the first folder at its path, and only its children are others: its own ones and
then those of the later folders at the path that are not listed yet.  Of these no path
comes twice and none was listed before.  All folders together list the same paths as
before, and nothing else in the catalog is changed. -/
theorem mergeDuplicates_unites (catalog : Catalog) :
    catalog.mergeDuplicates.folderPaths = catalog.folderPaths.eraseDups ∧
    catalog.mergeDuplicates.folderPaths.Nodup ∧
    (∀ folder ∈ catalog.mergeDuplicates.folders, ∃ first later,
      foldersAt catalog.folders folder.path = first :: later ∧
      let added := additions first.children (later.flatMap Folder.children)
      folder = { first with children := first.children ++ added } ∧
      (added.map Child.path).Nodup ∧
      ∀ path ∈ added.map Child.path, path ∉ first.children.map Child.path) ∧
    (∀ path, (∃ folder ∈ catalog.mergeDuplicates.folders, path ∈ folder.children.map Child.path) ↔
      ∃ folder ∈ catalog.folders, path ∈ folder.children.map Child.path) ∧
    catalog.mergeDuplicates = { catalog with folders := catalog.mergeDuplicates.folders } := by
  have hfolders : catalog.mergeDuplicates.folders =
      catalog.folderPaths.eraseDups.filterMap (united catalog.folders) :=
    mergeFolders_eq catalog.folders
  refine ⟨?_, nodup_folderPaths_mergeDuplicates catalog, ?_, ?_, rfl⟩
  · rw [folderPaths, hfolders]
    exact map_path_filterMap_united fun path hpath => List.mem_eraseDups.mp hpath
  · intro folder hfolder
    rw [hfolders] at hfolder
    obtain ⟨path, -, hunited⟩ := List.mem_filterMap.mp hfolder
    rw [path_of_united hunited]
    unfold united at hunited
    split at hunited
    · cases hunited
    · rename_i first later hat
      cases hunited
      have hadded := paths_additions first.children (later.flatMap Folder.children)
      exact ⟨first, later, hat, rfl, hadded⟩
  · intro path
    have hlists : anyLists catalog.mergeDuplicates.folders path = anyLists catalog.folders path :=
      anyLists_mergeFolders catalog.folders path
    rw [← anyLists_iff, hlists, anyLists_iff]

end Relocate.Catalog
