import Relocate.Proofs.Migrate.Merge

/-!
# Attaching objects to their parents

An object is attached by one new entry, in the space or the folder at its parent
path, and at most one folder is made up for it.  `Ends.attach_cases` says all that
one such step does, and what later proofs need of it is read off there.
`Ends.attach` is what it does to the entries, `Ends.attachAll` what a list of steps
does, and `Ends.tidyTree_attachFolders` that the passes over unlisted folders leave
none: a folder that is made up has a shorter path than what it is made up for.
-/

namespace Relocate.Catalog

/-! ## Actions that end without an error -/

/-- The action leads from one state to the other and gives the value. -/
def Ends {α : Type}
    (action : Reconciling α) (before : Progress) (value : α) (after : Progress) : Prop :=
  action.run.run before = (.ok value, after)

namespace Ends

variable {α β : Type} {before after : Progress}

theorem bind_iff {first : Reconciling α} {next : α → Reconciling β} {value : β} :
    Ends (first >>= next) before value after ↔
      ∃ a middle, Ends first before a middle ∧ Ends (next a) middle value after := by
  unfold Ends
  rw [ExceptT.run_bind, StateT.run_bind]
  rcases first.run.run before with ⟨result, middle⟩
  cases result with
  | error error =>
      constructor
      · intro h
        cases h
      · rintro ⟨a, other, h, -⟩
        cases h
  | ok a =>
      constructor
      · intro h
        exact ⟨a, middle, rfl, h⟩
      · rintro ⟨a, other, h, hnext⟩
        cases h
        exact hnext

theorem pure_iff {a value : α} :
    Ends (Pure.pure a) before value after ↔ value = a ∧ after = before := by
  unfold Ends
  constructor
  · intro h
    cases h
    exact ⟨rfl, rfl⟩
  · rintro ⟨rfl, rfl⟩
    rfl

theorem get_bind_iff {next : Progress → Reconciling α} {value : α} :
    Ends (get >>= next) before value after ↔ Ends (next before) before value after :=
  Iff.rfl

theorem modify_iff {change : Progress → Progress} {value : PUnit} :
    Ends (modify change) before value after ↔ after = change before := by
  unfold Ends
  constructor
  · intro h
    cases h
    rfl
  · rintro rfl
    rfl

theorem not_throw {error : Error} {value : α} :
    ¬ Ends (throw error) before value after := by
  unfold Ends
  intro h
  cases h

theorem tell_iff {level : Level} {message : String} {value : Unit} :
    Ends (tell level message) before value after ↔
      after = { before with log := before.log ++ [⟨level, message⟩] } :=
  modify_iff

end Ends

/-! ## One more entry -/

theorem listings_addToSpace
    {name : String} {spaces : List Space} (hspace : ∃ space ∈ spaces, space.name = name)
    (child : Child) :
    List.Perm ((addToSpace name child spaces).flatMap Space.listings)
      (([name], child) :: spaces.flatMap Space.listings) := by
  induction spaces with
  | nil => simp at hspace
  | cons space rest ih =>
      unfold addToSpace
      by_cases hname : space.name = name
      · rw [if_pos hname, List.flatMap_cons, List.flatMap_cons]
        have hlistings : ({ space with children := space.children ++ [child] } :
            Space).listings = space.listings ++ [([name], child)] := by
          simp [Space.listings, Space.path, hname]
        rw [hlistings, List.append_assoc]
        exact List.perm_middle
      · rw [if_neg hname, List.flatMap_cons, List.flatMap_cons]
        have hrest : ∃ later ∈ rest, later.name = name := by
          simpa [hname] using hspace
        exact ((ih hrest).append_left _).trans List.perm_middle

theorem listings_addToFolder
    {path : Path} {folders : List Folder} (hfolder : path ∈ folders.map Folder.path)
    (child : Child) :
    List.Perm ((addToFolder path child folders).flatMap Folder.listings)
      ((path, child) :: folders.flatMap Folder.listings) := by
  induction folders with
  | nil => simp at hfolder
  | cons folder rest ih =>
      unfold addToFolder
      by_cases hpath : folder.path = path
      · rw [if_pos hpath, List.flatMap_cons, List.flatMap_cons]
        have hlistings : ({ folder with children := folder.children ++ [child] } :
            Folder).listings = folder.listings ++ [(path, child)] := by
          simp [Folder.listings, hpath]
        rw [hlistings, List.append_assoc]
        exact List.perm_middle
      · rw [if_neg hpath, List.flatMap_cons, List.flatMap_cons]
        have hrest : path ∈ rest.map Folder.path := by
          rcases List.mem_cons.mp hfolder with heq | hrest
          · exact absurd heq.symm hpath
          · exact hrest
        exact ((ih hrest).append_left _).trans List.perm_middle

/-- What does not depend on the listings of a folder stays. -/
theorem map_addToFolder
    {α : Type} {read : Folder → α}
    (hread : ∀ (folder : Folder) children, read { folder with children := children } = read folder)
    (path : Path) (child : Child) (folders : List Folder) :
    (addToFolder path child folders).map read = folders.map read := by
  induction folders with
  | nil => rfl
  | cons folder rest ih =>
      by_cases hpath : folder.path = path
      · rw [addToFolder, if_pos hpath, List.map_cons, hread, List.map_cons]
      · rw [addToFolder, if_neg hpath, List.map_cons, ih, List.map_cons]

theorem paths_addToFolder (path : Path) (child : Child) (folders : List Folder) :
    (addToFolder path child folders).map Folder.path = folders.map Folder.path :=
  map_addToFolder (fun _ _ => rfl) path child folders

/-- What does not depend on the listings of a space stays. -/
theorem map_addToSpace
    {α : Type} {read : Space → α}
    (hread : ∀ (space : Space) children, read { space with children := children } = read space)
    (name : String) (child : Child) (spaces : List Space) :
    (addToSpace name child spaces).map read = spaces.map read := by
  induction spaces with
  | nil => rfl
  | cons space rest ih =>
      by_cases hname : space.name = name
      · rw [addToSpace, if_pos hname, List.map_cons, hread, List.map_cons]
      · rw [addToSpace, if_neg hname, List.map_cons, ih, List.map_cons]

theorem folderPosition?_isNone_iff {catalog : Catalog} {path : Path} :
    (catalog.folderPosition? path).isNone = true ↔ path ∉ catalog.folderPaths := by
  simp [folderPosition?, folderPaths]

/-! ## One step -/

/-- The list with more of its kind, in the order in which they come. -/
def Placement.add {α : Type} (placement : Placement) (old new : List α) : List α :=
  match placement with
  | .back => old ++ new
  | .front => new.reverse ++ old

theorem Placement.map_add {α β : Type} (placement : Placement) (f : α → β) (old new : List α) :
    (placement.add old new).map f = placement.add (old.map f) (new.map f) := by
  cases placement <;> simp [add]

theorem Placement.add_singleton_perm {α : Type} (placement : Placement) (old : List α) (new : α) :
    List.Perm (placement.add old [new]) (new :: old) := by
  cases placement with
  | back => exact List.perm_append_singleton new old
  | front => exact List.Perm.refl _

/-- The folders, with a new one at the path unless there is one. -/
def ensured (placement : Placement) (id : String) (path : Path) (folders : List Folder) :
    List Folder :=
  if path ∈ folders.map Folder.path then folders
  else placement.add folders [Folder.synthesized id path]

section Ensured

variable {placement : Placement} {id : String} {path : Path} {folders : List Folder}

theorem ensured_of_mem (hpresent : path ∈ folders.map Folder.path) :
    ensured placement id path folders = folders :=
  if_pos hpresent

theorem ensured_of_not_mem (hmissing : path ∉ folders.map Folder.path) :
    ensured placement id path folders = placement.add folders [Folder.synthesized id path] :=
  if_neg hmissing

theorem ensured_perm_of_not_mem (hmissing : path ∉ folders.map Folder.path) :
    List.Perm (ensured placement id path folders) (Folder.synthesized id path :: folders) := by
  rw [ensured_of_not_mem hmissing]
  exact placement.add_singleton_perm folders (Folder.synthesized id path)

theorem mem_paths_ensured : path ∈ (ensured placement id path folders).map Folder.path := by
  by_cases hpresent : path ∈ folders.map Folder.path
  · rw [ensured_of_mem hpresent]
    exact hpresent
  · rw [((ensured_perm_of_not_mem hpresent).map Folder.path).mem_iff]
    exact List.mem_cons_self

/-- A folder that is made up lists nothing. -/
theorem listings_ensured :
    List.Perm ((ensured placement id path folders).flatMap Folder.listings)
      (folders.flatMap Folder.listings) := by
  by_cases hpresent : path ∈ folders.map Folder.path
  · rw [ensured_of_mem hpresent]
  · exact (ensured_perm_of_not_mem hpresent).flatMap_right Folder.listings

end Ensured

theorem Ends.ensureFolder
    {ids : Nat → String} {placement : Placement} {path : Path} {before after : Progress}
    {value : Unit} (h : Ends (Catalog.ensureFolder ids placement path) before value after) :
    after.catalog = { before.catalog with
      folders := ensured placement (ids before.synthesized) path before.catalog.folders } ∧
    after.synthesized =
      before.synthesized + if path ∈ before.catalog.folderPaths then 0 else 1 := by
  rw [Catalog.ensureFolder, Ends.get_bind_iff] at h
  by_cases hpresent : path ∈ before.catalog.folderPaths
  · have hfound : ¬ (before.catalog.folderPosition? path).isNone = true := fun hmissing =>
      folderPosition?_isNone_iff.mp hmissing hpresent
    rw [if_neg hfound] at h
    obtain ⟨-, rfl⟩ := Ends.pure_iff.mp h
    rw [ensured_of_mem hpresent, if_pos hpresent]
    exact ⟨rfl, rfl⟩
  · rw [if_pos (folderPosition?_isNone_iff.mpr hpresent)] at h
    simp only [Catalog.synthesize, Ends.bind_iff, Ends.tell_iff, Ends.modify_iff] at h
    obtain ⟨_, middle, rfl, rfl⟩ := h
    rw [ensured_of_not_mem hpresent, if_neg hpresent]
    cases placement with
    | back | front => exact ⟨rfl, rfl⟩

/-- All that attaching one object does: a new entry in its space, or one in its
folder, which is made up before if it is missing. -/
theorem Ends.attach_cases
    {ids : Nat → String} {placement : Placement} {child : Child} {before after : Progress}
    {value : Unit} (h : Ends (Catalog.attach ids placement child) before value after) :
    (∃ name, child.path.parent = [name] ∧
      (∃ space ∈ before.catalog.spaces, space.name = name) ∧
      after.catalog = { before.catalog with
        spaces := addToSpace name child before.catalog.spaces } ∧
      after.synthesized = before.synthesized) ∨
    (2 ≤ child.path.parent.length ∧
      after.catalog = { before.catalog with
        folders := addToFolder child.path.parent child (ensured placement
          (ids before.synthesized) child.path.parent before.catalog.folders) } ∧
      after.synthesized = before.synthesized +
        if child.path.parent ∈ before.catalog.folderPaths then 0 else 1) := by
  unfold Catalog.attach at h
  split at h
  case h_1 => exact absurd h Ends.not_throw
  case h_2 name hparent =>
      rw [Catalog.attachToSpace, Ends.get_bind_iff] at h
      cases hfound : before.catalog.space? name with
      | none =>
          rw [hfound] at h
          exact absurd h Ends.not_throw
      | some space =>
          simp only [hfound, Ends.bind_iff, Ends.tell_iff, Ends.modify_iff] at h
          obtain ⟨_, middle, rfl, rfl⟩ := h
          have hname : space.name = name := by simpa using List.find?_some hfound
          exact .inl ⟨name, hparent, ⟨space, List.mem_of_find?_eq_some hfound, hname⟩, rfl, rfl⟩
  case h_3 hnil hone =>
      have hlong : 2 ≤ child.path.parent.length := by
        match hparent : child.path.parent with
        | [] => exact absurd hparent hnil
        | [name] => exact absurd hparent (hone name)
        | _ :: _ :: rest => simp
      obtain ⟨_, middle, hensure, hattach⟩ := Ends.bind_iff.mp h
      obtain ⟨hcatalog, hsynthesized⟩ := Ends.ensureFolder hensure
      simp only [Catalog.attachToFolder, Ends.bind_iff, Ends.tell_iff, Ends.modify_iff] at hattach
      obtain ⟨_, told, rfl, rfl⟩ := hattach
      exact .inr ⟨hlong, by rw [hcatalog], hsynthesized⟩

/-- One object is attached: its entry is new, and perhaps the folder that holds it. -/
structure Attached (child : Child) (before after : Catalog) : Prop where
  parent_ne_nil : child.path.parent ≠ []
  listings : List.Perm after.listings ((child.path.parent, child) :: before.listings)
  views : after.views = before.views
  folders : List.Perm after.folderPaths before.folderPaths ∨
    child.path.parent ∉ before.folderPaths ∧
      List.Perm after.folderPaths (child.path.parent :: before.folderPaths)

/-- What attaching one object does when it ends without an error. -/
theorem Ends.attach
    {ids : Nat → String} {placement : Placement} {child : Child} {before after : Progress}
    {value : Unit} (h : Ends (Catalog.attach ids placement child) before value after) :
    Attached child before.catalog after.catalog := by
  rcases Ends.attach_cases h with ⟨name, hparent, hspace, hcatalog, -⟩ | ⟨hlong, hcatalog, -⟩
  · have hlistings := listings_addToSpace hspace child
    rw [hcatalog]
    refine ⟨by simp [hparent], ?_, rfl, .inl (List.Perm.refl _)⟩
    rw [hparent]
    exact hlistings.append_right _
  · have hnil : child.path.parent ≠ [] := List.ne_nil_of_length_pos (by omega)
    rw [hcatalog]
    refine ⟨hnil, ?_, rfl, ?_⟩
    · refine List.Perm.trans (List.Perm.append_left _ ?_) List.perm_middle
      exact (listings_addToFolder mem_paths_ensured child).trans (listings_ensured.cons _)
    · simp only [folderPaths, paths_addToFolder]
      by_cases hpresent : child.path.parent ∈ before.catalog.folderPaths
      · rw [ensured_of_mem hpresent]
        exact .inl (List.Perm.refl _)
      · exact .inr ⟨hpresent, (ensured_perm_of_not_mem hpresent).map Folder.path⟩

/-! ## Many entries -/

/-- A tidy catalog with one folder for each path. -/
structure TidyTree (catalog : Catalog) : Prop extends catalog.Tidy where
  distinct : catalog.folderPaths.Nodup

/-- These paths are listed besides those before, and a new folder is higher in
the tree than one of them. -/
structure ListsAlso (paths : List Path) (before after : Catalog) : Prop where
  listed : List.Perm after.listedPaths (paths ++ before.listedPaths)
  views : after.views = before.views
  higher : ∀ path ∈ after.folderPaths, path ∉ before.folderPaths →
    ∃ below ∈ paths, path.length < below.length

theorem ListsAlso.trans
    {paths more : List Path} {before middle after : Catalog}
    (hfirst : ListsAlso paths before middle) (hnext : ListsAlso more middle after) :
    ListsAlso (paths ++ more) before after where
  listed := by
    have hmiddle := hfirst.listed.append_left more
    have hswap : List.Perm (more ++ (paths ++ before.listedPaths))
        ((paths ++ more) ++ before.listedPaths) := by
      rw [← List.append_assoc]
      exact List.perm_append_comm.append_right _
    exact (hnext.listed.trans hmiddle).trans hswap
  views := hnext.views.trans hfirst.views
  higher := by
    intro path hafter hbefore
    by_cases hmiddle : path ∈ middle.folderPaths
    · obtain ⟨below, hbelow, hlength⟩ := hfirst.higher path hmiddle hbefore
      exact ⟨below, List.mem_append_left _ hbelow, hlength⟩
    · obtain ⟨below, hbelow, hlength⟩ := hnext.higher path hafter hmiddle
      exact ⟨below, List.mem_append_right _ hbelow, hlength⟩

theorem Path.length_parent_lt {path : Path} (hparent : path.parent ≠ []) :
    path.parent.length < path.length := by
  have hpath : path ≠ [] := by
    rintro rfl
    exact hparent rfl
  have hlength : 0 < path.length := List.length_pos_of_ne_nil hpath
  rw [Path.parent, List.length_dropLast]
  omega

namespace Attached

variable {child : Child} {before after : Catalog}

theorem mem_folderPaths (h : Attached child before after) {path : Path}
    (hpath : path ∈ after.folderPaths) :
    path ∈ before.folderPaths ∨ path = child.path.parent := by
  rcases h.folders with hsame | ⟨-, hnew⟩
  · exact .inl (hsame.mem_iff.mp hpath)
  · exact (List.mem_cons.mp (hnew.mem_iff.mp hpath)).symm

theorem listsAlso (h : Attached child before after) :
    ListsAlso [child.path] before after where
  listed := h.listings.map fun entry : Path × Child => entry.2.path
  views := h.views
  higher := by
    intro path hafter hbefore
    refine ⟨child.path, by simp, ?_⟩
    rcases h.mem_folderPaths hafter with hold | rfl
    · exact absurd hold hbefore
    · exact Path.length_parent_lt h.parent_ne_nil

theorem nodup_folderPaths (h : Attached child before after) (hdistinct : before.folderPaths.Nodup) :
    after.folderPaths.Nodup := by
  rcases h.folders with hsame | ⟨hmissing, hnew⟩
  · exact hsame.nodup_iff.mpr hdistinct
  · exact hnew.nodup_iff.mpr (List.nodup_cons.mpr ⟨hmissing, hdistinct⟩)

/-- One step keeps the tree tidy when its object was not listed before. -/
theorem tidyTree
    (h : Attached child before after) (htree : before.TidyTree)
    (hfresh : child.path ∉ before.listedPaths) : after.TidyTree where
  owned := by
    intro entry hentry
    rcases List.mem_cons.mp (h.listings.mem_iff.mp hentry) with rfl | hold
    · rfl
    · exact htree.owned entry hold
  nodup := by
    rw [h.listsAlso.listed.nodup_iff]
    exact List.nodup_cons.mpr ⟨hfresh, htree.nodup⟩
  rooted := by
    intro folder hfolder
    have hpath : folder.path ∈ after.folderPaths := List.mem_map_of_mem hfolder
    rcases h.mem_folderPaths hpath with hold | hparent
    · obtain ⟨other, hother, heq⟩ := List.mem_map.mp hold
      rw [← heq]
      exact htree.rooted other hother
    · rw [hparent]
      exact h.parent_ne_nil
  distinct := h.nodup_folderPaths htree.distinct

end Attached

theorem ListsAlso.refl (catalog : Catalog) : ListsAlso [] catalog catalog :=
  ⟨List.Perm.refl _, rfl, fun _ hafter hbefore => absurd hafter hbefore⟩

theorem Ends.attachAll
    {ids : Nat → String} {placement : Placement} {children : List Child}
    {before after : Progress} {value : Unit}
    (h : Ends (Catalog.attachAll ids placement children) before value after) :
    ListsAlso (children.map Child.path) before.catalog after.catalog := by
  induction children generalizing before with
  | nil =>
      obtain ⟨-, rfl⟩ := Ends.pure_iff.mp h
      exact ListsAlso.refl after.catalog
  | cons child rest ih =>
      obtain ⟨_, middle, hfirst, hrest⟩ := Ends.bind_iff.mp h
      exact (Ends.attach hfirst).listsAlso.trans (ih hrest)

/-- Objects with different paths that are not listed yet keep the tree tidy. -/
theorem Ends.tidyTree_attachAll
    {ids : Nat → String} {placement : Placement} {children : List Child}
    {before after : Progress} {value : Unit}
    (h : Ends (Catalog.attachAll ids placement children) before value after)
    (htree : before.catalog.TidyTree) (hdistinct : (children.map Child.path).Nodup)
    (hfresh : ∀ path ∈ children.map Child.path, path ∉ before.catalog.listedPaths) :
    after.catalog.TidyTree := by
  induction children generalizing before with
  | nil =>
      obtain ⟨-, rfl⟩ := Ends.pure_iff.mp h
      exact htree
  | cons child rest ih =>
      obtain ⟨_, middle, hfirst, hrest⟩ := Ends.bind_iff.mp h
      have hattached := Ends.attach hfirst
      have hchild : child.path ∉ before.catalog.listedPaths := hfresh _ List.mem_cons_self
      obtain ⟨hnotin, hnodup⟩ := List.nodup_cons.mp hdistinct
      apply ih hrest (hattached.tidyTree htree hchild) hnodup
      intro path hpath hlisted
      rcases List.mem_cons.mp (hattached.listsAlso.listed.mem_iff.mp hlisted) with rfl | hold
      · exact hnotin hpath
      · exact hfresh path (List.mem_cons_of_mem _ hpath) hold

/-! ## Passes over unlisted folders -/

theorem paths_unreferencedFolders (catalog : Catalog) :
    catalog.unreferencedFolders.map Prod.snd =
      catalog.folderPaths.filter fun path => !catalog.isReferenced path := by
  rw [unreferencedFolders, folderPaths, List.map_map, List.filter_map]
  rfl

theorem paths_unreferencedViews (catalog : Catalog) :
    catalog.unreferencedViews.map Prod.snd =
      catalog.viewPaths.filter fun path => !catalog.isReferenced path := by
  rw [unreferencedViews, viewPaths, List.map_map, List.filter_map]
  rfl

theorem mem_filter_unreferenced {catalog : Catalog} {paths : List Path} {path : Path} :
    path ∈ paths.filter (fun path => !catalog.isReferenced path) ↔
      path ∈ paths ∧ path ∉ catalog.listedPaths := by
  rw [List.mem_filter, ← isReferenced_iff]
  simp

theorem catalog_tell
    {level : Level} {message : String} {before after : Progress} {value : Unit}
    (h : Ends (tell level message) before value after) : after.catalog = before.catalog := by
  rw [Ends.tell_iff.mp h]

/-- After a pass all folders that there were before are listed. -/
theorem ListsAlso.unlisted
    {before after : Catalog}
    (h : ListsAlso (before.unreferencedFolders.map Prod.snd) before after)
    {path : Path} (hfolder : path ∈ after.folderPaths) (hunlisted : path ∉ after.listedPaths) :
    ∃ orphan, orphan ∈ before.folderPaths ∧ orphan ∉ before.listedPaths ∧
      path.length < orphan.length := by
  rw [paths_unreferencedFolders] at h
  have hnew : path ∉ before.folderPaths := by
    intro hold
    apply hunlisted
    rw [h.listed.mem_iff, List.mem_append, mem_filter_unreferenced]
    by_cases hlisted : path ∈ before.listedPaths
    · exact .inr hlisted
    · exact .inl ⟨hold, hlisted⟩
  obtain ⟨orphan, horphan, hlength⟩ := h.higher path hfolder hnew
  obtain ⟨hfolder, hunlisted⟩ := mem_filter_unreferenced.mp horphan
  exact ⟨orphan, hfolder, hunlisted, hlength⟩

/-- One pass: there are no unlisted folders, or all of them are attached. -/
theorem Ends.attachFolders_cases
    {ids : Nat → String} {passes : Nat} {before after : Progress} {value : Unit}
    (h : Ends (Catalog.attachFolders ids (passes + 1)) before value after) :
    (before.catalog.unreferencedFolders = [] ∧ after = before) ∨
      ∃ told middle : Progress, told.catalog = before.catalog ∧
        told.synthesized = before.synthesized ∧
        Ends (Catalog.attachAll ids .front
          (before.catalog.unreferencedFolders.map fun (id, path) => Child.folder id path))
          told () middle ∧
        Ends (Catalog.attachFolders ids passes) middle value after := by
  unfold Catalog.attachFolders at h
  rw [Ends.get_bind_iff] at h
  by_cases hempty : before.catalog.unreferencedFolders.isEmpty = true
  · simp only [hempty, if_true] at h
    exact .inl ⟨List.isEmpty_iff.mp hempty, (Ends.pure_iff.mp h).2⟩
  · simp only [hempty] at h
    obtain ⟨_, told, htell, h⟩ := Ends.bind_iff.mp h
    obtain ⟨_, middle, hall, hrest⟩ := Ends.bind_iff.mp h
    have hsame : told.synthesized = before.synthesized := by rw [Ends.tell_iff.mp htell]
    exact .inr ⟨told, middle, catalog_tell htell, hsame, hall, hrest⟩

theorem paths_map_folder (orphans : List (String × Path)) :
    (orphans.map fun (id, path) => Child.folder id path).map Child.path =
      orphans.map Prod.snd := by
  rw [List.map_map]
  rfl

theorem paths_map_view (orphans : List (String × Path)) :
    (orphans.map fun (id, path) => Child.view id path).map Child.path =
      orphans.map Prod.snd := by
  rw [List.map_map]
  rfl

theorem Ends.attachFolders
    {ids : Nat → String} {passes : Nat} {before after : Progress} {value : Unit}
    (h : Ends (Catalog.attachFolders ids passes) before value after) :
    ∃ paths, ListsAlso paths before.catalog after.catalog := by
  induction passes generalizing before with
  | zero =>
      obtain ⟨-, rfl⟩ := Ends.pure_iff.mp h
      exact ⟨[], ListsAlso.refl after.catalog⟩
  | succ passes ih =>
      rcases Ends.attachFolders_cases h with ⟨-, rfl⟩ | ⟨told, middle, htold, -, hall, hrest⟩
      · exact ⟨[], ListsAlso.refl after.catalog⟩
      · obtain ⟨paths, hpaths⟩ := ih hrest
        have halso := Ends.attachAll hall
        rw [htold] at halso
        exact ⟨_, halso.trans hpaths⟩

/-- What every pass keeps is kept by all of them. -/
theorem Ends.attachFolders_induction
    {ids : Nat → String} {passes : Nat} {before after : Progress} {value : Unit}
    {Kept : Catalog → Prop} (h : Ends (Catalog.attachFolders ids passes) before value after)
    (hbefore : Kept before.catalog)
    (hpass : ∀ told middle : Progress,
      Ends (Catalog.attachAll ids .front
        (told.catalog.unreferencedFolders.map fun (id, path) => Child.folder id path))
        told () middle → Kept told.catalog → Kept middle.catalog) :
    Kept after.catalog := by
  induction passes generalizing before with
  | zero =>
      obtain ⟨-, rfl⟩ := Ends.pure_iff.mp h
      exact hbefore
  | succ passes ih =>
      rcases Ends.attachFolders_cases h with ⟨-, rfl⟩ | ⟨told, middle, htold, -, hall, hrest⟩
      · exact hbefore
      · rw [← htold] at hall hbefore
        exact ih hrest (hpass told middle hall hbefore)

/-- The passes are enough when there are more of them than any unlisted folder
has segments: what is unlisted after a pass is shorter than what was before. -/
theorem Ends.folders_listed_attachFolders
    {ids : Nat → String} {passes : Nat} {before after : Progress} {value : Unit}
    (h : Ends (Catalog.attachFolders ids passes) before value after)
    (hshort : ∀ path ∈ before.catalog.folderPaths, path ∉ before.catalog.listedPaths →
      path.length < passes) :
    ∀ path ∈ after.catalog.folderPaths, path ∈ after.catalog.listedPaths := by
  induction passes generalizing before with
  | zero =>
      obtain ⟨-, rfl⟩ := Ends.pure_iff.mp h
      intro path hfolder
      by_contra hunlisted
      exact absurd (hshort path hfolder hunlisted) (Nat.not_lt_zero _)
  | succ passes ih =>
      rcases Ends.attachFolders_cases h with ⟨hnone, rfl⟩ | ⟨told, middle, htold, -, hall, hrest⟩
      · intro path hfolder
        by_contra hunlisted
        have hmem := mem_filter_unreferenced.mpr ⟨hfolder, hunlisted⟩
        rw [← paths_unreferencedFolders, hnone] at hmem
        cases hmem
      · have halso := Ends.attachAll hall
        rw [paths_map_folder, htold] at halso
        apply ih hrest
        intro path hfolder hunlisted
        obtain ⟨orphan, hold, hmissing, hlength⟩ := halso.unlisted hfolder hunlisted
        have hbound := hshort orphan hold hmissing
        omega

theorem Ends.tidyTree_attachFolders
    {ids : Nat → String} {passes : Nat} {before after : Progress} {value : Unit}
    (h : Ends (Catalog.attachFolders ids passes) before value after)
    (htree : before.catalog.TidyTree) : after.catalog.TidyTree := by
  refine Ends.attachFolders_induction h htree ?_
  intro told middle hall htold
  have horphans := paths_unreferencedFolders told.catalog
  apply Ends.tidyTree_attachAll hall htold
  · rw [paths_map_folder, horphans]
    exact htold.distinct.filter _
  · intro path hpath
    rw [paths_map_folder, horphans] at hpath
    exact (mem_filter_unreferenced.mp hpath).2

end Relocate.Catalog
