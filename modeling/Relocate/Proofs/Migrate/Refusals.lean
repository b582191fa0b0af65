import Relocate.Proofs.Migrate.FixedPoint
import Relocate.Proofs.Migrate.Origins

/-!
# When a tree can be put together

Putting a tree together ends with an error at two views with one path, or at the
first object that cannot be attached: one without a container above it, or one
whose space is missing.  Only unlisted objects are attached, and an error may come
up several passes later, for a folder that was made up far above an object.  What
is attached is always a folder or a view of the catalog or lies above one
(`MadeUp.lies_above`), so an error always speaks of the space of such an object
(`Fails.refuses_reconcileTree`).

In the other direction, a repaired tree lists everything, and following the
entries upwards ends at a space (`Housed.inSpace`).  Together these say exactly
when the repair succeeds: `reconcile_succeeds_iff`.
-/

namespace Relocate.Catalog

/-! ## Actions that end with an error -/

/-- The action ends with the error and leaves the second state behind. -/
def Fails {α : Type}
    (action : Reconciling α) (before : Progress) (error : Error) (after : Progress) : Prop :=
  action.run.run before = (.error error, after)

namespace Fails

variable {α β : Type} {before after : Progress} {error : Error}

/-- A sequence fails at its first part, or at the second after the first. -/
theorem bind_iff {first : Reconciling α} {next : α → Reconciling β} :
    Fails (first >>= next) before error after ↔
      Fails first before error after ∨
        ∃ a middle, Ends first before a middle ∧ Fails (next a) middle error after := by
  unfold Fails Ends
  rw [ExceptT.run_bind, StateT.run_bind]
  rcases first.run.run before with ⟨result, middle⟩
  cases result with
  | error stopped =>
      constructor
      · intro h
        cases h
        exact .inl rfl
      · rintro (h | ⟨a, other, h, -⟩)
        · cases h
          rfl
        · cases h
  | ok a =>
      constructor
      · intro h
        exact .inr ⟨a, middle, rfl, h⟩
      · rintro (h | ⟨b, other, h, hnext⟩)
        · cases h
        · cases h
          exact hnext

theorem get_bind_iff {next : Progress → Reconciling α} :
    Fails (get >>= next) before error after ↔ Fails (next before) before error after := by
  rw [bind_iff]
  constructor
  · rintro (h | ⟨a, middle, hget, hnext⟩)
    · cases h
    · cases hget
      exact hnext
  · intro h
    exact .inr ⟨before, before, rfl, h⟩

theorem throw_iff {thrown : Error} :
    Fails (throw thrown : Reconciling α) before error after ↔ error = thrown ∧ after = before := by
  unfold Fails
  constructor
  · intro h
    cases h
    exact ⟨rfl, rfl⟩
  · rintro ⟨rfl, rfl⟩
    rfl

theorem not_pure {value : α} : ¬ Fails (pure value) before error after := by
  intro h
  cases h

theorem not_modify {change : Progress → Progress} :
    ¬ Fails (modify change) before error after := by
  intro h
  cases h

theorem not_tell {level : Level} {message : String} :
    ¬ Fails (tell level message) before error after :=
  not_modify

/-- An action ends one way or the other. -/
theorem ends_or_fails (action : Reconciling α) (before : Progress) :
    (∃ value after, Ends action before value after) ∨
      ∃ error after, Fails action before error after := by
  unfold Ends Fails
  rcases action.run.run before with ⟨result, after⟩
  cases result with
  | error error => exact .inr ⟨error, after, rfl⟩
  | ok value => exact .inl ⟨value, after, rfl⟩

end Fails

theorem reconcile_eq_error_iff
    {ids : Nat → String} {catalog : Catalog} {error : Error} :
    (catalog.reconcile ids).result = .error error ↔
      ∃ after, Fails (reconcileTree ids) ⟨catalog, 0, []⟩ error after := by
  unfold reconcile Fails
  rcases (reconcileTree ids).run.run ⟨catalog, 0, []⟩ with ⟨result, after⟩
  constructor
  · intro h
    cases result with
    | error stopped =>
        cases h
        exact ⟨after, rfl⟩
    | ok value => cases h
  · rintro ⟨other, h⟩
    cases h
    rfl

/-! ## Objects that cannot be attached -/

/-- The object at the path cannot be attached, for this reason. -/
inductive Refuses (catalog : Catalog) (path : Path) : Error → Prop
  | rootLevel (hparent : path.parent = []) : Refuses catalog path (.rootLevel path)
  | missingSpace {name : String} (hparent : path.parent = [name])
      (hmissing : [name] ∉ catalog.spacePaths) : Refuses catalog path (.missingSpace name path)

/-- A space of the name is found when there is a space at its path. -/
theorem space?_eq_none_iff {catalog : Catalog} {name : String} :
    catalog.space? name = none ↔ [name] ∉ catalog.spacePaths := by
  simp [space?, spacePaths, Space.path]

theorem Fails.refuses_attach
    {ids : Nat → String} {placement : Placement} {child : Child} {before after : Progress}
    {error : Error} (h : Fails (Catalog.attach ids placement child) before error after) :
    Refuses before.catalog child.path error := by
  unfold Catalog.attach at h
  split at h
  case h_1 hparent =>
      obtain ⟨rfl, -⟩ := Fails.throw_iff.mp h
      exact .rootLevel hparent
  case h_2 name hparent =>
      rw [Catalog.attachToSpace, Fails.get_bind_iff] at h
      split at h
      · rename_i hmissing
        obtain ⟨rfl, -⟩ := Fails.throw_iff.mp h
        exact .missingSpace hparent (space?_eq_none_iff.mp hmissing)
      · rcases Fails.bind_iff.mp h with htell | ⟨_, middle, -, hmodify⟩
        · exact absurd htell Fails.not_tell
        · exact absurd hmodify Fails.not_modify
  case h_3 =>
      rcases Fails.bind_iff.mp h with hensure | ⟨_, middle, -, hattach⟩
      · rw [Catalog.ensureFolder, Fails.get_bind_iff] at hensure
        split at hensure
        · rcases Fails.bind_iff.mp hensure with htell | ⟨_, middle, -, hmodify⟩
          · exact absurd htell Fails.not_tell
          · exact absurd hmodify Fails.not_modify
        · exact absurd hensure Fails.not_pure
      · rcases Fails.bind_iff.mp hattach with htell | ⟨_, middle, -, hmodify⟩
        · exact absurd htell Fails.not_tell
        · exact absurd hmodify Fails.not_modify

/-- Of several objects, those before the refused one are attached. -/
theorem Fails.attachAll_cases
    {ids : Nat → String} {placement : Placement} {children : List Child}
    {before after : Progress} {error : Error}
    (h : Fails (Catalog.attachAll ids placement children) before error after) :
    ∃ done child rest middle, children = done ++ child :: rest ∧
      Ends (Catalog.attachAll ids placement done) before () middle ∧
      Fails (Catalog.attach ids placement child) middle error after := by
  induction children generalizing before with
  | nil => exact absurd h Fails.not_pure
  | cons child rest ih =>
      rcases Fails.bind_iff.mp h with hfirst | ⟨_, middle, hfirst, hrest⟩
      · exact ⟨[], child, rest, before, rfl, Ends.pure_iff.mpr ⟨rfl, rfl⟩, hfirst⟩
      · obtain ⟨done, refused, later, last, rfl, hdone, hrefused⟩ := ih hrest
        have hboth : Ends (Catalog.attachAll ids placement (child :: done)) before () last :=
          Ends.bind_iff.mpr ⟨_, middle, hfirst, hdone⟩
        exact ⟨child :: done, refused, later, last, rfl, hboth, hrefused⟩

/-- A failing pass fails at an object that it attaches, and the spaces are still
those of the start. -/
theorem Fails.refuses_attachAll
    {ids : Nat → String} {placement : Placement} {children : List Child} {start : Catalog}
    {before after : Progress} {error : Error}
    (h : Fails (Catalog.attachAll ids placement children) before error after)
    (hgrown : Grown start before.catalog)
    (horigins : ∀ child ∈ children, child.IsOf start before.catalog)
    (hunlisted : ∀ child ∈ children, child.path ∉ start.listedPaths) :
    ∃ child ∈ children, Refuses start child.path error := by
  obtain ⟨done, child, rest, middle, rfl, hdone, hrefused⟩ := Fails.attachAll_cases h
  have hmiddle : Grown start middle.catalog := by
    apply Ends.grown_attachAll hdone hgrown
    · intro earlier hearlier
      exact horigins earlier (List.mem_append_left _ hearlier)
    · intro earlier hearlier
      exact hunlisted earlier (List.mem_append_left _ hearlier)
  refine ⟨child, List.mem_append_right _ List.mem_cons_self, ?_⟩
  cases Fails.refuses_attach hrefused with
  | rootLevel hparent => exact .rootLevel hparent
  | missingSpace hparent hmissing => exact .missingSpace hparent (hmiddle.spaces ▸ hmissing)

/-- The passes fail in one of them, and what every pass keeps holds before it. -/
theorem Fails.attachFolders_cases
    {ids : Nat → String} {passes : Nat} {before after : Progress} {error : Error}
    {Kept : Catalog → Prop} (h : Fails (Catalog.attachFolders ids passes) before error after)
    (hbefore : Kept before.catalog)
    (hpass : ∀ told middle : Progress,
      Ends (Catalog.attachAll ids .front
        (told.catalog.unreferencedFolders.map fun (id, path) => Child.folder id path))
        told () middle → Kept told.catalog → Kept middle.catalog) :
    ∃ told, Kept told.catalog ∧ Fails (Catalog.attachAll ids .front
      (told.catalog.unreferencedFolders.map fun (id, path) => Child.folder id path))
      told error after := by
  induction passes generalizing before with
  | zero => exact absurd h Fails.not_pure
  | succ passes ih =>
      rw [Catalog.attachFolders, Fails.get_bind_iff] at h
      by_cases hempty : before.catalog.unreferencedFolders.isEmpty = true
      · simp only [hempty, if_true] at h
        exact absurd h Fails.not_pure
      · simp only [hempty] at h
        rcases Fails.bind_iff.mp h with htell | ⟨_, told, htell, h⟩
        · exact absurd htell Fails.not_tell
        · have htold : Kept told.catalog := (catalog_tell htell).symm ▸ hbefore
          rw [← catalog_tell htell] at h
          rcases Fails.bind_iff.mp h with hall | ⟨_, middle, hall, hrest⟩
          · exact ⟨told, htold, hall⟩
          · exact ih hrest (hpass told middle hall htold)

/-! ## Two views at one path -/

/-- The error names the first view whose path an earlier one has, and that one. -/
theorem collisionAfter?_of_not_nodup
    {seen views : List View} (hseen : (seen.map View.path).Nodup)
    (hviews : ¬ ((seen ++ views).map View.path).Nodup) :
    ∃ before first between second after,
      seen ++ views = before ++ first :: between ++ second :: after ∧
      ((before ++ first :: between).map View.path).Nodup ∧ first.path = second.path ∧
      collisionAfter? seen views = some (.pathCollision second.path first.id second.id) := by
  induction views generalizing seen with
  | nil =>
      rw [List.append_nil] at hviews
      exact absurd hseen hviews
  | cons view rest ih =>
      rw [collisionAfter?]
      cases hfind : seen.find? (fun earlier => earlier.path == view.path) with
      | some first =>
          have hpath : first.path = view.path := by simpa using List.find?_some hfind
          obtain ⟨before, between, rfl⟩ := List.append_of_mem (List.mem_of_find?_eq_some hfind)
          exact ⟨before, first, between, view, rest, rfl, hseen, hpath, rfl⟩
      | none =>
          have hfresh : view.path ∉ seen.map View.path := by
            intro hmem
            obtain ⟨earlier, hearlier, hpath⟩ := List.mem_map.mp hmem
            have hother := List.find?_eq_none.mp hfind earlier hearlier
            exact hother (beq_iff_eq.mpr hpath)
          have hmore : ((seen ++ [view]).map View.path).Nodup := by
            rw [List.map_append, List.map_singleton]
            exact List.nodup_append'.mpr ⟨hseen, List.nodup_singleton _,
              List.disjoint_singleton.mpr hfresh⟩
          rw [List.append_cons] at hviews ⊢
          exact ih hmore hviews

theorem Fails.of_collision?
    {ids : Nat → String} {before : Progress} {error : Error}
    (hcollision : before.catalog.collision? = some error) :
    Fails (Catalog.reconcileTree ids) before error before := by
  rw [Catalog.reconcileTree, Fails.get_bind_iff]
  simp only [hcollision]
  exact Fails.throw_iff.mpr ⟨rfl, rfl⟩

/-- The repair fails at once, when it attaches views, or in a pass over folders. -/
theorem Fails.reconcileTree_cases
    {ids : Nat → String} {before after : Progress} {error : Error}
    (h : Fails (Catalog.reconcileTree ids) before error after) :
    before.catalog.collision? = some error ∨
      before.catalog.collision? = none ∧ ∃ merged : Progress,
        merged.catalog = before.catalog.mergeDuplicates.dropDangling ∧
        (Fails (Catalog.attachAll ids .back
            (merged.catalog.unreferencedViews.map fun (id, path) => Child.view id path))
            merged error after ∨
          ∃ attached, Ends (Catalog.attachAll ids .back
              (merged.catalog.unreferencedViews.map fun (id, path) => Child.view id path))
              merged () attached ∧
            Fails (Catalog.attachFolders ids (attached.catalog.maxFolderLength + 1)) attached
              error after) := by
  rw [Catalog.reconcileTree, Fails.get_bind_iff] at h
  cases hcollision : before.catalog.collision? with
  | some stopped =>
      simp only [hcollision] at h
      obtain ⟨rfl, -⟩ := Fails.throw_iff.mp h
      exact .inl rfl
  | none =>
      simp only [hcollision] at h
      rcases Fails.bind_iff.mp h with hmerge | ⟨_, merged, hmerge, h⟩
      · exact absurd hmerge Fails.not_modify
      · refine .inr ⟨rfl, merged, ?_, ?_⟩
        · rw [Ends.modify_iff.mp hmerge]
        · rw [Fails.get_bind_iff] at h
          rcases Fails.bind_iff.mp h with hviews | ⟨_, attached, hviews, h⟩
          · exact .inl hviews
          · rw [Fails.get_bind_iff] at h
            exact .inr ⟨attached, hviews, h⟩

/-! ## What an error speaks of -/

theorem Path.parent_prefix (path : Path) : path.parent <+: path :=
  List.dropLast_prefix path

/-- A proper prefix of a path is one of its parent. -/
theorem Path.prefix_parent
    {path below : Path} (hstarts : path <+: below) (hne : path ≠ below) :
    path <+: below.parent := by
  have hbelow : below ≠ [] := by
    rintro rfl
    exact hne (List.prefix_nil.mp hstarts)
  have hsplit := List.dropLast_append_getLast hbelow
  rw [← hsplit, List.prefix_concat_iff] at hstarts
  rcases hstarts with hsame | hparent
  · exact absurd (hsame.trans hsplit) hne
  · exact hparent

/-- A folder that has to be made up lies above an object that exists. -/
theorem MadeUp.lies_above {catalog : Catalog} {path : Path} (h : catalog.MadeUp path) :
    ∃ below ∈ catalog.existingPaths, path <+: below ∧ path.length < below.length := by
  have hshorter : ∀ {other : Path}, 2 ≤ other.parent.length →
      other.parent.length < other.length := by
    intro other hlong
    apply Path.length_parent_lt
    intro hnil
    simp [hnil] at hlong
  induction h with
  | above hexists _ hlong _ => exact ⟨_, hexists, Path.parent_prefix _, hshorter hlong⟩
  | higher _ _ hlong _ ih =>
      obtain ⟨below, hbelow, hstarts, hlength⟩ := ih
      exact ⟨below, hbelow, (Path.parent_prefix _).trans hstarts,
        Nat.lt_trans (hshorter hlong) hlength⟩

theorem Grown.exists_or_madeUp
    {start after : Catalog} (h : Grown start after) {child : Child}
    (horigin : child.IsOf start after) :
    child.path ∈ start.existingPaths ∨ start.MadeUp child.path := by
  rcases horigin with ⟨id, path, rfl, hlabel⟩ | ⟨id, path, rfl, hlabel⟩
  · exact .inl (mem_existingPaths.mpr (.inr (mem_viewPaths_of_label hlabel)))
  · rcases h.fresh _ hlabel with hold | hmadeUp
    · exact .inl (mem_existingPaths.mpr (.inl (mem_folderPaths_of_label hold)))
    · exact .inr hmadeUp

/-- A repair without two views at one path fails at an object of the catalog, or
at a folder that it has to make up. -/
theorem Fails.refuses_reconcileTree
    {ids : Nat → String} {before after : Progress} {error : Error}
    (h : Fails (Catalog.reconcileTree ids) before error after)
    (hcollision : before.catalog.collision? = none) :
    ∃ path, (path ∈ before.catalog.mergeDuplicates.dropDangling.existingPaths ∨
        before.catalog.mergeDuplicates.dropDangling.MadeUp path) ∧
      Refuses before.catalog.mergeDuplicates.dropDangling path error := by
  rcases Fails.reconcileTree_cases h with hsome | ⟨-, merged, hmerged, h⟩
  · rw [hcollision] at hsome
    cases hsome
  · rw [← hmerged]
    have hstart := Grown.refl merged.catalog
    rcases h with hviews | ⟨attached, hviews, hfolders⟩
    · obtain ⟨child, hchild, hrefuses⟩ := Fails.refuses_attachAll hviews hstart
        (fun child hchild => (isOf_unlistedView hchild).1)
        (fun child hchild => (isOf_unlistedView hchild).2)
      exact ⟨child.path, hstart.exists_or_madeUp (isOf_unlistedView hchild).1, hrefuses⟩
    · obtain ⟨told, htold, hall⟩ := Fails.attachFolders_cases hfolders
        (Ends.grown_attachViews hviews) fun _ _ => Ends.grown_pass
      obtain ⟨child, hchild, hrefuses⟩ := Fails.refuses_attachAll hall htold
        (fun child hchild => (htold.isOf_unlistedFolder hchild).1)
        (fun child hchild => (htold.isOf_unlistedFolder hchild).2)
      exact ⟨child.path, htold.exists_or_madeUp (htold.isOf_unlistedFolder hchild).1, hrefuses⟩

/-! ## Objects in spaces -/

/-- The path has a container above it, and its first segment names a space. -/
def InSpace (catalog : Catalog) (path : Path) : Prop :=
  2 ≤ path.length ∧ ∃ space ∈ catalog.spaces, path.root? = some space.name

theorem inSpace_iff {catalog : Catalog} {path : Path} :
    catalog.InSpace path ↔
      2 ≤ path.length ∧ ∃ name, path.root? = some name ∧ [name] ∈ catalog.spacePaths := by
  unfold InSpace
  refine and_congr_right fun _ => ?_
  constructor
  · rintro ⟨space, hspace, hroot⟩
    exact ⟨space.name, hroot, List.mem_map_of_mem hspace⟩
  · rintro ⟨name, hroot, hname⟩
    obtain ⟨space, hspace, hpath⟩ := List.mem_map.mp hname
    have hsame : space.name = name := List.singleton_inj.mp hpath
    exact ⟨space, hspace, hsame ▸ hroot⟩

/-- Being in a space is a matter of the names of the spaces. -/
theorem inSpace_congr {catalog other : Catalog} (hspaces : catalog.spacePaths = other.spacePaths)
    {path : Path} : catalog.InSpace path ↔ other.InSpace path := by
  rw [inSpace_iff, inSpace_iff, hspaces]

theorem Path.root?_of_prefix
    {path below : Path} (hstarts : path <+: below) (hpath : path ≠ []) :
    path.root? = below.root? := by
  obtain ⟨rest, rfl⟩ := hstarts
  obtain ⟨first, others, rfl⟩ := List.exists_cons_of_ne_nil hpath
  rfl

/-- A folder that has to be made up is in the space of the objects below it. -/
theorem MadeUp.inSpace
    {catalog : Catalog} {path : Path} (h : catalog.MadeUp path)
    (hexisting : ∀ below ∈ catalog.existingPaths, catalog.InSpace below) :
    catalog.InSpace path := by
  obtain ⟨below, hbelow, hstarts, -⟩ := h.lies_above
  obtain ⟨-, space, hspace, hroot⟩ := hexisting below hbelow
  have hpath : path ≠ [] := List.ne_nil_of_length_pos (by have := h.two_le_length; omega)
  exact ⟨h.two_le_length, space, hspace, (Path.root?_of_prefix hstarts hpath).trans hroot⟩

/-- An object in a space can be attached. -/
theorem Refuses.not_inSpace
    {catalog : Catalog} {path : Path} {error : Error} (h : Refuses catalog path error) :
    ¬ catalog.InSpace path := by
  rw [inSpace_iff]
  rintro ⟨hlong, name, hroot, hname⟩
  have hlength : path.parent.length = path.length - 1 := List.length_dropLast
  cases h with
  | rootLevel hparent =>
      rw [hparent, List.length_nil] at hlength
      omega
  | missingSpace hparent hmissing =>
      have hparentRoot := Path.root?_of_prefix (Path.parent_prefix path)
        (by rw [hparent]; exact List.cons_ne_nil _ _)
      rw [hparent, hroot] at hparentRoot
      obtain rfl := Option.some.inj hparentRoot
      exact hmissing hname

/-- The repair succeeds when no two views are at one path and every folder and
every view is in a space, whatever the entries are. -/
theorem reconcile_succeeds_of_inSpace
    (ids : Nat → String) {catalog : Catalog} (hviews : catalog.viewPaths.Nodup)
    (hexisting : ∀ path ∈ catalog.existingPaths, catalog.InSpace path) :
    ∃ final count, (catalog.reconcile ids).result = .ok (final, count) := by
  rcases Fails.ends_or_fails (reconcileTree ids) ⟨catalog, 0, []⟩ with
    ⟨⟨⟩, after, hends⟩ | ⟨error, after, hfails⟩
  · exact ⟨after.catalog, after.synthesized, reconcile_eq_ok_iff.mpr ⟨after.log, hends⟩⟩
  · exfalso
    have hcollision := collision?_eq_none_iff.mpr hviews
    obtain ⟨hspaces, hfolders, hsameViews⟩ := mergedPaths catalog
    have hstart : ∀ path ∈ catalog.mergeDuplicates.dropDangling.existingPaths,
        catalog.mergeDuplicates.dropDangling.InSpace path := by
      intro path hpath
      rw [inSpace_congr hspaces]
      apply hexisting
      rw [mem_existingPaths] at hpath ⊢
      rw [viewPaths, hsameViews, hfolders] at hpath
      exact hpath
    obtain ⟨path, horigin, hrefuses⟩ := Fails.refuses_reconcileTree hfails hcollision
    apply hrefuses.not_inSpace
    rcases horigin with hexists | hmadeUp
    · exact hstart path hexists
    · exact hmadeUp.inSpace hstart

/-! ## Following entries up to a space -/

/-- What is listed is in a space when all folders are listed: its container is a
space, or a folder that is listed itself. -/
theorem Housed.inSpace
    {catalog : Catalog} (hhoused : catalog.Housed)
    (hfolders : ∀ path ∈ catalog.folderPaths, path ∈ catalog.listedPaths)
    {path : Path} (hlisted : path ∈ catalog.listedPaths) : catalog.InSpace path := by
  obtain ⟨space, hspace, hroot, -⟩ := hhoused.reachedFrom hfolders hlisted
  refine ⟨?_, space, hspace, hroot⟩
  obtain ⟨owner, child, hentry, rfl⟩ := mem_listedPaths.mp hlisted
  have howner : child.path.parent = owner := hhoused.owned _ hentry
  have hparent : child.path.parent ≠ [] := by
    rw [howner]
    rcases mem_listings.mp hentry with ⟨other, -, rfl, -⟩ | ⟨folder, hfolder, rfl, -⟩
    · exact List.cons_ne_nil _ _
    · exact hhoused.rooted folder hfolder
  have hshorter := Path.length_parent_lt hparent
  have hpositive : 0 < child.path.parent.length := List.length_pos_of_ne_nil hparent
  omega

theorem Housed.of_merged {catalog : Catalog} (hhoused : catalog.Housed) :
    catalog.mergeDuplicates.dropDangling.Housed where
  owned := by
    intro entry hentry
    have hmerged := (listings_dropDangling _).subset hentry
    exact hhoused.owned entry ((listings_mergeDuplicates catalog).subset hmerged)
  rooted := by
    intro folder hfolder
    have hpath : folder.path ∈ catalog.folderPaths :=
      ((mergedPaths catalog).2.1 _).mp (List.mem_map_of_mem hfolder)
    obtain ⟨before, hbefore, heq⟩ := List.mem_map.mp hpath
    rw [← heq]
    exact hhoused.rooted before hbefore

/-- A tree grows by entries in parents and by folders with paths. -/
theorem Grown.housed
    {start after : Catalog} (h : Grown start after) (hstart : start.Housed) : after.Housed where
  owned := by
    intro entry hentry
    rcases h.entries entry hentry with hold | ⟨howner, -, -⟩
    · exact hstart.owned entry hold
    · exact howner.symm
  rooted := by
    intro folder hfolder
    rcases h.fresh (folder.id, folder.path) (List.mem_map_of_mem hfolder) with hold | hmadeUp
    · obtain ⟨before, hbefore, heq⟩ := List.mem_map.mp (mem_folderPaths_of_label hold)
      have hpath : before.path = folder.path := heq
      exact hpath ▸ hstart.rooted before hbefore
    · intro hnil
      have hlong := hmadeUp.two_le_length
      simp [hnil] at hlong

/-- In a repaired tree all folders and views are in spaces. -/
theorem inSpace_of_reconcile
    {ids : Nat → String} {catalog final : Catalog} {count : Nat} (hhoused : catalog.Housed)
    (h : (catalog.reconcile ids).result = .ok (final, count)) :
    ∀ path ∈ final.existingPaths, final.InSpace path := by
  have hrepaired := Repaired.of_reconcile h
  obtain ⟨after, hends, rfl⟩ := ends_of_reconcile h
  have hfinal : after.catalog.Housed := (Ends.grown_reconcileTree hends).housed hhoused.of_merged
  intro path hpath
  apply hfinal.inSpace hrepaired.folders_listed
  rcases mem_existingPaths.mp hpath with hfolder | hview
  · exact hrepaired.folders_listed path hfolder
  · exact hrepaired.views_listed path hview

/-- The folders and views of the input are in spaces too, when it can be repaired. -/
theorem inSpace_of_repairable
    {ids : Nat → String} {catalog final : Catalog} {count : Nat} (hhoused : catalog.Housed)
    (h : (catalog.reconcile ids).result = .ok (final, count)) :
    ∀ path ∈ catalog.existingPaths, catalog.InSpace path := by
  have hfinal := inSpace_of_reconcile hhoused h
  obtain ⟨after, hends, rfl⟩ := ends_of_reconcile h
  have hgrown := Ends.grown_reconcileTree hends
  obtain ⟨hspaces, hfolders, -⟩ := mergedPaths catalog
  intro path hpath
  have hstays : path ∈ after.catalog.existingPaths := by
    rw [mem_existingPaths] at hpath ⊢
    rcases hpath with hfolder | hview
    · exact .inl (hgrown.mem_folderPaths ((hfolders path).mpr hfolder))
    · rw [viewPaths, Ends.views_reconcileTree hends]
      exact .inr hview
  exact (inSpace_congr (hgrown.spaces.trans hspaces)).mp (hfinal path hstays)

/-! ## Success and failure -/

/-- When every entry is in the parent of what it lists and every folder has a
path, a tree can be put together exactly when no two views are at one path and
every folder and every view has a container above it and a space by the name of
its first segment.  Two views at one path are an error in any case, which names
the first view that is at the path of an earlier one; nothing has changed by then
and nothing has been told. -/
theorem reconcile_succeeds_iff (ids : Nat → String) (catalog : Catalog) :
    (catalog.Housed →
      ((∃ final count, (catalog.reconcile ids).result = .ok (final, count)) ↔
        catalog.viewPaths.Nodup ∧
          ∀ path, path ∈ catalog.folderPaths ∨ path ∈ catalog.viewPaths →
            2 ≤ path.length ∧ ∃ space ∈ catalog.spaces, path.root? = some space.name)) ∧
    (¬ catalog.viewPaths.Nodup →
      ∃ before first between second after,
        catalog.views = before ++ first :: between ++ second :: after ∧
        ((before ++ first :: between).map View.path).Nodup ∧ first.path = second.path ∧
        (catalog.reconcile ids).result =
          .error (.pathCollision second.path first.id second.id) ∧
        Fails (reconcileTree ids) ⟨catalog, 0, []⟩
          (.pathCollision second.path first.id second.id) ⟨catalog, 0, []⟩) := by
  constructor
  · intro hhoused
    constructor
    · rintro ⟨final, count, h⟩
      obtain ⟨after, hends, -⟩ := ends_of_reconcile h
      refine ⟨nodup_viewPaths_of_collision? (Ends.reconcileTree_cases hends).1, ?_⟩
      intro path hpath
      exact inSpace_of_repairable hhoused h path (mem_existingPaths.mpr hpath)
    · rintro ⟨hviews, hexisting⟩
      apply reconcile_succeeds_of_inSpace ids hviews
      intro path hpath
      exact hexisting path (mem_existingPaths.mp hpath)
  · intro hviews
    obtain ⟨before, first, between, second, after, hsplit, hnodup, hpath, hcollision⟩ :=
      @collisionAfter?_of_not_nodup [] catalog.views List.nodup_nil hviews
    have hfails := @Fails.of_collision? ids ⟨catalog, 0, []⟩ _ hcollision
    exact ⟨before, first, between, second, after, hsplit, hnodup, hpath,
      reconcile_eq_error_iff.mpr ⟨_, hfails⟩, hfails⟩

/-- Two views at one path, and a folder whose space is missing. -/
def twins : Catalog := { ordersInProd with
  folders := [⟨"lost", ["Elsewhere", "Lost"], [], none, none, []⟩]
  views := [
    ⟨"here", ["Prod", "Orders"], "SELECT 1", none, [], none⟩,
    ⟨"there", ["Prod", "Orders"], "SELECT 2", none, [], none⟩] }

/-- The tree of `Prod.Sales.Orders` is put together, and with the lost folder it is
not; twins are found before that folder is. -/
theorem ordersInProd_succeeds_twins_collide :
    ordersInProd.Housed ∧
    (∃ final count, (ordersInProd.reconcile (FolderId.supply 0)).result = .ok (final, count)) ∧
    (¬ ∃ final count, (({ twins with views := [] } : Catalog).reconcile
      (FolderId.supply 0)).result = .ok (final, count)) ∧
    ¬ twins.viewPaths.Nodup ∧
    ∃ first ∈ twins.views, ∃ second ∈ twins.views, (twins.reconcile (FolderId.supply 0)).result =
      .error (.pathCollision second.path first.id second.id) := by
  have hhoused : ordersInProd.Housed := ⟨by decide, by decide⟩
  have htwins : ({ twins with views := [] } : Catalog).Housed := ⟨by decide, by decide⟩
  have hnodup : ¬ twins.viewPaths.Nodup := by decide
  have hsucceeds := (reconcile_succeeds_iff (FolderId.supply 0) ordersInProd).1 hhoused
  have hrefused := (reconcile_succeeds_iff (FolderId.supply 0) { twins with views := [] }).1 htwins
  refine ⟨hhoused, hsucceeds.mpr ⟨by decide, ?_⟩, ?_, hnodup, ?_⟩
  · intro path hpath
    rcases hpath with hfolder | hview
    · obtain rfl := List.mem_singleton.mp hfolder
      exact ⟨by decide, _, List.mem_singleton_self _, rfl⟩
    · obtain rfl := List.mem_singleton.mp hview
      exact ⟨by decide, _, List.mem_singleton_self _, rfl⟩
  · intro hok
    obtain ⟨-, space, hspace, hroot⟩ :=
      (hrefused.mp hok).2 ["Elsewhere", "Lost"] (.inl List.mem_cons_self)
    obtain rfl := List.mem_singleton.mp hspace
    exact absurd hroot (by decide)
  · obtain ⟨before, first, between, second, after, hsplit, -, -, hresult, -⟩ :=
      (reconcile_succeeds_iff (FolderId.supply 0) twins).2 hnodup
    exact ⟨first, by simp [hsplit], second, by simp [hsplit], hresult⟩

end Relocate.Catalog
