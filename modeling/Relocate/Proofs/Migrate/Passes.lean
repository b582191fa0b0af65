import Relocate.Proofs.Migrate.Synthesis

/-!
# The passes over unlisted folders come to an end

`attachFolders` is told how many passes it may make.  `Loops` is the loop without
such a bound: it looks for unlisted folders, attaches all of them, and looks again.
A pass may leave as many unlisted folders as it found, but not as deep ones: it
lists every folder that was there, and what it makes up lies above one of them
(`Ends.climbs_folderPass`).  So the longest path of an unlisted folder gets shorter
with every pass, and a pass that meets a folder without a container above it fails.

`attachFolders_stops` says that the loop stops for every catalog, tidy or not, and
that the bound which the repair of a tree gives to `attachFolders` is never reached.
-/

namespace Relocate.Catalog

/-! ## One pass -/

/-- One pass: all folders that nothing lists are attached. -/
def folderPass (ids : Nat → String) : Reconciling Unit := do
  let orphans := (← get).catalog.unreferencedFolders
  tell .debug ("Attaching " ++ toString orphans.length ++ " unlisted folders")
  attachAll ids .front (orphans.map fun (id, path) => Child.folder id path)

/-- The loop without a bound.  It stops after so many passes, the last of which finds
nothing unlisted or fails. -/
inductive Loops (ids : Nat → String) :
    Nat → Progress → Except Error Unit → Progress → Prop
  | done {before : Progress} (hnone : before.catalog.unreferencedFolders = []) :
      Loops ids 1 before (.ok ()) before
  | failed {before after : Progress} {error : Error}
      (hsome : before.catalog.unreferencedFolders ≠ [])
      (hpass : Fails (folderPass ids) before error after) :
      Loops ids 1 before (.error error) after
  | again {passes : Nat} {before middle after : Progress} {result : Except Error Unit}
      (hsome : before.catalog.unreferencedFolders ≠ [])
      (hpass : Ends (folderPass ids) before () middle)
      (hrest : Loops ids passes middle result after) :
      Loops ids (passes + 1) before result after

theorem run_get_bind {α : Type} (next : Progress → Reconciling α) (before : Progress) :
    (get >>= next).run.run before = (next before).run.run before := rfl

theorem Ends.run_bind
    {α β : Type} {first : Reconciling α} {next : α → Reconciling β} {a : α}
    {before middle : Progress} (h : Ends first before a middle) :
    (first >>= next).run.run before = (next a).run.run middle := by
  rw [ExceptT.run_bind, StateT.run_bind, h]
  rfl

/-- The bounded loop looks once, and goes on behind a pass as the unbounded one does. -/
theorem run_attachFolders
    (ids : Nat → String) (bound : Nat) (before : Progress) :
    (attachFolders ids (bound + 1)).run.run before =
      if before.catalog.unreferencedFolders = [] then (.ok (), before)
      else (folderPass ids >>= fun _ => attachFolders ids bound).run.run before := by
  rw [attachFolders, run_get_bind]
  by_cases hnone : before.catalog.unreferencedFolders = []
  · rw [if_pos hnone, hnone]
    rfl
  · have hlook : ¬ before.catalog.unreferencedFolders.isEmpty = true :=
      mt List.isEmpty_iff.mp hnone
    rw [if_neg hnone, if_neg hlook, folderPass, bind_assoc, run_get_bind, bind_assoc]

/-- What a completed pass does to a state is what attaching its orphans does. -/
theorem Ends.folderPass
    {ids : Nat → String} {before after : Progress} {value : Unit}
    (h : Ends (Catalog.folderPass ids) before value after) :
    ∃ told : Progress, told.catalog = before.catalog ∧ told.synthesized = before.synthesized ∧
      Ends (Catalog.attachAll ids .front
        (before.catalog.unreferencedFolders.map fun (id, path) => Child.folder id path))
        told value after := by
  rw [Catalog.folderPass, Ends.get_bind_iff] at h
  obtain ⟨_, told, htell, hall⟩ := Ends.bind_iff.mp h
  exact ⟨told, catalog_tell htell, by rw [Ends.tell_iff.mp htell], hall⟩

/-! ## What a pass leaves -/

/-- The unlisted folders before the pass are listed after it, and those after it
were made up in the pass, each right above an unlisted folder before it. -/
structure Climbs (ids : Nat → String) (before after : Progress) : Prop where
  listed : ∀ path ∈ before.catalog.unreferencedFolders.map Prod.snd,
    path ∈ after.catalog.listedPaths
  higher : ∀ folder ∈ after.catalog.folders, folder.path ∉ after.catalog.listedPaths →
    folder.path ∉ before.catalog.folderPaths ∧
    (∃ index, before.synthesized ≤ index ∧ index < after.synthesized ∧
      folder.bare = Folder.synthesized (ids index) folder.path) ∧
    ∃ orphan ∈ before.catalog.unreferencedFolders.map Prod.snd,
      orphan.parent = folder.path ∧ folder.path.length < orphan.length

theorem Ends.climbs_folderPass
    {ids : Nat → String} {before after : Progress} {value : Unit}
    (h : Ends (Catalog.folderPass ids) before value after) : Climbs ids before after := by
  obtain ⟨told, htold, hcount, hall⟩ := Ends.folderPass h
  have halso := (Ends.attachAll hall).listed
  have hmadeUp := Ends.synthesizes_attachAll hall
  rw [paths_map_folder, htold] at halso hmadeUp
  refine ⟨fun path hpath => halso.mem_iff.mpr (List.mem_append_left _ hpath), ?_⟩
  intro folder hfolder hunlisted
  have hbare : folder.bare ∈ after.catalog.outline.folders := List.mem_map_of_mem hfolder
  rw [hmadeUp.outline, hcount, htold, Placement.mem_add] at hbare
  rcases hbare with hnew | hold
  · obtain ⟨index, hfirst, hlast, heq⟩ := exists_of_mem_synthesizedAt hnew
    have hgap : folder.bare.path ∈ (synthesizedAt ids before.synthesized _).map Folder.path :=
      List.mem_map_of_mem hnew
    rw [paths_synthesizedAt] at hgap
    obtain ⟨⟨orphan, horphan, hparent⟩, hlong, hfresh⟩ := mem_missingParents.mp hgap
    refine ⟨hfresh, ⟨index, hfirst, ?_, heq⟩, orphan, horphan, hparent, ?_⟩
    · rw [hmadeUp.synthesized, hcount]
      exact hlast
    · have hnil : orphan.parent ≠ [] := by
        rw [hparent]
        exact List.ne_nil_of_length_pos (by omega)
      have hshorter := Path.length_parent_lt hnil
      rwa [hparent] at hshorter
  · -- A folder that was there is listed by now, whether it was before or not.
    have hpath : folder.path ∈ before.catalog.folderPaths := by
      rw [← folderPaths_outline]
      exact List.mem_map.mpr ⟨folder.bare, hold, rfl⟩
    refine absurd (halso.mem_iff.mpr (List.mem_append.mpr ?_)) hunlisted
    rw [paths_unreferencedFolders, mem_filter_unreferenced]
    by_cases hlisted : folder.path ∈ before.catalog.listedPaths
    · exact .inr hlisted
    · exact .inl ⟨hpath, hlisted⟩

/-- Only objects with a container above them are attached. -/
theorem Ends.two_le_length_of_attachAll
    {ids : Nat → String} {placement : Placement} {children : List Child}
    {before after : Progress} {value : Unit}
    (h : Ends (Catalog.attachAll ids placement children) before value after) :
    ∀ path ∈ children.map Child.path, 2 ≤ path.length := by
  induction children generalizing before with
  | nil => exact fun _ hpath => absurd hpath List.not_mem_nil
  | cons child rest ih =>
      obtain ⟨_, middle, hfirst, hrest⟩ := Ends.bind_iff.mp h
      have hparent := (Ends.attach hfirst).parent_ne_nil
      have hlength := Path.length_parent_lt hparent
      have hpositive := List.length_pos_of_ne_nil hparent
      intro path hpath
      rcases List.mem_cons.mp hpath with rfl | hlater
      · omega
      · exact ih hrest path hlater

/-- After a pass the unlisted folders are not as deep as before. -/
theorem Ends.length_lt_of_folderPass
    {ids : Nat → String} {depth : Nat} {before after : Progress} {value : Unit}
    (h : Ends (Catalog.folderPass ids) before value after)
    (hdepth : ∀ path ∈ before.catalog.unreferencedFolders.map Prod.snd, path.length ≤ depth) :
    ∀ path ∈ after.catalog.unreferencedFolders.map Prod.snd, path.length ≤ depth - 1 := by
  intro path hpath
  rw [paths_unreferencedFolders, mem_filter_unreferenced] at hpath
  obtain ⟨hfolder, hunlisted⟩ := hpath
  obtain ⟨folder, hmem, rfl⟩ := List.mem_map.mp hfolder
  obtain ⟨-, -, orphan, horphan, -, hshorter⟩ :=
    (Ends.climbs_folderPass h).higher folder hmem hunlisted
  have hbound := hdepth orphan horphan
  omega

/-! ## All passes -/

/-- A bound that is as large as the number of passes makes no difference. -/
theorem Loops.run_attachFolders
    {ids : Nat → String} {passes bound : Nat} {before after : Progress}
    {result : Except Error Unit} (h : Loops ids passes before result after)
    (hbound : passes ≤ bound) : (attachFolders ids bound).run.run before = (result, after) := by
  induction h generalizing bound with
  | done hnone =>
      obtain ⟨bound, rfl⟩ := Nat.exists_eq_add_of_le' hbound
      rw [Catalog.run_attachFolders, if_pos hnone]
  | failed hsome hpass =>
      obtain ⟨bound, rfl⟩ := Nat.exists_eq_add_of_le' hbound
      rw [Catalog.run_attachFolders, if_neg hsome]
      exact Fails.bind_iff.mpr (.inl hpass)
  | @again passes before middle after result hsome hpass hrest ih =>
      obtain ⟨more, rfl⟩ := Nat.exists_eq_add_of_le hbound
      rw [Nat.add_right_comm, Catalog.run_attachFolders, if_neg hsome, hpass.run_bind]
      exact ih (Nat.le_add_right passes more)

/-- The loop stops after at most one pass more than the deepest unlisted folder has
segments. -/
theorem exists_loops
    (ids : Nat → String) {depth : Nat} {before : Progress}
    (hdepth : ∀ path ∈ before.catalog.unreferencedFolders.map Prod.snd, path.length ≤ depth) :
    ∃ passes result after, passes ≤ depth + 1 ∧ Loops ids passes before result after := by
  induction depth using Nat.strongRecOn generalizing before with
  | ind depth ih =>
    by_cases hnone : before.catalog.unreferencedFolders = []
    · exact ⟨1, _, _, Nat.le_add_left 1 depth, .done hnone⟩
    · rcases Fails.ends_or_fails (folderPass ids) before with
        ⟨_, middle, hpass⟩ | ⟨error, after, hpass⟩
      · obtain ⟨orphan, horphan⟩ := List.exists_mem_of_ne_nil _ hnone
        have hmem : orphan.2 ∈ before.catalog.unreferencedFolders.map Prod.snd :=
          List.mem_map_of_mem horphan
        have hlow := hdepth _ hmem
        have hlong : 2 ≤ orphan.2.length := by
          obtain ⟨told, -, -, hall⟩ := Ends.folderPass hpass
          have horphans := Ends.two_le_length_of_attachAll hall
          rw [paths_map_folder] at horphans
          exact horphans _ hmem
        obtain ⟨passes, result, after, hpasses, hrest⟩ :=
          ih (depth - 1) (by omega) (Ends.length_lt_of_folderPass hpass hdepth)
        exact ⟨passes + 1, result, after, by omega, .again hnone hpass hrest⟩
      · exact ⟨1, _, after, Nat.le_add_left 1 depth, .failed hnone hpass⟩

/-- The repair of the catalog comes to the loop over unlisted folders in this state:
no two views share a path, and all unlisted views have been attached. -/
def EntersLoop (ids : Nat → String) (catalog : Catalog) (entry : Progress) : Prop :=
  catalog.collision? = none ∧
    let merged := catalog.mergeDuplicates
    Ends (attachAll ids .back
      (merged.dropDangling.unreferencedViews.map fun (id, path) => Child.view id path))
      ⟨merged.dropDangling, 0, mergeLogAfter [] catalog.folders ++ merged.dropDanglingLog⟩ () entry

theorem EntersLoop.run_reconcileTree
    {ids : Nat → String} {catalog : Catalog} {entry : Progress}
    (h : EntersLoop ids catalog entry) :
    (reconcileTree ids).run.run ⟨catalog, 0, []⟩ =
      (attachFolders ids (entry.catalog.maxFolderLength + 1)).run.run entry := by
  obtain ⟨hcollision, hviews⟩ := h
  rw [reconcileTree, run_get_bind]
  simp only [hcollision]
  exact hviews.run_bind

/-- Whatever a catalog lists, the loop over its unlisted folders stops, well or with
an error, after at most one pass more than the longest path of a folder has
segments; so does the one in the repair of a tree, which ends as the loop without a
bound does.  Each completed pass lists the folders that were unlisted before it;
those that are unlisted after it were made up in it, and each is shorter than one
before it. -/
theorem attachFolders_stops (ids : Nat → String) :
    (∀ entry : Progress, ∃ passes result last,
      Loops ids passes entry result last ∧ passes ≤ entry.catalog.maxFolderLength + 1 ∧
      (∀ bound, passes ≤ bound → (attachFolders ids bound).run.run entry = (result, last)) ∧
      ∀ catalog, EntersLoop ids catalog entry →
        (reconcileTree ids).run.run ⟨catalog, 0, []⟩ = (result, last)) ∧
    ∀ before after, Ends (folderPass ids) before () after → Climbs ids before after := by
  refine ⟨?_, fun before after hpass => Ends.climbs_folderPass hpass⟩
  intro entry
  have hdepth : ∀ path ∈ entry.catalog.unreferencedFolders.map Prod.snd,
      path.length ≤ entry.catalog.maxFolderLength := by
    intro path hpath
    rw [paths_unreferencedFolders] at hpath
    exact length_le_maxFolderLength (List.mem_filter.mp hpath).1
  obtain ⟨passes, result, last, hpasses, hloops⟩ := exists_loops ids hdepth
  refine ⟨passes, result, last, hloops, hpasses, fun _ => hloops.run_attachFolders, ?_⟩
  intro catalog henters
  rw [henters.run_reconcileTree]
  exact hloops.run_attachFolders hpasses

end Relocate.Catalog
