import Mathlib.Data.List.Basic
import Relocate.Files.Model

/-!
# Files that were written

A name leads to the same place as long as the directories on the way stay, and
the place is that of its parts.  So a file in a directory is found again where it
was written, and files of different names in one directory are at different
places.
-/

namespace Relocate.Files

/-! ## Parts of names -/

theorem splitSlashes_ne_nil (name : List Char) : splitSlashes name ≠ [] := by
  cases name with
  | nil => exact List.cons_ne_nil _ _
  | cons c rest =>
    rw [splitSlashes]
    split
    · exact List.cons_ne_nil _ _
    · split <;> exact List.cons_ne_nil _ _

theorem splitSlashes_append (first second : List Char) :
    splitSlashes (first ++ '/' :: second) = splitSlashes first ++ splitSlashes second := by
  induction first with
  | nil => rfl
  | cons c first ih =>
    by_cases hc : c = '/'
    · simp [splitSlashes, hc, ih]
    · simp only [List.cons_append, splitSlashes, if_neg hc, ih]
      cases hparts : splitSlashes first with
      | nil => exact absurd hparts (splitSlashes_ne_nil first)
      | cons part parts => rfl

theorem splitSlashes_of_not_mem {name : List Char} (hname : '/' ∉ name) :
    splitSlashes name = [name] := by
  induction name with
  | nil => rfl
  | cons c rest ih =>
    have hc : c ≠ '/' := fun h => hname (h ▸ List.mem_cons_self)
    rw [splitSlashes, if_neg hc, ih (List.not_mem_of_not_mem_cons hname)]

theorem endsWith_slash (name : String) : name.endsWith "/" = decide (['/'] <:+ name.toList) := by
  rw [Bool.eq_iff_iff, decide_eq_true_iff, String.endsWith_eq_endsWith_toSlice,
    String.Slice.endsWith_string_iff, String.copy_toSlice]
  exact Iff.rfl

theorem startsWith_slash (name : String) :
    name.startsWith "/" = decide (['/'] <+: name.toList) := by
  rw [Bool.eq_iff_iff, decide_eq_true_iff, String.startsWith_eq_startsWith_toSlice,
    String.Slice.startsWith_string_iff, String.copy_toSlice]
  exact Iff.rfl

/-- The name of a file in its directory. -/
def IsFileName (file : String) : Bool :=
  !file.toList.contains '/' && file != "" && file != "." && file != ".."

theorem parts_inDirectory (directory : String) {file : String} (hfile : IsFileName file = true) :
    parts (inDirectory directory file) = parts directory ++ [file] := by
  simp only [IsFileName, Bool.and_eq_true, Bool.not_eq_true', bne_iff_ne, ne_eq,
    List.contains_eq_mem, decide_eq_false_iff_not] at hfile
  obtain ⟨⟨⟨hslash, hempty⟩, -⟩, -⟩ := hfile
  have hlast : ((splitSlashes file.toList).filter fun part => !part.isEmpty) = [file.toList] := by
    have hne : file.toList ≠ [] := by simpa using hempty
    rw [splitSlashes_of_not_mem hslash]
    simp [hne]
  unfold inDirectory
  split
  · next hends =>
    rw [Bool.or_eq_true] at hends
    rcases hends with hdirectory | hends
    · have hdirectory : directory = "" := by simpa using hdirectory
      subst hdirectory
      simp [parts, hlast, splitSlashes]
    · rw [endsWith_slash, decide_eq_true_iff] at hends
      obtain ⟨above, habove⟩ := hends
      simp [parts, ← habove, splitSlashes_append, hlast, splitSlashes]
  · simp [parts, splitSlashes_append, hlast]

namespace Tree

variable {tree other : Tree} {name : String} {place : Place}

/-! ## Places -/

/-- The directories of the first tree are directories of the second. -/
def KeepsDirectories (tree other : Tree) : Prop :=
  ∀ place, tree.at? place = some .directory → other.at? place = some .directory

theorem follow_eq {here : Place} {names : List String}
    (hfollow : tree.follow here names = .ok place) : place = names.foldl enter here := by
  induction names generalizing here with
  | nil =>
    cases hfollow
    rfl
  | cons part rest ih =>
    rw [follow] at hfollow
    split at hfollow
    · cases hfollow
    · cases rest with
      | nil =>
        cases hfollow
        rfl
      | cons next rest =>
        dsimp only at hfollow
        split at hfollow
        · exact ih hfollow
        · cases hfollow
        · cases hfollow

theorem KeepsDirectories.follow (hkeeps : KeepsDirectories tree other) {here : Place}
    {names : List String} (hfollow : tree.follow here names = .ok place) :
    other.follow here names = .ok place := by
  induction names generalizing here with
  | nil => exact hfollow
  | cons part rest ih =>
    rw [Tree.follow] at hfollow ⊢
    split at hfollow
    · cases hfollow
    · next hlength =>
      rw [if_neg hlength]
      cases rest with
      | nil => exact hfollow
      | cons next rest =>
        dsimp only at hfollow ⊢
        split at hfollow
        · next hdirectory =>
          rw [hkeeps _ hdirectory]
          exact ih hfollow
        · cases hfollow
        · cases hfollow

/-- A name that leads somewhere is followed part by part. -/
theorem locate_ok (hlocate : tree.locate name = .ok place) :
    place = (parts name).foldl enter [] := by
  unfold locate at hlocate
  split at hlocate
  · cases hlocate
  · split at hlocate
    · cases hlocate
    · exact follow_eq hlocate

theorem KeepsDirectories.locate (hkeeps : KeepsDirectories tree other)
    (hlocate : tree.locate name = .ok place) : other.locate name = .ok place := by
  unfold Tree.locate at hlocate ⊢
  split at hlocate
  · cases hlocate
  · next hnul =>
    rw [if_neg hnul]
    split at hlocate
    · cases hlocate
    · next hroot =>
      rw [if_neg hroot]
      exact hkeeps.follow hlocate

/-- A file in a directory is at the place of its name below the place of the
directory. -/
theorem locate_inDirectory {directory file : String} (hfile : IsFileName file = true)
    (hlocate : tree.locate (inDirectory directory file) = .ok place) :
    place = (parts directory).foldl enter [] ++ [file] := by
  have hplace := locate_ok hlocate
  rw [parts_inDirectory directory hfile, List.foldl_append] at hplace
  simp only [IsFileName, Bool.and_eq_true, bne_iff_ne, ne_eq] at hfile
  rw [List.foldl_cons, List.foldl_nil, enter, if_neg hfile.1.2, if_neg hfile.2] at hplace
  exact hplace

/-! ## Puts -/

theorem at?_put {node : Node} (hplace : place ≠ []) (there : Place) :
    (tree.put place node).at? there = if there = place then some node else tree.at? there := by
  by_cases hthere : there = place
  · subst hthere
    have hnone : (tree.nodes.filter fun old => old.1 != there).find? (fun node => node.1 == there) =
        none := by simp
    simp [at?, put, List.find?_append, hnone, hplace]
  · have hsame : (tree.nodes.filter fun old => old.1 != place).find? (fun node => node.1 == there) =
        tree.nodes.find? fun node => node.1 == there := by
      rw [List.find?_filter]
      congr 1
      funext old
      by_cases hold : old.1 = there
      · simp [hold, hthere]
      · simp [hold]
    have hlast : ¬ place = there := fun h => hthere h.symm
    simp [at?, put, List.find?_append, hsame, hthere, hlast]

/-- Putting something where no directory is keeps all directories. -/
theorem keepsDirectories_put {node : Node} (hplace : tree.at? place ≠ some .directory) :
    KeepsDirectories tree (tree.put place node) := by
  intro there hthere
  have hroot : place ≠ [] := by
    rintro rfl
    exact hplace rfl
  have hother : there ≠ place := by
    rintro rfl
    exact hplace hthere
  rw [at?_put hroot, if_neg hother]
  exact hthere

/-! ## Written files -/

/-- A file of this name is there, with this content. -/
def HasFile (tree : Tree) (name : String) (content : ByteArray) : Prop :=
  name.endsWith "/" = false ∧
    ∃ place, tree.locate name = .ok place ∧ tree.at? place = some (.file content)

theorem HasFile.read {content : ByteArray} (h : tree.HasFile name content) :
    tree.read name = .ok content := by
  obtain ⟨hends, place, hlocate, hat⟩ := h
  simp [Tree.read, hlocate, hat, hends, Bind.bind, Except.bind, pure, Except.pure]

theorem HasFile.find? {content : ByteArray} (h : tree.HasFile name content) :
    (tree.find? name).isSome = true := by
  obtain ⟨hends, place, hlocate, hat⟩ := h
  simp [Tree.find?, hlocate, hat, hends]

theorem write_ok {content : ByteArray} (hwrite : tree.write name content = .ok other) :
    name.endsWith "/" = false ∧ ∃ place, tree.locate name = .ok place ∧
      tree.at? place ≠ some .directory ∧ other = tree.put place (.file content) := by
  unfold Tree.write at hwrite
  cases hlocate : tree.locate name with
  | error issue =>
    rw [hlocate] at hwrite
    cases hwrite
  | ok place =>
    rw [hlocate] at hwrite
    simp only [Bind.bind, Except.bind] at hwrite
    split at hwrite
    · cases hwrite
    · next hends =>
      split at hwrite
      · cases hwrite
      · next hdirectory =>
        cases hwrite
        exact ⟨by simpa using hends, place, rfl, hdirectory, rfl⟩

theorem write_eq_ok {content : ByteArray} (hends : name.endsWith "/" = false)
    (hlocate : tree.locate name = .ok place) (hplace : tree.at? place ≠ some .directory) :
    tree.write name content = .ok (tree.put place (.file content)) := by
  simp only [Tree.write, hlocate, Bind.bind, Except.bind, hends, Bool.false_eq_true, if_false]
  rfl

theorem ne_nil_of_at? (hplace : tree.at? place ≠ some .directory) : place ≠ [] := by
  rintro rfl
  exact hplace rfl

theorem keepsDirectories_write {content : ByteArray}
    (hwrite : tree.write name content = .ok other) : KeepsDirectories tree other := by
  obtain ⟨-, place, -, hplace, rfl⟩ := write_ok hwrite
  exact keepsDirectories_put hplace

theorem hasFile_of_write {content : ByteArray} (hwrite : tree.write name content = .ok other) :
    other.HasFile name content := by
  have hkeeps := keepsDirectories_write hwrite
  obtain ⟨hends, place, hlocate, hplace, rfl⟩ := write_ok hwrite
  refine ⟨hends, place, hkeeps.locate hlocate, ?_⟩
  rw [at?_put (ne_nil_of_at? hplace), if_pos rfl]

/-- Writing a file again that is there changes nothing. -/
theorem HasFile.write_again {content : ByteArray} (h : tree.HasFile name content) :
    ∃ again, tree.write name content = .ok again ∧ ∀ there, again.at? there = tree.at? there := by
  obtain ⟨hends, place, hlocate, hat⟩ := h
  have hplace : tree.at? place ≠ some .directory := by
    rw [hat]
    nofun
  refine ⟨_, write_eq_ok hends hlocate hplace, ?_⟩
  intro there
  rw [at?_put (ne_nil_of_at? hplace)]
  split
  · next hthere => rw [hthere, hat]
  · rfl

theorem HasFile.of_same {content : ByteArray} (h : tree.HasFile name content)
    (hsame : ∀ there, other.at? there = tree.at? there) : other.HasFile name content := by
  obtain ⟨hends, place, hlocate, hat⟩ := h
  have hkeeps : KeepsDirectories tree other := fun there hthere => (hsame there).trans hthere
  exact ⟨hends, place, hkeeps.locate hlocate, (hsame place).trans hat⟩

section Directory

variable {directory : String} {files : List (String × ByteArray)}

/-- The tree after files have been written into a directory. -/
def writeAll (directory : String) (tree : Tree) (files : List (String × ByteArray)) :
    Except Issue Tree :=
  files.foldlM (fun tree file => tree.write (inDirectory directory file.1) file.2) tree

/-- A file stays when one of another name is written into its directory. -/
theorem HasFile.write_other {file another : String} {content more : ByteArray}
    (hfile : IsFileName file = true) (hanother : IsFileName another = true) (hne : file ≠ another)
    (h : tree.HasFile (inDirectory directory file) content)
    (hwrite : tree.write (inDirectory directory another) more = .ok other) :
    other.HasFile (inDirectory directory file) content := by
  have hkeeps := keepsDirectories_write hwrite
  obtain ⟨hends, place, hlocate, hat⟩ := h
  obtain ⟨-, there, hthere, hplace, rfl⟩ := write_ok hwrite
  have hplaces : place ≠ there := by
    rw [locate_inDirectory hfile hlocate, locate_inDirectory hanother hthere]
    intro heq
    exact hne (List.cons.inj (List.append_cancel_left heq)).1
  refine ⟨hends, place, hkeeps.locate hlocate, ?_⟩
  rw [at?_put (ne_nil_of_at? hplace), if_neg hplaces]
  exact hat

theorem writeAll_cons {file : String × ByteArray} {next : Tree}
    (hnext : tree.write (inDirectory directory file.1) file.2 = .ok next) :
    writeAll directory tree (file :: files) = writeAll directory next files := by
  rw [writeAll, List.foldlM_cons, hnext]
  rfl

theorem writeAll_cons_ok {file : String × ByteArray}
    (hwrite : writeAll directory tree (file :: files) = .ok other) :
    ∃ next, tree.write (inDirectory directory file.1) file.2 = .ok next ∧
      writeAll directory next files = .ok other := by
  cases hnext : tree.write (inDirectory directory file.1) file.2 with
  | error issue =>
    rw [writeAll, List.foldlM_cons, hnext] at hwrite
    cases hwrite
  | ok next => exact ⟨next, rfl, writeAll_cons hnext ▸ hwrite⟩

theorem keepsDirectories_writeAll (hwrite : writeAll directory tree files = .ok other) :
    KeepsDirectories tree other := by
  induction files generalizing tree with
  | nil =>
    cases hwrite
    exact fun _ h => h
  | cons file files ih =>
    obtain ⟨next, hnext, hrest⟩ := writeAll_cons_ok hwrite
    exact fun place hplace => ih hrest place (keepsDirectories_write hnext place hplace)

theorem HasFile.writeAll_other {file : String} {content : ByteArray}
    (hfile : IsFileName file = true) (hnames : ∀ another ∈ files, IsFileName another.1 = true)
    (hnew : file ∉ files.map Prod.fst) (h : tree.HasFile (inDirectory directory file) content)
    (hwrite : writeAll directory tree files = .ok other) :
    other.HasFile (inDirectory directory file) content := by
  induction files generalizing tree with
  | nil =>
    cases hwrite
    exact h
  | cons another files ih =>
    obtain ⟨hanother, hnames⟩ := List.forall_mem_cons.mp hnames
    obtain ⟨next, hnext, hrest⟩ := writeAll_cons_ok hwrite
    rw [List.map_cons] at hnew
    have hkept := h.write_other hfile hanother (List.ne_of_not_mem_cons hnew) hnext
    exact ih hnames (List.not_mem_of_not_mem_cons hnew) hkept hrest

/-- Files of different names are all there when they have been written. -/
theorem hasFile_of_writeAll (hnames : ∀ file ∈ files, IsFileName file.1 = true)
    (hdistinct : (files.map Prod.fst).Nodup) (hwrite : writeAll directory tree files = .ok other) :
    ∀ file ∈ files, other.HasFile (inDirectory directory file.1) file.2 := by
  induction files generalizing tree with
  | nil => nofun
  | cons first files ih =>
    obtain ⟨hfirst, hnames⟩ := List.forall_mem_cons.mp hnames
    obtain ⟨hnew, hdistinct⟩ := List.nodup_cons.mp hdistinct
    obtain ⟨next, hnext, hrest⟩ := writeAll_cons_ok hwrite
    refine List.forall_mem_cons.mpr ⟨?_, ih hnames hdistinct hrest⟩
    exact (hasFile_of_write hnext).writeAll_other hfirst hnames hnew hrest

/-- Writing files again that are there changes nothing. -/
theorem writeAll_again
    (hfiles : ∀ file ∈ files, tree.HasFile (inDirectory directory file.1) file.2) :
    ∃ again, writeAll directory tree files = .ok again ∧
      ∀ there, again.at? there = tree.at? there := by
  induction files generalizing tree with
  | nil => exact ⟨tree, rfl, fun _ => rfl⟩
  | cons first files ih =>
    obtain ⟨hfirst, hfiles⟩ := List.forall_mem_cons.mp hfiles
    obtain ⟨next, hnext, hsame⟩ := hfirst.write_again
    obtain ⟨again, hagain, hsames⟩ := ih fun file hfile => (hfiles file hfile).of_same hsame
    rw [writeAll_cons hnext]
    exact ⟨again, hagain, fun there => (hsames there).trans (hsame there)⟩

end Directory

/-! ## Directories -/

theorem find?_eq_directory_iff :
    tree.find? name = some .directory ↔
      ∃ place, tree.locate name = .ok place ∧ tree.at? place = some .directory := by
  unfold Tree.find?
  cases hlocate : tree.locate name with
  | error issue =>
    constructor
    · nofun
    · rintro ⟨place, hplace, -⟩
      cases hplace
  | ok place =>
    have hplaces : (∃ other, (Except.ok place : Except Issue Place) = .ok other ∧
        tree.at? other = some .directory) ↔ tree.at? place = some .directory := by
      constructor
      · rintro ⟨other, ⟨⟩, hat⟩
        exact hat
      · exact fun hat => ⟨place, rfl, hat⟩
    rw [hplaces]
    dsimp only
    split
    · next content hat =>
      rw [hat]
      split <;> simp
    · exact Iff.rfl

theorem makeDirectory_ok (hmake : tree.makeDirectory name = .ok other) :
    KeepsDirectories tree other ∧ other.find? name = some .directory := by
  unfold Tree.makeDirectory at hmake
  cases hlocate : tree.locate name with
  | error issue =>
    rw [hlocate] at hmake
    cases hmake
  | ok place =>
    rw [hlocate] at hmake
    simp only [Bind.bind, Except.bind] at hmake
    cases hat : tree.at? place with
    | some node =>
      rw [hat] at hmake
      cases hmake
    | none =>
      rw [hat] at hmake
      cases hmake
      have hplace : tree.at? place ≠ some .directory := by
        rw [hat]
        nofun
      have hkeeps := @keepsDirectories_put tree place .directory hplace
      refine ⟨hkeeps, find?_eq_directory_iff.mpr ⟨place, hkeeps.locate hlocate, ?_⟩⟩
      rw [at?_put (ne_nil_of_at? hplace), if_pos rfl]

theorem makeDirectory_of_find? (hfind : tree.find? name = some .directory) :
    tree.makeDirectory name = .error .alreadyThere := by
  obtain ⟨place, hlocate, hat⟩ := find?_eq_directory_iff.mp hfind
  rw [Tree.makeDirectory, hlocate]
  simp only [Bind.bind, Except.bind, hat]
  rfl

theorem KeepsDirectories.find? (hkeeps : KeepsDirectories tree other)
    (hfind : tree.find? name = some .directory) : other.find? name = some .directory := by
  obtain ⟨place, hlocate, hat⟩ := find?_eq_directory_iff.mp hfind
  exact find?_eq_directory_iff.mpr ⟨place, hkeeps.locate hlocate, hkeeps place hat⟩

theorem KeepsDirectories.trans {third : Tree} (hfirst : KeepsDirectories tree other)
    (hsecond : KeepsDirectories other third) : KeepsDirectories tree third :=
  fun place hplace => hsecond place (hfirst place hplace)

end Tree

/-! ## Making directories -/

/-- A sequence runs when its parts run one after the other. -/
theorem run_bind_iff {σ α β : Type} {first : StateM σ α} {next : α → StateM σ β} {before after : σ}
    {y : β} : (first >>= next).run before = (y, after) ↔
      ∃ x between, first.run before = (x, between) ∧ (next x).run between = (y, after) := by
  rw [StateT.run_bind]
  constructor
  · exact fun hrun => ⟨_, _, rfl, hrun⟩
  · rintro ⟨x, between, hfirst, hnext⟩
    rw [hfirst]
    exact hnext

/-- How a run goes that makes a directory and those above it. -/
inductive MadeFrom {σ : Type} [Host (StateM σ)] (fuel : Nat) (name : String) (before after : σ) :
    Except Refusal Unit → Prop
  | nameless (hempty : name.isEmpty = true) (hafter : after = before) :
    MadeFrom fuel name before after (.ok ())
  | first (hfirst : (ensureDirectory name : StateM σ _).run before = (.ok (), after)) :
    MadeFrom fuel name before after (.ok ())
  | refused {refusal : Refusal}
    (hfirst : (ensureDirectory name : StateM σ _).run before = (.error refusal, after))
    (hother : refusal.isMissing = false) : MadeFrom fuel name before after (.error refusal)
  | rootless {refusal : Refusal}
    (hfirst : (ensureDirectory name : StateM σ _).run before = (.error refusal, after))
    (hmissing : refusal.isMissing = true) (hnone : parent? name = none) :
    MadeFrom fuel name before after (.error ⟨false, "failed to create whole tree"⟩)
  | above {refusal second : Refusal} {above : String} {between : σ}
    (hfirst : (ensureDirectory name : StateM σ _).run before = (.error refusal, between))
    (hmissing : refusal.isMissing = true) (habove : parent? name = some above)
    (hsecond : (makeDirectoriesFrom fuel above : StateM σ _).run between = (.error second, after)) :
    MadeFrom fuel name before after (.error second)
  | again {refusal : Refusal} {above : String} {between third : σ} {result : Except Refusal Unit}
    (hfirst : (ensureDirectory name : StateM σ _).run before = (.error refusal, between))
    (hmissing : refusal.isMissing = true) (habove : parent? name = some above)
    (hsecond : (makeDirectoriesFrom fuel above : StateM σ _).run between = (.ok (), third))
    (hlast : (ensureDirectory name : StateM σ _).run third = (result, after)) :
    MadeFrom fuel name before after result

theorem makeDirectoriesFrom_cases
    {σ : Type} [Host (StateM σ)] {fuel : Nat} {name : String} {before after : σ}
    {result : Except Refusal Unit}
    (h : (makeDirectoriesFrom (fuel + 1) name : StateM σ _).run before = (result, after)) :
    MadeFrom fuel name before after result := by
  rw [makeDirectoriesFrom] at h
  split at h
  · next hempty =>
    cases h
    exact .nameless hempty rfl
  obtain ⟨first, between, hfirst, h⟩ := run_bind_iff.mp h
  cases first with
  | ok =>
    cases h
    exact .first hfirst
  | error refusal =>
    dsimp only at h
    split at h
    · next hother =>
      cases h
      exact .refused hfirst (by simpa using hother)
    · next hmissing =>
      rw [Bool.not_eq_true, Bool.not_eq_false'] at hmissing
      cases habove : parent? name with
      | none =>
        rw [habove] at h
        cases h
        exact .rootless hfirst hmissing habove
      | some above =>
        rw [habove] at h
        obtain ⟨second, third, hsecond, hlast⟩ := run_bind_iff.mp h
        cases second with
        | ok => exact .again hfirst hmissing habove hsecond hlast
        | error refusal =>
          cases hlast
          exact .above hfirst hmissing habove hsecond

/-! ## Runs on a model -/

namespace Model

open Files.Tree

variable {name : String} {world after : World}

theorem run_bind {α β : Type} {first : Model α} {next : α → Model β} {between : World} {x : α}
    (hfirst : first.run world = (x, between)) :
    (first >>= next).run world = (next x).run between := by
  rw [StateT.run_bind, hfirst]
  rfl

theorem run_change_ok {operation : Tree → Except Issue Tree} {tree : Tree}
    (h : operation world.tree = .ok tree) :
    (Model.change operation).run world = (.ok (), { world with tree := tree }) := by
  have hget : (get : Model World).run world = (world, world) := rfl
  rw [Model.change, run_bind hget, h]
  rfl

theorem run_change_error {operation : Tree → Except Issue Tree} {issue : Issue}
    (h : operation world.tree = .error issue) :
    (Model.change operation).run world = (.error issue, world) := by
  have hget : (get : Model World).run world = (world, world) := rfl
  rw [Model.change, run_bind hget, h]
  rfl

theorem run_write_iff {text : String} :
    (Host.write name text : Model _).run world = (.ok (), after) ↔
      ∃ tree, world.tree.write name text.toUTF8 = .ok tree ∧
        after = { world with tree := tree } := by
  cases hwrite : world.tree.write name text.toUTF8 with
  | ok tree =>
    have hrun : (Host.write name text : Model _).run world =
      (.ok (), { world with tree := tree }) := run_bind (run_change_ok hwrite)
    rw [hrun]
    constructor
    · intro h
      exact ⟨tree, rfl, (Prod.mk.inj h).2.symm⟩
    · rintro ⟨_, ⟨⟩, rfl⟩
      rfl
  | error issue =>
    have hrun : (Host.write name text : Model _).run world = (.error issue.refusal, world) :=
      run_bind (run_change_error hwrite)
    rw [hrun]
    constructor <;> nofun

theorem run_isDirectory : (Host.isDirectory name : Model Bool).run world =
    (match world.tree.find? name with
      | some .directory => true
      | _ => false, world) := by
  have hget : (get : Model World).run world = (world, world) := rfl
  show (do
    match (← get).tree.find? name with
    | some .directory => return true
    | _ => return false : Model Bool).run world = _
  rw [run_bind hget]
  split <;> rfl

theorem run_ensureDirectory_ok {tree : Tree} (h : world.tree.makeDirectory name = .ok tree) :
    (ensureDirectory name : Model _).run world = (.ok (), { world with tree := tree }) := by
  have hmake : (Host.makeDirectory name : Model _).run world =
      (.ok (), { world with tree := tree }) :=
    run_bind (run_change_ok h)
  rw [ensureDirectory, run_bind hmake]
  rfl

theorem run_ensureDirectory_error {issue : Issue}
    (h : world.tree.makeDirectory name = .error issue) :
    (ensureDirectory name : Model _).run world =
      (match world.tree.find? name with
        | some .directory => .ok ()
        | _ => .error issue.refusal, world) := by
  have hmake : (Host.makeDirectory name : Model _).run world = (.error issue.refusal, world) :=
    run_bind (run_change_error h)
  rw [ensureDirectory, run_bind hmake]
  dsimp only
  rw [run_bind run_isDirectory]
  split <;> rfl

theorem ensureDirectory_ok (h : (ensureDirectory name : Model _).run world = (.ok (), after)) :
    KeepsDirectories world.tree after.tree ∧ after.tree.find? name = some .directory := by
  cases hmake : world.tree.makeDirectory name with
  | ok tree =>
    rw [run_ensureDirectory_ok hmake] at h
    cases h
    exact makeDirectory_ok hmake
  | error issue =>
    rw [run_ensureDirectory_error hmake] at h
    split at h
    · next hfind =>
      cases h
      exact ⟨fun _ hplace => hplace, hfind⟩
    · cases h

theorem ensureDirectory_error {refusal : Refusal}
    (h : (ensureDirectory name : Model _).run world = (.error refusal, after)) : after = world := by
  cases hmake : world.tree.makeDirectory name with
  | ok tree =>
    rw [run_ensureDirectory_ok hmake] at h
    cases h
  | error issue =>
    rw [run_ensureDirectory_error hmake] at h
    exact (Prod.mk.inj h).2.symm

theorem ensureDirectory_again (hfind : world.tree.find? name = some .directory) :
    (ensureDirectory name : Model _).run world = (.ok (), world) := by
  rw [run_ensureDirectory_error (makeDirectory_of_find? hfind), hfind]

/-- Directories that were made are there, and those that were there stay. -/
theorem makeDirectoriesFrom_ok {fuel : Nat}
    (h : (makeDirectoriesFrom fuel name : Model _).run world = (.ok (), after)) :
    KeepsDirectories world.tree after.tree ∧
      (fuel = 0 ∨ name.isEmpty = true ∨ after.tree.find? name = some .directory) := by
  induction fuel generalizing name world after with
  | zero =>
    cases h
    exact ⟨fun _ hplace => hplace, .inl rfl⟩
  | succ fuel ih =>
    cases makeDirectoriesFrom_cases h with
    | nameless hempty hafter =>
      rw [hafter]
      exact ⟨fun _ hplace => hplace, .inr (.inl hempty)⟩
    | first hfirst =>
      obtain ⟨hkeeps, hfind⟩ := ensureDirectory_ok hfirst
      exact ⟨hkeeps, .inr (.inr hfind)⟩
    | again hfirst _ _ hsecond hlast =>
      obtain rfl := ensureDirectory_error hfirst
      obtain ⟨hkept, hfind⟩ := ensureDirectory_ok hlast
      exact ⟨(ih hsecond).1.trans hkept, .inr (.inr hfind)⟩

theorem makeDirectories_ok (h : (makeDirectories name : Model _).run world = (.ok (), after)) :
    KeepsDirectories world.tree after.tree ∧
      (name.isEmpty = true ∨ after.tree.find? name = some .directory) := by
  obtain ⟨hkeeps, hthere⟩ := makeDirectoriesFrom_ok h
  exact ⟨hkeeps, hthere.resolve_left (Nat.succ_ne_zero _)⟩

/-- Making a directory again that is there changes nothing. -/
theorem makeDirectories_again
    (h : name.isEmpty = true ∨ world.tree.find? name = some .directory) :
    (makeDirectories name : Model _).run world = (.ok (), world) := by
  rw [makeDirectories, makeDirectoriesFrom]
  by_cases hempty : name.isEmpty = true
  · rw [if_pos hempty]
    rfl
  · rw [if_neg hempty, run_bind (ensureDirectory_again (h.resolve_left hempty))]
    rfl

end Model

end Relocate.Files
