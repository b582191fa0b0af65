import Relocate.Error
import Relocate.Proofs.Files.Tree

/-!
# What a host may do to its files

The model of files refuses what its tree does not admit and carries out everything else.
A computer refuses more: a disk is full, a right is missing, and a write that is refused
may leave part of a text behind.  `TreeHost` says what any host does at most to the tree
in which it keeps its files; the model is one of them, and `Shaky` is one that refuses
what a list of faults says.

What an action leaves of a tree is said place by place: `Touched made written` holds when
every place is as before, apart from directories that were made and files that were
written at the places given.
-/

namespace Relocate.Files

/-! ## Places of names -/

/-- The place that a name leads to. -/
def placeOf (name : String) : Place :=
  (parts name).foldl Tree.enter []

theorem isFileName_iff {file : String} : IsFileName file = true ↔
    '/' ∉ file.toList ∧ file ≠ "" ∧ file ≠ "." ∧ file ≠ ".." := by
  simp [IsFileName, and_assoc]

theorem enter_file (here : Place) {file : String} (hfile : IsFileName file = true) :
    Tree.enter here file = here ++ [file] := by
  obtain ⟨-, -, hhere, habove⟩ := isFileName_iff.mp hfile
  rw [Tree.enter, if_neg hhere, if_neg habove]

/-- The place of a file in a directory. -/
theorem placeOf_inDirectory (directory : String) {file : String} (hfile : IsFileName file = true) :
    placeOf (inDirectory directory file) = placeOf directory ++ [file] := by
  rw [placeOf, parts_inDirectory directory hfile, List.foldl_append, List.foldl_cons,
    List.foldl_nil, enter_file _ hfile]
  rfl

theorem splitSlashes_concat (name : List Char) {more : List Char} (hmore : '/' ∉ more) :
    ∃ front last, splitSlashes name = front ++ [last] ∧
      splitSlashes (name ++ more) = front ++ [last ++ more] := by
  induction name with
  | nil => exact ⟨[], [], rfl, splitSlashes_of_not_mem hmore⟩
  | cons c rest ih =>
    obtain ⟨front, last, hrest, hlonger⟩ := ih
    by_cases hc : c = '/'
    · refine ⟨[] :: front, last, ?_, ?_⟩ <;> simp [splitSlashes, hc, hrest, hlonger]
    · cases front with
      | nil => exact ⟨[], c :: last, by simp [splitSlashes, hc, hrest],
          by simp [splitSlashes, hc, hlonger]⟩
      | cons first front => exact ⟨(c :: first) :: front, last, by simp [splitSlashes, hc, hrest],
          by simp [splitSlashes, hc, hlonger]⟩

theorem length_enter_le (here : Place) (part : String) :
    (Tree.enter here part).length ≤ here.length + 1 := by
  unfold Tree.enter
  split
  · exact Nat.le_succ _
  · split
    · rw [List.length_dropLast]
      omega
    · simp

/-- An ending goes to the last part of a name, or is a part of its own. -/
theorem exists_parts_append (name : String) {ending : String} (hslash : '/' ∉ ending.toList)
    (hending : ending.toList ≠ []) :
    ∃ above last, (parts name = above ∨ parts name = above ++ [String.ofList last]) ∧
      parts (name ++ ending) = above ++ [String.ofList (last ++ ending.toList)] := by
  obtain ⟨front, last, hname, hlonger⟩ := splitSlashes_concat name.toList hslash
  have hempty : (last ++ ending.toList).isEmpty = false :=
    List.isEmpty_eq_false_iff.mpr (List.append_ne_nil_of_right_ne_nil _ hending)
  refine ⟨(front.filter fun part => !part.isEmpty).map String.ofList, last, ?_, ?_⟩
  · rw [parts, hname, List.filter_append, List.map_append, List.filter_singleton]
    cases last.isEmpty with
    | true => exact .inl (List.append_nil _)
    | false => exact .inr rfl
  · rw [parts, String.toList_append, hlonger, List.filter_append, List.map_append,
      List.filter_singleton, hempty]
    rfl

/-- With an ending that is more than two dots, a name leads to a place as deep, or deeper. -/
theorem length_placeOf_le_append (name : String) {ending : String} (hslash : '/' ∉ ending.toList)
    (hlong : 2 < ending.toList.length) :
    (placeOf name).length ≤ (placeOf (name ++ ending)).length := by
  obtain ⟨above, last, hname, hlonger⟩ :=
    exists_parts_append name hslash (List.ne_nil_of_length_pos (by omega))
  have hother {dots : String} (hdots : dots.toList.length ≤ 2) :
      String.ofList (last ++ ending.toList) ≠ dots := by
    rintro rfl
    rw [String.toList_ofList, List.length_append] at hdots
    omega
  have hbelow : (placeOf (name ++ ending)).length = (above.foldl Tree.enter []).length + 1 := by
    rw [placeOf, hlonger, List.foldl_append, List.foldl_cons, List.foldl_nil, Tree.enter,
      if_neg (hother (by decide)), if_neg (hother (by decide)), List.length_append]
    rfl
  rw [hbelow, placeOf]
  rcases hname with hname | hname <;> rw [hname]
  · exact Nat.le_succ _
  · rw [List.foldl_append]
    exact length_enter_le _ _

/-! ## Places that are touched -/

/-- What may become of what is at a place. -/
inductive Touch (made written : Place → Prop) (place : Place) : Option Node → Option Node → Prop
  | kept (node : Option Node) : Touch made written place node node
  | made (hmade : made place) : Touch made written place none (some .directory)
  | written {node : Option Node} (hwritten : written place) (hnode : node ≠ some .directory)
    (content : ByteArray) : Touch made written place node (some (.file content))

/-- The second tree is the first one, apart from directories that were made and files that
were written at these places. -/
def Touched (made written : Place → Prop) (before after : Tree) : Prop :=
  ∀ place, Touch made written place (before.at? place) (after.at? place)

section

variable {made written made' written' : Place → Prop} {place : Place}
  {first second third : Option Node} {before between after : Tree}

theorem Touch.trans (hfirst : Touch made written place first second)
    (hsecond : Touch made written place second third) : Touch made written place first third := by
  cases hsecond with
  | kept => exact hfirst
  | made hmade =>
    cases hfirst with
    | kept => exact .made hmade
  | written hwritten hdirectory content =>
    cases hfirst with
    | kept => exact .written hwritten hdirectory content
    | made => exact absurd rfl hdirectory
    | written _ hnode => exact .written hwritten hnode content

theorem Touch.mono (h : Touch made written place first second)
    (hmade : made place → made' place) (hwritten : written place → written' place) :
    Touch made' written' place first second := by
  cases h with
  | kept => exact .kept _
  | made hplace => exact .made (hmade hplace)
  | written hplace hnode content => exact .written (hwritten hplace) hnode content

/-- Where nothing is written, the files are as before. -/
theorem Touch.file_iff (h : Touch made written place first second) (hwritten : ¬ written place)
    (content : ByteArray) : second = some (.file content) ↔ first = some (.file content) := by
  cases h with
  | kept => exact Iff.rfl
  | made => constructor <;> nofun
  | written hplace => exact absurd hplace hwritten

/-- A directory was there before, or it has been made. -/
theorem Touch.directory_or (h : Touch made written place first (some .directory)) :
    first = some .directory ∨ made place := by
  cases h with
  | kept => exact .inl rfl
  | made hmade => exact .inr hmade

theorem Touched.refl (tree : Tree) : Touched made written tree tree :=
  fun _ => .kept _

theorem Touched.of_eq (heq : after = before) : Touched made written before after :=
  heq ▸ .refl _

theorem Touched.trans (hfirst : Touched made written before between)
    (hsecond : Touched made written between after) : Touched made written before after :=
  fun place => (hfirst place).trans (hsecond place)

theorem Touched.mono (h : Touched made written before after)
    (hmade : ∀ place, made place → made' place)
    (hwritten : ∀ place, written place → written' place) : Touched made' written' before after :=
  fun place => (h place).mono (hmade place) (hwritten place)

theorem Touched.file_iff (h : Touched made written before after) (hwritten : ¬ written place)
    (content : ByteArray) :
    after.at? place = some (.file content) ↔ before.at? place = some (.file content) :=
  (h place).file_iff hwritten content

end

namespace Tree

variable {tree other : Tree} {name : String} {content : ByteArray}

/-- The file that a name leads to has this content. -/
def Stores (tree : Tree) (name : String) (content : ByteArray) : Prop :=
  tree.at? (placeOf name) = some (.file content)

theorem makeDirectory_eq_ok (hmake : tree.makeDirectory name = .ok other) :
    tree.at? (placeOf name) = none ∧ other = tree.put (placeOf name) .directory := by
  unfold makeDirectory at hmake
  cases hlocate : tree.locate name with
  | error issue =>
    rw [hlocate] at hmake
    cases hmake
  | ok place =>
    rw [hlocate] at hmake
    obtain rfl : place = placeOf name := locate_ok hlocate
    simp only [Bind.bind, Except.bind] at hmake
    cases hat : tree.at? (placeOf name) with
    | some node =>
      rw [hat] at hmake
      cases hmake
    | none =>
      rw [hat] at hmake
      cases hmake
      exact ⟨rfl, rfl⟩

theorem touched_makeDirectory {written : Place → Prop}
    (hmake : tree.makeDirectory name = .ok other) :
    Touched (· = placeOf name) written tree other := by
  obtain ⟨hnone, rfl⟩ := makeDirectory_eq_ok hmake
  intro place
  have hroot : placeOf name ≠ [] := ne_nil_of_at? (by rw [hnone]; nofun)
  rw [at?_put hroot]
  split
  · next hplace =>
    rw [hplace, hnone]
    exact .made rfl
  · exact .kept _

theorem touched_write {made : Place → Prop} (hwrite : tree.write name content = .ok other) :
    Touched made (· = placeOf name) tree other := by
  obtain ⟨-, place, hlocate, hnode, rfl⟩ := write_ok hwrite
  obtain rfl : place = placeOf name := locate_ok hlocate
  intro place
  rw [at?_put (ne_nil_of_at? hnode)]
  split
  · next hplace =>
    subst hplace
    refine .written ?_ hnode content
    rfl
  · exact .kept _

theorem stores_of_write (hwrite : tree.write name content = .ok other) :
    other.Stores name content := by
  obtain ⟨-, place, hlocate, hnode, rfl⟩ := write_ok hwrite
  obtain rfl : place = placeOf name := locate_ok hlocate
  rw [Stores, at?_put (ne_nil_of_at? hnode), if_pos rfl]

end Tree

/-! ## Hosts -/

/-- What a host may make of a write: it is carried out, or refused and nothing happens, or
refused when some other content has been written. -/
inductive MayWrite (name : String) (content : ByteArray) (before : Tree) :
    Except Refusal Unit → Tree → Prop
  | done {after : Tree} (hwrite : before.write name content = .ok after) :
    MayWrite name content before (.ok ()) after
  | refused (refusal : Refusal) : MayWrite name content before (.error refusal) before
  | broken (refusal : Refusal) {left : ByteArray} {after : Tree}
    (hwrite : before.write name left = .ok after) :
    MayWrite name content before (.error refusal) after

theorem MayWrite.unchanged_or_written {name : String} {content : ByteArray} {before after : Tree}
    {result : Except Refusal Unit} (h : MayWrite name content before result after) :
    after = before ∨ ∃ left, before.write name left = .ok after := by
  cases h with
  | done hwrite => exact .inr ⟨_, hwrite⟩
  | refused => exact .inl rfl
  | broken _ hwrite => exact .inr ⟨_, hwrite⟩

/-- What a host may make of the making of a directory: it is carried out, or refused and
nothing happens. -/
inductive MayMake (name : String) (before : Tree) : Except Refusal Unit → Tree → Prop
  | done {after : Tree} (hmake : before.makeDirectory name = .ok after) :
    MayMake name before (.ok ()) after
  | refused (refusal : Refusal) : MayMake name before (.error refusal) before

/-- A host that keeps its files in a tree and does nothing to it but what it is asked for.
It may refuse everything, and it may be wrong about what is there. -/
class TreeHost (σ : Type) [Host (StateM σ)] where
  /-- The files in a state. -/
  tree : σ → Tree
  read {name : String} {before after : σ} {result : Except Refusal ByteArray}
    (hrun : (Host.read name : StateM σ _).run before = (result, after)) :
    tree after = tree before ∧ ∀ bytes, result = .ok bytes → (tree before).read name = .ok bytes
  write {name text : String} {before after : σ} {result : Except Refusal Unit}
    (hrun : (Host.write name text : StateM σ _).run before = (result, after)) :
    MayWrite name text.toUTF8 (tree before) result (tree after)
  makeDirectory {name : String} {before after : σ} {result : Except Refusal Unit}
    (hrun : (Host.makeDirectory name : StateM σ _).run before = (result, after)) :
    MayMake name (tree before) result (tree after)
  isDirectory {name : String} {before after : σ} {there : Bool}
    (hrun : (Host.isDirectory name : StateM σ _).run before = (there, after)) :
    tree after = tree before
  isThere {name : String} {before after : σ} {there : Bool}
    (hrun : (Host.isThere name : StateM σ _).run before = (there, after)) :
    tree after = tree before
  tell {entry : Entry} {before after : σ}
    (hrun : (Host.tell entry : StateM σ _).run before = ((), after)) :
    tree after = tree before

theorem MayWrite.touched {name : String} {content : ByteArray} {before after : Tree}
    {result : Except Refusal Unit} {made : Place → Prop}
    (h : MayWrite name content before result after) :
    Touched made (· = placeOf name) before after := by
  rcases h.unchanged_or_written with rfl | ⟨left, hwrite⟩
  · exact .refl _
  · exact Tree.touched_write hwrite

theorem MayWrite.stores {name : String} {content : ByteArray} {before after : Tree}
    (h : MayWrite name content before (.ok ()) after) : after.Stores name content := by
  cases h with
  | done hwrite => exact Tree.stores_of_write hwrite

theorem MayMake.touched {name : String} {before after : Tree} {result : Except Refusal Unit}
    {written : Place → Prop} (h : MayMake name before result after) :
    Touched (· = placeOf name) written before after := by
  cases h with
  | done hmake => exact Tree.touched_makeDirectory hmake
  | refused => exact .refl _

/-! ## Runs that may end with an error -/

section Runs

variable {σ α β : Type} {before after : σ}

/-- An action ends with this result and leaves this state. -/
def Runs (action : ExceptT Error (StateM σ) α) (before : σ) (result : Except Error α)
    (after : σ) : Prop :=
  action.run.run before = (result, after)

theorem runs_pure_iff {value : α} {result : Except Error α} :
    Runs (pure value) before result after ↔ result = .ok value ∧ after = before := by
  constructor
  · intro hrun
    cases hrun
    exact ⟨rfl, rfl⟩
  · rintro ⟨rfl, rfl⟩
    rfl

theorem runs_throw_iff {error : Error} {result : Except Error α} :
    Runs (throw error) before result after ↔ result = .error error ∧ after = before := by
  constructor
  · intro hrun
    cases hrun
    exact ⟨rfl, rfl⟩
  · rintro ⟨rfl, rfl⟩
    rfl

/-- A sequence ends as its first part does when that is an error, and otherwise as its
second part. -/
theorem runs_bind_iff {first : ExceptT Error (StateM σ) α}
    {next : α → ExceptT Error (StateM σ) β} {result : Except Error β} :
    Runs (first >>= next) before result after ↔
      (∃ error, Runs first before (.error error) after ∧ result = .error error) ∨
        ∃ x between, Runs first before (.ok x) between ∧ Runs (next x) between result after := by
  unfold Runs
  rw [ExceptT.run_bind, run_bind_iff]
  constructor
  · rintro ⟨first, between, hfirst, hnext⟩
    cases first with
    | error error =>
      cases hnext
      exact .inl ⟨error, hfirst, rfl⟩
    | ok x => exact .inr ⟨x, between, hfirst, hnext⟩
  · rintro (⟨error, hfirst, rfl⟩ | ⟨x, between, hfirst, hnext⟩)
    · exact ⟨_, _, hfirst, rfl⟩
    · exact ⟨_, _, hfirst, hnext⟩

theorem Runs.bind {first : ExceptT Error (StateM σ) α} {next : α → ExceptT Error (StateM σ) β}
    {x : α} {between : σ} {result : Except Error β} (hfirst : Runs first before (.ok x) between)
    (hnext : Runs (next x) between result after) : Runs (first >>= next) before result after :=
  runs_bind_iff.mpr (.inr ⟨x, between, hfirst, hnext⟩)

theorem Runs.bind_error {first : ExceptT Error (StateM σ) α}
    {next : α → ExceptT Error (StateM σ) β} {error : Error}
    (hfirst : Runs first before (.error error) after) :
    Runs (first >>= next) before (.error error) after :=
  runs_bind_iff.mpr (.inl ⟨error, hfirst, rfl⟩)

theorem runs_lift_iff {action : StateM σ α} {result : Except Error α} :
    Runs (liftM action) before result after ↔
      ∃ value, action.run before = (value, after) ∧ result = .ok value := by
  have hlift : (liftM action : ExceptT Error (StateM σ) α).run.run before =
      (.ok (action.run before).1, (action.run before).2) := rfl
  rw [Runs, hlift]
  constructor
  · intro hrun
    obtain ⟨rfl, rfl⟩ := Prod.mk.inj hrun
    exact ⟨_, rfl, rfl⟩
  · rintro ⟨value, hrun, rfl⟩
    rw [hrun]

theorem runs_lift {action : StateM σ α} {value : α} (hrun : action.run before = (value, after)) :
    Runs (liftM action) before (.ok value) after :=
  runs_lift_iff.mpr ⟨value, hrun, rfl⟩

theorem runs_mk_pure_iff {x result : Except Error α} :
    Runs (ExceptT.mk (pure x : StateM σ _)) before result after ↔ result = x ∧ after = before := by
  constructor
  · intro hrun
    cases hrun
    exact ⟨rfl, rfl⟩
  · rintro ⟨rfl, rfl⟩
    rfl

/-- An operation with its refusal turned into an error. -/
theorem runs_mk_map_iff {operation : StateM σ (Except Refusal Unit)}
    {convert : Except Refusal Unit → Except Error Unit} {result : Except Error Unit} :
    Runs (ExceptT.mk (convert <$> operation)) before result after ↔
      ∃ outcome, operation.run before = (outcome, after) ∧ result = convert outcome := by
  have hmap : (ExceptT.mk (convert <$> operation) : ExceptT Error (StateM σ) Unit).run.run before =
      (convert (operation.run before).1, (operation.run before).2) := rfl
  rw [Runs, hmap]
  constructor
  · intro hrun
    obtain ⟨rfl, rfl⟩ := Prod.mk.inj hrun
    exact ⟨_, rfl, rfl⟩
  · rintro ⟨outcome, hrun, rfl⟩
    rw [hrun]

end Runs

/-! ## Directories on the way -/

/-- The second name is the first one or that of a directory above it. -/
inductive Above : String → String → Prop
  | self (name : String) : Above name name
  | up {name above higher : String} (hparent : parent? name = some above)
    (h : Above above higher) : Above name higher

/-- The place of a directory or of one above it. -/
def OnTheWay (directory : String) (place : Place) : Prop :=
  ∃ above, Above directory above ∧ place = placeOf above

section

variable {σ : Type} [Host (StateM σ)] [TreeHost σ] {name : String} {before after : σ}
  {result : Except Refusal Unit} {written : Place → Prop}

open TreeHost (tree)

theorem touched_ensureDirectory
    (hrun : (ensureDirectory name : StateM σ _).run before = (result, after)) :
    Touched (OnTheWay name) written (tree before) (tree after) := by
  obtain ⟨made, between, hmake, hrest⟩ := run_bind_iff.mp hrun
  have hmade : Touched (OnTheWay name) written (tree before) (tree between) :=
    (TreeHost.makeDirectory hmake).touched.mono (fun place hplace => ⟨name, .self name, hplace⟩)
      fun _ hplace => hplace
  cases made with
  | ok =>
    cases hrest
    exact hmade
  | error refusal =>
    obtain ⟨there, last, hthere, hend⟩ := run_bind_iff.mp hrest
    have hlast : last = after := by
      cases there <;> exact (Prod.mk.inj hend).2
    rw [← hlast, TreeHost.isDirectory hthere]
    exact hmade

theorem OnTheWay.up {above : String} (habove : parent? name = some above) :
    ∀ place, OnTheWay above place → OnTheWay name place := by
  rintro place ⟨higher, hhigher, hplace⟩
  exact ⟨higher, .up habove hhigher, hplace⟩

/-- Directories are made at the place of the name and of those above it only. -/
theorem touched_makeDirectoriesFrom {fuel : Nat}
    (hrun : (makeDirectoriesFrom fuel name : StateM σ _).run before = (result, after)) :
    Touched (OnTheWay name) written (tree before) (tree after) := by
  induction fuel generalizing name before after result with
  | zero =>
    cases hrun
    exact .refl _
  | succ fuel ih =>
    cases makeDirectoriesFrom_cases hrun with
    | nameless _ hafter => exact .of_eq (by rw [hafter])
    | first hfirst => exact touched_ensureDirectory hfirst
    | refused hfirst _ => exact touched_ensureDirectory hfirst
    | rootless hfirst _ _ => exact touched_ensureDirectory hfirst
    | above hfirst _ habove hsecond =>
      have hhigher := (ih hsecond).mono (OnTheWay.up habove) fun _ hplace => hplace
      exact (touched_ensureDirectory hfirst).trans hhigher
    | again hfirst _ habove hsecond hlast =>
      have hhigher := (ih hsecond).mono (OnTheWay.up habove) fun _ hplace => hplace
      exact ((touched_ensureDirectory hfirst).trans hhigher).trans (touched_ensureDirectory hlast)

theorem touched_makeDirectories
    (hrun : (makeDirectories name : StateM σ _).run before = (result, after)) :
    Touched (OnTheWay name) written (tree before) (tree after) :=
  touched_makeDirectoriesFrom hrun

end

/-! ## Actions that are confined -/

section

variable {σ α β : Type} [Host (StateM σ)] [TreeHost σ] {made written made' written' : Place → Prop}
  {thrown thrown' : Error → Prop}

open TreeHost (tree)

/-- However the action ends, directories are made and files are written at these places
only, and an error that ends it is one of these. -/
structure Confined (made written : Place → Prop) (thrown : Error → Prop)
    (action : ExceptT Error (StateM σ) α) : Prop where
  touched : ∀ {before after : σ} {result : Except Error α}, Runs action before result after →
    Touched made written (tree before) (tree after)
  throws : ∀ {before after : σ} {error : Error}, Runs action before (.error error) after →
    thrown error

theorem Confined.mono {action : ExceptT Error (StateM σ) α}
    (h : Confined made written thrown action)
    (hmade : ∀ place, made place → made' place) (hwritten : ∀ place, written place → written' place)
    (hthrown : ∀ error, thrown error → thrown' error) : Confined made' written' thrown' action where
  touched hrun := (h.touched hrun).mono hmade hwritten
  throws hrun := hthrown _ (h.throws hrun)

theorem confined_pure (value : α) :
    Confined made written thrown (pure value : ExceptT Error (StateM σ) α) where
  touched hrun := .of_eq (congrArg tree (runs_pure_iff.mp hrun).2)
  throws hrun := by cases hrun

theorem confined_throw {error : Error} (herror : thrown error) :
    Confined made written thrown (throw error : ExceptT Error (StateM σ) α) where
  touched hrun := .of_eq (congrArg tree (runs_throw_iff.mp hrun).2)
  throws hrun := by
    obtain ⟨⟨⟩, -⟩ := runs_throw_iff.mp hrun
    exact herror

/-- In a sequence the second part may rely on what the first one returns. -/
theorem Confined.bind_returned {first : ExceptT Error (StateM σ) α}
    {next : α → ExceptT Error (StateM σ) β} (hfirst : Confined made written thrown first)
    (hnext : ∀ {before between : σ} {x : α}, Runs first before (.ok x) between →
      Confined made written thrown (next x)) :
    Confined made written thrown (first >>= next) where
  touched hrun := by
    rcases runs_bind_iff.mp hrun with ⟨error, hrun, -⟩ | ⟨x, between, hrun, hrest⟩
    · exact hfirst.touched hrun
    · exact (hfirst.touched hrun).trans ((hnext hrun).touched hrest)
  throws hrun := by
    rcases runs_bind_iff.mp hrun with ⟨error, hrun, ⟨⟩⟩ | ⟨x, between, hrun, hrest⟩
    · exact hfirst.throws hrun
    · exact (hnext hrun).throws hrest

theorem Confined.bind {first : ExceptT Error (StateM σ) α} {next : α → ExceptT Error (StateM σ) β}
    (hfirst : Confined made written thrown first)
    (hnext : ∀ x, Confined made written thrown (next x)) :
    Confined made written thrown (first >>= next) :=
  hfirst.bind_returned fun {_ _ x} _ => hnext x

theorem confined_lift {action : StateM σ α}
    (htouched : ∀ {before after : σ} {value : α}, action.run before = (value, after) →
      Touched made written (tree before) (tree after)) :
    Confined made written thrown (liftM action : ExceptT Error (StateM σ) α) where
  touched hrun := by
    obtain ⟨value, hrun, -⟩ := runs_lift_iff.mp hrun
    exact htouched hrun
  throws hrun := by
    obtain ⟨value, -, ⟨⟩⟩ := runs_lift_iff.mp hrun

theorem confined_tell (entry : Entry) :
    Confined made written thrown
      (liftM (Host.tell entry : StateM σ Unit) : ExceptT Error (StateM σ) Unit) :=
  confined_lift fun hrun => .of_eq (TreeHost.tell hrun)

theorem confined_say (level : Level) (message : String) :
    Confined made written thrown
      (liftM (say level message : StateM σ Unit) : ExceptT Error (StateM σ) Unit) :=
  confined_tell _

end

/-! ## The model and one that is shaky -/

instance : TreeHost World where
  tree := World.tree
  read {name before after result} hrun := by
    have hmodel : (Host.read name : Model _).run before =
        ((before.tree.read name).mapError Issue.refusal, before) := rfl
    obtain ⟨rfl, rfl⟩ := Prod.mk.inj (hmodel.symm.trans hrun)
    refine ⟨rfl, fun bytes hbytes => ?_⟩
    cases hread : before.tree.read name with
    | error issue =>
      rw [hread] at hbytes
      cases hbytes
    | ok found =>
      rw [hread] at hbytes
      cases hbytes
      rfl
  write {name text before after result} hrun := by
    cases hwrite : before.tree.write name text.toUTF8 with
    | ok tree =>
      have hmodel : (Host.write name text : Model _).run before =
          (.ok (), { before with tree := tree }) := Model.run_write_iff.mpr ⟨tree, hwrite, rfl⟩
      obtain ⟨rfl, rfl⟩ := Prod.mk.inj (hmodel.symm.trans hrun)
      exact .done hwrite
    | error issue =>
      have hmodel : (Host.write name text : Model _).run before =
          (.error issue.refusal, before) := Model.run_bind (Model.run_change_error hwrite)
      obtain ⟨rfl, rfl⟩ := Prod.mk.inj (hmodel.symm.trans hrun)
      exact .refused _
  makeDirectory {name before after result} hrun := by
    cases hmake : before.tree.makeDirectory name with
    | ok tree =>
      have hmodel : (Host.makeDirectory name : Model _).run before =
          (.ok (), { before with tree := tree }) := Model.run_bind (Model.run_change_ok hmake)
      obtain ⟨rfl, rfl⟩ := Prod.mk.inj (hmodel.symm.trans hrun)
      exact .done hmake
    | error issue =>
      have hmodel : (Host.makeDirectory name : Model _).run before =
          (.error issue.refusal, before) := Model.run_bind (Model.run_change_error hmake)
      obtain ⟨rfl, rfl⟩ := Prod.mk.inj (hmodel.symm.trans hrun)
      exact .refused _
  isDirectory {name before after there} hrun := by
    obtain ⟨-, rfl⟩ := Prod.mk.inj (Model.run_isDirectory.symm.trans hrun)
    rfl
  isThere {name before after there} hrun := by
    cases hrun
    rfl
  tell {entry before after} hrun := by
    cases hrun
    rfl

/-- Why an operation is refused, and the text that a refused write leaves behind, if any. -/
structure Fault where
  refusal : Refusal
  leaves : Option String

/-- A model that is at fault now and then. -/
structure Shaky where
  world : World
  /-- What happens to the next operations that change files; those that follow are carried
  out as on the model. -/
  faults : List (Option Fault)

namespace Shaky

/-- The fault of the next operation, if any. -/
def next : StateM Shaky (Option Fault) :=
  fun state => (state.faults.head?.join, { state with faults := state.faults.tail })

/-- Runs on the model. -/
def carryOut {α : Type} (action : Model α) : StateM Shaky α :=
  fun state => ((action.run state.world).1, { state with world := (action.run state.world).2 })

/-- What is left of a write that is refused. -/
def leave (name : String) (fault : Fault) : StateM Shaky Unit := do
  match fault.leaves with
  | some text => let _ ← carryOut (Host.write name text)
  | none => pure ()

instance : Host (StateM Shaky) where
  read name := carryOut (Host.read name)
  write name text := do
    match ← next with
    | some fault =>
      leave name fault
      return .error fault.refusal
    | none => carryOut (Host.write name text)
  makeDirectory name := do
    match ← next with
    | some fault => return .error fault.refusal
    | none => carryOut (Host.makeDirectory name)
  isDirectory name := carryOut (Host.isDirectory name)
  isThere name := carryOut (Host.isThere name)
  tell entry := carryOut (Host.tell entry)

variable {name text : String} {state before after : Shaky}

theorem run_carryOut {α : Type} {action : Model α} {x : α}
    (hrun : (carryOut action).run before = (x, after)) :
    action.run before.world = (x, after.world) := by
  cases hrun
  rfl

theorem run_carryOut_eq {α : Type} {action : Model α} {x : α} {world : World}
    (hrun : action.run state.world = (x, world)) :
    (carryOut action).run state = (x, { state with world := world }) := by
  show ((action.run state.world).1, _) = _
  rw [hrun]

theorem run_next (state : Shaky) :
    next.run state = (state.faults.head?.join, { state with faults := state.faults.tail }) := rfl

theorem leave_cases {fault : Fault} (hrun : (leave name fault).run before = ((), after)) :
    after.world.tree = before.world.tree ∨
      ∃ content, before.world.tree.write name content = .ok after.world.tree := by
  unfold leave at hrun
  cases hleaves : fault.leaves with
  | none =>
    rw [hleaves] at hrun
    cases hrun
    exact .inl rfl
  | some text =>
    rw [hleaves] at hrun
    obtain ⟨result, between, hwrite, ⟨⟩⟩ := run_bind_iff.mp hrun
    exact (TreeHost.write (run_carryOut hwrite)).unchanged_or_written

instance : TreeHost Shaky where
  tree state := state.world.tree
  read hrun := TreeHost.read (run_carryOut hrun)
  write {name text before after result} hrun := by
    obtain ⟨fault, between, hnext, hrest⟩ := run_bind_iff.mp hrun
    obtain ⟨-, rfl⟩ := Prod.mk.inj ((run_next before).symm.trans hnext)
    cases fault with
    | none => exact TreeHost.write (run_carryOut hrest)
    | some fault =>
      obtain ⟨_, left, hleave, ⟨⟩⟩ := run_bind_iff.mp hrest
      rcases leave_cases hleave with hsame | ⟨content, hwrite⟩
      · rw [hsame]
        exact .refused fault.refusal
      · exact .broken fault.refusal hwrite
  makeDirectory {name before after result} hrun := by
    obtain ⟨fault, between, hnext, hrest⟩ := run_bind_iff.mp hrun
    obtain ⟨-, rfl⟩ := Prod.mk.inj ((run_next before).symm.trans hnext)
    cases fault with
    | none => exact TreeHost.makeDirectory (run_carryOut hrest)
    | some fault =>
      cases hrest
      exact .refused fault.refusal
  isDirectory hrun := TreeHost.isDirectory (run_carryOut hrun)
  isThere hrun := TreeHost.isThere (run_carryOut hrun)
  tell hrun := TreeHost.tell (run_carryOut hrun)

/-! Without a fault the model decides. -/

/-- The state when something more has been told. -/
def told (state : Shaky) (entry : Entry) : Shaky :=
  { state with world := { state.world with log := state.world.log ++ [entry] } }

theorem run_tell (state : Shaky) (entry : Entry) :
    (Host.tell entry : StateM Shaky _).run state = ((), state.told entry) := rfl

theorem run_read {bytes : ByteArray} (hread : state.world.tree.read name = .ok bytes) :
    (Host.read name : StateM Shaky _).run state = (.ok bytes, state) := by
  have hmodel : (Host.read name : Model _).run state.world =
      ((state.world.tree.read name).mapError Issue.refusal, state.world) := rfl
  rw [hread] at hmodel
  exact run_carryOut_eq hmodel

theorem run_write {other : Tree} (hnext : state.faults.head?.join = none)
    (hwrite : state.world.tree.write name text.toUTF8 = .ok other) :
    (Host.write name text : StateM Shaky _).run state =
      (.ok (), ⟨{ state.world with tree := other }, state.faults.tail⟩) := by
  refine run_bind_iff.mpr ⟨_, _, run_next state, ?_⟩
  rw [hnext]
  exact run_carryOut_eq (Model.run_write_iff.mpr ⟨other, hwrite, rfl⟩)

theorem run_write_broken {other : Tree} {fault : Fault} {left : String}
    (hnext : state.faults.head?.join = some fault) (hleaves : fault.leaves = some left)
    (hwrite : state.world.tree.write name left.toUTF8 = .ok other) :
    (Host.write name text : StateM Shaky _).run state =
      (.error fault.refusal, ⟨{ state.world with tree := other }, state.faults.tail⟩) := by
  refine run_bind_iff.mpr ⟨_, _, run_next state, ?_⟩
  rw [hnext]
  refine run_bind_iff.mpr ⟨(), _, ?_, rfl⟩
  rw [leave, hleaves]
  exact run_bind_iff.mpr ⟨_, _, run_carryOut_eq (Model.run_write_iff.mpr ⟨other, hwrite, rfl⟩), rfl⟩

theorem run_makeDirectories {other : Tree} (hname : name.isEmpty = false)
    (hnext : state.faults.head?.join = none)
    (hmake : state.world.tree.makeDirectory name = .ok other) :
    (makeDirectories name : StateM Shaky _).run state =
      (.ok (), ⟨{ state.world with tree := other }, state.faults.tail⟩) := by
  have hensure : (ensureDirectory name : StateM Shaky _).run state =
      (.ok (), ⟨{ state.world with tree := other }, state.faults.tail⟩) := by
    refine run_bind_iff.mpr ⟨.ok (), _, run_bind_iff.mpr ⟨_, _, run_next state, ?_⟩, rfl⟩
    rw [hnext]
    exact run_carryOut_eq (Model.run_bind (Model.run_change_ok hmake))
  rw [makeDirectories, makeDirectoriesFrom, hname]
  exact run_bind_iff.mpr ⟨_, _, hensure, rfl⟩

end Shaky

end Relocate.Files
