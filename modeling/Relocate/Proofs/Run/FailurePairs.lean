import Relocate.FailureDirectory
import Relocate.Proofs.Files.Hosts

/-!
# Pairs of files for failed views

A failed view that is recorded has a report and a text, and both names carry its number.
On any host, a call to `record` writes to the pair behind the count only, and it returns
when both files are there.  So the pairs up to the count are those of the recorded views,
whatever calls have failed in between and wherever they stopped; half a pair that such a
call leaves behind is written again by the next one.
-/

namespace Relocate.FailureDirectory

open Files TreeHost

/-! ## Numbered files -/

/-- The name of a numbered file in its directory. -/
def numbered (number : Nat) (ending : String) : String :=
  "error_" ++ toString number ++ ending

theorem toList_numbered (number : Nat) (ending : String) :
    (numbered number ending).toList =
      "error_".toList ++ (Nat.toDigits 10 number ++ ending.toList) := by
  have hdigits : (toString number).toList = Nat.toDigits 10 number := by
    show number.repr.toList = _
    rw [Nat.repr_eq_ofList_toDigits, String.toList_ofList]
  rw [numbered, String.toList_append, String.toList_append, hdigits, List.append_assoc]

theorem isFileName_numbered (number : Nat) {ending : String} (hending : '/' ∉ ending.toList) :
    IsFileName (numbered number ending) = true := by
  have hslash : '/' ∉ (numbered number ending).toList := by
    rw [toList_numbered, List.mem_append, List.mem_append]
    rintro (hmem | hmem | hmem)
    · revert hmem
      decide
    · have hdigit := Nat.isDigit_of_mem_toDigits (by decide) (by decide) hmem
      revert hdigit
      decide
    · exact hending hmem
  have hother {other : String} (hhead : other.toList.head? ≠ some 'e') :
      numbered number ending ≠ other := by
    rintro rfl
    rw [toList_numbered] at hhead
    exact hhead rfl
  exact isFileName_iff.mpr ⟨hslash, hother (by decide), hother (by decide), hother (by decide)⟩

theorem numbered_inj {first second : Nat} {ending : String} :
    numbered first ending = numbered second ending ↔ first = second := by
  constructor
  · intro heq
    have hlist := congrArg String.toList heq
    rw [toList_numbered, toList_numbered] at hlist
    have hdigits := List.append_cancel_right (List.append_cancel_left hlist)
    have hvalue (number : Nat) : Nat.ofDigitChars 10 (Nat.toDigits 10 number) 0 = number :=
      Nat.ofDigitChars_toDigits (by decide) (by decide)
    rw [← hvalue first, hdigits, hvalue second]
  · exact congrArg (numbered · ending)

theorem getLast?_numbered (number : Nat) {ending : String} (hending : ending.toList ≠ []) :
    (numbered number ending).toList.getLast? = ending.toList.getLast? := by
  rw [toList_numbered, ← List.append_assoc, List.getLast?_append_of_ne_nil _ hending]

theorem placeOf_reportName (directory : String) (number : Nat) :
    placeOf (reportName directory number) = placeOf directory ++ [numbered number ".txt"] :=
  placeOf_inDirectory directory (isFileName_numbered number (by decide))

theorem placeOf_sqlName (directory : String) (number : Nat) :
    placeOf (sqlName directory number) = placeOf directory ++ [numbered number ".sql"] :=
  placeOf_inDirectory directory (isFileName_numbered number (by decide))

/-- The report and the text with a number are those of a failed view. -/
def PairHolds (tree : Tree) (directory : String) (number : Nat) (failed : ViewFailure) : Prop :=
  tree.Stores (reportName directory number) failed.report.toUTF8 ∧
    tree.Stores (sqlName directory number) failed.sql.toUTF8

/-- The report and the text with a number are what they were before, also when they are
missing. -/
def PairStays (before after : Tree) (directory : String) (number : Nat) : Prop :=
  ∀ content,
    (after.Stores (reportName directory number) content ↔
      before.Stores (reportName directory number) content) ∧
    (after.Stores (sqlName directory number) content ↔
      before.Stores (sqlName directory number) content)

/-- The place of the report or of the text with a number. -/
def InPair (directory : String) (number : Nat) (place : Place) : Prop :=
  place = placeOf (reportName directory number) ∨ place = placeOf (sqlName directory number)

/-- The place of the report or of the text with some number. -/
def InPairs (directory : String) (place : Place) : Prop :=
  ∃ number, 0 < number ∧ InPair directory number place

section

variable {directory : String} {number other : Nat} {place : Place}

theorem numbered_txt_ne_sql : numbered number ".txt" ≠ numbered other ".sql" := by
  intro heq
  have hlast := congrArg (fun name => name.toList.getLast?) heq
  rw [getLast?_numbered number (by decide), getLast?_numbered other (by decide)] at hlast
  revert hlast
  decide

theorem placeOf_reportName_ne_sqlName :
    placeOf (reportName directory number) ≠ placeOf (sqlName directory other) := by
  rw [placeOf_reportName, placeOf_sqlName]
  intro heq
  exact numbered_txt_ne_sql (List.cons.inj (List.append_cancel_left heq)).1

/-- Pairs with different numbers have no place in common. -/
theorem InPair.number_eq
    (h : InPair directory number place) (hother : InPair directory other place) :
    number = other := by
  have hsame {ending : String}
      (heq : placeOf directory ++ [numbered number ending] =
        placeOf directory ++ [numbered other ending]) : number = other :=
    numbered_inj.mp (List.cons.inj (List.append_cancel_left heq)).1
  rcases h with rfl | rfl <;> rcases hother with heq | heq
  · rw [placeOf_reportName, placeOf_reportName] at heq
    exact hsame heq
  · exact absurd heq placeOf_reportName_ne_sqlName
  · exact absurd heq.symm placeOf_reportName_ne_sqlName
  · rw [placeOf_sqlName, placeOf_sqlName] at heq
    exact hsame heq

/-! ## Pairs that stay -/

variable {before between after : Tree} {made : Place → Prop} {failed : ViewFailure}

theorem PairStays.refl (tree : Tree) : PairStays tree tree directory number :=
  fun _ => ⟨Iff.rfl, Iff.rfl⟩

theorem PairStays.trans (hfirst : PairStays before between directory number)
    (hsecond : PairStays between after directory number) :
    PairStays before after directory number :=
  fun content => ⟨(hsecond content).1.trans (hfirst content).1,
    (hsecond content).2.trans (hfirst content).2⟩

theorem PairHolds.of_stays (h : PairHolds before directory number failed)
    (hstays : PairStays before after directory number) : PairHolds after directory number failed :=
  ⟨(hstays _).1.mpr h.1, (hstays _).2.mpr h.2⟩

/-- Writing one pair leaves the others. -/
theorem pairStays_of_touched (h : Touched made (InPair directory number) before after)
    (hne : other ≠ number) : PairStays before after directory other := by
  have hreport : ¬ InPair directory number (placeOf (reportName directory other)) :=
    fun hin => hne (InPair.number_eq (.inl rfl) hin)
  have hsql : ¬ InPair directory number (placeOf (sqlName directory other)) :=
    fun hin => hne (InPair.number_eq (.inr rfl) hin)
  exact fun content => ⟨h.file_iff hreport content, h.file_iff hsql content⟩

end

/-! ## One call -/

section

variable {σ : Type} [Host (StateM σ)] [TreeHost σ] {directory : String} {number : Nat}
  {failed : ViewFailure} {before after : σ} {made written : Place → Prop}

/-- The error speaks of a file for a failed view. -/
def IsOfRecording (error : Error) : Prop :=
  ∃ name words, error = .failureWrite name words

theorem isOfRecording_of_orFail {name : String} {outcome : Except Refusal Unit} {error : Error}
    (hfail : .error error = orFail name outcome) : IsOfRecording error := by
  cases outcome with
  | ok => cases hfail
  | error refusal =>
    cases hfail
    exact ⟨name, refusal.words, rfl⟩

theorem confined_write {name text : String} (hwritten : written (placeOf name)) :
    Confined made written IsOfRecording
      (ExceptT.mk ((orFail name) <$> (Host.write name text : StateM σ _))) where
  touched hrun := by
    obtain ⟨outcome, hwrite, -⟩ := runs_mk_map_iff.mp hrun
    refine (TreeHost.write hwrite).touched.mono (fun _ h => h) ?_
    rintro _ rfl
    exact hwritten
  throws hrun := by
    obtain ⟨outcome, -, hfail⟩ := runs_mk_map_iff.mp hrun
    exact isOfRecording_of_orFail hfail

theorem stores_of_write {name text : String}
    (hrun : Runs (ExceptT.mk ((orFail name) <$> (Host.write name text : StateM σ _))) before
      (.ok ()) after) : (tree after).Stores name text.toUTF8 := by
  obtain ⟨outcome, hwrite, houtcome⟩ := runs_mk_map_iff.mp hrun
  cases outcome with
  | ok => exact (TreeHost.write hwrite).stores
  | error refusal => cases houtcome

theorem confined_writePair :
    Confined made (InPair directory number) IsOfRecording
      (writePair directory number failed : ExceptT Error (StateM σ) Unit) :=
  (confined_write (.inl rfl)).bind fun _ => (confined_write (.inr rfl)).bind fun _ =>
    confined_say _ _

theorem holds_of_writePair
    (hrun : Runs (writePair directory number failed) before (.ok ()) after) :
    PairHolds (tree after) directory number failed := by
  unfold writePair at hrun
  rcases runs_bind_iff.mp hrun with ⟨_, _, ⟨⟩⟩ | ⟨_, between, hreport, hrest⟩
  rcases runs_bind_iff.mp hrest with ⟨_, _, ⟨⟩⟩ | ⟨_, last, hsql, hsay⟩
  obtain ⟨_, htell, -⟩ := runs_lift_iff.mp hsay
  rw [TreeHost.tell htell]
  -- The text is written to another place than the report.
  have hother : Touched (OnTheWay directory) (· = placeOf (sqlName directory number))
      (tree between) (tree last) := (confined_write (by rfl)).touched hsql
  have hkept := (hother.file_iff placeOf_reportName_ne_sqlName _).mpr (stores_of_write hreport)
  exact ⟨hkept, stores_of_write hsql⟩

/-- Makes the directory in front of the first pair. -/
def prepare (target : FailureDirectory) : ExceptT Error (StateM σ) Unit :=
  if target.count = 0 then
    ExceptT.mk ((orFail target.directory) <$>
      (makeDirectories target.directory : StateM σ (Except Refusal Unit)))
  else pure ()

omit [TreeHost σ] in
theorem record_eq (target : FailureDirectory) (failed : ViewFailure) :
    (target.record failed : ExceptT Error (StateM σ) _) = (do
      (Host.tell failed.entry : StateM σ Unit)
      target.prepare
      writePair target.directory (target.count + 1) failed
      return { target with count := target.count + 1 }) := by
  unfold record prepare
  split <;> rfl

theorem confined_prepare (target : FailureDirectory) :
    Confined (OnTheWay target.directory) written IsOfRecording
      (target.prepare : ExceptT Error (StateM σ) Unit) := by
  unfold prepare
  split
  · constructor
    · intro before after result hrun
      obtain ⟨outcome, hmake, -⟩ := runs_mk_map_iff.mp hrun
      exact touched_makeDirectories hmake
    · intro before after error hrun
      obtain ⟨outcome, -, hfail⟩ := runs_mk_map_iff.mp hrun
      exact isOfRecording_of_orFail hfail
  · exact confined_pure ()

/-- A call writes to the pair behind the count only. -/
theorem confined_record (target : FailureDirectory) (failed : ViewFailure) :
    Confined (OnTheWay target.directory) (InPair target.directory (target.count + 1))
      IsOfRecording (target.record failed : ExceptT Error (StateM σ) _) := by
  rw [record_eq]
  exact (confined_tell _).bind fun _ => (confined_prepare target).bind fun _ =>
    confined_writePair.bind fun _ => confined_pure _

/-- A call that returns has counted, and its pair is there. -/
theorem holds_of_record {target next : FailureDirectory}
    (hrun : Runs (target.record failed) before (.ok next) after) :
    next = { target with count := target.count + 1 } ∧
      PairHolds (tree after) target.directory next.count failed := by
  rw [record_eq] at hrun
  rcases runs_bind_iff.mp hrun with ⟨_, _, ⟨⟩⟩ | ⟨_, told, -, hrest⟩
  rcases runs_bind_iff.mp hrest with ⟨_, _, ⟨⟩⟩ | ⟨_, prepared, -, hrest⟩
  rcases runs_bind_iff.mp hrest with ⟨_, _, ⟨⟩⟩ | ⟨_, last, hpair, hend⟩
  obtain ⟨⟨⟩, rfl⟩ := runs_pure_iff.mp hend
  exact ⟨rfl, holds_of_writePair hpair⟩

end

/-! ## Calls one after the other -/

/-- The files in a directory are the same. -/
def Undisturbed (directory : String) (before after : Tree) : Prop :=
  ∀ file, after.at? (placeOf directory ++ [file]) = before.at? (placeOf directory ++ [file])

theorem Undisturbed.pairStays {directory : String} {before after : Tree}
    (h : Undisturbed directory before after) (number : Nat) :
    PairStays before after directory number := by
  intro content
  unfold Tree.Stores
  rw [placeOf_reportName, placeOf_sqlName, h, h]
  exact ⟨Iff.rfl, Iff.rfl⟩

section

variable {σ : Type} [Host (StateM σ)] [TreeHost σ]

/-- Calls for one directory, one after the other, each with whether it returned.  Between
them anything may happen to the host, but not to the files in the directory. -/
inductive Calls (directory : String) (start : σ) :
    List (ViewFailure × Bool) → FailureDirectory → σ → Prop
  | none : Calls directory start [] ⟨directory, 0⟩ start
  | elsewhere {calls : List (ViewFailure × Bool)} {target : FailureDirectory} {before after : σ}
    (h : Calls directory start calls target before)
    (hsame : Undisturbed directory (tree before) (tree after)) :
    Calls directory start calls target after
  | recorded {calls : List (ViewFailure × Bool)} {target next : FailureDirectory}
    {before after : σ} {failed : ViewFailure} (h : Calls directory start calls target before)
    (hrun : Runs (target.record failed) before (.ok next) after) :
    Calls directory start (calls ++ [(failed, true)]) next after
  | refused {calls : List (ViewFailure × Bool)} {target : FailureDirectory} {before after : σ}
    {failed : ViewFailure} {error : Error} (h : Calls directory start calls target before)
    (hrun : Runs (target.record failed) before (.error error) after) :
    Calls directory start (calls ++ [(failed, false)]) target after

/-- The failed views of the calls that returned. -/
def recordedOf (calls : List (ViewFailure × Bool)) : List ViewFailure :=
  (calls.filter Prod.snd).map Prod.fst

theorem recordedOf_append_true (calls : List (ViewFailure × Bool)) (failed : ViewFailure) :
    recordedOf (calls ++ [(failed, true)]) = recordedOf calls ++ [failed] := by
  simp [recordedOf]

theorem recordedOf_append_false (calls : List (ViewFailure × Bool)) (failed : ViewFailure) :
    recordedOf (calls ++ [(failed, false)]) = recordedOf calls := by
  simp [recordedOf]

variable {directory : String} {start before after : σ} {calls : List (ViewFailure × Bool)}
  {target : FailureDirectory}

/-- Every pair up to the count is that of the failed view that was recorded with its number,
and no pair behind the next one has changed. -/
structure Numbered (directory : String) (start : Tree) (recorded : List ViewFailure)
    (target : FailureDirectory) (tree : Tree) : Prop where
  directory_eq : target.directory = directory
  count_eq : target.count = recorded.length
  holds : ∀ (j : Nat) (hj : j < recorded.length), PairHolds tree directory (j + 1) recorded[j]
  beyond : ∀ number, target.count + 1 < number → PairStays start tree directory number

theorem Numbered.of_stays {start before after : Tree} {recorded : List ViewFailure}
    (h : Numbered directory start recorded target before)
    (hstays : ∀ number, number ≠ target.count + 1 → PairStays before after directory number) :
    Numbered directory start recorded target after where
  directory_eq := h.directory_eq
  count_eq := h.count_eq
  holds j hj := (h.holds j hj).of_stays (hstays _ (by have := h.count_eq; omega))
  beyond number hnumber := (h.beyond number hnumber).trans (hstays _ (by omega))

theorem Numbered.recorded {start before after : Tree} {recorded : List ViewFailure}
    {failed : ViewFailure} (h : Numbered directory start recorded target before)
    (hstays : ∀ number, number ≠ target.count + 1 → PairStays before after directory number)
    (hholds : PairHolds after directory (target.count + 1) failed) :
    Numbered directory start (recorded ++ [failed]) { target with count := target.count + 1 }
      after where
  directory_eq := h.directory_eq
  count_eq := by rw [List.length_append, List.length_singleton, ← h.count_eq]
  holds j hj := by
    rw [List.length_append, List.length_singleton] at hj
    rcases Nat.lt_succ_iff_lt_or_eq.mp hj with hold | rfl
    · rw [List.getElem_append_left hold]
      exact (h.of_stays hstays).holds j hold
    · rw [List.getElem_concat_length rfl, ← h.count_eq]
      exact hholds
  beyond number hnumber :=
    (h.beyond number (Nat.lt_of_succ_lt hnumber)).trans
      (hstays _ (Nat.ne_of_gt (Nat.lt_of_succ_lt hnumber)))

/-- The run lemma. -/
theorem Calls.numbered (h : Calls directory start calls target after) :
    Numbered directory (tree start) (recordedOf calls) target (tree after) := by
  induction h with
  | none => exact ⟨rfl, rfl, nofun, fun _ _ => .refl _⟩
  | elsewhere _ hsame ih => exact ih.of_stays fun number _ => hsame.pairStays number
  | recorded _ hrun ih =>
    have htouched := (confined_record _ _).touched hrun
    obtain ⟨rfl, hholds⟩ := holds_of_record hrun
    rw [ih.directory_eq] at htouched hholds
    rw [recordedOf_append_true]
    exact ih.recorded (fun number hne => pairStays_of_touched htouched hne) hholds
  | refused _ hrun ih =>
    have htouched := (confined_record _ _).touched hrun
    rw [ih.directory_eq] at htouched
    rw [recordedOf_append_false]
    exact ih.of_stays fun number hne => pairStays_of_touched htouched hne

end

/-! ## A full disk -/

section

variable {σ : Type} [Host (StateM σ)] {tree : Tree} {state : Shaky} {file : String} {number : Nat}

/-- The directory is there, and no directory is in it. -/
structure IsReady (tree : Tree) : Prop where
  directory : tree.at? ["out_errors"] = some .directory
  files : ∀ file, tree.at? ["out_errors", file] ≠ some .directory

/-- The name of a file that systems take. -/
def IsTaken (file : String) : Prop :=
  IsFileName file = true ∧ '\x00' ∉ file.toList ∧ file.utf8ByteSize ≤ Tree.maxNameLength

theorem toList_inDirectory_out (file : String) :
    (inDirectory "out_errors" file).toList = "out_errors/".toList ++ file.toList := by
  have hends : "out_errors".endsWith "/" = false := by
    rw [endsWith_slash]
    decide
  have hname : inDirectory "out_errors" file = "out_errors/" ++ file := by
    rw [inDirectory, hends]
    rfl
  rw [hname, String.toList_append]

theorem locate_out (h : IsReady tree) (hfile : IsTaken file) :
    tree.locate (inDirectory "out_errors" file) = .ok ["out_errors", file] := by
  obtain ⟨hname, hnul, hlength⟩ := hfile
  have hnone : (inDirectory "out_errors" file).toList.contains '\x00' = false := by
    rw [toList_inDirectory_out, List.contains_eq_mem, decide_eq_false_iff_not, List.mem_append]
    rintro (hmem | hmem)
    · revert hmem
      decide
    · exact hnul hmem
  have hempty : (inDirectory "out_errors" file).isEmpty = false := by
    rw [String.isEmpty_eq_false_iff, ne_eq, ← String.toList_eq_nil_iff, toList_inDirectory_out]
    nofun
  have hrelative : (inDirectory "out_errors" file).startsWith "/" = false := by
    rw [startsWith_slash, toList_inDirectory_out]
    rfl
  have hparts : parts (inDirectory "out_errors" file) = ["out_errors", file] :=
    parts_inDirectory "out_errors" hname
  have hfirst : Tree.enter [] "out_errors" = ["out_errors"] := rfl
  have hsecond : Tree.enter ["out_errors"] file = ["out_errors", file] := enter_file _ hname
  have hshort : ¬ Tree.maxNameLength < "out_errors".utf8ByteSize := by decide
  rw [Tree.locate, hnone, hempty, hrelative, hparts]
  simp only [Tree.follow, hfirst, h.directory, hsecond, if_neg hshort,
    if_neg (Nat.not_lt.mpr hlength), Bool.or_false, Bool.false_eq_true, if_false]

theorem exists_write_out (h : IsReady tree) (hfile : IsTaken file) (content : ByteArray) :
    ∃ other, tree.write (inDirectory "out_errors" file) content = .ok other ∧ IsReady other := by
  have hends : (inDirectory "out_errors" file).endsWith "/" = false := by
    obtain ⟨hslash, hempty, -, -⟩ := isFileName_iff.mp hfile.1
    rw [endsWith_slash, toList_inDirectory_out, decide_eq_false_iff_not]
    rintro ⟨front, hfront⟩
    have hlast := congrArg List.getLast? hfront
    rw [List.getLast?_concat, List.getLast?_append_of_ne_nil _ (by simpa using hempty)] at hlast
    exact hslash (List.mem_of_getLast? hlast.symm)
  refine ⟨_, Tree.write_eq_ok hends (locate_out h hfile) (h.files file), ?_, ?_⟩
  · rw [Tree.at?_put (List.cons_ne_nil _ _), if_neg (by simp), h.directory]
  · intro other
    rw [Tree.at?_put (List.cons_ne_nil _ _)]
    split
    · nofun
    · exact h.files other

theorem exists_runs_write (h : IsReady state.world.tree) (hfile : IsTaken file)
    (hnext : state.faults.head?.join = none) (text : String) :
    ∃ after, Runs (ExceptT.mk ((orFail (inDirectory "out_errors" file)) <$>
        (Host.write (inDirectory "out_errors" file) text : StateM Shaky _))) state (.ok ()) after ∧
      IsReady after.world.tree ∧ after.faults = state.faults.tail := by
  obtain ⟨other, hwrite, hother⟩ := exists_write_out h hfile text.toUTF8
  exact ⟨_, runs_mk_map_iff.mpr ⟨_, Shaky.run_write hnext hwrite, rfl⟩, hother, rfl⟩

theorem exists_runs_write_broken {fault : Fault} {left : String} (h : IsReady state.world.tree)
    (hfile : IsTaken file) (hnext : state.faults.head?.join = some fault)
    (hleaves : fault.leaves = some left) (text : String) :
    ∃ error after, Runs (ExceptT.mk ((orFail (inDirectory "out_errors" file)) <$>
        (Host.write (inDirectory "out_errors" file) text : StateM Shaky _))) state
        (.error error) after ∧
      IsReady after.world.tree ∧ after.faults = state.faults.tail := by
  obtain ⟨other, hwrite, hother⟩ := exists_write_out h hfile left.toUTF8
  exact ⟨_, _, runs_mk_map_iff.mpr ⟨_, Shaky.run_write_broken hnext hleaves hwrite, rfl⟩,
    hother, rfl⟩

/-- The names of the pair with this number are names that systems take. -/
def PairTaken (number : Nat) : Prop :=
  IsTaken (numbered number ".txt") ∧ IsTaken (numbered number ".sql")

instance (number : Nat) : Decidable (PairTaken number) :=
  inferInstanceAs (Decidable ((_ ∧ _ ∧ _) ∧ _ ∧ _ ∧ _))

theorem exists_runs_writePair (h : IsReady state.world.tree) (hnumber : PairTaken number)
    (hreport : state.faults.head?.join = none) (hsql : state.faults.tail.head?.join = none)
    (failed : ViewFailure) :
    ∃ after, Runs (writePair "out_errors" number failed) state (.ok ()) after ∧
      IsReady after.world.tree ∧ after.faults = state.faults.tail.tail := by
  obtain ⟨first, hfirst, hready, hfaults⟩ := exists_runs_write h hnumber.1 hreport failed.report
  obtain ⟨second, hsecond, hready, hrest⟩ :=
    exists_runs_write hready hnumber.2 (hfaults ▸ hsql) failed.sql
  rw [hfaults] at hrest
  exact ⟨_, hfirst.bind (hsecond.bind (runs_lift (Shaky.run_tell _ _))), hready, hrest⟩

theorem exists_runs_writePair_broken {fault : Fault} {left : String} (h : IsReady state.world.tree)
    (hnumber : PairTaken number) (hreport : state.faults.head?.join = none)
    (hsql : state.faults.tail.head?.join = some fault) (hleaves : fault.leaves = some left)
    (failed : ViewFailure) :
    ∃ error after, Runs (writePair "out_errors" number failed) state (.error error) after ∧
      IsReady after.world.tree ∧ after.faults = state.faults.tail.tail := by
  obtain ⟨first, hfirst, hready, hfaults⟩ := exists_runs_write h hnumber.1 hreport failed.report
  obtain ⟨error, second, hsecond, hready, hrest⟩ :=
    exists_runs_write_broken hready hnumber.2 (hfaults ▸ hsql) hleaves failed.sql
  rw [hfaults] at hrest
  exact ⟨error, _, hfirst.bind hsecond.bind_error, hready, hrest⟩

/-- A call is what it tells, the directory where there is none yet, and its pair. -/
theorem runs_record_of_pair {target : FailureDirectory} {failed : ViewFailure}
    {before prepared after : σ} {result : Except Error Unit} {told : σ}
    (htell : (Host.tell failed.entry : StateM σ Unit).run before = ((), told))
    (hprepare : Runs target.prepare told (.ok ()) prepared)
    (hpair : Runs (writePair target.directory (target.count + 1) failed) prepared result after) :
    Runs (target.record failed) before
      (result.map fun _ => { target with count := target.count + 1 }) after := by
  rw [record_eq]
  refine (runs_lift htell).bind (hprepare.bind ?_)
  cases result with
  | ok => exact hpair.bind rfl
  | error error => exact hpair.bind_error

theorem exists_runs_record_first (hnone : state.world.tree.at? ["out_errors"] = none)
    (hfiles : ∀ file, state.world.tree.at? ["out_errors", file] = none)
    (hmake : state.faults.head?.join = none) (hreport : state.faults.tail.head?.join = none)
    (hsql : state.faults.tail.tail.head?.join = none) (failed : ViewFailure) :
    ∃ after, Runs (record ⟨"out_errors", 0⟩ failed) state (.ok ⟨"out_errors", 1⟩) after ∧
      IsReady after.world.tree ∧ after.faults = state.faults.tail.tail.tail := by
  let told := state.told failed.entry
  let made : Shaky :=
    ⟨⟨state.world.tree.put ["out_errors"] .directory, told.world.log⟩, state.faults.tail⟩
  have hmakes : told.world.tree.makeDirectory "out_errors" = .ok made.world.tree := by
    have hlocate : state.world.tree.locate "out_errors" = .ok ["out_errors"] := by
      rw [Tree.locate, startsWith_slash]
      rfl
    show state.world.tree.makeDirectory "out_errors" = _
    rw [Tree.makeDirectory, hlocate]
    simp only [bind, Except.bind, hnone]
    rfl
  have hprepare : Runs (prepare ⟨"out_errors", 0⟩) told (.ok ()) made :=
    runs_mk_map_iff.mpr ⟨.ok (), Shaky.run_makeDirectories rfl hmake hmakes, rfl⟩
  have hready : IsReady made.world.tree := by
    constructor
    · rw [Tree.at?_put (List.cons_ne_nil _ _), if_pos rfl]
    · intro file
      rw [Tree.at?_put (List.cons_ne_nil _ _), if_neg (by simp), hfiles]
      exact (Option.some_ne_none _).symm
  obtain ⟨after, hpair, hafter⟩ := exists_runs_writePair hready
    (show PairTaken 1 by decide) hreport hsql failed
  exact ⟨after, runs_record_of_pair rfl hprepare hpair, hafter⟩

/-- A view that is lost. -/
def lostView (name : String) : ViewFailure :=
  ⟨["Lab", name], .ofMessage .parse "unexpected end", "SELECT"⟩

/-- There is room for the first characters of a text only. -/
def noSpace : Fault :=
  ⟨⟨false, "No space left on device (os error 28)"⟩, some "SEL"⟩

/-- Nothing is there, and the disk is full when the fifth change is made. -/
def fullDisk : Shaky :=
  ⟨⟨.empty, []⟩, [none, none, none, none, some noSpace]⟩

theorem exists_calls_fullDisk : ∃ after, Calls "out_errors" fullDisk
    [(lostView "first", true), (lostView "second", false), (lostView "second", true)]
    ⟨"out_errors", 2⟩ after := by
  have hagain (told : Shaky) : Runs (prepare ⟨"out_errors", 1⟩) told (.ok ()) told :=
    runs_pure_iff.mpr ⟨rfl, rfl⟩
  obtain ⟨one, hone, hready, hfaults⟩ := @exists_runs_record_first fullDisk rfl (fun _ => rfl) rfl
    rfl rfl (lostView "first")
  replace hfaults : one.faults = [none, some noSpace] := hfaults
  have hcalls := Calls.recorded .none hone
  -- The text of the second pair is cut off.
  replace hready : IsReady (one.told (lostView "second").entry).world.tree := hready
  obtain ⟨error, half, hhalf, hready, hrest⟩ := exists_runs_writePair_broken hready
    (show PairTaken 2 by decide) (by rw [Shaky.told, hfaults]; rfl)
    (by rw [Shaky.told, hfaults]; rfl) rfl (lostView "second")
  replace hrest : half.faults = [] := by rw [hrest, Shaky.told, hfaults]; rfl
  replace hcalls := hcalls.refused (runs_record_of_pair rfl (hagain _) hhalf)
  -- The second pair is written again.
  replace hready : IsReady (half.told (lostView "second").entry).world.tree := hready
  obtain ⟨two, htwo, -⟩ := exists_runs_writePair hready
    (show PairTaken 2 by decide) (by rw [Shaky.told, hrest]; rfl) (by rw [Shaky.told, hrest]; rfl)
    (lostView "second")
  exact ⟨two, hcalls.recorded (runs_record_of_pair rfl (hagain _) htwo)⟩

end

/-! ## Numbering -/

/-- Whatever fails, the pairs are numbered without gaps and none is lost: after any number
of calls the pairs up to the count are those of the views that were recorded, in order, the
pairs behind the next one are as at the start, and a call that fails from here on leaves
all pairs up to the count. -/
theorem pairs_without_gaps {σ : Type} [Host (StateM σ)] [TreeHost σ] {directory : String}
    {start after : σ} {calls : List (ViewFailure × Bool)} {target : FailureDirectory}
    (h : Calls directory start calls target after) :
    target.count = (recordedOf calls).length ∧
      (∀ (j : Nat) (hj : j < (recordedOf calls).length),
        PairHolds (tree after) directory (j + 1) (recordedOf calls)[j]) ∧
      (∀ number, target.count + 1 < number →
        PairStays (tree start) (tree after) directory number) ∧
      ∀ failed error last, Runs (target.record failed) after (.error error) last →
        ∀ number ≤ target.count, PairStays (tree after) (tree last) directory number := by
  have hnumbered := h.numbered
  refine ⟨hnumbered.count_eq, hnumbered.holds, hnumbered.beyond, ?_⟩
  intro failed error last hrun number hnumber
  have htouched := (confined_record _ _).touched hrun
  rw [hnumbered.directory_eq] at htouched
  exact pairStays_of_touched htouched (by omega)

/-- The pair that was cut off is whole in the end. -/
theorem pairs_without_gaps_fullDisk : ∃ after, Calls "out_errors" fullDisk
      [(lostView "first", true), (lostView "second", false), (lostView "second", true)]
      ⟨"out_errors", 2⟩ after ∧
    PairHolds after.world.tree "out_errors" 1 (lostView "first") ∧
    PairHolds after.world.tree "out_errors" 2 (lostView "second") := by
  obtain ⟨after, hcalls⟩ := exists_calls_fullDisk
  have hpairs := (pairs_without_gaps hcalls).2.1
  exact ⟨after, hcalls, hpairs 0 (by decide), hpairs 1 (by decide)⟩

end Relocate.FailureDirectory
