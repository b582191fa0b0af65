import Mathlib.Data.List.TakeWhile
import Mathlib.Data.Nat.Find
import Relocate.Proofs.Sql.Lines
import Relocate.Sql.Failure

/-!
# The line of a failure

A failure takes its line from the text of its message: the number behind the first
`Line:` that has one (`lineOf_eq_some_iff`).  The parser tells its place at the end of
the message, behind what it found in the statement, so the line is the parser's unless
what it found names another line first (`reported_line_iff`).  Causes are kept in order,
and the first text that carries a line decides.
-/

namespace Relocate.Sql

open Text

/-- An ASCII digit is a decimal digit. -/
theorem isDecimalDigit_of_isDigit {c : Char} (h : c.isDigit = true) : isDecimalDigit c = true := by
  simp only [Char.isDigit, Bool.and_eq_true, decide_eq_true_eq, UInt32.le_iff_toNat_le] at h
  have hzero : 0x30 ∈ zeros := by decide
  refine List.any_eq_true.mpr ⟨0x30, hzero, ?_⟩
  have hrange : 0x30 ≤ c.toNat ∧ c.toNat < 0x30 + 10 := ⟨h.1, Nat.lt_succ_of_le h.2⟩
  simpa using hrange

/-- A digit of any script is no blank. -/
theorem not_isBlank_of_isDecimalDigit {c : Char} (h : isDecimalDigit c = true) :
    isBlank c = false := by
  by_contra hblank
  rw [Bool.not_eq_false] at hblank
  have hnone : ∀ code ∈ blankCodes, isDecimalDigit (Char.ofNat code) = false := by
    decide +kernel
  have hcode := hnone _ (toNat_mem_blankCodes hblank)
  rw [Char.ofNat_toNat, h] at hcode
  cases hcode

namespace Failure

/-! ## Where a text names a line -/

/-- The text starts with `Line:`, any blanks and these digits, and with no further one. -/
def LineAt (text digits : List Char) : Prop :=
  ∃ blanks rest, text = "Line:".toList ++ (blanks ++ (digits ++ rest)) ∧
    (∀ c ∈ blanks, isBlank c = true) ∧ digits ≠ [] ∧
    (∀ c ∈ digits, isDecimalDigit c = true) ∧ ∀ c ∈ rest.head?, isDecimalDigit c = false

/-- The digits are those behind the first `Line:` of the text that has any. -/
def FirstLine (text digits : List Char) : Prop :=
  ∃ start, LineAt (text.drop start) digits ∧
    ∀ earlier < start, ∀ others, ¬ LineAt (text.drop earlier) others

/-- Somewhere in the text there is a `Line:` with digits behind it. -/
def NamesLine (text : String) : Prop :=
  ∃ start digits, LineAt (text.toList.drop start) digits

/-- The first line that the text names is this one: its digits are ASCII digits, and it is
no larger than a line can be. -/
def CarriesLine (text : String) (line : Nat) : Prop :=
  ∃ digits, FirstLine text.toList digits ∧ (∀ c ∈ digits, c.isDigit = true) ∧
    Nat.ofDigitChars 10 digits 0 = line ∧ line ≤ maxLine

/-! ## What is read at one place -/

/-- The digits behind the blanks at the start of a text. -/
def digitsBehind (text : List Char) : List Char :=
  (text.dropWhile isBlank).takeWhile isDecimalDigit

/-- The digits of the line that is named at the start of a text. -/
def startDigits (text : List Char) : List Char :=
  ((dropExact? "Line:".toList text).map digitsBehind).getD []

theorem lineDigits?_cons (c : Char) (rest : List Char) :
    lineDigits? (c :: rest) =
      if startDigits (c :: rest) = [] then lineDigits? rest
      else some (startDigits (c :: rest)) := by
  have hbehind : (fun text : List Char => (text.dropWhile isBlank).takeWhile isDecimalDigit) =
      digitsBehind := rfl
  rw [lineDigits?, startDigits, hbehind]
  cases (dropExact? "Line:".toList (c :: rest)).map digitsBehind with
  | none => rfl
  | some digits => cases digits <;> rfl

theorem dropExact?_eq_some_iff {mark text rest : List Char} :
    dropExact? mark text = some rest ↔ text = mark ++ rest := by
  induction mark generalizing text with
  | nil => simp [dropExact?]
  | cons m mark ih =>
      cases text with
      | nil => simp [dropExact?]
      | cons c text =>
          rw [dropExact?]
          by_cases hc : m = c
          · simp [hc, ih]
          · simp [hc, Ne.symm hc]

theorem digitsBehind_eq
    {blanks digits rest : List Char} (hblanks : ∀ c ∈ blanks, isBlank c = true)
    (hdigits : ∀ c ∈ digits, isDecimalDigit c = true) (hne : digits ≠ [])
    (hrest : ∀ c ∈ rest.head?, isDecimalDigit c = false) :
    digitsBehind (blanks ++ (digits ++ rest)) = digits := by
  obtain ⟨d, more, rfl⟩ := List.exists_cons_of_ne_nil hne
  have hd : isBlank d = false := not_isBlank_of_isDecimalDigit (hdigits d List.mem_cons_self)
  have hstop : rest.takeWhile isDecimalDigit = [] := by
    cases rest with
    | nil => rfl
    | cons c rest => exact List.takeWhile_cons_of_neg (by rw [hrest c rfl]; decide)
  rw [digitsBehind, List.dropWhile_append_of_pos hblanks, List.cons_append,
    List.dropWhile_cons_of_neg (by rw [hd]; decide), ← List.cons_append,
    List.takeWhile_append_of_pos hdigits, hstop, List.append_nil]

/-- The digits read at the start of a text are those that it names there. -/
theorem lineAt_iff {text digits : List Char} :
    LineAt text digits ↔ digits ≠ [] ∧ startDigits text = digits := by
  constructor
  · rintro ⟨blanks, rest, htext, hblanks, hne, hdigits, hrest⟩
    refine ⟨hne, ?_⟩
    rw [startDigits, dropExact?_eq_some_iff.mpr htext, Option.map_some, Option.getD_some,
      digitsBehind_eq hblanks hdigits hne hrest]
  · rintro ⟨hne, hstart⟩
    rw [startDigits] at hstart
    cases hdrop : dropExact? "Line:".toList text with
    | none =>
        rw [hdrop] at hstart
        exact absurd hstart.symm hne
    | some behind =>
        rw [hdrop, Option.map_some, Option.getD_some, digitsBehind] at hstart
        refine ⟨behind.takeWhile isBlank, (behind.dropWhile isBlank).dropWhile isDecimalDigit,
          ?_, List.all_eq_true.mp List.all_takeWhile, hne, ?_, ?_⟩
        · rw [← hstart, List.takeWhile_append_dropWhile, List.takeWhile_append_dropWhile]
          exact dropExact?_eq_some_iff.mp hdrop
        · rw [← hstart]
          exact List.all_eq_true.mp List.all_takeWhile
        · intro c hc
          have hnot := List.head?_dropWhile_not isDecimalDigit (behind.dropWhile isBlank)
          rw [Option.mem_def.mp hc] at hnot
          exact hnot

/-! ## The first place -/

theorem lineDigits?_eq_some_iff {text digits : List Char} :
    lineDigits? text = some digits ↔ FirstLine text digits := by
  induction text with
  | nil =>
      refine iff_of_false nofun ?_
      rintro ⟨start, ⟨blanks, rest, htext, -⟩, -⟩
      rw [List.drop_nil] at htext
      cases htext
  | cons c rest ih =>
      rw [lineDigits?_cons]
      by_cases hnone : startDigits (c :: rest) = []
      · rw [if_pos hnone, ih]
        have hhere : ∀ others, ¬ LineAt (c :: rest) others := fun others hthere =>
          (lineAt_iff.mp hthere).1 ((lineAt_iff.mp hthere).2.symm.trans hnone)
        constructor
        · rintro ⟨start, hline, hearlier⟩
          refine ⟨start + 1, hline, ?_⟩
          rintro (_ | earlier) hlt others
          · exact hhere others
          · exact hearlier earlier (Nat.lt_of_succ_lt_succ hlt) others
        · rintro ⟨_ | start, hline, hearlier⟩
          · exact absurd hline (hhere digits)
          · exact ⟨start, hline, fun earlier hlt => hearlier (earlier + 1) (Nat.succ_lt_succ hlt)⟩
      · rw [if_neg hnone, Option.some.injEq]
        have hhere := lineAt_iff.mpr ⟨hnone, rfl⟩
        constructor
        · rintro rfl
          exact ⟨0, hhere, fun earlier hlt => absurd hlt (Nat.not_lt_zero earlier)⟩
        · rintro ⟨_ | start, hline, hearlier⟩
          · exact (lineAt_iff.mp hline).2
          · exact absurd hhere (hearlier 0 (Nat.succ_pos start) _)

/-- A text that names a line has a first place where it does. -/
theorem namesLine_iff {text : String} :
    NamesLine text ↔ ∃ digits, FirstLine text.toList digits := by
  classical
  constructor
  · intro hnames
    obtain ⟨digits, hline⟩ := Nat.find_spec hnames
    refine ⟨digits, Nat.find hnames, hline, ?_⟩
    intro earlier hlt others hother
    exact Nat.find_min hnames hlt ⟨others, hother⟩
  · rintro ⟨digits, start, hline, -⟩
    exact ⟨start, digits, hline⟩

theorem lineDigits?_eq_none_iff {text : String} :
    lineDigits? text.toList = none ↔ ¬ NamesLine text := by
  rw [namesLine_iff, Option.eq_none_iff_forall_ne_some, not_exists]
  exact forall_congr' fun digits => not_congr lineDigits?_eq_some_iff

/-! ## The number of a line -/

theorem foldlM_digits_eq_some_iff {digits : List Char} {start line : Nat} :
    digits.foldlM (fun value c =>
        if c.isDigit then some (value * 10 + (c.toNat - 48)) else none) start = some line ↔
      (∀ c ∈ digits, c.isDigit = true) ∧ Nat.ofDigitChars 10 digits start = line := by
  induction digits generalizing start with
  | nil => simp [pure]
  | cons c digits ih =>
      rw [List.foldlM_cons, Nat.ofDigitChars_cons, List.forall_mem_cons]
      by_cases hc : c.isDigit = true
      · rw [if_pos hc, Nat.mul_comm 10]
        simp only [bind, Option.bind, ih, hc, true_and]
        rfl
      · simp [hc]

/-- What a message is found to name is the line that it carries. -/
theorem lineOf_eq_some_iff {text : String} {line : Nat} :
    lineOf text = some line ↔ CarriesLine text line := by
  unfold lineOf CarriesLine
  simp only [bind, Option.bind_eq_some_iff, lineDigits?_eq_some_iff, value?,
    foldlM_digits_eq_some_iff]
  constructor
  · rintro ⟨digits, hfirst, value, ⟨hdigits, hvalue⟩, hline⟩
    split at hline
    · next hle =>
        cases hline
        exact ⟨digits, hfirst, hdigits, hvalue, hle⟩
    · cases hline
  · rintro ⟨digits, hfirst, hdigits, hvalue, hle⟩
    exact ⟨digits, hfirst, line, ⟨hdigits, hvalue⟩, if_pos hle⟩

/-! ## A place at the end of a message -/

theorem dropExact?_append
    {mark text back : List Char} (hback : ∀ c ∈ back.head?, c ∉ mark) :
    dropExact? mark (text ++ back) = (dropExact? mark text).map (· ++ back) := by
  induction mark generalizing text with
  | nil => rfl
  | cons m mark ih =>
      cases text with
      | nil =>
          cases back with
          | nil => rfl
          | cons c back =>
              have hc : m ≠ c := fun heq => hback c rfl (heq ▸ List.mem_cons_self)
              simp [dropExact?, hc]
      | cons c text =>
          have hmore := @ih text fun d hd hmem => hback d hd (List.mem_cons_of_mem m hmem)
          by_cases hc : m = c
          · simp only [List.cons_append, dropExact?, if_pos hc, hmore]
          · simp [dropExact?, hc]

/-- Digits do not go on behind a blank and a letter. -/
theorem digitsBehind_append (text more : List Char) :
    digitsBehind (text ++ ' ' :: 'a' :: more) = digitsBehind text := by
  unfold digitsBehind
  have hstop : ' ' :: 'a' :: more = [' '] ++ 'a' :: more := rfl
  have hnone : (' ' :: 'a' :: more).takeWhile isDecimalDigit = [] := rfl
  induction text with
  | nil => rfl
  | cons c text ih =>
      rw [List.cons_append, List.dropWhile_cons, List.dropWhile_cons]
      split
      · exact ih
      · rw [← List.cons_append, List.takeWhile_append, hnone, List.append_nil, ite_eq_right_iff]
        intro hall
        exact (List.takeWhile_prefix isDecimalDigit).eq_of_length hall |>.symm

/-- What a blank and a letter stand behind names its lines as it does alone. -/
theorem lineDigits?_append (text more : List Char) :
    lineDigits? (text ++ ' ' :: 'a' :: more) =
      (lineDigits? text).or (lineDigits? (' ' :: 'a' :: more)) := by
  induction text with
  | nil => rfl
  | cons c text ih =>
      have hstart : startDigits (c :: (text ++ ' ' :: 'a' :: more)) = startDigits (c :: text) := by
        have hmark : ∀ d ∈ (' ' :: 'a' :: more).head?, d ∉ "Line:".toList := by
          rintro _ ⟨⟩
          decide
        rw [startDigits, startDigits, ← List.cons_append, dropExact?_append hmark, Option.map_map]
        cases dropExact? "Line:".toList (c :: text) with
        | none => rfl
        | some behind => exact digitsBehind_append behind more
      rw [List.cons_append, lineDigits?_cons, lineDigits?_cons, hstart, ih]
      split <;> rfl

/-- The place that the parser tells names its own line. -/
theorem lineDigits?_describe (place : Location) :
    lineDigits? place.describe.toList = some (Nat.toDigits 10 place.line) := by
  have htext : place.describe.toList = " at ".toList ++ ("Line:".toList ++ ([' '] ++
      (Nat.toDigits 10 place.line ++ (", Column: " ++ toString place.column).toList))) := by
    simp [Location.describe]
  have hdigits : ∀ c ∈ Nat.toDigits 10 place.line, isDecimalDigit c = true := fun c hc =>
    isDecimalDigit_of_isDigit (Nat.isDigit_of_mem_toDigits (by decide) (by decide) hc)
  have hcomma : ∀ c ∈ (", Column: " ++ toString place.column).toList.head?,
      isDecimalDigit c = false := by
    rw [String.toList_append]
    rintro _ ⟨⟩
    rfl
  rw [htext, lineDigits?_eq_some_iff]
  have hblank : ∀ c ∈ [' '], isBlank c = true := List.forall_mem_singleton.mpr rfl
  refine ⟨4, ⟨[' '], _, rfl, hblank, Nat.toDigits_ne_nil, hdigits, hcomma⟩, ?_⟩
  rintro earlier hlt others ⟨blanks, rest, hother, -⟩
  have hhead := congrArg List.head? hother
  match earlier with
  | 0 | 1 | 2 | 3 => cases hhead
  | earlier + 4 => omega

theorem lineDigits?_message (message : String) (place : Location) :
    lineDigits? (message ++ place.describe).toList =
      (lineDigits? message.toList).or (some (Nat.toDigits 10 place.line)) := by
  have htext : ∃ more, place.describe.toList = ' ' :: 'a' :: more := by
    simp [Location.describe]
  obtain ⟨more, hmore⟩ := htext
  rw [String.toList_append, hmore, lineDigits?_append, ← hmore, lineDigits?_describe]

theorem lineOf_message {message : String} {place : Location} (hline : place.line ≤ maxLine) :
    (NamesLine message → lineOf (message ++ place.describe) = lineOf message) ∧
    (¬ NamesLine message → lineOf (message ++ place.describe) = some place.line) := by
  unfold lineOf
  rw [lineDigits?_message]
  constructor
  · intro hnames
    have hsome : lineDigits? message.toList ≠ none := fun hnone =>
      lineDigits?_eq_none_iff.mp hnone hnames
    obtain ⟨digits, hdigits⟩ := Option.ne_none_iff_exists'.mp hsome
    rw [hdigits]
    rfl
  · intro hnone
    have hvalue : value? (Nat.toDigits 10 place.line) = some place.line :=
      foldlM_digits_eq_some_iff.mpr
        ⟨fun c hc => Nat.isDigit_of_mem_toDigits (by decide) (by decide) hc,
          Nat.ofDigitChars_toDigits (by decide) (by decide)⟩
    rw [lineDigits?_eq_none_iff.mpr hnone]
    simp only [Option.none_or, bind, Option.bind, hvalue, if_pos hline]

/-! ## Causes -/

/-- Causes are added at the end, and only a failure without a line looks at them. -/
theorem foldl_withCause (failure : Failure) (causes : List String) :
    causes.foldl withCause failure =
      { failure with
        line := failure.line <|> causes.findSome? lineOf
        causes := failure.causes ++ causes } := by
  induction causes generalizing failure with
  | nil => simp
  | cons cause causes ih =>
      rw [List.foldl_cons, ih]
      simp only [withCause, List.findSome?_cons, List.append_assoc, List.singleton_append,
        mk.injEq, true_and, and_true]
      cases failure.line <;> cases lineOf cause <;> rfl

theorem findSome?_lineOf_eq_some_iff {texts : List String} {line : Nat} :
    texts.findSome? lineOf = some line ↔
      ∃ earlier text later, texts = earlier ++ text :: later ∧ CarriesLine text line ∧
        ∀ before ∈ earlier, ∀ other, ¬ CarriesLine before other := by
  simp only [List.findSome?_eq_some_iff, Option.eq_none_iff_forall_ne_some, ne_eq,
    lineOf_eq_some_iff]

/-- A message that ends in the place of the parser gives the line of this place exactly when
no line is named in front of it, or the first one named there is the same; so it does with
causes behind it.  Causes added later stay in order, and the line is that of the first text,
message or cause, that carries one. -/
theorem reported_line_iff
    (stage : Stage) (message : String) {place : Location} (hline : place.line ≤ maxLine)
    (text : String) (causes : List String) :
    ((ofMessage stage (message ++ place.describe)).line = some place.line ↔
      (NamesLine message → CarriesLine message place.line)) ∧
    ((ofChain stage (message ++ place.describe) causes).line = some place.line ↔
      (NamesLine message → CarriesLine message place.line)) ∧
    let failure := causes.foldl withCause (ofMessage stage text)
    failure.stage = stage ∧ failure.message = text ∧ failure.causes = causes ∧
    ∀ line, failure.line = some line ↔
      ∃ earlier first later, text :: causes = earlier ++ first :: later ∧
        CarriesLine first line ∧ ∀ before ∈ earlier, ∀ other, ¬ CarriesLine before other := by
  have hmessage : lineOf (message ++ place.describe) = some place.line ↔
      (NamesLine message → CarriesLine message place.line) := by
    obtain ⟨hnamed, hunnamed⟩ := @lineOf_message message place hline
    by_cases hnames : NamesLine message
    · rw [hnamed hnames, lineOf_eq_some_iff]
      exact (imp_iff_right hnames).symm
    · exact iff_of_true (hunnamed hnames) fun hnot => absurd hnot hnames
  refine ⟨hmessage, hmessage, ?_⟩
  intro failure
  have hfailure : failure = ⟨stage, text, (text :: causes).findSome? lineOf, causes⟩ := by
    refine (foldl_withCause (ofMessage stage text) causes).trans ?_
    rw [List.findSome?_cons]
    cases hfirst : lineOf text <;> simp [ofMessage, hfirst]
  rw [hfailure]
  exact ⟨rfl, rfl, rfl, fun line => findSome?_lineOf_eq_some_iff⟩

/-- The parser tells line 3 behind a constant that names none, and the line of the other
failure is that of its second cause. -/
theorem place_and_causes_told :
    let place : Location := ⟨3, 13⟩
    let text := "Formatted SQL does not parse back"
    let causes := ["no line", "Expected: FROM, found: EOF at Line: 2, Column: 1", "Line: 5"]
    place.line ≤ maxLine ∧
      (ofMessage .parse ("Expected: FROM, found: 'Line: x'" ++ place.describe)).line = some 3 ∧
      (ofChain .parse ("Expected: FROM, found: 'Line: x'" ++ place.describe) causes).line = some 3 ∧
      (causes.foldl withCause (ofMessage .parse text)).causes = causes ∧
      (causes.foldl withCause (ofMessage .parse text)).line = some 2 := by
  intro place text causes
  have hline : place.line ≤ maxLine := by decide
  have hnone : NamesLine "Expected: FROM, found: 'Line: x'" →
      CarriesLine "Expected: FROM, found: 'Line: x'" place.line := fun hnames =>
    absurd hnames (lineDigits?_eq_none_iff.mp (by decide +kernel))
  have hsecond : CarriesLine "Expected: FROM, found: EOF at Line: 2, Column: 1" 2 :=
    lineOf_eq_some_iff.mp (by decide +kernel)
  have hfirst : ∀ before ∈ [text, "no line"], lineOf before = none := by decide +kernel
  obtain ⟨hmessage, hchain, -, -, hcauses, hcarried⟩ :=
    reported_line_iff .parse "Expected: FROM, found: 'Line: x'" hline text causes
  refine ⟨hline, hmessage.mpr hnone, hchain.mpr hnone, hcauses, (hcarried 2).mpr ?_⟩
  refine ⟨[text, "no line"], _, ["Line: 5"], rfl, hsecond, ?_⟩
  intro before hbefore other hcarries
  rw [← lineOf_eq_some_iff, hfirst before hbefore] at hcarries
  cases hcarries

/-- A constant of the statement names line 7 in front of the place of the parser, which is
on line 3. -/
theorem constant_names_line :
    (⟨3, 13⟩ : Location).line ≤ maxLine ∧
      (ofMessage .parse ("sql parser error: Expected: end of statement, found: 'Line: 7'" ++
        Location.describe ⟨3, 13⟩)).line = some 7 ∧
      (ofChain .parse ("sql parser error: Expected: end of statement, found: 'Line: 7'" ++
        Location.describe ⟨3, 13⟩) []).line = some 7 := by
  decide +kernel

end Failure

end Relocate.Sql
