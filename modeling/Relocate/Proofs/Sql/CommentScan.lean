import Relocate.Proofs.Sql.CommentText

/-!
# Which text of a line is code

`scan` reads a line from left to right.  Outside block comments the first of `--`,
`//` and the opening of a block comment decides; `//` counts at the start of the line,
behind a space, and where code resumes behind a block comment.  Inside a block comment
the next closing mark decides.

`normalizeLine` decides by other tests: it looks for `--` alone in front of the first
block comment of a line, and for no comment at all behind one.  So the opening of a
block comment that a `//` comment holds is taken for one, and so is one that any
comment holds behind a block comment of its line.  `Clean` says when this makes no
difference to the line, and `passed_eq_scanned_iff` that it is the exact condition:
slashes must open in front of every block comment and hold no opening of one, and what
dashes behind a block comment hold must be `Hidden`.
-/

namespace Relocate.Sql

open Text

namespace Comments

/-! ## The scan of a line -/

/-- How a comment opens that takes the rest of its line. -/
inductive Mark
  | dashes
  | slashes
deriving DecidableEq, Repr

/-- Where the scan is: in a block comment, in front of all code of the line or of all
code behind a block comment, or behind some code. -/
inductive Reading
  | block
  | start (resumed : Bool)
  | code (resumed spaced : Bool)
deriving DecidableEq, Repr

/-- How the code of a line ends: with the line, in a block comment, or at a comment that
takes the rest of the line.  The text of such a comment begins with its marks. -/
inductive Ending
  | code
  | block
  | remark (mark : Mark) (reading : Reading) (text : List Char)
deriving DecidableEq, Repr

namespace Reading

/-- Where a line is read from. -/
def of (inside : Bool) : Reading :=
  if inside then block else start false

/-- A block comment has been closed on this line. -/
def isResumed : Reading → Bool
  | block => false
  | start resumed | code resumed _ => resumed

/-- Two slashes open a comment here. -/
def takesSlashes : Reading → Bool
  | block => false
  | start _ => true
  | code _ spaced => spaced

/-- Where the scan is behind a character of code. -/
def behind (c : Char) : Reading → Reading
  | block => block
  | start resumed => if isBlank c then start resumed else code resumed false
  | code resumed _ => code resumed (c == ' ')

end Reading

/-- The comment that opens here and takes the rest of the line. -/
def remark? (reading : Reading) : List Char → Option Mark
  | '-' :: '-' :: _ => some .dashes
  | '/' :: '/' :: _ => if reading.takesSlashes then some .slashes else none
  | _ => none

/-- The code of a line and how it ends. -/
def scan : Reading → List Char → List Char × Ending
  | .block, '*' :: '/' :: rest => scan (.start true) rest
  | .block, _ :: rest => scan .block rest
  | .block, [] => ([], .block)
  | _, '/' :: '*' :: rest => scan .block rest
  | reading, c :: rest =>
    match remark? reading (c :: rest) with
    | some mark => ([], .remark mark reading (c :: rest))
    | none =>
      let (code, ending) := scan (reading.behind c) rest
      (c :: code, ending)
  | _, [] => ([], .code)

/-- The visible code of a line, and whether a block comment is open behind it. -/
def scanned (inside : Bool) (line : List Char) : List Char × Bool :=
  let (code, ending) := scan (.of inside) line
  (visible code, ending == .block)

/-! ## What normalizing leaves as code -/

/-- What stands on a line before its first `--`. -/
def codePart : List Char → List Char
  | '-' :: '-' :: _ => []
  | c :: rest => c :: codePart rest
  | [] => []

/-- What `normalizeLine` leaves visible as code, and whether a block comment is open
behind the line. -/
def passed (inside : Bool) (line : List Char) : List Char × Bool :=
  let (found, after) := normalizeLine inside line
  (visible (found.flatMap codePart), after)

/-- Behind the opening of a block comment stand only block comments, with nothing but
blanks and `--` comments between them, and the last of them is closed. -/
inductive Hidden : List Char → Prop
  | last {text front back : List Char} (hclose : splitAtMark? '*' '/' text = some (front, back))
      (hlast : splitAtMark? '/' '*' back = none) (hcode : visible (codePart back) = []) :
      Hidden text
  | next {text front back between rest : List Char}
      (hclose : splitAtMark? '*' '/' text = some (front, back))
      (hopen : splitAtMark? '/' '*' back = some (between, rest))
      (hcode : visible (codePart between) = []) (hrest : Hidden rest) : Hidden text

/-- The comment in which the code of a line ends makes no difference to
`normalizeLine`. -/
def Clean : Ending → Prop
  | .code | .block => True
  | .remark .slashes reading text =>
    reading.isResumed = false ∧ (reading = .start false ∨ opensBlock text = false)
  | .remark .dashes reading text =>
    reading.isResumed = true → ∀ found ∈ splitAtMark? '/' '*' text, Hidden found.2

/-! ## Stretches of code -/

/-- No mark stands in the code, also none that its last character begins. -/
inductive Unmarked : List Char → List Char → Prop
  | nil (rest : List Char) : Unmarked [] rest
  | cons {c : Char} {code rest : List Char} (hblock : ¬ ['/', '*'] <+: c :: (code ++ rest))
      (hdashes : ¬ ['-', '-'] <+: c :: (code ++ rest)) (hmore : Unmarked code rest) :
      Unmarked (c :: code) rest

/-- Only the first character behind the code matters. -/
theorem Unmarked.congr
    {code rest other : List Char} (h : Unmarked code rest)
    (hhead : ∀ c ∈ other.head?, c ∈ rest.head?) : Unmarked code other := by
  induction h with
  | nil => exact .nil other
  | @cons c code rest hblock hdashes _ ih =>
      have hbegin : ∀ a b : Char, [a, b] <+: c :: (code ++ other) →
          [a, b] <+: c :: (code ++ rest) := by
        intro a b hmark
        cases code with
        | cons d code => exact prefix_cons_cons.mpr (prefix_cons_cons.mp hmark)
        | nil =>
            cases other with
            | nil => simp at hmark
            | cons d other =>
                obtain ⟨hc, hd⟩ := prefix_cons_cons.mp hmark
                obtain ⟨more, rfl⟩ := List.head?_eq_some_iff.mp (hhead d rfl)
                exact prefix_cons_cons.mpr ⟨hc, hd⟩
      exact .cons (mt (hbegin _ _) hblock) (mt (hbegin _ _) hdashes) (ih hhead)

theorem Unmarked.alone {code rest : List Char} (h : Unmarked code rest) : Unmarked code [] :=
  h.congr fun c hc => by cases hc

theorem codePart_cons {c : Char} {rest : List Char} (h : ¬ ['-', '-'] <+: c :: rest) :
    codePart (c :: rest) = c :: codePart rest := by
  rw [codePart]
  rintro tail rfl rfl
  exact h (prefix_cons_cons.mpr ⟨rfl, rfl⟩)

theorem Unmarked.codePart {code rest : List Char} (h : Unmarked code rest) :
    Comments.codePart (code ++ rest) = code ++ Comments.codePart rest := by
  induction h with
  | nil => rfl
  | cons _ hdashes _ ih => rw [List.cons_append, codePart_cons hdashes, ih, List.cons_append]

theorem Unmarked.splitAtMark? {code rest : List Char} (h : Unmarked code rest) :
    Comments.splitAtMark? '/' '*' (code ++ rest) =
      (Comments.splitAtMark? '/' '*' rest).map fun found => (code ++ found.1, found.2) := by
  induction h with
  | nil rest =>
      cases hrest : Comments.splitAtMark? '/' '*' rest <;>
        simp only [List.nil_append, hrest, Option.map_none, Option.map_some]
  | cons hblock _ _ ih =>
      rw [List.cons_append, splitAtMark?_cons hblock, ih, Option.map_map]
      rfl

/-- The marks that open a comment of this kind stand here. -/
def Mark.Opens : Mark → List Char → Prop
  | dashes, text => ['-', '-'] <+: text
  | slashes, text => ['/', '/'] <+: text

theorem opens_of_remark? {reading : Reading} {text : List Char} {mark : Mark}
    (h : remark? reading text = some mark) : mark.Opens text := by
  unfold remark? at h
  split at h
  · cases h
    exact prefix_cons_cons.mpr ⟨rfl, rfl⟩
  · split at h
    · cases h
      exact prefix_cons_cons.mpr ⟨rfl, rfl⟩
    · cases h
  · cases h

theorem not_dashes_of_remark? {reading : Reading} {text : List Char}
    (h : remark? reading text = none) : ¬ ['-', '-'] <+: text := by
  rintro ⟨more, rfl⟩
  cases h

theorem scan_cons {reading : Reading} {c : Char} {rest : List Char} (hcode : reading ≠ .block)
    (hblock : ¬ ['/', '*'] <+: c :: rest) :
    scan reading (c :: rest) =
      match remark? reading (c :: rest) with
      | some mark => ([], .remark mark reading (c :: rest))
      | none =>
        (c :: (scan (reading.behind c) rest).1, (scan (reading.behind c) rest).2) := by
  rw [scan]
  · rintro tail rfl rfl
    exact hblock (prefix_cons_cons.mpr ⟨rfl, rfl⟩)
  · exact fun _ heq => absurd heq hcode
  · exact hcode

theorem Reading.behind_ne_block {reading : Reading} (h : reading ≠ .block) (c : Char) :
    reading.behind c ≠ .block := by
  cases reading with
  | block => exact absurd rfl h
  | start resumed =>
      rw [behind]
      split <;> exact nofun
  | code resumed spaced => exact nofun

/-- Where the scan is behind some code. -/
def Reading.past (reading : Reading) (code : List Char) : Reading :=
  code.foldl (fun reading c => reading.behind c) reading

theorem Reading.isResumed_past (reading : Reading) (code : List Char) :
    (reading.past code).isResumed = reading.isResumed := by
  induction code generalizing reading with
  | nil => rfl
  | cons c code ih =>
      have hstep : (reading.behind c).isResumed = reading.isResumed := by
        cases reading with
        | block | code => rfl
        | start resumed =>
            rw [behind]
            split <;> rfl
      rw [← hstep]
      exact ih (reading.behind c)

/-- Behind a character that is not blank the scan is not at a start. -/
theorem Reading.past_start {c : Char} {code : List Char} (hc : isBlank c = false)
    (resumed : Bool) : ∃ spaced, (start resumed).past (c :: code) = .code resumed spaced := by
  have hfirst : (start resumed).past (c :: code) = (Reading.code resumed false).past code := by
    rw [past, List.foldl_cons, behind, if_neg (by simp [hc])]
    rfl
  rw [hfirst]
  clear hfirst
  generalize false = spaced
  induction code generalizing spaced with
  | nil => exact ⟨spaced, rfl⟩
  | cons d code ih => exact ih (d == ' ')

/-- A stretch of code ends with the line, at a block comment, or at a comment that takes
the rest of the line. -/
theorem scan_cases {reading : Reading} (hcode : reading ≠ .block) (text : List Char) :
    (Unmarked text [] ∧ scan reading text = (text, .code)) ∨
    (∃ front back, text = front ++ '/' :: '*' :: back ∧ Unmarked front ('/' :: '*' :: back) ∧
      scan reading text = (front ++ (scan .block back).1, (scan .block back).2)) ∨
    (∃ mark code rest, text = code ++ rest ∧ Unmarked code rest ∧ mark.Opens rest ∧
      scan reading text = (code, .remark mark (reading.past code) rest)) := by
  induction text generalizing reading with
  | nil =>
      refine .inl ⟨.nil [], ?_⟩
      cases reading with
      | block => exact absurd rfl hcode
      | start | code => rfl
  | cons c rest ih =>
      by_cases hblock : ['/', '*'] <+: c :: rest
      · obtain ⟨back, hback⟩ := hblock
        refine .inr (.inl ⟨[], back, hback.symm, .nil _, ?_⟩)
        rw [← hback]
        cases reading with
        | block => exact absurd rfl hcode
        | start | code => rfl
      · have hstep := scan_cons hcode hblock
        cases hremark : remark? reading (c :: rest) with
        | some mark =>
            rw [hremark] at hstep
            exact .inr (.inr ⟨mark, [], c :: rest, rfl, .nil _, opens_of_remark? hremark, hstep⟩)
        | none =>
            have hdashes := not_dashes_of_remark? hremark
            rw [hremark] at hstep
            rcases ih (reading.behind_ne_block hcode c) with ⟨hfree, hscan⟩ |
              ⟨front, back, rfl, hfree, hscan⟩ | ⟨mark, code, more, rfl, hfree, hopens, hscan⟩
            · refine .inl ⟨.cons ?_ ?_ hfree, ?_⟩
              · rwa [List.append_nil]
              · rwa [List.append_nil]
              · rw [hstep, hscan]
            · refine .inr (.inl ⟨c :: front, back, rfl, .cons hblock hdashes hfree, ?_⟩)
              rw [hstep, hscan]
              rfl
            · refine .inr (.inr
                ⟨mark, c :: code, more, rfl, .cons hblock hdashes hfree, hopens, ?_⟩)
              rw [hstep, hscan]
              rfl

/-! ## Block comments -/

theorem scan_block_cons {c : Char} {rest : List Char} (h : ¬ ['*', '/'] <+: c :: rest) :
    scan .block (c :: rest) = scan .block rest := by
  rw [scan]
  rintro tail rfl rfl
  exact h (prefix_cons_cons.mpr ⟨rfl, rfl⟩)

/-- Code resumes behind the first mark that closes the comment. -/
theorem scan_block (text : List Char) :
    scan .block text =
      match splitAtMark? '*' '/' text with
      | some (_, back) => scan (.start true) back
      | none => ([], .block) := by
  induction text with
  | nil => rfl
  | cons c rest ih =>
      by_cases hclose : ['*', '/'] <+: c :: rest
      · obtain ⟨back, hback⟩ := hclose
        rw [← hback]
        rfl
      · rw [scan_block_cons hclose, ih, splitAtMark?_cons hclose]
        cases splitAtMark? '*' '/' rest <;> rfl

theorem ne_of_isBlank {c : Char} (h : isBlank c = true) : c ≠ '-' ∧ c ≠ '/' ∧ c ≠ '*' := by
  refine ⟨?_, ?_, ?_⟩ <;>
  · rintro rfl
    cases h

/-! ## What the loop leaves -/

theorem codePart_blanks {gap : List Char} (hgap : ∀ c ∈ gap, isBlank c = true)
    (rest : List Char) : codePart (gap ++ rest) = gap ++ codePart rest := by
  induction gap with
  | nil => rfl
  | cons c gap ih =>
      have hc := ne_of_isBlank (hgap c List.mem_cons_self)
      rw [List.cons_append, codePart_cons, ih fun d hd => hgap d (List.mem_cons_of_mem _ hd)]
      · rfl
      · rw [List.cons_prefix_cons]
        exact fun heq => hc.1 heq.1.symm

theorem visible_codePart_append {gap : List Char} (hgap : ∀ c ∈ gap, isBlank c = true)
    (text : List Char) : visible (codePart (text ++ gap)) = visible (codePart text) := by
  induction text with
  | nil =>
      have hall := codePart_blanks hgap []
      rw [List.append_nil] at hall
      rw [List.nil_append, hall, visible_append, visible_eq_nil_iff.mpr hgap, List.nil_append]
  | cons c text ih =>
      by_cases hdashes : ['-', '-'] <+: c :: text
      · obtain ⟨more, hmore⟩ := hdashes
        rw [← hmore]
        rfl
      · have hlonger : ¬ ['-', '-'] <+: c :: (text ++ gap) := by
          cases text with
          | cons d text =>
              exact fun hmark => hdashes (prefix_cons_cons.mpr (prefix_cons_cons.mp hmark))
          | nil =>
              cases gap with
              | nil => exact hdashes
              | cons d gap =>
                  intro hmark
                  have hd := (prefix_cons_cons.mp hmark).2
                  exact (ne_of_isBlank (hgap d List.mem_cons_self)).1 hd.symm
        rw [List.cons_append, codePart_cons hlonger, codePart_cons hdashes,
          ← List.singleton_append, visible_append, ih, ← visible_append, List.singleton_append]

theorem visible_codePart_trimStart (text : List Char) :
    visible (codePart (trimStart text)) = visible (codePart text) := by
  obtain ⟨gap, hgap, hblank⟩ := exists_eq_append_trimStart text
  conv_rhs => rw [hgap, codePart_blanks hblank, visible_append, visible_eq_nil_iff.mpr hblank,
    List.nil_append]

theorem visible_codePart_trim (text : List Char) :
    visible (codePart (trim text)) = visible (codePart text) := by
  obtain ⟨tail, htail, hblanks⟩ := exists_eq_trimEnd_append (trimStart text)
  rw [← visible_codePart_trimStart text]
  conv_rhs => rw [htail, visible_codePart_append hblanks]
  rfl

/-- What cutting a line at its block comments leaves visible as code, and whether one is
open behind the line. -/
def cutLeft (inside : Bool) (line : List Char) : List Char × Bool :=
  (visible ((cutLine inside line).1.flatMap codePart), (cutLine inside line).2)

theorem visible_codePart_line? (inside : Bool) (text : List Char) :
    visible ((Piece.of inside text).line?.toList.flatMap codePart) =
      if inside then [] else visible (codePart text) := by
  have hempty : (trim text).isEmpty = true → visible (codePart text) = [] := by
    intro hempty
    rw [← visible_codePart_trim, List.isEmpty_iff.mp hempty]
    rfl
  cases inside with
  | true =>
      simp only [Piece.of, if_true, Piece.line?]
      split <;> rfl
  | false =>
      simp only [Piece.of, Bool.false_eq_true, if_false, Piece.line?]
      split
      · next h => exact (hempty h).symm
      · rw [Option.toList_some, List.flatMap_singleton, visible_codePart_trim]

/-- The loop reads the line up to the next mark and goes on behind it. -/
theorem cutLeft_eq (inside : Bool) (line : List Char) :
    cutLeft inside line =
      match splitAtBlock? inside line with
      | none => (if inside then [] else visible (codePart line), inside)
      | some (front, back) =>
        ((if inside then [] else visible (codePart front)) ++ (cutLeft (!inside) (trim back)).1,
          (cutLeft (!inside) (trim back)).2) := by
  obtain ⟨rounds, found, after, hloop⟩ := exists_cutLoop inside line
  have hcut := hloop.cutLine
  have hleft : ∀ (piece : Piece) (more : List Piece),
      visible (((piece :: more).filterMap Piece.line?).flatMap codePart) =
        visible (piece.line?.toList.flatMap codePart) ++
          visible ((more.filterMap Piece.line?).flatMap codePart) := by
    intro piece more
    rw [List.filterMap_eq_flatMap_toList, List.flatMap_cons, List.flatMap_append, visible_append,
      List.filterMap_eq_flatMap_toList]
  cases hloop with
  | last hnone =>
      rw [hnone, cutLeft, hcut, hleft, visible_codePart_line?]
      exact congrArg (·, inside) (List.append_nil _)
  | emptied hsplit hback =>
      rw [hsplit, cutLeft, hcut, hleft, visible_codePart_line?]
      simp only [hback]
      cases inside <;> rfl
  | again hsplit hback hmore =>
      rw [hsplit, cutLeft, hcut, hleft, visible_codePart_line?]
      simp only [cutLeft, hmore.cutLine]

/-- A line is cut at the same marks once it is trimmed. -/
theorem splitAtBlock?_trim (inside : Bool) (text : List Char) :
    splitAtBlock? inside (trim text) =
      (splitAtBlock? inside text).map fun found => (trimStart found.1, trimEnd found.2) := by
  cases inside with
  | true => exact splitAtMark?_trim rfl rfl text
  | false => exact splitAtMark?_trim rfl rfl text

theorem cutLeft_trim (inside : Bool) (line : List Char) :
    cutLeft inside (trim line) = cutLeft inside line := by
  rw [cutLeft_eq inside (trim line), cutLeft_eq inside line, splitAtBlock?_trim]
  cases splitAtBlock? inside line with
  | none => rw [Option.map_none, visible_codePart_trim]
  | some found => simp only [Option.map_some, visible_codePart_trimStart, trim_trimEnd]

section

variable {line front back : List Char}

theorem cutLeft_code_of_none (h : splitAtMark? '/' '*' line = none) :
    cutLeft false line = (visible (codePart line), false) := by
  have hsplit : splitAtBlock? false line = none := h
  rw [cutLeft_eq, hsplit]
  rfl

theorem cutLeft_code_of_split (h : splitAtMark? '/' '*' line = some (front, back)) :
    cutLeft false line =
      (visible (codePart front) ++ (cutLeft true back).1, (cutLeft true back).2) := by
  have hsplit : splitAtBlock? false line = some (front, back) := h
  rw [cutLeft_eq, hsplit]
  simp only [Bool.false_eq_true, if_false, Bool.not_false, cutLeft_trim]

theorem cutLeft_block_of_none (h : splitAtMark? '*' '/' line = none) :
    cutLeft true line = ([], true) := by
  have hsplit : splitAtBlock? true line = none := h
  rw [cutLeft_eq, hsplit]
  rfl

theorem cutLeft_block_of_split (h : splitAtMark? '*' '/' line = some (front, back)) :
    cutLeft true line = cutLeft false back := by
  have hsplit : splitAtBlock? true line = some (front, back) := h
  rw [cutLeft_eq, hsplit, ← cutLeft_trim false back]
  rfl

end

/-- What may stand behind a block comment whose text is hidden. -/
theorem hidden_iff_of_split {text front back : List Char}
    (hclose : splitAtMark? '*' '/' text = some (front, back)) :
    Hidden text ↔
      (splitAtMark? '/' '*' back = none ∧ visible (codePart back) = []) ∨
      ∃ between rest, splitAtMark? '/' '*' back = some (between, rest) ∧
        visible (codePart between) = [] ∧ Hidden rest := by
  constructor
  · rintro (⟨hfound, hlast, hcode⟩ | ⟨hfound, hopen, hcode, hrest⟩)
    · cases hclose.symm.trans hfound
      exact .inl ⟨hlast, hcode⟩
    · cases hclose.symm.trans hfound
      exact .inr ⟨_, _, hopen, hcode, hrest⟩
  · rintro (⟨hlast, hcode⟩ | ⟨between, rest, hopen, hcode, hrest⟩)
    · exact .last hclose hlast hcode
    · exact .next hclose hopen hcode hrest

theorem not_hidden_of_none {text : List Char} (hnone : splitAtMark? '*' '/' text = none) :
    ¬ Hidden text := by
  rintro (⟨hfound, -, -⟩ | ⟨hfound, -, -, -⟩) <;> exact nomatch hnone.symm.trans hfound

/-- The loop finds no code behind the opening of a block comment and leaves none open
exactly if what stands there is hidden. -/
theorem hidden_iff {text : List Char} : cutLeft true text = ([], false) ↔ Hidden text := by
  induction hlength : text.length using Nat.strongRecOn generalizing text with
  | ind length ih =>
      cases hclose : splitAtMark? '*' '/' text with
      | none =>
          rw [cutLeft_block_of_none hclose]
          exact iff_of_false nofun (not_hidden_of_none hclose)
      | some closed =>
          obtain ⟨front, back⟩ := closed
          rw [cutLeft_block_of_split hclose, hidden_iff_of_split hclose]
          cases hopen : splitAtMark? '/' '*' back with
          | none =>
              rw [cutLeft_code_of_none hopen]
              simp
          | some opened =>
              obtain ⟨between, rest⟩ := opened
              have hshorter : rest.length < length := by
                rw [← hlength, (eq_of_splitAtMark? hclose).1, (eq_of_splitAtMark? hopen).1]
                simp only [List.length_append, List.length_cons]
                omega
              have hrest := ih rest.length hshorter rfl
              rw [Prod.ext_iff] at hrest
              rw [cutLeft_code_of_split hopen]
              simp [← hrest, and_assoc]

/-! ## Where both agree -/

/-- The visible code from a place on, and whether a block comment is open at the end. -/
def scannedFrom (reading : Reading) (text : List Char) : List Char × Bool :=
  (visible (scan reading text).1, (scan reading text).2 == .block)

instance : DecidablePred Hidden := fun _ => decidable_of_iff _ hidden_iff

instance : DecidablePred Clean
  | .code | .block => .isTrue trivial
  | .remark .slashes _ _ => inferInstanceAs (Decidable (_ ∧ _))
  | .remark .dashes reading text =>
    inferInstanceAs (Decidable
      (reading.isResumed = true → ∀ found ∈ splitAtMark? '/' '*' text, Hidden found.2))

/-- How the loop gets to read code: behind a block comment, or from the start of a line
that opens one before any `--`. -/
inductive EntersCode : Reading → List Char → Prop
  | resumed (rest : List Char) : EntersCode (.start true) rest
  | first {rest : List Char} (hcomment : lineComment? rest = none)
      (hopens : opensBlock rest = true) (hstart : trimStart rest = rest) :
      EntersCode (.start false) rest

theorem EntersCode.ne_block {reading : Reading} {rest : List Char}
    (h : EntersCode reading rest) : reading ≠ .block := by
  cases h <;> exact nofun

theorem opensBlock_iff {text : List Char} :
    opensBlock text = true ↔
      ∃ front back, splitAtMark? '/' '*' text = some (front, back) ∧ ¬ ['-', '-'] <:+: front := by
  unfold opensBlock
  cases hsplit : splitAtMark? '/' '*' text with
  | none => simp
  | some found =>
      simp only [Option.some.injEq, Option.isNone_iff_eq_none, splitAtMark?_eq_none_iff]
      constructor
      · exact fun hnone => ⟨found.1, found.2, rfl, hnone⟩
      · rintro ⟨front, back, rfl, hnone⟩
        exact hnone

theorem opensBlock_cons {c : Char} {rest : List Char} (hblock : ¬ ['/', '*'] <+: c :: rest)
    (hdashes : ¬ ['-', '-'] <+: c :: rest) : opensBlock (c :: rest) = opensBlock rest := by
  rw [Bool.eq_iff_iff, opensBlock_iff, opensBlock_iff, splitAtMark?_cons hblock]
  cases hsplit : splitAtMark? '/' '*' rest with
  | none => simp
  | some found =>
      obtain ⟨heq, -⟩ := eq_of_splitAtMark? hsplit
      simp only [Option.map_some, Option.some.injEq]
      constructor
      · rintro ⟨front, back, hfound, hnone⟩
        cases hfound
        exact ⟨_, _, rfl, fun hmem => hnone (hmem.trans (List.suffix_cons c _).isInfix)⟩
      · rintro ⟨front, back, rfl, hnone⟩
        refine ⟨_, _, rfl, fun hmem => ?_⟩
        rcases List.infix_cons_iff.mp hmem with hbegin | hmem
        · have hlonger : c :: front <+: c :: rest :=
            List.cons_prefix_cons.mpr ⟨rfl, heq ▸ List.prefix_append front _⟩
          exact hdashes (hbegin.trans hlonger)
        · exact hnone hmem

theorem Unmarked.opensBlock {code rest : List Char} (h : Unmarked code rest) :
    Comments.opensBlock (code ++ rest) = Comments.opensBlock rest := by
  induction h with
  | nil => rfl
  | cons hblock hdashes _ ih => rw [List.cons_append, opensBlock_cons hblock hdashes, ih]

theorem not_prefix_of_not_opensBlock {text : List Char} (h : opensBlock text = false) :
    ¬ ['/', '*'] <+: text := by
  rintro ⟨more, rfl⟩
  cases h

/-- In front of the first block comment stand the dashes of a comment that comes
earlier. -/
theorem prefix_of_split_dashes {rest front back : List Char} (hopens : Mark.dashes.Opens rest)
    (hsplit : splitAtMark? '/' '*' rest = some (front, back)) : ['-', '-'] <+: front := by
  obtain ⟨more, rfl⟩ := hopens
  have hfirst : ¬ ['/', '*'] <+: '-' :: '-' :: more := by simp
  have hsecond : ¬ ['/', '*'] <+: '-' :: more := by simp [List.cons_prefix_cons]
  change splitAtMark? '/' '*' ('-' :: '-' :: more) = _ at hsplit
  rw [splitAtMark?_cons hfirst, splitAtMark?_cons hsecond, Option.map_map] at hsplit
  obtain ⟨found, -, hfound⟩ := Option.map_eq_some_iff.mp hsplit
  cases hfound
  exact prefix_cons_cons.mpr ⟨rfl, rfl⟩

theorem opensBlock_of_dashes {rest : List Char} (hopens : Mark.dashes.Opens rest) :
    opensBlock rest = false := by
  rw [← Bool.not_eq_true, opensBlock_iff]
  rintro ⟨front, back, hsplit, hnone⟩
  exact hnone (prefix_of_split_dashes hopens hsplit).isInfix

theorem exists_of_split_slashes {rest front back : List Char} (hopens : Mark.slashes.Opens rest)
    (hsplit : splitAtMark? '/' '*' rest = some (front, back)) : ∃ more, front = '/' :: more := by
  obtain ⟨more, rfl⟩ := hopens
  have hfirst : ¬ ['/', '*'] <+: '/' :: '/' :: more := by simp
  change splitAtMark? '/' '*' ('/' :: '/' :: more) = _ at hsplit
  rw [splitAtMark?_cons hfirst] at hsplit
  obtain ⟨found, -, hfound⟩ := Option.map_eq_some_iff.mp hsplit
  cases hfound
  exact ⟨_, rfl⟩

theorem codePart_slash (rest : List Char) : codePart ('/' :: rest) = '/' :: codePart rest :=
  codePart_cons (by simp [List.cons_prefix_cons])

theorem codePart_of_dashes {rest : List Char} (hopens : ['-', '-'] <+: rest) :
    codePart rest = [] := by
  obtain ⟨more, rfl⟩ := hopens
  rfl

/-- Code with more code behind it is not that code alone. -/
theorem visible_slash_ne (code more back : List Char) :
    visible (code ++ '/' :: more) ++ back ≠ visible code := by
  have hslash : visible ('/' :: more) = '/' :: visible more := rfl
  intro heq
  have hlength := congrArg List.length heq
  rw [visible_append, hslash] at hlength
  simp at hlength

/-- A comment that opens in front of the first block comment opens in front of it on
the piece as well. -/
theorem Unmarked.front
    {code rest front back : List Char} {mark : Mark} (hfree : Unmarked code rest)
    (hopens : mark.Opens rest) (hsplit : Comments.splitAtMark? '/' '*' rest = some (front, back)) :
    Unmarked code front := by
  refine hfree.congr fun c hc => ?_
  cases mark with
  | dashes =>
      obtain ⟨tail, rfl⟩ := prefix_of_split_dashes hopens hsplit
      obtain ⟨more, rfl⟩ := hopens
      exact hc
  | slashes =>
      obtain ⟨tail, rfl⟩ := exists_of_split_slashes hopens hsplit
      obtain ⟨more, rfl⟩ := hopens
      exact hc

/-- Dashes behind a block comment are clean exactly if the loop finds no code behind
them and no open block comment. -/
theorem cutLeft_dashes_iff
    {code rest : List Char} (hfree : Unmarked code rest) (hopens : Mark.dashes.Opens rest)
    {reading : Reading} (hresumed : reading.isResumed = true) :
    cutLeft false (code ++ rest) = (visible code, false) ↔
      Clean (.remark .dashes reading rest) := by
  have hsplit := hfree.splitAtMark?
  simp only [Clean, hresumed, forall_const]
  cases hrest : splitAtMark? '/' '*' rest with
  | none =>
      rw [hrest] at hsplit
      rw [cutLeft_code_of_none hsplit, hfree.codePart, codePart_of_dashes hopens, List.append_nil]
      exact iff_of_true rfl fun _ hmem => by cases hmem
  | some found =>
      obtain ⟨front, back⟩ := found
      have hcode : codePart (code ++ front) = code := by
        rw [(hfree.front hopens hrest).codePart,
          codePart_of_dashes (prefix_of_split_dashes hopens hrest), List.append_nil]
      rw [hrest] at hsplit
      rw [cutLeft_code_of_split hsplit, hcode]
      simp only [Option.mem_some_iff, forall_eq']
      rw [← hidden_iff, Prod.ext_iff, Prod.ext_iff]
      simp only [List.append_right_eq_self]

/-- Slashes that open a comment stay in the code when the loop gets to them. -/
theorem cutLeft_slashes_ne
    {code rest : List Char} (hfree : Unmarked code rest) (hopens : Mark.slashes.Opens rest)
    (after : Bool) : cutLeft false (code ++ rest) ≠ (visible code, after) := by
  have hsplit := hfree.splitAtMark?
  intro heq
  cases hrest : splitAtMark? '/' '*' rest with
  | none =>
      rw [hrest] at hsplit
      rw [cutLeft_code_of_none hsplit, hfree.codePart] at heq
      obtain ⟨more, rfl⟩ := hopens
      have hleft := congrArg Prod.fst heq
      rw [← List.append_nil (visible _)] at hleft
      exact visible_slash_ne code _ [] (codePart_slash _ ▸ hleft)
  | some found =>
      obtain ⟨front, back⟩ := found
      have hfront := hfree.front hopens hrest
      obtain ⟨more, rfl⟩ := exists_of_split_slashes hopens hrest
      rw [hrest] at hsplit
      rw [cutLeft_code_of_split hsplit, hfront.codePart, codePart_slash] at heq
      exact visible_slash_ne code _ _ (congrArg Prod.fst heq)

/-- On a line that is no comment, two slashes open one behind some code. -/
theorem past_ne_start
    {code rest : List Char} (hcomment : lineComment? (code ++ rest) = none)
    (hstart : trimStart (code ++ rest) = code ++ rest) (hopens : Mark.slashes.Opens rest) :
    (Reading.start false).past code ≠ .start false := by
  cases code with
  | nil =>
      obtain ⟨tail, rfl⟩ := hopens
      cases hcomment
  | cons c code =>
      obtain ⟨spaced, hpast⟩ := Reading.past_start (isBlank_of_trimStart hstart) false
      rw [hpast]
      exact nofun

/-- The loop stops at a comment that takes the rest of the line exactly if that comment
is clean. -/
theorem cutLeft_remark_iff
    {reading : Reading} {code rest : List Char} {mark : Mark}
    (henters : EntersCode reading (code ++ rest)) (hfree : Unmarked code rest)
    (hopens : mark.Opens rest) :
    cutLeft false (code ++ rest) = (visible code, false) ↔
      Clean (.remark mark (reading.past code) rest) := by
  cases mark with
  | dashes =>
      cases henters with
      | resumed => exact cutLeft_dashes_iff hfree hopens (Reading.isResumed_past _ code)
      | first _ hfirst _ =>
          -- Dashes in front of the first block comment: the line would not be cut.
          rw [hfree.opensBlock, opensBlock_of_dashes hopens] at hfirst
          cases hfirst
  | slashes =>
      refine iff_of_false (cutLeft_slashes_ne hfree hopens false) ?_
      rintro ⟨hresumed, hclean⟩
      cases henters with
      | resumed =>
          rw [Reading.isResumed_past] at hresumed
          cases hresumed
      | first hcomment hfirst hstart =>
          rcases hclean with heq | hclosed
          · exact past_ne_start hcomment hstart hopens heq
          · rw [hfree.opensBlock, hclosed] at hfirst
            cases hfirst

/-- The code up to the first block comment is read alike exactly if the scan ends
cleanly, when what is behind it is. -/
theorem cutLeft_code_iff
    {reading : Reading} {rest : List Char} (henters : EntersCode reading rest)
    (hblock : ∀ front back, splitAtMark? '/' '*' rest = some (front, back) →
      (cutLeft true back = scannedFrom .block back ↔ Clean (scan .block back).2)) :
    cutLeft false rest = scannedFrom reading rest ↔ Clean (scan reading rest).2 := by
  rcases scan_cases henters.ne_block rest with ⟨hfree, hscan⟩ |
    ⟨front, back, rfl, hfree, hscan⟩ | ⟨mark, code, more, rfl, hfree, hopens, hscan⟩
  · have hnone := hfree.splitAtMark?
    have hcode := hfree.codePart
    rw [List.append_nil] at hnone hcode
    rw [cutLeft_code_of_none hnone, hcode, scannedFrom, hscan]
    exact iff_of_true (by rw [codePart, List.append_nil]; rfl) trivial
  · have hsplit := hfree.splitAtMark?
    rw [splitAtMark?_here, Option.map_some, List.append_nil] at hsplit
    have hcode := hfree.alone.codePart
    rw [List.append_nil, codePart, List.append_nil] at hcode
    rw [cutLeft_code_of_split hsplit, hcode, scannedFrom, hscan, visible_append,
      ← hblock front back hsplit]
    simp only [Prod.ext_iff, List.append_right_inj]
    exact Iff.rfl
  · have hresult : scannedFrom reading (code ++ more) = (visible code, false) := by
      rw [scannedFrom, hscan]
      rfl
    rw [hresult, hscan]
    exact cutLeft_remark_iff henters hfree hopens

/-- The loop and the scan agree on a part of a line exactly if the scan ends cleanly. -/
theorem cutLeft_iff (rest : List Char) :
    (cutLeft true rest = scannedFrom .block rest ↔ Clean (scan .block rest).2) ∧
    ∀ reading, EntersCode reading rest →
      (cutLeft false rest = scannedFrom reading rest ↔ Clean (scan reading rest).2) := by
  induction hlength : rest.length using Nat.strongRecOn generalizing rest with
  | ind length ih =>
      have hback : ∀ {a b : Char} {front back : List Char},
          splitAtMark? a b rest = some (front, back) → back.length < length := by
        intro a b front back hsplit
        rw [← hlength, (eq_of_splitAtMark? hsplit).1, List.length_append, List.length_cons,
          List.length_cons]
        omega
      constructor
      · have hscan := scan_block rest
        cases hsplit : splitAtMark? '*' '/' rest with
        | none =>
            rw [hsplit] at hscan
            rw [cutLeft_block_of_none hsplit, scannedFrom, hscan]
            exact iff_of_true rfl trivial
        | some found =>
            obtain ⟨front, back⟩ := found
            rw [hsplit] at hscan
            rw [cutLeft_block_of_split hsplit, scannedFrom, hscan]
            exact (ih _ (hback hsplit) back rfl).2 _ (.resumed back)
      · intro reading henters
        exact cutLeft_code_iff henters fun front back hsplit => (ih _ (hback hsplit) back rfl).1

/-! ## Lines that are not cut -/

theorem head?_replaceSlashes (line : List Char) : (replaceSlashes line).head? = line.head? := by
  fun_cases replaceSlashes line <;> rfl

theorem dashes_cons_replaceSlashes_iff {c : Char} {rest : List Char} :
    ['-', '-'] <+: c :: replaceSlashes rest ↔ ['-', '-'] <+: c :: rest := by
  have hsecond : ∀ text : List Char, ['-'] <+: text ↔ text.head? = some '-' := by
    intro text
    cases text <;> simp [List.cons_prefix_cons, eq_comm]
  rw [List.cons_prefix_cons, List.cons_prefix_cons, hsecond, hsecond, head?_replaceSlashes]

/-- On a line that opens no block comment before any `--`, the code is what stands
before the first comment mark once slashes behind a space are dashes. -/
theorem scan_of_not_opensBlock
    {line : List Char} (hopens : opensBlock line = false) {spaced : Bool}
    (hspaced : spaced = true → ¬ ['/', '/'] <+: line) :
    (scan (.code false spaced) line).1 = codePart (replaceSlashes line) ∧
      (scan (.code false spaced) line).2 ≠ .block ∧ Clean (scan (.code false spaced) line).2 := by
  fun_induction replaceSlashes line generalizing spaced with
  | case1 rest ih =>
      have hslashes : opensBlock ('/' :: '/' :: rest) = false := by
        rwa [opensBlock_cons (by simp) (by simp)] at hopens
      exact ⟨rfl, by rintro ⟨⟩, rfl, .inr hslashes⟩
  | case3 => exact ⟨rfl, by rintro ⟨⟩, trivial⟩
  | case2 c rest hother ih =>
      have hblock := not_prefix_of_not_opensBlock hopens
      have hcode : Reading.code false spaced ≠ .block := by rintro ⟨⟩
      have hstep := scan_cons hcode hblock
      cases hremark : remark? (.code false spaced) (c :: rest) with
      | some mark =>
          rw [hremark] at hstep
          have hmark := opens_of_remark? hremark
          cases mark with
          | slashes =>
              obtain ⟨more, hmore⟩ := hmark
              rw [← hmore] at hremark hspaced
              cases spaced with
              | false => cases hremark
              | true => exact absurd (List.prefix_append ['/', '/'] more) (hspaced rfl)
          | dashes =>
              rw [hstep, codePart_of_dashes (dashes_cons_replaceSlashes_iff.mpr hmark)]
              exact ⟨rfl, by rintro ⟨⟩, by rintro ⟨⟩⟩
      | none =>
          rw [hremark] at hstep
          have hdashes := not_dashes_of_remark? hremark
          have hnext : (c == ' ') = true → ¬ ['/', '/'] <+: rest := by
            rintro hspace ⟨more, rfl⟩
            exact hother more (beq_iff_eq.mp hspace) rfl
          rw [opensBlock_cons hblock hdashes] at hopens
          have hmore := ih hopens hnext
          rw [hstep, codePart_cons (mt dashes_cons_replaceSlashes_iff.mp hdashes), ← hmore.1]
          exact ⟨rfl, hmore.2⟩

/-! ## Lines and texts -/

theorem scan_start_of_trimmed
    {line : List Char} (hcomment : lineComment? line = none) (hopens : opensBlock line = false)
    (hstart : trimStart line = line) :
    scan (.start false) line = scan (.code false false) line := by
  cases line with
  | nil => rfl
  | cons c rest =>
      have hc := isBlank_of_trimStart hstart
      have hblock := not_prefix_of_not_opensBlock hopens
      have hnone : ∀ reading, remark? reading (c :: rest) = none := by
        intro reading
        unfold remark?
        split
        · next heq =>
            rw [heq] at hcomment
            cases hcomment
        · next heq =>
            rw [heq] at hcomment
            cases hcomment
        · rfl
      have hspace : (c == ' ') = false := by
        rw [beq_eq_false_iff_ne]
        rintro rfl
        cases hc
      have hfirst : Reading.start false ≠ .block := nofun
      have hsecond : Reading.code false false ≠ .block := nofun
      rw [scan_cons hfirst hblock, scan_cons hsecond hblock, hnone, hnone]
      simp only [Reading.behind, hc, hspace, Bool.false_eq_true, if_false]

/-- A line is passed as it is scanned exactly if the scan of it ends cleanly. -/
theorem passed_eq_scanned_iff (inside : Bool) (line : List Char) :
    passed inside (trim line) = scanned inside (trim line) ↔
      Clean (scan (.of inside) (trim line)).2 := by
  have hloop := cutLeft_iff (trim line)
  have hstart := trimStart_trim line
  generalize trim line = line at hloop hstart
  cases inside with
  | true => exact hloop.1
  | false =>
      change passed false line = scannedFrom (.start false) line ↔ _
      rcases normalizeLine_cases false line with
        ⟨text, -, hcomment, hresult⟩ | ⟨rounds, found, after, hcut, hopens, hresult⟩ |
          ⟨-, hcomment, hopens, hresult⟩
      · have hpassed : passed false line = ([], false) := by
          rw [passed, hresult]
          rcases commentLine_cases text with heq | heq <;> rw [heq] <;> rfl
        rw [hpassed]
        rcases eq_of_lineComment? hcomment with rfl | rfl
        · exact iff_of_true rfl ⟨rfl, .inl rfl⟩
        · exact iff_of_true rfl nofun
      · obtain ⟨hcomment, hopens⟩ := hopens rfl
        have hpassed : passed false line = cutLeft false line := by
          rw [passed, cutLeft, hresult, hcut.cutLine]
        rw [hpassed]
        exact hloop.2 _ (.first hcomment hopens hstart)
      · obtain ⟨hcode, hend, hclean⟩ :=
          @scan_of_not_opensBlock line hopens false nofun
        rw [Reading.of, if_neg Bool.false_ne_true, scannedFrom,
          scan_start_of_trimmed hcomment hopens hstart, passed, hresult, hcode]
        refine iff_of_true ?_ hclean
        simp [beq_eq_false_iff_ne.mpr hend]

/-- What is read from the lines of a text, each with the state that the one before it
leaves. -/
def threaded (read : Bool → List Char → List Char × Bool) :
    Bool → List (List Char) → List (List Char × Bool)
  | _, [] => []
  | inside, line :: rest =>
    read inside (trim line) :: threaded read (read inside (trim line)).2 rest

/-- The scan of every line ends cleanly. -/
def AllClean : Bool → List (List Char) → Prop
  | _, [] => True
  | inside, line :: rest =>
    Clean (scan (.of inside) (trim line)).2 ∧ AllClean (scanned inside (trim line)).2 rest

instance decidableAllClean : ∀ inside found, Decidable (AllClean inside found)
  | _, [] => .isTrue trivial
  | inside, line :: rest =>
    have := decidableAllClean (scanned inside (trim line)).2 rest
    inferInstanceAs (Decidable (_ ∧ _))

theorem threaded_eq_iff (inside : Bool) (found : List (List Char)) :
    threaded passed inside found = threaded scanned inside found ↔ AllClean inside found := by
  induction found generalizing inside with
  | nil => exact iff_of_true rfl trivial
  | cons line rest ih =>
      rw [threaded, threaded, AllClean, ← passed_eq_scanned_iff, List.cons.injEq]
      refine and_congr_right fun hline => ?_
      rw [hline]
      exact ih _

theorem visible_codePart_normalizeLines (inside : Bool) (found : List (List Char)) :
    visible ((normalizeLines inside found).flatMap codePart) =
      (threaded passed inside found).flatMap Prod.fst := by
  induction found generalizing inside with
  | nil => rfl
  | cons line rest ih =>
      rw [normalizeLines, List.flatMap_append, visible_append, ih]
      rfl

/-- The visible text that stands on the lines of a text before their first `--`. -/
def leftCode (text : List Char) : List Char :=
  visible ((splitLines text).flatMap codePart)

/-- The visible code of a text by the scan of its lines. -/
def scannedCode (text : List Char) : List Char :=
  (threaded scanned false (lines text)).flatMap Prod.fst

end Comments

open Comments

/-- Normalizing reads every line of a text as the scan does exactly if the scan of every
line ends cleanly, and then the code that it leaves is that of the scan. -/
theorem normalizeComments_code (sql : String) :
    (threaded passed false (lines sql.toList) = threaded scanned false (lines sql.toList) ↔
      AllClean false (lines sql.toList)) ∧
    (AllClean false (lines sql.toList) →
      leftCode (normalizeComments sql).toList = scannedCode sql.toList) := by
  have hiff := threaded_eq_iff false (lines sql.toList)
  refine ⟨hiff, fun hclean => ?_⟩
  have hlines : ∀ line ∈ lines sql.toList, '\n' ∉ line := fun _ => not_mem_of_mem_lines
  have hout : ∀ out ∈ normalizeLines false (lines sql.toList), '\n' ∉ out := fun out hout =>
    (opensNoBlock_normalizeLines hlines out hout).2
  rw [scannedCode, ← hiff.mpr hclean, ← visible_codePart_normalizeLines, leftCode,
    toList_normalizeComments]
  by_cases hnone : normalizeLines false (lines sql.toList) = []
  · rw [hnone]
    rfl
  · rw [splitLines_join hnone hout]

/-- Remarks of every kind: one over two lines, one behind a block comment and one that
hides a closed block comment and another remark. -/
def remarkedText : String :=
  "// totals /* all\nSELECT a, /* first\n second */ b -- c\nFROM t // e -- f\n" ++
    "WHERE x /* y */ -- z /* w */ -- v"

theorem remarkedText_code :
    AllClean false (lines remarkedText.toList) ∧
      leftCode (normalizeComments remarkedText).toList = "SELECTa,bFROMtWHEREx".toList := by
  have hclean : AllClean false (lines remarkedText.toList) := by decide
  have hcode : scannedCode remarkedText.toList = "SELECTa,bFROMtWHEREx".toList := by
    decide
  exact ⟨hclean, ((normalizeComments_code remarkedText).2 hclean).trans hcode⟩

/-- The comment behind the column takes the rest of its line, with the slash and the
star in it; normalizing leaves it as code and takes the next line for a comment. -/
theorem slashRemark_left_as_code :
    leftCode (normalizeComments "SELECT a // see /* here\nFROM t").toList =
        "SELECTa//see".toList ∧
      scannedCode "SELECT a // see /* here\nFROM t".toList = "SELECTaFROMt".toList := by
  decide

end Relocate.Sql
