import Relocate.Proofs.Text.Trimming

/-!
# Trimming the lines of a text

Whether trimming takes a character away depends on the characters of its line only.
`trimLines` decides so at each character, and what it leaves are the trimmed lines, put
together with line feeds (`trimLines_eq`).
-/

namespace Relocate.Text

/-! ## Character by character -/

/-- Nothing but blanks stands on the first line of the text. -/
def blankLine (text : List Char) : Bool :=
  (text.takeWhile (· != '\n')).all isBlank

/-- Nothing but blanks stands on the line before the place behind a character; `start`
says so of the place before it. -/
def startsBehind (start : Bool) (c : Char) : Bool :=
  c == '\n' || start && isBlank c

/-- Trimming the lines takes the character in front of the text away.  A line feed is
taken away at the end only, where it ends the last line. -/
def trims (start : Bool) (c : Char) (back : List Char) : Bool :=
  if c = '\n' then back.isEmpty else isBlank c && (start || blankLine back)

/-- What trimming the lines leaves of a text; `start` says that nothing but blanks stands
before it on its first line. -/
def trimLines : Bool → List Char → List Char
  | _, [] => []
  | start, c :: back =>
    let more := trimLines (startsBehind start c) back
    if trims start c back then more else c :: more

section

variable {c : Char} {line rest text : List Char}

theorem blankLine_cons (hc : c ≠ '\n') (rest : List Char) :
    blankLine (c :: rest) = (isBlank c && blankLine rest) := by
  rw [blankLine, List.takeWhile_cons_of_pos (by simpa using hc), List.all_cons]
  rfl

/-- A text without a line feed, and then the end of its line. -/
theorem blankLine_append (hline : '\n' ∉ line) (hrest : ∀ c ∈ rest.head?, c = '\n') :
    blankLine (line ++ rest) = line.all isBlank := by
  induction line with
  | nil =>
      cases rest with
      | nil => rfl
      | cons c rest => rw [hrest c rfl]; rfl
  | cons c line ih =>
      have hc : c ≠ '\n' := fun heq => hline (heq ▸ List.mem_cons_self)
      rw [List.cons_append, blankLine_cons hc, List.all_cons,
        ih fun hmem => hline (List.mem_cons_of_mem c hmem)]

theorem startsBehind_visible {start : Bool} (hc : isBlank c = false) :
    startsBehind start c = false := by
  have hline : c ≠ '\n' := by
    rintro rfl
    cases hc
  rw [startsBehind, hc, Bool.and_false, Bool.or_false, beq_eq_false_iff_ne]
  exact hline

theorem startsBehind_blank {start : Bool} (hc : c ≠ '\n') (hblank : isBlank c = true) :
    startsBehind start c = start := by
  rw [startsBehind, hblank, Bool.and_true, beq_eq_false_iff_ne.mpr hc, Bool.false_or]

theorem trimLines_of_trims {start : Bool} (h : trims start c rest = true) :
    trimLines start (c :: rest) = trimLines (startsBehind start c) rest := by
  rw [trimLines, if_pos h]

theorem trimLines_of_not_trims {start : Bool} (h : trims start c rest = false) :
    trimLines start (c :: rest) = c :: trimLines (startsBehind start c) rest := by
  rw [trimLines, if_neg (by simp [h])]

theorem trims_visible {start : Bool} (hc : isBlank c = false) : trims start c rest = false := by
  have hline : c ≠ '\n' := by
    rintro rfl
    cases hc
  rw [trims, if_neg hline, hc, Bool.false_and]

/-- Of a line of blanks nothing is left but its end, when another line follows. -/
theorem head?_trimLines_of_blankLine (h : blankLine text = true) (start : Bool) :
    ∀ c ∈ (trimLines start text).head?, c = '\n' ∧
      ∃ gap more, text = gap ++ '\n' :: more ∧ (∀ d ∈ gap, isBlank d = true) ∧ more ≠ [] := by
  induction text generalizing start with
  | nil => exact nofun
  | cons d rest ih =>
      by_cases hd : d = '\n'
      · subst hd
        cases hrest : rest.isEmpty with
        | true =>
            rw [List.isEmpty_iff.mp hrest]
            exact nofun
        | false =>
            rw [trimLines_of_not_trims (by rw [trims, if_pos rfl, hrest])]
            rintro _ ⟨⟩
            exact ⟨rfl, [], rest, rfl, nofun, by simpa using hrest⟩
      · rw [blankLine_cons hd, Bool.and_eq_true] at h
        rw [trimLines_of_trims (by rw [trims, if_neg hd, h.1, h.2, Bool.or_true]; rfl)]
        intro c hc
        obtain ⟨hline, gap, more, rfl, hgap, hmore⟩ := ih h.2 _ c hc
        exact ⟨hline, d :: gap, more, rfl, List.forall_mem_cons.mpr ⟨h.1, hgap⟩, hmore⟩

/-! ## Texts that are not trimmed -/

/-- No blank stands at the start of the text, unless it ends a line. -/
def Flush (text : List Char) : Prop :=
  ∀ c ∈ text.head?, isBlank c = true → c = '\n'

/-- Where more than blanks follows on the line, the next character stays. -/
theorem not_trims_of_not_blankLine
    {start : Bool} (hstart : start = true → Flush (c :: text))
    (h : blankLine (c :: text) = false) : trims start c text = false := by
  have hc : c ≠ '\n' := by
    rintro rfl
    cases h
  cases hblank : isBlank c with
  | false => exact trims_visible hblank
  | true =>
      have hfalse : start = false := Bool.eq_false_iff.mpr fun hs => hc (hstart hs c rfl hblank)
      rw [blankLine_cons hc, hblank, Bool.true_and] at h
      rw [trims, if_neg hc, hfalse, h, Bool.or_false, Bool.and_false]

theorem head?_trimLines
    {start : Bool} (hstart : start = true → Flush text) (h : blankLine text = false) :
    (trimLines start text).head? = text.head? := by
  cases text with
  | nil => rfl
  | cons c rest =>
      rw [trimLines_of_not_trims (not_trims_of_not_blankLine hstart h)]
      rfl

/-- Trimming takes nothing from a text in front of another one. -/
structure Untrimmed (text back : List Char) : Prop where
  /-- No other blank stands beside a line feed of the text. -/
  breaks : ∀ c ∈ text ++ back.take 1, isBlank c = true → c ≠ '\n' →
    ¬ [c, '\n'] <:+: text ∧ ¬ ['\n', c] <:+: text ++ back.take 1
  /-- A blank at its end does not end the line, and a line feed at its end does not end
  the last line. -/
  last : ∀ c ∈ text.getLast?, isBlank c = true →
    if c = '\n' then back ≠ [] else blankLine back = false

instance (text back : List Char) : Decidable (Untrimmed text back) :=
  decidable_of_iff
    ((text ++ back.take 1).all (fun c => decide (isBlank c = true → c ≠ '\n' →
      ¬ [c, '\n'] <:+: text ∧ ¬ ['\n', c] <:+: text ++ back.take 1)) = true ∧
    text.getLast?.all (fun c => decide (isBlank c = true →
      if c = '\n' then back ≠ [] else blankLine back = false)) = true) <| by
    simp only [List.all_eq_true, Option.all_eq_true, decide_eq_true_eq]
    exact ⟨fun h => ⟨h.1, h.2⟩, fun h => ⟨h.breaks, h.last⟩⟩

variable {back : List Char}

theorem Untrimmed.tail (h : Untrimmed (c :: text) back) (hne : text ≠ []) :
    Untrimmed text back := by
  constructor
  · intro d hmem hblank hd
    obtain ⟨hbefore, hbehind⟩ := h.breaks d (List.mem_cons_of_mem c hmem) hblank hd
    exact ⟨fun hmem => hbefore (hmem.trans (List.infix_cons List.infix_rfl)),
      fun hmem => hbehind (hmem.trans (List.infix_cons List.infix_rfl))⟩
  · intro d hd
    exact h.last d (by rwa [List.getLast?_cons_of_ne_nil hne])

/-- A blank of the text is not in the blanks at the end of its line. -/
theorem Untrimmed.blankLine (h : Untrimmed (c :: text) back) (hblank : isBlank c = true)
    (hc : c ≠ '\n') : blankLine (text ++ back) = false := by
  induction text generalizing c with
  | nil => simpa [hc] using h.last c rfl hblank
  | cons d text ih =>
      have hd : d ≠ '\n' := by
        rintro rfl
        exact (h.breaks c List.mem_cons_self hblank hc).1 ⟨[], text, rfl⟩
      rw [List.cons_append, blankLine_cons hd]
      cases hnext : isBlank d with
      | false => rfl
      | true => exact ih (h.tail (List.cons_ne_nil _ _)) hnext hd

theorem Untrimmed.flush (h : Untrimmed (c :: text) back) (hc : c = '\n') :
    Flush (text ++ back) := by
  intro d hd hblank
  by_contra hline
  have hnext : ∃ more, text ++ back.take 1 = d :: more := by
    cases text with
    | nil =>
        obtain ⟨more, rfl⟩ := List.head?_eq_some_iff.mp hd
        exact ⟨[], rfl⟩
    | cons e text =>
        obtain ⟨more, hmore⟩ := List.head?_eq_some_iff.mp hd
        obtain ⟨rfl, -⟩ := List.cons.inj hmore
        exact ⟨_, rfl⟩
  obtain ⟨more, hmore⟩ := hnext
  refine (h.breaks d ?_ hblank hline).2 ⟨[], more, ?_⟩
  · rw [List.cons_append, hmore]
    exact List.mem_cons_of_mem c List.mem_cons_self
  · rw [List.cons_append, hmore, hc]
    rfl

/-- Such a text stays, and what follows it is trimmed as it would be. -/
theorem trimLines_untrimmed
    (h : Untrimmed text back) {start : Bool} (hstart : start = true → Flush (text ++ back)) :
    trimLines start (text ++ back) = text ++ trimLines (text.foldl startsBehind start) back ∧
      (text.foldl startsBehind start = true → Flush back) := by
  -- Only a line feed of the text can let `start` become true again behind it.
  induction text generalizing start with
  | nil => exact ⟨rfl, hstart⟩
  | cons c text ih =>
      have hflush : startsBehind start c = true → Flush (text ++ back) := by
        intro hbehind
        refine h.flush ?_
        rw [startsBehind, Bool.or_eq_true, beq_iff_eq, Bool.and_eq_true] at hbehind
        exact hbehind.elim id fun hboth => hstart hboth.1 c rfl hboth.2
      have hstays : trims start c (text ++ back) = false := by
        by_cases hc : c = '\n'
        · have hmore : text ++ back ≠ [] := by
            intro hnil
            obtain ⟨rfl, rfl⟩ := List.append_eq_nil_iff.mp hnil
            simpa [hc] using h.last c rfl (hc ▸ (by decide))
          rw [trims, if_pos hc]
          simpa using hmore
        · cases hblank : isBlank c with
          | false => exact trims_visible hblank
          | true =>
              have hfalse : start = false :=
                Bool.eq_false_iff.mpr fun hs => hc (hstart hs c rfl hblank)
              rw [trims, if_neg hc, hfalse, h.blankLine hblank hc, Bool.or_false, Bool.and_false]
      rw [List.cons_append, trimLines_of_not_trims hstays, List.cons_append, List.foldl_cons]
      cases text with
      | nil => exact ⟨rfl, hflush⟩
      | cons d text =>
          obtain ⟨htrim, hback⟩ := ih (h.tail (List.cons_ne_nil _ _)) hflush
          exact ⟨congrArg _ htrim, hback⟩

/-! ## Line by line -/

/-- The end of a line is trimmed alike whatever stands before it. -/
theorem trimLines_line_end (hrest : ∀ c ∈ rest.head?, c = '\n') (start : Bool) :
    trimLines start rest = trimLines true rest := by
  cases rest with
  | nil => rfl
  | cons c rest => rw [hrest c rfl]; rfl

/-- What is left of a line, in front of what is left of its end. -/
theorem trimLines_line
    (hline : '\n' ∉ line) (hrest : ∀ c ∈ rest.head?, c = '\n') (start : Bool) :
    trimLines start (line ++ rest) =
      (if start then trim line else trimEnd line) ++ trimLines true rest := by
  induction line generalizing start with
  | nil =>
      rw [List.nil_append, trimLines_line_end hrest]
      cases start <;> rfl
  | cons c line ih =>
      have hc : c ≠ '\n' := fun heq => hline (heq ▸ List.mem_cons_self)
      have htail : '\n' ∉ line := fun hmem => hline (List.mem_cons_of_mem c hmem)
      rw [List.cons_append]
      cases hblank : isBlank c with
      | false =>
          rw [trimLines_of_not_trims (trims_visible hblank), startsBehind_visible hblank, ih htail,
            trim_cons_visible hblank, trimEnd_cons_visible hblank]
          simp
      | true =>
          have hempty : trimEnd line = [] ↔ blankLine (line ++ rest) = true := by
            rw [blankLine_append htail hrest, trimEnd_eq_nil_iff, List.all_eq_true]
          have htrims : trims start c (line ++ rest) = (start || blankLine (line ++ rest)) := by
            rw [trims, if_neg hc, hblank, Bool.true_and]
          have hnext := @startsBehind_blank c start hc hblank
          cases start with
          | true =>
              rw [trimLines_of_trims (by rw [htrims]; rfl), hnext, ih htail, if_pos rfl,
                if_pos rfl, trim_cons_blank hblank]
          | false =>
              rw [Bool.false_or] at htrims
              rw [if_neg Bool.false_ne_true, trimEnd_cons_blank hblank]
              split
              · next hnil =>
                  rw [trimLines_of_trims (htrims.trans (hempty.mp hnil)), hnext, ih htail,
                    if_neg Bool.false_ne_true, hnil]
              · next hne =>
                  have hstays := Bool.eq_false_iff.mpr (mt hempty.mpr hne)
                  rw [trimLines_of_not_trims (htrims.trans hstays), hnext, ih htail,
                    if_neg Bool.false_ne_true, List.cons_append]

end

theorem intercalate_splitLines (text : List Char) :
    ['\n'].intercalate (splitLines text) = text := by
  induction text with
  | nil => rfl
  | cons c rest ih =>
      obtain ⟨line, others, hrest⟩ := List.exists_cons_of_ne_nil (splitLines_ne_nil rest)
      by_cases hc : c = '\n'
      · rw [hc, splitLines_newline, hrest, List.intercalate_cons_cons, ← hrest, ih]
        rfl
      · rw [splitLines_cons hc hrest]
        rw [hrest] at ih
        cases others with
        | nil => rw [List.intercalate_singleton] at ih ⊢; rw [ih]
        | cons other others =>
            rw [List.intercalate_cons_cons] at ih ⊢
            rw [← ih]
            rfl

/-- A blank at the end of a text makes no difference to what trimming leaves. -/
theorem trim_concat_blank {c : Char} (hc : isBlank c = true) (front : List Char) :
    trim (front ++ [c]) = trim front := by
  have hone : trimEnd [c] = [] := trimEnd_eq_nil_iff.mpr (by simpa using hc)
  rw [trim, trim, trimStart, trimStart, List.dropWhile_append]
  split
  · next hempty =>
      rw [List.isEmpty_iff.mp hempty, List.dropWhile_cons_of_pos hc]
      rfl
  · rw [trimEnd_append, if_pos hone]

theorem trim_dropCarriageReturn (line : List Char) :
    trim (dropCarriageReturn line) = trim line := by
  unfold dropCarriageReturn
  split
  · next front heq =>
      have hline : line = front.reverse ++ ['\r'] := by
        rw [← List.reverse_cons, ← heq, List.reverse_reverse]
      rw [hline, trim_concat_blank (by decide)]
  · rfl

theorem intercalate_concat_eq_nil_iff {front : List (List Char)} {last : List Char} :
    ['\n'].intercalate (front ++ [last]) = [] ↔ front = [] ∧ last = [] := by
  cases front with
  | nil => simp
  | cons line front =>
      obtain ⟨next, others, hnext⟩ : ∃ next others, front ++ [last] = next :: others :=
        List.exists_cons_of_ne_nil (by simp)
      rw [List.cons_append, hnext, List.intercalate_cons_cons]
      simp

/-- What is left of lines that are put together with line feeds, the last of which may
be empty. -/
theorem trimLines_intercalate
    {front : List (List Char)} {last : List Char} (hfront : ∀ line ∈ front, '\n' ∉ line)
    (hlast : '\n' ∉ last) :
    trimLines true (['\n'].intercalate (front ++ [last])) =
      ['\n'].intercalate (front.map trim ++ if last = [] then [] else [trim last]) := by
  induction front with
  | nil =>
      have hline := @trimLines_line last [] hlast nofun true
      rw [List.append_nil, if_pos rfl] at hline
      rw [List.nil_append, List.intercalate_singleton, hline]
      split
      · next hnil => rw [hnil]; rfl
      · simp [trimLines]
  | cons line front ih =>
      have hmore := ih fun other hother => hfront other (List.mem_cons_of_mem line hother)
      have hempty := @intercalate_concat_eq_nil_iff front last
      obtain ⟨next, others, hnext⟩ : ∃ next others, front ++ [last] = next :: others :=
        List.exists_cons_of_ne_nil (by simp)
      rw [hnext] at hmore hempty
      rw [List.cons_append, hnext, List.intercalate_cons_cons, List.append_assoc,
        List.singleton_append, trimLines_line (hfront line List.mem_cons_self) (by simp),
        if_pos rfl, List.map_cons, List.cons_append]
      by_cases hnil : ['\n'].intercalate (next :: others) = []
      · obtain ⟨rfl, rfl⟩ := hempty.mp hnil
        rw [hnil, if_pos rfl]
        simp [trimLines, trims]
      · have hstays : trims true '\n' (['\n'].intercalate (next :: others)) = false := by
          rw [trims, if_pos rfl]
          simpa using hnil
        obtain ⟨found, more, hfound⟩ : ∃ found more,
            (front.map trim ++ if last = [] then [] else [trim last]) = found :: more := by
          refine List.exists_cons_of_ne_nil fun hcontra => hnil (hempty.mpr ?_)
          obtain ⟨hfront, hlast⟩ := List.append_eq_nil_iff.mp hcontra
          exact ⟨List.map_eq_nil_iff.mp hfront, by_contra fun hne => by simp [hne] at hlast⟩
        rw [trimLines_of_not_trims hstays, hfound, List.intercalate_cons_cons, ← hfound, ← hmore]
        simp [startsBehind]

/-- The trimmed lines of a text, put together with line feeds. -/
theorem trimLines_eq (text : List Char) :
    trimLines true text = ['\n'].intercalate ((lines text).map trim) := by
  have hmap : ∀ front : List (List Char),
      (front.map dropCarriageReturn).map trim = front.map trim := by
    intro front
    rw [List.map_map]
    exact List.map_congr_left fun line _ => trim_dropCarriageReturn line
  obtain ⟨front, last, hsplit, hlines⟩ := lines_cases text
  have hall : ∀ line ∈ front ++ [last], '\n' ∉ line :=
    hsplit ▸ fun line hline => not_mem_of_mem_splitLines hline
  have htrim := @trimLines_intercalate front last
    (fun line hline => hall line (List.mem_append_left _ hline))
    (hall last (List.mem_append_right _ List.mem_cons_self))
  rw [← hsplit, intercalate_splitLines] at htrim
  rw [htrim]
  rcases hlines with ⟨hlast, hlines⟩ | ⟨hlast, hlines⟩
  · rw [hlines, hmap, if_pos hlast, List.append_nil]
  · rw [hlines, List.map_append, hmap, if_neg hlast]
    rfl

end Relocate.Text
