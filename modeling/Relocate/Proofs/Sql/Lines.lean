import Relocate.Proofs.Sql.Spelling

/-!
# Where the lines of a text start

Words that start no clause, commas and points leave the layout of a text alone
(`Layout.breaks_quiet`), and a text is cut at the places of its breaks
(`Layout.cut_lines`).  The blank in front of the break is trimmed
(`EndsVisible.trimEnd`).
-/

namespace Relocate.Sql

open Text

/-! ## Breaks -/

/-- Words that may start a clause. -/
def Keyword.opening : List String := [
  "SELECT", "FROM", "WHERE", "HAVING", "LIMIT", "OFFSET", "UNION", "EXCEPT", "INTERSECT",
  "INNER", "CROSS", "NATURAL", "GROUP", "ORDER", "LEFT", "RIGHT", "FULL", "JOIN"]

theorem Location.line_le_after (place : Location) (text : List Char) :
    place.line ≤ (place.after text).line ∧
      ((place.after text).line = place.line →
        (place.after text).column = place.column + text.length) := by
  induction text generalizing place with
  | nil => exact ⟨Nat.le_refl _, fun _ => rfl⟩
  | cons c rest ih =>
      obtain ⟨hline, hcolumn⟩ := ih (place.step c)
      have hafter : place.after (c :: rest) = (place.step c).after rest := rfl
      rw [hafter]
      by_cases hc : c = '\n'
      · have hstep : (place.step c).line = place.line + 1 := by rw [step, if_pos hc]
        constructor
        · omega
        · intro hsame
          omega
      · have hstep : place.step c = ⟨place.line, place.column + 1⟩ := by rw [step, if_neg hc]
        rw [hstep] at hline hcolumn ⊢
        refine ⟨hline, ?_⟩
        intro hsame
        rw [hcolumn hsame, List.length_cons, Nat.add_assoc, Nat.add_comm 1]

/-- The place behind some characters is a different one. -/
theorem Location.after_cons_ne (place : Location) (c : Char) (rest : List Char) :
    place.after (c :: rest) ≠ place := by
  intro heq
  obtain ⟨-, hcolumn⟩ := place.line_le_after (c :: rest)
  rw [heq, List.length_cons] at hcolumn
  exact absurd (hcolumn rfl) (by omega)

namespace Layout

theorem cut_nil (place : Location) (text : List Char) : cut [] place text = (text, []) := by
  cases text <;> rfl

/-- A text is cut at the place of its first break, and the rest of it at the others. -/
theorem cut_append
    (breaks : List Break) (place : Location) (depth : Nat) (front : List Char) (c : Char)
    (rest : List Char) :
    cut (⟨place.after front, depth⟩ :: breaks) place (front ++ c :: rest) =
      (front, (depth, c :: (cut breaks ((place.after front).step c) rest).1) ::
        (cut breaks ((place.after front).step c) rest).2) := by
  induction front generalizing place with
  | nil =>
      have hplace : place.after [] = place := rfl
      simp only [List.nil_append, cut, hplace, if_true]
  | cons d front ih =>
      have hne : place.after (d :: front) ≠ place := Location.after_cons_ne place d front
      have hmore := ih (place.step d)
      have hafter : (place.step d).after front = place.after (d :: front) := rfl
      rw [hafter] at hmore
      simp only [List.cons_append, cut, if_neg hne, hmore]

/-- A text is cut at the place of its only break. -/
theorem cut_single
    (place : Location) (depth : Nat) (front : List Char) (c : Char) (back : List Char) :
    cut [⟨place.after front, depth⟩] place (front ++ c :: back) =
      (front, [(depth, c :: back)]) := by
  rw [cut_append, cut_nil]

/-- The breaks in front of lines that stand one behind the other. -/
def breaksFrom : Location → List (Nat × List Char) → List Break
  | _, [] => []
  | place, (depth, line) :: lines => ⟨place, depth⟩ :: breaksFrom (place.after line) lines

/-- A text is cut into the lines at whose places its breaks are. -/
theorem cut_lines
    (place : Location) (front : List Char) {lines : List (Nat × List Char)}
    (h : ∀ line ∈ lines, line.2 ≠ []) :
    cut (breaksFrom (place.after front) lines) place (front ++ lines.flatMap Prod.snd) =
      (front, lines) := by
  induction lines generalizing place front with
  | nil => rw [List.flatMap_nil, List.append_nil, breaksFrom, cut_nil]
  | cons line lines ih =>
      obtain ⟨depth, text⟩ := line
      obtain ⟨c, text, rfl⟩ := List.exists_cons_of_ne_nil (h (depth, text) List.mem_cons_self)
      have hmore := ih ((place.after front).step c) text fun other hother =>
        h other (List.mem_cons_of_mem _ hother)
      rw [List.flatMap_cons, breaksFrom, List.cons_append, cut_append]
      exact congrArg (fun cut => (front, (depth, c :: cut.1) :: cut.2)) hmore

theorem startsClause_eq_false
    {before word after : String} (hword : word ∉ Keyword.opening) :
    startsClause before word after = false := by
  unfold startsClause
  split <;> first | rfl | exact absurd (by decide) hword

/-- A word that starts no clause, or a comma or a point. -/
inductive Quiet : Token → Prop
  | word {ident : Ident} (hword : (Token.word ident).keyword ∉ Keyword.opening) :
      Quiet (.word ident)
  | comma : Quiet (.symbol ",")
  | point : Quiet (.symbol ".")

theorem Quiet.ne_parenthesis {token : Token} (h : Quiet token) : token ≠ .symbol "(" := by
  cases h <;> simp

/-- No line starts among quiet tokens. -/
theorem breaks_quiet
    {before : Token} (hbefore : before ≠ .symbol "(") {front : List Placed}
    (hfront : ∀ placed ∈ front, Quiet placed.token) (rest : List Placed) :
    ∃ last, last ≠ .symbol "(" ∧ breaks before [] (front ++ rest) = breaks last [] rest := by
  induction front generalizing before with
  | nil => exact ⟨before, hbefore, rfl⟩
  | cons placed front ih =>
      obtain ⟨token, place⟩ := placed
      have htoken : Quiet token := hfront _ List.mem_cons_self
      obtain ⟨last, hlast, hmore⟩ := ih htoken.ne_parenthesis fun other hother =>
        hfront other (List.mem_cons_of_mem _ hother)
      refine ⟨last, hlast, ?_⟩
      rw [← hmore, List.cons_append]
      cases htoken with
      | word hword =>
          simp only [breaks, hbefore, false_and, if_false, startsClause_eq_false hword,
            Bool.and_false, Bool.false_eq_true]
      | comma => rfl
      | point => rfl

end Layout

/-! ## Ends of lines -/

/-- The codes of the blanks. -/
def blankCodes : List Nat := [
  9, 10, 11, 12, 13, 0x20, 0x85, 0xA0, 0x1680, 0x2000, 0x2001, 0x2002, 0x2003, 0x2004, 0x2005,
  0x2006, 0x2007, 0x2008, 0x2009, 0x200A, 0x2028, 0x2029, 0x202F, 0x205F, 0x3000]

theorem toNat_mem_blankCodes {c : Char} (h : isBlank c = true) : c.toNat ∈ blankCodes := by
  simp only [isBlank, Bool.or_eq_true, Bool.and_eq_true, decide_eq_true_eq, beq_iff_eq] at h
  simp only [blankCodes, List.mem_cons, List.not_mem_nil, or_false]
  omega

/-- A blank is no letter and no number. -/
theorem not_letterOrNumber_of_isBlank {c : Char} (h : isBlank c = true) :
    isLetterOrNumber c = false := by
  have hnone : ∀ code ∈ blankCodes, isLetterOrNumber (Char.ofNat code) = false := by
    decide +kernel
  have hcode := hnone _ (toNat_mem_blankCodes h)
  rwa [Char.ofNat_toNat] at hcode

/-- A blank is no letter and no digit. -/
theorem not_letter_of_isBlank {c : Char} (h : isBlank c = true) :
    (isLetter c || c.isDigit) = false := by
  obtain ⟨hletter, hnumber⟩ := Bool.or_eq_false_iff.mp (not_letterOrNumber_of_isBlank h)
  rw [hletter, Bool.false_or]
  by_contra hdigit
  rw [Bool.not_eq_false] at hdigit
  have hcode : c.toNat < 0x80 := Nat.lt_of_le_of_lt (toNat_le_of_isDigit hdigit) (by decide)
  rw [isNumber_of_isDigit hdigit hcode] at hnumber
  cases hnumber

/-- The text ends in a character that is no blank. -/
def EndsVisible (text : List Char) : Prop :=
  ∃ front c, text = front ++ [c] ∧ isBlank c = false

theorem EndsVisible.append {back : List Char} (h : EndsVisible back) (front : List Char) :
    EndsVisible (front ++ back) := by
  obtain ⟨init, c, rfl, hc⟩ := h
  exact ⟨front ++ init, c, (List.append_assoc _ _ _).symm, hc⟩

/-- Only the blanks at the end are trimmed. -/
theorem EndsVisible.trimEnd {text : List Char} (h : EndsVisible text) :
    trimEnd (text ++ [' ']) = text := by
  obtain ⟨front, c, rfl, hc⟩ := h
  have hspace : isBlank ' ' = true := by decide
  simp [Text.trimEnd, hspace, hc]

theorem separate_endsVisible
    {mark : List Token} {pieces : List (List Token)} (hne : pieces ≠ [])
    (h : ∀ piece ∈ pieces, EndsVisible (spell piece)) :
    EndsVisible (spell (separate mark pieces)) := by
  induction pieces with
  | nil => exact absurd rfl hne
  | cons piece pieces ih =>
      cases pieces with
      | nil => exact h piece List.mem_cons_self
      | cons other pieces =>
          have hmore := ih (List.cons_ne_nil _ _) fun p hp => h p (List.mem_cons_of_mem _ hp)
          have hpieces : separate mark (piece :: other :: pieces) =
            piece ++ (mark ++ separate mark (other :: pieces)) := rfl
          rw [hpieces, spell_append, spell_append]
          exact (hmore.append _).append _

end Relocate.Sql
