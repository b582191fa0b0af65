import Mathlib.Data.List.DropRight
import Mathlib.Data.List.Infix
import Relocate.Text.Blank

/-!
# Blanks at the ends of texts and lines

Trimming takes blanks away and nothing else: what is not blank stays in its order
(`visible_trim`), and so it does when a text is cut into lines
(`flatMap_visible_lines`).  Lines put together with line feeds are cut into the same
lines again (`splitLines_join`).
-/

namespace Relocate.Text

/-- The characters that are not blank. -/
def visible (text : List Char) : List Char :=
  text.filter fun c => !isBlank c

@[simp]
theorem visible_append (front back : List Char) :
    visible (front ++ back) = visible front ++ visible back :=
  List.filter_append ..

theorem visible_eq_nil_iff {text : List Char} :
    visible text = [] ↔ ∀ c ∈ text, isBlank c = true := by
  simp [visible, List.filter_eq_nil_iff]

/-! ## Trimming -/

theorem trimEnd_eq (text : List Char) : trimEnd text = text.rdropWhile isBlank := rfl

/-- A text is what is left of it and the blanks at its end. -/
theorem exists_eq_trimEnd_append (text : List Char) :
    ∃ gap, text = trimEnd text ++ gap ∧ ∀ c ∈ gap, isBlank c = true := by
  induction text using List.reverseRecOn with
  | nil => exact ⟨[], rfl, fun c hc => absurd hc List.not_mem_nil⟩
  | append_singleton front c ih =>
      rw [trimEnd_eq, List.rdropWhile_concat]
      by_cases hc : isBlank c = true
      · obtain ⟨gap, hfront, hgap⟩ := ih
        refine ⟨gap ++ [c], ?_, ?_⟩
        · rw [if_pos hc, ← trimEnd_eq, ← List.append_assoc, ← hfront]
        · intro d hd
          rcases List.mem_append.mp hd with hd | hd
          · exact hgap d hd
          · rwa [List.mem_singleton.mp hd]
      · exact ⟨[], by rw [if_neg hc, List.append_nil], fun d hd => absurd hd List.not_mem_nil⟩

/-- A text is the blanks at its start and what is left of it. -/
theorem exists_eq_append_trimStart (text : List Char) :
    ∃ gap, text = gap ++ trimStart text ∧ ∀ c ∈ gap, isBlank c = true :=
  ⟨text.takeWhile isBlank, List.takeWhile_append_dropWhile.symm, fun _ => List.mem_takeWhile_imp⟩

theorem trimEnd_concat {front : List Char} {c : Char} (hc : isBlank c = false) :
    trimEnd (front ++ [c]) = front ++ [c] := by
  rw [trimEnd_eq, List.rdropWhile_concat, if_neg (by simp [hc])]

theorem trimEnd_eq_nil_iff {text : List Char} :
    trimEnd text = [] ↔ ∀ c ∈ text, isBlank c = true :=
  List.rdropWhile_eq_nil_iff

/-- The blanks at the end of two texts are those of the second one, unless that is
blank. -/
theorem trimEnd_append (front back : List Char) :
    trimEnd (front ++ back) =
      if trimEnd back = [] then trimEnd front else front ++ trimEnd back := by
  induction back using List.reverseRecOn with
  | nil => simp [trimEnd]
  | append_singleton back c ih =>
      rw [← List.append_assoc, trimEnd_eq, trimEnd_eq, List.rdropWhile_concat,
        List.rdropWhile_concat]
      by_cases hc : isBlank c = true
      · rw [if_pos hc, if_pos hc]
        exact ih
      · rw [if_neg hc, if_neg hc, if_neg (by simp), List.append_assoc]

/-- A visible character stays, and trimming goes on behind it. -/
theorem trimEnd_cons_visible {c : Char} (hc : isBlank c = false) (rest : List Char) :
    trimEnd (c :: rest) = c :: trimEnd rest := by
  have hone : trimEnd [c] = [c] := @trimEnd_concat [] c hc
  rw [← List.singleton_append, trimEnd_append, hone]
  split
  · next hnil => rw [hnil]
  · rfl

theorem trim_cons_visible {c : Char} (hc : isBlank c = false) (rest : List Char) :
    trim (c :: rest) = c :: trimEnd rest := by
  rw [trim, trimStart, List.dropWhile_cons_of_neg (by simp [hc]), trimEnd_cons_visible hc]

/-- A blank stays when more than blanks stands behind it. -/
theorem trimEnd_cons_blank {c : Char} (hc : isBlank c = true) (rest : List Char) :
    trimEnd (c :: rest) = if trimEnd rest = [] then [] else c :: trimEnd rest := by
  have hone : trimEnd [c] = [] := trimEnd_eq_nil_iff.mpr (by simpa using hc)
  rw [← List.singleton_append, trimEnd_append, hone]
  rfl

theorem trim_cons_blank {c : Char} (hc : isBlank c = true) (rest : List Char) :
    trim (c :: rest) = trim rest := by
  rw [trim, trimStart, List.dropWhile_cons_of_pos hc]
  rfl

/-- Trimming around a visible character goes on before and behind it. -/
theorem trim_append_visible {c : Char} (hc : isBlank c = false) (front rest : List Char) :
    trim (front ++ c :: rest) = trimStart front ++ c :: trimEnd rest := by
  induction front with
  | nil => exact trim_cons_visible hc rest
  | cons d front ih =>
      by_cases hd : isBlank d = true
      · rw [List.cons_append, trim_cons_blank hd, ih, trimStart, trimStart,
          List.dropWhile_cons_of_pos hd]
      · rw [List.cons_append, trim_cons_visible (by simpa using hd), trimStart,
          List.dropWhile_cons_of_neg hd, trimEnd_append, trimEnd_cons_visible hc]
        rfl

theorem trimEnd_trimEnd (text : List Char) : trimEnd (trimEnd text) = trimEnd text :=
  List.rdropWhile_idempotent isBlank text

theorem trim_trimEnd (text : List Char) : trim (trimEnd text) = trim text := by
  induction text with
  | nil => rfl
  | cons c rest ih =>
      by_cases hc : isBlank c = true
      · rw [trimEnd_cons_blank hc, trim_cons_blank hc, ← ih]
        split
        · next hnil => rw [hnil]
        · exact trim_cons_blank hc _
      · have hvisible : isBlank c = false := by simpa using hc
        rw [trimEnd_cons_visible hvisible, trim_cons_visible hvisible,
          trim_cons_visible hvisible, trimEnd_trimEnd]

theorem isBlank_of_trimStart {c : Char} {rest : List Char}
    (h : trimStart (c :: rest) = c :: rest) : isBlank c = false := by
  by_contra hblank
  rw [Bool.not_eq_false] at hblank
  rw [trimStart, List.dropWhile_cons_of_pos hblank] at h
  have hlength := (List.dropWhile_suffix isBlank (l := rest)).length_le
  rw [h, List.length_cons] at hlength
  omega

theorem trimStart_trim (text : List Char) : trimStart (trim text) = trim text := by
  cases hstart : trimStart text with
  | nil => rw [trim, hstart]; rfl
  | cons c rest =>
      have hc : isBlank c = false := by
        have hagain : trimStart (trimStart text) = trimStart text :=
          List.dropWhile_idempotent isBlank text
        rw [hstart] at hagain
        exact isBlank_of_trimStart hagain
      have hbegin : trim text <+: c :: rest := hstart ▸ List.rdropWhile_prefix isBlank _
      cases htrim : trim text with
      | nil => rfl
      | cons d more =>
          rw [htrim] at hbegin
          obtain ⟨rfl, -⟩ := List.cons_prefix_cons.mp hbegin
          rw [trimStart, List.dropWhile_cons_of_neg (by simp [hc])]

theorem visible_trimEnd (text : List Char) : visible (trimEnd text) = visible text := by
  obtain ⟨gap, htext, hgap⟩ := exists_eq_trimEnd_append text
  conv_rhs => rw [htext, visible_append, visible_eq_nil_iff.mpr hgap, List.append_nil]

theorem visible_trimStart (text : List Char) : visible (trimStart text) = visible text := by
  obtain ⟨gap, htext, hgap⟩ := exists_eq_append_trimStart text
  conv_rhs => rw [htext, visible_append, visible_eq_nil_iff.mpr hgap, List.nil_append]

/-- Trimming takes only blanks away. -/
theorem visible_trim (text : List Char) : visible (trim text) = visible text := by
  rw [trim, visible_trimEnd, visible_trimStart]

theorem trim_within (text : List Char) : trim text <:+: text :=
  (List.rdropWhile_prefix isBlank (trimStart text)).isInfix.trans
    (List.dropWhile_suffix isBlank).isInfix

/-! ## Lines -/

theorem splitLines_ne_nil (text : List Char) : splitLines text ≠ [] := by
  cases text with
  | nil => exact List.cons_ne_nil _ _
  | cons c rest =>
      rw [splitLines]
      split
      · exact List.cons_ne_nil _ _
      · split <;> exact List.cons_ne_nil _ _

theorem splitLines_newline (rest : List Char) :
    splitLines ('\n' :: rest) = [] :: splitLines rest := by
  rw [splitLines, if_pos rfl]

/-- A character that ends no line belongs to the first line. -/
theorem splitLines_cons {c : Char} (hc : c ≠ '\n') {rest line : List Char}
    {others : List (List Char)} (hrest : splitLines rest = line :: others) :
    splitLines (c :: rest) = (c :: line) :: others := by
  rw [splitLines, if_neg hc, hrest]

/-- The lines of two texts with a line feed between them. -/
theorem splitLines_append_newline (front back : List Char) :
    splitLines (front ++ '\n' :: back) = splitLines front ++ splitLines back := by
  induction front with
  | nil => exact splitLines_newline back
  | cons c front ih =>
      rw [List.cons_append]
      by_cases hc : c = '\n'
      · rw [hc, splitLines_newline, splitLines_newline, ih, List.cons_append]
      · obtain ⟨line, others, hfront⟩ := List.exists_cons_of_ne_nil (splitLines_ne_nil front)
        rw [hfront, List.cons_append] at ih
        rw [splitLines_cons hc ih, splitLines_cons hc hfront, List.cons_append]

theorem splitLines_of_not_mem {text : List Char} (h : '\n' ∉ text) : splitLines text = [text] := by
  induction text with
  | nil => rfl
  | cons c rest ih =>
      have hc : c ≠ '\n' := fun heq => h (heq ▸ List.mem_cons_self)
      exact splitLines_cons hc (ih fun hmem => h (List.mem_cons_of_mem c hmem))

theorem not_mem_of_mem_splitLines {text line : List Char} (h : line ∈ splitLines text) :
    '\n' ∉ line := by
  induction text generalizing line with
  | nil =>
      rw [List.mem_singleton.mp h]
      exact List.not_mem_nil
  | cons c rest ih =>
      by_cases hc : c = '\n'
      · rw [hc, splitLines_newline] at h
        rcases List.mem_cons.mp h with rfl | hrest
        · exact List.not_mem_nil
        · exact ih hrest
      · obtain ⟨first, others, hrest⟩ := List.exists_cons_of_ne_nil (splitLines_ne_nil rest)
        rw [splitLines_cons hc hrest] at h
        rw [hrest] at ih
        rcases List.mem_cons.mp h with rfl | hother
        · intro hmem
          rcases List.mem_cons.mp hmem with heq | hfirst
          · exact hc heq.symm
          · exact ih List.mem_cons_self hfirst
        · exact ih (List.mem_cons_of_mem first hother)

theorem flatMap_visible_splitLines (text : List Char) :
    (splitLines text).flatMap visible = visible text := by
  induction text with
  | nil => rfl
  | cons c rest ih =>
      by_cases hc : c = '\n'
      · rw [hc, splitLines_newline, List.flatMap_cons, ih]
        rfl
      · obtain ⟨line, others, hrest⟩ := List.exists_cons_of_ne_nil (splitLines_ne_nil rest)
        rw [hrest, List.flatMap_cons] at ih
        rw [splitLines_cons hc hrest, List.flatMap_cons, ← List.singleton_append,
          visible_append, List.append_assoc, ih, ← visible_append, List.singleton_append]

theorem dropCarriageReturn_isFront (line : List Char) : dropCarriageReturn line <+: line := by
  unfold dropCarriageReturn
  split
  · next front heq =>
      have hline : line = front.reverse ++ ['\r'] := by
        rw [← List.reverse_cons, ← heq, List.reverse_reverse]
      exact ⟨['\r'], hline.symm⟩
  · exact List.prefix_rfl

theorem visible_dropCarriageReturn (line : List Char) :
    visible (dropCarriageReturn line) = visible line := by
  unfold dropCarriageReturn
  split
  · next front heq =>
      have hline : line = front.reverse ++ ['\r'] := by
        rw [← List.reverse_cons, ← heq, List.reverse_reverse]
      have hreturn : visible ['\r'] = [] := by decide
      rw [hline, visible_append, hreturn, List.append_nil]
  · rfl

/-- The lines are the pieces between the line feeds, of which the last one may be
missing when it is empty. -/
theorem lines_cases (text : List Char) :
    ∃ front last, splitLines text = front ++ [last] ∧
      ((last = [] ∧ lines text = front.map dropCarriageReturn) ∨
        (last ≠ [] ∧ lines text = front.map dropCarriageReturn ++ [last])) := by
  have hsplit := List.dropLast_append_getLast (splitLines_ne_nil text)
  refine ⟨_, _, hsplit.symm, ?_⟩
  generalize (splitLines text).getLast _ = last at hsplit
  have hlast : (splitLines text).getLast? = some last := by
    rw [← hsplit, List.getLast?_concat]
  simp only [lines, hlast]
  cases last with
  | nil => exact .inl ⟨rfl, rfl⟩
  | cons c rest => exact .inr ⟨List.cons_ne_nil c rest, rfl⟩

/-- Cutting a text into lines takes only blanks away. -/
theorem flatMap_visible_lines (text : List Char) :
    (lines text).flatMap visible = visible text := by
  have hmap : ∀ pieces : List (List Char),
      (pieces.map dropCarriageReturn).flatMap visible = pieces.flatMap visible := by
    intro pieces
    rw [List.flatMap_map]
    exact List.flatMap_congr fun line _ => visible_dropCarriageReturn line
  rw [← flatMap_visible_splitLines]
  obtain ⟨front, last, hsplit, ⟨rfl, hlines⟩ | ⟨-, hlines⟩⟩ := lines_cases text
  · rw [hsplit, hlines, hmap, List.flatMap_append]
    exact (List.append_nil _).symm
  · rw [hsplit, hlines, List.flatMap_append, List.flatMap_append, hmap]

theorem not_mem_of_mem_lines {text line : List Char} (h : line ∈ lines text) : '\n' ∉ line := by
  have hall : ∀ piece ∈ splitLines text, '\n' ∉ piece := fun _ => not_mem_of_mem_splitLines
  have hmap : ∀ front : List (List Char), (∀ piece ∈ front, piece ∈ splitLines text) →
      ∀ line ∈ front.map dropCarriageReturn, '\n' ∉ line := by
    intro front hfront line hline hmem
    obtain ⟨piece, hpiece, rfl⟩ := List.mem_map.mp hline
    exact hall piece (hfront piece hpiece) ((dropCarriageReturn_isFront piece).subset hmem)
  obtain ⟨front, last, hsplit, hlines⟩ := lines_cases text
  have hfront : ∀ piece ∈ front, piece ∈ splitLines text := by
    intro piece hpiece
    rw [hsplit]
    exact List.mem_append_left _ hpiece
  rcases hlines with ⟨-, hlines⟩ | ⟨-, hlines⟩
  · exact hmap front hfront line (hlines ▸ h)
  · rw [hlines] at h
    rcases List.mem_append.mp h with h | h
    · exact hmap front hfront line h
    · rw [List.mem_singleton.mp h]
      exact hall last (hsplit ▸ List.mem_append_right _ List.mem_cons_self)

/-! ## Lines put together -/

theorem toList_join (separator : String) (texts : List String) :
    (join separator texts).toList = separator.toList.intercalate (texts.map String.toList) := by
  induction texts with
  | nil => rfl
  | cons text texts ih =>
      cases texts with
      | nil => simp [join]
      | cons other texts =>
          simp only [join, String.toList_append, ih, List.map_cons, List.intercalate_cons_cons]

theorem toList_joinLines (pieces : List (List Char)) :
    (join "\n" (pieces.map String.ofList)).toList = ['\n'].intercalate pieces := by
  have hlist : String.toList ∘ String.ofList = id := by
    funext piece
    exact String.toList_ofList
  rw [toList_join, List.map_map, hlist, List.map_id]
  rfl

theorem visible_joinLines (pieces : List (List Char)) :
    visible (['\n'].intercalate pieces) = pieces.flatMap visible := by
  have hnewline : visible ['\n'] = [] := by decide
  induction pieces with
  | nil => rfl
  | cons piece pieces ih =>
      cases pieces with
      | nil => simp
      | cons other pieces =>
          rw [List.intercalate_cons_cons, visible_append, visible_append, hnewline, ih,
            List.append_nil]
          exact List.flatMap_cons.symm

/-- Lines put together with line feeds are cut into the same lines. -/
theorem splitLines_join
    {pieces : List (List Char)} (hne : pieces ≠ []) (h : ∀ piece ∈ pieces, '\n' ∉ piece) :
    splitLines (['\n'].intercalate pieces) = pieces := by
  induction pieces with
  | nil => exact absurd rfl hne
  | cons piece pieces ih =>
      have hpiece := splitLines_of_not_mem (h piece List.mem_cons_self)
      cases pieces with
      | nil => rw [List.intercalate_singleton, hpiece]
      | cons other pieces =>
          have hmore := ih (List.cons_ne_nil _ _) fun p hp => h p (List.mem_cons_of_mem _ hp)
          rw [List.intercalate_cons_cons, List.append_assoc, List.singleton_append,
            splitLines_append_newline, hpiece, hmore, List.singleton_append]

end Relocate.Text
