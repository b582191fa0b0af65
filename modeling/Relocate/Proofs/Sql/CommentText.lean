import Mathlib.Data.List.Forall2
import Relocate.Proofs.Text.Trimming
import Relocate.Sql.Comments

/-!
# Normalizing comments loses no text

Comment marks are made of dashes, slashes and stars.  What a text holds besides these
and besides blanks is its `content`, and `normalizeComments` keeps it in its order.
The lines that it makes open no block comment (`OpensNoBlock`), so a reader of them
needs `--` comments only.

The cutting of a line at block comments is told how many marks it may look for.
`CutLoop` is the loop without such a bound; it stops on every line, after at most one
round more than the line has room for marks, and the bound is never reached
(`exists_cutLoop`).
-/

namespace Relocate.Sql

open Text

namespace Comments

/-! ## The first mark of a text -/

theorem prefix_cons_cons {a b c d : Char} {rest : List Char} :
    [a, b] <+: c :: d :: rest ↔ a = c ∧ b = d := by
  simp [List.cons_prefix_cons]

theorem splitAtMark?_cons {a b c : Char} {rest : List Char} (h : ¬ [a, b] <+: c :: rest) :
    splitAtMark? a b (c :: rest) =
      (splitAtMark? a b rest).map fun (front, back) => (c :: front, back) := by
  cases rest with
  | nil => rfl
  | cons d rest =>
      rw [prefix_cons_cons] at h
      rw [splitAtMark?, if_neg fun heq => h ⟨heq.1.symm, heq.2.symm⟩]

theorem splitAtMark?_here (a b : Char) (rest : List Char) :
    splitAtMark? a b (a :: b :: rest) = some ([], rest) := by
  rw [splitAtMark?, if_pos ⟨rfl, rfl⟩]

section

variable {a b : Char} {text front back : List Char}

/-- Whether a mark begins at a character is told by the next one. -/
theorem prefix_before_iff {c : Char} (front back : List Char) :
    [a, b] <+: c :: (front ++ a :: back) ↔ [a, b] <+: c :: (front ++ [a]) := by
  cases front with
  | nil => exact prefix_cons_cons.trans prefix_cons_cons.symm
  | cons d front => exact prefix_cons_cons.trans prefix_cons_cons.symm

/-- A text is cut at the first of its marks. -/
theorem eq_of_splitAtMark? (h : splitAtMark? a b text = some (front, back)) :
    text = front ++ a :: b :: back ∧ ¬ [a, b] <:+: front ++ [a] := by
  induction text generalizing front with
  | nil => cases h
  | cons c rest ih =>
      by_cases hmark : [a, b] <+: c :: rest
      · obtain ⟨more, hmore⟩ := hmark
        rw [← hmore] at h
        cases (splitAtMark?_here a b more).symm.trans h
        refine ⟨hmore.symm, fun hmem => ?_⟩
        have hlength := hmem.length_le
        simp at hlength
      · rw [splitAtMark?_cons hmark] at h
        obtain ⟨⟨init, last⟩, hrest, heq⟩ := Option.map_eq_some_iff.mp h
        cases heq
        obtain ⟨rfl, hnone⟩ := ih hrest
        refine ⟨rfl, ?_⟩
        rw [List.cons_append, List.infix_cons_iff, not_or]
        exact ⟨mt (prefix_before_iff init _).mpr hmark, hnone⟩

theorem splitAtMark?_eq_none_iff : splitAtMark? a b text = none ↔ ¬ [a, b] <:+: text := by
  induction text with
  | nil => simp [splitAtMark?]
  | cons c rest ih =>
      cases rest with
      | nil => simp [splitAtMark?, List.infix_cons_iff]
      | cons d rest =>
          rw [splitAtMark?, List.infix_cons_iff]
          split
          · next hmark => simp [hmark]
          · next hmark =>
              rw [Option.map_eq_none_iff, ih, List.cons_prefix_cons, List.cons_prefix_cons]
              have hnot : ¬ (a = c ∧ b = d ∧ [] <+: rest) := fun heq =>
                hmark ⟨heq.1.symm, heq.2.1.symm⟩
              simp only [hnot, false_or]

/-- The first mark of a text is where a mark stands with none before it. -/
theorem splitAtMark?_eq_some (hnone : ¬ [a, b] <:+: front ++ [a]) :
    splitAtMark? a b (front ++ a :: b :: back) = some (front, back) := by
  induction front with
  | nil => exact splitAtMark?_here a b back
  | cons c front ih =>
      rw [List.cons_append, List.infix_cons_iff, not_or] at hnone
      rw [List.cons_append, splitAtMark?_cons (mt (prefix_before_iff front _).mp hnone.1),
        ih hnone.2]
      rfl

/-- Blanks around a text stand around what is found before and behind its first mark. -/
theorem splitAtMark?_trim (ha : isBlank a = false) (hb : isBlank b = false)
    (text : List Char) :
    splitAtMark? a b (trim text) =
      (splitAtMark? a b text).map fun found => (trimStart found.1, trimEnd found.2) := by
  cases hsplit : splitAtMark? a b text with
  | none =>
      rw [Option.map_none, splitAtMark?_eq_none_iff]
      exact fun hmark => splitAtMark?_eq_none_iff.mp hsplit (hmark.trans (trim_within text))
  | some found =>
      obtain ⟨rfl, hnone⟩ := eq_of_splitAtMark? hsplit
      rw [trim_append_visible ha, trimEnd_cons_visible hb, Option.map_some]
      have hsuffix : trimStart found.1 ++ [a] <:+ found.1 ++ [a] := by
        obtain ⟨gap, hgap, -⟩ := exists_eq_append_trimStart found.1
        exact ⟨gap, by rw [← List.append_assoc, ← hgap]⟩
      exact splitAtMark?_eq_some fun hmark => hnone (hmark.trans hsuffix.isInfix)

theorem exists_splitAtMark? (h : [a, b] <:+: text) :
    ∃ front back, splitAtMark? a b text = some (front, back) := by
  cases hsplit : splitAtMark? a b text with
  | none => exact absurd h (splitAtMark?_eq_none_iff.mp hsplit)
  | some found => exact ⟨found.1, found.2, rfl⟩

end

/-! ## What a comment mark is made of -/

/-- A character of a comment mark. -/
def isMark (c : Char) : Bool :=
  c == '-' || c == '/' || c == '*'

/-- What a text holds besides blanks and the characters of comment marks. -/
def content (text : List Char) : List Char :=
  (visible text).filter fun c => !isMark c

@[simp]
theorem content_append (front back : List Char) :
    content (front ++ back) = content front ++ content back := by
  rw [content, visible_append, List.filter_append]
  rfl

theorem content_cons (c : Char) (rest : List Char) :
    content (c :: rest) = content [c] ++ content rest :=
  content_append [c] rest

theorem content_trim (text : List Char) : content (trim text) = content text := by
  rw [content, visible_trim, content]

theorem content_eq_of_split {a b : Char} {text front back : List Char}
    (ha : isMark a = true) (hb : isMark b = true)
    (h : splitAtMark? a b text = some (front, back)) :
    content text = content front ++ content back := by
  have hmark : ∀ c, isMark c = true → content [c] = [] := by
    intro c hc
    unfold content visible
    rw [List.filter_filter, List.filter_eq_nil_iff]
    intro d hd
    simp [List.mem_singleton.mp hd, hc]
  rw [(eq_of_splitAtMark? h).1, content_append, content_cons a, content_cons b, hmark a ha,
    hmark b hb, List.nil_append, List.nil_append]

/-! ## The loop over the block comments of a line -/

/-- What stands on a piece of a line. -/
def Piece.text : Piece → List Char
  | code text | comment text => text

/-- The piece that is read inside or outside a block comment. -/
def Piece.of (inside : Bool) (text : List Char) : Piece :=
  if inside then comment text else code text

/-- A line up to the mark that ends a block comment or opens one. -/
def splitAtBlock? (inside : Bool) (text : List Char) : Option (List Char × List Char) :=
  if inside then splitAtMark? '*' '/' text else splitAtMark? '/' '*' text

/-- The loop without a bound.  It stops after so many rounds: in a round that finds no
mark, or behind a mark with nothing but blanks after it. -/
inductive CutLoop : Nat → Bool → List Char → List Piece → Bool → Prop
  | last {inside : Bool} {rest : List Char} (hnone : splitAtBlock? inside rest = none) :
      CutLoop 1 inside rest [.of inside rest] inside
  | emptied {inside : Bool} {rest front back : List Char}
      (hsplit : splitAtBlock? inside rest = some (front, back)) (hback : trim back = []) :
      CutLoop 1 inside rest [.of inside front] (!inside)
  | again {rounds : Nat} {inside after : Bool} {rest front back : List Char}
      {found : List Piece} (hsplit : splitAtBlock? inside rest = some (front, back))
      (hback : trim back ≠ []) (hmore : CutLoop rounds (!inside) (trim back) found after) :
      CutLoop (rounds + 1) inside rest (.of inside front :: found) after

theorem pieces_of_none {inside : Bool} {rest : List Char}
    (h : splitAtBlock? inside rest = none) (fuel : Nat) :
    pieces (fuel + 1) inside rest = ([.of inside rest], inside) := by
  cases inside with
  | true =>
      have hsplit : splitAtMark? '*' '/' rest = none := h
      simp only [pieces, hsplit]
      rfl
  | false =>
      have hsplit : splitAtMark? '/' '*' rest = none := h
      simp only [pieces, hsplit]
      rfl

theorem pieces_of_split {inside : Bool} {rest front back : List Char}
    (h : splitAtBlock? inside rest = some (front, back)) (fuel : Nat) :
    pieces (fuel + 1) inside rest =
      (.of inside front :: (pieces fuel (!inside) (trim back)).1,
        (pieces fuel (!inside) (trim back)).2) := by
  cases inside with
  | true =>
      have hsplit : splitAtMark? '*' '/' rest = some (front, back) := h
      simp only [pieces, hsplit]
      rfl
  | false =>
      have hsplit : splitAtMark? '/' '*' rest = some (front, back) := h
      simp only [pieces, hsplit]
      rfl

theorem eq_of_splitAtBlock? {inside : Bool} {rest front back : List Char}
    (h : splitAtBlock? inside rest = some (front, back)) :
    ∃ a b, isMark a = true ∧ isMark b = true ∧ splitAtMark? a b rest = some (front, back) := by
  cases inside with
  | true => exact ⟨'*', '/', rfl, rfl, h⟩
  | false => exact ⟨'/', '*', rfl, rfl, h⟩

/-- What is left behind a mark is shorter by the mark at least. -/
theorem length_trim_of_split {inside : Bool} {rest front back : List Char}
    (h : splitAtBlock? inside rest = some (front, back)) :
    (trim back).length + 2 ≤ rest.length := by
  obtain ⟨a, b, -, -, hsplit⟩ := eq_of_splitAtBlock? h
  have hlength := (trim_within back).length_le
  rw [(eq_of_splitAtMark? hsplit).1, List.length_append, List.length_cons, List.length_cons]
  omega

/-- Each round but the last one takes a mark from the text. -/
theorem CutLoop.rounds_le
    {rounds : Nat} {inside after : Bool} {rest : List Char} {found : List Piece}
    (h : CutLoop rounds inside rest found after) : rounds ≤ rest.length / 2 + 1 := by
  induction h with
  | last _ | emptied _ _ => exact Nat.le_add_left 1 _
  | again hsplit _ _ ih =>
      have hshorter := length_trim_of_split hsplit
      omega

/-- The loop stops on every text. -/
theorem exists_cutLoop (inside : Bool) (rest : List Char) :
    ∃ rounds found after, CutLoop rounds inside rest found after := by
  induction hlength : rest.length using Nat.strongRecOn generalizing inside rest with
  | ind length ih =>
      cases hsplit : splitAtBlock? inside rest with
      | none => exact ⟨1, _, _, .last hsplit⟩
      | some parts =>
          obtain ⟨front, back⟩ := parts
          by_cases hback : trim back = []
          · exact ⟨1, _, _, .emptied hsplit hback⟩
          · have hshorter := length_trim_of_split hsplit
            obtain ⟨rounds, found, after, hmore⟩ :=
              ih (trim back).length (by omega) (!inside) (trim back) rfl
            exact ⟨rounds + 1, _, _, .again hsplit hback hmore⟩

/-- A bound that is as large as the number of rounds makes no difference to the lines. -/
theorem CutLoop.pieces {rounds : Nat} {inside after : Bool} {rest : List Char}
    {found : List Piece} (h : CutLoop rounds inside rest found after) {fuel : Nat}
    (hfuel : rounds ≤ fuel) :
    ((Comments.pieces fuel inside rest).1.filterMap Piece.line?,
      (Comments.pieces fuel inside rest).2) = (found.filterMap Piece.line?, after) := by
  induction h generalizing fuel with
  | last hnone =>
      obtain ⟨fuel, rfl⟩ := Nat.exists_eq_add_of_le' hfuel
      rw [pieces_of_none hnone]
  | @emptied inside rest front back hsplit hback =>
      obtain ⟨fuel, rfl⟩ := Nat.exists_eq_add_of_le' hfuel
      rw [pieces_of_split hsplit, hback]
      -- Whether there is a round left for the empty rest or not, it gives no line.
      have hempty : ((Comments.pieces fuel (!inside) []).1.filterMap Piece.line?,
          (Comments.pieces fuel (!inside) []).2) = ([], !inside) := by
        cases fuel with
        | zero => rfl
        | succ fuel => cases inside <;> rfl
      simp only [Prod.mk.injEq] at hempty ⊢
      refine ⟨?_, hempty.2⟩
      rw [List.filterMap_cons, List.filterMap_cons, hempty.1]
      rfl
  | again hsplit hback hmore ih =>
      obtain ⟨more, rfl⟩ := Nat.exists_eq_add_of_le' hfuel
      have hrest := ih (Nat.le_add_left _ more)
      rw [← Nat.add_assoc, pieces_of_split hsplit]
      simp only [Prod.mk.injEq] at hrest ⊢
      refine ⟨?_, hrest.2⟩
      rw [List.filterMap_cons, List.filterMap_cons, hrest.1]

/-- The lines of a cut line are those that the loop finds. -/
theorem CutLoop.cutLine
    {rounds : Nat} {inside after : Bool} {line : List Char} {found : List Piece}
    (h : CutLoop rounds inside line found after) :
    Comments.cutLine inside line = (found.filterMap Piece.line?, after) := by
  cases hlength : line.length with
  | zero =>
      obtain rfl := List.eq_nil_of_length_eq_zero hlength
      cases h with
      | last hnone => cases inside <;> rfl
      | emptied hsplit _ | again hsplit _ _ => cases inside <;> cases hsplit
  | succ length =>
      have hrounds := h.rounds_le
      have hfuel : rounds ≤ line.length := by omega
      exact h.pieces hfuel

/-! ## Lines that open no block comment -/

/-- Every opening of a block comment on the line stands behind a `--`. -/
def OpensNoBlock (line : List Char) : Prop :=
  ∀ front back, line = front ++ '/' :: '*' :: back → ['-', '-'] <:+: front

/-- The line holds the text of a comment behind its `--`. -/
theorem opensNoBlock_dashes (text : List Char) : OpensNoBlock ('-' :: '-' :: text) := by
  intro front back heq
  match front, heq with
  | [], heq => cases heq
  | [_], heq => cases heq
  | c :: d :: front, heq =>
      cases heq
      exact (List.prefix_append ['-', '-'] front).isInfix

theorem opensNoBlock_of_no_opener {line : List Char} (h : ¬ ['/', '*'] <:+: line) :
    OpensNoBlock line := by
  rintro front back rfl
  exact absurd ⟨front, back, by simp⟩ h

theorem opensNoBlock_of_opensBlock {line : List Char} (h : opensBlock line = false) :
    OpensNoBlock line := by
  rintro front back rfl
  have hmark : ['/', '*'] <:+: front ++ '/' :: '*' :: back := ⟨front, back, by simp⟩
  obtain ⟨first, rest, hsplit⟩ := exists_splitAtMark? hmark
  rw [opensBlock, hsplit] at h
  simp only [Option.isNone_eq_false_iff] at h
  have hdashes : ['-', '-'] <:+: first := by
    by_contra hnone
    rw [splitAtMark?_eq_none_iff.mpr hnone] at h
    cases h
  obtain ⟨heq, hnone⟩ := eq_of_splitAtMark? hsplit
  -- The first opening stands no further right than this one.
  rcases List.append_eq_append_iff.mp heq with ⟨more, hfirst, hrest⟩ | ⟨more, hfront, -⟩
  · cases more with
    | nil => rwa [hfirst, List.append_nil] at hdashes
    | cons c more =>
        obtain ⟨hc, htail⟩ := List.cons.inj hrest
        subst hc
        cases more with
        | nil => cases htail
        | cons d more =>
            obtain ⟨hd, -⟩ := List.cons.inj htail
            subst hd
            exact absurd ⟨front, more ++ ['/'], by simp [hfirst]⟩ hnone
  · exact hdashes.trans ⟨[], more, hfront.symm⟩

theorem forall₂_replaceSlashes (line : List Char) :
    List.Forall₂ (fun c d => d = c ∨ c = '/' ∧ d = '-') line (replaceSlashes line) := by
  fun_induction replaceSlashes line with
  | case1 rest ih => exact .cons (.inl rfl) (.cons (.inr ⟨rfl, rfl⟩) (.cons (.inr ⟨rfl, rfl⟩) ih))
  | case2 c rest _ ih => exact .cons (.inl rfl) ih
  | case3 => exact .nil

/-- Dashes stay where slashes become dashes. -/
theorem dashes_infix_of_forall₂ {front result : List Char}
    (h : List.Forall₂ (fun c d => d = c ∨ c = '/' ∧ d = '-') front result)
    (hdashes : ['-', '-'] <:+: front) : ['-', '-'] <:+: result := by
  induction h with
  | nil => exact hdashes
  | @cons c d front result hfirst hrest ih =>
      rcases List.infix_cons_iff.mp hdashes with hbegin | hmem
      · obtain ⟨more, hmore⟩ := hbegin
        cases hmore
        obtain ⟨e, result, hsecond, -, rfl⟩ := List.forall₂_cons_left_iff.mp hrest
        have hd : d = '-' := hfirst.resolve_right fun heq => absurd heq.1 (by decide)
        have he : e = '-' := hsecond.resolve_right fun heq => absurd heq.1 (by decide)
        exact ⟨[], result, by rw [hd, he]; rfl⟩
      · exact (ih hmem).trans (List.infix_cons List.infix_rfl)

theorem opensNoBlock_replaceSlashes {line : List Char} (h : OpensNoBlock line) :
    OpensNoBlock (replaceSlashes line) := by
  intro front back heq
  have hall := forall₂_replaceSlashes line
  rw [heq] at hall
  have hfront := List.forall₂_take_append _ _ _ hall
  have hback := List.forall₂_drop_append _ _ _ hall
  obtain ⟨c, rest, hc, hrest, hdrop⟩ := List.forall₂_cons_right_iff.mp hback
  obtain ⟨d, rest, hd, -, rfl⟩ := List.forall₂_cons_right_iff.mp hrest
  obtain rfl : c = '/' := by
    rcases hc with hc | hc
    · exact hc.symm
    · exact hc.1
  obtain rfl : d = '*' := hd.elim Eq.symm fun heq => absurd heq.2 (by decide)
  have hline : line = line.take front.length ++ '/' :: '*' :: rest := by
    rw [← hdrop, List.take_append_drop]
  exact dashes_infix_of_forall₂ hfront (h _ _ hline)

/-! ## What becomes of a line -/

theorem text_of (inside : Bool) (text : List Char) : (Piece.of inside text).text = text := by
  cases inside <;> rfl

/-- The pieces of a line hold its content. -/
theorem CutLoop.content
    {rounds : Nat} {inside after : Bool} {rest : List Char} {found : List Piece}
    (h : CutLoop rounds inside rest found after) :
    found.flatMap (fun piece => Comments.content piece.text) = Comments.content rest := by
  induction h with
  | last _ => rw [List.flatMap_singleton, text_of]
  | @emptied inside rest front back hsplit hback =>
      obtain ⟨a, b, ha, hb, hmark⟩ := eq_of_splitAtBlock? hsplit
      rw [List.flatMap_singleton, text_of, content_eq_of_split ha hb hmark,
        ← content_trim back, hback]
      exact (List.append_nil _).symm
  | again hsplit _ _ ih =>
      obtain ⟨a, b, ha, hb, hmark⟩ := eq_of_splitAtBlock? hsplit
      rw [List.flatMap_cons, text_of, ih, content_trim, content_eq_of_split ha hb hmark]

/-- A piece is a part of the line, and no mark in it opens a block comment when it is code. -/
def Piece.IsPart (piece : Piece) (line : List Char) : Prop :=
  piece.text <:+: line ∧ ∀ text, piece = .code text → ¬ ['/', '*'] <:+: text

theorem isPart_of
    {inside : Bool} {line text : List Char} (hpart : text <:+: line)
    (hnone : inside = false → ¬ ['/', '*'] <:+: text) : (Piece.of inside text).IsPart line := by
  refine ⟨by rwa [text_of], ?_⟩
  intro code heq
  cases inside with
  | true => cases heq
  | false =>
      cases heq
      exact hnone rfl

theorem parts_of_splitAtBlock?
    {inside : Bool} {line front back : List Char}
    (hsplit : splitAtBlock? inside line = some (front, back)) :
    front <:+: line ∧ back <:+: line ∧ (inside = false → ¬ ['/', '*'] <:+: front) := by
  obtain ⟨a, b, -, -, hmark⟩ := eq_of_splitAtBlock? hsplit
  obtain ⟨heq, -⟩ := eq_of_splitAtMark? hmark
  refine ⟨⟨[], a :: b :: back, heq.symm⟩, ⟨front ++ [a, b], [], by simp [heq]⟩, ?_⟩
  rintro rfl hmem
  obtain ⟨-, hnone⟩ := eq_of_splitAtMark? (show splitAtMark? '/' '*' line = _ from hsplit)
  exact hnone (hmem.trans (List.prefix_append front ['/']).isInfix)

theorem CutLoop.part
    {rounds : Nat} {inside after : Bool} {rest : List Char} {found : List Piece}
    (h : CutLoop rounds inside rest found after) : ∀ piece ∈ found, piece.IsPart rest := by
  induction h with
  | last hnone =>
      intro piece hmem
      rw [List.mem_singleton.mp hmem]
      refine isPart_of List.infix_rfl ?_
      rintro rfl
      exact splitAtMark?_eq_none_iff.mp hnone
  | emptied hsplit _ =>
      intro piece hmem
      obtain ⟨hpart, -, hcode⟩ := parts_of_splitAtBlock? hsplit
      rw [List.mem_singleton.mp hmem]
      exact isPart_of hpart hcode
  | again hsplit _ _ ih =>
      intro piece hmem
      obtain ⟨hpart, hback, hcode⟩ := parts_of_splitAtBlock? hsplit
      rcases List.mem_cons.mp hmem with rfl | hmore
      · exact isPart_of hpart hcode
      · obtain ⟨htext, hlater⟩ := ih piece hmore
        exact ⟨htext.trans ((trim_within _).trans hback), hlater⟩

/-- The output line of a piece is blank, the code, or the comment behind its dashes. -/
theorem Piece.line?_eq_some {piece : Piece} {line : List Char} (h : piece.line? = some line) :
    piece = .code piece.text ∧ line = trim piece.text ∨
      line = '-' :: '-' :: ' ' :: trim piece.text := by
  cases piece with
  | code text =>
      rw [Piece.line?] at h
      split at h
      · cases h
      · cases h
        exact .inl ⟨rfl, rfl⟩
  | comment text =>
      rw [Piece.line?] at h
      split at h
      · cases h
      · cases h
        exact .inr rfl

theorem content_dashes (text : List Char) : content ('-' :: '-' :: text) = content text :=
  content_append ['-', '-'] text

theorem content_line? (piece : Piece) :
    piece.line?.toList.flatMap content = content piece.text := by
  have hblank : ∀ text : List Char, (trim text).isEmpty = true → content text = [] := by
    intro text hempty
    rw [← content_trim, List.isEmpty_iff.mp hempty]
    rfl
  cases hline : piece.line? with
  | none =>
      cases piece <;>
      · rw [Piece.line?] at hline
        split at hline
        · next hempty => exact (hblank _ hempty).symm
        · cases hline
  | some line =>
      rw [Option.toList_some, List.flatMap_singleton]
      rcases Piece.line?_eq_some hline with ⟨-, rfl⟩ | rfl
      · exact content_trim _
      · rw [content_dashes, content_cons, content_trim]
        rfl

/-- What is made of a line is a comment for the whole of it, the lines of its pieces, or
the line with dashes for slashes. -/
theorem normalizeLine_cases (inside : Bool) (line : List Char) :
    (∃ text, inside = false ∧ lineComment? line = some text ∧
      normalizeLine inside line = ([commentLine text], false)) ∨
    (∃ rounds found after, CutLoop rounds inside line found after ∧
      (inside = false → lineComment? line = none ∧ opensBlock line = true) ∧
      normalizeLine inside line = (found.filterMap Piece.line?, after)) ∨
    (inside = false ∧ lineComment? line = none ∧ opensBlock line = false ∧
      normalizeLine inside line = ([replaceSlashes line], false)) := by
  obtain ⟨rounds, found, after, hloop⟩ := exists_cutLoop inside line
  have hcut := hloop.cutLine
  cases inside with
  | true =>
      refine .inr (.inl ⟨rounds, found, after, hloop, nofun, ?_⟩)
      rw [normalizeLine, if_pos rfl, hcut]
  | false =>
      cases hcomment : lineComment? line with
      | some text =>
          refine .inl ⟨text, rfl, rfl, ?_⟩
          simp only [normalizeLine, hcomment, Bool.false_eq_true, if_false]
      | none =>
          cases hopens : opensBlock line with
          | true =>
              refine .inr (.inl ⟨rounds, found, after, hloop, fun _ => ⟨rfl, rfl⟩, ?_⟩)
              simp only [normalizeLine, hcomment, hopens, Bool.false_eq_true, if_false, if_true,
                hcut]
          | false =>
              refine .inr (.inr ⟨rfl, rfl, rfl, ?_⟩)
              simp only [normalizeLine, hcomment, hopens, Bool.false_eq_true, if_false]

theorem eq_of_lineComment? {line text : List Char} (h : lineComment? line = some text) :
    line = '/' :: '/' :: text ∨ line = '-' :: '-' :: text := by
  unfold lineComment? at h
  split at h
  · cases h
    exact .inl rfl
  · cases h
    exact .inr rfl
  · cases h

/-- A comment line is two dashes, a blank unless there is one, and the text. -/
theorem commentLine_cases (text : List Char) :
    commentLine text = '-' :: '-' :: text ∨ commentLine text = '-' :: '-' :: ' ' :: text := by
  unfold commentLine
  split
  · exact .inl rfl
  · exact .inr rfl

theorem content_replaceSlashes (line : List Char) :
    content (replaceSlashes line) = content line := by
  fun_induction replaceSlashes line with
  | case1 rest ih =>
      have hbefore : content [' ', '-', '-'] = [] := by decide
      have hafter : content [' ', '/', '/'] = [] := by decide
      rw [show ' ' :: '-' :: '-' :: replaceSlashes rest = [' ', '-', '-'] ++ replaceSlashes rest
          from rfl, show ' ' :: '/' :: '/' :: rest = [' ', '/', '/'] ++ rest from rfl,
        content_append, content_append, hbefore, hafter, ih]
  | case2 c rest _ ih => rw [content_cons, ih, ← content_cons]
  | case3 => rfl

theorem mem_of_mem_replaceSlashes {c : Char} {line : List Char}
    (h : c ∈ replaceSlashes line) : c ∈ line ∨ c = '-' := by
  fun_induction replaceSlashes line with
  | case1 rest ih => grind
  | case2 d rest _ ih => grind
  | case3 => exact .inl h

/-- Normalizing a line keeps its content. -/
theorem content_normalizeLine (inside : Bool) (line : List Char) :
    (normalizeLine inside line).1.flatMap content = content line := by
  rcases normalizeLine_cases inside line with
    ⟨text, -, hcomment, hline⟩ | ⟨rounds, found, after, hloop, -, hline⟩ | ⟨-, -, -, hline⟩
  · have hmarks : content line = content text := by
      rcases eq_of_lineComment? hcomment with rfl | rfl
      · exact content_append ['/', '/'] text
      · exact content_dashes text
    rw [hline, List.flatMap_singleton, hmarks]
    rcases commentLine_cases text with heq | heq
    · rw [heq, content_dashes]
    · rw [heq, content_dashes, content_cons]
      rfl
  · rw [hline, ← hloop.content, List.filterMap_eq_flatMap_toList, List.flatMap_assoc]
    exact List.flatMap_congr fun piece _ => content_line? piece
  · rw [hline, List.flatMap_singleton, content_replaceSlashes]

/-- The lines that a line becomes open no block comment and are no longer cut. -/
theorem opensNoBlock_normalizeLine {inside : Bool} {line : List Char} (hline : '\n' ∉ line) :
    ∀ out ∈ (normalizeLine inside line).1, OpensNoBlock out ∧ '\n' ∉ out := by
  have hdashes : ∀ text : List Char, '\n' ∉ text → '\n' ∉ '-' :: '-' :: ' ' :: text := by
    intro text htext
    simpa using htext
  intro out hout
  rcases normalizeLine_cases inside line with
    ⟨text, -, hcomment, hresult⟩ | ⟨rounds, found, after, hloop, -, hresult⟩ |
      ⟨-, -, hopens, hresult⟩
  · rw [hresult, List.mem_singleton] at hout
    have htext : '\n' ∉ text := by
      intro hmem
      refine hline ?_
      rcases eq_of_lineComment? hcomment with rfl | rfl <;>
        exact List.mem_cons_of_mem _ (List.mem_cons_of_mem _ hmem)
    rcases commentLine_cases text with heq | heq
    · rw [hout, heq]
      exact ⟨opensNoBlock_dashes text, by simpa using htext⟩
    · rw [hout, heq]
      exact ⟨opensNoBlock_dashes _, hdashes text htext⟩
  · rw [hresult] at hout
    obtain ⟨piece, hpiece, hout⟩ := List.mem_filterMap.mp hout
    obtain ⟨hpart, hcode⟩ := hloop.part piece hpiece
    have htrim : '\n' ∉ trim piece.text := fun hmem =>
      hline (hpart.subset ((trim_within _).subset hmem))
    rcases Piece.line?_eq_some hout with ⟨heq, rfl⟩ | rfl
    · refine ⟨opensNoBlock_of_no_opener ?_, htrim⟩
      intro hmem
      exact hcode _ heq (hmem.trans (trim_within _))
    · exact ⟨opensNoBlock_dashes _, hdashes _ htrim⟩
  · rw [hresult, List.mem_singleton] at hout
    rw [hout]
    refine ⟨opensNoBlock_replaceSlashes (opensNoBlock_of_opensBlock hopens), ?_⟩
    intro hmem
    rcases mem_of_mem_replaceSlashes hmem with hmem | heq
    · exact hline hmem
    · cases heq

/-! ## The text -/

theorem flatMap_content (pieces : List (List Char)) :
    pieces.flatMap content = (pieces.flatMap visible).filter fun c => !isMark c := by
  rw [List.filter_flatMap]
  rfl

theorem content_normalizeLines (inside : Bool) (found : List (List Char)) :
    (normalizeLines inside found).flatMap content = found.flatMap content := by
  induction found generalizing inside with
  | nil => rfl
  | cons line found ih =>
      rw [normalizeLines, List.flatMap_append, content_normalizeLine, content_trim, ih,
        List.flatMap_cons]

theorem opensNoBlock_normalizeLines {inside : Bool} {found : List (List Char)}
    (h : ∀ line ∈ found, '\n' ∉ line) :
    ∀ out ∈ normalizeLines inside found, OpensNoBlock out ∧ '\n' ∉ out := by
  induction found generalizing inside with
  | nil => exact fun out hout => absurd hout List.not_mem_nil
  | cons line found ih =>
      intro out hout
      rw [normalizeLines] at hout
      rcases List.mem_append.mp hout with hfirst | hmore
      · have hline : '\n' ∉ trim line := fun hmem =>
          h line List.mem_cons_self ((trim_within line).subset hmem)
        exact opensNoBlock_normalizeLine hline out hfirst
      · exact ih (fun other hother => h other (List.mem_cons_of_mem _ hother)) out hmore

end Comments

open Comments Text

theorem toList_normalizeComments (sql : String) :
    (normalizeComments sql).toList =
      ['\n'].intercalate (normalizeLines false (lines sql.toList)) :=
  toList_joinLines _

/-- Normalizing comments keeps the content of every text, makes lines that open no block
comment before a `--`, and its loop over the block comments of a line stops on every
line, inside a block comment and outside. -/
theorem normalizeComments_loses_no_text (sql : String) :
    content (normalizeComments sql).toList = content sql.toList ∧
    (∀ line ∈ splitLines (normalizeComments sql).toList, OpensNoBlock line) ∧
    ∀ (inside : Bool) (line : List Char), ∃ rounds found after,
      rounds ≤ line.length / 2 + 1 ∧ CutLoop rounds inside line found after ∧
        cutLine inside line = (found.filterMap Piece.line?, after) := by
  refine ⟨?_, ?_, ?_⟩
  · rw [toList_normalizeComments, content, visible_joinLines, ← flatMap_content,
      content_normalizeLines, flatMap_content, flatMap_visible_lines, content]
  · have hlines : ∀ line ∈ lines sql.toList, '\n' ∉ line := fun _ => not_mem_of_mem_lines
    have hall := @opensNoBlock_normalizeLines false _ hlines
    rw [toList_normalizeComments]
    by_cases hnone : normalizeLines false (lines sql.toList) = []
    · rw [hnone]
      intro line hline
      rw [List.mem_singleton.mp hline]
      exact opensNoBlock_of_no_opener (by simp)
    · rw [splitLines_join hnone fun out hout => (hall out hout).2]
      exact fun out hout => (hall out hout).1
  · intro inside line
    obtain ⟨rounds, found, after, hloop⟩ := exists_cutLoop inside line
    exact ⟨rounds, found, after, hloop.rounds_le, hloop, hloop.cutLine⟩

end Relocate.Sql
