import Relocate.Proofs.Sql.Breaks
import Relocate.Proofs.Text.Trimming

/-!
# Lines as slices of bytes

A program that holds the text as bytes cuts it by offsets: a place is looked up in the
offsets of the lines, and each line is a slice from one offset to the next.  A slice
fails when its ends are out of order or not on the borders of characters.  `slices?` is
this way to lay a text out; it never fails, and gives what `reindent` gives
(`slices?_eq`).
-/

namespace Relocate.Sql

open Text Written

namespace Layout

/-- The number of bytes of a text. -/
def byteLength : List Char → Nat
  | [] => 0
  | c :: rest => c.utf8Size + byteLength rest

/-- The text from a byte on, which must be on the border of characters. -/
def fromByte? : Nat → List Char → Option (List Char)
  | 0, text => some text
  | _ + 1, [] => none
  | offset, c :: rest =>
    if c.utf8Size ≤ offset then fromByte? (offset - c.utf8Size) rest else none

/-- The text in front of a byte, which must be on the border of characters. -/
def toByte? : Nat → List Char → Option (List Char)
  | 0, _ => some []
  | _ + 1, [] => none
  | offset, c :: rest =>
    if c.utf8Size ≤ offset then (toByte? (offset - c.utf8Size) rest).map (c :: ·) else none

/-- The text between two bytes, which must be in order. -/
def slice? (first last : Nat) (text : List Char) : Option (List Char) :=
  if first ≤ last then (fromByte? first text).bind (toByte? (last - first)) else none

/-- The offsets behind the line feeds of a text that starts at an offset. -/
def lineOffsets (offset : Nat) : List Char → List Nat
  | [] => []
  | c :: rest =>
    if c = '\n' then (offset + c.utf8Size) :: lineOffsets (offset + c.utf8Size) rest
    else lineOffsets (offset + c.utf8Size) rest

/-- The offset of a place, whose line is looked up among those of the text. -/
def byteOffset? (text : List Char) (place : Location) : Option Nat :=
  match (0 :: lineOffsets 0 text)[place.line - 1]? with
  | none => some 0
  | some start =>
    if place.line = 0 then some 0
    else
      (fromByte? start text).map fun line =>
        if place.column - 1 < line.length then start + byteLength (line.take (place.column - 1))
        else byteLength text

/-- The lines from one offset to the next, each with its depth. -/
def writeLines? (text : List Char) : Nat → List (Nat × Nat) → Option (List Char)
  | last, [] => fromByte? last text
  | last, (offset, depth) :: breaks => do
    let line ← slice? last offset text
    let more ← writeLines? text offset breaks
    return trimEnd line ++ '\n' :: List.replicate (depth * indentWidth) ' ' ++ more

/-- The layout of a text by its bytes. -/
def slices? (text : List Char) (breaks : List Break) : Option (List Char) := do
  let offsets ← breaks.mapM fun next =>
    (byteOffset? text next.place).map fun offset => (offset, next.depth)
  writeLines? text 0 offsets

/-! ## Slices -/

theorem byteLength_cons (c : Char) (rest : List Char) :
    byteLength (c :: rest) = c.utf8Size + byteLength rest := rfl

theorem byteLength_append (front back : List Char) :
    byteLength (front ++ back) = byteLength front + byteLength back := by
  induction front with
  | nil => exact (Nat.zero_add _).symm
  | cons c front ih => rw [List.cons_append, byteLength_cons, byteLength_cons, ih, Nat.add_assoc]

theorem fromByte?_cons {c : Char} {offset : Nat} (rest : List Char) :
    fromByte? (c.utf8Size + offset) (c :: rest) = fromByte? offset rest := by
  have hsize := c.utf8Size_pos
  rw [fromByte?, if_pos (Nat.le_add_right _ _), Nat.add_sub_cancel_left]
  omega

theorem toByte?_cons {c : Char} {offset : Nat} (rest : List Char) :
    toByte? (c.utf8Size + offset) (c :: rest) = (toByte? offset rest).map (c :: ·) := by
  have hsize := c.utf8Size_pos
  rw [toByte?, if_pos (Nat.le_add_right _ _), Nat.add_sub_cancel_left]
  omega

theorem fromByte?_append (front rest : List Char) :
    fromByte? (byteLength front) (front ++ rest) = some rest := by
  induction front with
  | nil => cases rest <;> rfl
  | cons c front ih => rw [byteLength_cons, List.cons_append, fromByte?_cons, ih]

theorem toByte?_append (front rest : List Char) :
    toByte? (byteLength front) (front ++ rest) = some front := by
  induction front with
  | nil => cases rest <;> rfl
  | cons c front ih => rw [byteLength_cons, List.cons_append, toByte?_cons, ih, Option.map_some]

/-- The slice between two parts of a text is what stands between them. -/
theorem slice?_append (front line rest : List Char) :
    slice? (byteLength front) (byteLength (front ++ line)) (front ++ (line ++ rest)) =
      some line := by
  rw [slice?, byteLength_append, if_pos (Nat.le_add_right _ _), fromByte?_append,
    Nat.add_sub_cancel_left]
  exact toByte?_append line rest

/-! ## Offsets of places -/

theorem lineOffsets_append (offset : Nat) (front back : List Char) :
    lineOffsets offset (front ++ back) =
      lineOffsets offset front ++ lineOffsets (offset + byteLength front) back := by
  induction front generalizing offset with
  | nil => rfl
  | cons c front ih =>
      rw [List.cons_append, lineOffsets, lineOffsets, byteLength_cons, ← Nat.add_assoc, ih]
      split <;> rfl

theorem lineOffsets_of_not_mem {offset : Nat} {text : List Char} (h : '\n' ∉ text) :
    lineOffsets offset text = [] := by
  induction text generalizing offset with
  | nil => rfl
  | cons c rest ih =>
      have hc : c ≠ '\n' := fun heq => h (heq ▸ List.mem_cons_self)
      rw [lineOffsets, if_neg hc, ih fun hmem => h (List.mem_cons_of_mem c hmem)]

/-- A text in front of a place is made of whole lines and the start of another. -/
theorem exists_lines (front : List Char) :
    ∃ whole part, front = whole ++ part ∧ '\n' ∉ part ∧
      (Location.start.after front).column = part.length + 1 ∧
      ∃ offsets, 0 :: lineOffsets 0 whole = offsets ++ [byteLength whole] ∧
        (Location.start.after front).line = offsets.length + 1 := by
  induction front using List.reverseRecOn with
  | nil => exact ⟨[], [], rfl, List.not_mem_nil, rfl, [], rfl, rfl⟩
  | append_singleton front c ih =>
      obtain ⟨whole, part, rfl, hpart, hcolumn, offsets, hoffsets, hline⟩ := ih
      have hafter : Location.start.after (whole ++ part ++ [c]) =
          (Location.start.after (whole ++ part)).step c := Lexer.after_append _ _ _
      by_cases hc : c = '\n'
      · refine ⟨whole ++ part ++ [c], [], (List.append_nil _).symm, List.not_mem_nil, ?_,
          offsets ++ [byteLength whole], ?_, ?_⟩
        · rw [hafter, Location.step, if_pos hc]
          rfl
        · rw [lineOffsets_append, lineOffsets_append, lineOffsets_of_not_mem hpart,
            List.append_nil, ← List.cons_append, hoffsets, lineOffsets, if_pos hc, lineOffsets,
            Nat.zero_add, byteLength_append _ [c]]
          rfl
        · rw [hafter, Location.step, if_pos hc, hline]
          simp
      · refine ⟨whole, part ++ [c], List.append_assoc _ _ _, ?_, ?_, offsets, hoffsets, ?_⟩
        · simpa [hpart] using Ne.symm hc
        · rw [hafter, Location.step, if_neg hc, hcolumn]
          simp
        · rw [hafter, Location.step, if_neg hc, hline]

/-- The offset of a place in the text is the number of bytes in front of it. -/
theorem byteOffset?_after (front : List Char) (c : Char) (rest : List Char) :
    byteOffset? (front ++ c :: rest) (Location.start.after front) = some (byteLength front) := by
  obtain ⟨whole, part, rfl, hpart, hcolumn, offsets, hoffsets, hline⟩ := exists_lines front
  have hfound : (0 :: lineOffsets 0 (whole ++ (part ++ c :: rest)))[offsets.length]? =
      some (byteLength whole) := by
    rw [lineOffsets_append, ← List.cons_append, hoffsets]
    simp
  have hshort : part.length < (part ++ c :: rest).length := by simp
  rw [List.append_assoc, byteOffset?, hline, hcolumn, Nat.add_sub_cancel, hfound]
  simp only [Nat.succ_ne_zero, if_false, fromByte?_append, Option.map_some, Nat.add_sub_cancel,
    if_pos hshort, List.take_left, byteLength_append]

/-! ## The lines of a layout -/

/-- The offsets of lines that stand one behind the other, each with its depth. -/
def offsetsFrom : Nat → List (Nat × List Char) → List (Nat × Nat)
  | _, [] => []
  | offset, (depth, line) :: lines =>
    (offset, depth) :: offsetsFrom (offset + byteLength line) lines

theorem breaksFrom_offsets
    (front : List Char) {lines : List (Nat × List Char)} (h : ∀ line ∈ lines, line.2 ≠ []) :
    (breaksFrom (Location.start.after front) lines).mapM (fun next =>
        (byteOffset? (front ++ lines.flatMap Prod.snd) next.place).map fun offset =>
          (offset, next.depth)) =
      some (offsetsFrom (byteLength front) lines) := by
  induction lines generalizing front with
  | nil => rfl
  | cons line lines ih =>
      obtain ⟨depth, line⟩ := line
      obtain ⟨c, line, rfl⟩ := List.exists_cons_of_ne_nil (h (depth, line) List.mem_cons_self)
      have hmore := ih (front ++ c :: line) fun other hother =>
        h other (List.mem_cons_of_mem _ hother)
      rw [Lexer.after_append, List.append_assoc, byteLength_append] at hmore
      rw [List.flatMap_cons, breaksFrom, List.mapM_cons, hmore]
      simp only [List.cons_append, byteOffset?_after]
      rfl

theorem writeLines?_eq (before front : List Char) (lines : List (Nat × List Char)) :
    writeLines? (before ++ (front ++ lines.flatMap Prod.snd)) (byteLength before)
        (offsetsFrom (byteLength (before ++ front)) lines) =
      some (assemble front lines) := by
  induction lines generalizing before front with
  | nil => rw [offsetsFrom, writeLines?, fromByte?_append, List.flatMap_nil, List.append_nil]; rfl
  | cons line lines ih =>
      obtain ⟨depth, line⟩ := line
      have hmore := ih (before ++ front) line
      rw [byteLength_append _ line, List.append_assoc] at hmore
      rw [offsetsFrom, writeLines?, slice?_append, List.flatMap_cons, hmore]
      rfl

end Layout

/-- A text that has tokens is laid out by its bytes with no slice out of order or off the
borders of characters, and the result is that of `reindent`. -/
theorem slices?_eq {sql : String} {pieces : List Written} (h : written sql = .ok pieces) :
    ∃ tokens out, significantTokens sql = .ok tokens ∧ reindent sql = .ok (String.ofList out) ∧
      Layout.slices? sql.toList (Layout.allBreaks tokens) = some out := by
  refine ⟨_, _, significantTokens_eq h, reindent_eq h, ?_⟩
  rw [Layout.slices?, allBreaks_placed, text_eq h,
    Layout.breaksFrom_offsets _ (lineTexts_ne_nil h)]
  exact Layout.writeLines?_eq [] _ _

end Relocate.Sql
