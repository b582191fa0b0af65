import Relocate.Catalog.Path
import Relocate.Text.Fold

/-!
# Paths that agree

Two paths agree when they are the same as far as both go, that is, when one of them
is the start of the other.  Rules are unrelated when not even the case of letters
keeps the source of one of them from agreeing with a path of the other: then no path
begins with both sources, and what one rule writes does not begin with the source of
the other.
-/

namespace Relocate.Text

/-- The text with small letters in place of the ASCII capitals. -/
def lower (text : String) : String :=
  String.ofList (text.toList.map Char.toLower)

theorem sameFold_iff_lower {a b : String} : sameFold a b = true ↔ lower a = lower b := by
  rw [sameFold, beq_iff_eq, lower, lower, String.ofList_inj]

end Relocate.Text

namespace Relocate.Catalog

open Text

/-! ## Agreement -/

/-- The two paths are the same as far as both go. -/
def Path.Agrees (path other : Path) : Prop :=
  path.take other.length = other.take path.length

instance (path other : Path) : Decidable (path.Agrees other) :=
  inferInstanceAs (Decidable (path.take other.length = other.take path.length))

theorem Path.agrees_iff_isPrefix_or {path other : Path} :
    path.Agrees other ↔ path <+: other ∨ other <+: path := by
  constructor
  · intro hagrees
    rcases Nat.le_total path.length other.length with hle | hle
    · rw [Agrees, List.take_of_length_le hle] at hagrees
      exact .inl (hagrees ▸ List.take_prefix path.length other)
    · rw [Agrees, List.take_of_length_le hle] at hagrees
      exact .inr (hagrees ▸ List.take_prefix other.length path)
  · rintro (⟨rest, rfl⟩ | ⟨rest, rfl⟩)
    · rw [Agrees, List.take_left, List.take_of_length_le]
      simp
    · rw [Agrees, List.take_left, List.take_of_length_le]
      simp

theorem Path.agrees_comm {path other : Path} : path.Agrees other ↔ other.Agrees path :=
  eq_comm

/-- Two starts of one path agree. -/
theorem Path.Agrees.of_isPrefix
    {path other whole : Path} (hpath : path <+: whole) (hother : other <+: whole) :
    path.Agrees other :=
  Path.agrees_iff_isPrefix_or.mpr (List.prefix_or_prefix_of_prefix hpath hother)

/-! ## Unrelated rules -/

/-- The path in small letters, as far as they are ASCII. -/
def Path.lower (path : Path) : Path :=
  path.map Text.lower

theorem Path.lower_append (front rest : Path) :
    (front ++ rest).lower = front.lower ++ rest.lower :=
  List.map_append

theorem Path.lower_isPrefix {path whole : Path} (habove : path <+: whole) :
    path.lower <+: whole.lower :=
  habove.map Text.lower

/-- No source agrees, up to ASCII case, with a path of the other rule. -/
structure Rule.Unrelated (first second : Rule) : Prop where
  sources : ¬ first.source.lower.Agrees second.source.lower
  destination : ¬ first.source.lower.Agrees second.destination.lower
  source : ¬ second.source.lower.Agrees first.destination.lower

instance (first second : Rule) : Decidable (first.Unrelated second) :=
  decidable_of_iff
    (¬ first.source.lower.Agrees second.source.lower ∧
      ¬ first.source.lower.Agrees second.destination.lower ∧
      ¬ second.source.lower.Agrees first.destination.lower)
    ⟨fun ⟨sources, destination, source⟩ => ⟨sources, destination, source⟩,
      fun hunrelated => ⟨hunrelated.sources, hunrelated.destination, hunrelated.source⟩⟩

namespace Rule.Unrelated

variable {first second : Rule} {path : Path}

theorem symm (hunrelated : first.Unrelated second) : second.Unrelated first :=
  ⟨fun hagrees => hunrelated.sources (Path.agrees_comm.mp hagrees), hunrelated.source,
    hunrelated.destination⟩

/-- The empty path agrees with every path, so all four paths have a segment. -/
theorem source_ne_nil (hunrelated : first.Unrelated second) : first.source ≠ [] := by
  intro hempty
  refine hunrelated.sources (Path.agrees_iff_isPrefix_or.mpr (.inl ?_))
  rw [hempty]
  exact List.nil_prefix

theorem destination_ne_nil (hunrelated : first.Unrelated second) : first.destination ≠ [] := by
  intro hempty
  refine hunrelated.source (Path.agrees_iff_isPrefix_or.mpr (.inr ?_))
  rw [hempty]
  exact List.nil_prefix

theorem not_isPrefix
    (hunrelated : first.Unrelated second) (hfirst : first.source.lower <+: path.lower) :
    ¬ second.source.lower <+: path.lower := fun hsecond =>
  hunrelated.sources (.of_isPrefix hfirst hsecond)

theorem not_isPrefix_rebuild (hunrelated : first.Unrelated second) (path : Path) :
    ¬ second.source.lower <+: (first.rebuild path).lower := fun hsecond => by
  rw [Rule.rebuild, Path.lower_append] at hsecond
  exact hunrelated.source (.of_isPrefix hsecond (List.prefix_append _ _))

end Rule.Unrelated

end Relocate.Catalog
