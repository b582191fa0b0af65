import Relocate.Text.Blank

/-!
# Paths and rules

An object of a catalog is named by its path: the names of its space and of its
folders, then its own.  Segments are compared exactly.  A rule sends the objects
below one path to another path: `Rule.rebuild` drops as many segments as the
source has and puts the destination in their place.
-/

namespace Relocate.Catalog

/-- The segments of a path, the space first. -/
abbrev Path := List String

/-- A shortcut, as paths are looked up in lists all over the project. -/
instance : LawfulBEq Path := inferInstance

namespace Path

/-- The name of the space. -/
def root? (path : Path) : Option String :=
  path.head?

/-- The path of the space or the folder that holds the object. -/
def parent (path : Path) : Path :=
  path.dropLast

/-- The first segments, as many as there are of them. -/
def truncated (path : Path) (length : Nat) : Path :=
  path.take length

/-- All segments of the first path are those at the start of the second. -/
def covers : Path → Path → Bool
  | [], _ => true
  | _ :: _, [] => false
  | a :: as, b :: bs => a == b && covers as bs

/-- One of the paths covers the other. -/
def overlaps : Path → Path → Bool
  | a :: as, b :: bs => a == b && overlaps as bs
  | _, _ => true

/-- The segments with points between them, as in a statement. -/
def dotted (path : Path) : String :=
  Text.join "." path

/-- The segments with slashes between them, as in a dependency record. -/
def slashed (path : Path) : String :=
  Text.join "/" path

/-- The lexicographic order of paths; segments are ordered by their characters. -/
def order : Path → Path → Ordering
  | [], [] => .eq
  | [], _ :: _ => .lt
  | _ :: _, [] => .gt
  | a :: as, b :: bs => (compare a b).then (order as bs)

theorem covers_iff_isPrefix {a b : Path} : covers a b = true ↔ a <+: b := by
  induction a generalizing b with
  | nil => simp [covers]
  | cons a as ih =>
    cases b with
    | nil => simp [covers]
    | cons b bs => simp [covers, ih, List.cons_prefix_cons]

theorem overlaps_iff_isPrefix_or {a b : Path} :
    overlaps a b = true ↔ a <+: b ∨ b <+: a := by
  induction a generalizing b with
  | nil => simp [overlaps]
  | cons a as ih =>
    cases b with
    | nil => simp [overlaps]
    | cons b bs =>
      simp only [overlaps, Bool.and_eq_true, beq_iff_eq, ih, List.cons_prefix_cons]
      constructor
      · rintro ⟨rfl, h | h⟩
        · exact .inl ⟨rfl, h⟩
        · exact .inr ⟨rfl, h⟩
      · rintro (⟨rfl, h⟩ | ⟨rfl, h⟩)
        · exact ⟨rfl, .inl h⟩
        · exact ⟨rfl, .inr h⟩

end Path

/-- What lies below the source goes below the destination. -/
structure Rule where
  source : Path
  destination : Path
deriving DecidableEq, Repr

namespace Rule

/-- The path after the rule; only meant for paths that the source covers. -/
def rebuild (rule : Rule) (path : Path) : Path :=
  rule.destination ++ path.drop rule.source.length

/-- The context of a query after the rule.  A context that is not below the
source becomes the part of the destination at its own depth. -/
def rebuildContext (rule : Rule) (context : Path) : Path :=
  if context.length ≤ rule.source.length then rule.destination.truncated context.length
  else rule.rebuild context

/-- How messages name the rule. -/
def describe (rule : Rule) : String :=
  rule.source.dotted ++ " -> " ++ rule.destination.dotted

theorem rebuild_source_append (rule : Rule) (rest : Path) :
    rule.rebuild (rule.source ++ rest) = rule.destination ++ rest := by
  simp [rebuild]

end Rule

end Relocate.Catalog
