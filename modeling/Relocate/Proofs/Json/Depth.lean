import Relocate.Proofs.Json.Returned

/-!
# What the depth changes

A reader that may go deeper returns the same where both return something:
`Extends` says so, and is closed under `bind`.  So the depth decides only whether
a written value is read: it is exactly when the depth is above its nesting.
-/

namespace Relocate.Json

namespace Reader

variable {α β σ : Type}

/-- Whatever the first reader returns, the second returns too. -/
def Extends (reader other : Reader α) : Prop :=
  ∀ cursor result, reader cursor = .ok result → other cursor = .ok result

theorem Extends.refl (reader : Reader α) : Extends reader reader :=
  fun _ _ hread => hread

theorem bind_eq_ok {first : Reader α} {next : α → Reader β} {cursor between : Cursor} {x : α}
    {result : β × Cursor} (hfirst : first cursor = .ok (x, between))
    (hnext : next x between = .ok result) : (first >>= next) cursor = .ok result := by
  simp only [Bind.bind, hfirst]
  exact hnext

theorem Extends.bind {first first' : Reader α} {next next' : α → Reader β}
    (hfirst : Extends first first') (hnext : ∀ x, Extends (next x) (next' x)) :
    Extends (first >>= next) (first' >>= next') := by
  intro cursor ⟨y, after⟩ hread
  obtain ⟨x, between, hx, hy⟩ := bind_ok hread
  exact bind_eq_ok (hfirst cursor _ hx) (hnext x between _ hy)

theorem extends_bind {first : Reader α} {next next' : α → Reader β}
    (hnext : ∀ x, Extends (next x) (next' x)) : Extends (first >>= next) (first >>= next') :=
  (Extends.refl first).bind hnext

theorem extends_ite {c : Prop} [Decidable c] {yes no yes' no' : Reader α}
    (hyes : c → Extends yes yes') (hno : ¬ c → Extends no no') :
    Extends (if c then yes else no) (if c then yes' else no') := by
  split
  · next hc => exact hyes hc
  · next hc => exact hno hc

theorem extends_failAt (message : String) (other : Reader α) :
    Extends (failAt message) other := by
  intro cursor result hread
  cases hread

theorem extends_itemsFrom {item item' : Reader α} (hitem : Extends item item') (fuel : Nat)
    (first : Bool) : Extends (itemsFrom item fuel first) (itemsFrom item' fuel first) := by
  induction fuel generalizing first with
  | zero => exact Extends.refl _
  | succ fuel ih =>
    refine extends_bind fun more => extends_ite (fun _ => ?_) fun _ => Extends.refl _
    exact hitem.bind fun x => (ih false).bind fun items => Extends.refl _

theorem extends_membersFrom {member member' : Reader Value} (hmember : Extends member member')
    (fuel : Nat) (first : Bool) :
    Extends (membersFrom member fuel first) (membersFrom member' fuel first) := by
  induction fuel generalizing first with
  | zero => exact Extends.refl _
  | succ fuel ih =>
    refine extends_bind fun more => extends_ite (fun _ => ?_) fun _ => Extends.refl _
    refine extends_bind fun name => extends_bind fun _ => hmember.bind fun value => ?_
    exact (ih false).bind fun members => Extends.refl _

theorem extends_foldMembers {member member' : String → σ → Reader σ}
    (hmember : ∀ name state, Extends (member name state) (member' name state)) (fuel : Nat)
    (first : Bool) (state : σ) :
    Extends (foldMembers member fuel first state) (foldMembers member' fuel first state) := by
  induction fuel generalizing first state with
  | zero => exact Extends.refl _
  | succ fuel ih =>
    refine extends_bind fun more => extends_ite (fun _ => ?_) fun _ => Extends.refl _
    exact extends_bind fun name => (hmember name state).bind fun next => ih false next

/-- A value is read the same way at a greater depth. -/
theorem extends_value (depth : Nat) :
    Extends (Reader.value depth) (Reader.value (depth + 1)) := by
  induction depth with
  | zero => exact extends_failAt _ _
  | succ depth ih =>
    refine extends_bind fun next => ?_
    cases next with
    | none => exact Extends.refl _
    | some c =>
      refine extends_ite (fun _ => ?_) fun _ => Extends.refl _
      by_cases hdepth : depth = 0
      · rw [if_pos hdepth]
        exact extends_failAt _ _
      · rw [if_neg hdepth, if_neg (Nat.succ_ne_zero depth)]
        refine extends_ite (fun _ => ?_) fun _ => ?_
        · refine Extends.bind ?_ fun items => Extends.refl _
          refine extends_bind fun _ => extends_bind fun fuel => ?_
          exact (extends_itemsFrom ih (fuel + 1) true).bind fun items => Extends.refl _
        · refine extends_bind fun _ => extends_bind fun fuel => ?_
          exact (extends_membersFrom ih (fuel + 1) true).bind fun members => Extends.refl _

/-- One level deeper there is one level more. -/
theorem extends_enter {depth : Nat} {next next' : Nat → Reader β}
    (hnext : ∀ inner, inner + 1 = depth → Extends (next inner) (next' (inner + 1))) :
    Extends (enter depth >>= next) (enter (depth + 1) >>= next') := by
  intro cursor ⟨y, after⟩ hread
  obtain ⟨inner, between, henter, hrest⟩ := bind_ok hread
  obtain rfl := yields_enter depth cursor inner between henter
  have hdeep : ¬ inner + 1 ≤ 1 := by
    intro hflat
    rw [enter, if_pos hflat] at henter
    cases henter
  rw [enter, if_neg hdeep] at henter
  obtain ⟨_, _, hadvance, hpure⟩ := bind_ok henter
  cases hpure
  have hdeeper : enter (inner + 1 + 1) cursor = .ok (inner + 1, between) := by
    rw [enter, if_neg (by omega)]
    exact bind_eq_ok hadvance rfl
  exact bind_eq_ok hdeeper (hnext inner rfl between _ hrest)

end Reader

open Reader

theorem extends_orNull {α : Type} {reader reader' : Reader α} (h : Extends reader reader') :
    Extends (orNull reader) (orNull reader') :=
  extends_bind fun _ => extends_ite (fun _ => Extends.refl _) fun _ =>
    h.bind fun _ => Extends.refl _

theorem extends_recordMember {fields : Fields} {depth : Nat} (isOpen : Bool)
    (hmember : ∀ name slots, Extends (fields.readMember depth name slots)
      (fields.readMember (depth + 1) name slots)) (name : String)
    (state : fields.Slots × List (String × Value)) :
    Extends (recordMember fields isOpen depth name state)
      (recordMember fields isOpen (depth + 1) name state) := by
  refine (hmember name state.1).bind fun found => ?_
  cases found with
  | some slots => exact Extends.refl _
  | none =>
    refine extends_bind fun _ => extends_ite (fun _ => ?_) fun _ => Extends.refl _
    exact (extends_value depth).bind fun value => Extends.refl _

mutual

/-- Data are read the same way at a greater depth. -/
theorem Shape.extends_read : (shape : Shape) → (depth : Nat) →
    Extends (shape.read depth) (shape.read (depth + 1))
  | .text _, _ => Extends.refl _
  | .any, depth => by
    rw [Shape.read, Shape.read]
    exact extends_value depth
  | .list item, depth => by
    rw [Shape.read, Shape.read]
    refine extends_bind fun c => extends_ite (fun _ => ?_) fun _ => Extends.refl _
    refine extends_enter fun inner _ => extends_bind fun fuel => ?_
    exact (extends_itemsFrom (item.extends_read inner) (fuel + 1) true).bind fun _ => Extends.refl _
  | .optional inner, depth => by
    rw [read_optional, read_optional]
    exact extends_orNull (inner.extends_read depth)
  | .record name fields isOpen, depth => by
    rw [Shape.read, Shape.read]
    refine extends_bind fun c => extends_ite (fun _ => ?_) fun _ => extends_ite (fun _ => ?_)
      fun _ => Extends.refl _
    · refine extends_enter fun inner _ => extends_bind fun fuel => ?_
      have hmember := fun name state => @extends_recordMember fields inner isOpen
        (fields.extends_readMember inner) name state
      exact (extends_foldMembers hmember (fuel + 1) true _).bind fun _ => Extends.refl _
    · refine extends_enter fun inner _ => ?_
      exact (fields.extends_readItems _ inner 0 true).bind fun _ => Extends.refl _

theorem Fields.extends_readMember : (fields : Fields) → (depth : Nat) → (name : String) →
    (slots : fields.Slots) →
    Extends (fields.readMember depth name slots) (fields.readMember (depth + 1) name slots)
  | .nil, _, _, _ => Extends.refl _
  | .cons field shape required rest, depth, name, (slot, slots) => by
    rw [Fields.readMember, Fields.readMember]
    refine extends_ite (fun _ => extends_ite (fun _ => Extends.refl _) fun _ => ?_) fun _ => ?_
    · exact extends_bind fun _ => (shape.extends_read depth).bind fun _ => Extends.refl _
    · exact (rest.extends_readMember depth name slots).bind fun _ => Extends.refl _

theorem Fields.extends_readItems : (fields : Fields) → (tooFew : Nat → String) → (depth : Nat) →
    (index : Nat) → (first : Bool) →
    Extends (fields.readItems tooFew depth index first)
      (fields.readItems tooFew (depth + 1) index first)
  | .nil, _, _, _, _ => Extends.refl _
  | .cons name shape required rest, tooFew, depth, index, first => by
    rw [Fields.readItems, Fields.readItems]
    refine extends_bind fun _ => extends_ite (fun _ => ?_) fun _ =>
      extends_ite (fun _ => Extends.refl _) fun _ => ?_
    · exact (shape.extends_read depth).bind fun _ =>
        (rest.extends_readItems tooFew depth (index + 1) false).bind fun _ => Extends.refl _
    · exact (rest.extends_readItems tooFew depth (index + 1) first).bind fun _ => Extends.refl _

end

theorem Shape.extends_read_of_le (shape : Shape) {depth deeper : Nat} (h : depth ≤ deeper) :
    Extends (shape.read depth) (shape.read deeper) := by
  induction h with
  | refl => exact Extends.refl _
  | @step deeper _ ih =>
    intro cursor result hread
    exact shape.extends_read deeper cursor result (ih cursor result hread)

/-! ## Texts of data -/

namespace Reader

variable {α : Type} {reader : Reader α} {text : String} {value : α}

/-- What is left when the value of a document has been read. -/
theorem document_eq_of_ok {after : Cursor}
    (hread : reader (Cursor.start text) = .ok (value, after)) :
    document reader text = (do
      let (next, cursor) ← afterBlanks? after
      match next with
      | none => return value
      | some _ => throw (Cursor.issueBehind "trailing characters" 1 cursor.rest cursor)) := by
  rw [document, hread]
  rfl

theorem document_ok (hread : document reader text = .ok value) :
    ∃ after, reader (Cursor.start text) = .ok (value, after) := by
  cases hfirst : reader (Cursor.start text) with
  | error issue =>
    rw [document, hfirst] at hread
    cases hread
  | ok result =>
    obtain ⟨found, after⟩ := result
    obtain ⟨next, behind, hend⟩ : ∃ next behind, afterBlanks? after = .ok (next, behind) :=
      ⟨_, _, rfl⟩
    rw [document_eq_of_ok hfirst, hend] at hread
    cases next with
    | none =>
      cases hread
      exact ⟨after, rfl⟩
    | some c => cases hread

theorem document_eq_ok {after : Cursor}
    (hread : reader (Cursor.start text) = .ok (value, after)) (hrest : after.rest = []) :
    document reader text = .ok value := by
  have hend : afterBlanks? after = .ok (none, after) := by
    simp [afterBlanks?, hrest, dropWhileFrom]
  rw [document_eq_of_ok hread, hend]
  rfl

end Reader

/-- What is parsed may be returned. -/
theorem Shape.returned_of_parse {shape : Shape} {text : String} {data : shape.Data}
    (hparse : shape.parse text = .ok data) : shape.Returned maxDepth data := by
  obtain ⟨after, hread⟩ := document_ok hparse
  exact shape.yields_read maxDepth _ _ _ hread

section

variable {shape : Shape} {data : shape.Data} (hproper : shape.isProper = true)
  (hsound : shape.Sound data) (hwhole : (shape.toValue data).isFloatFree = true)

include hproper hsound hwhole

theorem Shape.read_pretty {depth : Nat} (hdepth : (shape.toValue data).nesting < depth) :
    ∃ after, shape.read depth (Cursor.start ((shape.toValue data).pretty 0)) = .ok (data, after) ∧
      after.rest = [] := by
  have hclosed : Closes [] := nofun
  have hread := (readsValue_read shape hproper hsound hwhole hdepth).reads 0 hclosed
  rw [List.append_nil] at hread
  exact hread (Cursor.start _) rfl

/-- The text of data is read back when the depth is above their nesting. -/
theorem Shape.parse_pretty (hdepth : (shape.toValue data).nesting < maxDepth) :
    shape.parse ((shape.toValue data).pretty 0) = .ok data := by
  obtain ⟨after, hread, hrest⟩ := Shape.read_pretty hproper hsound hwhole hdepth
  exact document_eq_ok hread hrest

/-- The text of data is read as these data or not at all, and only if they are
nested no more than the depth allows or the shape demands. -/
theorem Shape.parse_pretty_ok {found : shape.Data}
    (hparse : shape.parse ((shape.toValue data).pretty 0) = .ok found) :
    found = data ∧ (shape.toValue data).nesting ≤ max (maxDepth - 1) shape.height := by
  obtain ⟨after, hread⟩ := document_ok hparse
  have hdeeper := shape.extends_read_of_le
    (Nat.le_max_left maxDepth ((shape.toValue data).nesting + 1)) _ _ hread
  obtain ⟨_, hdata, -⟩ := Shape.read_pretty hproper hsound hwhole
    (Nat.lt_of_succ_le (Nat.le_max_right maxDepth ((shape.toValue data).nesting + 1)))
  obtain ⟨rfl, -⟩ := Prod.mk.inj (Except.ok.inj (hdeeper.symm.trans hdata))
  exact ⟨rfl, (Shape.returned_of_parse hparse).2⟩

end

end Relocate.Json
