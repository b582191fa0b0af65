import Mathlib.Data.List.DropRight
import Relocate.Proofs.Json.Shapes

/-!
# What readers return

`Yields P reader` says that whatever the reader returns, from any text, has the
property `P`.  So a value that was read is canonical and nested less than the
depth, and data that were read are `Shape.Sound`.

A field that is missing stands for data that may be nested more deeply than the
depth allows, such as an empty list; `Shape.height` bounds how deeply.
-/

namespace Relocate.Json

namespace Reader

variable {α β σ : Type}

/-- Whatever the reader returns has the property. -/
def Yields (P : α → Prop) (reader : Reader α) : Prop :=
  ∀ cursor value after, reader cursor = .ok (value, after) → P value

theorem bind_ok {first : Reader α} {next : α → Reader β} {cursor after : Cursor} {y : β}
    (h : (first >>= next) cursor = .ok (y, after)) :
    ∃ x between, first cursor = .ok (x, between) ∧ next x between = .ok (y, after) := by
  simp only [Bind.bind] at h
  split at h
  · next x between hfirst => exact ⟨x, between, hfirst, h⟩
  · cases h

theorem yields_pure {P : α → Prop} {value : α} (h : P value) : Yields P (pure value) := by
  intro cursor value' after hread
  cases hread
  exact h

theorem Yields.bind {P : α → Prop} {Q : β → Prop} {first : Reader α} {next : α → Reader β}
    (hfirst : Yields P first) (hnext : ∀ x, P x → Yields Q (next x)) :
    Yields Q (first >>= next) := by
  intro cursor value after hread
  obtain ⟨x, between, hx, hy⟩ := bind_ok hread
  exact hnext x (hfirst cursor x between hx) between value after hy

theorem yields_ite {P : α → Prop} {c : Prop} [Decidable c] {yes no : Reader α}
    (hyes : c → Yields P yes) (hno : ¬ c → Yields P no) : Yields P (if c then yes else no) := by
  split
  · next hc => exact hyes hc
  · next hc => exact hno hc

theorem yields_true (reader : Reader α) : Yields (fun _ => True) reader :=
  fun _ _ _ _ => trivial

/-- A first reader whose result does not matter. -/
theorem yields_bind {Q : β → Prop} {first : Reader α} {next : α → Reader β}
    (hnext : ∀ x, Yields Q (next x)) : Yields Q (first >>= next) :=
  (yields_true first).bind fun x _ => hnext x

theorem Yields.imp {P Q : α → Prop} {reader : Reader α} (h : Yields P reader)
    (himp : ∀ x, P x → Q x) : Yields Q reader :=
  fun cursor value after hread => himp value (h cursor value after hread)

theorem yields_failHere {P : α → Prop} (message : String) :
    Yields P (failHere message : Reader α) := by
  intro cursor value after hread
  cases hread

theorem yields_failBehind {P : α → Prop} (bytes : Nat) (message : String) :
    Yields P (failBehind bytes message : Reader α) := by
  intro cursor value after hread
  cases hread

theorem yields_failAt {P : α → Prop} (message : String) :
    Yields P (failAt message : Reader α) :=
  yields_failBehind 1 message

/-! ## Numbers -/

theorem integerPart_le (digits : List Nat) {value : Nat} (hvalue : value ≤ maxNatural) :
    (integerPart value digits).1 ≤ maxNatural := by
  induction digits generalizing value with
  | nil => exact hvalue
  | cons digit rest ih =>
    rw [integerPart]
    split
    · next hnext => exact ih hnext
    · exact hvalue

theorem kept_integer (isNegative : Bool) {value : Nat} (hvalue : value ≤ maxNatural) :
    (integer isNegative value).Kept := by
  unfold integer
  split
  · split
    · exact trivial
    · next hin =>
      constructor <;> omega
  · exact hvalue

theorem yields_rounded (isNegative : Bool) (significand : Nat) (exponent : Int) :
    Yields Number.Kept (rounded isNegative significand exponent) := by
  unfold rounded
  split
  · exact yields_pure trivial
  · exact yields_failHere _

/-- An integer that is read is kept exactly. -/
theorem yields_number (isNegative : Bool) : Yields Number.Kept (number isNegative) := by
  apply yields_bind
  intro whole
  have hwhole := integerPart_le whole (Nat.zero_le maxNatural)
  apply yields_bind
  intro behind
  apply yields_bind
  intro sign
  cases sign with
  | some negativeExponent =>
    apply yields_bind
    intro _
    apply yields_bind
    intro fuel
    apply yields_bind
    intro exponent
    cases exponent with
    | some value => exact yields_rounded isNegative _ _
    | none => exact yields_pure trivial
  | none =>
    cases behind with
    | some found => exact yields_rounded isNegative _ _
    | none =>
      dsimp only
      split
      · exact yields_pure (kept_integer isNegative hwhole)
      · exact yields_rounded isNegative _ _

/-- What is found at a character is no array and no object, and `null` only at an `n`. -/
def IsScalarAt (c : Char) (found : Option Value) : Prop :=
  ∀ value, found = some value → value.Canonical ∧ value.nesting = 0 ∧ (value = .null → c = 'n')

theorem yields_scalar? (c : Char) : Yields (IsScalarAt c) (scalar? c) := by
  have hsome {value : Value} (hvalue : value.Canonical) (hnesting : value.nesting = 0)
      (hnull : value = .null → c = 'n') : Yields (IsScalarAt c) (pure (some value)) :=
    yields_pure fun _ hfound => Option.some.inj hfound ▸ ⟨hvalue, hnesting, hnull⟩
  have hnumber (isNegative : Bool) :
      Yields (IsScalarAt c) (do return some (.number (← number isNegative))) :=
    (yields_number isNegative).bind fun _ hkept => hsome (.number hkept) rfl nofun
  unfold scalar?
  split
  · exact yields_bind fun _ => yields_bind fun _ => hsome .null rfl fun _ => rfl
  · exact yields_bind fun _ => yields_bind fun _ => hsome (.bool true) rfl nofun
  · exact yields_bind fun _ => yields_bind fun _ => hsome (.bool false) rfl nofun
  · exact yields_bind fun _ => hnumber true
  · exact yields_bind fun _ => yields_bind fun text => hsome (.text text) rfl nofun
  · split
    · exact hnumber false
    · exact yields_pure nofun

/-! ## Arrays and objects -/

theorem yields_itemsFrom {P : α → Prop} {item : Reader α} (hitem : Yields P item) (fuel : Nat)
    (first : Bool) : Yields (fun items => ∀ x ∈ items, P x) (itemsFrom item fuel first) := by
  induction fuel generalizing first with
  | zero => exact yields_pure (by simp)
  | succ fuel ih =>
    apply yields_bind
    intro more
    split
    · refine hitem.bind fun x hx => ?_
      refine (ih false).bind fun items hitems => ?_
      exact yields_pure (List.forall_mem_cons.mpr ⟨hx, hitems⟩)
    · exact yields_pure (by simp)

/-- The items of an array behind its bracket. -/
theorem yields_arrayItems {P : α → Prop} {item : Reader α} (hitem : Yields P item) :
    Yields (fun items => ∀ x ∈ items, P x) (do
      let items ← itemsFrom item ((← fuel) + 1) true
      arrayEnd
      return items) := by
  apply yields_bind
  intro fuel
  refine (yields_itemsFrom hitem (fuel + 1) true).bind fun items hitems => ?_
  exact yields_bind fun _ => yields_pure hitems

theorem yields_membersFrom {P : Value → Prop} {member : Reader Value} (hmember : Yields P member)
    (fuel : Nat) (first : Bool) :
    Yields (fun members => ∀ m ∈ members, P m.2) (membersFrom member fuel first) := by
  induction fuel generalizing first with
  | zero => exact yields_pure (by simp)
  | succ fuel ih =>
    apply yields_bind
    intro more
    split
    · apply yields_bind
      intro name
      apply yields_bind
      intro _
      refine hmember.bind fun value hvalue => ?_
      refine (ih false).bind fun members hmembers => ?_
      exact yields_pure (List.forall_mem_cons.mpr ⟨hvalue, hmembers⟩)
    · exact yields_pure (by simp)

/-- What every member preserves holds behind the last one. -/
theorem yields_foldMembers {P : σ → Prop} {member : String → σ → Reader σ}
    (hmember : ∀ name state, P state → Yields P (member name state)) (fuel : Nat) (first : Bool)
    {state : σ} (hstate : P state) : Yields P (foldMembers member fuel first state) := by
  induction fuel generalizing first state with
  | zero => exact yields_pure hstate
  | succ fuel ih =>
    apply yields_bind
    intro more
    split
    · apply yields_bind
      intro name
      exact (hmember name state hstate).bind fun next hnext => ih false hnext
    · exact yields_pure hstate

end Reader

/-! ## Members in order -/

section

variable {α : Type} {name : String} {value : α} {sorted : List (String × α)}

theorem eq_or_mem_of_mem_insertMember {member : String × α}
    (hmember : member ∈ insertMember name value sorted) :
    member = (name, value) ∨ member ∈ sorted := by
  induction sorted with
  | nil => exact .inl (List.mem_singleton.mp hmember)
  | cons first rest ih =>
    rw [insertMember] at hmember
    split at hmember
    · exact (List.mem_cons.mp hmember).imp_right (List.mem_cons_of_mem _)
    · split at hmember
      · exact List.mem_cons.mp hmember
      · rcases List.mem_cons.mp hmember with rfl | hrest
        · exact .inr List.mem_cons_self
        · exact (ih hrest).imp_right (List.mem_cons_of_mem _)

theorem Sorted.insertMember (hsorted : Sorted sorted) :
    Sorted (insertMember name value sorted) := by
  induction sorted with
  | nil => exact List.pairwise_singleton _ _
  | cons first rest ih =>
    obtain ⟨hfirst, hrest⟩ := List.pairwise_cons.mp hsorted
    rw [Json.insertMember]
    split
    · next hname => exact List.pairwise_cons.mpr ⟨hname ▸ hfirst, hrest⟩
    · next hne =>
      split
      · next hlt =>
        refine List.pairwise_cons.mpr ⟨?_, hsorted⟩
        intro member hmember
        rcases List.mem_cons.mp hmember with rfl | hmember
        · exact hlt
        · exact lt_trans hlt (hfirst member hmember)
      · next hle =>
        have hgt : first.1 < name := lt_of_le_of_ne (not_lt.mp hle) (Ne.symm hne)
        refine List.pairwise_cons.mpr ⟨?_, ih hrest⟩
        intro member hmember
        rcases eq_or_mem_of_mem_insertMember hmember with rfl | hmember
        · exact hgt
        · exact hfirst member hmember

theorem sorted_sortMembers (members : List (String × α)) : Sorted (sortMembers members) := by
  have hfold : ∀ sorted : List (String × α), Sorted sorted →
      Sorted (members.foldl (fun sorted m => Json.insertMember m.1 m.2 sorted) sorted) := by
    induction members with
    | nil => exact fun _ hsorted => hsorted
    | cons member members ih => exact fun _ hsorted => ih _ hsorted.insertMember
  exact hfold [] List.Pairwise.nil

theorem mem_of_mem_sortMembers {members : List (String × α)} :
    ∀ member ∈ sortMembers members, member ∈ members := by
  have hfold : ∀ sorted : List (String × α), ∀ member ∈
      members.foldl (fun sorted m => Json.insertMember m.1 m.2 sorted) sorted,
      member ∈ sorted ∨ member ∈ members := by
    induction members with
    | nil => exact fun _ _ hmember => .inl hmember
    | cons first members ih =>
      intro sorted member hmember
      rcases ih _ member hmember with hinserted | hmore
      · rcases eq_or_mem_of_mem_insertMember hinserted with rfl | hold
        · exact .inr List.mem_cons_self
        · exact .inl hold
      · exact .inr (List.mem_cons_of_mem _ hmore)
  intro member hmember
  exact (hfold [] member hmember).resolve_left (List.not_mem_nil)

end

/-! ## Values -/

namespace Reader

/-- The character behind any blanks. -/
def next? (cursor : Cursor) : Option Char :=
  (cursor.rest.dropWhile isBlank).head?

theorem afterBlanks?_ok {cursor after : Cursor} {next : Option Char}
    (h : afterBlanks? cursor = .ok (next, after)) : next = next? cursor ∧ next? after = next := by
  have hrest := rest_dropWhileFrom isBlank cursor.rest cursor rfl
  cases h
  rw [hrest]
  constructor
  · rfl
  · rw [next?, hrest, List.dropWhile_idempotent]

theorem canonical_array {items : List Value} {depth : Nat} (hdepth : 0 < depth)
    (hitems : ∀ item ∈ items, item.Canonical ∧ item.nesting < depth) :
    (Value.array items).Canonical ∧ (Value.array items).nesting < depth + 1 := by
  have hinner := itemsNesting_le_iff.mpr fun item hitem =>
    Nat.le_sub_one_of_lt (hitems item hitem).2
  refine ⟨.array fun item hitem => (hitems item hitem).1, ?_⟩
  rw [Value.nesting]
  omega

theorem canonical_object {members : List (String × Value)} {depth : Nat} (hdepth : 0 < depth)
    (hmembers : ∀ member ∈ members, member.2.Canonical ∧ member.2.nesting < depth) :
    (Value.object (sortMembers members)).Canonical ∧
      (Value.object (sortMembers members)).nesting < depth + 1 := by
  have hsorted : ∀ member ∈ sortMembers members,
      member.2.Canonical ∧ member.2.nesting < depth :=
    fun member hmember => hmembers member (mem_of_mem_sortMembers member hmember)
  have hinner := membersNesting_le_iff.mpr fun member hmember =>
    Nat.le_sub_one_of_lt (hsorted member hmember).2
  refine ⟨.object (sorted_sortMembers members) fun member hmember => (hsorted member hmember).1,
    ?_⟩
  rw [Value.nesting]
  omega

/-- A value that is read is canonical and nested less than the depth, and it is
`null` only if the text starts with an `n`. -/
theorem value_ok {depth : Nat} {cursor after : Cursor} {value : Value}
    (hread : Reader.value depth cursor = .ok (value, after)) :
    value.Canonical ∧ value.nesting < depth ∧ (value = .null → next? cursor = some 'n') := by
  induction depth generalizing cursor after value with
  | zero => cases hread
  | succ depth ih =>
    have hinner : Yields (fun value => value.Canonical ∧ value.nesting < depth)
        (Reader.value depth) := fun _ _ _ hread => ⟨(ih hread).1, (ih hread).2.1⟩
    obtain ⟨next, between, hstart, hread⟩ := bind_ok hread
    obtain ⟨rfl, -⟩ := afterBlanks?_ok hstart
    cases hnext : next? cursor with
    | none =>
      rw [hnext] at hread
      cases hread
    | some c =>
      rw [hnext] at hread
      refine (?_ : Yields (fun value => value.Canonical ∧ value.nesting < depth + 1 ∧
        (value = .null → some c = some 'n')) _) between value after hread
      dsimp only
      split
      · split
        · exact yields_failAt _
        · next hdepth =>
          have hpos : 0 < depth := Nat.pos_of_ne_zero hdepth
          split
          · refine Yields.bind (yields_bind fun _ => yields_arrayItems hinner) ?_
            intro items hitems
            obtain ⟨hcanonical, hnesting⟩ := canonical_array hpos hitems
            exact yields_pure ⟨hcanonical, hnesting, by rintro ⟨⟩⟩
          · apply yields_bind
            intro _
            apply yields_bind
            intro fuel
            refine (yields_membersFrom hinner (fuel + 1) true).bind fun members hmembers => ?_
            apply yields_bind
            intro _
            obtain ⟨hcanonical, hnesting⟩ := canonical_object hpos hmembers
            exact yields_pure ⟨hcanonical, hnesting, by rintro ⟨⟩⟩
      · refine (yields_scalar? c).bind fun found hfound => ?_
        cases found with
        | none => exact yields_failAt _
        | some value =>
          obtain ⟨hcanonical, hnesting, hnull⟩ := hfound value rfl
          exact yields_pure ⟨hcanonical, by omega, fun hvalue => congrArg some (hnull hvalue)⟩

end Reader

/-! ## Data -/

open Reader

mutual

/-- How deeply the lists and the records of a shape are nested. -/
def Shape.height : Shape → Nat
  | .text _ | .any => 0
  | .list item => item.height + 1
  | .optional inner => inner.height
  | .record _ fields _ => fields.height + 1

/-- The greatest height of the fields. -/
def Fields.height : Fields → Nat
  | .nil => 0
  | .cons _ shape _ rest => max shape.height rest.height

end

/-- The data are sound, and their value is nested no more than the depth allows or
the shape demands. -/
def Shape.Returned (shape : Shape) (depth : Nat) (data : shape.Data) : Prop :=
  shape.Sound data ∧ (shape.toValue data).nesting ≤ max (depth - 1) shape.height

/-- The same for fields, and for the members that are written for them. -/
def Fields.Returned (fields : Fields) (depth : Nat) (data : fields.Data) : Prop :=
  fields.Sound data ∧ membersNesting (fields.toMembers data) ≤ max (depth - 1) fields.height

theorem Fields.Returned.cons {name : String} {shape : Shape} {required : Bool} {rest : Fields}
    {depth : Nat} {data : shape.Data} {more : rest.Data} (hdata : shape.Returned depth data)
    (hmore : rest.Returned depth more) :
    (Fields.cons name shape required rest).Returned depth (data, more) := by
  obtain ⟨hsound, hnesting⟩ := hdata
  obtain ⟨hsounds, hnestings⟩ := hmore
  refine ⟨⟨hsound, hsounds⟩, ?_⟩
  rw [Fields.height]
  rcases @Fields.toMembers_cons name shape required rest data more with ⟨-, -, hleft⟩ | hwritten
  · rw [hleft]
    omega
  · rw [hwritten, membersNesting]
    omega

theorem Shape.Returned.list {item : Shape} {depth : Nat} {items : List item.Data}
    (hitems : ∀ data ∈ items, item.Returned depth data) :
    (Shape.list item).Returned (depth + 1) items := by
  refine ⟨List.forall_iff_forall_mem.mpr fun data hdata => (hitems data hdata).1, ?_⟩
  have hinner : itemsNesting (items.map item.toValue) ≤ max (depth - 1) item.height := by
    rw [itemsNesting_le_iff, List.forall_mem_map]
    exact fun data hdata => (hitems data hdata).2
  rw [Shape.height]
  show itemsNesting (items.map item.toValue) + 1 ≤ _
  omega

theorem Fields.Returned.record {fields : Fields} {depth : Nat} {data : fields.Data}
    (hdata : fields.Returned depth data) (name : String) {isOpen : Bool}
    {extra : List (String × Value)} (hsorted : Sorted extra)
    (hextra : ∀ member ∈ extra, member.1 ∉ fields.names ∧ member.2.Canonical ∧
      member.2.nesting < depth) (hopen : isOpen = false → extra = []) :
    (Shape.record name fields isOpen).Returned (depth + 1) (data, extra) := by
  obtain ⟨hsound, hnesting⟩ := hdata
  refine ⟨⟨hsound, hsorted, fun member hmember => ?_, hopen⟩, ?_⟩
  · obtain ⟨hname, hcanonical, -⟩ := hextra member hmember
    exact ⟨hname, hcanonical⟩
  · have hunknown : membersNesting extra ≤ depth - 1 :=
      membersNesting_le_iff.mpr fun member hmember =>
        Nat.le_sub_one_of_lt (hextra member hmember).2.2
    rw [Shape.height]
    show membersNesting (fields.toMembers data ++ extra) + 1 ≤ _
    rw [membersNesting_append]
    omega

mutual

/-- What stands for missing data may be returned. -/
theorem Shape.returned_empty : (shape : Shape) → (depth : Nat) →
    shape.Returned depth shape.empty
  | .text _, _ => ⟨trivial, Nat.zero_le _⟩
  | .any, _ => ⟨Value.Canonical.null, Nat.zero_le _⟩
  | .list item, depth => by
    refine ⟨trivial, ?_⟩
    rw [Shape.height]
    show 1 ≤ _
    omega
  | .optional inner, _ => ⟨nofun, Nat.zero_le _⟩
  | .record name fields isOpen, depth => by
    obtain ⟨hsound, hnesting⟩ := fields.returned_empty 0
    refine ⟨⟨hsound, List.Pairwise.nil, nofun, fun _ => rfl⟩, ?_⟩
    rw [Shape.height]
    show membersNesting (fields.toMembers fields.empty ++ []) + 1 ≤ _
    rw [List.append_nil]
    omega

/-- What stands for missing fields may be returned. -/
theorem Fields.returned_empty : (fields : Fields) → (depth : Nat) →
    fields.Returned depth fields.empty
  | .nil, _ => ⟨trivial, Nat.zero_le _⟩
  | .cons _ shape _ rest, depth => .cons (shape.returned_empty depth) (rest.returned_empty depth)

end

/-! ## Reading data -/

/-- What is known of the fields may be returned. -/
def Fields.Known : (fields : Fields) → Nat → fields.Slots → Prop
  | .nil, _, _ => True
  | .cons _ shape _ rest, depth, slots =>
    (∀ data, slots.1 = some data → shape.Returned depth data) ∧ rest.Known depth slots.2

theorem Fields.known_noSlots : (fields : Fields) → (depth : Nat) →
    fields.Known depth fields.noSlots
  | .nil, _ => trivial
  | .cons _ _ _ rest, depth => ⟨nofun, rest.known_noSlots depth⟩

theorem Fields.close_cons_ok {name : String} {shape : Shape} {required : Bool} {rest : Fields}
    {slot : Option shape.Data} {slots : rest.Slots} {data : shape.Data} {more : rest.Data}
    (hclose : (Fields.cons name shape required rest).close (slot, slots) = .ok (data, more)) :
    data = slot.getD shape.empty ∧ rest.close slots = .ok more := by
  have hmap {found : Except String rest.Data}
      (h : found.map (fun more => (slot.getD shape.empty, more)) = .ok (data, more)) :
      data = slot.getD shape.empty ∧ found = .ok more := by
    cases found with
    | error message => cases h
    | ok more =>
      cases h
      exact ⟨rfl, rfl⟩
  cases slot with
  | some data => exact hmap hclose
  | none =>
    cases required with
    | true => cases hclose
    | false => exact hmap hclose

/-- Closing fields adds nothing but what stands for missing data. -/
theorem Fields.Known.returned : {fields : Fields} → {depth : Nat} → {slots : fields.Slots} →
    (hknown : fields.Known depth slots) → {data : fields.Data} →
    (hclose : fields.close slots = .ok data) → fields.Returned depth data
  | .nil, depth, (), _, (), _ => Fields.returned_empty .nil depth
  | .cons name shape required rest, depth, (slot, slots), ⟨hslot, hslots⟩, (data, more),
      hclose => by
    obtain ⟨rfl, hrest⟩ := Fields.close_cons_ok hclose
    refine .cons ?_ (hslots.returned hrest)
    cases slot with
    | none => exact shape.returned_empty depth
    | some data => exact hslot data rfl

theorem orNull_ok {α : Type} {reader : Reader α} {cursor after : Cursor} {found : Option α}
    (hread : orNull reader cursor = .ok (found, after)) :
    (found = none ∧ next? cursor = some 'n') ∨
      ∃ data between, found = some data ∧ next? cursor ≠ some 'n' ∧
        next? between = next? cursor ∧ reader between = .ok (data, after) := by
  obtain ⟨next, between, hstart, hread⟩ := bind_ok hread
  obtain ⟨rfl, hbetween⟩ := afterBlanks?_ok hstart
  split at hread
  · next hnext =>
    obtain ⟨_, _, _, hread⟩ := bind_ok hread
    obtain ⟨_, _, _, hread⟩ := bind_ok hread
    cases hread
    exact .inl ⟨rfl, hnext⟩
  · next hnext =>
    obtain ⟨data, _, hdata, hpure⟩ := bind_ok hread
    cases hpure
    exact .inr ⟨data, between, rfl, hnext, hbetween, hdata⟩

/-- Data that are read stand for `null` only if the text starts with an `n`. -/
theorem Shape.ne_null_of_read : (shape : Shape) → {depth : Nat} → {cursor after : Cursor} →
    {data : shape.Data} → (hread : shape.read depth cursor = .ok (data, after)) →
    (hnext : next? cursor ≠ some 'n') → shape.toValue data ≠ .null
  | .text _, _, _, _, _, _, _ => nofun
  | .any, _, _, _, _, hread, hnext => fun hnull => hnext ((value_ok hread).2.2 hnull)
  | .list _, _, _, _, _, _, _ => nofun
  | .record _ _ _, _, _, _, _, _, _ => nofun
  | .optional inner, depth, cursor, after, data, hread, hnext => by
    rw [read_optional] at hread
    rcases orNull_ok hread with ⟨-, hnull⟩ | ⟨inside, between, rfl, -, hbetween, hinside⟩
    · exact absurd hnull hnext
    · exact inner.ne_null_of_read hinside (hbetween ▸ hnext)

theorem yields_failKind {α : Type} {P : α → Prop} (wanted : String) (c : Char) :
    Yields P (failKind wanted c) := by
  unfold failKind
  split
  · exact yields_failHere _
  · split
    · exact yields_failHere _
    · apply yields_bind
      intro found
      cases found with
      | some value => exact yields_failHere _
      | none => exact yields_failAt _

theorem yields_failObject {α : Type} {P : α → Prop} (message : String) :
    Yields P (failObject message : Reader α) := by
  unfold failObject
  refine yields_bind fun next => yields_ite ?_ ?_
  · intro _
    exact yields_bind fun _ => yields_failHere message
  · intro _
    exact yields_failHere message

theorem yields_failArray {α : Type} {P : α → Prop} (message : String) :
    Yields P (failArray message : Reader α) := by
  unfold failArray
  refine yields_bind fun next => ?_
  dsimp only
  split
  · exact yields_bind fun _ => yields_failHere message
  · exact yields_bind fun _ => yields_bind fun _ => yields_failHere message
  · exact yields_failHere message

/-- Inside of an array or an object one level is left less. -/
theorem yields_enter (depth : Nat) : Yields (fun inner => inner + 1 = depth) (enter depth) := by
  unfold enter
  split
  · exact yields_failAt _
  · exact yields_bind fun _ => yields_pure (by omega)

/-- What is known of a record may be returned. -/
def RecordKnown (fields : Fields) (isOpen : Bool) (depth : Nat)
    (state : fields.Slots × List (String × Value)) : Prop :=
  fields.Known depth state.1 ∧ Sorted state.2 ∧
    (∀ member ∈ state.2, member.1 ∉ fields.names ∧ member.2.Canonical ∧
      member.2.nesting < depth) ∧ (isOpen = false → state.2 = [])

/-- What the reader of a member finds: a field with its data, or no field. -/
def Fields.Found (fields : Fields) (depth : Nat) (name : String) : Option fields.Slots → Prop
  | some slots => fields.Known depth slots
  | none => name ∉ fields.names

theorem yields_recordMember {fields : Fields} {depth : Nat} (isOpen : Bool)
    (hmember : ∀ name slots, fields.Known depth slots →
      Yields (fields.Found depth name) (fields.readMember depth name slots)) (name : String)
    {state : fields.Slots × List (String × Value)}
    (hstate : RecordKnown fields isOpen depth state) :
    Yields (RecordKnown fields isOpen depth) (recordMember fields isOpen depth name state) := by
  obtain ⟨hslots, hsorted, hextra, hopen⟩ := hstate
  refine (hmember name state.1 hslots).bind fun found hfound => ?_
  cases found with
  | some slots => exact yields_pure ⟨hfound, hsorted, hextra, hopen⟩
  | none =>
    apply yields_bind
    intro _
    split
    · next hisOpen =>
      have hvalue : Yields (fun value => value.Canonical ∧ value.nesting < depth)
          (Reader.value depth) := fun _ _ _ hread => ⟨(value_ok hread).1, (value_ok hread).2.1⟩
      refine hvalue.bind fun value hvalue => yields_pure ⟨hslots, hsorted.insertMember, ?_, ?_⟩
      · intro member hmember
        rcases eq_or_mem_of_mem_insertMember hmember with rfl | hold
        · exact ⟨hfound, hvalue⟩
        · exact hextra member hold
      · intro hclosed
        rw [hisOpen] at hclosed
        cases hclosed
    · apply yields_bind
      intro _
      exact yields_pure ⟨hslots, hsorted, hextra, hopen⟩

/-- A record that is read may be returned if that holds of its fields, whether they
are read as members or as items. -/
theorem yields_record {fields : Fields} (name : String) (isOpen : Bool) (depth : Nat)
    (hmember : ∀ inner name slots, fields.Known inner slots →
      Yields (fields.Found inner name) (fields.readMember inner name slots))
    (hitems : ∀ inner, Yields (fields.Returned inner)
      (fields.readItems (fields.tooFew name) inner 0 true)) :
    Yields ((Shape.record name fields isOpen).Returned depth)
      ((Shape.record name fields isOpen).read depth) := by
  rw [Shape.read]
  refine yields_bind fun c => yields_ite ?_ fun _ => yields_ite ?_ ?_
  · intro _
    refine (yields_enter depth).bind fun inner hinner => ?_
    subst hinner
    apply yields_bind
    intro fuel
    have hstep := fun name state =>
      @yields_recordMember fields inner isOpen (hmember inner) name state
    have hnone : RecordKnown fields isOpen inner (fields.noSlots, []) :=
      ⟨fields.known_noSlots inner, List.Pairwise.nil, nofun, fun _ => rfl⟩
    refine (yields_foldMembers hstep (fuel + 1) true hnone).bind fun state hstate => ?_
    obtain ⟨hslots, hsorted, hextra, hopen⟩ := hstate
    apply yields_bind
    intro _
    cases hclose : fields.close state.1 with
    | error message => exact yields_failHere _
    | ok data => exact yields_pure ((hslots.returned hclose).record name hsorted hextra hopen)
  · intro _
    refine (yields_enter depth).bind fun inner hinner => ?_
    subst hinner
    refine (hitems inner).bind fun data hdata => ?_
    apply yields_bind
    intro _
    exact yields_pure (hdata.record name List.Pairwise.nil nofun fun _ => rfl)
  · intro _
    exact yields_failKind _ c

mutual

/-- Data that are read may be returned, and so are sound. -/
theorem Shape.yields_read : (shape : Shape) → (depth : Nat) →
    Yields (shape.Returned depth) (shape.read depth)
  | .text wanted, depth => by
    have htext (text : String) : Shape.Returned (.text wanted) depth text :=
      ⟨trivial, Nat.zero_le _⟩
    rw [Shape.read]
    refine yields_bind fun c => yields_ite ?_ ?_
    · intro _
      exact yields_bind fun _ => (yields_true _).imp fun text _ => htext text
    · intro _
      exact yields_failKind wanted c
  | .any, depth => by
    rw [Shape.read]
    intro cursor value after hread
    obtain ⟨hcanonical, hnesting, -⟩ := value_ok hread
    refine ⟨hcanonical, Nat.le_trans (Nat.le_sub_one_of_lt hnesting) (Nat.le_max_left _ _)⟩
  | .list item, depth => by
    rw [Shape.read]
    refine yields_bind fun c => yields_ite ?_ ?_
    · intro _
      refine (yields_enter depth).bind fun inner hinner => ?_
      subst hinner
      exact (yields_arrayItems (item.yields_read inner)).imp fun items hitems => .list hitems
    · intro _
      exact yields_failKind _ c
  | .optional inner, depth => by
    rw [read_optional]
    intro cursor found after hread
    rcases orNull_ok hread with ⟨rfl, -⟩ | ⟨data, between, rfl, hnext, hbetween, hinside⟩
    · exact ⟨nofun, Nat.zero_le _⟩
    · obtain ⟨hsound, hnesting⟩ := inner.yields_read depth between data after hinside
      have hnull := inner.ne_null_of_read hinside (hbetween ▸ hnext)
      refine ⟨?_, hnesting⟩
      rintro _ ⟨⟩
      exact ⟨hsound, hnull⟩
  | .record name fields isOpen, depth =>
    yields_record name isOpen depth (fun inner => fields.yields_readMember inner)
      fun inner => fields.yields_readItems _ inner 0 true

/-- The reader of a member finds a field with data that may be returned. -/
theorem Fields.yields_readMember : (fields : Fields) → (depth : Nat) → (name : String) →
    (slots : fields.Slots) → (hslots : fields.Known depth slots) →
    Yields (fields.Found depth name) (fields.readMember depth name slots)
  | .nil, _, _, _, _ => yields_pure List.not_mem_nil
  | .cons field shape required rest, depth, name, (slot, slots), ⟨hslot, hslots⟩ => by
    rw [Fields.readMember]
    refine yields_ite (fun _ => yields_ite ?_ ?_) ?_
    · intro _
      exact yields_failObject _
    · intro _
      apply yields_bind
      intro _
      refine (shape.yields_read depth).bind fun data hdata => yields_pure ⟨?_, hslots⟩
      rintro _ ⟨⟩
      exact hdata
    · intro hne
      refine (rest.yields_readMember depth name slots hslots).bind fun found hfound => ?_
      cases found with
      | some slots => exact yields_pure ⟨hslot, hfound⟩
      | none => exact yields_pure (List.not_mem_cons_of_ne_of_not_mem hne hfound)

/-- The items of a record that is given as an array. -/
theorem Fields.yields_readItems : (fields : Fields) → (tooFew : Nat → String) → (depth : Nat) →
    (index : Nat) → (first : Bool) →
    Yields (fields.Returned depth) (fields.readItems tooFew depth index first)
  | .nil, _, _, _, _ => yields_pure (Fields.returned_empty .nil _)
  | .cons name shape required rest, tooFew, depth, index, first => by
    rw [Fields.readItems]
    refine yields_bind fun _ => yields_ite ?_ fun _ => yields_ite ?_ ?_
    · intro _
      refine (shape.yields_read depth).bind fun data hdata => ?_
      exact (rest.yields_readItems tooFew depth (index + 1) false).bind fun more hmore =>
        yields_pure (.cons hdata hmore)
    · intro _
      exact yields_failArray _
    · intro _
      exact (rest.yields_readItems tooFew depth (index + 1) first).bind fun more hmore =>
        yields_pure (.cons (shape.returned_empty depth) hmore)

end

end Relocate.Json
