import Relocate.Proofs.Json.Values

/-!
# Written data are read back

`Shape.Sound` says which data a reader of a shape may return: kept values are
canonical, unknown members are sorted and have other names than the fields, and
what is there in an optional field is not `null`.  Such data are read back from
the text of their value when the depth allows its nesting, for every shape that
is `isProper`: fields of a record have different names, and optional fields may
be missing.
-/

namespace Relocate.Json

open Reader

mutual

/-- A reader of the shape may return the data. -/
def Shape.Sound : (shape : Shape) → shape.Data → Prop
  | .text _, _ => True
  | .any, value => Value.Canonical value
  | .list item, items => List.Forall (Shape.Sound item) items
  | .optional inner, data =>
    ∀ inside, data = some inside → Shape.Sound inner inside ∧ inner.toValue inside ≠ .null
  | .record _ fields isOpen, data =>
    Fields.Sound fields data.1 ∧ Sorted data.2 ∧
      (∀ member ∈ data.2, member.1 ∉ fields.names ∧ member.2.Canonical) ∧
      (isOpen = false → data.2 = [])

/-- A reader of the fields may return the data. -/
def Fields.Sound : (fields : Fields) → fields.Data → Prop
  | .nil, _ => True
  | .cons _ shape _ rest, data => Shape.Sound shape data.1 ∧ Fields.Sound rest data.2

end

/-- There may be nothing. -/
def Shape.isOptional : Shape → Bool
  | .optional _ => true
  | _ => false

mutual

/-- In every record the fields have different names and no optional field is
required. -/
def Shape.isProper : Shape → Bool
  | .text _ | .any => true
  | .list item => Shape.isProper item
  | .optional inner => Shape.isProper inner
  | .record _ fields _ => Fields.isProper fields

/-- The fields have different names and no optional one is required. -/
def Fields.isProper : Fields → Bool
  | .nil => true
  | .cons name shape required rest =>
    Shape.isProper shape && !(shape.isOptional && required) && !rest.names.contains name &&
      Fields.isProper rest

end

/-! ## Members of fields -/

namespace Fields

variable {name : String} {shape : Shape} {required : Bool} {rest : Fields}

/-- The member of a field is left out if there is nothing in it. -/
theorem toMembers_cons (data : shape.Data) (more : rest.Data) :
    (shape.isOptional = true ∧ data = shape.empty ∧
      toMembers (cons name shape required rest) (data, more) = toMembers rest more) ∨
    toMembers (cons name shape required rest) (data, more) =
      (name, shape.toValue data) :: toMembers rest more := by
  cases shape with
  | optional inner =>
    cases data with
    | none => exact .inl ⟨rfl, rfl, by rw [toMembers]⟩
    | some inside => exact .inr (by rw [toMembers, Shape.toValue])
  | _ => exact .inr (by rw [toMembers]; simp)

theorem name_mem_of_mem_toMembers : (fields : Fields) → (data : fields.Data) →
    ∀ member ∈ toMembers fields data, member.1 ∈ fields.names
  | .nil, _ => by
    intro member hmember
    cases hmember
  | .cons name shape required rest, (data, more) => by
    intro member hmember
    have hrest : ∀ member ∈ toMembers rest more, member.1 ∈ name :: rest.names :=
      fun member hmember =>
        List.mem_cons_of_mem name (name_mem_of_mem_toMembers rest more member hmember)
    rcases toMembers_cons data more with ⟨-, -, hleft⟩ | hwritten
    · rw [hleft] at hmember
      exact hrest member hmember
    · rw [hwritten] at hmember
      rcases List.mem_cons.mp hmember with rfl | hmore
      · exact List.mem_cons_self
      · exact hrest member hmore

end Fields

/-! ## Reading fields -/

namespace Fields

variable {depth : Nat}

/-- What a field reads takes the known fields to more. -/
def Step (fields : Fields) (depth : Nat) (member : String × Value) (slots next : fields.Slots) :
    Prop :=
  ReadsMember (readMember fields depth member.1 slots) member.2 (some next)

/-- Nothing is read for a name of no field. -/
theorem reads_readMember_none : (fields : Fields) → (slots : fields.Slots) → {name : String} →
    (hname : name ∉ fields.names) → (text : List Char) →
    Reads (readMember fields depth name slots) text none text
  | .nil, _, _, _, text => reads_pure none text
  | .cons field shape required rest, (slot, slots), name, hname, text => by
    have hne : name ≠ field := List.ne_of_not_mem_cons hname
    simp only [readMember, if_neg hne]
    apply (reads_readMember_none rest slots (List.not_mem_of_not_mem_cons hname) text).bind
    exact reads_pure none text

variable {name : String} {shape : Shape} {required : Bool} {rest : Fields}

theorem Step.lift {member : String × Value} {slots next : rest.Slots} (slot : Option shape.Data)
    (hne : member.1 ≠ name) (hstep : Step rest depth member slots next) :
    Step (cons name shape required rest) depth member (slot, slots) (slot, next) := by
  intro level tail htail
  simp only [readMember, if_neg hne]
  apply (hstep level tail htail).bind
  exact reads_pure _ tail

theorem Step.first {data : shape.Data}
    (hread : ReadsValue (shape.read depth) (shape.toValue data) data) (slots : rest.Slots) :
    Step (cons name shape required rest) depth (name, shape.toValue data) (none, slots)
      (some data, slots) := by
  intro level tail htail
  simp only [readMember, if_true, Option.isSome_none, Bool.false_eq_true, if_false]
  apply (reads_colon _).bind
  apply (hread.reads_behind level htail).bind
  exact reads_pure _ tail

/-- The members of the fields of a record fill its slots. -/
theorem steps_cons {data : shape.Data} {more : rest.Data} {slots : rest.Slots}
    (hoptional : shape.isOptional = true → required = false) (hname : name ∉ rest.names)
    (hread : (name, shape.toValue data) ∈ toMembers (cons name shape required rest) (data, more) →
      ReadsValue (shape.read depth) (shape.toValue data) data)
    (hsteps : Steps (Step rest depth) (toMembers rest more) rest.noSlots slots)
    (hclose : rest.close slots = .ok more) :
    ∃ slots, Steps (Step (cons name shape required rest) depth)
      (toMembers (cons name shape required rest) (data, more))
      (cons name shape required rest).noSlots slots ∧
      (cons name shape required rest).close slots = .ok (data, more) := by
  have hlifted (slot : Option shape.Data) :
      Steps (Step (cons name shape required rest) depth) (toMembers rest more)
        (slot, rest.noSlots) (slot, slots) := by
    apply hsteps.map (fun slots => (slot, slots))
    intro member hmember state next hstep
    apply hstep.lift slot
    rintro rfl
    exact hname (name_mem_of_mem_toMembers rest more member hmember)
  rcases @toMembers_cons name shape required rest data more with ⟨hshape, rfl, hleft⟩ | hwritten
  · rw [hleft]
    refine ⟨(none, slots), hlifted none, ?_⟩
    rw [hoptional hshape]
    simp only [close, hclose]
    rfl
  · rw [hwritten] at hread ⊢
    refine ⟨(some data, slots), .cons ?_ (hlifted (some data)), ?_⟩
    · exact Step.first (hread List.mem_cons_self) rest.noSlots
    · simp only [close, hclose]
      rfl

end Fields

section Records

theorem reads_valueStart {blanks : List Char} {c : Char} (rest : List Char)
    (hblanks : ∀ blank ∈ blanks, isBlank blank = true) (hc : isBlank c = false) :
    Reads valueStart (blanks ++ c :: rest) c (c :: rest) :=
  (reads_afterBlanks? rest hblanks hc).bind (reads_pure c (c :: rest))

theorem reads_enter (c : Char) (rest : List Char) {depth : Nat} (hdepth : 0 < depth) :
    Reads (enter (depth + 1)) (c :: rest) depth rest := by
  have hdeep : ¬ depth + 1 ≤ 1 := by omega
  rw [enter, if_neg hdeep]
  exact (reads_advance c rest).bind (reads_pure depth rest)

variable {fields : Fields} {depth : Nat}

/-- The reader of one member of an open record. -/
def recordMember (fields : Fields) (isOpen : Bool) (depth : Nat) (name : String)
    (state : fields.Slots × List (String × Value)) :
    Reader (fields.Slots × List (String × Value)) := do
  match ← Fields.readMember fields depth name state.1 with
  | some slots => return (slots, state.2)
  | none =>
    colon
    if isOpen then return (state.1, insertMember name (← Reader.value depth) state.2)
    else
      skipValue
      return state

/-- A member of a record takes its state to another one. -/
def RecordStep (fields : Fields) (isOpen : Bool) (depth : Nat) (member : String × Value)
    (state next : fields.Slots × List (String × Value)) : Prop :=
  ReadsMember (recordMember fields isOpen depth member.1 state) member.2 next

theorem Fields.Step.record {member : String × Value} {slots next : fields.Slots} (isOpen : Bool)
    (extra : List (String × Value)) (hstep : Fields.Step fields depth member slots next) :
    RecordStep fields isOpen depth member (slots, extra) (next, extra) := by
  intro level rest hrest
  apply (hstep level rest hrest).bind
  exact reads_pure _ rest

/-- An unknown member of an open record is kept. -/
theorem recordStep_unknown {member : String × Value} {extra : List (String × Value)}
    (slots : fields.Slots) (hname : member.1 ∉ fields.names)
    (hlt : ∀ old ∈ extra, old.1 < member.1)
    (hread : ReadsValue (Reader.value depth) member.2 member.2) :
    RecordStep fields true depth member (slots, extra) (slots, extra ++ [member]) := by
  intro level rest hrest
  apply (Fields.reads_readMember_none fields slots hname _).bind
  apply (reads_colon _).bind
  refine (hread.reads_behind level hrest).bind ?_
  rw [insertMember_of_lt member.2 hlt]
  exact reads_pure _ rest

theorem steps_unknown {extra more : List (String × Value)} (slots : fields.Slots)
    (hsorted : Sorted (extra ++ more))
    (hmore : ∀ member ∈ more, member.1 ∉ fields.names ∧
      ReadsValue (Reader.value depth) member.2 member.2) :
    Steps (RecordStep fields true depth) more (slots, extra) (slots, extra ++ more) := by
  induction more generalizing extra with
  | nil =>
    rw [List.append_nil]
    exact .nil _
  | cons member more ih =>
    obtain ⟨⟨hname, hread⟩, hmore⟩ := List.forall_mem_cons.mp hmore
    have hlt : ∀ old ∈ extra, old.1 < member.1 := fun old hold =>
      (List.pairwise_append.mp hsorted).2.2 old hold member List.mem_cons_self
    rw [List.append_cons] at hsorted ⊢
    exact .cons (recordStep_unknown slots hname hlt hread) (ih hsorted hmore)

/-- A written record is read back if its fields are. -/
theorem readsValue_record (name : String) (isOpen : Bool) {data : fields.Data}
    {extra : List (String × Value)} {slots : fields.Slots} (hdepth : 0 < depth)
    (hsteps : Steps (Fields.Step fields depth) (Fields.toMembers fields data) fields.noSlots slots)
    (hclose : fields.close slots = .ok data) (hsorted : Sorted extra)
    (hextra : ∀ member ∈ extra, member.1 ∉ fields.names ∧
      ReadsValue (Reader.value depth) member.2 member.2)
    (hopen : isOpen = false → extra = []) :
    ReadsValue (Shape.read (.record name fields isOpen) (depth + 1))
      (.object (Fields.toMembers fields data ++ extra)) (data, extra) := by
  have hknown : Steps (RecordStep fields isOpen depth) (Fields.toMembers fields data)
      (fields.noSlots, []) (slots, []) :=
    hsteps.map (fun slots => (slots, [])) fun _ _ _ _ hstep => hstep.record isOpen []
  have hunknown : Steps (RecordStep fields isOpen depth) extra (slots, []) (slots, extra) := by
    cases isOpen with
    | true => exact @steps_unknown fields depth [] extra slots hsorted hextra
    | false =>
      rw [hopen rfl]
      exact .nil _
  intro blanks level rest hblanks hrest
  have hlength := length_le_inLines (level + 1) true
    ((Fields.toMembers fields data ++ extra).map (writtenMember (level + 1)))
  rw [List.length_map] at hlength
  rw [written_object, List.cons_append, List.append_assoc, List.append_assoc]
  rw [Shape.read]
  apply (reads_valueStart _ hblanks rfl).bind
  apply (reads_enter '{' _ hdepth).bind
  apply (reads_fuel _).bind
  refine (reads_foldMembers (hknown.append hunknown) ?_ true (level + 1) isBlank_of_mem_lastLine
    rest ?_).bind ?_
  · refine Nat.lt_succ_of_le (Nat.le_trans hlength ?_)
    rw [List.length_append]
    exact Nat.le_add_right _ _
  · intro hmembers
    exact closes_lastLine (by simpa using hmembers) _
  · apply (reads_objectEnd rest).bind
    simp only [hclose]
    exact reads_pure _ rest

end Records

/-! ## Reading data -/

section

variable {depth : Nat}

theorem readsValue_text (wanted text : String) (depth : Nat) :
    ReadsValue (Shape.read (.text wanted) depth) (.text text) text := by
  intro blanks level rest hblanks hrest
  rw [written_text, List.cons_append, List.append_assoc]
  exact (reads_valueStart _ hblanks rfl).bind ((reads_advance '"' _).bind (reads_text text rest))

/-- A written list is read back if its items are. -/
theorem readsValue_list {item : Shape} {items : List item.Data}
    (hwhole : (Value.array (items.map item.toValue)).isFloatFree = true)
    (hdepth : (Value.array (items.map item.toValue)).nesting < depth)
    (hitems : ∀ data ∈ items, (item.toValue data).isFloatFree = true →
      ∀ {depth}, (item.toValue data).nesting < depth →
        ReadsValue (item.read depth) (item.toValue data) data) :
    ReadsValue (Shape.read (.list item) depth) (.array (items.map item.toValue)) items := by
  rw [Value.nesting] at hdepth
  rw [Value.isFloatFree, itemsFloatFree_iff, List.forall_mem_map] at hwhole
  obtain ⟨depth, rfl⟩ := Nat.exists_eq_succ_of_ne_zero (Nat.ne_of_gt (Nat.zero_lt_of_lt hdepth))
  have hpos : 0 < depth := by omega
  have hinner := nesting_lt_of_mem_items (Nat.lt_of_succ_lt_succ hdepth)
  rw [List.forall_mem_map] at hinner
  have hread : ∀ data ∈ items, ReadsValue (item.read depth) (item.toValue data) data :=
    fun data hdata => hitems data hdata (hwhole data hdata) (hinner data hdata)
  intro blanks level rest hblanks hrest
  rw [written_array, List.cons_append, List.append_assoc, List.append_assoc]
  exact (reads_valueStart _ hblanks rfl).bind
    ((reads_enter '[' _ hpos).bind (reads_arrayItems hwhole hread (level + 1) level rest))

/-- Reads `null` or what the reader reads. -/
def orNull {α : Type} (reader : Reader α) : Reader (Option α) := do
  if (← afterBlanks?) = some 'n' then
    advance
    wordEnd ['u', 'l', 'l']
    return none
  else some <$> reader

theorem read_optional (inner : Shape) (depth : Nat) :
    Shape.read (.optional inner) depth = orNull (inner.read depth) := by
  rw [Shape.read]
  rfl

theorem readsValue_none (inner : Shape) (depth : Nat) :
    ReadsValue (Shape.read (.optional inner) depth) .null (none : Option inner.Data) := by
  intro blanks level rest hblanks hrest
  rw [written_null]
  exact (reads_afterBlanks? _ hblanks rfl).bind ((reads_advance 'n' _).bind
    ((reads_wordEnd ['u', 'l', 'l'] rest).bind (reads_pure none rest)))

theorem readsValue_some {inner : Shape} {data : inner.Data} (hnull : inner.toValue data ≠ .null)
    (hwhole : (inner.toValue data).isFloatFree = true)
    (hread : ReadsValue (inner.read depth) (inner.toValue data) data) :
    ReadsValue (Shape.read (.optional inner) depth) (inner.toValue data)
      (some data : Option inner.Data) := by
  intro blanks level rest hblanks hrest
  obtain ⟨c, more, hwritten, hstart, hn⟩ := written_eq_cons hwhole level
  have hblank := isBlank_of_isStart hstart
  have hread := hread.reads level hrest
  rw [hwritten] at hread ⊢
  have hne : some c ≠ some 'n' := fun h => hnull (hn (Option.some.inj h))
  rw [read_optional]
  apply (reads_afterBlanks? (more ++ rest) hblanks hblank).bind
  rw [if_neg hne]
  exact hread.map some

end

mutual

/-- Written data are read back when the depth is above the nesting of their value. -/
theorem readsValue_read : (shape : Shape) → (hproper : shape.isProper = true) →
    {data : shape.Data} → (hsound : shape.Sound data) →
    (hwhole : (shape.toValue data).isFloatFree = true) → {depth : Nat} →
    (hdepth : (shape.toValue data).nesting < depth) →
    ReadsValue (shape.read depth) (shape.toValue data) data
  | .text wanted, _, text, _, _, depth, _ => readsValue_text wanted text depth
  | .any, _, value, hsound, hwhole, depth, hdepth => by
    rw [Shape.read]
    exact readsValue_value hsound hwhole hdepth
  | .list item, hproper, items, hsound, hwhole, depth, hdepth => by
    have hsounds := List.forall_iff_forall_mem.mp hsound
    apply readsValue_list hwhole hdepth
    intro data hdata hwhole depth hdepth
    exact readsValue_read item hproper (hsounds data hdata) hwhole hdepth
  | .optional inner, hproper, none, hsound, hwhole, depth, hdepth => readsValue_none inner depth
  | .optional inner, hproper, some data, hsound, hwhole, depth, hdepth => by
    obtain ⟨hinside, hnull⟩ := hsound data rfl
    exact readsValue_some hnull hwhole (readsValue_read inner hproper hinside hwhole hdepth)
  | .record name fields isOpen, hproper, (data, extra), hsound, hwhole, depth, hdepth => by
    obtain ⟨hfields, hsorted, hextra, hopen⟩ := hsound
    have hdepth : membersNesting (fields.toMembers data ++ extra) + 1 < depth := hdepth
    have hwhole : membersFloatFree (fields.toMembers data ++ extra) = true := hwhole
    rw [membersFloatFree_iff] at hwhole
    obtain ⟨depth, rfl⟩ := Nat.exists_eq_succ_of_ne_zero (Nat.ne_of_gt (Nat.zero_lt_of_lt hdepth))
    have hpos : 0 < depth := by omega
    have hinner := nesting_lt_of_mem_members (Nat.lt_of_succ_lt_succ hdepth)
    obtain ⟨slots, hsteps, hclose⟩ := @exists_steps fields hproper data hfields depth
      fun member hmember => by
        have hmember := List.mem_append_left extra hmember
        exact ⟨hwhole member hmember, hinner member hmember⟩
    apply readsValue_record name isOpen hpos hsteps hclose hsorted _ hopen
    intro member hmember
    obtain ⟨hname, hcanonical⟩ := hextra member hmember
    have hmember := List.mem_append_right (fields.toMembers data) hmember
    exact ⟨hname, readsValue_value hcanonical (hwhole member hmember) (hinner member hmember)⟩

/-- Written fields are read back. -/
theorem exists_steps : (fields : Fields) → (hproper : fields.isProper = true) →
    {data : fields.Data} → (hsound : fields.Sound data) → {depth : Nat} →
    (hmembers : ∀ member ∈ fields.toMembers data,
      member.2.isFloatFree = true ∧ member.2.nesting < depth) →
    ∃ slots, Steps (Fields.Step fields depth) (fields.toMembers data) fields.noSlots slots ∧
      fields.close slots = .ok data
  | .nil, _, (), _, depth, _ => ⟨(), .nil (), rfl⟩
  | .cons name shape required rest, hproper, (data, more), hsound, depth, hmembers => by
    obtain ⟨hdata, hmore⟩ := hsound
    simp only [Fields.isProper, Bool.and_eq_true, Bool.not_eq_true', Bool.and_eq_false_imp,
      List.contains_eq_mem, decide_eq_false_iff_not] at hproper
    obtain ⟨⟨⟨hshape, hoptional⟩, hname⟩, hrest⟩ := hproper
    have hsub : ∀ member ∈ rest.toMembers more,
        member ∈ (Fields.cons name shape required rest).toMembers (data, more) := by
      intro member hmember
      rcases @Fields.toMembers_cons name shape required rest data more with ⟨-, -, h⟩ | h
      · exact h ▸ hmember
      · exact h ▸ List.mem_cons_of_mem _ hmember
    obtain ⟨slots, hsteps, hclose⟩ := exists_steps rest hrest hmore
      fun member hmember => hmembers member (hsub member hmember)
    apply Fields.steps_cons hoptional hname _ hsteps hclose
    intro hmember
    obtain ⟨hwhole, hnesting⟩ := hmembers _ hmember
    exact readsValue_read shape hshape hdata hwhole hnesting

end

end Relocate.Json
