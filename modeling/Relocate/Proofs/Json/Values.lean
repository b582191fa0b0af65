import Relocate.Proofs.Json.Reading

/-!
# Written values are read back

A value that was read is `Canonical`: its integers are kept exactly and its
members are sorted by different names.  Such a value without floats is read back
from what `Value.pretty` writes, if the depth allows its nesting.

The items of an array and the members of an object are followed by
`reads_itemsFrom` and `reads_foldMembers`, for any readers that read back what
stands between the commas.
-/

namespace Relocate.Json

open Reader

/-! ## Nesting and numbers of a value -/

mutual

/-- How deeply arrays and objects are nested in a value. -/
def Value.nesting : Value → Nat
  | .array items => itemsNesting items + 1
  | .object members => membersNesting members + 1
  | _ => 0

/-- The deepest nesting of items. -/
def itemsNesting : List Value → Nat
  | [] => 0
  | item :: rest => max item.nesting (itemsNesting rest)

/-- The deepest nesting of members. -/
def membersNesting : List (String × Value) → Nat
  | [] => 0
  | (_, value) :: rest => max value.nesting (membersNesting rest)

end

theorem itemsNesting_le_iff {items : List Value} {depth : Nat} :
    itemsNesting items ≤ depth ↔ ∀ item ∈ items, item.nesting ≤ depth := by
  induction items with
  | nil => simp [itemsNesting]
  | cons item rest ih => rw [itemsNesting, Nat.max_le, ih, List.forall_mem_cons]

theorem membersNesting_le_iff {members : List (String × Value)} {depth : Nat} :
    membersNesting members ≤ depth ↔ ∀ member ∈ members, member.2.nesting ≤ depth := by
  induction members with
  | nil => simp [membersNesting]
  | cons member rest ih => rw [membersNesting, Nat.max_le, ih, List.forall_mem_cons]

theorem membersNesting_append (members more : List (String × Value)) :
    membersNesting (members ++ more) = max (membersNesting members) (membersNesting more) := by
  induction members with
  | nil => simp [membersNesting]
  | cons member rest ih => rw [List.cons_append, membersNesting, ih, membersNesting, Nat.max_assoc]

theorem nesting_lt_of_mem_items {items : List Value} {depth : Nat}
    (hdepth : itemsNesting items < depth) : ∀ item ∈ items, item.nesting < depth :=
  fun item hitem => Nat.lt_of_le_of_lt (itemsNesting_le_iff.mp (Nat.le_refl _) item hitem) hdepth

theorem nesting_lt_of_mem_members {members : List (String × Value)} {depth : Nat}
    (hdepth : membersNesting members < depth) : ∀ member ∈ members, member.2.nesting < depth :=
  fun member hmember =>
    Nat.lt_of_le_of_lt (membersNesting_le_iff.mp (Nat.le_refl _) member hmember) hdepth

/-- The number is an integer. -/
def Number.isWhole : Number → Bool
  | .float _ _ => false
  | _ => true

mutual

/-- No number of the value is a float. -/
def Value.isFloatFree : Value → Bool
  | .number value => value.isWhole
  | .array items => itemsFloatFree items
  | .object members => membersFloatFree members
  | _ => true

/-- No number of the items is a float. -/
def itemsFloatFree : List Value → Bool
  | [] => true
  | item :: rest => item.isFloatFree && itemsFloatFree rest

/-- No number of the members is a float. -/
def membersFloatFree : List (String × Value) → Bool
  | [] => true
  | (_, value) :: rest => value.isFloatFree && membersFloatFree rest

end

theorem itemsFloatFree_iff {items : List Value} :
    itemsFloatFree items = true ↔ ∀ item ∈ items, item.isFloatFree = true := by
  induction items with
  | nil => simp [itemsFloatFree]
  | cons item rest ih => rw [itemsFloatFree, Bool.and_eq_true, ih, List.forall_mem_cons]

theorem membersFloatFree_iff {members : List (String × Value)} :
    membersFloatFree members = true ↔ ∀ member ∈ members, member.2.isFloatFree = true := by
  induction members with
  | nil => simp [membersFloatFree]
  | cons member rest ih => rw [membersFloatFree, Bool.and_eq_true, ih, List.forall_mem_cons]

/-- The number is kept as it is when it is written and read. -/
def Number.Kept : Number → Prop
  | .natural value => value ≤ maxNatural
  | .negative value => 0 < value ∧ value ≤ 1 <<< 63
  | .float _ _ => True

/-- The members have different names and are in their order. -/
def Sorted {α : Type} (members : List (String × α)) : Prop :=
  members.Pairwise fun a b => a.1 < b.1

/-- The value is one that a reader may return. -/
inductive Value.Canonical : Value → Prop
  | null : Canonical .null
  | bool (value : Bool) : Canonical (.bool value)
  | number {value : Number} (hkept : value.Kept) : Canonical (.number value)
  | text (value : String) : Canonical (.text value)
  | array {items : List Value} (hitems : ∀ item ∈ items, Canonical item) :
    Canonical (.array items)
  | object {members : List (String × Value)} (hsorted : Sorted members)
    (hmembers : ∀ member ∈ members, Canonical member.2) : Canonical (.object members)

/-! ## Members in order -/

theorem insertMember_of_lt {α : Type} {name : String} {sorted : List (String × α)} (value : α)
    (hlt : ∀ member ∈ sorted, member.1 < name) :
    insertMember name value sorted = sorted ++ [(name, value)] := by
  induction sorted with
  | nil => rfl
  | cons first rest ih =>
    obtain ⟨hfirst, hrest⟩ := List.forall_mem_cons.mp hlt
    rw [insertMember, if_neg (ne_of_gt hfirst), if_neg (lt_asymm hfirst), ih hrest]
    rfl

/-- Sorting changes nothing that is sorted. -/
theorem foldl_insertMember_of_sorted {α : Type} {sorted members : List (String × α)}
    (hsorted : Sorted (sorted ++ members)) :
    members.foldl (fun sorted (name, value) => insertMember name value sorted) sorted =
      sorted ++ members := by
  induction members generalizing sorted with
  | nil => simp
  | cons member rest ih =>
    have hlt : ∀ old ∈ sorted, old.1 < member.1 := fun old hold =>
      (List.pairwise_append.mp hsorted).2.2 old hold member List.mem_cons_self
    have hinserted := insertMember_of_lt member.2 hlt
    show rest.foldl _ (insertMember member.1 member.2 sorted) = sorted ++ member :: rest
    rw [hinserted, ih (by simpa using hsorted)]
    simp

theorem sortMembers_of_sorted {α : Type} {members : List (String × α)}
    (hsorted : Sorted members) : sortMembers members = members :=
  foldl_insertMember_of_sorted hsorted

/-! ## The text of a value -/

/-- The text of the value at a depth. -/
def Value.written (level : Nat) (value : Value) : List Char :=
  (value.pretty level).toList

/-- A line feed with blanks, with which a line at a depth starts. -/
def lineStart (level : Nat) : List Char :=
  '\n' :: List.replicate (2 * level) ' '

theorem isBlank_of_mem_lineStart {level : Nat} : ∀ c ∈ lineStart level, isBlank c = true := by
  intro c hc
  rcases List.mem_cons.mp hc with rfl | hspace
  · rfl
  · rw [List.eq_of_mem_replicate hspace]
    rfl

theorem toList_newLine (level : Nat) : (newLine level).toList = lineStart level := by
  simp [newLine, lineStart]

/-- The comma in front of a piece that is not the first. -/
def lead : Bool → List Char
  | true => []
  | false => [',']

/-- Pieces on lines of their own, with commas between them. -/
def inLines (level : Nat) : Bool → List (List Char) → List Char
  | _, [] => []
  | first, piece :: more => lead first ++ (lineStart level ++ (piece ++ inLines level false more))

/-- The line in which a bracket closes, when there are pieces in front of it. -/
def lastLine (level : Nat) : List (List Char) → List Char
  | [] => []
  | _ => lineStart level

/-- A member on its line. -/
def writtenMember (level : Nat) (member : String × Value) : List Char :=
  '"' :: (member.1.toList.flatMap writeChar ++
    '"' :: ':' :: ' ' :: member.2.written level)

theorem toList_prettyItems (level : Nat) (items : List Value) :
    (prettyItems level items).toList = inLines level true (items.map (Value.written level)) := by
  induction items with
  | nil => rfl
  | cons item rest ih =>
    cases rest with
    | nil => simp [prettyItems, inLines, lead, toList_newLine, Value.written]
    | cons next rest =>
      rw [prettyItems, String.toList_append, ih]
      · simp [inLines, lead, toList_newLine, Value.written]
      · simp

theorem toList_writeText (text : String) :
    (writeText text).toList = '"' :: (text.toList.flatMap writeChar ++ ['"']) := by
  simp [writeText]

theorem toList_prettyMembers (level : Nat) (members : List (String × Value)) :
    (prettyMembers level members).toList =
      inLines level true (members.map (writtenMember level)) := by
  induction members with
  | nil => rfl
  | cons member rest ih =>
    obtain ⟨name, value⟩ := member
    cases rest with
    | nil =>
      simp [prettyMembers, inLines, lead, toList_newLine, toList_writeText, writtenMember,
        Value.written]
    | cons next rest =>
      rw [prettyMembers, String.toList_append, ih]
      · simp [inLines, lead, toList_newLine, toList_writeText, writtenMember, Value.written]
      · simp

section

attribute [local simp] Value.pretty

theorem written_array (level : Nat) (items : List Value) :
    (Value.array items).written level =
      '[' :: (inLines (level + 1) true (items.map (Value.written (level + 1))) ++
        (lastLine level (items.map (Value.written (level + 1))) ++ [']'])) := by
  cases items with
  | nil => simp [Value.written, inLines, lastLine]
  | cons item rest =>
    simp [Value.written, toList_prettyItems, toList_newLine, lastLine]

theorem written_object (level : Nat) (members : List (String × Value)) :
    (Value.object members).written level =
      '{' :: (inLines (level + 1) true (members.map (writtenMember (level + 1))) ++
        (lastLine level (members.map (writtenMember (level + 1))) ++ ['}'])) := by
  cases members with
  | nil => simp [Value.written, inLines, lastLine]
  | cons member rest =>
    simp [Value.written, toList_prettyMembers, toList_newLine, lastLine]

@[simp]
theorem written_null (level : Nat) : Value.null.written level = ['n', 'u', 'l', 'l'] := by
  simp [Value.written]

@[simp]
theorem written_true (level : Nat) :
    (Value.bool true).written level = ['t', 'r', 'u', 'e'] := by
  simp [Value.written]

@[simp]
theorem written_false (level : Nat) :
    (Value.bool false).written level = ['f', 'a', 'l', 's', 'e'] := by
  simp [Value.written]

@[simp]
theorem written_natural (level n : Nat) :
    (Value.number (.natural n)).written level = (toString n).toList := by
  simp [Value.written, Number.render]

@[simp]
theorem written_negative (level n : Nat) :
    (Value.number (.negative n)).written level = '-' :: (toString n).toList := by
  simp [Value.written, Number.render]

@[simp]
theorem written_text (level : Nat) (text : String) :
    (Value.text text).written level = '"' :: (text.toList.flatMap writeChar ++ ['"']) := by
  simp [Value.written, toList_writeText]

end

/-- A value starts with this character. -/
def IsStart (c : Char) : Bool :=
  c.isDigit || ['n', 't', 'f', '-', '"', '[', '{'].contains c

theorem ne_of_isStart {c other : Char} (hc : IsStart c = true) (hother : IsStart other = false) :
    c ≠ other := by
  rintro rfl
  rw [hc] at hother
  cases hother

theorem isBlank_of_isStart {c : Char} (hc : IsStart c = true) : isBlank c = false := by
  have hne := fun other => @ne_of_isStart c other hc
  simp [isBlank, hne ' ' rfl, hne '\n' rfl, hne '\t' rfl, hne '\r' rfl]

theorem isStart_of_isDigit {c : Char} (hc : c.isDigit = true) : IsStart c = true := by
  rw [IsStart, hc, Bool.true_or]

/-- A written value starts with a character for that, and with an `n` only if it is
`null`. -/
theorem written_eq_cons {value : Value} (hwhole : value.isFloatFree = true) (level : Nat) :
    ∃ c rest, value.written level = c :: rest ∧ IsStart c = true ∧ (c = 'n' → value = .null) := by
  have hother {c : Char} {rest : List Char} (hwritten : value.written level = c :: rest)
      (hc : IsStart c = true) (hn : c ≠ 'n') :
      ∃ c rest, value.written level = c :: rest ∧ IsStart c = true ∧ (c = 'n' → value = .null) :=
    ⟨c, rest, hwritten, hc, fun h => absurd h hn⟩
  cases value with
  | null => exact ⟨'n', _, written_null level, rfl, fun _ => rfl⟩
  | bool value =>
    cases value with
    | true => exact hother (written_true level) rfl (by decide)
    | false => exact hother (written_false level) rfl (by decide)
  | number value =>
    cases value with
    | natural n =>
      obtain ⟨c, rest, hwritten, hdigit⟩ := exists_toString_eq_cons n
      rw [← written_natural level n] at hwritten
      refine hother hwritten (isStart_of_isDigit hdigit) ?_
      rintro rfl
      exact absurd hdigit (by decide)
    | negative n => exact hother (written_negative level n) rfl (by decide)
    | float isNegative magnitude => cases hwhole
  | text value => exact hother (written_text level value) rfl (by decide)
  | array items => exact hother (written_array level items) rfl (by decide)
  | object members => exact hother (written_object level members) rfl (by decide)

/-! ## Reading arrays and objects -/

namespace Reader

variable {α σ : Type}

/-- The reader gets the data from the text of the value, behind any blanks. -/
def ReadsValue (reader : Reader α) (value : Value) (data : α) : Prop :=
  ∀ blanks level rest, (∀ c ∈ blanks, isBlank c = true) → Closes rest →
    Reads reader (blanks ++ (value.written level ++ rest)) data rest

theorem ReadsValue.reads {reader : Reader α} {value : Value} {data : α}
    (h : ReadsValue reader value data) (level : Nat) {rest : List Char} (hrest : Closes rest) :
    Reads reader (value.written level ++ rest) data rest :=
  h [] level rest (by simp) hrest

theorem closes_comma (rest : List Char) : Closes (',' :: rest) := by
  intro c hc
  exact .inl (Option.some.inj hc).symm

theorem closes_lineStart (level : Nat) (rest : List Char) : Closes (lineStart level ++ rest) := by
  intro c hc
  exact .inr (Option.some.inj hc).symm

section Items

variable {item : Reader α} {toValue : α → Value}

/-- An item comes next, behind its comma and on its line. -/
theorem reads_nextItem?_more (first : Bool) {value : Value} (hwhole : value.isFloatFree = true)
    (level : Nat) (rest : List Char) :
    Reads (nextItem? first) (lead first ++ (lineStart level ++ (value.written level ++ rest))) true
      (value.written level ++ rest) := by
  obtain ⟨c, more, hwritten, hstart, -⟩ := written_eq_cons hwhole level
  have hblank := isBlank_of_isStart hstart
  have hbracket : c ≠ ']' := ne_of_isStart hstart rfl
  rw [hwritten]
  have hline :=
    @reads_afterBlanks? (lineStart level) c (more ++ rest) isBlank_of_mem_lineStart hblank
  cases first with
  | true =>
    apply hline.bind
    simp only [hbracket, if_false, if_true]
    exact reads_pure true _
  | false =>
    apply (reads_next? _ rfl).bind
    apply (reads_advance ',' _).bind
    apply hline.bind
    simp only [hbracket, if_false]
    exact reads_pure true _

/-- The bracket behind the last item. -/
theorem reads_nextItem?_end (first : Bool) {blanks : List Char}
    (hblanks : ∀ c ∈ blanks, isBlank c = true) (rest : List Char) :
    Reads (nextItem? first) (blanks ++ ']' :: rest) false (']' :: rest) := by
  apply (reads_afterBlanks? rest hblanks rfl).bind
  exact reads_pure false _

/-- The items of a written array up to its bracket. -/
theorem reads_items {items : List α} {fuel : Nat} (hfuel : items.length < fuel) (first : Bool)
    (hwhole : ∀ x ∈ items, (toValue x).isFloatFree = true)
    (hitems : ∀ x ∈ items, ReadsValue item (toValue x) x) (level : Nat) {last : List Char}
    (hblanks : ∀ c ∈ last, isBlank c = true) (rest : List Char)
    (hlast : items ≠ [] → Closes (last ++ ']' :: rest)) :
    Reads (itemsFrom item fuel first)
      (inLines level first ((items.map toValue).map (Value.written level)) ++ (last ++ ']' :: rest))
      items (']' :: rest) := by
  induction items generalizing fuel first with
  | nil =>
    obtain ⟨fuel, rfl⟩ := Nat.exists_eq_succ_of_ne_zero (Nat.ne_of_gt hfuel)
    apply (reads_nextItem?_end first hblanks rest).bind
    exact reads_pure [] _
  | cons x items ih =>
    obtain ⟨fuel, rfl⟩ := Nat.exists_eq_succ_of_ne_zero (Nat.ne_of_gt (Nat.zero_lt_of_lt hfuel))
    obtain ⟨hwhole, hwholes⟩ := List.forall_mem_cons.mp hwhole
    obtain ⟨hitem, hitems⟩ := List.forall_mem_cons.mp hitems
    have hmore := ih (Nat.lt_of_succ_lt_succ hfuel) false hwholes hitems fun _ => hlast (by simp)
    simp only [List.map_cons, inLines, List.append_assoc]
    apply (reads_nextItem?_more first hwhole level _).bind
    refine (hitem.reads level ?_).bind (hmore.bind (reads_pure _ _))
    cases items with
    | nil => exact hlast (by simp)
    | cons next items => exact closes_comma _

theorem length_le_inLines (level : Nat) (first : Bool) (pieces : List (List Char)) :
    pieces.length ≤ (inLines level first pieces).length := by
  induction pieces generalizing first with
  | nil => exact Nat.le_refl _
  | cons piece pieces ih =>
    have hpieces := ih false
    simp only [inLines, lineStart, List.length_append, List.length_cons]
    omega

theorem isBlank_of_mem_lastLine {level : Nat} {pieces : List (List Char)} :
    ∀ c ∈ lastLine level pieces, isBlank c = true := by
  cases pieces with
  | nil => simp [lastLine]
  | cons piece pieces => exact isBlank_of_mem_lineStart

theorem closes_lastLine {level : Nat} {pieces : List (List Char)} (hpieces : pieces ≠ [])
    (rest : List Char) : Closes (lastLine level pieces ++ rest) := by
  cases pieces with
  | nil => contradiction
  | cons piece pieces => exact closes_lineStart level rest

theorem reads_arrayEnd (rest : List Char) : Reads arrayEnd (']' :: rest) () rest := by
  apply (reads_next? rest rfl).bind
  exact reads_advance ']' rest

/-- A written array behind its bracket. -/
theorem reads_arrayItems {items : List α} (hwhole : ∀ x ∈ items, (toValue x).isFloatFree = true)
    (hitems : ∀ x ∈ items, ReadsValue item (toValue x) x) (level last : Nat) (rest : List Char) :
    Reads (do
      let items ← itemsFrom item ((← fuel) + 1) true
      arrayEnd
      return items)
      (inLines level true ((items.map toValue).map (Value.written level)) ++
        (lastLine last ((items.map toValue).map (Value.written level)) ++ ']' :: rest))
      items rest := by
  have hlength := length_le_inLines level true ((items.map toValue).map (Value.written level))
  rw [List.length_map, List.length_map] at hlength
  apply (reads_fuel _).bind
  refine (reads_items ?_ true hwhole hitems level isBlank_of_mem_lastLine rest ?_).bind ?_
  · rw [List.length_append]
    omega
  · intro hitems
    exact closes_lastLine (by simpa using hitems) _
  · exact (reads_arrayEnd rest).bind (reads_pure items rest)

end Items

section Members

/-- The name of a member comes next, behind its comma and on its line. -/
theorem reads_nextName?_more (first : Bool) (level : Nat) (rest : List Char) :
    Reads (nextName? first) (lead first ++ (lineStart level ++ '"' :: rest)) true rest := by
  have hline := @reads_afterBlanks? (lineStart level) '"' rest isBlank_of_mem_lineStart rfl
  cases first with
  | true => exact hline.bind ((reads_advance '"' rest).bind (reads_pure true rest))
  | false =>
    apply (reads_next? _ rfl).bind
    apply (reads_advance ',' _).bind
    exact hline.bind ((reads_advance '"' rest).bind (reads_pure true rest))

/-- The brace behind the last member. -/
theorem reads_nextName?_end (first : Bool) {blanks : List Char}
    (hblanks : ∀ c ∈ blanks, isBlank c = true) (rest : List Char) :
    Reads (nextName? first) (blanks ++ '}' :: rest) false ('}' :: rest) := by
  apply (reads_afterBlanks? rest hblanks rfl).bind
  exact reads_pure false _

theorem reads_colon (rest : List Char) : Reads colon (':' :: rest) () rest := by
  apply (reads_next? rest rfl).bind
  exact reads_advance ':' rest

theorem reads_objectEnd (rest : List Char) : Reads objectEnd ('}' :: rest) () rest := by
  apply (reads_next? rest rfl).bind
  exact reads_advance '}' rest

/-- A value is read behind the blank that follows a colon. -/
theorem ReadsValue.reads_behind {reader : Reader α} {value : Value} {data : α}
    (h : ReadsValue reader value data) (level : Nat) {rest : List Char} (hrest : Closes rest) :
    Reads reader (' ' :: (value.written level ++ rest)) data rest :=
  h [' '] level rest (List.forall_mem_singleton.mpr rfl) hrest

/-- The reader gets the data from the text behind the name of a member. -/
def ReadsMember (reader : Reader α) (value : Value) (data : α) : Prop :=
  ∀ level rest, Closes rest →
    Reads reader (':' :: ' ' :: (value.written level ++ rest)) data rest

/-- Members take a state to another one, each by a step. -/
inductive Steps (step : String × Value → σ → σ → Prop) : List (String × Value) → σ → σ → Prop
  | nil (state : σ) : Steps step [] state state
  | cons {member : String × Value} {members : List (String × Value)} {state next final : σ}
    (hstep : step member state next) (hsteps : Steps step members next final) :
    Steps step (member :: members) state final

theorem Steps.append {step : String × Value → σ → σ → Prop} {first second : List (String × Value)}
    {state next final : σ} (hfirst : Steps step first state next)
    (hsecond : Steps step second next final) : Steps step (first ++ second) state final := by
  induction hfirst with
  | nil state => exact hsecond
  | cons hstep hsteps ih => exact .cons hstep (ih hsecond)

theorem Steps.map {τ : Type} {step : String × Value → σ → σ → Prop}
    {step' : String × Value → τ → τ → Prop} (f : σ → τ) {members : List (String × Value)}
    {state final : σ} (hsteps : Steps step members state final)
    (himp : ∀ member ∈ members, ∀ state next,
      step member state next → step' member (f state) (f next)) :
    Steps step' members (f state) (f final) := by
  induction hsteps with
  | nil state => exact .nil (f state)
  | cons hstep hsteps ih =>
    obtain ⟨hhead, htail⟩ := List.forall_mem_cons.mp himp
    exact .cons (hhead _ _ hstep) (ih htail)

/-- The members of a written object up to its brace. -/
theorem reads_foldMembers {member : String → σ → Reader σ} {members : List (String × Value)}
    {state final : σ}
    (hsteps : Steps (fun m state next => ReadsMember (member m.1 state) m.2 next) members
      state final) {fuel : Nat}
    (hfuel : members.length < fuel) (first : Bool) (level : Nat) {last : List Char}
    (hblanks : ∀ c ∈ last, isBlank c = true) (rest : List Char)
    (hlast : members ≠ [] → Closes (last ++ '}' :: rest)) :
    Reads (foldMembers member fuel first state)
      (inLines level first (members.map (writtenMember level)) ++ (last ++ '}' :: rest))
      final ('}' :: rest) := by
  induction hsteps generalizing fuel first with
  | nil state =>
    obtain ⟨fuel, rfl⟩ := Nat.exists_eq_succ_of_ne_zero (Nat.ne_of_gt hfuel)
    apply (reads_nextName?_end first hblanks rest).bind
    exact reads_pure state _
  | @cons m members state next final hstep hsteps ih =>
    obtain ⟨fuel, rfl⟩ := Nat.exists_eq_succ_of_ne_zero (Nat.ne_of_gt (Nat.zero_lt_of_lt hfuel))
    have hmore := ih (Nat.lt_of_succ_lt_succ hfuel) false fun _ => hlast (by simp)
    simp only [List.map_cons, inLines, writtenMember, List.append_assoc, List.cons_append]
    apply (reads_nextName?_more first level _).bind
    apply (reads_text m.1 _).bind
    refine (hstep level _ ?_).bind hmore
    cases members with
    | nil => exact hlast (by simp)
    | cons next members => exact closes_comma _

/-- The members of a written object that is kept up to its brace. -/
theorem reads_membersFrom {reader : Reader Value} {members : List (String × Value)} {fuel : Nat}
    (hfuel : members.length < fuel) (first : Bool)
    (hmembers : ∀ member ∈ members, ReadsValue reader member.2 member.2) (level : Nat)
    {last : List Char} (hblanks : ∀ c ∈ last, isBlank c = true) (rest : List Char)
    (hlast : members ≠ [] → Closes (last ++ '}' :: rest)) :
    Reads (membersFrom reader fuel first)
      (inLines level first (members.map (writtenMember level)) ++ (last ++ '}' :: rest))
      members ('}' :: rest) := by
  induction members generalizing fuel first with
  | nil =>
    obtain ⟨fuel, rfl⟩ := Nat.exists_eq_succ_of_ne_zero (Nat.ne_of_gt hfuel)
    apply (reads_nextName?_end first hblanks rest).bind
    exact reads_pure [] _
  | cons member members ih =>
    obtain ⟨fuel, rfl⟩ := Nat.exists_eq_succ_of_ne_zero (Nat.ne_of_gt (Nat.zero_lt_of_lt hfuel))
    obtain ⟨hmember, hmembers⟩ := List.forall_mem_cons.mp hmembers
    have hmore := ih (Nat.lt_of_succ_lt_succ hfuel) false hmembers fun _ => hlast (by simp)
    simp only [List.map_cons, inLines, writtenMember, List.append_assoc, List.cons_append]
    apply (reads_nextName?_more first level _).bind
    apply (reads_text member.1 _).bind
    apply (reads_colon _).bind
    refine (hmember.reads_behind level ?_).bind (hmore.bind (reads_pure _ _))
    cases members with
    | nil => exact hlast (by simp)
    | cons next members => exact closes_comma _

end Members

/-! ## Reading values -/

theorem reads_scalar?_number {c : Char} (hdigit : c.isDigit = true) {more rest : List Char}
    {number : Number} (hnumber : Reads (Reader.number false) (c :: more) number rest) :
    Reads (scalar? c) (c :: more) (some (.number number)) rest := by
  have hne (letter : Char) (hletter : letter.isDigit = false) : c ≠ letter := by
    rintro rfl
    exact absurd hdigit (by simp [hletter])
  unfold scalar?
  split
  · exact absurd rfl (hne 'n' rfl)
  · exact absurd rfl (hne 't' rfl)
  · exact absurd rfl (hne 'f' rfl)
  · exact absurd rfl (hne '-' rfl)
  · exact absurd rfl (hne '"' rfl)
  · rw [if_pos hdigit]
    exact hnumber.bind (reads_pure _ rest)

/-- The text begins like neither an array nor an object, and the value is read from it. -/
def ReadsScalar (text : List Char) (value : Value) (rest : List Char) : Prop :=
  ∃ c more, text = c :: more ∧ isBlank c = false ∧ c ≠ '[' ∧ c ≠ '{' ∧
    Reads (scalar? c) (c :: more) (some value) rest

theorem readsScalar_natural {n : Nat} (hkept : (Number.natural n).Kept) {rest : List Char}
    (hrest : Closes rest) :
    ReadsScalar ((toString n).toList ++ rest) (.number (.natural n)) rest := by
  obtain ⟨c, more, hwritten, hdigit⟩ := exists_toString_eq_cons n
  have hnumber := hrest.reads_number hkept false
  rw [hwritten] at hnumber ⊢
  refine ⟨c, more ++ rest, rfl, isBlank_of_isStart (isStart_of_isDigit hdigit), ?_, ?_,
    reads_scalar?_number hdigit hnumber⟩
  · rintro rfl
    exact absurd hdigit (by decide)
  · rintro rfl
    exact absurd hdigit (by decide)

theorem readsScalar_negative {n : Nat} (hkept : (Number.negative n).Kept) {rest : List Char}
    (hrest : Closes rest) :
    ReadsScalar ('-' :: (toString n).toList ++ rest) (.number (.negative n)) rest := by
  obtain ⟨hpos, hbound⟩ := hkept
  have hnumber := hrest.reads_number (Nat.le_trans hbound (by decide)) true
  have hinteger : integer true n = .negative n := by
    have hin : ¬ (n = 0 ∨ 1 <<< 63 < n) := by omega
    rw [integer, if_pos rfl, if_neg hin]
  rw [hinteger] at hnumber
  refine ⟨'-', _, rfl, rfl, by decide, by decide, ?_⟩
  apply (reads_advance '-' _).bind
  exact hnumber.bind (reads_pure _ rest)

theorem readsScalar_text (text : String) (rest : List Char) :
    ReadsScalar ('"' :: (text.toList.flatMap writeChar ++ ['"']) ++ rest) (.text text) rest := by
  rw [List.cons_append, List.append_assoc]
  refine ⟨'"', _, rfl, rfl, by decide, by decide, ?_⟩
  apply (reads_advance '"' _).bind
  exact (reads_text text rest).bind (reads_pure _ rest)

/-- A written value that is no array and no object is read back. -/
theorem readsScalar_written {value : Value} (hvalue : value.Canonical)
    (hwhole : value.isFloatFree = true) (hnesting : value.nesting = 0) (level : Nat)
    {rest : List Char} (hrest : Closes rest) :
    ReadsScalar (value.written level ++ rest) value rest := by
  cases hvalue with
  | null =>
    rw [written_null]
    refine ⟨'n', _, rfl, rfl, by decide, by decide, ?_⟩
    apply (reads_advance 'n' _).bind
    exact (reads_wordEnd ['u', 'l', 'l'] rest).bind (reads_pure _ rest)
  | bool value =>
    cases value with
    | true =>
      rw [written_true]
      refine ⟨'t', _, rfl, rfl, by decide, by decide, ?_⟩
      apply (reads_advance 't' _).bind
      exact (reads_wordEnd ['r', 'u', 'e'] rest).bind (reads_pure _ rest)
    | false =>
      rw [written_false]
      refine ⟨'f', _, rfl, rfl, by decide, by decide, ?_⟩
      apply (reads_advance 'f' _).bind
      exact (reads_wordEnd ['a', 'l', 's', 'e'] rest).bind (reads_pure _ rest)
  | @number value hkept =>
    cases value with
    | natural n =>
      rw [written_natural]
      exact readsScalar_natural hkept hrest
    | negative n =>
      rw [written_negative]
      exact readsScalar_negative hkept hrest
    | float isNegative magnitude => cases hwhole
  | text text =>
    rw [written_text]
    exact readsScalar_text text rest
  | array hitems => cases hnesting
  | object hsorted hmembers => cases hnesting

theorem readsValue_of_scalar {value : Value} (hvalue : value.Canonical)
    (hwhole : value.isFloatFree = true) (hnesting : value.nesting = 0) {depth : Nat}
    (hdepth : 0 < depth) : ReadsValue (Reader.value depth) value value := by
  intro blanks level rest hblanks hrest
  obtain ⟨depth, rfl⟩ := Nat.exists_eq_succ_of_ne_zero (Nat.ne_of_gt hdepth)
  obtain ⟨c, more, hwritten, hblank, hbracket, hbrace, hscalar⟩ :=
    readsScalar_written hvalue hwhole hnesting level hrest
  rw [hwritten]
  apply (reads_afterBlanks? more hblanks hblank).bind
  simp only [hbracket, hbrace, or_self, if_false]
  exact hscalar.bind (reads_pure value rest)

theorem readsValue_array {items : List Value} {depth : Nat} (hdepth : 0 < depth)
    (hwhole : ∀ item ∈ items, item.isFloatFree = true)
    (hitems : ∀ item ∈ items, ReadsValue (Reader.value depth) item item) :
    ReadsValue (Reader.value (depth + 1)) (.array items) (.array items) := by
  intro blanks level rest hblanks hrest
  have hread := @reads_arrayItems Value (Reader.value depth) id items hwhole hitems (level + 1)
    level rest
  rw [List.map_id] at hread
  rw [written_array, List.cons_append, List.append_assoc, List.append_assoc]
  apply (reads_afterBlanks? _ hblanks rfl).bind
  simp only [Nat.ne_of_gt hdepth, true_or, if_true, if_false]
  exact ((reads_advance '[' _).bind hread).bind (reads_pure _ rest)

theorem readsValue_object {members : List (String × Value)} {depth : Nat} (hdepth : 0 < depth)
    (hsorted : Sorted members)
    (hmembers : ∀ member ∈ members, ReadsValue (Reader.value depth) member.2 member.2) :
    ReadsValue (Reader.value (depth + 1)) (.object members) (.object members) := by
  intro blanks level rest hblanks hrest
  have hlength := length_le_inLines (level + 1) true (members.map (writtenMember (level + 1)))
  rw [List.length_map] at hlength
  rw [written_object, List.cons_append, List.append_assoc, List.append_assoc]
  apply (reads_afterBlanks? _ hblanks rfl).bind
  simp only [Nat.ne_of_gt hdepth, or_true, if_true, if_false]
  apply (reads_advance '{' _).bind
  apply (reads_fuel _).bind
  refine (reads_membersFrom ?_ true hmembers (level + 1) isBlank_of_mem_lastLine rest ?_).bind ?_
  · rw [List.length_append]
    omega
  · intro hmembers
    exact closes_lastLine (by simpa using hmembers) _
  · apply (reads_objectEnd rest).bind
    rw [sortMembers_of_sorted hsorted]
    exact reads_pure _ rest

/-- A written value is read back when the depth is above its nesting. -/
theorem readsValue_value {value : Value} (hvalue : value.Canonical)
    (hwhole : value.isFloatFree = true) {depth : Nat} (hdepth : value.nesting < depth) :
    ReadsValue (Reader.value depth) value value := by
  -- the depth goes down with the nesting, so the induction is on the value
  induction hvalue generalizing depth with
  | @array items hitems ih =>
    obtain ⟨depth, rfl⟩ := Nat.exists_eq_succ_of_ne_zero (Nat.ne_of_gt (Nat.zero_lt_of_lt hdepth))
    have hnesting := Nat.lt_of_succ_lt_succ hdepth
    have hinner := nesting_lt_of_mem_items hnesting
    have hwholes := itemsFloatFree_iff.mp hwhole
    exact readsValue_array (Nat.zero_lt_of_lt hnesting) hwholes fun item hitem =>
      ih item hitem (hwholes item hitem) (hinner item hitem)
  | @object members hsorted hmembers ih =>
    obtain ⟨depth, rfl⟩ := Nat.exists_eq_succ_of_ne_zero (Nat.ne_of_gt (Nat.zero_lt_of_lt hdepth))
    have hnesting := Nat.lt_of_succ_lt_succ hdepth
    have hinner := nesting_lt_of_mem_members hnesting
    have hwholes := membersFloatFree_iff.mp hwhole
    exact readsValue_object (Nat.zero_lt_of_lt hnesting) hsorted fun member hmember =>
      ih member hmember (hwholes member hmember) (hinner member hmember)
  | null => exact readsValue_of_scalar .null hwhole rfl hdepth
  | bool value => exact readsValue_of_scalar (.bool value) hwhole rfl hdepth
  | number hkept => exact readsValue_of_scalar (.number hkept) hwhole rfl hdepth
  | text value => exact readsValue_of_scalar (.text value) hwhole rfl hdepth

end Reader

end Relocate.Json
