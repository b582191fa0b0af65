import Relocate.Json.Reader

/-!
# Shapes

A `Shape` describes the values that stand for a type of data, and
`Shape.Data` is that type: so reading a text, taking data out of a value and
turning data into a value are defined once, on shapes.

A record has known fields in a fixed order.  An open record keeps its unknown
members; a closed one drops them, and may also be given as an array of its
fields.  An optional field is left out when there is nothing in it, and a field
with a default may be missing.
-/

namespace Relocate.Json

mutual

/-- The form of a kind of data. -/
inductive Shape
  /-- A text, with the words by which issues name it. -/
  | text (wanted : String)
  /-- Any value. -/
  | any
  | list (item : Shape)
  /-- Something or `null`. -/
  | optional (inner : Shape)
  /-- Known fields; unknown members are kept if the record is open. -/
  | record (name : String) (fields : Fields) (isOpen : Bool)

/-- The fields of a record, in order. -/
inductive Fields
  | nil
  | cons (name : String) (shape : Shape) (required : Bool) (rest : Fields)

end

mutual

/-- The data of a shape. -/
def Shape.Data : Shape → Type
  | .text _ => String
  | .any => Value
  | .list item => List item.Data
  | .optional inner => Option inner.Data
  | .record _ fields _ => fields.Data × List (String × Value)

/-- The data of fields. -/
def Fields.Data : Fields → Type
  | .nil => Unit
  | .cons _ shape _ rest => shape.Data × rest.Data

end

/-- The fields that are already known while a record is read. -/
def Fields.Slots : Fields → Type
  | .nil => Unit
  | .cons _ shape _ rest => Option shape.Data × rest.Slots

mutual

/-- What stands for missing data. -/
def Shape.empty : (shape : Shape) → shape.Data
  | .text _ => ("" : String)
  | .any => Value.null
  | .list item => ([] : List item.Data)
  | .optional inner => (none : Option inner.Data)
  | .record _ fields _ => (fields.empty, [])

/-- What stands for missing fields. -/
def Fields.empty : (fields : Fields) → fields.Data
  | .nil => ()
  | .cons _ shape _ rest => (shape.empty, rest.empty)

end

namespace Fields

/-- No field is known. -/
def noSlots : (fields : Fields) → fields.Slots
  | .nil => ()
  | .cons _ _ _ rest => (none, rest.noSlots)

/-- The number of fields. -/
def count : Fields → Nat
  | .nil => 0
  | .cons _ _ _ rest => rest.count + 1

/-- The names of the fields. -/
def names : Fields → List String
  | .nil => []
  | .cons name _ _ rest => name :: rest.names

/-- The data of all fields, or the first missing field. -/
def close : (fields : Fields) → fields.Slots → Except String fields.Data
  | .nil, () => .ok ()
  | .cons name shape required rest, (slot, slots) =>
    match slot, required with
    | none, true => .error ("missing field " ++ "`" ++ name ++ "`")
    | slot, _ => (rest.close slots).map fun more => (slot.getD shape.empty, more)

/-- The message on a field that is given twice. -/
def duplicateMessage (name : String) : String :=
  "duplicate field `" ++ name ++ "`"

/-- The words by which issues name a record with its fields. -/
def describe (fields : Fields) (name : String) : String :=
  let count := fields.count
  "struct " ++ name ++ " with " ++ toString count ++
    (if count = 1 then " element" else " elements")

end Fields

/-- The words by which issues name a record. -/
def recordName (name : String) : String :=
  "struct " ++ name

/-- The message on a value of another kind. -/
def wrongKind (found wanted : String) : String :=
  "invalid type: " ++ found ++ ", expected " ++ wanted

/-- A character inside a text that a message shows. -/
def showChar (c : Char) : String :=
  match c with
  | '"' => "\\\""
  | '\\' => "\\\\"
  | '\n' => "\\n"
  | '\r' => "\\r"
  | '\t' => "\\t"
  | c =>
    if c.toNat = 0 then "\\0"
    else if isHidden c.toNat then
      "\\u\x7b" ++ String.ofList (Nat.toDigits 16 c.toNat) ++ "\x7d"
    else c.toString
where
  /-- A character that leaves no mark of its own. -/
  isHidden (code : Nat) : Bool :=
    code < 0x20 || (0x7F ≤ code && code ≤ 0xA0) || code == 0xAD ||
      (0x300 ≤ code && code ≤ 0x36F) || (0x2000 ≤ code && code ≤ 0x200F) ||
      (0x2028 ≤ code && code ≤ 0x202F) || (0x205F ≤ code && code ≤ 0x206F) ||
      code == 0x3000 || (0xE000 ≤ code && code ≤ 0xF8FF) ||
      (0xFE00 ≤ code && code ≤ 0xFE0F) || code == 0xFEFF

/-- How messages name a value. -/
def Value.describe : Value → String
  | .null => "null"
  | .bool true => "boolean `true`"
  | .bool false => "boolean `false`"
  | .number (.float isNegative magnitude) =>
    "floating point `" ++ Number.render (.float isNegative magnitude) ++ "`"
  | .number value => "integer `" ++ value.render ++ "`"
  | .text value => "string \"" ++ String.join (value.toList.map showChar) ++ "\""
  | .array _ => "sequence"
  | .object _ => "map"

/-! ## Data as values -/

mutual

/-- The value that stands for data. -/
def Shape.toValue : (shape : Shape) → shape.Data → Value
  | .text _, data => .text data
  | .any, data => data
  | .list item, data => .array (List.map (Shape.toValue item) data)
  | .optional inner, data =>
    match data with
    | none => .null
    | some data => Shape.toValue inner data
  | .record _ fields _, data => .object (Fields.toMembers fields data.1 ++ data.2)

/-- The members that stand for the data of fields. -/
def Fields.toMembers : (fields : Fields) → fields.Data → List (String × Value)
  | .nil, () => []
  | .cons name (.optional inner) _ rest, (data, more) =>
    match data with
    | none => Fields.toMembers rest more
    | some data => (name, Shape.toValue inner data) :: Fields.toMembers rest more
  | .cons name shape _ rest, (data, more) =>
    (name, Shape.toValue shape data) :: Fields.toMembers rest more

end

/-! ## Data from values -/

/-- The message on a record given as an array with too few items. -/
def Fields.tooFew (fields : Fields) (name : String) (count : Nat) : String :=
  "invalid length " ++ toString count ++ ", expected " ++ fields.describe name

mutual

/-- The data in a value, or why there is none. -/
def Shape.ofValue : (shape : Shape) → Value → Except String shape.Data
  | .text wanted, value =>
    match value with
    | .text text => .ok text
    | value => .error (wrongKind value.describe wanted)
  | .any, value => .ok value
  | .list item, value =>
    match value with
    | .array items => List.mapM (Shape.ofValue item) items
    | value => .error (wrongKind value.describe "a sequence")
  | .optional inner, value =>
    match value with
    | .null => .ok none
    | value => (Shape.ofValue inner value).map some
  | .record name fields isOpen, value =>
    match value with
    | .object members => do
      let step (state : fields.Slots × List (String × Value)) (member : String × Value) :
          Except String (fields.Slots × List (String × Value)) := do
        match ← Fields.setValue fields member.1 member.2 state.1 with
        | some slots => return (slots, state.2)
        | none =>
          return (state.1, if isOpen then insertMember member.1 member.2 state.2 else state.2)
      let (slots, extra) ← members.foldlM step (fields.noSlots, [])
      return (← fields.close slots, extra)
    | .array items =>
      if isOpen then .error (wrongKind "sequence" (recordName name))
      else do
        let (data, rest) ← Fields.ofItems fields (fields.tooFew name) 0 items
        if rest.isEmpty then return (data, [])
        else
          .error ("invalid length " ++ toString items.length ++
            ", expected fewer elements in array")
    | value => .error (wrongKind value.describe (recordName name))

/-- Sets the field of a name from a value; `none` when there is no such field. -/
def Fields.setValue : (fields : Fields) → String → Value → fields.Slots →
    Except String (Option fields.Slots)
  | .nil, _, _, _ => .ok none
  | .cons field shape _ rest, name, value, (slot, slots) =>
    if name = field then
      if slot.isSome then .error (Fields.duplicateMessage name)
      else (Shape.ofValue shape value).map fun data => some (some data, slots)
    else
      (Fields.setValue rest name value slots).map fun found =>
        found.map fun slots => (slot, slots)

/-- The fields in the items of an array, with the items behind them; `tooFew` is
the message on a missing item. -/
def Fields.ofItems : (fields : Fields) → (tooFew : Nat → String) → Nat → List Value →
    Except String (fields.Data × List Value)
  | .nil, _, _, items => .ok ((), items)
  | .cons _ shape required rest, tooFew, index, items =>
    match items with
    | [] => do
      if required then .error (tooFew index)
      else
        let (more, items) ← Fields.ofItems rest tooFew (index + 1) []
        return ((shape.empty, more), items)
    | item :: items => do
      let data ← Shape.ofValue shape item
      let (more, items) ← Fields.ofItems rest tooFew (index + 1) items
      return ((data, more), items)

end

/-! ## Data from texts -/

namespace Reader

/-- Fails after reading the closing brace of an object, if it comes next. -/
def failObject {α : Type} (message : String) : Reader α := do
  if (← afterBlanks?) = some '}' then advance
  failHere message

/-- Fails after reading the closing bracket of an array, or a comma. -/
def failArray {α : Type} (message : String) : Reader α := do
  match ← afterBlanks? with
  | some ']' => advance
  | some ',' =>
    advance
    let _ ← afterBlanks?
  | _ => pure ()
  failHere message

/-- Fails because the value that comes next is not of the wanted kind. -/
def failKind {α : Type} (wanted : String) (c : Char) : Reader α := do
  if c = '[' then failHere (wrongKind "sequence" wanted)
  else if c = '{' then failHere (wrongKind "map" wanted)
  else
    match ← scalar? c with
    | some found => failHere (wrongKind found.describe wanted)
    | none => failAt "expected value"

/-- The first character of the value that comes next. -/
def valueStart : Reader Char := do
  match ← afterBlanks? with
  | some c => return c
  | none => failHere "EOF while parsing a value"

/-- Enters an array or an object: the depth that is left inside. -/
def enter (depth : Nat) : Reader Nat := do
  if depth ≤ 1 then failAt "recursion limit exceeded"
  else
    advance
    return depth - 1

/-- Reads the members of an object from the next one on, each by its name. -/
def foldMembers {σ : Type} (member : String → σ → Reader σ) : Nat → Bool → σ → Reader σ
  | 0, _, state => return state
  | fuel + 1, first, state => do
    if ← nextName? first then
      let name ← text
      let state ← member name state
      foldMembers member fuel false state
    else return state

end Reader

open Reader

mutual

/-- Reads data; the depth bounds how deeply its values may be nested. -/
def Shape.read : (shape : Shape) → Nat → Reader shape.Data
  | .text wanted, _ => do
    let c ← valueStart
    if c = '"' then
      advance
      Reader.text
    else failKind wanted c
  | .any, depth => Reader.value depth
  | .list item, depth => do
    let c ← valueStart
    if c = '[' then
      let depth ← enter depth
      let items ← itemsFrom (Shape.read item depth) ((← fuel) + 1) true
      arrayEnd
      return items
    else failKind "a sequence" c
  | .optional inner, depth => do
    if (← afterBlanks?) = some 'n' then
      advance
      wordEnd ['u', 'l', 'l']
      return none
    else some <$> Shape.read inner depth
  | .record name fields isOpen, depth => do
    let c ← valueStart
    if c = '{' then
      let depth ← enter depth
      let member (name : String) (state : fields.Slots × List (String × Value)) :
          Reader (fields.Slots × List (String × Value)) := do
        match ← Fields.readMember fields depth name state.1 with
        | some slots => return (slots, state.2)
        | none =>
          colon
          if isOpen then return (state.1, insertMember name (← Reader.value depth) state.2)
          else
            skipValue
            return state
      let (slots, extra) ← foldMembers member ((← fuel) + 1) true (fields.noSlots, [])
      objectEnd
      match fields.close slots with
      | .ok data => return (data, extra)
      | .error message => failHere message
    else if c = '[' && !isOpen then
      let depth ← enter depth
      let data ← Fields.readItems fields (fields.tooFew name) depth 0 true
      arrayEnd
      return (data, [])
    else failKind (recordName name) c

/-- Reads the field of a name behind the name; `none`, with nothing read, when
there is no such field. -/
def Fields.readMember : (fields : Fields) → Nat → String → fields.Slots →
    Reader (Option fields.Slots)
  | .nil, _, _, _ => return none
  | .cons field shape _ rest, depth, name, (slot, slots) => do
    if name = field then
      if slot.isSome then failObject (Fields.duplicateMessage name)
      else
        colon
        let data ← Shape.read shape depth
        return some (some data, slots)
    else
      match ← Fields.readMember rest depth name slots with
      | some slots => return some (slot, slots)
      | none => return none

/-- Reads fields as the items of an array; `first` says that none was read yet. -/
def Fields.readItems : (fields : Fields) → (tooFew : Nat → String) → Nat → Nat → Bool →
    Reader fields.Data
  | .nil, _, _, _, _ => return ()
  | .cons _ shape required rest, tooFew, depth, index, first => do
    if ← nextItem? first then
      let data ← Shape.read shape depth
      let more ← Fields.readItems rest tooFew depth (index + 1) false
      return (data, more)
    else if required then failArray (tooFew index)
    else
      let more ← Fields.readItems rest tooFew depth (index + 1) first
      return (shape.empty, more)

end

/-- The data in a text. -/
def Shape.parse (shape : Shape) (text : String) : Except Issue shape.Data :=
  document (shape.read maxDepth) text

end Relocate.Json
