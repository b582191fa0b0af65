import Relocate.Proofs.Files.Tree
import Relocate.Proofs.Store.Data
import Relocate.Store

/-!
# What a catalog is loaded from

Loading only looks at the tree of files.  `Holds tree location catalog` says that
the catalog is what the tree has at a location, and loading returns exactly that.
-/

namespace Relocate.Store

open Catalog Files Json

variable {α β : Type}

/-- An action on a model ends with a value and leaves a world. -/
def Ends (action : ExceptT Error Model α) (world : World) (value : α) (after : World) : Prop :=
  action.run.run world = (.ok value, after)

theorem ends_pure_iff {value found : α} {world after : World} :
    Ends (pure value) world found after ↔ found = value ∧ after = world := by
  constructor
  · intro h
    cases h
    exact ⟨rfl, rfl⟩
  · rintro ⟨rfl, rfl⟩
    rfl

theorem ends_bind_iff {first : ExceptT Error Model α} {next : α → ExceptT Error Model β}
    {world after : World} {y : β} :
    Ends (first >>= next) world y after ↔
      ∃ x between, Ends first world x between ∧ Ends (next x) between y after := by
  unfold Ends
  obtain ⟨⟨result, between⟩, hfirst⟩ : ∃ result, first.run.run world = result := ⟨_, rfl⟩
  rw [ExceptT.run_bind, Model.run_bind hfirst, hfirst]
  cases result with
  | error error =>
    constructor
    · nofun
    · rintro ⟨x, between, hx, -⟩
      cases hx
  | ok x =>
    constructor
    · exact fun hnext => ⟨x, between, rfl, hnext⟩
    · rintro ⟨x, between, ⟨⟩, hnext⟩
      exact hnext

theorem ends_lift_iff {action : Model α} {world after : World} {value : α} :
    Ends (liftM action) world value after ↔ action.run world = (value, after) := by
  have hlift : (liftM action : ExceptT Error Model α).run.run world =
      (.ok (action.run world).1, (action.run world).2) := rfl
  rw [Ends, hlift]
  constructor
  · intro h
    obtain ⟨hvalue, hafter⟩ := Prod.mk.inj h
    exact Prod.ext (Except.ok.inj hvalue) hafter
  · intro h
    rw [h]

/-- An action that only looks at the tree: it returns what it sees there and nothing
else, and leaves the tree as it is. -/
structure Looks (action : ExceptT Error Model α) (sees : Tree → α → Prop) : Prop where
  returns : ∀ {world value after}, Ends action world value after →
    sees world.tree value ∧ after.tree = world.tree
  finds : ∀ {world : World} {value}, sees world.tree value →
    ∃ after, Ends action world value after ∧ after.tree = world.tree

theorem looks_pure (value : α) : Looks (pure value) fun _ found => found = value where
  returns hends := by
    obtain ⟨rfl, rfl⟩ := ends_pure_iff.mp hends
    exact ⟨rfl, rfl⟩
  finds hsees := by
    subst hsees
    exact ⟨_, rfl, rfl⟩

theorem Looks.bind {first : ExceptT Error Model α} {next : α → ExceptT Error Model β}
    {sees : Tree → α → Prop} {then' : α → Tree → β → Prop} (hfirst : Looks first sees)
    (hnext : ∀ x, Looks (next x) (then' x)) :
    Looks (first >>= next) fun tree y => ∃ x, sees tree x ∧ then' x tree y where
  returns hends := by
    obtain ⟨x, between, hx, hy⟩ := ends_bind_iff.mp hends
    obtain ⟨hsees, hbetween⟩ := hfirst.returns hx
    obtain ⟨hthen, hafter⟩ := (hnext x).returns hy
    rw [hbetween] at hthen
    exact ⟨⟨x, hsees, hthen⟩, hafter.trans hbetween⟩
  finds := by
    rintro world y ⟨x, hsees, hthen⟩
    obtain ⟨between, hx, hbetween⟩ := hfirst.finds hsees
    rw [← hbetween] at hthen
    obtain ⟨after, hy, hafter⟩ := (hnext x).finds hthen
    exact ⟨after, ends_bind_iff.mpr ⟨x, between, hx, hy⟩, hafter.trans hbetween⟩

/-- What a model answers from its tree. -/
theorem looks_lift {action : Model α} {see : Tree → α}
    (hrun : ∀ world, ∃ after, action.run world = (see world.tree, after) ∧
      after.tree = world.tree) :
    Looks (liftM action) fun tree value => value = see tree where
  returns := by
    intro world value other hother
    obtain ⟨after, hafter, htree⟩ := hrun world
    obtain ⟨rfl, rfl⟩ := Prod.mk.inj ((ends_lift_iff.mp hother).symm.trans hafter)
    exact ⟨rfl, htree⟩
  finds := by
    rintro world value rfl
    obtain ⟨after, hafter, htree⟩ := hrun world
    exact ⟨after, ends_lift_iff.mpr hafter, htree⟩

theorem looks_throw (error : Error) :
    Looks (throw error : ExceptT Error Model α) fun _ _ => False where
  returns hends := by cases hends
  finds hsees := hsees.elim

theorem Looks.congr {action : ExceptT Error Model α} {sees sees' : Tree → α → Prop}
    (h : Looks action sees) (hiff : ∀ tree value, sees tree value ↔ sees' tree value) :
    Looks action sees' where
  returns hends := (h.returns hends).imp_left (hiff _ _).mp
  finds hsees := h.finds ((hiff _ _).mpr hsees)

theorem looks_say (level : Level) (message : String) :
    Looks (liftM (say level message : Model Unit)) fun _ _ => True := by
  have hrun (world : World) : ∃ after, (say level message : Model Unit).run world = ((), after) ∧
      after.tree = world.tree := ⟨_, rfl, rfl⟩
  exact (@looks_lift Unit _ (fun _ => ()) hrun).congr (by simp)

/-- Something is told at the end. -/
theorem Looks.say {action : ExceptT Error Model α} {sees : Tree → α → Prop}
    (h : Looks action sees) (level : Level) (message : α → String) :
    Looks (do
      let value ← action
      (Files.say level (message value) : Model Unit)
      return value) sees := by
  refine (h.bind fun value => (looks_say level (message value)).bind fun _ =>
    looks_pure value).congr fun tree value => ?_
  simp

/-! ## Data in files -/

/-- The text in a file, or why there is none. -/
def textIn (tree : Tree) (name : String) : Except String String :=
  match tree.read name with
  | .error issue => .error issue.refusal.words
  | .ok bytes =>
    match Text.decode? bytes with
    | some text => .ok text
    | none => .error "File contains invalid characters"

theorem looks_readText (name : String) :
    Looks (liftM (readText name : Model _)) fun tree found => found = textIn tree name := by
  apply looks_lift
  intro world
  have hread : (Host.read name : Model _).run world =
      ((world.tree.read name).mapError Issue.refusal, world) := rfl
  refine ⟨world, ?_, rfl⟩
  rw [readText, Model.run_bind hread, textIn]
  cases world.tree.read name with
  | error issue => rfl
  | ok bytes =>
    simp only [Except.mapError]
    cases Text.decode? bytes with
    | none => rfl
    | some text => rfl

/-- The tree has these data in a file. -/
def HoldsData (tree : Tree) (shape : Shape) (name : String) (data : shape.Data) : Prop :=
  ∃ text, textIn tree name = .ok text ∧ shape.parse text = .ok data

theorem looks_readData (shape : Shape) (name : String) :
    Looks (readData shape name) fun tree data => HoldsData tree shape name data := by
  refine Looks.congr (@Looks.bind _ _ _ _ _ (fun found _ data => ∃ text, found = .ok text ∧
    shape.parse text = .ok data) (looks_readText name) fun found => ?_) fun tree data => ?_
  · cases found with
    | error cause => exact (looks_throw _).congr (by simp)
    | ok text =>
      dsimp only
      cases hparse : shape.parse text with
      | error issue => exact (looks_throw _).congr (by simp [hparse])
      | ok data => exact (looks_pure data).congr (by simp [hparse, eq_comm])
  · constructor
    · rintro ⟨found, rfl, text, htext, hparse⟩
      exact ⟨text, htext, hparse⟩
    · rintro ⟨text, htext, hparse⟩
      exact ⟨_, rfl, text, htext, hparse⟩

/-- The tree has these items in the file of a collection, or none without a file. -/
def HoldsCollection (tree : Tree) (item : Shape) (directory collection : String)
    (items : List item.Data) : Prop :=
  if (tree.find? (inDirectory directory (collection ++ ".json"))).isSome then
    HoldsData tree (.list item) (inDirectory directory (collection ++ ".json")) items
  else items = []

/-- A collection without a file is empty. -/
theorem holdsCollection_of_missing {tree : Tree} {item : Shape} {directory collection : String}
    (hmissing : tree.find? (inDirectory directory (collection ++ ".json")) = none) :
    HoldsCollection tree item directory collection [] := by
  unfold HoldsCollection
  rw [hmissing]
  rfl

theorem looks_readCollection (item : Shape) (directory collection : String) :
    Looks (readCollection item directory collection) fun tree items =>
      HoldsCollection tree item directory collection items := by
  have hthere : Looks (liftM (Host.isThere (inDirectory directory (collection ++ ".json")) :
      Model Bool)) fun tree found =>
        found = (tree.find? (inDirectory directory (collection ++ ".json"))).isSome :=
    looks_lift fun world => ⟨world, rfl, rfl⟩
  have hread (found : Bool) : Looks (if found = true then
        readData (.list item) (inDirectory directory (collection ++ ".json"))
      else (do
        (say .debug ("No " ++ collection ++ " file in " ++ directory ++
          ", using empty collection") : Model Unit)
        return ([] : List item.Data)) : ExceptT Error Model (List item.Data)) fun tree items =>
      if found = true then
        HoldsData tree (.list item) (inDirectory directory (collection ++ ".json")) items
      else items = [] := by
    cases found with
    | true => exact (looks_readData _ _).congr (by simp)
    | false => exact ((looks_say _ _).bind fun _ => looks_pure _).congr (by simp)
  refine (hthere.bind hread).congr fun tree items => ?_
  simp [HoldsCollection]

/-- The tree has these data for a field: the items of a collection, or nothing. -/
def HoldsField (tree : Tree) (directory name : String) : (shape : Shape) → shape.Data → Prop
  | .list item, items => HoldsCollection tree item directory name items
  | shape, data => data = shape.empty

/-- The tree has these data in the files of collections, one for each field. -/
def HoldsFields (tree : Tree) (directory : String) : (fields : Fields) → fields.Data → Prop
  | .nil, _ => True
  | .cons name shape _ rest, data =>
    HoldsField tree directory name shape data.1 ∧ HoldsFields tree directory rest data.2

/-- Reads a field: the items of a collection, or nothing. -/
def readField (directory name : String) : (shape : Shape) → ExceptT Error Model shape.Data
  | .list item => readCollection item directory name
  | shape => return shape.empty

/-- Reads collections, one for each field. -/
def readFields (directory : String) : (fields : Fields) → ExceptT Error Model fields.Data
  | .nil => return ()
  | .cons name shape _ rest => do
    let data ← readField directory name shape
    let more ← readFields directory rest
    return (data, more)

theorem readFields_bind (directory name : String) (shape : Shape) (required : Bool) (rest : Fields)
    (next : (Fields.cons name shape required rest).Data → ExceptT Error Model β) :
    readFields directory (.cons name shape required rest) >>= next =
      readField directory name shape >>= fun data =>
        readFields directory rest >>= fun more => next (data, more) := by
  let withMore (data : shape.Data) : ExceptT Error Model (shape.Data × rest.Data) :=
    readFields directory rest >>= fun more => pure (data, more)
  have hmore (data : shape.Data) :
      withMore data >>= next = readFields directory rest >>= fun more => next (data, more) :=
    (bind_assoc _ _ next).trans (bind_congr fun more => pure_bind _ next)
  exact (bind_assoc _ withMore next).trans (bind_congr hmore)

/-- The collections of a directory are read one by one. -/
theorem readDirectory_eq (directory : String) :
    readDirectory directory =
      readFields directory catalogFields >>= fun data => pure (Catalog.ofData (data, [])) := by
  rw [readDirectory]
  iterate 11
    refine Eq.trans ?_ (readFields_bind ..).symm
    refine bind_congr fun _ => ?_
  rfl

theorem looks_readField (directory name : String) (shape : Shape) :
    Looks (readField directory name shape) fun tree data =>
      HoldsField tree directory name shape data := by
  cases shape with
  | list item => exact looks_readCollection item directory name
  | text wanted => exact looks_pure _
  | any => exact looks_pure _
  | optional inner => exact looks_pure _
  | record name fields isOpen => exact looks_pure _

theorem looks_readFields (directory : String) : (fields : Fields) →
    Looks (readFields directory fields) fun tree data => HoldsFields tree directory fields data
  | .nil => (looks_pure ()).congr fun _ _ => by simp [HoldsFields]
  | .cons name shape required rest => by
    refine ((looks_readField directory name shape).bind fun data =>
      (looks_readFields directory rest).bind fun more => looks_pure (data, more)).congr
        fun tree found => ?_
    constructor
    · rintro ⟨data, hdata, more, hmore, rfl⟩
      exact ⟨hdata, hmore⟩
    · rintro ⟨hdata, hmore⟩
      exact ⟨found.1, hdata, found.2, hmore, rfl⟩

/-! ## Catalogs at locations -/

/-- The tree has this catalog at a location. -/
def Holds (tree : Tree) : Location → Catalog → Prop
  | .file name, catalog =>
    ∃ data, HoldsData tree catalogShape name data ∧ catalog = Catalog.ofData data
  | .directory name, catalog =>
    ∃ data, HoldsFields tree name catalogFields data ∧ catalog = Catalog.ofData (data, [])

theorem looks_load (location : Location) :
    Looks (load location) fun tree catalog => Holds tree location catalog := by
  cases location with
  | file name =>
    rw [load, map_eq_pure_bind]
    exact ((looks_readData catalogShape name).bind fun data => looks_pure _).say _ _
  | directory name =>
    rw [load, readDirectory_eq]
    exact ((looks_readFields name catalogFields).bind fun data => looks_pure _).say _ _

section

variable {tree : Tree}

theorem HoldsData.returned {shape : Shape} {name : String} {data : shape.Data}
    (h : HoldsData tree shape name data) : shape.Returned Reader.maxDepth data := by
  obtain ⟨text, -, hparse⟩ := h
  exact Shape.returned_of_parse hparse

theorem HoldsCollection.returned {item : Shape} {directory collection : String}
    {items : List item.Data} (h : HoldsCollection tree item directory collection items) :
    (Shape.list item).Returned Reader.maxDepth items := by
  unfold HoldsCollection at h
  split at h
  · exact h.returned
  · exact h ▸ (Shape.list item).returned_empty Reader.maxDepth

theorem HoldsField.returned {directory name : String} {shape : Shape} {data : shape.Data}
    (h : HoldsField tree directory name shape data) : shape.Returned Reader.maxDepth data := by
  have hmissing (hempty : data = shape.empty) : shape.Returned Reader.maxDepth data :=
    hempty ▸ shape.returned_empty Reader.maxDepth
  cases shape with
  | text wanted => exact hmissing h
  | any => exact hmissing h
  | list item => exact HoldsCollection.returned h
  | optional inner => exact hmissing h
  | record name fields isOpen => exact hmissing h

theorem HoldsFields.returned {directory : String} : {fields : Fields} → {data : fields.Data} →
    HoldsFields tree directory fields data → fields.Returned Reader.maxDepth data
  | .nil, (), _ => Fields.returned_empty .nil _
  | .cons _ _ _ _, (_, _), ⟨hdata, hmore⟩ => .cons hdata.returned hmore.returned

/-- The collections of a catalog are its members. -/
theorem toValue_eq (catalog : Catalog) : catalog.toValue = .object (collections catalog) := rfl

theorem collections_eq (catalog : Catalog) :
    collections catalog = catalogFields.toMembers catalog.toData.1 := List.append_nil _

/-- What is known of a catalog that was loaded. -/
structure Loadable (catalog : Catalog) : Prop where
  sound : catalogShape.Sound catalog.toData
  kept : Catalog.ofData catalog.toData = catalog
  shallow : membersNesting (collections catalog) < Reader.maxDepth

theorem loadable_ofData {data : catalogShape.Data} (hsound : catalogShape.Sound data)
    (hshallow : membersNesting (catalogFields.toMembers data.1) < Reader.maxDepth) :
    Loadable (Catalog.ofData data) := by
  have hdata : (Catalog.ofData data).toData = data := toData_ofData hsound
  constructor
  · rw [hdata]
    exact hsound
  · rw [hdata]
  · rw [collections_eq, hdata]
    exact hshallow

theorem height_catalogFields : catalogFields.height < Reader.maxDepth := by decide

theorem height_catalogShape : catalogShape.height < Reader.maxDepth := by decide

/-- A catalog that is held in a file is nested less than the depth. -/
theorem Holds.nesting_lt {name : String} {catalog : Catalog}
    (h : Holds tree (.file name) catalog) : catalog.toValue.nesting < Reader.maxDepth := by
  obtain ⟨data, hholds, rfl⟩ := h
  obtain ⟨hsound, hnesting⟩ := hholds.returned
  have hheight := height_catalogShape
  rw [Catalog.toValue, toData_ofData hsound]
  omega

theorem Holds.loadable {location : Location} {catalog : Catalog}
    (h : Holds tree location catalog) : Loadable catalog := by
  cases location with
  | file name =>
    have hnesting := h.nesting_lt
    obtain ⟨data, hholds, rfl⟩ := h
    have hsound := hholds.returned.1
    refine loadable_ofData hsound ?_
    rw [toValue_eq, collections_eq, toData_ofData hsound] at hnesting
    exact Nat.lt_of_succ_lt hnesting
  | directory name =>
    obtain ⟨data, hholds, rfl⟩ := h
    obtain ⟨hsound, hnesting⟩ := hholds.returned
    refine @loadable_ofData (data, []) ⟨hsound, .nil, nofun, fun _ => rfl⟩ ?_
    have hheight := height_catalogFields
    show membersNesting (catalogFields.toMembers data) < Reader.maxDepth
    omega

end

end Relocate.Store
