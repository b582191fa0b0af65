import Relocate.Proofs.Store.Loading

/-!
# What saving leaves behind

A step of saving `Settles` something: it keeps directories and ends with it, and
where it is settled already the step ends and changes nothing.  So what a saved
catalog leaves behind, and that saving it again changes nothing, follows step by
step.
-/

namespace Relocate.Store

open Catalog Files Json

/-! ## Steps of saving -/

/-- An action that settles something in a tree. -/
structure Settles (action : ExceptT Error Model Unit) (settled : Tree → Prop) : Prop where
  keeps : ∀ {world after}, Ends action world () after → world.tree.KeepsDirectories after.tree
  reaches : ∀ {world after}, Ends action world () after → settled after.tree
  again : ∀ {world : World}, settled world.tree → ∃ after, Ends action world () after ∧
    ∀ place, after.tree.at? place = world.tree.at? place

theorem settles_pure : Settles (pure ()) fun _ => True where
  keeps h := by
    obtain ⟨-, rfl⟩ := ends_pure_iff.mp h
    exact fun _ hplace => hplace
  reaches _ := trivial
  again _ := ⟨_, rfl, fun _ => rfl⟩

/-- Telling something at the end changes nothing. -/
theorem Settles.say {action : ExceptT Error Model Unit} {settled : Tree → Prop}
    (h : Settles action settled) (level : Level) (message : String) :
    Settles (do
      action
      (Files.say level message : Model Unit)) settled where
  keeps hends := by
    obtain ⟨_, between, hbetween, ⟨⟩⟩ := ends_bind_iff.mp hends
    have hkeeps := h.keeps hbetween
    exact hkeeps
  reaches hends := by
    obtain ⟨_, between, hbetween, ⟨⟩⟩ := ends_bind_iff.mp hends
    have hreaches := h.reaches hbetween
    exact hreaches
  again hsettled := by
    obtain ⟨after, hafter, hplaces⟩ := h.again hsettled
    exact ⟨_, ends_bind_iff.mpr ⟨(), after, hafter, rfl⟩, hplaces⟩

/-- What is settled first stays settled as long as directories stay, and what is
settled next does not depend on how the tree got its nodes. -/
theorem Settles.bind {first next : ExceptT Error Model Unit} {settled settledNext : Tree → Prop}
    (hfirst : Settles first settled) (hnext : Settles next settledNext)
    (hstays : ∀ {tree other : Tree}, tree.KeepsDirectories other → settled tree → settled other)
    (hsame : ∀ {tree other : Tree}, (∀ place, other.at? place = tree.at? place) →
      settledNext tree → settledNext other) :
    Settles (first >>= fun _ => next) fun tree => settled tree ∧ settledNext tree where
  keeps h := by
    obtain ⟨_, between, hbetween, hafter⟩ := ends_bind_iff.mp h
    exact (hfirst.keeps hbetween).trans (hnext.keeps hafter)
  reaches h := by
    obtain ⟨_, between, hbetween, hafter⟩ := ends_bind_iff.mp h
    exact ⟨hstays (hnext.keeps hafter) (hfirst.reaches hbetween), hnext.reaches hafter⟩
  again h := by
    obtain ⟨between, hbetween, hplaces⟩ := hfirst.again h.1
    obtain ⟨after, hafter, hplacesNext⟩ := hnext.again (hsame hplaces h.2)
    exact ⟨after, ends_bind_iff.mpr ⟨(), between, hbetween, hafter⟩,
      fun place => (hplacesNext place).trans (hplaces place)⟩

theorem Settles.congr {action : ExceptT Error Model Unit} {settled settled' : Tree → Prop}
    (h : Settles action settled) (hiff : ∀ tree, settled tree ↔ settled' tree) :
    Settles action settled' where
  keeps := h.keeps
  reaches hends := (hiff _).mp (h.reaches hends)
  again hsettled := h.again ((hiff _).mpr hsettled)

/-- The directory is there, or nothing is named. -/
def HasDirectory (tree : Tree) (name : String) : Prop :=
  name.isEmpty = true ∨ tree.find? name = some .directory

theorem HasDirectory.stays {tree other : Tree} {name : String}
    (hkeeps : tree.KeepsDirectories other) (h : HasDirectory tree name) :
    HasDirectory other name :=
  h.imp_right hkeeps.find?

/-- An operation that ends with a refusal stops the action. -/
theorem ends_match_iff {operation : Model (Except Refusal Unit)} {error : Refusal → Error}
    {world after : World} :
    Ends (do
      match ← (operation : ExceptT Error Model _) with
      | .ok () => return ()
      | .error refusal => throw (error refusal)) world () after ↔
        operation.run world = (.ok (), after) := by
  rw [ends_bind_iff]
  constructor
  · rintro ⟨result, between, hresult, hnext⟩
    cases result with
    | ok =>
      obtain ⟨-, rfl⟩ := ends_pure_iff.mp hnext
      exact ends_lift_iff.mp hresult
    | error refusal => cases hnext
  · intro h
    exact ⟨.ok (), after, ends_lift_iff.mpr h, rfl⟩

theorem settles_ensureDirectories (name : String) :
    Settles (ensureDirectories name) (HasDirectory · name) where
  keeps h := (Model.makeDirectories_ok (ends_match_iff.mp h)).1
  reaches h := (Model.makeDirectories_ok (ends_match_iff.mp h)).2
  again h := ⟨_, ends_match_iff.mpr (Model.makeDirectories_again h), fun _ => rfl⟩

/-- Makes the directory that a file is in. -/
def ensureParent (name : String) : ExceptT Error Model Unit :=
  match parent? name with
  | some above => if above.isEmpty then pure () else ensureDirectories above
  | none => pure ()

theorem settles_ensureParent (name : String) :
    Settles (ensureParent name) fun tree =>
      ∀ above, parent? name = some above → HasDirectory tree above := by
  rw [ensureParent]
  cases parent? name with
  | none =>
    refine settles_pure.congr fun tree => ?_
    simp
  | some above =>
    dsimp only
    by_cases hempty : above.isEmpty = true
    · rw [if_pos hempty]
      refine settles_pure.congr fun tree => ⟨?_, fun _ => trivial⟩
      rintro - _ ⟨⟩
      exact .inl hempty
    · rw [if_neg hempty]
      refine (settles_ensureDirectories above).congr fun tree => ?_
      simp

theorem ends_writeValue_iff {name : String} {value : Value} {world after : World} :
    Ends (writeValue name value) world () after ↔
      ∃ tree, world.tree.write name (value.pretty 0).toUTF8 = .ok tree ∧
        after = { world with tree := tree } :=
  ends_match_iff.trans Model.run_write_iff

theorem settles_writeValue (name : String) (value : Value) :
    Settles (writeValue name value) (·.HasFile name (value.pretty 0).toUTF8) where
  keeps h := by
    obtain ⟨tree, hwrite, rfl⟩ := ends_writeValue_iff.mp h
    exact Tree.keepsDirectories_write hwrite
  reaches h := by
    obtain ⟨tree, hwrite, rfl⟩ := ends_writeValue_iff.mp h
    exact Tree.hasFile_of_write hwrite
  again h := by
    obtain ⟨tree, hwrite, hplaces⟩ := h.write_again
    exact ⟨_, ends_writeValue_iff.mpr ⟨tree, hwrite, rfl⟩, hplaces⟩

/-- The file of a collection. -/
def collectionFile (collection : String × Value) : String × ByteArray :=
  (collection.1 ++ ".json", (collection.2.pretty 0).toUTF8)

theorem ends_writeCollections_iff {directory : String} {collections : List (String × Value)}
    {world after : World} :
    Ends (writeCollections directory collections) world () after ↔
      ∃ tree, Tree.writeAll directory world.tree (collections.map collectionFile) = .ok tree ∧
        after = { world with tree := tree } := by
  induction collections generalizing world with
  | nil =>
    rw [writeCollections, ends_pure_iff]
    constructor
    · rintro ⟨-, rfl⟩
      exact ⟨_, rfl, rfl⟩
    · rintro ⟨_, ⟨⟩, rfl⟩
      exact ⟨rfl, rfl⟩
  | cons collection rest ih =>
    rw [writeCollections, ends_bind_iff, List.map_cons]
    constructor
    · rintro ⟨_, between, hfirst, hrest⟩
      obtain ⟨next, hnext, rfl⟩ := ends_writeValue_iff.mp hfirst
      obtain ⟨tree, htree, rfl⟩ := ih.mp hrest
      have hwritten : world.tree.write (inDirectory directory (collectionFile collection).1)
        (collectionFile collection).2 = .ok next := hnext
      exact ⟨tree, (Tree.writeAll_cons hwritten).trans htree, rfl⟩
    · rintro ⟨tree, htree, rfl⟩
      obtain ⟨next, hnext, hrest⟩ := Tree.writeAll_cons_ok htree
      exact ⟨(), _, ends_writeValue_iff.mpr ⟨next, hnext, rfl⟩, ih.mpr ⟨tree, hrest, rfl⟩⟩

/-- The files of collections are in a directory. -/
def HasCollections (tree : Tree) (directory : String) (collections : List (String × Value)) :
    Prop :=
  ∀ file ∈ collections.map collectionFile, tree.HasFile (inDirectory directory file.1) file.2

theorem settles_writeCollections (directory : String) {collections : List (String × Value)}
    (hnames : ∀ file ∈ collections.map collectionFile, IsFileName file.1 = true)
    (hdistinct : ((collections.map collectionFile).map Prod.fst).Nodup) :
    Settles (writeCollections directory collections) (HasCollections · directory collections) where
  keeps h := by
    obtain ⟨tree, hwrite, rfl⟩ := ends_writeCollections_iff.mp h
    exact Tree.keepsDirectories_writeAll hwrite
  reaches h := by
    obtain ⟨tree, hwrite, rfl⟩ := ends_writeCollections_iff.mp h
    exact Tree.hasFile_of_writeAll hnames hdistinct hwrite
  again h := by
    obtain ⟨tree, hwrite, hplaces⟩ := Tree.writeAll_again h
    exact ⟨_, ends_writeCollections_iff.mpr ⟨tree, hwrite, rfl⟩, hplaces⟩

/-! ## Saved catalogs -/

/-- The files of a catalog are at a location. -/
def Saved (tree : Tree) (catalog : Catalog) : Location → Prop
  | .file name =>
    (∀ above, parent? name = some above → HasDirectory tree above) ∧
      tree.HasFile name (catalog.toValue.pretty 0).toUTF8
  | .directory name =>
    HasDirectory tree name ∧ HasCollections tree name (collections catalog)

theorem collections_names (catalog : Catalog) :
    (collections catalog).map Prod.fst = catalogFields.names := rfl

/-- The names of the files of collections. -/
theorem map_collectionFile (catalog : Catalog) :
    ((collections catalog).map collectionFile).map Prod.fst =
      catalogFields.names.map fun name => name ++ ".json" := by
  rw [← collections_names catalog, List.map_map, List.map_map]
  rfl

theorem isFileName_collectionFile (catalog : Catalog) :
    ∀ file ∈ (collections catalog).map collectionFile, IsFileName file.1 = true := by
  have hnames : ∀ name ∈ catalogFields.names.map fun name => name ++ ".json",
      IsFileName name = true := by decide
  rw [← map_collectionFile catalog, List.forall_mem_map] at hnames
  exact hnames

theorem nodup_collectionFile (catalog : Catalog) :
    (((collections catalog).map collectionFile).map Prod.fst).Nodup := by
  rw [map_collectionFile]
  decide

theorem save_file (catalog : Catalog) (name : String) :
    (save catalog (.file name) : ExceptT Error Model Unit) = (do
      ensureParent name
      writeValue name catalog.toValue
      (say .info ("Saved catalog to " ++ name) : Model Unit)) := by
  rw [save, ensureParent]
  cases parent? name with
  | none => rfl
  | some above =>
    dsimp only
    cases above.isEmpty with
    | true => rfl
    | false => rfl

/-- Saving leaves the files of the catalog, and saving again changes nothing. -/
theorem settles_save (catalog : Catalog) (location : Location) :
    Settles (save catalog location) (Saved · catalog location) := by
  cases location with
  | file name =>
    rw [save_file]
    refine (settles_ensureParent name).bind ((settles_writeValue name catalog.toValue).say .info _)
      ?_ ?_
    · intro tree other hkeeps hparent above habove
      exact (hparent above habove).stays hkeeps
    · exact fun hsame hfile => hfile.of_same hsame
  | directory name =>
    have hwritten := settles_writeCollections name (isFileName_collectionFile catalog)
      (nodup_collectionFile catalog)
    refine (settles_ensureDirectories name).bind (hwritten.say .info _) ?_ ?_
    · exact fun hkeeps h => h.stays hkeeps
    · exact fun hsame hfiles file hfile => (hfiles file hfile).of_same hsame

end Relocate.Store
