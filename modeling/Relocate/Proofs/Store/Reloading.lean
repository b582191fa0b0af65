import Relocate.Proofs.Store.Saving

/-!
# A saved catalog is loaded again

The text of a catalog is one level deeper than the texts of its collections.  So a
directory always holds the catalog that was saved into it, and a file does when the
reader goes as deep as the catalog.
-/

namespace Relocate.Store

open Catalog Files Json

/-! ## Written texts -/

theorem fromUTF8?_toUTF8 (text : String) : String.fromUTF8? text.toUTF8 = some text := by
  rw [String.fromUTF8?, String.toUTF8_eq_toByteArray, dif_pos text.isValidUTF8]
  rfl

theorem decode?_toUTF8 (text : String) :
    Text.decode? text.toUTF8 = some (Text.dropByteOrderMark text) := by
  rw [Text.decode?, fromUTF8?_toUTF8]
  rfl

/-- No value is written with a byte order mark. -/
theorem dropByteOrderMark_pretty {value : Value} (hwhole : value.isFloatFree = true) :
    Text.dropByteOrderMark (value.pretty 0) = value.pretty 0 := by
  obtain ⟨c, rest, hwritten, hstart, -⟩ := written_eq_cons hwhole 0
  have hmark : c ≠ Text.byteOrderMark := ne_of_isStart hstart (by decide)
  have hlist : (value.pretty 0).toList = c :: rest := hwritten
  simp only [Text.dropByteOrderMark, hlist, if_neg hmark]

section

variable {tree : Tree}

theorem textIn_of_hasFile {name : String} {value : Value} (hwhole : value.isFloatFree = true)
    (hfile : tree.HasFile name (value.pretty 0).toUTF8) :
    textIn tree name = .ok (value.pretty 0) := by
  simp only [textIn, hfile.read, decode?_toUTF8, dropByteOrderMark_pretty hwhole]

/-! ## Data in written files -/

/-- A file with the text of data holds these data if the reader goes deep enough,
and nothing else. -/
theorem holdsData_iff {shape : Shape} {name : String} {data found : shape.Data}
    (hproper : shape.isProper = true) (hheight : shape.height < Reader.maxDepth)
    (hsound : shape.Sound data) (hwhole : (shape.toValue data).isFloatFree = true)
    (hfile : tree.HasFile name ((shape.toValue data).pretty 0).toUTF8) :
    HoldsData tree shape name found ↔
      found = data ∧ (shape.toValue data).nesting < Reader.maxDepth := by
  have htext := textIn_of_hasFile hwhole hfile
  constructor
  · rintro ⟨text, hread, hparse⟩
    obtain rfl := Except.ok.inj (htext.symm.trans hread)
    obtain ⟨rfl, hnesting⟩ := Shape.parse_pretty_ok hproper hsound hwhole hparse
    exact ⟨rfl, by omega⟩
  · rintro ⟨rfl, hnesting⟩
    exact ⟨_, htext, Shape.parse_pretty hproper hsound hwhole hnesting⟩

theorem holdsCollection_iff {item : Shape} {directory name : String} {items found : List item.Data}
    (hproper : item.isProper = true) (hheight : (Shape.list item).height < Reader.maxDepth)
    (hsound : (Shape.list item).Sound items)
    (hwhole : ((Shape.list item).toValue items).isFloatFree = true)
    (hnesting : ((Shape.list item).toValue items).nesting < Reader.maxDepth)
    (hfile : tree.HasFile (inDirectory directory (name ++ ".json"))
      (((Shape.list item).toValue items).pretty 0).toUTF8) :
    HoldsCollection tree item directory name found ↔ found = items := by
  unfold HoldsCollection
  rw [if_pos hfile.find?]
  have hholds := @holdsData_iff tree (.list item) _ items found hproper hheight hsound hwhole hfile
  exact hholds.trans (and_iff_left hnesting)

/-- Every field is a list. -/
def areLists : Fields → Bool
  | .nil => true
  | .cons _ (.list _) _ rest => areLists rest
  | .cons _ _ _ _ => false

/-- The files of collections hold these collections and nothing else. -/
theorem holdsFields_iff {directory : String} : (fields : Fields) → {data found : fields.Data} →
    (hlists : areLists fields = true) → (hproper : fields.isProper = true) →
    (hheight : fields.height < Reader.maxDepth) → (hsound : fields.Sound data) →
    (hwhole : membersFloatFree (fields.toMembers data) = true) →
    (hnesting : membersNesting (fields.toMembers data) < Reader.maxDepth) →
    (hfiles : HasCollections tree directory (fields.toMembers data)) →
    (HoldsFields tree directory fields found ↔ found = data)
  | .nil, (), (), _, _, _, _, _, _, _ => ⟨fun _ => rfl, fun _ => trivial⟩
  | .cons name shape required rest, (items, more), (found, foundMore), hlists, hproper, hheight,
      hsound, hwhole, hnesting, hfiles => by
    cases shape with
    | list item =>
      -- no list is left out, so the file of each collection is there
      have hmembers :=
        (@Fields.toMembers_cons name (.list item) required rest items more).resolve_left
          (by rintro ⟨⟨⟩, -⟩)
      rw [hmembers] at hwhole hnesting hfiles
      rw [membersFloatFree, Bool.and_eq_true] at hwhole
      rw [membersNesting, Nat.max_lt] at hnesting
      rw [Fields.height, Nat.max_lt] at hheight
      rw [HasCollections, List.map_cons, List.forall_mem_cons] at hfiles
      simp only [Fields.isProper, Bool.and_eq_true] at hproper
      obtain ⟨⟨⟨hitem, -⟩, -⟩, hrest⟩ := hproper
      have hfirst := @holdsCollection_iff tree item directory name items found hitem hheight.1
        hsound.1 hwhole.1 hnesting.1 hfiles.1
      have hothers := @holdsFields_iff directory rest more foundMore hlists hrest hheight.2
        hsound.2 hwhole.2 hnesting.2 hfiles.2
      refine (and_congr hfirst hothers).trans ⟨?_, Prod.mk.inj⟩
      rintro ⟨hitems, hmore⟩
      exact Prod.ext hitems hmore
    | _ => cases hlists

/-- A saved catalog is held if the reader goes deep enough, and no other is. -/
theorem holds_iff {location : Location} {catalog found : Catalog} (hcatalog : Loadable catalog)
    (hwhole : catalog.toValue.isFloatFree = true) (hsaved : Saved tree catalog location) :
    Holds tree location found ↔ found = catalog ∧
      ∀ name, location = .file name → catalog.toValue.nesting < Reader.maxDepth := by
  cases location with
  | file name =>
    have hheld (data : catalogShape.Data) :=
      @holdsData_iff tree catalogShape name catalog.toData data isProper_catalogShape
        height_catalogShape hcatalog.sound hwhole hsaved.2
    constructor
    · rintro ⟨data, hdata, rfl⟩
      obtain ⟨rfl, hnesting⟩ := (hheld data).mp hdata
      exact ⟨hcatalog.kept, fun _ _ => hnesting⟩
    · rintro ⟨rfl, hnesting⟩
      exact ⟨_, (hheld _).mpr ⟨rfl, hnesting name rfl⟩, hcatalog.kept.symm⟩
  | directory name =>
    -- the files hold the members, so the level of the catalog itself does not count
    have hmembers := collections_eq catalog
    have hheld (data : catalogFields.Data) := @holdsFields_iff tree name catalogFields
      catalog.toData.1 data (by decide) isProper_catalogShape height_catalogFields hcatalog.sound.1
      (hmembers ▸ hwhole) (hmembers ▸ hcatalog.shallow) (hmembers ▸ hsaved.2)
    constructor
    · rintro ⟨data, hdata, rfl⟩
      obtain rfl := (hheld data).mp hdata
      exact ⟨hcatalog.kept, nofun⟩
    · rintro ⟨rfl, -⟩
      exact ⟨_, (hheld _).mpr rfl, hcatalog.kept.symm⟩

end

/-! ## A directory with one collection -/

/-- A folder that keeps an unknown member. -/
def labFolder (layout : Value) : Folder :=
  ⟨"f", ["Lab", "Deep"], [], some "folder", none, [("layout", layout)]⟩

/-- The catalog with this folder only. -/
def labCatalog (layout : Value) : Catalog :=
  { Catalog.empty with folders := [labFolder layout] }

/-- The members of the folder. -/
def labMembers (layout : Value) : List (String × Value) :=
  [("id", .text "f"), ("path", .array [.text "Lab", .text "Deep"]), ("children", .array []),
    ("entityType", .text "folder"), ("layout", layout)]

/-- A directory with a file of folders and nothing else. -/
def labTree (content : ByteArray) : Tree :=
  ⟨[(["lab"], .directory), (["lab", "folders.json"], .file content)]⟩

/-- The directory with the folder. -/
def labWorld (layout : Value) : World :=
  ⟨labTree ((Value.array [.object (labMembers layout)]).pretty 0).toUTF8, []⟩

theorem toValue_labCatalog (layout : Value) :
    (labCatalog layout).toValue = .object [("containers", .array []), ("spaces", .array []),
      ("folders", .array [.object (labMembers layout)]), ("virtualDatasets", .array []),
      ("physicalDatasets", .array []), ("sources", .array []), ("homes", .array []),
      ("reflections", .array []), ("tags", .array []), ("wikis", .array []),
      ("datasetParents", .array [])] := rfl

theorem inDirectory_lab (name : String) : inDirectory "lab" name = "lab/" ++ name := by
  rw [inDirectory, endsWith_slash]
  rfl

theorem hasFile_labTree (content : ByteArray) :
    (labTree content).HasFile (inDirectory "lab" ("folders" ++ ".json")) content := by
  rw [inDirectory_lab]
  refine ⟨?_, ["lab", "folders.json"], ?_, rfl⟩
  · rw [endsWith_slash]
    decide
  · rw [Tree.locate, startsWith_slash]
    rfl

theorem find?_labTree (content : ByteArray) {collection : String}
    (hcollection : collection ∈ catalogFields.names.erase "folders") :
    (labTree content).find? (inDirectory "lab" (collection ++ ".json")) = none := by
  rw [inDirectory_lab, Tree.find?, Tree.locate, startsWith_slash, endsWith_slash]
  have hnames : catalogFields.names.erase "folders" = ["containers", "spaces", "virtualDatasets",
    "physicalDatasets", "sources", "homes", "reflections", "tags", "wikis", "datasetParents"] := by
    decide
  rw [hnames] at hcollection
  simp only [List.mem_cons, List.not_mem_nil, or_false] at hcollection
  rcases hcollection with rfl | rfl | rfl | rfl | rfl | rfl | rfl | rfl | rfl | rfl <;> rfl

section

variable {layout : Value}

theorem isFloatFree_labMembers (layout : Value) :
    (Value.array [.object (labMembers layout)]).isFloatFree = layout.isFloatFree := by
  simp [labMembers, Value.isFloatFree, itemsFloatFree, membersFloatFree]

theorem nesting_labMembers (layout : Value) :
    (Value.array [.object (labMembers layout)]).nesting = max 1 layout.nesting + 2 := by
  simp [labMembers, Value.nesting, itemsNesting, membersNesting]

theorem isFloatFree_labCatalog (layout : Value) :
    (labCatalog layout).toValue.isFloatFree = layout.isFloatFree := by
  simp [toValue_labCatalog, labMembers, Value.isFloatFree, itemsFloatFree, membersFloatFree]

theorem nesting_labCatalog (layout : Value) :
    (labCatalog layout).toValue.nesting = max 1 layout.nesting + 3 := by
  simp [toValue_labCatalog, labMembers, Value.nesting, itemsNesting, membersNesting]

theorem sound_labFolder (hlayout : layout.Canonical) :
    (Shape.list folderShape).Sound [(labFolder layout).toData] := by
  have hentity : ∀ inside, some "folder" = some inside →
      textShape.Sound inside ∧ textShape.toValue inside ≠ .null := fun _ _ => ⟨trivial, nofun⟩
  have hlayouts : ∀ member ∈ [("layout", layout)],
      member.1 ∉ ["id", "path", "children", "entityType", "accessControlList"] ∧
        member.2.Canonical := by
    simp [hlayout]
  exact ⟨⟨trivial, ⟨trivial, trivial⟩, trivial, hentity, nofun, trivial⟩,
    List.pairwise_singleton _ _, hlayouts, nofun⟩

theorem holds_labCatalog (hlayout : layout.Canonical) (hwhole : layout.isFloatFree = true)
    (hnesting : layout.nesting + 2 < Reader.maxDepth) :
    Holds (labWorld layout).tree (.directory "lab") (labCatalog layout) := by
  have hmissing {item : Shape} (collection : String)
      (hcollection : collection ∈ catalogFields.names.erase "folders") :
      HoldsCollection (labWorld layout).tree item "lab" collection [] :=
    holdsCollection_of_missing (find?_labTree _ hcollection)
  refine ⟨(labCatalog layout).toData.1, ?_, rfl⟩
  refine ⟨hmissing "containers" (by decide), hmissing "spaces" (by decide), ?_,
    hmissing "virtualDatasets" (by decide), hmissing "physicalDatasets" (by decide),
    hmissing "sources" (by decide), hmissing "homes" (by decide),
    hmissing "reflections" (by decide), hmissing "tags" (by decide), hmissing "wikis" (by decide),
    hmissing "datasetParents" (by decide), trivial⟩
  have hshallow : 3 < Reader.maxDepth := by decide
  have hdeep : max 1 layout.nesting + 2 < Reader.maxDepth := by omega
  have hfolders := @holdsCollection_iff (labWorld layout).tree folderShape "lab" "folders"
    [(labFolder layout).toData] [(labFolder layout).toData] (by decide) (by decide)
    (sound_labFolder hlayout) ((isFloatFree_labMembers layout).trans hwhole)
    (lt_of_eq_of_lt (nesting_labMembers layout) hdeep) (hasFile_labTree _)
  exact hfolders.mpr rfl

theorem exists_ends_load_labCatalog (hlayout : layout.Canonical)
    (hwhole : layout.isFloatFree = true) (hnesting : layout.nesting + 2 < Reader.maxDepth) :
    ∃ loaded, Ends (load (.directory "lab")) (labWorld layout) (labCatalog layout) loaded ∧
      loaded.tree = (labWorld layout).tree :=
  (looks_load _).finds (holds_labCatalog hlayout hwhole hnesting)

/-- Any catalog is saved into a file beside the directory. -/
theorem exists_ends_save_file (catalog : Catalog) {world : World} {content : ByteArray}
    (htree : world.tree = labTree content) :
    ∃ saved, Ends (save catalog (.file "catalog.json")) world () saved := by
  have hends : "catalog.json".endsWith "/" = false := by
    rw [endsWith_slash]
    decide
  have hlocate : (labTree content).locate "catalog.json" = .ok ["catalog.json"] := by
    rw [Tree.locate, startsWith_slash]
    rfl
  have hplace : (labTree content).at? ["catalog.json"] ≠ some .directory := nofun
  have hwrite := @Tree.write_eq_ok world.tree "catalog.json" ["catalog.json"]
    (catalog.toValue.pretty 0).toUTF8 hends (htree ▸ hlocate) (htree ▸ hplace)
  have hparent : Ends (ensureParent "catalog.json") world () world := rfl
  have hwritten := ends_writeValue_iff.mpr ⟨_, hwrite, rfl⟩
  rw [save_file]
  exact ⟨_, ends_bind_iff.mpr ⟨(), world, hparent, ends_bind_iff.mpr ⟨(), _, hwritten, rfl⟩⟩⟩

end

/-- What the folder of the laboratory keeps. -/
def labLayout : Value :=
  .object [("columns", .number (.natural 2)), ("title", .text "Deep work")]

theorem canonical_labLayout : labLayout.Canonical := by
  refine .object (List.pairwise_pair.mpr (by decide)) ?_
  have hcolumns : (Value.number (.natural 2)).Canonical :=
    .number (show 2 ≤ Reader.maxNatural by decide)
  have htitle : (Value.text "Deep work").Canonical := .text _
  simp [hcolumns, htitle]

/-- Arrays in arrays. -/
def nestedArrays : Nat → Value
  | 0 => .array []
  | depth + 1 => .array [nestedArrays depth]

theorem canonical_nestedArrays (depth : Nat) : (nestedArrays depth).Canonical := by
  induction depth with
  | zero => exact .array nofun
  | succ depth ih => exact .array (List.forall_mem_singleton.mpr ih)

theorem isFloatFree_nestedArrays (depth : Nat) : (nestedArrays depth).isFloatFree = true := by
  induction depth with
  | zero => rfl
  | succ depth ih => simp [nestedArrays, Value.isFloatFree, itemsFloatFree, ih]

theorem nesting_nestedArrays (depth : Nat) : (nestedArrays depth).nesting = depth + 1 := by
  induction depth with
  | zero => rfl
  | succ depth ih => simp [nestedArrays, Value.nesting, itemsNesting, ih]

/-! ## Saving and loading -/

section

variable {source target : Location} {catalog : Catalog} {world loaded start saved : World}

/-- What is loaded from where a loaded catalog was saved. -/
theorem exists_ends_load_iff (hload : Ends (load source) world catalog loaded)
    (hwhole : catalog.toValue.isFloatFree = true)
    (hsave : Ends (save catalog target) start () saved) (reloaded : Catalog) :
    (∃ after, Ends (load target) saved reloaded after) ↔ reloaded = catalog ∧
      ∀ name, target = .file name → catalog.toValue.nesting < Reader.maxDepth := by
  have hheld := ((looks_load source).returns hload).1
  have hsaved := (settles_save catalog target).reaches hsave
  rw [← holds_iff hheld.loadable hwhole hsaved]
  constructor
  · rintro ⟨after, hreload⟩
    exact ((looks_load target).returns hreload).1
  · intro hholds
    obtain ⟨after, hreload, -⟩ := (looks_load target).finds hholds
    exact ⟨after, hreload⟩

/-- A catalog that was loaded and saved is there again: always in a directory, and
in a file exactly when the reader goes as deep as its value, which it does for every
catalog that comes from a file.  What is loaded again is the same catalog, and
saving it again changes nothing. -/
theorem saved_catalog_reloads (hload : Ends (load source) world catalog loaded)
    (hwhole : catalog.toValue.isFloatFree = true)
    (hsave : Ends (save catalog target) start () saved) :
    ((∃ reloaded after, Ends (load target) saved reloaded after) ↔
      ∀ name, target = .file name → catalog.toValue.nesting < Reader.maxDepth) ∧
    (∀ name, source = .file name → catalog.toValue.nesting < Reader.maxDepth) ∧
    ∀ reloaded after, Ends (load target) saved reloaded after →
      reloaded = catalog ∧ after.tree = saved.tree ∧
        ∃ again, Ends (save reloaded target) after () again ∧
          ∀ place, again.tree.at? place = saved.tree.at? place := by
  have hreloads := exists_ends_load_iff hload hwhole hsave
  refine ⟨⟨?_, ?_⟩, ?_, ?_⟩
  · rintro ⟨reloaded, hreload⟩
    exact ((hreloads reloaded).mp hreload).2
  · intro hdeep
    exact ⟨catalog, (hreloads catalog).mpr ⟨rfl, hdeep⟩⟩
  · rintro name rfl
    exact ((looks_load _).returns hload).1.nesting_lt
  · intro reloaded after hreload
    obtain ⟨rfl, -⟩ := (hreloads reloaded).mp ⟨after, hreload⟩
    have htree := ((looks_load target).returns hreload).2
    have hsaved := (settles_save reloaded target).reaches hsave
    rw [← htree] at hsaved ⊢
    obtain ⟨again, hagain, hplaces⟩ := (settles_save reloaded target).again hsaved
    exact ⟨rfl, rfl, again, hagain, hplaces⟩

end

/-- The unknown member of the folder is there again after the directory was loaded
and saved into a file. -/
theorem labCatalog_reloads : ∃ loaded saved after : World,
    Ends (load (.directory "lab")) (labWorld labLayout) (labCatalog labLayout) loaded ∧
    Ends (save (labCatalog labLayout) (.file "catalog.json")) loaded () saved ∧
    Ends (load (.file "catalog.json")) saved (labCatalog labLayout) after := by
  obtain ⟨loaded, hload, htree⟩ := exists_ends_load_labCatalog canonical_labLayout rfl (by decide)
  obtain ⟨saved, hsave⟩ := exists_ends_save_file (labCatalog labLayout) htree
  obtain ⟨hreloads, -, hsame⟩ := saved_catalog_reloads hload rfl hsave
  obtain ⟨reloaded, after, hreload⟩ := hreloads.mpr fun _ _ => by decide
  obtain ⟨rfl, -⟩ := hsame reloaded after hreload
  exact ⟨loaded, saved, after, hload, hsave, hreload⟩

/-- A catalog that was loaded from a directory is lost in a file when a value that a
folder keeps is nested too deeply for one level more. -/
theorem deep_labCatalog_lost : ∃ loaded saved : World,
    Ends (load (.directory "lab")) (labWorld (nestedArrays 124)) (labCatalog (nestedArrays 124))
      loaded ∧
    (labCatalog (nestedArrays 124)).toValue.isFloatFree = true ∧
    Ends (save (labCatalog (nestedArrays 124)) (.file "catalog.json")) loaded () saved ∧
    ∀ reloaded after, ¬ Ends (load (.file "catalog.json")) saved reloaded after := by
  have hwhole := isFloatFree_nestedArrays 124
  have hnesting := nesting_nestedArrays 124
  have hdepth : (nestedArrays 124).nesting + 2 < Reader.maxDepth := by
    rw [hnesting]
    decide
  have hdeep : ¬ (labCatalog (nestedArrays 124)).toValue.nesting < Reader.maxDepth := by
    rw [nesting_labCatalog, hnesting]
    decide
  have hfree := (isFloatFree_labCatalog _).trans hwhole
  obtain ⟨loaded, hload, htree⟩ :=
    exists_ends_load_labCatalog (canonical_nestedArrays 124) hwhole hdepth
  obtain ⟨saved, hsave⟩ := exists_ends_save_file (labCatalog (nestedArrays 124)) htree
  refine ⟨loaded, saved, hload, hfree, hsave, ?_⟩
  intro reloaded after hreload
  exact hdeep (((exists_ends_load_iff hload hfree hsave reloaded).mp ⟨after, hreload⟩).2 _ rfl)

end Relocate.Store
