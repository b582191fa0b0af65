import Relocate.Proofs.Migrate.Accounting
import Relocate.Proofs.Migrate.Refusals
import Relocate.Proofs.Run.FailurePairs
import Relocate.Proofs.Store.Reloading
import Relocate.Run

/-!
# Runs that fail before they save

Views that fail are recorded while the migration still runs, and the run may end with an
error after that: a space is missing, two views meet at one path, or a report cannot be
written.  Whatever it is, until the save begins a run on any host only reads, except that
it writes into the directory for failed views, and no file of the result is there
(`Location.not_inPairs`).  Every step is a `Confined` action, so a run is one, too.

Only the save speaks of catalogs that cannot be written, and whatever stops it speaks of
nothing else.  So the error tells whether the run had come that far
(`runs_beforeSaving_iff`).
-/

namespace Relocate

open Files TreeHost

/-- The error speaks of a catalog that could not be written. -/
def Error.IsOfSaving (error : Error) : Prop :=
  ∃ path cause, error = .catalogWrite path cause

section

variable {σ α β : Type} [Host (StateM σ)] [TreeHost σ] {made written : Place → Prop}
  {before after : σ}

/-! ## Reading -/

namespace Store

theorem run_readText {name : String} {found : Except String String}
    (hrun : (readText name : StateM σ _).run before = (found, after)) :
    tree after = tree before ∧ ∀ text, found = .ok text → textIn (tree before) name = .ok text := by
  obtain ⟨outcome, between, hread, hrest⟩ := run_bind_iff.mp hrun
  obtain ⟨htree, hbytes⟩ := TreeHost.read hread
  cases outcome with
  | error refusal =>
    cases hrest
    exact ⟨htree, nofun⟩
  | ok bytes =>
    dsimp only at hrest
    cases hdecode : Text.decode? bytes with
    | none =>
      rw [hdecode] at hrest
      cases hrest
      exact ⟨htree, nofun⟩
    | some text =>
      rw [hdecode] at hrest
      cases hrest
      refine ⟨htree, ?_⟩
      rintro _ ⟨⟩
      simp only [textIn, hbytes bytes rfl, hdecode]

theorem confined_readText (name : String) :
    Confined made written (¬ ·.IsOfSaving)
      (liftM (readText name : StateM σ _) : ExceptT Error (StateM σ) _) :=
  confined_lift fun hrun => .of_eq (run_readText hrun).1

theorem confined_readData (shape : Json.Shape) (name : String) :
    Confined made written (¬ ·.IsOfSaving)
      (readData shape name : ExceptT Error (StateM σ) shape.Data) := by
  refine (confined_readText name).bind fun found => ?_
  cases found with
  | error cause => exact confined_throw (by rintro ⟨_, _, ⟨⟩⟩)
  | ok text =>
    dsimp only
    cases shape.parse text with
    | error issue => exact confined_throw (by rintro ⟨_, _, ⟨⟩⟩)
    | ok data => exact confined_pure data

theorem confined_readCollection (item : Json.Shape) (directory collection : String) :
    Confined made written (¬ ·.IsOfSaving)
      (readCollection item directory collection : ExceptT Error (StateM σ) (List item.Data)) := by
  refine (confined_lift fun hrun => .of_eq (TreeHost.isThere hrun)).bind fun there => ?_
  cases there with
  | true => exact confined_readData _ _
  | false => exact (confined_say _ _).bind fun _ => confined_pure _

theorem confined_readDirectory (directory : String) :
    Confined made written (¬ ·.IsOfSaving)
      (readDirectory directory : ExceptT Error (StateM σ) Catalog) := by
  unfold readDirectory
  iterate 11 refine (confined_readCollection _ _ _).bind fun _ => ?_
  exact confined_pure _

theorem confined_load (location : Location) :
    Confined made written (¬ ·.IsOfSaving)
      (load location : ExceptT Error (StateM σ) Catalog) := by
  cases location with
  | file name =>
    rw [load, map_eq_pure_bind]
    exact ((confined_readData _ name).bind fun _ => confined_pure _).bind fun _ =>
      (confined_say _ _).bind fun _ => confined_pure _
  | directory name =>
    rw [load]
    exact (confined_readDirectory name).bind fun _ =>
      (confined_say _ _).bind fun _ => confined_pure _

end Store

namespace Config

/-- The file of this name has this configuration. -/
def HeldIn (config : Config) (tree : Tree) (name : String) : Prop :=
  ∃ text, Store.textIn tree name = .ok text ∧ Config.parse text = .ok config

theorem HeldIn.unique {config other : Config} {tree : Tree} {name : String}
    (h : config.HeldIn tree name) (hother : other.HeldIn tree name) : config = other := by
  obtain ⟨text, htext, hparse⟩ := h
  obtain ⟨_, hsame, hparses⟩ := hother
  cases hsame.symm.trans htext
  exact Except.ok.inj (hparse.symm.trans hparses)

theorem not_isOfSaving_of_validate {config : Config} {error : Error}
    (herror : config.validate = .error error) : ¬ error.IsOfSaving := by
  unfold validate at herror
  split at herror
  · cases herror
    rintro ⟨_, _, ⟨⟩⟩
  · cases herror

theorem confined_load (name : String) :
    Confined made written (¬ ·.IsOfSaving) (load name : ExceptT Error (StateM σ) Config) := by
  refine (Store.confined_readText name).bind fun found => ?_
  cases found with
  | error cause => exact confined_throw (by rintro ⟨_, _, ⟨⟩⟩)
  | ok text =>
    dsimp only
    cases shape.parse text with
    | error issue => exact confined_throw (by rintro ⟨_, _, ⟨⟩⟩)
    | ok data =>
      constructor
      · intro before after result hrun
        exact .of_eq (congrArg tree (runs_mk_pure_iff.mp hrun).2)
      · intro before after error hrun
        exact not_isOfSaving_of_validate (runs_mk_pure_iff.mp hrun).1.symm

/-- A configuration that is loaded is that of its file. -/
theorem heldIn_of_load {name : String} {config : Config}
    (hrun : Runs (load name) before (.ok config) after) : config.HeldIn (tree before) name := by
  unfold load at hrun
  rcases runs_bind_iff.mp hrun with ⟨_, _, ⟨⟩⟩ | ⟨found, between, hread, hrest⟩
  obtain ⟨_, hread, ⟨⟩⟩ := runs_lift_iff.mp hread
  have htext := (Store.run_readText hread).2
  cases found with
  | error cause =>
    obtain ⟨⟨⟩, -⟩ := runs_throw_iff.mp hrest
  | ok text =>
    refine ⟨text, htext text rfl, ?_⟩
    dsimp only at hrest
    rw [Config.parse]
    cases hparse : shape.parse text with
    | error issue =>
      rw [hparse] at hrest
      obtain ⟨⟨⟩, -⟩ := runs_throw_iff.mp hrest
    | ok data =>
      rw [hparse] at hrest
      exact (runs_mk_pure_iff.mp hrest).1.symm

end Config

/-! ## Migrating -/

namespace Run

open FailureDirectory

theorem not_isOfSaving_of_recording {error : Error} (h : IsOfRecording error) :
    ¬ error.IsOfSaving := by
  obtain ⟨_, _, rfl⟩ := h
  rintro ⟨_, _, ⟨⟩⟩

theorem isPathCollision_of_collisionAfter? {seen views : List Catalog.View} {error : Error}
    (hcollision : Catalog.collisionAfter? seen views = some error) :
    ∃ path first second, error = .pathCollision path first second := by
  induction views generalizing seen with
  | nil => cases hcollision
  | cons view rest ih =>
    rw [Catalog.collisionAfter?] at hcollision
    split at hcollision
    · cases hcollision
      exact ⟨_, _, _, rfl⟩
    · exact ih hcollision

theorem not_isOfSaving_of_reconcile {ids : Nat → String} {catalog : Catalog} {error : Error}
    (hresult : (catalog.reconcile ids).result = .error error) : ¬ error.IsOfSaving := by
  obtain ⟨after, hfails⟩ := Catalog.reconcile_eq_error_iff.mp hresult
  cases hcollision : catalog.collision? with
  | none =>
    obtain ⟨path, -, hrefuses⟩ := Catalog.Fails.refuses_reconcileTree hfails hcollision
    cases hrefuses <;> rintro ⟨_, _, ⟨⟩⟩
  | some found =>
    have hsame : found = error := by
      have hfound := @Catalog.Fails.of_collision? ids ⟨catalog, 0, []⟩ _ hcollision
      exact Except.error.inj (Prod.mk.inj (hfound.symm.trans hfails)).1
    obtain ⟨path, first, second, rfl⟩ := isPathCollision_of_collisionAfter? hcollision
    rw [← hsame]
    rintro ⟨_, _, ⟨⟩⟩

theorem not_isOfSaving_of_migrate {ids : Nat → String} {plan : Plan} {catalog : Catalog}
    {error : Error} (hresult : (migrate ids plan catalog).result = .error error) :
    ¬ error.IsOfSaving := by
  unfold migrate at hresult
  dsimp only at hresult
  split at hresult
  · next stopped hmoved =>
    cases hresult
    unfold restructure at hmoved
    split at hmoved
    · cases hmoved
    · exact not_isOfSaving_of_reconcile hmoved
  · cases hresult

/-- Whatever the events are, they touch the directory of the failed views only. -/
theorem confined_carryOut (events : List Event) (target : FailureDirectory) :
    Confined (OnTheWay target.directory) (InPairs target.directory) (¬ ·.IsOfSaving)
      (carryOut events target : ExceptT Error (StateM σ) _) := by
  induction events generalizing target with
  | nil => exact confined_pure _
  | cons event rest ih =>
    cases event with
    | told entry => exact (confined_tell entry).bind fun _ => ih target
    | failed failure =>
      have hrecord : Confined (OnTheWay target.directory) (InPairs target.directory)
          (¬ ·.IsOfSaving) (target.record failure : ExceptT Error (StateM σ) _) :=
        (confined_record target failure).mono (fun _ h => h)
          (fun place hplace => ⟨target.count + 1, Nat.succ_pos _, hplace⟩)
          fun _ => not_isOfSaving_of_recording
      refine hrecord.bind_returned fun hreturned => ?_
      obtain ⟨rfl, -⟩ := holds_of_record hreturned
      exact ih { target with count := target.count + 1 }

theorem confined_migrateInto (ids : Nat → String) (plan : Plan) (catalog : Catalog)
    (target : FailureDirectory) :
    Confined (OnTheWay target.directory) (InPairs target.directory) (¬ ·.IsOfSaving)
      (migrateInto ids plan catalog target : ExceptT Error (StateM σ) _) := by
  unfold migrateInto
  refine (confined_carryOut _ target).bind fun _ => ?_
  cases hresult : (migrate ids plan catalog).result with
  | ok final => exact confined_pure _
  | error error => exact confined_throw (not_isOfSaving_of_migrate hresult)

/-! ## A run and its save -/

/-- What a run does with its configuration before it saves. -/
def migrateWith (ids : Nat → String) (config : Config) :
    ExceptT Error (StateM σ) (Catalog × Location × Summary) :=
  match config.source, config.destination, config.errorDirectory with
  | some source, some destination, some directory => do
    let catalog ← Store.load source
    let (catalog, summary, target) ← migrateInto ids config.plan catalog ⟨directory, 0⟩
    if 0 < target.count then
      (say .info (toString target.count ++ " failed views written to " ++ target.directory) :
        StateM σ Unit)
    return (catalog, destination, summary)
  | _, _, _ => throw (.invalidConfig "source and destination locations are required")

/-- What a run does before it saves: it ends with the catalog and where to save it. -/
def beforeSaving (ids : Nat → String) (configName : String) :
    ExceptT Error (StateM σ) (Catalog × Location × Summary) := do
  (say .info ("Reading configuration: " ++ configName) : StateM σ Unit)
  let config ← Config.load configName
  migrateWith ids config

omit [TreeHost σ] in
theorem run_eq (ids : Nat → String) (configName : String) :
    (run ids configName : ExceptT Error (StateM σ) Summary) =
      beforeSaving ids configName >>= fun (catalog, destination, summary) => do
        Store.save catalog destination
        return summary := by
  unfold run beforeSaving
  rw [bind_assoc]
  refine bind_congr fun _ => ?_
  rw [bind_assoc]
  refine bind_congr fun config => ?_
  unfold migrateWith
  generalize config.source = source, config.destination = destination,
    config.errorDirectory = directory
  rcases source with - | source
  · rfl
  rcases destination with - | destination
  · rfl
  rcases directory with - | directory
  · rfl
  dsimp only
  rw [bind_assoc]
  refine bind_congr fun _ => ?_
  rw [bind_assoc]
  refine bind_congr fun (_, _, target) => ?_
  dsimp only
  split
  · rw [bind_assoc]
    rfl
  · rfl

/-- The places of a run's failed views: its configuration names the directory. -/
def InFailures (tree : Tree) (configName : String) (place : Place) : Prop :=
  ∃ config : Config, config.HeldIn tree configName ∧
    ∃ directory, config.errorDirectory = some directory ∧ InPairs directory place

/-- The places of the directory for the failed views and of those above it. -/
def OnFailuresWay (tree : Tree) (configName : String) (place : Place) : Prop :=
  ∃ config : Config, config.HeldIn tree configName ∧
    ∃ directory, config.errorDirectory = some directory ∧ OnTheWay directory place

theorem confined_migrateWith (ids : Nat → String) {config : Config} {tree : Tree}
    {configName : String} (hconfig : config.HeldIn tree configName) :
    Confined (OnFailuresWay tree configName) (InFailures tree configName) (¬ ·.IsOfSaving)
      (migrateWith ids config : ExceptT Error (StateM σ) _) := by
  unfold migrateWith
  split
  · next source destination directory hsource hdestination hdirectory =>
    have hmigrate (catalog : Catalog) : Confined (OnFailuresWay tree configName)
        (InFailures tree configName) (¬ ·.IsOfSaving)
        (migrateInto ids config.plan catalog ⟨directory, 0⟩ : ExceptT Error (StateM σ) _) :=
      (confined_migrateInto ids config.plan catalog ⟨directory, 0⟩).mono
        (fun place hplace => ⟨config, hconfig, directory, hdirectory, hplace⟩)
        (fun place hplace => ⟨config, hconfig, directory, hdirectory, hplace⟩) fun _ h => h
    refine (Store.confined_load source).bind fun catalog => (hmigrate catalog).bind fun found => ?_
    dsimp only
    split
    · exact (confined_say _ _).bind fun _ => confined_pure _
    · exact confined_pure _
  · exact confined_throw (by rintro ⟨_, _, ⟨⟩⟩)

/-- Before it saves, a run touches the directory of the failed views only. -/
theorem runs_beforeSaving {ids : Nat → String} {configName : String}
    {result : Except Error (Catalog × Location × Summary)}
    (hrun : Runs (beforeSaving ids configName) before result after) :
    Touched (OnFailuresWay (tree before) configName) (InFailures (tree before) configName)
        (tree before) (tree after) ∧
      ∀ error, result = .error error → ¬ error.IsOfSaving := by
  unfold beforeSaving at hrun
  rcases runs_bind_iff.mp hrun with ⟨error, hsay, rfl⟩ | ⟨_, told, hsay, hrest⟩ <;>
    obtain ⟨_, htell, ⟨⟩⟩ := runs_lift_iff.mp hsay
  rw [← TreeHost.tell htell]
  have hload : Confined (OnFailuresWay (tree told) configName) (InFailures (tree told) configName)
      (¬ ·.IsOfSaving) (Config.load configName : ExceptT Error (StateM σ) Config) :=
    Config.confined_load configName
  rcases runs_bind_iff.mp hrest with ⟨error, hfails, rfl⟩ | ⟨config, loaded, hloaded, hrest⟩
  · refine ⟨hload.touched hfails, ?_⟩
    rintro _ ⟨⟩
    exact hload.throws hfails
  · have hmigrate : Confined (OnFailuresWay (tree told) configName)
        (InFailures (tree told) configName) (¬ ·.IsOfSaving)
        (migrateWith ids config : ExceptT Error (StateM σ) _) :=
      confined_migrateWith ids (Config.heldIn_of_load hloaded)
    refine ⟨(hload.touched hloaded).trans (hmigrate.touched hrest), ?_⟩
    rintro error rfl
    exact hmigrate.throws hrest

end Run

/-! ## Saving -/

namespace Store

/-- Anywhere at all. -/
abbrev Anywhere : Place → Prop := fun _ => True

theorem confined_writeValue (name : String) (value : Json.Value) :
    Confined Anywhere Anywhere Error.IsOfSaving
      (writeValue name value : ExceptT Error (StateM σ) Unit) := by
  have hwrite : Confined Anywhere Anywhere Error.IsOfSaving
      (liftM (Host.write name (value.pretty 0) : StateM σ _) : ExceptT Error (StateM σ) _) :=
    confined_lift fun hrun => ((TreeHost.write hrun).touched : Touched Anywhere _ _ _).mono
      (fun _ _ => trivial) fun _ _ => trivial
  refine hwrite.bind fun outcome => ?_
  cases outcome with
  | ok => exact confined_pure ()
  | error refusal => exact confined_throw ⟨_, _, rfl⟩

theorem confined_ensureDirectories (name : String) :
    Confined Anywhere Anywhere Error.IsOfSaving
      (ensureDirectories name : ExceptT Error (StateM σ) Unit) := by
  have hmake : Confined Anywhere Anywhere Error.IsOfSaving
      (liftM (makeDirectories name : StateM σ _) : ExceptT Error (StateM σ) _) :=
    confined_lift fun hrun => (touched_makeDirectories hrun : Touched _ Anywhere _ _).mono
      (fun _ _ => trivial) fun _ _ => trivial
  refine hmake.bind fun outcome => ?_
  cases outcome with
  | ok => exact confined_pure ()
  | error refusal => exact confined_throw ⟨_, _, rfl⟩

theorem confined_writeCollections (directory : String) (collections : List (String × Json.Value)) :
    Confined Anywhere Anywhere Error.IsOfSaving
      (writeCollections directory collections : ExceptT Error (StateM σ) Unit) := by
  induction collections with
  | nil => exact confined_pure ()
  | cons collection rest ih => exact (confined_writeValue _ _).bind fun _ => ih

/-- Whatever stops a save, the error says so. -/
theorem confined_save (catalog : Catalog) (location : Location) :
    Confined Anywhere Anywhere Error.IsOfSaving
      (save catalog location : ExceptT Error (StateM σ) Unit) := by
  cases location with
  | directory name =>
    exact (confined_ensureDirectories name).bind fun _ =>
      (confined_writeCollections _ _).bind fun _ => confined_say _ _
  | file name =>
    have hrest : Confined Anywhere Anywhere Error.IsOfSaving (do
        writeValue name catalog.toValue
        (say .info ("Saved catalog to " ++ name) : StateM σ Unit) :
          ExceptT Error (StateM σ) Unit) :=
      (confined_writeValue name _).bind fun _ => confined_say _ _
    rw [save]
    dsimp only
    split
    · split
      · exact hrest
      · exact (confined_ensureDirectories _).bind fun _ => hrest
    · exact hrest

end Store

/-! ## The files of a catalog -/

/-- The names of the files in which a catalog is saved. -/
def Location.files : Location → List String
  | .file name => [name]
  | .directory name =>
    Catalog.catalogFields.names.map fun collection => inDirectory name (collection ++ ".json")

open FailureDirectory in
/-- No file of a catalog is one of the failed views beside it. -/
theorem Location.not_inPairs {location : Location} {name : String} (hname : name ∈ location.files) :
    ¬ InPairs (location.name ++ "_errors") (placeOf name) := by
  rintro ⟨number, -, hpair⟩
  obtain ⟨file, hplace, hlast⟩ : ∃ file,
      placeOf name = placeOf (location.name ++ "_errors") ++ [file] ∧
        file.toList.getLast? ≠ some 'n' := by
    rcases hpair with hplace | hplace
    · refine ⟨_, hplace.trans (placeOf_reportName _ number), ?_⟩
      rw [getLast?_numbered number (by decide)]
      decide
    · refine ⟨_, hplace.trans (placeOf_sqlName _ number), ?_⟩
      rw [getLast?_numbered number (by decide)]
      decide
  cases location with
  | file path =>
    obtain rfl := List.mem_singleton.mp hname
    have hdeep : (placeOf name).length ≤ (placeOf (name ++ "_errors")).length :=
      length_placeOf_le_append name (by decide) (by decide)
    rw [hplace, List.length_append] at hdeep
    exact absurd hdeep (by simp [Location.name])
  | directory path =>
    obtain ⟨collection, hcollection, rfl⟩ := List.mem_map.mp hname
    have hnames : ∀ collection ∈ Catalog.catalogFields.names,
        IsFileName (collection ++ ".json") = true := by decide
    rw [placeOf_inDirectory path (hnames collection hcollection)] at hplace
    obtain ⟨-, hsame⟩ := List.append_inj' hplace rfl
    rw [← (List.cons.inj hsame).1, String.toList_append,
      List.getLast?_append_of_ne_nil _ (by decide)] at hlast
    exact hlast rfl

/-! ## Runs that fail -/

namespace Run

/-- The errors that end a run before it saves are those that do not speak of saving. -/
theorem runs_beforeSaving_iff {ids : Nat → String} {configName : String} {error : Error} :
    Runs (beforeSaving ids configName) before (.error error) after ↔
      Runs (run ids configName) before (.error error) after ∧ ¬ error.IsOfSaving := by
  rw [run_eq, runs_bind_iff]
  constructor
  · intro hrun
    exact ⟨.inl ⟨error, hrun, rfl⟩, (runs_beforeSaving hrun).2 error rfl⟩
  · rintro ⟨⟨_, hrun, ⟨⟩⟩ | ⟨⟨catalog, destination, summary⟩, between, -, hrest⟩, hcause⟩
    · exact hrun
    · rcases runs_bind_iff.mp hrest with ⟨_, hsave, ⟨⟩⟩ | ⟨_, last, -, hend⟩
      · exact absurd ((Store.confined_save catalog destination).throws hsave) hcause
      · obtain ⟨⟨⟩, -⟩ := runs_pure_iff.mp hend

end Run

end

/-! ## A space that is missing -/

namespace Run

open Catalog FailureDirectory

/-- A configuration that sends `Prod` to `Test`. -/
def strayRules : Config.shape.Data :=
  ((some [((["Prod"], ["Test"], ()), [])], none, some "in.json", none, some "out", none, ()), [])

/-- A view without a text and one with a command, and no space. -/
def stray : Catalog := { empty with
  views := [
    ⟨"bad", ["Prod", "Bad"], "", none, [], none⟩,
    ⟨"good", ["Prod", "Good"], "DROP VIEW v", none, [], none⟩] }

/-- The configuration and the catalog, and something where the result would go. -/
def strayHost : Shaky :=
  ⟨⟨⟨[(["config.json"], .file ((Config.shape.toValue strayRules).pretty 0).toUTF8),
    (["in.json"], .file (stray.toValue.pretty 0).toUTF8), (["out"], .file "kept".toUTF8)]⟩, []⟩, []⟩

theorem sound_stray : catalogShape.Sound stray.toData := by
  have hview (id name sql : String) :
      viewShape.Sound (View.toData ⟨id, ["Prod", name], sql, none, [], none⟩) :=
    ⟨⟨trivial, ⟨trivial, trivial⟩, trivial, nofun, trivial⟩, .nil, nofun, nofun⟩
  exact ⟨⟨trivial, trivial, trivial, ⟨hview _ _ _, hview _ _ _⟩, trivial, trivial, trivial, trivial,
    trivial, trivial, trivial, trivial⟩, .nil, nofun, fun _ => rfl⟩

theorem hasFile_strayRules :
    strayHost.world.tree.HasFile "config.json"
      ((Config.shape.toValue strayRules).pretty 0).toUTF8 := by
  refine ⟨?_, ["config.json"], ?_, rfl⟩
  · rw [endsWith_slash]
    decide
  · rw [Tree.locate, startsWith_slash]
    rfl

theorem hasFile_stray :
    strayHost.world.tree.HasFile "in.json" (stray.toValue.pretty 0).toUTF8 := by
  refine ⟨?_, ["in.json"], ?_, rfl⟩
  · rw [endsWith_slash]
    decide
  · rw [Tree.locate, startsWith_slash]
    rfl

theorem holdsData_stray :
    Store.HoldsData strayHost.world.tree catalogShape "in.json" stray.toData :=
  (Store.holdsData_iff isProper_catalogShape Store.height_catalogShape sound_stray (by decide)
    hasFile_stray).mpr ⟨rfl, by decide⟩

theorem sound_strayRules : Config.shape.Sound strayRules := by
  have hrule : ruleShape.Sound ((["Prod"], ["Test"], ()), []) :=
    ⟨⟨trivial, trivial, trivial⟩, .nil, nofun, fun _ => rfl⟩
  have hrules : Config.rulesShape.Sound (some [((["Prod"], ["Test"], ()), [])]) := by
    rintro _ ⟨⟩
    exact ⟨hrule, nofun⟩
  have hname (name : String) : Config.nameShape.Sound (some name) := by
    rintro _ ⟨⟩
    exact ⟨trivial, nofun⟩
  exact ⟨⟨hrules, nofun, hname _, nofun, hname _, nofun, trivial⟩, .nil, nofun, fun _ => rfl⟩

theorem heldIn_strayRules :
    (Config.ofData strayRules).HeldIn strayHost.world.tree "config.json" := by
  refine ⟨_, Store.textIn_of_hasFile (by decide) hasFile_strayRules, ?_⟩
  rw [Config.parse, Json.Shape.parse_pretty (by decide) sound_strayRules (by decide) (by decide)]
  rfl

/-- What is told and recorded before the space is found to be missing. -/
theorem migrate_stray : ∃ more : List Entry,
    (migrate (FolderId.supply 0) prodToTest stray).events =
      .told ⟨.debug, "Parsing SQL of view Prod.Bad"⟩ ::
        .failed ⟨["Prod", "Bad"], .ofMessage .parse "SQL contains no statement", ""⟩ ::
          more.map Event.told ∧
    (migrate (FolderId.supply 0) prodToTest stray).result =
      .error (.missingSpace "Test" ["Test", "Good"]) := by
  have hparsed : parseViews stray.views =
      ([⟨"good", ["Prod", "Good"], "DROP VIEW v", none, [], some dropV⟩],
        [.told ⟨.debug, "Parsing SQL of view Prod.Bad"⟩,
          .failed ⟨["Prod", "Bad"], .ofMessage .parse "SQL contains no statement", ""⟩,
          .told ⟨.debug, "Parsing SQL of view Prod.Good"⟩]) := by
    have hbad : View.parseQuery ⟨"bad", ["Prod", "Bad"], "", none, [], none⟩ =
        .error (.ofMessage .parse "SQL contains no statement") := by
      rw [View.parseQuery, parseView_empty]
      rfl
    have hgood : View.parseQuery ⟨"good", ["Prod", "Good"], "DROP VIEW v", none, [], none⟩ =
        .ok ⟨"good", ["Prod", "Good"], "DROP VIEW v", none, [], some dropV⟩ := by
      rw [View.parseQuery, parseView_dropV]
      rfl
    rw [stray, parseViews_cons, hbad, parseViews_cons, hgood]
    rfl
  have hmoved : (restructure (FolderId.supply 0) prodToTest.containerRules
      { stray.retainMigratable with views := (parseViews stray.views).1 }).result =
        .error (.missingSpace "Test" ["Test", "Good"]) := by
    rw [hparsed]
    rfl
  have hsame : stray.retainMigratable.views = stray.views := rfl
  unfold migrate
  simp only [hsame, hmoved]
  rw [hparsed]
  exact ⟨⟨.debug, "Parsing SQL of view Prod.Good"⟩ :: _ :: _, rfl, trivial⟩

section

variable {state : Shaky} {name : String}

theorem run_readText_shaky {text : String} (htext : Store.textIn state.world.tree name = .ok text) :
    (Store.readText name : StateM Shaky _).run state = (.ok text, state) := by
  unfold Store.textIn at htext
  cases hread : state.world.tree.read name with
  | error issue =>
    rw [hread] at htext
    cases htext
  | ok bytes =>
    rw [hread] at htext
    refine run_bind_iff.mpr ⟨_, _, Shaky.run_read hread, ?_⟩
    dsimp only at htext ⊢
    cases hdecode : Text.decode? bytes with
    | none =>
      rw [hdecode] at htext
      cases htext
    | some found =>
      rw [hdecode] at htext
      cases htext
      rfl

theorem runs_config_load {config : Config} (hheld : config.HeldIn state.world.tree name) :
    Runs (Config.load name) state (.ok config) state := by
  obtain ⟨text, htext, hparse⟩ := hheld
  refine (runs_lift (run_readText_shaky htext)).bind ?_
  unfold Config.parse at hparse
  dsimp only
  cases hdata : Config.shape.parse text with
  | error issue =>
    rw [hdata] at hparse
    cases hparse
  | ok data =>
    rw [hdata] at hparse
    exact runs_mk_pure_iff.mpr ⟨hparse.symm, rfl⟩

theorem exists_runs_load_file {data : catalogShape.Data}
    (hheld : Store.HoldsData state.world.tree catalogShape name data) :
    ∃ after : Shaky, Runs (Store.load (.file name)) state (.ok (Catalog.ofData data)) after ∧
      after.world.tree = state.world.tree ∧ after.faults = state.faults := by
  obtain ⟨text, htext, hparse⟩ := hheld
  have hread : Runs (Store.readData catalogShape name) state (.ok data) state := by
    refine (runs_lift (run_readText_shaky htext)).bind ?_
    dsimp only
    rw [hparse]
    rfl
  rw [Store.load, map_eq_pure_bind]
  have hcatalog : Runs (Store.readData catalogShape name >>= fun data => pure (Catalog.ofData data))
      state (.ok (Catalog.ofData data)) state := hread.bind rfl
  exact ⟨_, hcatalog.bind ((runs_lift (Shaky.run_tell _ _)).bind rfl), rfl, rfl⟩

theorem exists_runs_told (entries : List Entry) (target : FailureDirectory) :
    ∃ after : Shaky, Runs (carryOut (entries.map Event.told) target) state (.ok target) after ∧
      after.world.tree = state.world.tree := by
  induction entries generalizing state with
  | nil => exact ⟨state, runs_pure_iff.mpr ⟨rfl, rfl⟩, rfl⟩
  | cons entry rest ih =>
    obtain ⟨after, hrun, htree⟩ := @ih (state.told entry)
    exact ⟨after, (runs_lift (Shaky.run_tell _ _)).bind hrun, htree⟩

end

/-- The view without a text is recorded, and then a space is missing. -/
theorem exists_runs_stray : ∃ after,
    Runs (run (FolderId.supply 0) "config.json") strayHost
      (.error (.missingSpace "Test" ["Test", "Good"])) after ∧
    PairHolds after.world.tree "out_errors" 1
      ⟨["Prod", "Bad"], .ofMessage .parse "SQL contains no statement", ""⟩ := by
  obtain ⟨more, hevents, hresult⟩ := migrate_stray
  let started := strayHost.told ⟨.info, "Reading configuration: " ++ "config.json"⟩
  have hheld : (Config.ofData strayRules).HeldIn started.world.tree "config.json" :=
    heldIn_strayRules
  obtain ⟨loaded, hload, htree, hfaults⟩ :=
    @exists_runs_load_file started "in.json" stray.toData holdsData_stray
  let parsing := loaded.told ⟨.debug, "Parsing SQL of view Prod.Bad"⟩
  have hnone : parsing.world.tree.at? ["out_errors"] = none := by
    show loaded.world.tree.at? ["out_errors"] = none
    rw [htree]
    rfl
  have hfiles (file : String) : parsing.world.tree.at? ["out_errors", file] = none := by
    show loaded.world.tree.at? ["out_errors", file] = none
    rw [htree]
    rfl
  replace hfaults : parsing.faults = [] := hfaults
  obtain ⟨recorded, hrecord, -⟩ := exists_runs_record_first hnone hfiles (by rw [hfaults]; rfl)
    (by rw [hfaults]; rfl) (by rw [hfaults]; rfl)
    ⟨["Prod", "Bad"], .ofMessage .parse "SQL contains no statement", ""⟩
  obtain ⟨after, hmore, hafter⟩ := @exists_runs_told recorded more ⟨"out_errors", 1⟩
  have hcarry : Runs (carryOut (migrate (FolderId.supply 0) prodToTest stray).events
      ⟨"out_errors", 0⟩) loaded (.ok ⟨"out_errors", 1⟩) after := by
    rw [hevents]
    exact (runs_lift (Shaky.run_tell _ _)).bind (hrecord.bind hmore)
  have hmigrate : Runs (migrateInto (FolderId.supply 0) prodToTest stray ⟨"out_errors", 0⟩) loaded
      (.error (.missingSpace "Test" ["Test", "Good"])) after := by
    refine hcarry.bind ?_
    rw [hresult]
    rfl
  have hwith : Runs (migrateWith (FolderId.supply 0) (Config.ofData strayRules)) started
      (.error (.missingSpace "Test" ["Test", "Good"])) after :=
    hload.bind hmigrate.bind_error
  have hbefore : Runs (beforeSaving (FolderId.supply 0) "config.json") strayHost
      (.error (.missingSpace "Test" ["Test", "Good"])) after :=
    (runs_lift (Shaky.run_tell _ _)).bind ((runs_config_load hheld).bind hwith)
  refine ⟨after, ?_, ?_⟩
  · rw [run_eq]
    exact hbefore.bind_error
  · rw [hafter]
    exact (holds_of_record hrecord).2

/-! ## What a failed run leaves -/

/-- A run that ends with an error, but not with one that speaks of saving, leaves all files
as they were, apart from the numbered files of failed views in the directory that is named
after the destination; a directory that is new is that one or lies above it.  The files of
the destination are no exception: each of them is as it was, or still not there. -/
theorem failed_run_spares_files {σ : Type} [Host (StateM σ)] [TreeHost σ] {ids : Nat → String}
    {configName : String} {before after : σ} {error : Error}
    (hrun : Runs (run ids configName) before (.error error) after)
    (hcause : ∀ path cause, error ≠ .catalogWrite path cause) :
    (∀ place content, ¬ InFailures (tree before) configName place →
      ((tree after).at? place = some (.file content) ↔
        (tree before).at? place = some (.file content))) ∧
      (∀ place, (tree after).at? place = some .directory →
        (tree before).at? place = some .directory ∨
          OnFailuresWay (tree before) configName place) ∧
      ∀ config : Config, config.HeldIn (tree before) configName →
        ∀ destination, config.destination = some destination →
          ∀ name ∈ destination.files, ∀ content,
            (tree after).Stores name content ↔ (tree before).Stores name content := by
  have hsaving : ¬ error.IsOfSaving := fun ⟨path, cause, herror⟩ => hcause path cause herror
  have htouched := (runs_beforeSaving (runs_beforeSaving_iff.mpr ⟨hrun, hsaving⟩)).1
  refine ⟨fun place content hplace => htouched.file_iff hplace content, ?_, ?_⟩
  · intro place hdirectory
    have htouch := htouched place
    rw [hdirectory] at htouch
    exact htouch.directory_or
  · intro config hconfig destination hdestination name hname content
    refine htouched.file_iff ?_ content
    rintro ⟨other, hother, directory, hdirectory, hpairs⟩
    obtain rfl : other = config := hother.unique hconfig
    rw [Config.errorDirectory, hdestination] at hdirectory
    cases hdirectory
    exact Location.not_inPairs hname hpairs

/-- The space is missing when a report is written already, and what stands where the result
would go stays. -/
theorem stray_run_spares_files : ∃ after,
    Runs (run (FolderId.supply 0) "config.json") strayHost
      (.error (.missingSpace "Test" ["Test", "Good"])) after ∧
    PairHolds after.world.tree "out_errors" 1
      ⟨["Prod", "Bad"], .ofMessage .parse "SQL contains no statement", ""⟩ ∧
    after.world.tree.Stores "out" "kept".toUTF8 := by
  obtain ⟨after, hrun, hpair⟩ := exists_runs_stray
  have hspared := (failed_run_spares_files hrun nofun).2.2 _ heldIn_strayRules (.file "out") rfl
  exact ⟨after, hrun, hpair, (hspared "out" List.mem_cons_self _).mpr rfl⟩

end Run

end Relocate
