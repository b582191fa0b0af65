import Relocate.Catalog.Snapshot
import Relocate.Error
import Relocate.Log

/-!
# Putting the tree together again

Rules clear the listings of what they move, and pruning leaves listings of what
is gone.  `reconcile` makes a tree of it again, in which every folder and every
view is listed:

1. two views at one path are an error;
2. folders at one path become one;
3. listings of folders and views that do not exist are removed;
4. views that nothing lists are listed in their parent;
5. so are folders, again and again until all of them are listed.

A parent folder that is missing is made up; a parent space that is missing is an
error.  The ids of folders that are made up come from a supply.
-/

namespace Relocate.Catalog

/-- The error on the first view whose path an earlier view has; `seen` are the
views before. -/
def collisionAfter? (seen : List View) : List View → Option Error
  | [] => none
  | view :: rest =>
    match seen.find? fun earlier => earlier.path == view.path with
    | some earlier => some (.pathCollision view.path earlier.id view.id)
    | none => collisionAfter? (seen ++ [view]) rest

/-- The error on two views at one path. -/
def collision? (catalog : Catalog) : Option Error :=
  collisionAfter? [] catalog.views

/-- The listings with those of another folder that are not among them yet. -/
def mergeChildren (children : List Child) : List Child → List Child
  | [] => children
  | child :: rest =>
    mergeChildren (if lists children child.path then children else children ++ [child]) rest

/-- The folders with one more; a folder at the same path takes its listings. -/
def mergeFolder (merged : List Folder) (folder : Folder) : List Folder :=
  match merged with
  | [] => [folder]
  | first :: rest =>
    if first.path = folder.path then
      { first with children := mergeChildren first.children folder.children } :: rest
    else first :: mergeFolder rest folder

/-- What there is to tell about one more folder. -/
def mergeLog (merged : List Folder) (folder : Folder) : List Entry :=
  ((merged.find? fun first => first.path == folder.path).map fun first =>
    ⟨.info, "Merging folder " ++ folder.path.dotted ++ " (" ++ folder.id ++ ") into " ++
      first.id⟩).toList

/-- The folders with one folder for each path. -/
def mergeFolders (folders : List Folder) : List Folder :=
  folders.foldl mergeFolder []

/-- What there is to tell about the folders that come after some others. -/
def mergeLogAfter (merged : List Folder) : List Folder → List Entry
  | [] => []
  | folder :: rest => mergeLog merged folder ++ mergeLogAfter (mergeFolder merged folder) rest

/-- The catalog with one folder for each path. -/
def mergeDuplicates (catalog : Catalog) : Catalog :=
  { catalog with folders := mergeFolders catalog.folders }

/-- The paths of all folders and views. -/
def existingPaths (catalog : Catalog) : List Path :=
  catalog.folders.map Folder.path ++ catalog.views.map View.path

/-- A listing is kept if it is of another kind or names something that exists. -/
def isKept (existing : List Path) (child : Child) : Bool :=
  child.kind == .other || existing.contains child.path

/-- What there is to tell about the listings of an owner that are removed. -/
def danglingLog (existing : List Path) (owner : Path) (children : List Child) : List Entry :=
  (children.filter fun child => !isKept existing child).map fun child =>
    ⟨.debug, "Removing listing of " ++ child.path.dotted ++ " from " ++ owner.dotted⟩

/-- The catalog without listings of what does not exist. -/
def dropDangling (catalog : Catalog) : Catalog :=
  let existing := catalog.existingPaths
  { catalog with
    spaces := catalog.spaces.map fun space =>
      { space with children := space.children.filter (isKept existing) }
    folders := catalog.folders.map fun folder =>
      { folder with children := folder.children.filter (isKept existing) } }

/-- What there is to tell about listings of what does not exist. -/
def dropDanglingLog (catalog : Catalog) : List Entry :=
  let existing := catalog.existingPaths
  catalog.spaces.flatMap (fun space => danglingLog existing space.path space.children) ++
    catalog.folders.flatMap fun folder => danglingLog existing folder.path folder.children

/-- Where a folder that is made up goes. -/
inductive Placement
  | back
  /-- Before all other folders, and so before what it contains. -/
  | front
deriving DecidableEq, Repr

/-- A tree while it is put together. -/
structure Progress where
  catalog : Catalog
  /-- The number of folders that were made up. -/
  synthesized : Nat
  log : List Entry

/-- A step that changes the tree, or ends with an error. -/
abbrev Reconciling := ExceptT Error (StateM Progress)

/-- Adds an entry. -/
def tell (level : Level) (message : String) : Reconciling Unit :=
  modify fun progress => { progress with log := progress.log ++ [⟨level, message⟩] }

/-- Adds a listing to the first space of a name. -/
def addToSpace (name : String) (child : Child) : List Space → List Space
  | [] => []
  | space :: rest =>
    if space.name = name then { space with children := space.children ++ [child] } :: rest
    else space :: addToSpace name child rest

/-- Adds a listing to the first folder at a path. -/
def addToFolder (path : Path) (child : Child) : List Folder → List Folder
  | [] => []
  | folder :: rest =>
    if folder.path = path then { folder with children := folder.children ++ [child] } :: rest
    else folder :: addToFolder path child rest

/-- The word for what a listing points at. -/
def Child.label (child : Child) : String :=
  match child.kind with
  | .folder => "folder"
  | _ => "view"

/-- Makes up a folder at a path. -/
def synthesize (ids : Nat → String) (placement : Placement) (path : Path) :
    Reconciling Unit := do
  tell .info ("No existing parent folder found, creating one: " ++ path.dotted)
  modify fun progress =>
    let folder := Folder.synthesized (ids progress.synthesized) path
    let folders := progress.catalog.folders
    { progress with
      catalog := { progress.catalog with
        folders := match placement with
          | .back => folders ++ [folder]
          | .front => folder :: folders }
      synthesized := progress.synthesized + 1 }

/-- Makes up a folder at a path unless there is one. -/
def ensureFolder (ids : Nat → String) (placement : Placement) (path : Path) :
    Reconciling Unit := do
  if ((← get).catalog.folderPosition? path).isNone then synthesize ids placement path

/-- Lists an object in the first space of a name. -/
def attachToSpace (name : String) (child : Child) : Reconciling Unit := do
  match (← get).catalog.space? name with
  | none => throw (.missingSpace name child.path)
  | some _ =>
    tell .info ("Appending " ++ child.label ++ " " ++ child.path.dotted ++ " to space " ++ name)
    modify fun progress => { progress with
      catalog := { progress.catalog with
        spaces := addToSpace name child progress.catalog.spaces } }

/-- Lists an object in the first folder at a path. -/
def attachToFolder (path : Path) (child : Child) : Reconciling Unit := do
  tell .info ("Appending " ++ child.label ++ " " ++ child.path.dotted ++ " to folder " ++
    path.dotted)
  modify fun progress => { progress with
    catalog := { progress.catalog with
      folders := addToFolder path child progress.catalog.folders } }

/-- Lists an object in its parent, which is made up if it is a missing folder. -/
def attach (ids : Nat → String) (placement : Placement) (child : Child) :
    Reconciling Unit :=
  match child.path.parent with
  | [] => throw (.rootLevel child.path)
  | [name] => attachToSpace name child
  | parent => do
    ensureFolder ids placement parent
    attachToFolder parent child

/-- Lists objects one after the other. -/
def attachAll (ids : Nat → String) (placement : Placement) : List Child → Reconciling Unit
  | [] => pure ()
  | child :: rest => do
    attach ids placement child
    attachAll ids placement rest

/-- Lists the folders that nothing lists, until there are none.  A folder that is
made up is higher in the tree than what it is made up for, so as many passes are
enough as the longest path has segments. -/
def attachFolders (ids : Nat → String) : Nat → Reconciling Unit
  | 0 => pure ()
  | passes + 1 => do
    let orphans := (← get).catalog.unreferencedFolders
    unless orphans.isEmpty do
      tell .debug ("Attaching " ++ toString orphans.length ++ " unlisted folders")
      attachAll ids .front (orphans.map fun (id, path) => Child.folder id path)
      attachFolders ids passes

/-- The length of the longest path of a folder. -/
def maxFolderLength (catalog : Catalog) : Nat :=
  catalog.folders.foldl (fun length folder => max length folder.path.length) 0

/-- Puts the tree together. -/
def reconcileTree (ids : Nat → String) : Reconciling Unit := do
  let catalog := (← get).catalog
  match catalog.collision? with
  | some error => throw error
  | none =>
    let merged := catalog.mergeDuplicates
    modify fun progress => { progress with
      catalog := merged.dropDangling
      log := progress.log ++ mergeLogAfter [] catalog.folders ++ merged.dropDanglingLog }
    let views := (← get).catalog.unreferencedViews
    attachAll ids .back (views.map fun (id, path) => Child.view id path)
    attachFolders ids ((← get).catalog.maxFolderLength + 1)

/-- What came of putting a tree together. -/
structure Reconciled where
  /-- The catalog and the number of folders that were made up, or the error. -/
  result : Except Error (Catalog × Nat)
  log : List Entry

/-- The catalog with every folder and every view listed. -/
def reconcile (ids : Nat → String) (catalog : Catalog) : Reconciled :=
  let (result, progress) := (reconcileTree ids).run.run ⟨catalog, 0, []⟩
  { result := result.map fun _ => (progress.catalog, progress.synthesized)
    log := progress.log }

end Relocate.Catalog
