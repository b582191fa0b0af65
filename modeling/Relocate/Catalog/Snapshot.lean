import Relocate.Catalog.Entity

/-!
# Catalogs

A catalog is its collections, in the order of the export.  The order of folders
matters: a folder comes before what it contains.
-/

namespace Relocate

open Catalog

/-- All objects of an export. -/
structure Catalog where
  containers : List Container
  spaces : List Space
  folders : List Folder
  views : List View
  physicalDatasets : List Json.Value
  sources : List Json.Value
  homes : List Json.Value
  reflections : List Reflection
  tags : List Remark
  wikis : List Remark
  dependencies : List Dependency

namespace Catalog

/-- The catalog without objects. -/
def empty : Catalog :=
  ⟨[], [], [], [], [], [], [], [], [], [], []⟩

/-- The catalog without containers that are neither spaces nor folders. -/
def retainMigratable (catalog : Catalog) : Catalog :=
  { catalog with containers := catalog.containers.filter Container.isMigratable }

/-- The catalog without the objects that are never carried over. -/
def clearPhysical (catalog : Catalog) : Catalog :=
  { catalog with physicalDatasets := [], sources := [], homes := [] }

/-- A listing among these names the path. -/
def lists (children : List Child) (path : Path) : Bool :=
  children.any fun child => child.path == path

/-- Some space or folder lists the path. -/
def isReferenced (catalog : Catalog) (path : Path) : Bool :=
  catalog.spaces.any (fun space => lists space.children path) ||
    catalog.folders.any fun folder => lists folder.children path

/-- The id and the path of each view that nothing lists. -/
def unreferencedViews (catalog : Catalog) : List (String × Path) :=
  (catalog.views.filter fun view => !catalog.isReferenced view.path).map fun view =>
    (view.id, view.path)

/-- The id and the path of each folder that nothing lists. -/
def unreferencedFolders (catalog : Catalog) : List (String × Path) :=
  (catalog.folders.filter fun folder => !catalog.isReferenced folder.path).map fun folder =>
    (folder.id, folder.path)

/-- The first space of a name. -/
def space? (catalog : Catalog) (name : String) : Option Space :=
  catalog.spaces.find? fun space => space.name == name

/-- The position of the first folder at a path. -/
def folderPosition? (catalog : Catalog) (path : Path) : Option Nat :=
  catalog.folders.findIdx? fun folder => folder.path == path

end Catalog

end Relocate
