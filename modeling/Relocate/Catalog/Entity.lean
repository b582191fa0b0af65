import Relocate.Catalog.Path
import Relocate.Json.Value
import Relocate.Sql.Syntax

/-!
# Objects of a catalog

A catalog is exported as one collection for each kind of object.  The fields
that a migration works on are fields of the structures below; all others are
kept as they are in `extra`, sorted by their names.

Spaces and folders list what they hold; a listing names its object by the path,
and says in a few words what kind of object it is.
-/

namespace Relocate.Catalog

/-- Members that are kept without being looked at. -/
abbrev Extra := List (String × Json.Value)

/-- An entry of the collection of containers. -/
structure Container where
  id : String
  path : Path
  containerType : String
  extra : Extra

/-- The type of containers that are spaces. -/
def spaceType : String := "SPACE"

/-- The type of containers that are folders. -/
def folderType : String := "FOLDER"

/-- Only spaces and folders take part in a migration. -/
def Container.isMigratable (container : Container) : Bool :=
  container.containerType == spaceType || container.containerType == folderType

/-- What a listing points at. -/
inductive ChildKind
  | folder
  | view
  | other
deriving DecidableEq, Repr

/-- A listing in a space or a folder. -/
structure Child where
  id : String
  path : Path
  entryType : String
  containerType : Option String
  datasetType : Option String
deriving DecidableEq, Repr

namespace Child

/-- The listing of a folder. -/
def folder (id : String) (path : Path) : Child :=
  ⟨id, path, "CONTAINER", some folderType, none⟩

/-- The listing of a view. -/
def view (id : String) (path : Path) : Child :=
  ⟨id, path, "DATASET", none, some "VIRTUAL"⟩

/-- What the listing points at. -/
def kind (child : Child) : ChildKind :=
  if child.entryType = "CONTAINER" ∧ child.containerType = some folderType then .folder
  else if child.entryType = "DATASET" ∧ child.datasetType = some "VIRTUAL" then .view
  else .other

theorem kind_folder (id : String) (path : Path) : (folder id path).kind = .folder := rfl

theorem kind_view (id : String) (path : Path) : (view id path).kind = .view := rfl

end Child

/-- A space, the root of a tree of folders. -/
structure Space where
  id : String
  name : String
  children : List Child
  extra : Extra

/-- The path of a space is its name. -/
def Space.path (space : Space) : Path := [space.name]

/-- A folder. -/
structure Folder where
  id : String
  path : Path
  children : List Child
  entityType : Option String
  accessControl : Option Json.Value
  extra : Extra

/-- A folder that closes a gap in a tree. -/
def Folder.synthesized (id : String) (path : Path) : Folder :=
  ⟨id, path, [], some "folder", some (.object [("roles", .array [])]), []⟩

/-- A view: a name for a query.  The statement is there from the time it is
parsed to the time it is written. -/
structure View where
  id : String
  path : Path
  sql : String
  /-- The path below which short names in the query are looked up. -/
  context : Option Path
  extra : Extra
  query : Option Sql.Statement

/-- A materialized form of a view. -/
structure Reflection where
  id : String
  name : String
  path : Path
  extra : Extra

/-- A tag or a wiki text of the object at a path. -/
structure Remark where
  path : Path
  payload : Extra

/-- What a view depends on, as paths with slashes. -/
structure Dependency where
  path : Path
  parents : List String
deriving DecidableEq, Repr

end Relocate.Catalog
