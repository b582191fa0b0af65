import Relocate.Catalog.Snapshot
import Relocate.Json.Shape

/-!
# Catalogs as JSON

Each kind of object has a shape, and two functions between the data of the shape
and the structure: the data holds the fields in the order in which they are
written.
-/

namespace Relocate.Catalog

open Json

/-- A text field. -/
def textShape : Shape := .text "a string"

/-- A path. -/
def pathShape : Shape := .list textShape

/-- A rule. -/
def ruleShape : Shape :=
  .record "MigrationRule"
    (.cons "srcPath" pathShape true <|
     .cons "dstPath" pathShape true .nil) false

/-- The rule of data. -/
def Rule.ofData : ruleShape.Data → Rule
  | ((source, destination, ()), _) => ⟨source, destination⟩

/-- A listing. -/
def childShape : Shape :=
  .record "ChildRef"
    (.cons "id" textShape true <|
     .cons "path" pathShape true <|
     .cons "type" textShape true <|
     .cons "containerType" (.optional textShape) false <|
     .cons "datasetType" (.optional textShape) false .nil) false

/-- The listing of data. -/
def Child.ofData : childShape.Data → Child
  | ((id, path, entryType, containerType, datasetType, ()), _) =>
    ⟨id, path, entryType, containerType, datasetType⟩

/-- The data of a listing. -/
def Child.toData (child : Child) : childShape.Data :=
  ((child.id, child.path, child.entryType, child.containerType, child.datasetType, ()), [])

/-- A container. -/
def containerShape : Shape :=
  .record "Container"
    (.cons "id" textShape false <|
     .cons "path" pathShape true <|
     .cons "containerType" textShape true .nil) true

/-- The container of data. -/
def Container.ofData : containerShape.Data → Container
  | ((id, path, containerType, ()), extra) => ⟨id, path, containerType, extra⟩

/-- The data of a container. -/
def Container.toData (container : Container) : containerShape.Data :=
  ((container.id, container.path, container.containerType, ()), container.extra)

/-- A space. -/
def spaceShape : Shape :=
  .record "Space"
    (.cons "id" textShape false <|
     .cons "name" textShape true <|
     .cons "children" (.list childShape) false .nil) true

/-- The space of data. -/
def Space.ofData : spaceShape.Data → Space
  | ((id, name, children, ()), extra) => ⟨id, name, List.map Child.ofData children, extra⟩

/-- The data of a space. -/
def Space.toData (space : Space) : spaceShape.Data :=
  ((space.id, space.name, List.map Child.toData space.children, ()), space.extra)

/-- A folder. -/
def folderShape : Shape :=
  .record "Folder"
    (.cons "id" textShape true <|
     .cons "path" pathShape true <|
     .cons "children" (.list childShape) false <|
     .cons "entityType" (.optional textShape) false <|
     .cons "accessControlList" (.optional .any) false .nil) true

/-- The folder of data. -/
def Folder.ofData : folderShape.Data → Folder
  | ((id, path, children, entityType, accessControl, ()), extra) =>
    ⟨id, path, List.map Child.ofData children, entityType, accessControl, extra⟩

/-- The data of a folder. -/
def Folder.toData (folder : Folder) : folderShape.Data :=
  ((folder.id, folder.path, List.map Child.toData folder.children, folder.entityType,
    folder.accessControl, ()), folder.extra)

/-- A view. -/
def viewShape : Shape :=
  .record "View"
    (.cons "id" textShape true <|
     .cons "path" pathShape true <|
     .cons "sql" textShape true <|
     .cons "sqlContext" (.optional pathShape) false .nil) true

/-- The view of data; its statement is not parsed yet. -/
def View.ofData : viewShape.Data → View
  | ((id, path, sql, context, ()), extra) => ⟨id, path, sql, context, extra, none⟩

/-- The data of a view. -/
def View.toData (view : View) : viewShape.Data :=
  ((view.id, view.path, view.sql, view.context, ()), view.extra)

/-- A reflection. -/
def reflectionShape : Shape :=
  .record "Reflection"
    (.cons "id" textShape false <|
     .cons "name" textShape false <|
     .cons "path" pathShape true .nil) true

/-- The reflection of data. -/
def Reflection.ofData : reflectionShape.Data → Reflection
  | ((id, name, path, ()), extra) => ⟨id, name, path, extra⟩

/-- The data of a reflection. -/
def Reflection.toData (reflection : Reflection) : reflectionShape.Data :=
  ((reflection.id, reflection.name, reflection.path, ()), reflection.extra)

/-- The field of a remark. -/
def remarkFields : Fields :=
  .cons "path" pathShape true .nil

/-- A tag. -/
def tagShape : Shape := .record "Tag" remarkFields true

/-- A wiki text. -/
def wikiShape : Shape := .record "Wiki" remarkFields true

/-- The remark of data. -/
def Remark.ofData : remarkFields.Data × List (String × Value) → Remark
  | ((path, ()), payload) => ⟨path, payload⟩

/-- The data of a remark. -/
def Remark.toData (remark : Remark) :
    remarkFields.Data × List (String × Value) :=
  ((remark.path, ()), remark.payload)

/-- A dependency record. -/
def dependencyShape : Shape :=
  .record "DependencyRecord"
    (.cons "path" pathShape true <|
     .cons "parents" pathShape false .nil) false

/-- The dependency record of data. -/
def Dependency.ofData : dependencyShape.Data → Dependency
  | ((path, parents, ()), _) => ⟨path, parents⟩

/-- The data of a dependency record. -/
def Dependency.toData (dependency : Dependency) : dependencyShape.Data :=
  ((dependency.path, dependency.parents, ()), [])

/-- A catalog. -/
def catalogShape : Shape :=
  .record "Catalog"
    (.cons "containers" (.list containerShape) false <|
     .cons "spaces" (.list spaceShape) false <|
     .cons "folders" (.list folderShape) false <|
     .cons "virtualDatasets" (.list viewShape) false <|
     .cons "physicalDatasets" (.list .any) false <|
     .cons "sources" (.list .any) false <|
     .cons "homes" (.list .any) false <|
     .cons "reflections" (.list reflectionShape) false <|
     .cons "tags" (.list tagShape) false <|
     .cons "wikis" (.list wikiShape) false <|
     .cons "datasetParents" (.list dependencyShape) false .nil) false

/-- The catalog of data. -/
def ofData : catalogShape.Data → Catalog
  | ((containers, spaces, folders, views, physicalDatasets, sources, homes, reflections, tags,
      wikis, dependencies, ()), _) =>
    { containers := List.map Container.ofData containers
      spaces := List.map Space.ofData spaces
      folders := List.map Folder.ofData folders
      views := List.map View.ofData views
      physicalDatasets := physicalDatasets
      sources := sources
      homes := homes
      reflections := List.map Reflection.ofData reflections
      tags := List.map Remark.ofData tags
      wikis := List.map Remark.ofData wikis
      dependencies := List.map Dependency.ofData dependencies }

/-- The data of a catalog. -/
def toData (catalog : Catalog) : catalogShape.Data :=
  ((List.map Container.toData catalog.containers, List.map Space.toData catalog.spaces,
    List.map Folder.toData catalog.folders, List.map View.toData catalog.views,
    catalog.physicalDatasets, catalog.sources, catalog.homes,
    List.map Reflection.toData catalog.reflections, List.map Remark.toData catalog.tags,
    List.map Remark.toData catalog.wikis,
    List.map Dependency.toData catalog.dependencies, ()), [])

/-- The catalog in a value, or why there is none. -/
def ofValue (value : Value) : Except String Catalog :=
  (catalogShape.ofValue value).map ofData

/-- The catalog in a text. -/
def parse (text : String) : Except Issue Catalog :=
  (catalogShape.parse text).map ofData

/-- The value of a catalog. -/
def toValue (catalog : Catalog) : Value :=
  catalogShape.toValue catalog.toData

end Relocate.Catalog
