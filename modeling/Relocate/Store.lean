import Relocate.Catalog.Codec
import Relocate.Error
import Relocate.Files.Host
import Relocate.Text.Encoding

/-!
# Catalogs in files

A catalog is one file, or a directory with a file for each collection.  A
collection without a file is empty.
-/

namespace Relocate

open Catalog Files Json

/-- Where a catalog is. -/
inductive Location
  | file (name : String)
  | directory (name : String)
deriving DecidableEq, Repr

/-- The name of the file or of the directory. -/
def Location.name : Location → String
  | file name | directory name => name

namespace Store

variable {m : Type → Type} [Monad m] [Host m]

/-- The text in a file. -/
def readText (name : String) : m (Except String String) := do
  match ← Host.read name with
  | .error refusal => return .error refusal.words
  | .ok bytes =>
    match Text.decode? bytes with
    | some text => return .ok text
    | none => return .error "File contains invalid characters"

/-- Data in a file. -/
def readData (shape : Shape) (name : String) : ExceptT Error m shape.Data := do
  match ← readText (m := m) name with
  | .error cause => throw (.catalogRead name cause)
  | .ok text =>
    match shape.parse text with
    | .ok data => return data
    | .error issue => throw (.catalogParse name issue.describe)

/-- A collection in a directory. -/
def readCollection (item : Shape) (directory collection : String) :
    ExceptT Error m (List item.Data) := do
  let name := inDirectory directory (collection ++ ".json")
  if ← (Host.isThere name : m Bool) then readData (.list item) name
  else
    (say .debug ("No " ++ collection ++ " file in " ++ directory ++
      ", using empty collection") : m Unit)
    return []

/-- The catalog in a directory. -/
def readDirectory (directory : String) : ExceptT Error m Catalog := do
  let containers ← readCollection containerShape directory "containers"
  let spaces ← readCollection spaceShape directory "spaces"
  let folders ← readCollection folderShape directory "folders"
  let views ← readCollection viewShape directory "virtualDatasets"
  let physicalDatasets ← readCollection .any directory "physicalDatasets"
  let sources ← readCollection .any directory "sources"
  let homes ← readCollection .any directory "homes"
  let reflections ← readCollection reflectionShape directory "reflections"
  let tags ← readCollection tagShape directory "tags"
  let wikis ← readCollection wikiShape directory "wikis"
  let dependencies ← readCollection dependencyShape directory "datasetParents"
  return Catalog.ofData ((containers, spaces, folders, views, physicalDatasets, sources, homes,
    reflections, tags, wikis, dependencies, ()), [])

/-- Loads a catalog. -/
def load (location : Location) : ExceptT Error m Catalog := do
  let catalog ←
    match location with
    | .file name => Catalog.ofData <$> readData catalogShape name
    | .directory name => readDirectory name
  (say .info ("Loaded catalog from " ++ location.name ++ ": " ++
    toString catalog.spaces.length ++ " spaces, " ++ toString catalog.folders.length ++
    " folders, " ++ toString catalog.views.length ++ " views") : m Unit)
  return catalog

/-- Writes a value as a file. -/
def writeValue (name : String) (value : Value) : ExceptT Error m Unit := do
  match ← (Host.write name (value.pretty 0) : m (Except Refusal Unit)) with
  | .ok () => return ()
  | .error refusal => throw (.catalogWrite name refusal.words)

/-- Makes a directory for a catalog. -/
def ensureDirectories (name : String) : ExceptT Error m Unit := do
  match ← (makeDirectories name : m (Except Refusal Unit)) with
  | .ok () => return ()
  | .error refusal => throw (.catalogWrite name refusal.words)

/-- The collections of a catalog by the names of their files, in the order in which
they are written. -/
def collections (catalog : Catalog) : List (String × Value) :=
  match catalog.toValue with
  | .object members => members
  | _ => []

/-- Writes collections into a directory. -/
def writeCollections (directory : String) : List (String × Value) → ExceptT Error m Unit
  | [] => return ()
  | (collection, value) :: rest => do
    writeValue (inDirectory directory (collection ++ ".json")) value
    writeCollections directory rest

/-- Saves a catalog. -/
def save (catalog : Catalog) (location : Location) : ExceptT Error m Unit := do
  match location with
  | .file name =>
    match parent? name with
    | some above => unless above.isEmpty do ensureDirectories above
    | none => pure ()
    writeValue name catalog.toValue
  | .directory name =>
    ensureDirectories name
    writeCollections name (collections catalog)
  (say .info ("Saved catalog to " ++ location.name) : m Unit)

end Store

end Relocate
