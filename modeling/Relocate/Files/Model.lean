import Relocate.Files.Host

/-!
# A model of files

A tree of files in memory that answers as a Linux system does.  A name is
followed part by part from the working directory; `..` at the working directory
stays there.
-/

namespace Relocate.Files

/-- Where something is: the names on the way from the working directory. -/
abbrev Place := List String

/-- What may be at a place. -/
inductive Node
  | file (content : ByteArray)
  | directory

/-- Files and directories by their places; the working directory is always
there. -/
structure Tree where
  nodes : List (Place × Node)

namespace Tree

/-- A tree with nothing in it. -/
def empty : Tree := ⟨[]⟩

/-- What is at a place. -/
def at? (tree : Tree) (place : Place) : Option Node :=
  if place.isEmpty then some .directory else (tree.nodes.find? fun node => node.1 == place).map Prod.snd

/-- The tree with something put at a place. -/
def put (tree : Tree) (place : Place) (node : Node) : Tree :=
  ⟨(tree.nodes.filter fun old => old.1 != place) ++ [(place, node)]⟩

end Tree

/-- Why an operation fails. -/
inductive Issue
  | notFound
  | alreadyThere
  | notDirectory
  | isDirectory
  | nameTooLong
  | badName
deriving DecidableEq, Repr

/-- The issue in the words of the system. -/
def Issue.words : Issue → String
  | notFound => "No such file or directory (os error 2)"
  | alreadyThere => "File exists (os error 17)"
  | notDirectory => "Not a directory (os error 20)"
  | isDirectory => "Is a directory (os error 21)"
  | nameTooLong => "File name too long (os error 36)"
  | badName => "file name contained an unexpected NUL byte"

/-- The issue as a refusal. -/
def Issue.refusal (issue : Issue) : Refusal :=
  ⟨decide (issue = .notFound), issue.words⟩

namespace Tree

/-- The longest name of a file, in bytes. -/
def maxNameLength : Nat := 255

/-- The place behind one more part of a name. -/
def enter (here : Place) (part : String) : Place :=
  if part = "." then here else if part = ".." then here.dropLast else here ++ [part]

/-- The place that the parts of a name lead to.  All places on the way but the
last have to be directories. -/
def follow (tree : Tree) : Place → List String → Except Issue Place
  | here, [] => .ok here
  | here, part :: rest =>
    if maxNameLength < part.utf8ByteSize then .error .nameTooLong
    else
      let next := enter here part
      match rest with
      | [] => .ok next
      | _ =>
        match tree.at? next with
        | some .directory => follow tree next rest
        | some (.file _) => .error .notDirectory
        | none => .error .notFound

/-- The place that a name leads to. -/
def locate (tree : Tree) (name : String) : Except Issue Place :=
  if name.toList.contains '\x00' then .error .badName
  else if name.isEmpty || name.startsWith "/" then .error .notFound
  else tree.follow [] (parts name)

/-- The content of a file. -/
def read (tree : Tree) (name : String) : Except Issue ByteArray := do
  match tree.at? (← tree.locate name) with
  | some (.file content) => if name.endsWith "/" then throw .notDirectory else return content
  | some .directory => throw .isDirectory
  | none => throw .notFound

/-- The tree after a file has been written. -/
def write (tree : Tree) (name : String) (content : ByteArray) : Except Issue Tree := do
  let place ← tree.locate name
  if name.endsWith "/" then throw .isDirectory
  match tree.at? place with
  | some .directory => throw .isDirectory
  | _ => return tree.put place (.file content)

/-- The tree after a directory has been made. -/
def makeDirectory (tree : Tree) (name : String) : Except Issue Tree := do
  let place ← tree.locate name
  match tree.at? place with
  | some _ => throw .alreadyThere
  | none => return tree.put place .directory

/-- What a name leads to. -/
def find? (tree : Tree) (name : String) : Option Node :=
  match tree.locate name with
  | .ok place =>
    match tree.at? place with
    | some (.file content) => if name.endsWith "/" then none else some (.file content)
    | found => found
  | .error _ => none

end Tree

/-- Files and log of a model. -/
structure World where
  tree : Tree
  log : List Entry

/-- Runs on a model. -/
abbrev Model := StateM World

/-- An operation that changes the tree unless it fails. -/
def Model.change (operation : Tree → Except Issue Tree) : Model (Except Issue Unit) := do
  match operation (← get).tree with
  | .ok tree =>
    modify fun world => { world with tree := tree }
    return .ok ()
  | .error issue => return .error issue

instance : Host Model where
  read name := do
    return ((← get).tree.read name).mapError Issue.refusal
  write name text := do
    return (← Model.change fun tree => tree.write name text.toUTF8).mapError Issue.refusal
  makeDirectory name := do
    return (← Model.change fun tree => tree.makeDirectory name).mapError Issue.refusal
  isDirectory name := do
    match (← get).tree.find? name with
    | some .directory => return true
    | _ => return false
  isThere name := do
    return ((← get).tree.find? name).isSome
  tell entry := modify fun world => { world with log := world.log ++ [entry] }

end Relocate.Files
