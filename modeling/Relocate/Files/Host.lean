import Relocate.Files.Name
import Relocate.Log

/-!
# What a run needs from its host

A run reads and writes files and tells what it does.  `Host m` is what it needs
for that in a monad `m`, so the same run works on the files of a computer and on
a model of them.  Operations on files fail with the words of the system.
-/

namespace Relocate.Files

/-- Why an operation on files is refused, in the words of the system. -/
structure Refusal where
  /-- The file, or a directory on the way to it, does not exist. -/
  isMissing : Bool
  words : String
deriving DecidableEq, Repr

/-- Files and log of the place where a run happens. -/
class Host (m : Type → Type) where
  /-- The bytes of a file. -/
  read : String → m (Except Refusal ByteArray)
  /-- Writes a text as a whole file. -/
  write : String → String → m (Except Refusal Unit)
  /-- Makes one directory. -/
  makeDirectory : String → m (Except Refusal Unit)
  /-- There is a directory of this name. -/
  isDirectory : String → m Bool
  /-- There is a file or a directory of this name. -/
  isThere : String → m Bool
  /-- Tells an entry. -/
  tell : Entry → m Unit

variable {m : Type → Type} [Monad m] [Host m]

/-- Makes a directory unless it is there already. -/
def ensureDirectory (name : String) : m (Except Refusal Unit) := do
  match ← Host.makeDirectory name with
  | .ok () => return .ok ()
  | .error refusal => if ← Host.isDirectory name then return .ok () else return .error refusal

/-- Makes a directory and those above it, at most as many as the fuel says. -/
def makeDirectoriesFrom : Nat → String → m (Except Refusal Unit)
  | 0, _ => return .ok ()
  | fuel + 1, name => do
    if name.isEmpty then return .ok ()
    match ← ensureDirectory name with
    | .ok () => return .ok ()
    | .error refusal =>
      if !refusal.isMissing then return .error refusal
      match parent? name with
      | none => return .error ⟨false, "failed to create whole tree"⟩
      | some above =>
        match ← makeDirectoriesFrom fuel above with
        | .ok () => ensureDirectory name
        | .error refusal => return .error refusal

/-- Makes a directory and those above it, as far as they are missing. -/
def makeDirectories (name : String) : m (Except Refusal Unit) :=
  makeDirectoriesFrom (name.length + 1) name

/-- Tells something. -/
def say (level : Level) (message : String) : m Unit :=
  Host.tell ⟨level, message⟩

end Relocate.Files
