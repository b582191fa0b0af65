import Relocate.Catalog.FolderId
import Relocate.Cli

/-!
# The program

Files are those of the computer and the log goes to the standard output.
-/

namespace Relocate

open Files

/-- The words of the system for a code; `details` are those of the library. -/
def systemWords (code : Nat) (details : String) : String :=
  match code with
  | 2 => "No such file or directory"
  | 13 => "Permission denied"
  | 17 => "File exists"
  | 20 => "Not a directory"
  | 21 => "Is a directory"
  | 36 => "File name too long"
  | _ => details

/-- The refusal with a code, which may be given as a negative number. -/
def refusalOfCode (code : UInt32) (details : String) : Refusal :=
  let code := if code.toNat < 1 <<< 31 then code.toNat else UInt32.size - code.toNat
  ⟨code == 2, systemWords code details ++ " (os error " ++ toString code ++ ")"⟩

/-- The refusal in an error of an operation on files. -/
def refusalOfError : IO.Error → Refusal
  | .noFileOrDirectory _ code details
  | .alreadyExists _ code details
  | .permissionDenied _ code details
  | .resourceExhausted _ code details
  | .inappropriateType _ code details
  | .invalidArgument _ code details
  | .noSuchThing _ code details
  | .resourceVanished code details
  | .resourceBusy code details
  | .hardwareFault code details
  | .unsupportedOperation code details
  | .otherError code details => refusalOfCode code details
  | error => ⟨false, toString error⟩

/-- An operation on files with its refusal. -/
def refusing {α : Type} (operation : IO α) : IO (Except Refusal α) := do
  try
    return .ok (← operation)
  catch error =>
    return .error (refusalOfError error)

/-- The operation succeeds. -/
def succeeds {α : Type} (operation : IO α) : IO Bool := do
  return (← refusing operation).toBool

/-- The program while it runs: whether it shows all messages. -/
abbrev Program := ReaderT Bool IO

instance : Host Program where
  read name := refusing (IO.FS.readBinFile name)
  write name text := refusing (IO.FS.writeFile name text)
  makeDirectory name := refusing (IO.FS.createDir name)
  isDirectory name := succeeds (IO.FS.realPath (name ++ "/."))
  isThere name := succeeds (IO.FS.realPath name)
  tell entry := do
    if Cli.shows (← read) entry then
      IO.println entry.render

/-- A random number below `2 ^ 122`. -/
def randomNumber : IO Nat := do
  let bytes ← IO.getRandomBytes 16
  return bytes.data.toList.foldl (fun value byte => value * 256 + byte.toNat) 0 % (1 <<< 122)

/-- How the program is used. -/
def usageText : String :=
  "Usage: catalog-migrate migrate [--verbose] --config <CONFIG>"

/-- The name of the program with its version. -/
def versionText : String :=
  "catalog-migrate 0.1.0"

/-- Does what a command line asks for; returns the exit code. -/
def perform : Cli.Request → IO UInt32
  | .usage => do
    IO.eprintln usageText
    return Cli.usageExit.toUInt32
  | .help => do
    IO.println usageText
    return 0
  | .version => do
    IO.println versionText
    return 0
  | .migrate config verbose => do
    let ids := Catalog.FolderId.supply (← randomNumber)
    let command : Program (Option Error) := Cli.runMigrate ids config
    match ← command.run verbose with
    | none => return 0
    | some error =>
      IO.eprint (Cli.errorReport error)
      return 1

end Relocate

/-- Runs the command that the arguments ask for. -/
def main (arguments : List String) : IO UInt32 :=
  Relocate.perform (Relocate.Cli.Request.ofArguments arguments)
