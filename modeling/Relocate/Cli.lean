import Relocate.Run

/-!
# The command line

`Request.ofArguments` says what a command line asks for.  There is one command,
`migrate`, with the name of a configuration file and a flag for more messages.
-/

namespace Relocate.Cli

open Files

/-- What a command line asks for. -/
inductive Request
  /-- A text about the program. -/
  | help
  | version
  | migrate (config : String) (verbose : Bool)
  /-- The command line is not understood. -/
  | usage
deriving DecidableEq, Repr

/-- The options of the command that were given so far. -/
structure Options where
  config : Option String
  verbose : Bool
deriving DecidableEq, Repr

/-- The options with the name of the configuration, unless there is one already or
the name is empty. -/
def Options.withConfig? (options : Options) (name : String) : Option Options :=
  if options.config.isSome || name.isEmpty then none else some { options with config := some name }

/-- The options with the flag for more messages, unless it is there already. -/
def Options.withVerbose? (options : Options) : Option Options :=
  if options.verbose then none else some { options with verbose := true }

/-- What short options ask for. -/
inductive Shorts
  | options (options : Options)
  /-- The name of the configuration is the next argument. -/
  | awaitConfig (options : Options)
  | help
  | usage

/-- The short options in one argument. -/
def readShorts (options : Options) : List Char → Shorts
  | [] => .options options
  | 'h' :: _ => .help
  | 'v' :: rest =>
    match options.withVerbose? with
    | some options => readShorts options rest
    | none => .usage
  | 'c' :: [] => .awaitConfig options
  | 'c' :: '=' :: name => finish (String.ofList name)
  | 'c' :: name => finish (String.ofList name)
  | _ => .usage
where
  /-- The rest of the argument is the name of the configuration. -/
  finish (name : String) : Shorts :=
    match options.withConfig? name with
    | some options => .options options
    | none => .usage

/-- An argument that is an option and no value. -/
def isOption (argument : String) : Bool :=
  argument.startsWith "-" && argument != "-"

/-- The arguments of the command. -/
def readCommand (options : Options) : List String → Request
  | [] => finish options
  | argument :: rest =>
    match argument.toList with
    | ['-', '-'] => if rest.isEmpty then finish options else .usage
    | '-' :: '-' :: 'c' :: 'o' :: 'n' :: 'f' :: 'i' :: 'g' :: '=' :: name =>
      match options.withConfig? (String.ofList name) with
      | some options => readCommand options rest
      | none => .usage
    | '-' :: '-' :: long =>
      match String.ofList long with
      | "help" => .help
      | "verbose" =>
        match options.withVerbose? with
        | some options => readCommand options rest
        | none => .usage
      | "config" => awaitConfig options rest
      | _ => .usage
    | '-' :: c :: shorts =>
      match readShorts options (c :: shorts) with
      | .options options => readCommand options rest
      | .awaitConfig options => awaitConfig options rest
      | .help => .help
      | .usage => .usage
    | _ => .usage
where
  /-- What complete options ask for. -/
  finish (options : Options) : Request :=
    match options.config with
    | some name => .migrate name options.verbose
    | none => .usage
  /-- The next argument is the name of the configuration. -/
  awaitConfig (options : Options) : List String → Request
    | [] => .usage
    | name :: rest =>
      if isOption name then .usage
      else
        match options.withConfig? name with
        | some options => readCommand options rest
        | none => .usage

/-- What follows the word `help`: the name of a command, if anything. -/
def readHelp : List String → Request
  | [] | ["migrate"] | ["help"] => .help
  | _ => .usage

/-- What a command line asks for. -/
def Request.ofArguments : List String → Request
  | [] => .usage
  | argument :: rest =>
    match argument with
    | "migrate" => readCommand ⟨none, false⟩ rest
    | "help" => readHelp rest
    | "--help" => .help
    | "--version" => .version
    | _ =>
      match argument.toList with
      | '-' :: 'h' :: _ => .help
      | '-' :: 'V' :: _ => .version
      | _ => .usage

/-- The levels that are shown. -/
def shows (verbose : Bool) (entry : Entry) : Bool :=
  verbose || entry.level != .debug

/-- The report on an error that ended a run. -/
def errorReport (error : Error) : String :=
  "Error: " ++ error.describe ++ "\n" ++
    (match error.cause? with
      | some cause => "\nCaused by:\n    " ++ cause ++ "\n"
      | none => "")

/-- The exit code for a command line that is not understood. -/
def usageExit : Nat := 2

variable {m : Type → Type} [Monad m] [Host m]

/-- Runs the command: the error that ended it, if any. -/
def runMigrate (ids : Nat → String) (config : String) : m (Option Error) := do
  match ← (Run.run ids config : ExceptT Error m Summary).run with
  | .ok summary =>
    for entry in Run.summaryLog summary do
      Host.tell entry
    return none
  | .error error => return some error

end Relocate.Cli
