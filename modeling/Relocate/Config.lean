import Relocate.Catalog.Codec
import Relocate.Error
import Relocate.Migrate.Pipeline
import Relocate.Store

/-!
# Configuration of a migration

A configuration names the rules, the catalog to read and the catalog to write.
A file goes before a directory where both are given.
-/

namespace Relocate

open Catalog Json

/-- A configuration as it is written. -/
structure Config where
  containerRules : Option (List Rule)
  sourceRules : Option (List Rule)
  sourceFile : Option String
  sourceDirectory : Option String
  destinationFile : Option String
  destinationDirectory : Option String
deriving DecidableEq, Repr

namespace Config

/-- The name of a file. -/
def nameShape : Shape := .optional (.text "path string")

/-- A list of rules. -/
def rulesShape : Shape := .optional (.list ruleShape)

/-- A configuration. -/
def shape : Shape :=
  .record "MigrationConfig"
    (.cons "spaceFolderMigrations" rulesShape false <|
     .cons "sourceMigrations" rulesShape false <|
     .cons "sourceFile" nameShape false <|
     .cons "sourceDirectory" nameShape false <|
     .cons "destinationFile" nameShape false <|
     .cons "destinationDirectory" nameShape false .nil) false

/-- The rules of data. -/
def rulesOfData (rules : Option (List ruleShape.Data)) : Option (List Rule) :=
  rules.map (List.map Rule.ofData)

/-- The configuration of data. -/
def ofData : shape.Data → Config
  | ((containerRules, sourceRules, sourceFile, sourceDirectory, destinationFile,
      destinationDirectory, ()), _) =>
    ⟨rulesOfData containerRules, rulesOfData sourceRules, sourceFile, sourceDirectory,
      destinationFile, destinationDirectory⟩

/-- The rules of the configuration. -/
def plan (config : Config) : Plan :=
  ⟨config.containerRules.getD [], config.sourceRules.getD []⟩

/-- A file, or a directory. -/
def location (file directory : Option String) : Option Location :=
  match file, directory with
  | some file, _ => some (.file file)
  | none, some directory => some (.directory directory)
  | none, none => none

/-- The catalog to read. -/
def source (config : Config) : Option Location :=
  location config.sourceFile config.sourceDirectory

/-- The catalog to write. -/
def destination (config : Config) : Option Location :=
  location config.destinationFile config.destinationDirectory

/-- The directory for failed views, named after the catalog to write. -/
def errorDirectory (config : Config) : Option String :=
  config.destination.map fun location => location.name ++ "_errors"

/-- The first rule of a list whose source or destination is empty. -/
def emptyRule? (rules : List Rule) : Option Nat :=
  rules.findIdx? fun rule => rule.source.isEmpty || rule.destination.isEmpty

/-- The message on an empty rule in a list, when there is one. -/
def rulesIssue? (family : String) (rules : Option (List Rule)) : Option String :=
  (emptyRule? (rules.getD [])).map fun index =>
    family ++ "[" ++ toString index ++ "] needs a non-empty srcPath and dstPath"

/-- What the configuration lacks. -/
def issue? (config : Config) : Option String :=
  rulesIssue? "spaceFolderMigrations" config.containerRules <|>
  rulesIssue? "sourceMigrations" config.sourceRules <|>
  (if config.source.isNone then some "one of sourceFile or sourceDirectory is required"
    else none) <|>
  (if config.destination.isNone then
    some "one of destinationFile or destinationDirectory is required"
    else none)

/-- The configuration, unless it lacks something. -/
def validate (config : Config) : Except Error Config :=
  match config.issue? with
  | some message => .error (.invalidConfig message)
  | none => .ok config

/-- The configuration in a text. -/
def parse (text : String) : Except Error Config :=
  match shape.parse text with
  | .ok data => (ofData data).validate
  | .error issue => .error (.invalidConfig ("malformed JSON: " ++ issue.describe))

variable {m : Type → Type} [Monad m] [Files.Host m]

/-- The configuration in a file. -/
def load (name : String) : ExceptT Error m Config := do
  match ← Store.readText (m := m) name with
  | .error cause => throw (.configRead name cause)
  | .ok text =>
    match shape.parse text with
    | .ok data => ExceptT.mk (pure (ofData data).validate)
    | .error issue => throw (.configParse name issue.describe)

end Config

end Relocate
