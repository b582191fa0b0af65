/-!
# Log entries

What a run has to tell is a list of entries in the order in which they arise.
Functions that work on catalogs and statements return their entries; only the
program prints them.
-/

namespace Relocate

/-- How important an entry is. -/
inductive Level
  | error
  | warn
  | info
  | debug
deriving DecidableEq, Repr

/-- The name of the level in front of an entry. -/
def Level.label : Level → String
  | error => "ERROR"
  | warn => "WARN"
  | info => "INFO"
  | debug => "DEBUG"

/-- A message with its level. -/
structure Entry where
  level : Level
  message : String
deriving DecidableEq, Repr

/-- The entry on one line. -/
def Entry.render (entry : Entry) : String :=
  entry.level.label ++ " " ++ entry.message

end Relocate
