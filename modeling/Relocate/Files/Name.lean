import Relocate.Text.Blank

/-!
# Names of files

Names are written with slashes.  These functions work on the names alone and
never look at files.
-/

namespace Relocate.Files

/-- The name of a file in a directory. -/
def inDirectory (directory name : String) : String :=
  if directory.isEmpty || directory.endsWith "/" then directory ++ name
  else directory ++ "/" ++ name

/-- The parts of a text between slashes; never empty. -/
def splitSlashes : List Char → List (List Char)
  | [] => [[]]
  | c :: rest =>
    if c = '/' then [] :: splitSlashes rest
    else
      match splitSlashes rest with
      | [] => [[c]]
      | part :: parts => (c :: part) :: parts

/-- The parts of a name, without empty ones. -/
def parts (name : String) : List String :=
  ((splitSlashes name.toList).filter fun part => !part.isEmpty).map String.ofList

/-- A name, turned around, without the slashes and the parts `.` at its end;
the first character of the name stays. -/
def trimEnd : List Char → List Char
  | '/' :: c :: rest => trimEnd (c :: rest)
  | '.' :: '/' :: rest =>
    match rest with
    | [] => ['/']
    | _ => trimEnd rest
  | name => name

/-- The name of the directory that holds a file; empty for a file that is named
without one, and `none` for names that are in no directory. -/
def parent? (name : String) : Option String :=
  match trimEnd name.toList.reverse with
  | [] | ['/'] => none
  | trimmed =>
    match trimmed.dropWhile (· ≠ '/') with
    | [] => some ""
    | rest => some (String.ofList (trimEnd rest).reverse)

end Relocate.Files
