import Relocate.Sql.Syntax

/-!
# Writing statements

`Statement.render` writes a statement on one line with single spaces.  It walks
the tree once; how an operation is written around the texts of its operands is
said by `Form.write`.
-/

namespace Relocate.Sql

open Text

namespace Form

/-- The branches of a `CASE`, from its conditions and its results. -/
def writeBranches : List String → List String → String
  | condition :: conditions, result :: results =>
    " WHEN " ++ condition ++ " THEN " ++ result ++ writeBranches conditions results
  | _, _ => ""

/-- A `CASE` from its operands in the order operand, conditions, results,
default. -/
def writeChoice (operand : Bool) (branches : Nat) (default : Bool) (texts : List String) :
    String :=
  let (subject, rest) :=
    match operand, texts with
    | true, text :: rest => (" " ++ text, rest)
    | _, _ => ("", texts)
  let conditions := rest.take branches
  let results := (rest.drop branches).take branches
  let otherwise :=
    match default, rest.drop (2 * branches) with
    | true, text :: _ => " ELSE " ++ text
    | _, _ => ""
  "CASE" ++ subject ++ writeBranches conditions results ++ otherwise ++ " END"

/-- The parts that follow a composite value. -/
def writeLinks : List Link → List String → String
  | .field :: links, text :: texts => "." ++ text ++ writeLinks links texts
  | .element :: links, text :: texts => "[" ++ text ++ "]" ++ writeLinks links texts
  | _, _ => ""

/-- A range of elements from the bounds that are given. -/
def writeSlice (lower upper stride : Bool) (texts : List String) : String :=
  let (first, texts) := given lower texts
  let (last, texts) := given upper texts
  let (step, _) := given stride texts
  first ++ ":" ++ last ++ (if stride then ":" ++ step else "")
where
  /-- The next text, when one is given. -/
  given (present : Bool) (texts : List String) : String × List String :=
    match present, texts with
    | true, text :: rest => (text, rest)
    | _, _ => ("", texts)

/-- The text of a part of a call. -/
def partText (wanted : CallPart) : List CallPart → List String → String
  | part :: parts, text :: texts => if part = wanted then text else partText wanted parts texts
  | _, _ => ""

/-- The operation around the texts of its operands. -/
def write (form : Form) (texts : List String) : String :=
  match form with
  | constant text => text
  | mention _ opening name closing => opening ++ name.render ++ closing
  | enclosed opening closing => opening ++ commaList texts ++ closing
  | infixOp operator => join (" " ++ operator ++ " ") texts
  | sequence => join " " texts
  | reversed => join " " texts.reverse
  | access links =>
    match texts with
    | [] => ""
    | root :: rest => root ++ writeLinks links rest
  | slice lower upper stride => writeSlice lower upper stride texts
  | choice operand branches default => writeChoice operand branches default texts
  | trim side =>
    match texts with
    | [value, what] => "TRIM(" ++ side ++ what ++ " FROM " ++ value ++ ")"
    | _ => "TRIM(" ++ side ++ commaList texts ++ ")"
  | call name parts nulls =>
    name.render ++ partText .parameters parts texts ++ partText .arguments parts texts ++
      partText .ordering parts texts ++ nulls ++ partText .window parts texts

end Form

/-- The alias as it is written. -/
def Alias.render (label : Alias) : String :=
  label.name.render ++
    (if label.columns.isEmpty then "" else " (" ++ commaList label.columns ++ ")")

/-- The alias of a table, when there is one. -/
def renderAlias : Option Alias → String
  | none => ""
  | some label => " AS " ++ label.render

/-- The table that the rows of a select go to, when there is one. -/
def renderTarget : Option Target → String
  | none => ""
  | some target => target.words ++ target.name.render

/-- Texts that each follow a space. -/
def spaced (texts : List String) : String :=
  String.join (texts.map fun text => " " ++ text)

mutual

/-- The expression on one line. -/
def Expr.render : Expr → String
  | .column name => name.render
  | .path parts => Name.render parts
  | .allOf qualifier => Name.render qualifier ++ ".*"
  | .query body => "(" ++ body.render ++ ")"
  | .form form operands => form.write (renderExprs operands)

/-- The texts of expressions. -/
def renderExprs : List Expr → List String
  | [] => []
  | expr :: rest => expr.render :: renderExprs rest

/-- The query on one line. -/
def Query.render : Query → String
  | .mk recursive named body clauses =>
    let texts := renderNamed named
    (if texts.isEmpty then ""
      else "WITH " ++ (if recursive then "RECURSIVE " else "") ++ commaList texts ++ " ") ++
    body.render ++ spaced (renderExprs clauses)

/-- The texts of named queries. -/
def renderNamed : List Named → List String
  | [] => []
  | .mk name body source :: rest =>
    (name.render ++ " AS (" ++ body.render ++ ")" ++
      (match source with
        | none => ""
        | some ident => " FROM " ++ ident.render)) :: renderNamed rest

/-- The body of a query on one line. -/
def Body.render : Body → String
  | .select select => select.render
  | .query query => "(" ++ query.render ++ ")"
  | .combined operator left right => left.render ++ " " ++ operator ++ " " ++ right.render
  | .values rows => "VALUES " ++ commaList (renderExprs rows)
  | .table words => "TABLE " ++ join "." words
  | .command statement => statement.render

/-- The select on one line. -/
def Select.render : Select → String
  | .mk start items target tables clauses =>
    "SELECT" ++ spaced (renderExprs start) ++
      (if items.isEmpty then "" else " " ++ commaList (renderItems items)) ++
      renderTarget target ++
      (if tables.isEmpty then "" else " FROM " ++ commaList (renderTables tables)) ++
      spaced (renderExprs clauses)

/-- The texts of select items. -/
def renderItems : List Item → List String
  | [] => []
  | item :: rest => item.render :: renderItems rest

/-- The select item on one line. -/
def Item.render : Item → String
  | .expr value name =>
    value.render ++
      (match name with
        | none => ""
        | some ident => " AS " ++ ident.render)
  | .allOf qualifier options => Name.render qualifier ++ ".*" ++ spaced (renderExprs options)
  | .all options => "*" ++ spaced (renderExprs options)

/-- The texts of tables with their joins. -/
def renderTables : List Joined → List String
  | [] => []
  | joined :: rest => joined.render :: renderTables rest

/-- A table and its joins on one line. -/
def Joined.render : Joined → String
  | .mk first joins => first.render ++ renderJoins joins

/-- The joins of a table. -/
def renderJoins : List Join → String
  | [] => ""
  | .mk words factor condition :: rest =>
    " " ++ words ++ " " ++ factor.render ++ spaced (renderExprs condition) ++ renderJoins rest

/-- The table on one line. -/
def Factor.render : Factor → String
  | .table name details label hints =>
    Name.render name ++ String.join (renderExprs details) ++ renderAlias label ++
      spaced (renderExprs hints)
  | .derived lateral query label =>
    (if lateral then "LATERAL " else "") ++ "(" ++ query.render ++ ")" ++ renderAlias label
  | .nested inner label => "(" ++ inner.render ++ ")" ++ renderAlias label
  | .transformed inner operation label =>
    inner.render ++ " " ++ operation.render ++ renderAlias label
  | .computed source label suffix => source.render ++ renderAlias label ++ suffix

/-- The statement on one line. -/
def Statement.render : Statement → String
  | .query query => query.render
  | .command parts => renderParts parts

/-- The parts of a command, one directly after the other. -/
def renderParts : List Part → String
  | [] => ""
  | part :: rest => part.render ++ renderParts rest

/-- The part of a command on one line. -/
def Part.render : Part → String
  | .words text => text
  | .target name => Name.render name
  | .expr value => value.render
  | .query query => query.render
  | .tables joined => joined.render
  | .item item => item.render
  | .statement statement => statement.render

end

end Relocate.Sql
