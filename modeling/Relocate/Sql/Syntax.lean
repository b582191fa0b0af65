import Relocate.Sql.Ident
import Relocate.Text.Blank

/-!
# Syntax of statements

A statement is kept at the level at which references are looked for: queries
with their named sub-queries, selects with their items and tables, names of
tables and columns.  Everything else is an *operation*: operands in the order
in which they are visited, and a `Form` that says how the operation is written
around them.  So an addition, a `CASE`, a call and a `WHERE` clause are all
`Expr.form` nodes, and a traversal of a statement never has to know them apart.
-/

namespace Relocate.Sql

/-- How a part of a composite value is selected. -/
inductive Link
  /-- `.part` -/
  | field
  /-- `[part]` -/
  | element
deriving DecidableEq, Repr

/-- The optional parts of a call, in the order in which they are visited. -/
inductive CallPart
  | parameters
  | arguments
  | window
  | ordering
deriving DecidableEq, Repr

/-- What a name stands for that is written but that no walk changes. -/
inductive Mention
  /-- A locked table. -/
  | table
  /-- A pivoted or an assigned column. -/
  | column
  /-- What stands before `.*` in the argument of a call. -/
  | allOf
deriving DecidableEq, Repr

/-- How an operation is written around its operands. -/
inductive Form
  /-- Fixed text without operands: a constant, a parameter, a phrase. -/
  | constant (text : String)
  /-- A name between two texts, without operands. -/
  | mention (kind : Mention) (opening : String) (name : Name) (closing : String)
  /-- The operands, separated by commas, between two texts. -/
  | enclosed (opening closing : String)
  /-- The operands with an operator between them. -/
  | infixOp (operator : String)
  /-- The operands one after the other. -/
  | sequence
  /-- The operands one after the other, the last one first. -/
  | reversed
  /-- Parts of the first operand, selected one after the other. -/
  | access (links : List Link)
  /-- The bounds and the stride of a range of elements, as far as given. -/
  | slice (lower upper stride : Bool)
  /-- A `CASE`: the operand if any, all conditions, all results, the default. -/
  | choice (operand : Bool) (branches : Nat) (default : Bool)
  /-- A `TRIM` of the first operand that names, in the second, what to remove. -/
  | trim (side : String)
  /-- A call with the parts that it has, and its treatment of nulls. -/
  | call (name : Name) (parts : List CallPart) (nulls : String)
deriving DecidableEq, Repr

/-- The name given to a table, and to its columns. -/
structure Alias where
  name : Ident
  columns : List String
deriving DecidableEq, Repr

/-- The table that the rows of a select go to, behind its words. -/
structure Target where
  words : String
  name : Name
deriving DecidableEq, Repr

mutual

/-- An expression, or a clause built from expressions. -/
inductive Expr
  /-- An unqualified column. -/
  | column (name : Ident)
  /-- A qualified column. -/
  | path (parts : Name)
  /-- `a.b.*` in place of an expression. -/
  | allOf (qualifier : Name)
  /-- A query in parentheses. -/
  | query (body : Query)
  /-- An operation on operands. -/
  | form (form : Form) (operands : List Expr)

/-- A query: the queries it names, its body and the clauses after the body. -/
inductive Query
  | mk (recursive : Bool) (named : List Named) (body : Body) (clauses : List Expr)

/-- A query named in a `WITH` clause. -/
inductive Named
  | mk (name : Alias) (body : Query) (source : Option Ident)

/-- The body of a query. -/
inductive Body
  | select (select : Select)
  | query (query : Query)
  | combined (operator : String) (left right : Body)
  | values (rows : List Expr)
  /-- All rows of a table, which is named by plain words. -/
  | table (words : List String)
  | command (statement : Statement)

/-- A select: what stands before its items, the items, the table they go to,
the tables they come from and the clauses after them. -/
inductive Select
  | mk (start : List Expr) (items : List Item) (target : Option Target) (tables : List Joined)
      (clauses : List Expr)

/-- An item of a select. -/
inductive Item
  | expr (value : Expr) (name : Option Ident)
  /-- `a.b.*` -/
  | allOf (qualifier : Name) (options : List Expr)
  /-- `*` -/
  | all (options : List Expr)

/-- A table with the tables joined to it. -/
inductive Joined
  | mk (first : Factor) (joins : List Join)

/-- A joined table: the words of the join, the table, the condition. -/
inductive Join
  | mk (words : String) (factor : Factor) (condition : List Expr)

/-- A table in a `FROM` clause. -/
inductive Factor
  /-- A named table, with what stands before and after its alias. -/
  | table (name : Name) (details : List Expr) (label : Option Alias) (hints : List Expr)
  /-- A query in place of a table. -/
  | derived (lateral : Bool) (query : Query) (label : Option Alias)
  /-- Joined tables in parentheses. -/
  | nested (inner : Joined) (label : Option Alias)
  /-- A table turned into another one by `PIVOT` and the like. -/
  | transformed (inner : Factor) (operation : Expr) (label : Option Alias)
  /-- A table computed by an expression. -/
  | computed (source : Expr) (label : Option Alias) (suffix : String)

/-- A statement. -/
inductive Statement
  | query (query : Query)
  /-- Any other command, as its parts in order. -/
  | command (parts : List Part)

/-- A part of a command. -/
inductive Part
  | words (text : String)
  /-- The table that the command works on. -/
  | target (name : Name)
  | expr (value : Expr)
  | query (query : Query)
  | tables (joined : Joined)
  | item (item : Item)
  | statement (statement : Statement)

end

instance : Inhabited Expr := ⟨.form (.constant "") []⟩

namespace Expr

/-- Fixed text. -/
def constant (text : String) : Expr :=
  form (.constant text) []

/-- A name between two texts. -/
def mention (kind : Mention) (opening : String) (name : Name) (closing : String) : Expr :=
  form (.mention kind opening name closing) []

/-- Operands between two texts. -/
def enclosed (opening : String) (operands : List Expr) (closing : String) : Expr :=
  form (.enclosed opening closing) operands

/-- Operands in parentheses. -/
def parenthesized (operands : List Expr) : Expr :=
  enclosed "(" operands ")"

/-- Operands without anything around them. -/
def list (operands : List Expr) : Expr :=
  enclosed "" operands ""

/-- A clause: its words and its operands. -/
def clause (words : String) (operands : List Expr) : Expr :=
  enclosed (words ++ " ") operands ""

/-- An operator before its operand. -/
def prefixed (operator : String) (operand : Expr) : Expr :=
  enclosed operator [operand] ""

/-- An operator after its operand. -/
def suffixed (operand : Expr) (operator : String) : Expr :=
  enclosed "" [operand] operator

/-- An operator between its operands. -/
def infixed (left : Expr) (operator : String) (right : Expr) : Expr :=
  form (.infixOp operator) [left, right]

/-- Parts one after the other. -/
def sequence (parts : List Expr) : Expr :=
  form .sequence parts

/-- Two parts that are written in the opposite order. -/
def swapped (first second : Expr) : Expr :=
  form .reversed [first, second]

end Expr

end Relocate.Sql
