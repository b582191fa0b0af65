import Relocate.Catalog.Path
import Relocate.Log
import Relocate.Sql.Names
import Relocate.Sql.Render

/-!
# Rewriting references

A rule moves the objects below its source.  A name refers to such an object when
its first identifiers are the segments of the source up to ASCII case;
`Name.moved?` puts the destination in their place.

A `Rewriter` walks over a statement with the scopes of the queries around it.
It leaves a name alone that is no reference: a table that is a query of a `WITH`
clause, and a column or a `t.*` whose qualifier is too short or stands for a
table of a query around it.  The `t.*` items of a query are visited as soon as
the query is entered, and every name once, so a name is not moved again when its
new form starts with the source.
-/

namespace Relocate.Sql

open Catalog Text

/-- What follows the segments at the start of a name. -/
def Name.suffix? : Path → Name → Option Name
  | [], rest => some rest
  | _ :: _, [] => none
  | segment :: segments, ident :: rest =>
    if sameFold ident.value segment then Name.suffix? segments rest else none

/-- The name after the rule, when it starts with the source. -/
def Name.moved? (rule : Rule) (name : Name) : Option Name :=
  (name.suffix? rule.source).map fun rest => rule.destination.map Ident.bare ++ rest

/-- The name may refer to an object: its qualifier is as long as the source and
does not stand for a table of a query. -/
def isQualified (rule : Rule) (scopes : List Scope) (name : Name) (qualifier : Nat) : Bool :=
  match name with
  | [] => false
  | first :: _ => decide (rule.source.length ≤ qualifier) && !Scope.isLocal scopes first

/-- What the rewriting of one or more statements has done. -/
structure RewriteStats where
  /-- The references that were replaced. -/
  replaced : Nat
  /-- The statements that are no queries and were left alone. -/
  unrecognized : Nat
deriving DecidableEq, Repr, Inhabited

namespace RewriteStats

/-- Nothing was done. -/
def zero : RewriteStats := ⟨0, 0⟩

/-- What was done in two parts. -/
def add (a b : RewriteStats) : RewriteStats :=
  ⟨a.replaced + b.replaced, a.unrecognized + b.unrecognized⟩

instance : Add RewriteStats := ⟨add⟩

end RewriteStats

/-- The entry on a reference that was replaced. -/
def replacedEntry (view : Path) (origin : String) (clause : Clause) (old new : Name) : Entry :=
  ⟨.info, origin ++ " - Matching view SQL " ++ clause.label ++ " (" ++ view.dotted ++ "): " ++
    Name.dotted old ++ " -> " ++ Name.dotted new⟩

/-- The entry on a statement that is no query. -/
def unhandledEntry (view : Path) (origin : String) (statement : Statement) : Entry :=
  ⟨.warn, origin ++ " - Unhandled statement in view " ++ view.dotted ++
    ", left unmodified: " ++ statement.render⟩

/-- What a rewriter is made for: a rule, and the view and the origin that its
entries name. -/
structure Job where
  rule : Rule
  view : Path
  origin : String

/-- A rewriter between two visits. -/
structure Rewriter where
  /-- The scopes of the queries around the place, the innermost first.  Tables
  of the outermost query are taken out of its scope when they are visited. -/
  scopes : List Scope
  stats : RewriteStats
  log : List Entry

/-- A visit that changes the rewriter. -/
abbrev Rewriting := StateM Rewriter

namespace Rewriter

/-- The rewriter before any statement. -/
def start : Rewriter := ⟨[], .zero, []⟩

/-- Enters a query. -/
def enter (query : Query) : Rewriting Unit :=
  modify fun rewriter => { rewriter with scopes := Scope.ofQuery query :: rewriter.scopes }

/-- Leaves the innermost query. -/
def leave : Rewriting Unit :=
  modify fun rewriter => { rewriter with scopes := rewriter.scopes.tail }

/-- Visits the parts of a query. -/
def within {α : Type} (query : Query) (visit : Rewriting α) : Rewriting α := do
  enter query
  let result ← visit
  leave
  return result

/-- The clause of a table that is visited. -/
def takeClause (name : Name) : Rewriting Clause := do
  match (← get).scopes with
  | [] => return .table
  | [scope] =>
    if scope.combined then return .union
    else
      let (taken, rest) := takeRelation name.dotted scope.relations
      modify fun rewriter => { rewriter with scopes := [{ scope with relations := rest }] }
      return taken.getD .table
  | _ => return .subquery

/-- The name after the rule, with an entry when the rule replaces it. -/
def replace (job : Job) (clause : Clause) (name : Name) : Rewriting Name := do
  match name.moved? job.rule with
  | none => return name
  | some new =>
    modify fun rewriter => { rewriter with
      stats := rewriter.stats + ⟨1, 0⟩
      log := rewriter.log ++ [replacedEntry job.view job.origin clause name new] }
    return new

/-- Visits a table. -/
def visitRelation (job : Job) (name : Name) : Rewriting Name := do
  let clause ← takeClause name
  if Scope.isNamedQuery (← get).scopes name then return name
  else replace job clause name

/-- Visits a column or a `t.*` whose first identifiers, so many of them, name a
table. -/
def visitQualified (job : Job) (name : Name) (qualifier : Nat) : Rewriting Name := do
  if isQualified job.rule (← get).scopes name qualifier then replace job .value name
  else return name

end Rewriter

/-- The items with other names before `.*`, and the names that are left over. -/
def setQualifiers : List Item → List Name → List Item × List Name
  | .allOf _ options :: rest, name :: names =>
    let (rest, names) := setQualifiers rest names
    (.allOf name options :: rest, names)
  | item :: rest, names =>
    let (rest, names) := setQualifiers rest names
    (item :: rest, names)
  | [], names => ([], names)

/-- The body with other names before the `.*` of its selects, and the names that
are left over. -/
def Body.setQualifiers : Body → List Name → Body × List Name
  | .select (.mk start items target tables clauses), names =>
    let (items, names) := Sql.setQualifiers items names
    (.select (.mk start items target tables clauses), names)
  | .combined operator left right, names =>
    let (left, names) := left.setQualifiers names
    let (right, names) := right.setQualifiers names
    (.combined operator left right, names)
  | body, names => (body, names)

mutual

/-- Visits an expression. -/
def Expr.visit (job : Job) : Expr → Rewriting Expr
  | .column name => return .column name
  | .path parts => return .path (← Rewriter.visitQualified job parts (parts.length - 1))
  | .allOf qualifier =>
    return .allOf (← Rewriter.visitQualified job qualifier qualifier.length)
  | .query body => return .query (← body.visit job)
  | .form form operands => return .form form (← visitExprs job operands)

/-- Visits expressions. -/
def visitExprs (job : Job) : List Expr → Rewriting (List Expr)
  | [] => return []
  | expr :: rest => return (← expr.visit job) :: (← visitExprs job rest)

/-- Visits a query: its `t.*` items, its `WITH` clause, its body and the clauses
behind the body. -/
def Query.visit (job : Job) : Query → Rewriting Query
  | .mk recursive named body clauses =>
    Rewriter.within (.mk recursive named body clauses) do
      let qualifiers ← body.qualifiers.mapM fun name =>
        Rewriter.visitQualified job name name.length
      let named ← visitNamed job named
      let body ← body.visit job
      let clauses ← visitExprs job clauses
      return .mk recursive named (body.setQualifiers qualifiers).1 clauses

/-- Visits the queries of a `WITH` clause. -/
def visitNamed (job : Job) : List Named → Rewriting (List Named)
  | [] => return []
  | .mk name body source :: rest =>
    return .mk name (← body.visit job) source :: (← visitNamed job rest)

/-- Visits the body of a query. -/
def Body.visit (job : Job) : Body → Rewriting Body
  | .select select => return .select (← select.visit job)
  | .query query => return .query (← query.visit job)
  | .combined operator left right =>
    return .combined operator (← left.visit job) (← right.visit job)
  | .values rows => return .values (← visitExprs job rows)
  | .table words => return .table words
  | .command statement => return .command (← statement.visit job)

/-- Visits a select, but not the names before `.*`. -/
def Select.visit (job : Job) : Select → Rewriting Select
  | .mk start items target tables clauses =>
    return .mk (← visitExprs job start) (← visitItems job items) target
      (← visitTables job tables) (← visitExprs job clauses)

/-- Visits items, but not the names before `.*`. -/
def visitItems (job : Job) : List Item → Rewriting (List Item)
  | [] => return []
  | item :: rest => return (← item.visit job) :: (← visitItems job rest)

/-- Visits an item, but not the name before `.*`. -/
def Item.visit (job : Job) : Item → Rewriting Item
  | .expr value name => return .expr (← value.visit job) name
  | .allOf qualifier options => return .allOf qualifier (← visitExprs job options)
  | .all options => return .all (← visitExprs job options)

/-- Visits tables with their joins. -/
def visitTables (job : Job) : List Joined → Rewriting (List Joined)
  | [] => return []
  | joined :: rest => return (← joined.visit job) :: (← visitTables job rest)

/-- Visits a table and its joins. -/
def Joined.visit (job : Job) : Joined → Rewriting Joined
  | .mk first joins => return .mk (← first.visit job) (← visitJoins job joins)

/-- Visits joins. -/
def visitJoins (job : Job) : List Join → Rewriting (List Join)
  | [] => return []
  | .mk words factor condition :: rest =>
    return .mk words (← factor.visit job) (← visitExprs job condition) ::
      (← visitJoins job rest)

/-- Visits a table. -/
def Factor.visit (job : Job) : Factor → Rewriting Factor
  | .table name details label hints =>
    return .table (← Rewriter.visitRelation job name) (← visitExprs job details) label
      (← visitExprs job hints)
  | .derived lateral query label => return .derived lateral (← query.visit job) label
  | .nested inner label => return .nested (← inner.visit job) label
  | .transformed inner operation label =>
    return .transformed (← inner.visit job) (← operation.visit job) label
  | .computed source label suffix => return .computed (← source.visit job) label suffix

/-- Visits a statement. -/
def Statement.visit (job : Job) : Statement → Rewriting Statement
  | .query query => return .query (← query.visit job)
  | .command parts => return .command (← visitParts job parts)

/-- Visits the parts of a command. -/
def visitParts (job : Job) : List Part → Rewriting (List Part)
  | [] => return []
  | part :: rest => return (← part.visit job) :: (← visitParts job rest)

/-- Visits a part of a command. -/
def Part.visit (job : Job) : Part → Rewriting Part
  | .words text => return .words text
  | .target name => return .target (← Rewriter.visitRelation job name)
  | .expr value => return .expr (← value.visit job)
  | .query query => return .query (← query.visit job)
  | .tables joined => return .tables (← joined.visit job)
  | .item item => return .item (← item.visit job)
  | .statement statement => return .statement (← statement.visit job)

end

/-- Rewrites a statement if it is a query, and leaves all others alone. -/
def Rewriter.rewrite (job : Job) (statement : Statement) : Rewriting Statement := do
  match statement with
  | .query query => return .query (← query.visit job)
  | .command _ =>
    modify fun rewriter => { rewriter with
      stats := rewriter.stats + ⟨0, 1⟩
      log := rewriter.log ++ [unhandledEntry job.view job.origin statement] }
    return statement

/-- A statement after a rule, with what was done. -/
structure Rewritten where
  statement : Statement
  stats : RewriteStats
  log : List Entry

/-- Applies a rule to all references of a statement.  The view and the origin
only appear in the entries. -/
def Statement.rewrite (rule : Rule) (view : Path) (origin : String) (statement : Statement) :
    Rewritten :=
  let (statement, rewriter) := (Rewriter.rewrite ⟨rule, view, origin⟩ statement).run .start
  ⟨statement, rewriter.stats, rewriter.log⟩

end Relocate.Sql
