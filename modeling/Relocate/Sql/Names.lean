import Relocate.Sql.Scope

/-!
# Names in a statement

Two walks over a statement share one notion of where a name stands.
`Statement.rename` changes names in place and leaves everything else alone;
`Statement.sites` lists the same names in the order of visits, each with the
scopes of the queries around it.

A query is entered first: then its `t.*` items are visited, which are part of
its body, and only then the queries of its `WITH` clause, its body and its
clauses.  Names of functions and of the arguments `t.*` of calls, and the
`t.*` that a command returns, are not visited.
-/

namespace Relocate.Sql

/-- What a name stands for. -/
inductive Role
  /-- A table. -/
  | relation
  /-- An unqualified column. -/
  | column
  /-- A qualified column. -/
  | path
  /-- What stands before `.*` in an item of a select or in an expression. -/
  | allOf
  /-- The alias of a table. -/
  | label
deriving DecidableEq, Repr

/-- A place where a name stands: the scopes around it, the innermost first. -/
structure Site where
  role : Role
  name : Name
  scopes : List Scope
deriving DecidableEq, Repr

/-- How names are changed, for each role. -/
structure Renaming where
  relation : List Scope → Name → Name
  column : Ident → Ident
  path : List Scope → Name → Name
  allOf : List Scope → Name → Name
  label : Ident → Ident

/-- The alias with its name changed. -/
def Alias.rename (f : Ident → Ident) (label : Alias) : Alias :=
  { label with name := f label.name }

/-- The item with the name before `.*` changed. -/
def Item.mapQualifier (f : Name → Name) : Item → Item
  | .allOf qualifier options => .allOf (f qualifier) options
  | item => item

/-- What stands before `.*` in the items of a select. -/
def Item.qualifier? : Item → Option Name
  | .allOf qualifier _ => some qualifier
  | _ => none

/-- The items of a select. -/
def Select.items : Select → List Item
  | .mk _ items _ _ _ => items

/-- What stands before `.*` in the selects of a body. -/
def Body.qualifiers (body : Body) : List Name :=
  body.selects.flatMap fun select => select.items.filterMap Item.qualifier?

mutual

/-- Changes the names in an expression. -/
def Expr.rename (r : Renaming) (scopes : List Scope) : Expr → Expr
  | .column name => .column (r.column name)
  | .path parts => .path (r.path scopes parts)
  | .allOf qualifier => .allOf (r.allOf scopes qualifier)
  | .query body => .query (body.rename r scopes)
  | .form form operands => .form form (renameExprs r scopes operands)

/-- Changes the names in expressions. -/
def renameExprs (r : Renaming) (scopes : List Scope) : List Expr → List Expr
  | [] => []
  | expr :: rest => expr.rename r scopes :: renameExprs r scopes rest

/-- Changes the names in a query, which has a scope of its own. -/
def Query.rename (r : Renaming) (scopes : List Scope) : Query → Query
  | .mk recursive named body clauses =>
    let scopes := Scope.ofQuery (.mk recursive named body clauses) :: scopes
    .mk recursive (renameNamed r scopes named) (body.rename r scopes)
      (renameExprs r scopes clauses)

/-- Changes the names in the queries of a `WITH` clause. -/
def renameNamed (r : Renaming) (scopes : List Scope) : List Named → List Named
  | [] => []
  | .mk name body source :: rest =>
    .mk name (body.rename r scopes) source :: renameNamed r scopes rest

/-- Changes the names in the body of a query. -/
def Body.rename (r : Renaming) (scopes : List Scope) : Body → Body
  | .select select => .select (select.rename r scopes)
  | .query query => .query (query.rename r scopes)
  | .combined operator left right =>
    .combined operator (left.rename r scopes) (right.rename r scopes)
  | .values rows => .values (renameExprs r scopes rows)
  | .table words => .table words
  | .command statement => .command (statement.rename r scopes)

/-- Changes the names in a select. -/
def Select.rename (r : Renaming) (scopes : List Scope) : Select → Select
  | .mk start items target tables clauses =>
    .mk (renameExprs r scopes start)
      ((renameItems r scopes items).map (Item.mapQualifier (r.allOf scopes))) target
      (renameTables r scopes tables) (renameExprs r scopes clauses)

/-- Changes the names in items, but not what stands before `.*`. -/
def renameItems (r : Renaming) (scopes : List Scope) : List Item → List Item
  | [] => []
  | item :: rest => item.rename r scopes :: renameItems r scopes rest

/-- Changes the names in an item, but not what stands before `.*`. -/
def Item.rename (r : Renaming) (scopes : List Scope) : Item → Item
  | .expr value name => .expr (value.rename r scopes) name
  | .allOf qualifier options => .allOf qualifier (renameExprs r scopes options)
  | .all options => .all (renameExprs r scopes options)

/-- Changes the names in tables with their joins. -/
def renameTables (r : Renaming) (scopes : List Scope) : List Joined → List Joined
  | [] => []
  | joined :: rest => joined.rename r scopes :: renameTables r scopes rest

/-- Changes the names in a table and its joins. -/
def Joined.rename (r : Renaming) (scopes : List Scope) : Joined → Joined
  | .mk first joins => .mk (first.rename r scopes) (renameJoins r scopes joins)

/-- Changes the names in joins. -/
def renameJoins (r : Renaming) (scopes : List Scope) : List Join → List Join
  | [] => []
  | .mk words factor condition :: rest =>
    .mk words (factor.rename r scopes) (renameExprs r scopes condition) ::
      renameJoins r scopes rest

/-- Changes the names in a table. -/
def Factor.rename (r : Renaming) (scopes : List Scope) : Factor → Factor
  | .table name details label hints =>
    .table (r.relation scopes name) (renameExprs r scopes details)
      (label.map (Alias.rename r.label)) (renameExprs r scopes hints)
  | .derived lateral query label =>
    .derived lateral (query.rename r scopes) (label.map (Alias.rename r.label))
  | .nested inner label => .nested (inner.rename r scopes) label
  | .transformed inner operation label =>
    .transformed (inner.rename r scopes) (operation.rename r scopes) label
  | .computed source label suffix => .computed (source.rename r scopes) label suffix

/-- Changes the names in a statement. -/
def Statement.rename (r : Renaming) (scopes : List Scope) : Statement → Statement
  | .query query => .query (query.rename r scopes)
  | .command parts => .command (renameParts r scopes parts)

/-- Changes the names in the parts of a command. -/
def renameParts (r : Renaming) (scopes : List Scope) : List Part → List Part
  | [] => []
  | part :: rest => part.rename r scopes :: renameParts r scopes rest

/-- Changes the names in a part of a command. -/
def Part.rename (r : Renaming) (scopes : List Scope) : Part → Part
  | .words text => .words text
  | .target name => .target (r.relation scopes name)
  | .expr value => .expr (value.rename r scopes)
  | .query query => .query (query.rename r scopes)
  | .tables joined => .tables (joined.rename r scopes)
  | .item item => .item (item.rename r scopes)
  | .statement statement => .statement (statement.rename r scopes)

end

/-- The site of an alias, when there is one. -/
def aliasSites (scopes : List Scope) (label : Option Alias) : List Site :=
  (label.map fun label => ⟨.label, [label.name], scopes⟩).toList

mutual

/-- The names in an expression. -/
def Expr.sites (scopes : List Scope) : Expr → List Site
  | .column name => [⟨.column, [name], scopes⟩]
  | .path parts => [⟨.path, parts, scopes⟩]
  | .allOf qualifier => [⟨.allOf, qualifier, scopes⟩]
  | .query body => body.sites scopes
  | .form _ operands => exprSites scopes operands

/-- The names in expressions. -/
def exprSites (scopes : List Scope) : List Expr → List Site
  | [] => []
  | expr :: rest => expr.sites scopes ++ exprSites scopes rest

/-- The names in a query, which has a scope of its own. -/
def Query.sites (scopes : List Scope) : Query → List Site
  | .mk recursive named body clauses =>
    let scopes := Scope.ofQuery (.mk recursive named body clauses) :: scopes
    body.qualifiers.map (fun name => ⟨.allOf, name, scopes⟩) ++ namedSites scopes named ++
      body.sites scopes ++ exprSites scopes clauses

/-- The names in the queries of a `WITH` clause. -/
def namedSites (scopes : List Scope) : List Named → List Site
  | [] => []
  | .mk _ body _ :: rest => body.sites scopes ++ namedSites scopes rest

/-- The names in the body of a query. -/
def Body.sites (scopes : List Scope) : Body → List Site
  | .select select => select.sites scopes
  | .query query => query.sites scopes
  | .combined _ left right => left.sites scopes ++ right.sites scopes
  | .values rows => exprSites scopes rows
  | .table _ => []
  | .command statement => statement.sites scopes

/-- The names in a select. -/
def Select.sites (scopes : List Scope) : Select → List Site
  | .mk start items _ tables clauses =>
    exprSites scopes start ++ itemSites scopes items ++ tableSites scopes tables ++
      exprSites scopes clauses

/-- The names in items, except what stands before `.*`. -/
def itemSites (scopes : List Scope) : List Item → List Site
  | [] => []
  | item :: rest => item.sites scopes ++ itemSites scopes rest

/-- The names in an item, except what stands before `.*`. -/
def Item.sites (scopes : List Scope) : Item → List Site
  | .expr value _ => value.sites scopes
  | .allOf _ options => exprSites scopes options
  | .all options => exprSites scopes options

/-- The names in tables with their joins. -/
def tableSites (scopes : List Scope) : List Joined → List Site
  | [] => []
  | joined :: rest => joined.sites scopes ++ tableSites scopes rest

/-- The names in a table and its joins. -/
def Joined.sites (scopes : List Scope) : Joined → List Site
  | .mk first joins => first.sites scopes ++ joinSites scopes joins

/-- The names in joins. -/
def joinSites (scopes : List Scope) : List Join → List Site
  | [] => []
  | .mk _ factor condition :: rest =>
    factor.sites scopes ++ exprSites scopes condition ++ joinSites scopes rest

/-- The names in a table, its alias first. -/
def Factor.sites (scopes : List Scope) : Factor → List Site
  | .table name details label hints =>
    aliasSites scopes label ++ [⟨.relation, name, scopes⟩] ++ exprSites scopes details ++
      exprSites scopes hints
  | .derived _ query label => aliasSites scopes label ++ query.sites scopes
  | .nested inner _ => inner.sites scopes
  | .transformed inner operation _ => inner.sites scopes ++ operation.sites scopes
  | .computed source _ _ => source.sites scopes

/-- The names in a statement. -/
def Statement.sites (scopes : List Scope) : Statement → List Site
  | .query query => query.sites scopes
  | .command parts => partSites scopes parts

/-- The names in the parts of a command. -/
def partSites (scopes : List Scope) : List Part → List Site
  | [] => []
  | part :: rest => part.sites scopes ++ partSites scopes rest

/-- The names in a part of a command. -/
def Part.sites (scopes : List Scope) : Part → List Site
  | .words _ => []
  | .target name => [⟨.relation, name, scopes⟩]
  | .expr value => value.sites scopes
  | .query query => query.sites scopes
  | .tables joined => joined.sites scopes
  | .item item => item.sites scopes
  | .statement statement => statement.sites scopes

end

end Relocate.Sql
