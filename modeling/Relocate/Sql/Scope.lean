import Relocate.Sql.Syntax
import Relocate.Text.Fold

/-!
# Names introduced by a query

Inside a query some names do not stand for objects of the catalog: the queries
named in its `WITH` clause, the aliases of its tables, and the last part of a
table that has several parts and no alias.  A `Scope` collects them for one
query; nested queries have scopes of their own, kept in a list with the innermost
first.

The scope also knows the tables of the query with the clause each stands in.
They are taken out one after the other while the query is visited, so that two
tables of the same name get the clause of the first and of the second.
-/

namespace Relocate.Sql

open Text

/-- Where a reference stands, for messages. -/
inductive Clause
  | table
  | join
  | union
  | subquery
  | value
deriving DecidableEq, Repr

/-- The name of the clause in messages. -/
def Clause.label : Clause → String
  | table => "FROM"
  | join => "JOIN"
  | union => "UNION"
  | subquery => "SUBQUERY"
  | value => "VALUE"

/-- The alias as a local name. -/
def aliasName (label : Option Alias) : List String :=
  (label.map fun label => label.name.value).toList

/-- The last part of a table with several parts, as a local name. -/
def lastPart (name : Name) : List String :=
  match name with
  | [] | [_] => []
  | _ => (name.getLast?.map Ident.value).toList

mutual

/-- The local names that a table introduces. -/
def Factor.localNames : Factor → List String
  | .table name _ none _ => lastPart name
  | .table _ _ (some label) _ => [label.name.value]
  | .derived _ _ label => aliasName label
  | .nested inner label => inner.localNames ++ aliasName label
  | .transformed inner _ label => inner.localNames ++ aliasName label
  | .computed _ label _ => aliasName label

/-- The local names that a table and its joins introduce. -/
def Joined.localNames : Joined → List String
  | .mk first joins => first.localNames ++ joinsLocalNames joins

/-- The local names that joined tables introduce. -/
def joinsLocalNames : List Join → List String
  | [] => []
  | .mk _ factor _ :: rest => factor.localNames ++ joinsLocalNames rest

end

mutual

/-- The tables named in a table of a clause, in the order of visits. -/
def Factor.relations (clause : Clause) : Factor → List (String × Clause)
  | .table name _ _ _ => [(name.dotted, clause)]
  | .derived .. => []
  | .nested inner _ => inner.relations clause
  | .transformed inner _ _ => inner.relations clause
  | .computed .. => []

/-- The tables named in a table of a clause and in its joins. -/
def Joined.relations (clause : Clause) : Joined → List (String × Clause)
  | .mk first joins => first.relations clause ++ joinsRelations joins

/-- The tables named in joins. -/
def joinsRelations : List Join → List (String × Clause)
  | [] => []
  | .mk _ factor _ :: rest => factor.relations .join ++ joinsRelations rest

end

/-- The tables of a select. -/
def Select.tables : Select → List Joined
  | .mk _ _ _ tables _ => tables

/-- The selects that make up a body, left to right; nested queries have none of
them. -/
def Body.selects : Body → List Select
  | .select inner => [inner]
  | .combined _ left right => left.selects ++ right.selects
  | _ => []

/-- The body combines several bodies. -/
def Body.isCombined : Body → Bool
  | .combined .. => true
  | _ => false

/-- The name of a query in a `WITH` clause. -/
def Named.label : Named → String
  | .mk name _ _ => name.name.value

/-- The names introduced by one query. -/
structure Scope where
  /-- The names that a column may be qualified with. -/
  qualifiers : List String
  /-- The queries named in the `WITH` clause. -/
  named : List String
  /-- The tables of the query, dotted, with their clauses. -/
  relations : List (String × Clause)
  /-- The query combines several selects. -/
  combined : Bool
deriving DecidableEq, Repr

namespace Scope

/-- The scope of a query. -/
def ofQuery : Query → Scope
  | .mk _ named body _ =>
    let tables := body.selects.flatMap Select.tables
    { qualifiers := named.map Named.label ++ tables.flatMap Joined.localNames
      named := named.map Named.label
      relations := tables.flatMap (Joined.relations .table)
      combined := body.isCombined }

/-- A name stands for a query of a `WITH` clause of this or an enclosing query. -/
def isNamedQuery (scopes : List Scope) (name : Name) : Bool :=
  match name with
  | [ident] => scopes.any fun scope => scope.named.any (sameFold · ident.value)
  | _ => false

/-- An identifier stands for a table of this or an enclosing query. -/
def isLocal (scopes : List Scope) (ident : Ident) : Bool :=
  scopes.any fun scope => scope.qualifiers.any (sameFold · ident.value)

end Scope

/-- Takes the first table of this name out of a list. -/
def takeRelation (name : String) :
    List (String × Clause) → Option Clause × List (String × Clause)
  | [] => (none, [])
  | (found, clause) :: rest =>
    if found = name then (some clause, rest)
    else
      let (taken, rest) := takeRelation name rest
      (taken, (found, clause) :: rest)

end Relocate.Sql
