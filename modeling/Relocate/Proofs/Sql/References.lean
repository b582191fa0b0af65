import Relocate.Proofs.Sql.Matching

/-!
# All references of a query

`Query.references` lists every reference of a query in the order of the text:
tables wherever the grammar has one, qualified columns, and what stands before
`.*`.  Not all of them are sites of the walk.  A rewriter does not reach the
argument `t.*` of a call, a locked table, the table of an `INTO` and of a
`TABLE`, the source of a named query, a pivoted or an assigned column, a column
that parts are selected from, and the `t.*` that a command returns.

`Statement.rewrite_query_references` says which references a rule replaces, and
that none is missed exactly when all that should follow the rule are reached.
-/

namespace Relocate.Sql

open Catalog Text

/-! ## Names that a query introduces -/

/-- The queries of the `WITH` clause. -/
def Query.namedQueries : Query → List Named
  | .mk _ named _ _ => named

/-- The body of the query. -/
def Query.body : Query → Body
  | .mk _ _ body _ => body

/-- The name that a table introduces: its alias, or the last of several
identifiers of a table without one. -/
def Factor.introduced? : Factor → Option String
  | .table name _ none _ => if 1 < name.length then name.getLast?.map Ident.value else none
  | .table _ _ (some label) _ => some label.name.value
  | .derived _ _ label => label.map fun label => label.name.value
  | .nested _ label => label.map fun label => label.name.value
  | .transformed _ _ label => label.map fun label => label.name.value
  | .computed _ label _ => label.map fun label => label.name.value

mutual

/-- The table and the tables in it. -/
def Factor.within : Factor → List Factor
  | .table name details label hints => [.table name details label hints]
  | .derived lateral query label => [.derived lateral query label]
  | .nested inner label => .nested inner label :: inner.factors
  | .transformed inner operation label => .transformed inner operation label :: inner.within
  | .computed source label suffix => [.computed source label suffix]

/-- The tables among these, which are joined. -/
def Joined.factors : Joined → List Factor
  | .mk first joins => first.within ++ joinFactors joins

/-- The tables of joins. -/
def joinFactors : List Join → List Factor
  | [] => []
  | .mk _ factor _ :: rest => factor.within ++ joinFactors rest

end

/-- The tables in the `FROM` clauses of the query. -/
def Query.factors (query : Query) : List Factor :=
  (query.body.selects.flatMap Select.tables).flatMap Joined.factors

/-- The query introduces the name, for a query of its `WITH` clause or for a
table of its `FROM` clauses. -/
def Query.Introduces (query : Query) (name : String) : Prop :=
  (∃ named ∈ query.namedQueries, named.label = name) ∨
    ∃ factor ∈ query.factors, factor.introduced? = some name

theorem mem_aliasName {label : Option Alias} {name : String} :
    name ∈ aliasName label ↔ label.map (fun label => label.name.value) = some name := by
  cases label <;> simp [aliasName, eq_comm]

theorem mem_lastPart {table : Name} {name : String} :
    name ∈ lastPart table ↔
      (if 1 < table.length then table.getLast?.map Ident.value else none) = some name := by
  unfold lastPart
  split
  · simp
  · simp
  · rename_i hnil hone
    have hlength : 1 < table.length := by
      match table with
      | [] => exact absurd rfl hnil
      | [ident] => exact absurd rfl (hone ident)
      | first :: second :: rest => simp
    rw [if_pos hlength, Option.mem_toList]

mutual

theorem Factor.mem_localNames (name : String) :
    ∀ factor : Factor,
      name ∈ factor.localNames ↔ ∃ inner ∈ factor.within, inner.introduced? = some name
  | .table table details none hints => by
      simp [Factor.localNames, Factor.within, Factor.introduced?, mem_lastPart]
  | .table table details (some label) hints => by
      simp [Factor.localNames, Factor.within, Factor.introduced?, eq_comm]
  | .derived lateral query label => by
      simp [Factor.localNames, Factor.within, Factor.introduced?, mem_aliasName]
  | .nested inner label => by
      rw [Factor.localNames, Factor.within, List.mem_append, List.exists_mem_cons_iff,
        mem_aliasName, Joined.mem_localNames name inner, or_comm]
      rfl
  | .transformed inner operation label => by
      rw [Factor.localNames, Factor.within, List.mem_append, List.exists_mem_cons_iff,
        mem_aliasName, Factor.mem_localNames name inner, or_comm]
      rfl
  | .computed source label suffix => by
      simp [Factor.localNames, Factor.within, Factor.introduced?, mem_aliasName]

theorem Joined.mem_localNames (name : String) :
    ∀ joined : Joined,
      name ∈ joined.localNames ↔ ∃ inner ∈ joined.factors, inner.introduced? = some name
  | .mk first joins => by
      simp only [Joined.localNames, Joined.factors, List.mem_append, or_and_right, exists_or,
        Factor.mem_localNames name first, mem_joinsLocalNames name joins]

theorem mem_joinsLocalNames (name : String) :
    ∀ joins : List Join,
      name ∈ joinsLocalNames joins ↔
        ∃ inner ∈ joinFactors joins, inner.introduced? = some name
  | [] => by simp [joinsLocalNames, joinFactors]
  | .mk words factor condition :: rest => by
      simp only [joinsLocalNames, joinFactors, List.mem_append, or_and_right, exists_or,
        Factor.mem_localNames name factor, mem_joinsLocalNames name rest]

end

/-- The local names of a scope are the names that its query introduces. -/
theorem Scope.mem_qualifiers_ofQuery {query : Query} {name : String} :
    name ∈ (Scope.ofQuery query).qualifiers ↔ query.Introduces name := by
  obtain ⟨recursive, named, body, clauses⟩ := query
  simp only [Scope.ofQuery, Query.Introduces, Query.namedQueries, Query.factors, Query.body,
    List.mem_append, List.mem_map, List.mem_flatMap, Joined.mem_localNames]
  constructor
  · rintro (hnamed | ⟨joined, hjoined, factor, hfactor, hname⟩)
    · exact .inl hnamed
    · exact .inr ⟨factor, ⟨joined, hjoined, hfactor⟩, hname⟩
  · rintro (hnamed | ⟨factor, ⟨joined, hjoined, hfactor⟩, hname⟩)
    · exact .inl hnamed
    · exact .inr ⟨joined, hjoined, factor, hfactor, hname⟩

/-! ## References and what should become of them -/

/-- A place where a name refers to an object, with the queries around it, the
innermost first. -/
structure Reference where
  /-- A table, a qualified column, or what stands before `.*`. -/
  role : Role
  name : Name
  /-- The place is a site of the walk. -/
  reached : Bool
  around : List Query

/-- The site of a reference. -/
def Reference.site (reference : Reference) : Site :=
  ⟨reference.role, reference.name, reference.around.map Scope.ofQuery⟩

/-- The first identifier, if any, is introduced by a query around the reference. -/
def Reference.StartsLocal (reference : Reference) : Prop :=
  ∀ first ∈ reference.name.head?, ∃ query ∈ reference.around, ∃ name,
    query.Introduces name ∧ sameFold name first.value = true

/-- The reference is not to an object that the rule could move: a single
identifier that names a query of a `WITH` clause around it, or a column or `t.*`
whose qualifier is shorter than the source or starts with a local name. -/
def Reference.Exempt (rule : Rule) (reference : Reference) : Prop :=
  match reference.role with
  | .relation =>
    ∃ ident, reference.name = [ident] ∧ ∃ query ∈ reference.around, ∃ named ∈ query.namedQueries,
      sameFold named.label ident.value = true
  | .path => reference.name.length - 1 < rule.source.length ∨ reference.StartsLocal
  | .allOf => reference.name.length < rule.source.length ∨ reference.StartsLocal
  | .column | .label => True

/-- The reference starts with the source, and so should start with the
destination after the rule. -/
def Reference.ShouldMove (rule : Rule) (reference : Reference) : Prop :=
  reference.name.StartsWith rule.source ∧ ¬ reference.Exempt rule

/-- The name after a rewriter has gone over the query. -/
def Reference.after (rule : Rule) (reference : Reference) : Name :=
  if reference.reached then reference.site.after rule else reference.name

theorem Reference.startsLocal_site (reference : Reference) :
    reference.site.StartsLocal ↔ reference.StartsLocal := by
  simp [Site.StartsLocal, Reference.StartsLocal, Reference.site, Scope.mem_qualifiers_ofQuery]

theorem Scope.named_ofQuery (query : Query) :
    (Scope.ofQuery query).named = query.namedQueries.map Named.label := by
  obtain ⟨recursive, named, body, clauses⟩ := query
  rfl

/-- What a scope tells about a reference is what the queries around it say. -/
theorem Reference.isReplaced_site (rule : Rule) (reference : Reference) :
    reference.site.IsReplaced rule ↔ reference.ShouldMove rule := by
  have hlocal := reference.startsLocal_site
  obtain ⟨role, name, reached, around⟩ := reference
  unfold Site.IsReplaced Reference.ShouldMove Site.Exempt Reference.Exempt
  cases role with
  | relation => simp [Reference.site, Scope.named_ofQuery]
  | path => rw [← hlocal]; rfl
  | allOf => rw [← hlocal]; rfl
  | column => rfl
  | label => rfl

theorem Reference.after_eq_replaced
    {rule : Rule} {reference : Reference} (hreached : reference.reached = true)
    (hmove : reference.ShouldMove rule) :
    reference.after rule = reference.name.replaced rule := by
  have hreplaced := (reference.isReplaced_site rule).mpr hmove
  rw [Reference.after, if_pos hreached, Site.after, if_pos hreplaced]
  rfl

theorem Reference.after_eq_self
    {rule : Rule} {reference : Reference}
    (hstays : reference.reached = false ∨ ¬ reference.ShouldMove rule) :
    reference.after rule = reference.name := by
  unfold Reference.after
  rcases hstays with hreached | hmove
  · simp [hreached]
  · rw [← Reference.isReplaced_site] at hmove
    rw [Site.after, if_neg hmove]
    exact ite_self _

/-! ## The references of a statement -/

/-- The identifiers that are selected from a value one after the other. -/
def leadingFields : List Link → List Expr → Name
  | .field :: links, .column ident :: rest => ident :: leadingFields links rest
  | _, _ => []

/-- The column that parts are selected from. -/
def accessedColumn? (links : List Link) : List Expr → Option Name
  | .column root :: rest => some (root :: leadingFields links rest)
  | _ => none

/-- The references that an operation holds apart from its operands. -/
def Form.references (around : List Query) (form : Form) (operands : List Expr) :
    List Reference :=
  match form with
  | .mention .table _ name _ => [⟨.relation, name, false, around⟩]
  | .mention .column _ name _ => [⟨.path, name, false, around⟩]
  | .mention .allOf _ name _ => [⟨.allOf, name, false, around⟩]
  | .access links =>
    (accessedColumn? links operands).toList.map fun name => ⟨.path, name, false, around⟩
  | _ => []

mutual

/-- The references in an expression. -/
def Expr.references (around : List Query) : Expr → List Reference
  | .column _ => []
  | .path parts => [⟨.path, parts, true, around⟩]
  | .allOf qualifier => [⟨.allOf, qualifier, true, around⟩]
  | .query body => body.references around
  | .form form operands => form.references around operands ++ exprReferences around operands

/-- The references in expressions. -/
def exprReferences (around : List Query) : List Expr → List Reference
  | [] => []
  | expr :: rest => expr.references around ++ exprReferences around rest

/-- The references in a query. -/
def Query.references (around : List Query) : Query → List Reference
  | .mk recursive named body clauses =>
    let around := .mk recursive named body clauses :: around
    namedReferences around named ++ body.references around ++ exprReferences around clauses

/-- The references in the queries of a `WITH` clause, and their sources. -/
def namedReferences (around : List Query) : List Named → List Reference
  | [] => []
  | .mk _ body source :: rest =>
    body.references around ++
      source.toList.map (fun ident => ⟨.relation, [ident], false, around⟩) ++
      namedReferences around rest

/-- The references in the body of a query. -/
def Body.references (around : List Query) : Body → List Reference
  | .select select => select.references around
  | .query query => query.references around
  | .combined _ left right => left.references around ++ right.references around
  | .values rows => exprReferences around rows
  | .table words => [⟨.relation, words.map Ident.bare, false, around⟩]
  | .command statement => statement.references around

/-- The references in a select. -/
def Select.references (around : List Query) : Select → List Reference
  | .mk start items target tables clauses =>
    exprReferences around start ++ itemReferences around items ++
      target.toList.map (fun target => ⟨.relation, target.name, false, around⟩) ++
      tableReferences around tables ++ exprReferences around clauses

/-- The references in the items of a select. -/
def itemReferences (around : List Query) : List Item → List Reference
  | [] => []
  | item :: rest => item.references around true ++ itemReferences around rest

/-- The references in an item; only those of a select reach what is before `.*`. -/
def Item.references (around : List Query) (reached : Bool) : Item → List Reference
  | .expr value _ => value.references around
  | .allOf qualifier options =>
    ⟨.allOf, qualifier, reached, around⟩ :: exprReferences around options
  | .all options => exprReferences around options

/-- The references in tables with their joins. -/
def tableReferences (around : List Query) : List Joined → List Reference
  | [] => []
  | joined :: rest => joined.references around ++ tableReferences around rest

/-- The references in a table and its joins. -/
def Joined.references (around : List Query) : Joined → List Reference
  | .mk first joins => first.references around ++ joinReferences around joins

/-- The references in joins. -/
def joinReferences (around : List Query) : List Join → List Reference
  | [] => []
  | .mk _ factor condition :: rest =>
    factor.references around ++ exprReferences around condition ++ joinReferences around rest

/-- The references in a table. -/
def Factor.references (around : List Query) : Factor → List Reference
  | .table name details _ hints =>
    ⟨.relation, name, true, around⟩ :: exprReferences around details ++
      exprReferences around hints
  | .derived _ query _ => query.references around
  | .nested inner _ => inner.references around
  | .transformed inner operation _ => inner.references around ++ operation.references around
  | .computed source _ _ => source.references around

/-- The references in a statement. -/
def Statement.references (around : List Query) : Statement → List Reference
  | .query query => query.references around
  | .command parts => partReferences around parts

/-- The references in the parts of a command. -/
def partReferences (around : List Query) : List Part → List Reference
  | [] => []
  | part :: rest => part.references around ++ partReferences around rest

/-- The references in a part of a command. -/
def Part.references (around : List Query) : Part → List Reference
  | .words _ => []
  | .target name => [⟨.relation, name, true, around⟩]
  | .expr value => value.references around
  | .query query => query.references around
  | .tables joined => joined.references around
  | .item item => item.references around false
  | .statement statement => statement.references around

end

/-! ## What a rewriter makes of them -/

/-- What is written at a reference. -/
def Reference.spelling (reference : Reference) : Role × Name :=
  (reference.role, reference.name)

/-- The references after are those before, each as a rewriter leaves it. -/
def Moves (rule : Rule) (before after : List Reference) : Prop :=
  after.map Reference.spelling =
    before.map fun reference => (reference.role, reference.after rule)

namespace Moves

variable {rule : Rule} {before after front newFront : List Reference}

theorem nil : Moves rule [] [] := rfl

theorem append
    (hfront : Moves rule front newFront) (hrest : Moves rule before after) :
    Moves rule (front ++ before) (newFront ++ after) := by
  unfold Moves at *
  rw [List.map_append, List.map_append, hfront, hrest]

/-- References that a rewriter does not reach stay. -/
theorem unreached
    {α : Type} (role : Role) (name : α → Name) (values : List α) (around inner : List Query) :
    Moves rule (values.map fun value => ⟨role, name value, false, around⟩)
      (values.map fun value => ⟨role, name value, false, inner⟩) := by
  unfold Moves
  rw [List.map_map, List.map_map]
  rfl

end Moves

theorem leadingFields_rename
    (rule : Rule) (scopes : List Scope) (links : List Link) (rest : List Expr) :
    leadingFields links (renameExprs (.replacing rule) scopes rest) =
      leadingFields links rest := by
  induction links generalizing rest with
  | nil => rfl
  | cons link links ih =>
      cases link with
      | element => rfl
      | field =>
          cases rest with
          | nil => rfl
          | cons expr rest =>
              cases expr with
              | column ident =>
                  rw [renameExprs, Expr.rename, leadingFields, leadingFields, ih]
                  rfl
              | path parts => rfl
              | allOf qualifier => rfl
              | query body => rfl
              | form form operands => rfl

theorem accessedColumn?_rename
    (rule : Rule) (scopes : List Scope) (links : List Link) (operands : List Expr) :
    accessedColumn? links (renameExprs (.replacing rule) scopes operands) =
      accessedColumn? links operands := by
  cases operands with
  | nil => rfl
  | cons expr rest =>
      cases expr with
      | column ident =>
          rw [renameExprs, Expr.rename, accessedColumn?, accessedColumn?, leadingFields_rename]
          rfl
      | path parts => rfl
      | allOf qualifier => rfl
      | query body => rfl
      | form form operands => rfl

theorem Form.moves
    (rule : Rule) (around inner : List Query) (form : Form) (operands : List Expr) :
    Moves rule (form.references around operands)
      (form.references inner
        (renameExprs (.replacing rule) (around.map Scope.ofQuery) operands)) := by
  cases form with
  | mention kind opening name closing => cases kind <;> rfl
  | access links =>
      rw [Form.references, Form.references, accessedColumn?_rename]
      exact Moves.unreached .path id _ around inner
  | constant text => rfl
  | enclosed opening closing => rfl
  | infixOp operator => rfl
  | sequence => rfl
  | reversed => rfl
  | slice lower upper stride => rfl
  | choice operand branches default => rfl
  | trim side => rfl
  | call name parts nulls => rfl

section Walk

variable (rule : Rule)

mutual

theorem Expr.moves (around inner : List Query) :
    ∀ expr : Expr, Moves rule (expr.references around)
      ((expr.rename (.replacing rule) (around.map Scope.ofQuery)).references inner)
  | .column name => .nil
  | .path parts => rfl
  | .allOf qualifier => rfl
  | .query body => by
      rw [Expr.rename, Expr.references, Expr.references]
      exact Query.moves around inner body
  | .form form operands => by
      rw [Expr.rename, Expr.references, Expr.references]
      exact (Form.moves rule around inner form operands).append
        (exprReferences_move around inner operands)

theorem exprReferences_move (around inner : List Query) :
    ∀ exprs : List Expr, Moves rule (exprReferences around exprs)
      (exprReferences inner (renameExprs (.replacing rule) (around.map Scope.ofQuery) exprs))
  | [] => .nil
  | expr :: rest => by
      rw [renameExprs, exprReferences, exprReferences]
      exact (Expr.moves around inner expr).append (exprReferences_move around inner rest)

theorem Query.moves (around inner : List Query) :
    ∀ query : Query, Moves rule (query.references around)
      ((query.rename (.replacing rule) (around.map Scope.ofQuery)).references inner)
  | .mk recursive named body clauses => by
      let own := .mk recursive named body clauses :: around
      rw [Query.rename, Query.references, Query.references]
      exact ((namedReferences_move own _ named).append (Body.moves own _ body)).append
        (exprReferences_move own _ clauses)

theorem namedReferences_move (around inner : List Query) :
    ∀ named : List Named, Moves rule (namedReferences around named)
      (namedReferences inner (renameNamed (.replacing rule) (around.map Scope.ofQuery) named))
  | [] => .nil
  | .mk name body source :: rest => by
      rw [renameNamed, namedReferences, namedReferences]
      exact ((Query.moves around inner body).append
        (Moves.unreached .relation (fun ident => [ident]) source.toList around inner)).append
          (namedReferences_move around inner rest)

theorem Body.moves (around inner : List Query) :
    ∀ body : Body, Moves rule (body.references around)
      ((body.rename (.replacing rule) (around.map Scope.ofQuery)).references inner)
  | .select select => by
      rw [Body.rename, Body.references, Body.references]
      exact Select.moves around inner select
  | .query query => by
      rw [Body.rename, Body.references, Body.references]
      exact Query.moves around inner query
  | .combined operator left right => by
      rw [Body.rename, Body.references, Body.references]
      exact (Body.moves around inner left).append (Body.moves around inner right)
  | .values rows => by
      rw [Body.rename, Body.references, Body.references]
      exact exprReferences_move around inner rows
  | .table words => rfl
  | .command statement => by
      rw [Body.rename, Body.references, Body.references]
      exact Statement.moves around inner statement

theorem Select.moves (around inner : List Query) :
    ∀ select : Select, Moves rule (select.references around)
      ((select.rename (.replacing rule) (around.map Scope.ofQuery)).references inner)
  | .mk start items target tables clauses => by
      rw [Select.rename, Select.references, Select.references]
      exact ((((exprReferences_move around inner start).append
        (itemReferences_move around inner items)).append
          (Moves.unreached .relation Target.name target.toList around inner)).append
          (tableReferences_move around inner tables)).append
            (exprReferences_move around inner clauses)

theorem itemReferences_move (around inner : List Query) :
    ∀ items : List Item, Moves rule (itemReferences around items)
      (itemReferences inner
        ((renameItems (.replacing rule) (around.map Scope.ofQuery) items).map
          (Item.mapQualifier ((Renaming.replacing rule).allOf (around.map Scope.ofQuery)))))
  | [] => .nil
  | .expr value name :: rest => by
      rw [renameItems, Item.rename, List.map_cons, itemReferences, itemReferences]
      exact (Expr.moves around inner value).append (itemReferences_move around inner rest)
  | .allOf qualifier options :: rest => by
      have hqualifier : Moves rule [⟨.allOf, qualifier, true, around⟩]
          [⟨.allOf, (Renaming.replacing rule).allOf (around.map Scope.ofQuery) qualifier, true,
            inner⟩] := rfl
      rw [renameItems, Item.rename, List.map_cons, itemReferences, itemReferences]
      exact (hqualifier.append (exprReferences_move around inner options)).append
        (itemReferences_move around inner rest)
  | .all options :: rest => by
      rw [renameItems, Item.rename, List.map_cons, itemReferences, itemReferences]
      exact (exprReferences_move around inner options).append
        (itemReferences_move around inner rest)

/-- The item is not in a select, so what stands before `.*` stays. -/
theorem Item.moves (around inner : List Query) :
    ∀ item : Item, Moves rule (item.references around false)
      ((item.rename (.replacing rule) (around.map Scope.ofQuery)).references inner false)
  | .expr value name => by
      rw [Item.rename, Item.references, Item.references]
      exact Expr.moves around inner value
  | .allOf qualifier options => by
      rw [Item.rename, Item.references, Item.references]
      exact (Moves.unreached .allOf id [qualifier] around inner).append
        (exprReferences_move around inner options)
  | .all options => by
      rw [Item.rename, Item.references, Item.references]
      exact exprReferences_move around inner options

theorem tableReferences_move (around inner : List Query) :
    ∀ tables : List Joined, Moves rule (tableReferences around tables)
      (tableReferences inner (renameTables (.replacing rule) (around.map Scope.ofQuery) tables))
  | [] => .nil
  | joined :: rest => by
      rw [renameTables, tableReferences, tableReferences]
      exact (Joined.moves around inner joined).append (tableReferences_move around inner rest)

theorem Joined.moves (around inner : List Query) :
    ∀ joined : Joined, Moves rule (joined.references around)
      ((joined.rename (.replacing rule) (around.map Scope.ofQuery)).references inner)
  | .mk first joins => by
      rw [Joined.rename, Joined.references, Joined.references]
      exact (Factor.moves around inner first).append (joinReferences_move around inner joins)

theorem joinReferences_move (around inner : List Query) :
    ∀ joins : List Join, Moves rule (joinReferences around joins)
      (joinReferences inner (renameJoins (.replacing rule) (around.map Scope.ofQuery) joins))
  | [] => .nil
  | .mk words factor condition :: rest => by
      rw [renameJoins, joinReferences, joinReferences]
      exact ((Factor.moves around inner factor).append
        (exprReferences_move around inner condition)).append
          (joinReferences_move around inner rest)

theorem Factor.moves (around inner : List Query) :
    ∀ factor : Factor, Moves rule (factor.references around)
      ((factor.rename (.replacing rule) (around.map Scope.ofQuery)).references inner)
  | .table name details label hints => by
      have hname : Moves rule [⟨.relation, name, true, around⟩]
          [⟨.relation, (Renaming.replacing rule).relation (around.map Scope.ofQuery) name, true,
            inner⟩] := rfl
      rw [Factor.rename, Factor.references, Factor.references]
      exact (hname.append (exprReferences_move around inner details)).append
        (exprReferences_move around inner hints)
  | .derived lateral query label => by
      rw [Factor.rename, Factor.references, Factor.references]
      exact Query.moves around inner query
  | .nested joined label => by
      rw [Factor.rename, Factor.references, Factor.references]
      exact Joined.moves around inner joined
  | .transformed factor operation label => by
      rw [Factor.rename, Factor.references, Factor.references]
      exact (Factor.moves around inner factor).append (Expr.moves around inner operation)
  | .computed source label suffix => by
      rw [Factor.rename, Factor.references, Factor.references]
      exact Expr.moves around inner source

theorem Statement.moves (around inner : List Query) :
    ∀ statement : Statement, Moves rule (statement.references around)
      ((statement.rename (.replacing rule) (around.map Scope.ofQuery)).references inner)
  | .query query => by
      rw [Statement.rename, Statement.references, Statement.references]
      exact Query.moves around inner query
  | .command parts => by
      rw [Statement.rename, Statement.references, Statement.references]
      exact partReferences_move around inner parts

theorem partReferences_move (around inner : List Query) :
    ∀ parts : List Part, Moves rule (partReferences around parts)
      (partReferences inner (renameParts (.replacing rule) (around.map Scope.ofQuery) parts))
  | [] => .nil
  | part :: rest => by
      rw [renameParts, partReferences, partReferences]
      exact (Part.moves around inner part).append (partReferences_move around inner rest)

theorem Part.moves (around inner : List Query) :
    ∀ part : Part, Moves rule (part.references around)
      ((part.rename (.replacing rule) (around.map Scope.ofQuery)).references inner)
  | .words text => .nil
  | .target name => rfl
  | .expr value => by
      rw [Part.rename, Part.references, Part.references]
      exact Expr.moves around inner value
  | .query query => by
      rw [Part.rename, Part.references, Part.references]
      exact Query.moves around inner query
  | .tables joined => by
      rw [Part.rename, Part.references, Part.references]
      exact Joined.moves around inner joined
  | .item item => by
      rw [Part.rename, Part.references, Part.references]
      exact Item.moves around inner item
  | .statement statement => by
      rw [Part.rename, Part.references, Part.references]
      exact Statement.moves around inner statement

end

end Walk

/-! ## Missed references -/

instance (rule : Rule) (reference : Reference) : Decidable (reference.ShouldMove rule) :=
  decidable_of_iff _ (reference.isReplaced_site rule)

theorem Reference.after_eq (rule : Rule) (reference : Reference) :
    reference.after rule =
      if reference.reached = true ∧ reference.ShouldMove rule then
        reference.name.replaced rule
      else reference.name := by
  by_cases hmoves : reference.reached = true ∧ reference.ShouldMove rule
  · rw [if_pos hmoves]
    exact Reference.after_eq_replaced hmoves.1 hmoves.2
  · rw [if_neg hmoves]
    apply Reference.after_eq_self
    by_cases hreached : reference.reached = true
    · exact .inr fun hmove => hmoves ⟨hreached, hmove⟩
    · exact .inl (by simpa using hreached)

/-- Every reference of the query that should move stands in the query after with
the destination in front. -/
def Query.MissesNone (rule : Rule) (query after : Query) : Prop :=
  ∀ (index : Nat) (reference : Reference),
    (query.references [])[index]? = some reference → reference.ShouldMove rule →
      (after.references [])[index]?.map Reference.spelling =
        some (reference.role, reference.name.replaced rule)

/-- A rule replaces the references that should move and are reached, and no
others.  So it misses none exactly when those that should move are all reached,
or are the same after the rule. -/
theorem Statement.rewrite_query_references
    (rule : Rule) (view : Path) (origin : String) (query : Query) :
    ∃ after : Query,
      ((Statement.query query).rewrite rule view origin).statement = .query after ∧
      (after.references []).map Reference.spelling =
        (query.references []).map (fun reference => (reference.role,
          if reference.reached = true ∧ reference.ShouldMove rule then
            reference.name.replaced rule
          else reference.name)) ∧
      (query.MissesNone rule after ↔
        ∀ reference ∈ query.references [], reference.ShouldMove rule →
          reference.reached = true ∨ reference.name.replaced rule = reference.name) := by
  have hmoves : Moves rule (query.references [])
      ((query.rename (.replacing rule) []).references []) := Query.moves rule [] [] query
  simp only [Moves, Reference.after_eq] at hmoves
  refine ⟨query.rename (.replacing rule) [], ?_, hmoves, ?_⟩
  · rw [Statement.rewrite_query, Renaming.ofRule_eq_replacing]
  · have hat : ∀ index : Nat,
        ((query.rename (.replacing rule) []).references [])[index]?.map Reference.spelling =
          (query.references [])[index]?.map fun reference => (reference.role,
            if reference.reached = true ∧ reference.ShouldMove rule then
              reference.name.replaced rule
            else reference.name) := by
      intro index
      rw [← List.getElem?_map, hmoves, List.getElem?_map]
    constructor
    · intro hnone reference hmem hmove
      obtain ⟨index, hindex⟩ := List.mem_iff_getElem?.mp hmem
      have hafter := hnone index reference hindex hmove
      rw [hat, hindex] at hafter
      by_cases hreached : reference.reached = true
      · exact .inl hreached
      · rw [Option.map_some, if_neg fun hboth => hreached hboth.1, Option.some.injEq,
          Prod.mk.injEq] at hafter
        exact .inr hafter.2.symm
    · intro hreached index reference hindex hmove
      rw [hat, hindex]
      rcases hreached reference (List.mem_of_getElem? hindex) hmove with htrue | hsame
      · rw [Option.map_some, if_pos ⟨htrue, hmove⟩]
      · rw [Option.map_some, hsame, ite_self]

/-- `SELECT COUNT(Prod.Sales.Orders.*) FROM Prod.Sales.Orders` -/
def countOfOrders : Query :=
  let orders : Name := [.bare "Prod", .bare "Sales", .bare "Orders"]
  let count : Expr := .form (.call [.bare "COUNT"] [.arguments] "")
    [.enclosed "(" [.mention .allOf "" orders ".*"] ")"]
  .mk false []
    (.select (.mk [] [.expr count none] none [.mk (.table orders [] none []) []] [])) []

/-- The argument of the call should follow the table, but stays. -/
theorem rewrite_countOfOrders_misses :
    ∃ after : Query,
      ((Statement.query countOfOrders).rewrite
        ⟨["Prod", "Sales"], ["Analytics", "Sales"]⟩ ["Analytics", "Report"]
        "Source migration").statement = .query after ∧
      ¬ countOfOrders.MissesNone ⟨["Prod", "Sales"], ["Analytics", "Sales"]⟩ after := by
  rw [Statement.rewrite_query, Renaming.ofRule_eq_replacing]
  refine ⟨_, rfl, ?_⟩
  intro hnone
  have hargument := hnone 0
    ⟨.allOf, [.bare "Prod", .bare "Sales", .bare "Orders"], false, [countOfOrders]⟩ rfl
    (by decide)
  have hstays : (Role.allOf, [Ident.bare "Prod", Ident.bare "Sales", Ident.bare "Orders"]) =
      (Role.allOf, [Ident.bare "Analytics", Ident.bare "Sales", Ident.bare "Orders"]) :=
    Option.some.inj hargument
  exact absurd hstays (by decide)

end Relocate.Sql
