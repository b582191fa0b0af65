import Relocate.Sql.Names

/-!
# The sites of a renamed statement

A renaming keeps the shape of a statement, so the renamed statement has the same
sites in the same order.  Only the names at them change, and each changes by the
scopes that the statement had before: `Query.sites_rename`.
-/

namespace Relocate.Sql

/-- What is written at a site, whatever the scopes around it. -/
def Site.spelling (site : Site) : Role × Name :=
  (site.role, site.name)

/-- What is written at a site after a renaming. -/
def Renaming.spelling (r : Renaming) (site : Site) : Role × Name :=
  (site.role,
    match site.role with
    | .relation => r.relation site.scopes site.name
    | .column => site.name.map r.column
    | .path => r.path site.scopes site.name
    | .allOf => r.allOf site.scopes site.name
    | .label => site.name.map r.label)

/-- The queries that are named around a site, for each scope. -/
def Site.named (site : Site) : List (List String) :=
  site.scopes.map Scope.named

/-- The sites after are those before with their names changed by the renaming. -/
structure Respells (r : Renaming) (before after : List Site) : Prop where
  spelling : after.map Site.spelling = before.map r.spelling
  named : after.map Site.named = before.map Site.named

namespace Respells

variable {r : Renaming} {before after front newFront : List Site}

theorem nil : Respells r [] [] := ⟨rfl, rfl⟩

theorem append
    (hfront : Respells r front newFront) (hrest : Respells r before after) :
    Respells r (front ++ before) (newFront ++ after) where
  spelling := by
    rw [List.map_append, List.map_append, hfront.spelling, hrest.spelling]
  named := by
    rw [List.map_append, List.map_append, hfront.named, hrest.named]

theorem single
    {role : Role} {name newName : Name} {scopes inner : List Scope}
    (hspelling : (role, newName) = r.spelling ⟨role, name, scopes⟩)
    (hnamed : inner.map Scope.named = scopes.map Scope.named) :
    Respells r [⟨role, name, scopes⟩] [⟨role, newName, inner⟩] :=
  ⟨congrArg (fun spelling => [spelling]) hspelling, congrArg (fun named => [named]) hnamed⟩

end Respells

/-! ## What stands before `.*` -/

theorem qualifiers_map_mapQualifier (f : Name → Name) (items : List Item) :
    (items.map (Item.mapQualifier f)).filterMap Item.qualifier? =
      (items.filterMap Item.qualifier?).map f := by
  induction items with
  | nil => rfl
  | cons item rest ih =>
      rw [List.map_cons, List.filterMap_cons, List.filterMap_cons, ih]
      cases item <;> rfl

theorem qualifiers_renameItems (r : Renaming) (scopes : List Scope) (items : List Item) :
    (renameItems r scopes items).filterMap Item.qualifier? =
      items.filterMap Item.qualifier? := by
  induction items with
  | nil => rfl
  | cons item rest ih =>
      rw [renameItems, List.filterMap_cons, List.filterMap_cons, ih]
      cases item <;> rfl

theorem Body.selects_rename (r : Renaming) (scopes : List Scope) :
    ∀ body : Body, (body.rename r scopes).selects = body.selects.map (Select.rename r scopes)
  | .select _ => by simp [Body.rename, Body.selects]
  | .combined _ left right => by
      simp [Body.rename, Body.selects, selects_rename r scopes left,
        selects_rename r scopes right]
  | .query _ => by simp [Body.rename, Body.selects]
  | .values _ => by simp [Body.rename, Body.selects]
  | .table _ => by simp [Body.rename, Body.selects]
  | .command _ => by simp [Body.rename, Body.selects]

theorem Select.qualifiers_rename (r : Renaming) (scopes : List Scope) (select : Select) :
    (select.rename r scopes).items.filterMap Item.qualifier? =
      (select.items.filterMap Item.qualifier?).map (r.allOf scopes) := by
  obtain ⟨start, items, target, tables, clauses⟩ := select
  rw [Select.rename, Select.items, Select.items, qualifiers_map_mapQualifier,
    qualifiers_renameItems]

theorem Body.qualifiers_rename (r : Renaming) (scopes : List Scope) (body : Body) :
    (body.rename r scopes).qualifiers = body.qualifiers.map (r.allOf scopes) := by
  simp only [Body.qualifiers, Body.selects_rename, List.flatMap_map, List.map_flatMap,
    Select.qualifiers_rename]

theorem itemSites_map_mapQualifier
    (f : Name → Name) (scopes : List Scope) (items : List Item) :
    itemSites scopes (items.map (Item.mapQualifier f)) = itemSites scopes items := by
  induction items with
  | nil => rfl
  | cons item rest ih =>
      rw [List.map_cons, itemSites, itemSites, ih]
      cases item <;> rfl

/-! ## All sites of a statement -/

theorem aliasSites_respells
    (r : Renaming) {scopes inner : List Scope}
    (hnamed : inner.map Scope.named = scopes.map Scope.named) (label : Option Alias) :
    Respells r (aliasSites scopes label)
      (aliasSites inner (label.map (Alias.rename r.label))) := by
  cases label with
  | none => exact Respells.nil
  | some label => exact Respells.single rfl hnamed

/-- Renaming keeps the names of the queries in a `WITH` clause. -/
theorem labels_renameNamed (r : Renaming) (scopes : List Scope) (named : List Named) :
    (renameNamed r scopes named).map Named.label = named.map Named.label := by
  induction named with
  | nil => rfl
  | cons first rest ih =>
      obtain ⟨name, body, source⟩ := first
      rw [renameNamed, List.map_cons, List.map_cons, ih]
      rfl

theorem Scope.named_cons_rename
    (r : Renaming) {scopes inner : List Scope}
    (hnamed : inner.map Scope.named = scopes.map Scope.named)
    (recursive : Bool) (named : List Named) (body : Body) (clauses : List Expr) :
    let own := Scope.ofQuery (.mk recursive named body clauses) :: scopes
    (Scope.ofQuery (.mk recursive (renameNamed r own named) (body.rename r own)
        (renameExprs r own clauses)) :: inner).map Scope.named = own.map Scope.named := by
  intro own
  rw [List.map_cons, List.map_cons, hnamed]
  exact congrArg (· :: scopes.map Scope.named) (labels_renameNamed r own named)

theorem allOfSites_respell
    (r : Renaming) {scopes inner : List Scope}
    (hnamed : inner.map Scope.named = scopes.map Scope.named) (names : List Name) :
    Respells r (names.map fun name => ⟨.allOf, name, scopes⟩)
      ((names.map (r.allOf scopes)).map fun name => ⟨.allOf, name, inner⟩) := by
  induction names with
  | nil => exact Respells.nil
  | cons name rest ih => exact (Respells.single rfl hnamed).append ih

section Walk

variable (r : Renaming)

mutual

theorem Expr.respells {scopes inner : List Scope}
    (hnamed : inner.map Scope.named = scopes.map Scope.named) :
    ∀ expr : Expr, Respells r (expr.sites scopes) ((expr.rename r scopes).sites inner)
  | .column name => .single rfl hnamed
  | .path parts => .single rfl hnamed
  | .allOf qualifier => .single rfl hnamed
  | .query body => by
      rw [Expr.rename, Expr.sites, Expr.sites]
      exact Query.respells hnamed body
  | .form form operands => by
      rw [Expr.rename, Expr.sites, Expr.sites]
      exact exprSites_respells hnamed operands

theorem exprSites_respells {scopes inner : List Scope}
    (hnamed : inner.map Scope.named = scopes.map Scope.named) :
    ∀ exprs : List Expr,
      Respells r (exprSites scopes exprs) (exprSites inner (renameExprs r scopes exprs))
  | [] => .nil
  | expr :: rest => by
      rw [renameExprs, exprSites, exprSites]
      exact (Expr.respells hnamed expr).append (exprSites_respells hnamed rest)

theorem Query.respells {scopes inner : List Scope}
    (hnamed : inner.map Scope.named = scopes.map Scope.named) :
    ∀ query : Query, Respells r (query.sites scopes) ((query.rename r scopes).sites inner)
  | .mk recursive named body clauses => by
      rw [Query.rename, Query.sites, Query.sites]
      have hinner := Scope.named_cons_rename r hnamed recursive named body clauses
      refine Respells.append (Respells.append (Respells.append ?_ ?_) ?_) ?_
      · rw [Body.qualifiers_rename]
        exact allOfSites_respell r hinner body.qualifiers
      · exact namedSites_respells hinner named
      · exact Body.respells hinner body
      · exact exprSites_respells hinner clauses

theorem namedSites_respells {scopes inner : List Scope}
    (hnamed : inner.map Scope.named = scopes.map Scope.named) :
    ∀ named : List Named,
      Respells r (namedSites scopes named) (namedSites inner (renameNamed r scopes named))
  | [] => .nil
  | .mk name body source :: rest => by
      rw [renameNamed, namedSites, namedSites]
      exact (Query.respells hnamed body).append (namedSites_respells hnamed rest)

theorem Body.respells {scopes inner : List Scope}
    (hnamed : inner.map Scope.named = scopes.map Scope.named) :
    ∀ body : Body, Respells r (body.sites scopes) ((body.rename r scopes).sites inner)
  | .select select => by
      rw [Body.rename, Body.sites, Body.sites]
      exact Select.respells hnamed select
  | .query query => by
      rw [Body.rename, Body.sites, Body.sites]
      exact Query.respells hnamed query
  | .combined operator left right => by
      rw [Body.rename, Body.sites, Body.sites]
      exact (Body.respells hnamed left).append (Body.respells hnamed right)
  | .values rows => by
      rw [Body.rename, Body.sites, Body.sites]
      exact exprSites_respells hnamed rows
  | .table words => .nil
  | .command statement => by
      rw [Body.rename, Body.sites, Body.sites]
      exact Statement.respells hnamed statement

theorem Select.respells {scopes inner : List Scope}
    (hnamed : inner.map Scope.named = scopes.map Scope.named) :
    ∀ select : Select, Respells r (select.sites scopes) ((select.rename r scopes).sites inner)
  | .mk start items target tables clauses => by
      rw [Select.rename, Select.sites, Select.sites, itemSites_map_mapQualifier]
      exact (((exprSites_respells hnamed start).append
        (itemSites_respells hnamed items)).append
          (tableSites_respells hnamed tables)).append
            (exprSites_respells hnamed clauses)

theorem itemSites_respells {scopes inner : List Scope}
    (hnamed : inner.map Scope.named = scopes.map Scope.named) :
    ∀ items : List Item,
      Respells r (itemSites scopes items) (itemSites inner (renameItems r scopes items))
  | [] => .nil
  | item :: rest => by
      rw [renameItems, itemSites, itemSites]
      exact (Item.respells hnamed item).append (itemSites_respells hnamed rest)

theorem Item.respells {scopes inner : List Scope}
    (hnamed : inner.map Scope.named = scopes.map Scope.named) :
    ∀ item : Item, Respells r (item.sites scopes) ((item.rename r scopes).sites inner)
  | .expr value name => by
      rw [Item.rename, Item.sites, Item.sites]
      exact Expr.respells hnamed value
  | .allOf qualifier options => by
      rw [Item.rename, Item.sites, Item.sites]
      exact exprSites_respells hnamed options
  | .all options => by
      rw [Item.rename, Item.sites, Item.sites]
      exact exprSites_respells hnamed options

theorem tableSites_respells {scopes inner : List Scope}
    (hnamed : inner.map Scope.named = scopes.map Scope.named) :
    ∀ tables : List Joined,
      Respells r (tableSites scopes tables) (tableSites inner (renameTables r scopes tables))
  | [] => .nil
  | joined :: rest => by
      rw [renameTables, tableSites, tableSites]
      exact (Joined.respells hnamed joined).append
        (tableSites_respells hnamed rest)

theorem Joined.respells {scopes inner : List Scope}
    (hnamed : inner.map Scope.named = scopes.map Scope.named) :
    ∀ joined : Joined, Respells r (joined.sites scopes) ((joined.rename r scopes).sites inner)
  | .mk first joins => by
      rw [Joined.rename, Joined.sites, Joined.sites]
      exact (Factor.respells hnamed first).append (joinSites_respells hnamed joins)

theorem joinSites_respells {scopes inner : List Scope}
    (hnamed : inner.map Scope.named = scopes.map Scope.named) :
    ∀ joins : List Join,
      Respells r (joinSites scopes joins) (joinSites inner (renameJoins r scopes joins))
  | [] => .nil
  | .mk words factor condition :: rest => by
      rw [renameJoins, joinSites, joinSites]
      exact ((Factor.respells hnamed factor).append
        (exprSites_respells hnamed condition)).append
          (joinSites_respells hnamed rest)

theorem Factor.respells {scopes inner : List Scope}
    (hnamed : inner.map Scope.named = scopes.map Scope.named) :
    ∀ factor : Factor, Respells r (factor.sites scopes) ((factor.rename r scopes).sites inner)
  | .table name details label hints => by
      rw [Factor.rename, Factor.sites, Factor.sites]
      have hname : Respells r [⟨.relation, name, scopes⟩]
          [⟨.relation, r.relation scopes name, inner⟩] := .single rfl hnamed
      exact (((aliasSites_respells r hnamed label).append hname).append
        (exprSites_respells hnamed details)).append
          (exprSites_respells hnamed hints)
  | .derived lateral query label => by
      rw [Factor.rename, Factor.sites, Factor.sites]
      exact (aliasSites_respells r hnamed label).append (Query.respells hnamed query)
  | .nested joined label => by
      rw [Factor.rename, Factor.sites, Factor.sites]
      exact Joined.respells hnamed joined
  | .transformed factor operation label => by
      rw [Factor.rename, Factor.sites, Factor.sites]
      exact (Factor.respells hnamed factor).append (Expr.respells hnamed operation)
  | .computed source label suffix => by
      rw [Factor.rename, Factor.sites, Factor.sites]
      exact Expr.respells hnamed source

theorem Statement.respells {scopes inner : List Scope}
    (hnamed : inner.map Scope.named = scopes.map Scope.named) :
    ∀ statement : Statement,
      Respells r (statement.sites scopes) ((statement.rename r scopes).sites inner)
  | .query query => by
      rw [Statement.rename, Statement.sites, Statement.sites]
      exact Query.respells hnamed query
  | .command parts => by
      rw [Statement.rename, Statement.sites, Statement.sites]
      exact partSites_respells hnamed parts

theorem partSites_respells {scopes inner : List Scope}
    (hnamed : inner.map Scope.named = scopes.map Scope.named) :
    ∀ parts : List Part,
      Respells r (partSites scopes parts) (partSites inner (renameParts r scopes parts))
  | [] => .nil
  | part :: rest => by
      rw [renameParts, partSites, partSites]
      exact (Part.respells hnamed part).append (partSites_respells hnamed rest)

theorem Part.respells {scopes inner : List Scope}
    (hnamed : inner.map Scope.named = scopes.map Scope.named) :
    ∀ part : Part, Respells r (part.sites scopes) ((part.rename r scopes).sites inner)
  | .words text => .nil
  | .target name => .single rfl hnamed
  | .expr value => by
      rw [Part.rename, Part.sites, Part.sites]
      exact Expr.respells hnamed value
  | .query query => by
      rw [Part.rename, Part.sites, Part.sites]
      exact Query.respells hnamed query
  | .tables joined => by
      rw [Part.rename, Part.sites, Part.sites]
      exact Joined.respells hnamed joined
  | .item item => by
      rw [Part.rename, Part.sites, Part.sites]
      exact Item.respells hnamed item
  | .statement statement => by
      rw [Part.rename, Part.sites, Part.sites]
      exact Statement.respells hnamed statement

end

end Walk

/-- The sites of a renamed query, read in scopes that name the same queries. -/
theorem Query.sites_rename
    (r : Renaming) (query : Query) :
    Respells r (query.sites []) ((query.rename r []).sites []) :=
  Query.respells r rfl query

end Relocate.Sql
