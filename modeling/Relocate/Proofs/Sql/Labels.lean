import Relocate.Proofs.Sql.Visits

/-!
# The clauses that entries name

The entry on a table of the outermost query names the clause in which the table stands.
The clauses are collected before the visit, along the `FROM` clause alone, and taken out
again by name in the course of the visit, which passes every name of the query.  A table
takes its own clause and not that of another table of the same name, because both walks
meet the tables of the `FROM` clause in the same order and nothing else takes a clause:
`Statement.rewrite_query_labels`.
-/

namespace Relocate.Sql

open Catalog Text

/-! ## Where a table stands -/

mutual

/-- The name of the table that a factor is or starts with, if it is a named table. -/
def Factor.leading : Factor → List Name
  | .table name _ _ _ => [name]
  | .derived .. => []
  | .nested inner _ => inner.leading
  | .transformed inner _ _ => inner.leading
  | .computed .. => []

/-- The name of the table that joined tables start with, if it is a named table. -/
def Joined.leading : Joined → List Name
  | .mk first _ => first.leading

end

mutual

/-- The right sides of the joins in a factor. -/
def Factor.rightSides : Factor → List Factor
  | .table .. => []
  | .derived .. => []
  | .nested inner _ => inner.rightSides
  | .transformed inner _ _ => inner.rightSides
  | .computed .. => []

/-- The right sides of the joins of a table, and of those inside of it and of them. -/
def Joined.rightSides : Joined → List Factor
  | .mk first joins => first.rightSides ++ joinRightSides joins

/-- The right sides of joins, and of the joins inside of them. -/
def joinRightSides : List Join → List Factor
  | [] => []
  | .mk _ factor _ :: rest => factor :: factor.rightSides ++ joinRightSides rest

end

/-- The clause of what stands first, and `JOIN` for what leads a right side. -/
def seats (clause : Clause) (leading : List Name) (rightSides : List Factor) :
    List (Name × Clause) :=
  leading.map (·, clause) ++ (rightSides.flatMap Factor.leading).map (·, .join)

/-- The tables of a `FROM` clause with the labels due to them: `JOIN` for a table that
is or leads the right side of a join, and `FROM` for the one that leads all others. -/
def Joined.seats (joined : Joined) : List (Name × Clause) :=
  Sql.seats .table joined.leading joined.rightSides

/-- The name of a table that belongs to the outermost query itself. -/
def Site.ownTable? (site : Site) : Option Name :=
  if site.role = .relation ∧ site.scopes.length = 1 then some site.name else none

/-- The tables that belong to the outermost query itself, in the order of visits. -/
def ownTables (sites : List Site) : List Name :=
  sites.filterMap Site.ownTable?

theorem ownTables_append (front back : List Site) :
    ownTables (front ++ back) = ownTables front ++ ownTables back :=
  List.filterMap_append

/-! ## Names below a query -/

/-- All sites lie below these scopes. -/
def LieBelow (scopes : List Scope) (sites : List Site) : Prop :=
  ∀ site ∈ sites, scopes <:+ site.scopes

namespace LieBelow

variable {scopes inner : List Scope} {front back : List Site}

theorem nil : LieBelow scopes [] := nofun

theorem single (role : Role) (name : Name) : LieBelow scopes [⟨role, name, scopes⟩] :=
  List.forall_mem_singleton.mpr (List.suffix_refl scopes)

theorem append (hfront : LieBelow scopes front) (hback : LieBelow scopes back) :
    LieBelow scopes (front ++ back) :=
  List.forall_mem_append.mpr ⟨hfront, hback⟩

theorem outer (hinner : scopes <:+ inner) (h : LieBelow inner front) : LieBelow scopes front :=
  fun site hsite => hinner.trans (h site hsite)

theorem label (label : Option Alias) : LieBelow scopes (aliasSites scopes label) := by
  cases label with
  | none => exact nil
  | some label => exact single .label [label.name]

end LieBelow

mutual

theorem Expr.lieBelow (scopes : List Scope) : ∀ expr : Expr, LieBelow scopes (expr.sites scopes)
  | .column name => .single _ _
  | .path parts => .single _ _
  | .allOf qualifier => .single _ _
  | .query body => by
      rw [Expr.sites]
      exact (Query.lieBelow scopes body).outer (List.suffix_cons _ _)
  | .form form operands => by
      rw [Expr.sites]
      exact exprSites_lieBelow scopes operands

theorem exprSites_lieBelow (scopes : List Scope) :
    ∀ exprs : List Expr, LieBelow scopes (exprSites scopes exprs)
  | [] => .nil
  | expr :: rest => by
      rw [exprSites]
      exact (Expr.lieBelow scopes expr).append (exprSites_lieBelow scopes rest)

/-- The names in a query lie below its own scope. -/
theorem Query.lieBelow (scopes : List Scope) :
    ∀ query : Query, LieBelow (Scope.ofQuery query :: scopes) (query.sites scopes)
  | .mk recursive named body clauses => by
      rw [Query.sites]
      refine (((?_ : LieBelow _ _).append ?_).append ?_).append ?_
      · intro site hsite
        obtain ⟨name, -, rfl⟩ := List.mem_map.mp hsite
        exact List.suffix_refl _
      · exact namedSites_lieBelow _ named
      · exact Body.lieBelow _ body
      · exact exprSites_lieBelow _ clauses

theorem namedSites_lieBelow (scopes : List Scope) :
    ∀ named : List Named, LieBelow scopes (namedSites scopes named)
  | [] => .nil
  | .mk name body source :: rest => by
      rw [namedSites]
      exact ((Query.lieBelow scopes body).outer (List.suffix_cons _ _)).append
        (namedSites_lieBelow scopes rest)

theorem Body.lieBelow (scopes : List Scope) : ∀ body : Body, LieBelow scopes (body.sites scopes)
  | .select select => by
      rw [Body.sites]
      exact Select.lieBelow scopes select
  | .query query => by
      rw [Body.sites]
      exact (Query.lieBelow scopes query).outer (List.suffix_cons _ _)
  | .combined operator left right => by
      rw [Body.sites]
      exact (Body.lieBelow scopes left).append (Body.lieBelow scopes right)
  | .values rows => by
      rw [Body.sites]
      exact exprSites_lieBelow scopes rows
  | .table words => .nil
  | .command statement => by
      rw [Body.sites]
      exact Statement.lieBelow scopes statement

theorem Select.lieBelow (scopes : List Scope) :
    ∀ select : Select, LieBelow scopes (select.sites scopes)
  | .mk start items target tables clauses => by
      rw [Select.sites]
      exact (((exprSites_lieBelow scopes start).append (itemSites_lieBelow scopes items)).append
        (tableSites_lieBelow scopes tables)).append (exprSites_lieBelow scopes clauses)

theorem itemSites_lieBelow (scopes : List Scope) :
    ∀ items : List Item, LieBelow scopes (itemSites scopes items)
  | [] => .nil
  | item :: rest => by
      rw [itemSites]
      exact (Item.lieBelow scopes item).append (itemSites_lieBelow scopes rest)

theorem Item.lieBelow (scopes : List Scope) : ∀ item : Item, LieBelow scopes (item.sites scopes)
  | .expr value name => by
      rw [Item.sites]
      exact Expr.lieBelow scopes value
  | .allOf qualifier options => by
      rw [Item.sites]
      exact exprSites_lieBelow scopes options
  | .all options => by
      rw [Item.sites]
      exact exprSites_lieBelow scopes options

theorem tableSites_lieBelow (scopes : List Scope) :
    ∀ tables : List Joined, LieBelow scopes (tableSites scopes tables)
  | [] => .nil
  | joined :: rest => by
      rw [tableSites]
      exact (Joined.lieBelow scopes joined).append (tableSites_lieBelow scopes rest)

theorem Joined.lieBelow (scopes : List Scope) :
    ∀ joined : Joined, LieBelow scopes (joined.sites scopes)
  | .mk first joins => by
      rw [Joined.sites]
      exact (Factor.lieBelow scopes first).append (joinSites_lieBelow scopes joins)

theorem joinSites_lieBelow (scopes : List Scope) :
    ∀ joins : List Join, LieBelow scopes (joinSites scopes joins)
  | [] => .nil
  | .mk words factor condition :: rest => by
      rw [joinSites]
      exact ((Factor.lieBelow scopes factor).append
        (exprSites_lieBelow scopes condition)).append (joinSites_lieBelow scopes rest)

theorem Factor.lieBelow (scopes : List Scope) :
    ∀ factor : Factor, LieBelow scopes (factor.sites scopes)
  | .table name details label hints => by
      rw [Factor.sites]
      exact (((LieBelow.label label).append (.single _ _)).append
        (exprSites_lieBelow scopes details)).append (exprSites_lieBelow scopes hints)
  | .derived lateral query label => by
      rw [Factor.sites]
      exact (LieBelow.label label).append
        ((Query.lieBelow scopes query).outer (List.suffix_cons _ _))
  | .nested inner label => by
      rw [Factor.sites]
      exact Joined.lieBelow scopes inner
  | .transformed inner operation label => by
      rw [Factor.sites]
      exact (Factor.lieBelow scopes inner).append (Expr.lieBelow scopes operation)
  | .computed source label suffix => by
      rw [Factor.sites]
      exact Expr.lieBelow scopes source

theorem Statement.lieBelow (scopes : List Scope) :
    ∀ statement : Statement, LieBelow scopes (statement.sites scopes)
  | .query query => by
      rw [Statement.sites]
      exact (Query.lieBelow scopes query).outer (List.suffix_cons _ _)
  | .command parts => by
      rw [Statement.sites]
      exact partSites_lieBelow scopes parts

theorem partSites_lieBelow (scopes : List Scope) :
    ∀ parts : List Part, LieBelow scopes (partSites scopes parts)
  | [] => .nil
  | part :: rest => by
      rw [partSites]
      exact (Part.lieBelow scopes part).append (partSites_lieBelow scopes rest)

theorem Part.lieBelow (scopes : List Scope) : ∀ part : Part, LieBelow scopes (part.sites scopes)
  | .words text => .nil
  | .target name => .single _ _
  | .expr value => by
      rw [Part.sites]
      exact Expr.lieBelow scopes value
  | .query query => by
      rw [Part.sites]
      exact (Query.lieBelow scopes query).outer (List.suffix_cons _ _)
  | .tables joined => by
      rw [Part.sites]
      exact Joined.lieBelow scopes joined
  | .item item => by
      rw [Part.sites]
      exact Item.lieBelow scopes item
  | .statement statement => by
      rw [Part.sites]
      exact Statement.lieBelow scopes statement

end

/-! ## Both walks meet the same tables -/

section Outermost

variable {scope : Scope}

theorem ownTables_eq_nil {sites : List Site}
    (hsites : ∀ site ∈ sites, site.role = .relation → site.scopes.length ≠ 1) :
    ownTables sites = [] := by
  rw [ownTables, List.filterMap_eq_nil_iff]
  intro site hsite
  unfold Site.ownTable?
  rw [if_neg fun hown => hsites site hsite hown.1 hown.2]

/-- A query inside of the outermost one has no table of its own there. -/
theorem Query.ownTables_sites (query : Query) : ownTables (query.sites [scope]) = [] := by
  apply ownTables_eq_nil
  rintro site hsite - hlength
  have hbelow := (Query.lieBelow [scope] query site hsite).length_le
  rw [hlength] at hbelow
  exact absurd hbelow (by simp)

mutual

theorem Expr.ownTables_sites : ∀ expr : Expr, ownTables (expr.sites [scope]) = []
  | .column name => rfl
  | .path parts => rfl
  | .allOf qualifier => rfl
  | .query body => by
      rw [Expr.sites]
      exact Query.ownTables_sites body
  | .form form operands => by
      rw [Expr.sites]
      exact ownTables_exprSites operands

theorem ownTables_exprSites : ∀ exprs : List Expr, ownTables (exprSites [scope] exprs) = []
  | [] => rfl
  | expr :: rest => by
      rw [exprSites, ownTables_append, Expr.ownTables_sites expr, ownTables_exprSites rest,
        List.append_nil]

end

theorem ownTables_itemSites (items : List Item) : ownTables (itemSites [scope] items) = [] := by
  induction items with
  | nil => rfl
  | cons item rest ih =>
      have hitem : ownTables (item.sites [scope]) = [] := by
        cases item with
        | expr value name =>
            rw [Item.sites]
            exact Expr.ownTables_sites value
        | allOf qualifier options =>
            rw [Item.sites]
            exact ownTables_exprSites options
        | all options =>
            rw [Item.sites]
            exact ownTables_exprSites options
      rw [itemSites, ownTables_append, hitem, ih, List.append_nil]

theorem ownTables_namedSites (named : List Named) :
    ownTables (namedSites [scope] named) = [] := by
  induction named with
  | nil => rfl
  | cons first rest ih =>
      obtain ⟨name, body, source⟩ := first
      rw [namedSites, ownTables_append, Query.ownTables_sites, ih, List.append_nil]

theorem ownTables_aliasSites (label : Option Alias) :
    ownTables (aliasSites [scope] label) = [] := by
  cases label <;> rfl

mutual

theorem Factor.ownTables_sites : ∀ factor : Factor,
    ownTables (factor.sites [scope]) = factor.leading ++ factor.rightSides.flatMap Factor.leading
  | .table name details label hints => by
      have hname : ownTables [⟨.relation, name, [scope]⟩] = [name] := rfl
      simp only [Factor.sites, ownTables_append, ownTables_aliasSites, ownTables_exprSites, hname,
        Factor.leading, Factor.rightSides, List.flatMap_nil, List.append_nil, List.nil_append]
  | .derived lateral query label => by
      simp only [Factor.sites, ownTables_append, ownTables_aliasSites, Query.ownTables_sites,
        Factor.leading, Factor.rightSides, List.flatMap_nil, List.append_nil]
  | .nested inner label => by
      rw [Factor.sites, Factor.leading, Factor.rightSides]
      exact Joined.ownTables_sites inner
  | .transformed inner operation label => by
      rw [Factor.sites, Factor.leading, Factor.rightSides, ownTables_append,
        Expr.ownTables_sites operation, List.append_nil]
      exact Factor.ownTables_sites inner
  | .computed source label suffix => by
      rw [Factor.sites, Factor.leading, Factor.rightSides]
      exact Expr.ownTables_sites source

theorem Joined.ownTables_sites : ∀ joined : Joined,
    ownTables (joined.sites [scope]) = joined.leading ++ joined.rightSides.flatMap Factor.leading
  | .mk first joins => by
      rw [Joined.sites, ownTables_append, Factor.ownTables_sites first, ownTables_joinSites joins,
        Joined.leading, Joined.rightSides, List.flatMap_append, List.append_assoc]

theorem ownTables_joinSites : ∀ joins : List Join,
    ownTables (joinSites [scope] joins) = (joinRightSides joins).flatMap Factor.leading
  | [] => rfl
  | .mk words factor condition :: rest => by
      rw [joinSites, ownTables_append, ownTables_append, Factor.ownTables_sites factor,
        ownTables_exprSites condition, ownTables_joinSites rest, joinRightSides,
        List.append_nil, List.cons_append, List.flatMap_cons, List.flatMap_append,
        List.append_assoc]

end

end Outermost

/-- A table as it is collected: its dotted name with its label. -/
def collected (seat : Name × Clause) : String × Clause :=
  (seat.1.dotted, seat.2)

mutual

theorem Factor.relations_eq (clause : Clause) : ∀ factor : Factor,
    factor.relations clause = (seats clause factor.leading factor.rightSides).map collected
  | .table name details label hints => rfl
  | .derived lateral query label => rfl
  | .nested inner label => by
      rw [Factor.relations, Factor.leading, Factor.rightSides]
      exact Joined.relations_eq clause inner
  | .transformed inner operation label => by
      rw [Factor.relations, Factor.leading, Factor.rightSides]
      exact Factor.relations_eq clause inner
  | .computed source label suffix => rfl

theorem Joined.relations_eq (clause : Clause) : ∀ joined : Joined,
    joined.relations clause = (Sql.seats clause joined.leading joined.rightSides).map collected
  | .mk first joins => by
      rw [Joined.relations, Factor.relations_eq clause first, joinsRelations_eq joins]
      simp only [Joined.leading, Joined.rightSides, Sql.seats, List.map_append,
        List.flatMap_append, List.append_assoc]

theorem joinsRelations_eq : ∀ joins : List Join,
    joinsRelations joins =
      (((joinRightSides joins).flatMap Factor.leading).map (·, Clause.join)).map collected
  | [] => rfl
  | .mk words factor condition :: rest => by
      rw [joinsRelations, Factor.relations_eq .join factor, joinsRelations_eq rest]
      simp only [joinRightSides, Sql.seats, List.map_append, List.cons_append, List.flatMap_cons,
        List.flatMap_append, List.append_assoc]

end

/-! ## Labels in the order of visits -/

theorem map_fst_withClauses (pending : List (String × Clause)) (sites : List Site) :
    (withClauses pending sites).map Prod.fst = sites := by
  induction sites generalizing pending with
  | nil => rfl
  | cons site rest ih =>
      rw [withClauses]
      exact congrArg (site :: ·) (ih _)

/-- Whatever is left of the collected tables, what is no table is labelled as a value, and
a table of an inner query as such. -/
theorem clause_of_mem_withClauses
    {pending : List (String × Clause)} {sites : List Site} {site : Site} {clause : Clause}
    (hmem : (site, clause) ∈ withClauses pending sites) :
    (site.role ≠ .relation → clause = .value) ∧
      (site.role = .relation → 1 < site.scopes.length → clause = .subquery) := by
  induction sites generalizing pending with
  | nil => cases hmem
  | cons first rest ih =>
      rw [withClauses] at hmem
      rcases List.mem_cons.mp hmem with heq | hrest
      · obtain ⟨rfl, rfl⟩ := Prod.mk.inj heq
        obtain ⟨role, name, scopes⟩ := site
        constructor
        · intro hrole
          cases role with
          | relation => exact absurd rfl hrole
          | column => rfl
          | path => rfl
          | allOf => rfl
          | label => rfl
        · rintro rfl hlength
          rcases scopes with - | ⟨scope, - | ⟨second, rest⟩⟩
          · cases hlength
          · exact absurd hlength (Nat.lt_irrefl 1)
          · rfl
      · exact ih hrest

theorem ownTables_cons (site : Site) (rest : List Site) :
    ownTables (site :: rest) = site.ownTable?.toList ++ ownTables rest := by
  rw [ownTables, ownTables, List.filterMap_cons]
  cases site.ownTable? <;> rfl

/-- Only the tables of the outermost query are taken out. -/
theorem Site.clause_of_not_own
    {site : Site} (hown : site.ownTable? = none) (hscopes : site.scopes ≠ [])
    (pending : List (String × Clause)) : (site.clause pending).2 = pending := by
  obtain ⟨role, name, scopes⟩ := site
  cases role with
  | relation =>
      match scopes with
      | [] => exact absurd rfl hscopes
      | [scope] => cases hown
      | first :: second :: rest => rfl
  | column => rfl
  | path => rfl
  | allOf => rfl
  | label => rfl

/-- The first table that is left is taken out when a table of its name is visited. -/
theorem Site.clause_of_own
    {scope : Scope} (hplain : scope.combined = false) {site : Site} {name : Name}
    (hown : site.ownTable? = some name) (hbelow : [scope] <:+ site.scopes) (clause : Clause)
    (pending : List (String × Clause)) :
    site.clause (collected (name, clause) :: pending) = (clause, pending) := by
  obtain ⟨role, found, scopes⟩ := site
  unfold Site.ownTable? at hown
  split at hown
  · rename_i hboth
    obtain ⟨rfl, hlength⟩ := hboth
    obtain rfl : [scope] = scopes := hbelow.eq_of_length hlength.symm
    cases hown
    simp [Site.clause, hplain, collected, takeRelation]
  · cases hown

/-- When the tables that are collected are those that are visited, in the same order, the
table that is visited next is the first one that is left. -/
theorem withClauses_seats
    {scope : Scope} (hplain : scope.combined = false) {seats : List (Name × Clause)}
    {sites : List Site} (hbelow : LieBelow [scope] sites)
    (hsame : ownTables sites = seats.map Prod.fst) :
    (withClauses (seats.map collected) sites).filterMap
      (fun visited => visited.1.ownTable?.map (·, visited.2)) = seats := by
  induction sites generalizing seats with
  | nil =>
      have hnone : seats = [] := List.map_eq_nil_iff.mp hsame.symm
      rw [hnone]
      rfl
  | cons site rest ih =>
      obtain ⟨hsite, hrest⟩ := List.forall_mem_cons.mp hbelow
      rw [ownTables_cons] at hsame
      rw [withClauses]
      cases hown : site.ownTable? with
      | none =>
          have hscopes : site.scopes ≠ [] := by
            rintro hnil
            rw [hnil, List.suffix_nil] at hsite
            cases hsite
          rw [hown] at hsame
          have hkept := Site.clause_of_not_own hown hscopes (seats.map collected)
          dsimp only
          rw [List.filterMap_cons_none (by rw [hown]; rfl), hkept]
          exact ih hrest hsame
      | some name =>
          rw [hown] at hsame
          cases seats with
          | nil => cases hsame
          | cons seat seats =>
              obtain ⟨first, clause⟩ := seat
              obtain ⟨rfl, hothers⟩ := List.cons.inj hsame
              have htaken := Site.clause_of_own hplain hown hsite clause (seats.map collected)
              rw [List.map_cons, htaken, List.filterMap_cons_some (by rw [hown]; rfl)]
              exact congrArg _ (ih hrest hothers)

theorem ownTables_tableSites {scope : Scope} (tables : List Joined) :
    ownTables (tableSites [scope] tables) = (tables.flatMap Joined.seats).map Prod.fst := by
  induction tables with
  | nil => rfl
  | cons joined rest ih =>
      have hjoined : joined.seats.map Prod.fst =
          joined.leading ++ joined.rightSides.flatMap Factor.leading := by
        simp [Joined.seats, seats, Function.comp_def]
      rw [tableSites, ownTables_append, Joined.ownTables_sites, ih, List.flatMap_cons,
        List.map_append, hjoined]

theorem relations_tables (tables : List Joined) :
    tables.flatMap (Joined.relations .table) = (tables.flatMap Joined.seats).map collected := by
  have hrelations : Joined.relations .table = fun joined => joined.seats.map collected :=
    funext (Joined.relations_eq .table)
  rw [hrelations, List.map_flatMap]

theorem Query.ownTables_select
    (recursive : Bool) (named : List Named) (select : Select) (clauses : List Expr) :
    ownTables ((Query.mk recursive named (.select select) clauses).sites []) =
      (select.tables.flatMap Joined.seats).map Prod.fst := by
  obtain ⟨start, items, target, tables, ends⟩ := select
  have hqualifiers {scope : Scope} (names : List Name) :
      ownTables (names.map fun name => ⟨.allOf, name, [scope]⟩) = [] := by
    simp [ownTables, Site.ownTable?]
  simp only [Query.sites, Body.sites, Select.sites, ownTables_append, hqualifiers,
    ownTables_namedSites, ownTables_exprSites, ownTables_itemSites, ownTables_tableSites,
    Select.tables, List.nil_append, List.append_nil]

/-- The entries on a query with a single select name the clauses in which the names
stand.  The tables of its `FROM` clause, those in nested joins and in transformed tables
included, are visited one after the other as `Joined.seats` lists them: a table is labelled
`JOIN` when it is or leads the right side of a join, and `FROM` otherwise, whatever other
tables have its name and whatever is visited in between.  All other tables belong to inner
queries and are labelled `SUBQUERY`, and what is no table `VALUE`. -/
theorem Statement.rewrite_query_labels
    (rule : Rule) (view : Path) (origin : String) (recursive : Bool) (named : List Named)
    (select : Select) (clauses : List Expr) :
    let query := Query.mk recursive named (.select select) clauses
    ∃ visited : List (Site × Clause),
      visited.map Prod.fst = query.sites [] ∧
      ((Statement.query query).rewrite rule view origin).log =
        visited.filterMap (fun (site, clause) => site.entry? ⟨rule, view, origin⟩ clause) ∧
      visited.filterMap (fun (site, clause) => site.ownTable?.map (·, clause)) =
        select.tables.flatMap Joined.seats ∧
      ∀ site clause, (site, clause) ∈ visited →
        (site.role = .relation → site.ownTable? = none → clause = .subquery) ∧
        (site.role ≠ .relation → clause = .value) := by
  intro query
  have hbelow : LieBelow [Scope.ofQuery query] (query.sites []) := Query.lieBelow [] query
  have hpending : query.pending = (select.tables.flatMap Joined.seats).map collected := by
    rw [← relations_tables, Query.pending, Scope.ofQuery, Body.selects, List.flatMap_singleton]
  refine ⟨withClauses query.pending (query.sites []), map_fst_withClauses _ _, ?_, ?_, ?_⟩
  · rw [Statement.rewrite_query, Query.replacements]
  · rw [hpending]
    exact withClauses_seats rfl hbelow (Query.ownTables_select recursive named select clauses)
  · intro site clause hmem
    obtain ⟨hvalue, hsubquery⟩ := clause_of_mem_withClauses hmem
    refine ⟨?_, hvalue⟩
    intro hrole hown
    have hsite : site ∈ query.sites [] := by
      rw [← map_fst_withClauses query.pending (query.sites [])]
      exact List.mem_map_of_mem hmem
    have hlength : 1 ≤ site.scopes.length := (hbelow site hsite).length_le
    have hnotOne : site.scopes.length ≠ 1 := by
      intro hone
      rw [Site.ownTable?, if_pos ⟨hrole, hone⟩] at hown
      cases hown
    exact hsubquery hrole (by omega)

end Relocate.Sql
