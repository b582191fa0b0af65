import Relocate.Sql.Rewrite

/-!
# What a rewriter does, site by site

A rewriter changes a statement while it walks over it, keeps a stack of scopes
and takes tables out of the outermost scope.  Here the same is said without a
state: `Renaming.ofRule` changes each name by the scopes that the statement had
before, and `Query.replacements` lists the entries along the sites of the query.
`Statement.rewrite_query` says that both agree for every query.
-/

namespace Relocate.Sql

open Catalog Text

/-! ## Names and entries without a state -/

/-- The name at a site after the rule, when the rule moves it. -/
def Site.moved? (rule : Rule) (site : Site) : Option Name :=
  match site.role with
  | .relation =>
    if Scope.isNamedQuery site.scopes site.name then none else Name.moved? rule site.name
  | .path =>
    if isQualified rule site.scopes site.name (site.name.length - 1) then
      Name.moved? rule site.name
    else none
  | .allOf =>
    if isQualified rule site.scopes site.name site.name.length then Name.moved? rule site.name
    else none
  | .column | .label => none

/-- The renaming of a rule. -/
def Renaming.ofRule (rule : Rule) : Renaming where
  relation := fun scopes name => (Site.moved? rule ⟨.relation, name, scopes⟩).getD name
  column := id
  path := fun scopes name => (Site.moved? rule ⟨.path, name, scopes⟩).getD name
  allOf := fun scopes name => (Site.moved? rule ⟨.allOf, name, scopes⟩).getD name
  label := id

/-- The clause of a site.  The tables of the outermost query that are not yet
visited are taken out one after the other. -/
def Site.clause (site : Site) (pending : List (String × Clause)) :
    Clause × List (String × Clause) :=
  match site.role, site.scopes with
  | .relation, [] => (.table, pending)
  | .relation, [scope] =>
    if scope.combined then (.union, pending)
    else
      let (taken, rest) := takeRelation site.name.dotted pending
      (taken.getD .table, rest)
  | .relation, _ => (.subquery, pending)
  | _, _ => (.value, pending)

/-- The sites with their clauses. -/
def withClauses : List (String × Clause) → List Site → List (Site × Clause)
  | _, [] => []
  | pending, site :: rest =>
    let (clause, pending) := site.clause pending
    (site, clause) :: withClauses pending rest

/-- The tables of the outermost query with their clauses. -/
def Query.pending (query : Query) : List (String × Clause) :=
  (Scope.ofQuery query).relations

/-- The entry on a site, when the rule replaces its name. -/
def Site.entry? (job : Job) (site : Site) (clause : Clause) : Option Entry :=
  (site.moved? job.rule).map fun new =>
    replacedEntry job.view job.origin clause site.name new

/-- The entries on all references of a query that a rule replaces. -/
def Query.replacements (job : Job) (query : Query) : List Entry :=
  (withClauses query.pending (query.sites [])).filterMap fun (site, clause) =>
    site.entry? job clause

/-! ## The state of a rewriter at a place -/

theorem RewriteStats.add_zero_count (stats : RewriteStats) : stats + ⟨0, 0⟩ = stats :=
  rfl

theorem RewriteStats.add_counts (stats : RewriteStats) (m n : Nat) :
    stats + ⟨m, 0⟩ + ⟨n, 0⟩ = stats + ⟨m + n, 0⟩ :=
  congrArg (fun replaced => RewriteStats.mk replaced stats.unrecognized)
    (Nat.add_assoc stats.replaced m n)

/-- What a rewriter has collected, apart from its scopes. -/
structure Tally where
  /-- The tables of the outermost query that are not yet visited. -/
  pending : List (String × Clause)
  stats : RewriteStats
  log : List Entry

namespace Tally

/-- The tally after a site. -/
def visit (job : Job) (tally : Tally) (site : Site) : Tally where
  pending := (site.clause tally.pending).2
  stats := tally.stats + ⟨(site.moved? job.rule).toList.length, 0⟩
  log := tally.log ++ (site.entry? job (site.clause tally.pending).1).toList

/-- The tally after sites one after the other. -/
def visitAll (job : Job) (tally : Tally) (sites : List Site) : Tally :=
  sites.foldl (visit job) tally

@[simp]
theorem visitAll_nil (job : Job) (tally : Tally) : tally.visitAll job [] = tally := rfl

@[simp]
theorem visitAll_cons (job : Job) (tally : Tally) (site : Site) (rest : List Site) :
    tally.visitAll job (site :: rest) = (tally.visit job site).visitAll job rest := rfl

@[simp]
theorem visitAll_append (job : Job) (tally : Tally) (front rest : List Site) :
    tally.visitAll job (front ++ rest) = (tally.visitAll job front).visitAll job rest :=
  List.foldl_append

end Tally

/-- The scopes with these tables left in the outermost one. -/
def withPending (pending : List (String × Clause)) : List Scope → List Scope
  | [] => []
  | [scope] => [{ scope with relations := pending }]
  | scope :: next :: rest => scope :: withPending pending (next :: rest)

/-- The rewriter with these scopes around it and this tally. -/
def Rewriter.at (scopes : List Scope) (tally : Tally) : Rewriter :=
  ⟨withPending tally.pending scopes, tally.stats, tally.log⟩

theorem any_withPending
    {p : Scope → Bool}
    (hp : ∀ scope pending, p { scope with relations := pending } = p scope)
    (pending : List (String × Clause)) (scopes : List Scope) :
    (withPending pending scopes).any p = scopes.any p := by
  induction scopes with
  | nil => rfl
  | cons scope rest ih =>
      cases rest with
      | nil => simp [withPending, hp]
      | cons next rest =>
          rw [withPending, List.any_cons, List.any_cons, ih]

theorem isNamedQuery_withPending
    (pending : List (String × Clause)) (scopes : List Scope) (name : Name) :
    Scope.isNamedQuery (withPending pending scopes) name =
      Scope.isNamedQuery scopes name := by
  unfold Scope.isNamedQuery
  split
  · exact any_withPending (fun _ _ => rfl) pending scopes
  · rfl

theorem isQualified_withPending
    (rule : Rule) (pending : List (String × Clause)) (scopes : List Scope)
    (name : Name) (qualifier : Nat) :
    isQualified rule (withPending pending scopes) name qualifier =
      isQualified rule scopes name qualifier := by
  unfold isQualified
  split
  · rfl
  · rw [Scope.isLocal, any_withPending (fun _ _ => rfl) pending scopes, Scope.isLocal]

namespace Rewriter

theorem run_bind
    {α β : Type} {first : Rewriting α} {next : α → Rewriting β}
    {state after : Rewriter} {value : α}
    (h : first.run state = (value, after)) :
    (first >>= next).run state = (next value).run after := by
  rw [StateT.run_bind, h]
  rfl

theorem run_get (rewriter : Rewriter) :
    (get : Rewriting Rewriter).run rewriter = (rewriter, rewriter) := rfl

theorem takeClause_run (scopes : List Scope) (tally : Tally) (name : Name) :
    (takeClause name).run (Rewriter.at scopes tally) =
      ((Site.clause ⟨.relation, name, scopes⟩ tally.pending).1,
        Rewriter.at scopes
          { tally with pending := (Site.clause ⟨.relation, name, scopes⟩ tally.pending).2 }) := by
  match scopes with
  | [] => rfl
  | [scope] =>
      by_cases hcombined : scope.combined
      · simp [takeClause, Rewriter.at, withPending, Site.clause, hcombined]
        rfl
      · simp [takeClause, Rewriter.at, withPending, Site.clause, hcombined]
        rfl
  | scope :: next :: [] => rfl
  | scope :: next :: third :: rest => rfl

/-- A name that is moved is counted and told, any other one is left alone. -/
theorem replace_run
    (job : Job) (clause : Clause) (name : Name) (rewriter : Rewriter) :
    (replace job clause name).run rewriter =
      ((name.moved? job.rule).getD name,
        { rewriter with
          stats := rewriter.stats + ⟨(name.moved? job.rule).toList.length, 0⟩
          log := rewriter.log ++ ((name.moved? job.rule).map fun new =>
            replacedEntry job.view job.origin clause name new).toList }) := by
  unfold replace
  cases name.moved? job.rule with
  | none =>
      simp [RewriteStats.add_zero_count]
      rfl
  | some new => rfl

end Rewriter

/-! ## Visits and the sites that they pass -/

/-- Anywhere below these scopes, the action gives the value and leaves the
rewriter as it is after the sites. -/
def Visits {α : Type}
    (job : Job) (scopes : List Scope) (action : Rewriting α) (value : α)
    (sites : List Site) : Prop :=
  ∀ tally : Tally, action.run (Rewriter.at scopes tally) =
    (value, Rewriter.at scopes (tally.visitAll job sites))

namespace Visits

variable {α β : Type} {job : Job} {scopes : List Scope}

theorem pure (value : α) : Visits job scopes (pure value) value [] :=
  fun _ => rfl

theorem bind
    {first : Rewriting α} {next : α → Rewriting β} {a : α} {b : β} {front rest : List Site}
    (hfirst : Visits job scopes first a front)
    (hnext : Visits job scopes (next a) b rest) :
    Visits job scopes (first >>= next) b (front ++ rest) := by
  intro tally
  rw [Rewriter.run_bind (hfirst tally), hnext, Tally.visitAll_append]

/-- The last step of an action only puts together what the steps before gave. -/
theorem map
    {first : Rewriting α} {a : α} {sites : List Site} (f : α → β)
    (hfirst : Visits job scopes first a sites) :
    Visits job scopes (first >>= fun a => Pure.pure (f a)) (f a) sites := by
  rw [← List.append_nil sites]
  exact bind hfirst (pure (f a))

/-- Columns and aliases may stand among the sites, since nothing is done there. -/
theorem skip
    {action : Rewriting α} {value : α} {idle sites : List Site}
    (hidle : ∀ site ∈ idle, site.role = .column ∨ site.role = .label)
    (haction : Visits job scopes action value sites) :
    Visits job scopes action value (idle ++ sites) := by
  have hstays : ∀ tally : Tally, tally.visitAll job idle = tally := by
    intro tally
    induction idle with
    | nil => rfl
    | cons site rest ih =>
        have hsite : tally.visit job site = tally := by
          obtain ⟨role, name, scopes⟩ := site
          have hrole : role = .column ∨ role = .label := hidle _ List.mem_cons_self
          rcases hrole with rfl | rfl <;>
            simp [Tally.visit, Site.clause, Site.entry?, Site.moved?,
              RewriteStats.add_zero_count]
        rw [Tally.visitAll_cons, hsite]
        exact ih fun site hmem => hidle site (List.mem_cons_of_mem _ hmem)
  intro tally
  rw [haction, Tally.visitAll_append, hstays]

end Visits

section Names

variable (job : Job) (scopes : List Scope)

theorem visitRelation_visits (name : Name) :
    Visits job scopes (Rewriter.visitRelation job name)
      ((Renaming.ofRule job.rule).relation scopes name) [⟨.relation, name, scopes⟩] := by
  intro tally
  unfold Rewriter.visitRelation
  rw [Rewriter.run_bind (Rewriter.takeClause_run scopes tally name)]
  rw [Rewriter.run_bind (Rewriter.run_get _)]
  simp only [Rewriter.at, isNamedQuery_withPending]
  by_cases hnamed : Scope.isNamedQuery scopes name = true
  · simp [hnamed, Renaming.ofRule, Site.moved?, Tally.visit, Site.entry?,
      RewriteStats.add_zero_count]
    rfl
  · simp [hnamed, Renaming.ofRule, Site.moved?, Tally.visit, Site.entry?,
      Rewriter.replace_run]

/-- The two kinds of qualified names only differ in where their qualifier ends. -/
theorem visitQualified_visits
    (site : Site) (qualifier : Nat)
    (hclause : ∀ pending, site.clause pending = (.value, pending))
    (hmoved : site.moved? job.rule =
      if isQualified job.rule site.scopes site.name qualifier then
        Name.moved? job.rule site.name
      else none) :
    Visits job site.scopes (Rewriter.visitQualified job site.name qualifier)
      ((site.moved? job.rule).getD site.name) [site] := by
  intro tally
  unfold Rewriter.visitQualified
  rw [Rewriter.run_bind (Rewriter.run_get _)]
  simp only [Rewriter.at, isQualified_withPending]
  by_cases hqualified : isQualified job.rule site.scopes site.name qualifier = true
  · simp [hqualified, hmoved, hclause, Tally.visit, Site.entry?, Rewriter.replace_run]
  · simp [hqualified, hmoved, hclause, Tally.visit, Site.entry?,
      RewriteStats.add_zero_count]
    rfl

theorem visitPath_visits (name : Name) :
    Visits job scopes (Rewriter.visitQualified job name (name.length - 1))
      ((Renaming.ofRule job.rule).path scopes name) [⟨.path, name, scopes⟩] :=
  visitQualified_visits job ⟨.path, name, scopes⟩ _ (fun _ => rfl) rfl

theorem visitAllOf_visits (name : Name) :
    Visits job scopes (Rewriter.visitQualified job name name.length)
      ((Renaming.ofRule job.rule).allOf scopes name) [⟨.allOf, name, scopes⟩] :=
  visitQualified_visits job ⟨.allOf, name, scopes⟩ _ (fun _ => rfl) rfl

theorem visitQualifiers_visits (names : List Name) :
    Visits job scopes
      (names.mapM fun name => Rewriter.visitQualified job name name.length)
      (names.map ((Renaming.ofRule job.rule).allOf scopes))
      (names.map fun name => ⟨.allOf, name, scopes⟩) := by
  induction names with
  | nil => exact Visits.pure []
  | cons name rest ih =>
      rw [List.mapM_cons]
      exact (visitAllOf_visits job scopes name).bind (ih.map _)

end Names

/-! ## What is before `.*` comes first -/

/-- The select with its names changed, but not what stands before `.*`. -/
def Select.renameInside (r : Renaming) (scopes : List Scope) : Select → Select
  | .mk start items target tables clauses =>
    .mk (renameExprs r scopes start) (renameItems r scopes items) target
      (renameTables r scopes tables) (renameExprs r scopes clauses)

/-- The body with its names changed, but not what stands before the `.*` of its
selects. -/
def Body.renameInside (r : Renaming) (scopes : List Scope) : Body → Body
  | .select inner => .select (inner.renameInside r scopes)
  | .combined operator left right =>
    .combined operator (left.renameInside r scopes) (right.renameInside r scopes)
  | body => body.rename r scopes

theorem setQualifiers_renameItems
    (r : Renaming) (scopes : List Scope) (items : List Item) (rest : List Name) :
    setQualifiers (renameItems r scopes items)
        ((items.filterMap Item.qualifier?).map (r.allOf scopes) ++ rest) =
      ((renameItems r scopes items).map (Item.mapQualifier (r.allOf scopes)), rest) := by
  induction items with
  | nil => simp [renameItems, setQualifiers]
  | cons item items ih =>
      cases item with
      | expr value name =>
          simpa [renameItems, Item.rename, setQualifiers, Item.mapQualifier, Prod.ext_iff,
            List.filterMap_cons, Item.qualifier?] using ih
      | allOf qualifier options =>
          simp [renameItems, Item.rename, Item.qualifier?, setQualifiers, Item.mapQualifier, ih]
      | all options =>
          simpa [renameItems, Item.rename, setQualifiers, Item.mapQualifier, Prod.ext_iff,
            List.filterMap_cons, Item.qualifier?] using ih

theorem Body.qualifiers_select
    (start : List Expr) (items : List Item) (target : Option Target) (tables : List Joined)
    (clauses : List Expr) :
    (Body.select (.mk start items target tables clauses)).qualifiers =
      items.filterMap Item.qualifier? := by
  simp [Body.qualifiers, Body.selects, Select.items]

theorem Body.qualifiers_combined (operator : String) (left right : Body) :
    (Body.combined operator left right).qualifiers = left.qualifiers ++ right.qualifiers := by
  simp [Body.qualifiers, Body.selects]

/-- Each select of a body takes its names before `.*` from the front of the list. -/
theorem Body.setQualifiers_renameInside (r : Renaming) (scopes : List Scope) :
    ∀ (body : Body) (rest : List Name),
      (body.renameInside r scopes).setQualifiers
          (body.qualifiers.map (r.allOf scopes) ++ rest) =
        (body.rename r scopes, rest)
  | .select (.mk start items target tables clauses), rest => by
      rw [Body.qualifiers_select, Body.renameInside, Select.renameInside, Body.setQualifiers,
        setQualifiers_renameItems, Body.rename, Select.rename]
  | .combined operator left right, rest => by
      have hleft := setQualifiers_renameInside r scopes left
        (right.qualifiers.map (r.allOf scopes) ++ rest)
      have hright := setQualifiers_renameInside r scopes right rest
      rw [Body.qualifiers_combined, List.map_append, List.append_assoc, Body.renameInside,
        Body.setQualifiers]
      simp only [hleft, hright, Body.rename]
  | .query _, _ => rfl
  | .values _, _ => rfl
  | .table _, _ => rfl
  | .command _, _ => rfl

/-! ## A rewriter renames and passes all sites -/

/-- A query inside another one restores the scopes around it when it is left. -/
theorem Visits.within
    {α : Type} {job : Job} {scopes : List Scope} {query : Query} {action : Rewriting α}
    {value : α} {sites : List Site} (hscopes : scopes ≠ [])
    (haction : Visits job (Scope.ofQuery query :: scopes) action value sites) :
    Visits job scopes (Rewriter.within query action) value sites := by
  intro tally
  obtain ⟨scope, rest, rfl⟩ := List.exists_cons_of_ne_nil hscopes
  have henter : (Rewriter.enter query).run (Rewriter.at (scope :: rest) tally) =
      ((), Rewriter.at (Scope.ofQuery query :: scope :: rest) tally) := rfl
  unfold Rewriter.within
  rw [Rewriter.run_bind henter, Rewriter.run_bind (haction tally)]
  rfl

/-- The visit of a query is a visit of its parts below its own scope. -/
def Query.VisitsParts (job : Job) (scopes : List Scope) (query : Query) : Prop :=
  ∃ parts : Rewriting Query, query.visit job = Rewriter.within query parts ∧
    Visits job (Scope.ofQuery query :: scopes) parts
      (query.rename (.ofRule job.rule) scopes) (query.sites scopes)

theorem Query.VisitsParts.visits
    {job : Job} {scopes : List Scope} {query : Query} (h : query.VisitsParts job scopes)
    (hscopes : scopes ≠ []) :
    Visits job scopes (query.visit job) (query.rename (.ofRule job.rule) scopes)
      (query.sites scopes) := by
  obtain ⟨parts, hvisit, hparts⟩ := h
  rw [hvisit]
  exact hparts.within hscopes

theorem aliasSites_label (scopes : List Scope) (label : Option Alias) :
    ∀ site ∈ aliasSites scopes label, site.role = .column ∨ site.role = .label := by
  cases label <;> simp [aliasSites]

theorem Alias.map_rename_ofRule (rule : Rule) (label : Option Alias) :
    label.map (Alias.rename (Renaming.ofRule rule).label) = label := by
  cases label <;> rfl

mutual

theorem Expr.visits (job : Job) (scopes : List Scope) (hscopes : scopes ≠ []) :
    ∀ expr : Expr, Visits job scopes (expr.visit job)
      (expr.rename (.ofRule job.rule) scopes) (expr.sites scopes)
  | .column name => by
      simp only [Expr.visit, Expr.rename, Expr.sites]
      have hidle : ∀ site ∈ [Site.mk .column [name] scopes],
          site.role = .column ∨ site.role = .label := by
        simp
      exact Visits.skip hidle (Visits.pure (Expr.column name))
  | .path parts => by
      simp only [Expr.visit, Expr.rename, Expr.sites]
      exact (visitPath_visits job scopes parts).map Expr.path
  | .allOf qualifier => by
      simp only [Expr.visit, Expr.rename, Expr.sites]
      exact (visitAllOf_visits job scopes qualifier).map Expr.allOf
  | .query body => by
      simp only [Expr.visit, Expr.rename, Expr.sites]
      exact ((Query.visitsParts job scopes body).visits hscopes).map Expr.query
  | .form form operands => by
      simp only [Expr.visit, Expr.rename, Expr.sites]
      exact (visitExprs_visits job scopes hscopes operands).map (Expr.form form)

theorem visitExprs_visits (job : Job) (scopes : List Scope) (hscopes : scopes ≠ []) :
    ∀ exprs : List Expr, Visits job scopes (visitExprs job exprs)
      (renameExprs (.ofRule job.rule) scopes exprs) (exprSites scopes exprs)
  | [] => Visits.pure []
  | expr :: rest => by
      simp only [visitExprs, renameExprs, exprSites]
      exact (Expr.visits job scopes hscopes expr).bind
        ((visitExprs_visits job scopes hscopes rest).map _)

theorem Query.visitsParts (job : Job) (scopes : List Scope) :
    ∀ query : Query, query.VisitsParts job scopes
  | .mk recursive named body clauses => by
      let inner := Scope.ofQuery (.mk recursive named body clauses) :: scopes
      have hinner : inner ≠ [] := List.cons_ne_nil _ _
      have hqualifiers := visitQualifiers_visits job inner body.qualifiers
      have hnamed := visitNamed_visits job inner hinner named
      have hbody := Body.visits job inner hinner body
      have hclauses := visitExprs_visits job inner hinner clauses
      have hset : body.rename (.ofRule job.rule) inner =
          ((body.renameInside (.ofRule job.rule) inner).setQualifiers
            (body.qualifiers.map ((Renaming.ofRule job.rule).allOf inner))).1 := by
        have h := Body.setQualifiers_renameInside (.ofRule job.rule) inner body []
        rw [List.append_nil] at h
        rw [h]
      refine ⟨_, Query.visit.eq_1 .., ?_⟩
      simp only [Query.rename, Query.sites, List.append_assoc]
      rw [hset]
      exact hqualifiers.bind (hnamed.bind (hbody.bind (hclauses.map _)))

theorem visitNamed_visits (job : Job) (scopes : List Scope) (hscopes : scopes ≠ []) :
    ∀ named : List Named, Visits job scopes (visitNamed job named)
      (renameNamed (.ofRule job.rule) scopes named) (namedSites scopes named)
  | [] => Visits.pure []
  | .mk name body source :: rest => by
      simp only [visitNamed, renameNamed, namedSites]
      exact ((Query.visitsParts job scopes body).visits hscopes).bind
        ((visitNamed_visits job scopes hscopes rest).map _)

theorem Body.visits (job : Job) (scopes : List Scope) (hscopes : scopes ≠ []) :
    ∀ body : Body, Visits job scopes (body.visit job)
      (body.renameInside (.ofRule job.rule) scopes) (body.sites scopes)
  | .select select => by
      simp only [Body.visit, Body.renameInside, Body.sites]
      exact (Select.visits job scopes hscopes select).map Body.select
  | .query query => by
      simp only [Body.visit, Body.renameInside, Body.rename, Body.sites]
      exact ((Query.visitsParts job scopes query).visits hscopes).map Body.query
  | .combined operator left right => by
      simp only [Body.visit, Body.renameInside, Body.sites]
      exact (Body.visits job scopes hscopes left).bind
        ((Body.visits job scopes hscopes right).map _)
  | .values rows => by
      simp only [Body.visit, Body.renameInside, Body.rename, Body.sites]
      exact (visitExprs_visits job scopes hscopes rows).map Body.values
  | .table words => Visits.pure (Body.table words)
  | .command statement => by
      simp only [Body.visit, Body.renameInside, Body.rename, Body.sites]
      exact (Statement.visits job scopes hscopes statement).map Body.command

theorem Select.visits (job : Job) (scopes : List Scope) (hscopes : scopes ≠ []) :
    ∀ select : Select, Visits job scopes (select.visit job)
      (select.renameInside (.ofRule job.rule) scopes) (select.sites scopes)
  | .mk start items target tables clauses => by
      simp only [Select.visit, Select.renameInside, Select.sites, List.append_assoc]
      exact (visitExprs_visits job scopes hscopes start).bind
        ((visitItems_visits job scopes hscopes items).bind
          ((visitTables_visits job scopes hscopes tables).bind
            ((visitExprs_visits job scopes hscopes clauses).map _)))

theorem visitItems_visits (job : Job) (scopes : List Scope) (hscopes : scopes ≠ []) :
    ∀ items : List Item, Visits job scopes (visitItems job items)
      (renameItems (.ofRule job.rule) scopes items) (itemSites scopes items)
  | [] => Visits.pure []
  | item :: rest => by
      simp only [visitItems, renameItems, itemSites]
      exact (Item.visits job scopes hscopes item).bind
        ((visitItems_visits job scopes hscopes rest).map _)

theorem Item.visits (job : Job) (scopes : List Scope) (hscopes : scopes ≠ []) :
    ∀ item : Item, Visits job scopes (item.visit job)
      (item.rename (.ofRule job.rule) scopes) (item.sites scopes)
  | .expr value name => by
      simp only [Item.visit, Item.rename, Item.sites]
      exact (Expr.visits job scopes hscopes value).map fun value => Item.expr value name
  | .allOf qualifier options => by
      simp only [Item.visit, Item.rename, Item.sites]
      exact (visitExprs_visits job scopes hscopes options).map (Item.allOf qualifier)
  | .all options => by
      simp only [Item.visit, Item.rename, Item.sites]
      exact (visitExprs_visits job scopes hscopes options).map Item.all

theorem visitTables_visits (job : Job) (scopes : List Scope) (hscopes : scopes ≠ []) :
    ∀ tables : List Joined, Visits job scopes (visitTables job tables)
      (renameTables (.ofRule job.rule) scopes tables) (tableSites scopes tables)
  | [] => Visits.pure []
  | joined :: rest => by
      simp only [visitTables, renameTables, tableSites]
      exact (Joined.visits job scopes hscopes joined).bind
        ((visitTables_visits job scopes hscopes rest).map _)

theorem Joined.visits (job : Job) (scopes : List Scope) (hscopes : scopes ≠ []) :
    ∀ joined : Joined, Visits job scopes (joined.visit job)
      (joined.rename (.ofRule job.rule) scopes) (joined.sites scopes)
  | .mk first joins => by
      simp only [Joined.visit, Joined.rename, Joined.sites]
      exact (Factor.visits job scopes hscopes first).bind
        ((visitJoins_visits job scopes hscopes joins).map _)

theorem visitJoins_visits (job : Job) (scopes : List Scope) (hscopes : scopes ≠ []) :
    ∀ joins : List Join, Visits job scopes (visitJoins job joins)
      (renameJoins (.ofRule job.rule) scopes joins) (joinSites scopes joins)
  | [] => Visits.pure []
  | .mk words factor condition :: rest => by
      simp only [visitJoins, renameJoins, joinSites, List.append_assoc]
      exact (Factor.visits job scopes hscopes factor).bind
        ((visitExprs_visits job scopes hscopes condition).bind
          ((visitJoins_visits job scopes hscopes rest).map _))

theorem Factor.visits (job : Job) (scopes : List Scope) (hscopes : scopes ≠ []) :
    ∀ factor : Factor, Visits job scopes (factor.visit job)
      (factor.rename (.ofRule job.rule) scopes) (factor.sites scopes)
  | .table name details label hints => by
      simp only [Factor.visit, Factor.rename, Factor.sites, Alias.map_rename_ofRule,
        List.append_assoc]
      exact Visits.skip (aliasSites_label scopes label)
        ((visitRelation_visits job scopes name).bind
          ((visitExprs_visits job scopes hscopes details).bind
            ((visitExprs_visits job scopes hscopes hints).map _)))
  | .derived lateral query label => by
      simp only [Factor.visit, Factor.rename, Factor.sites, Alias.map_rename_ofRule]
      exact Visits.skip (aliasSites_label scopes label)
        (((Query.visitsParts job scopes query).visits hscopes).map _)
  | .nested inner label => by
      simp only [Factor.visit, Factor.rename, Factor.sites]
      exact (Joined.visits job scopes hscopes inner).map fun inner => Factor.nested inner label
  | .transformed inner operation label => by
      simp only [Factor.visit, Factor.rename, Factor.sites]
      exact (Factor.visits job scopes hscopes inner).bind
        ((Expr.visits job scopes hscopes operation).map _)
  | .computed source label suffix => by
      simp only [Factor.visit, Factor.rename, Factor.sites]
      exact (Expr.visits job scopes hscopes source).map fun source =>
        Factor.computed source label suffix

theorem Statement.visits (job : Job) (scopes : List Scope) (hscopes : scopes ≠ []) :
    ∀ statement : Statement, Visits job scopes (statement.visit job)
      (statement.rename (.ofRule job.rule) scopes) (statement.sites scopes)
  | .query query => by
      simp only [Statement.visit, Statement.rename, Statement.sites]
      exact ((Query.visitsParts job scopes query).visits hscopes).map Statement.query
  | .command parts => by
      simp only [Statement.visit, Statement.rename, Statement.sites]
      exact (visitParts_visits job scopes hscopes parts).map Statement.command

theorem visitParts_visits (job : Job) (scopes : List Scope) (hscopes : scopes ≠ []) :
    ∀ parts : List Part, Visits job scopes (visitParts job parts)
      (renameParts (.ofRule job.rule) scopes parts) (partSites scopes parts)
  | [] => Visits.pure []
  | part :: rest => by
      simp only [visitParts, renameParts, partSites]
      exact (Part.visits job scopes hscopes part).bind
        ((visitParts_visits job scopes hscopes rest).map _)

theorem Part.visits (job : Job) (scopes : List Scope) (hscopes : scopes ≠ []) :
    ∀ part : Part, Visits job scopes (part.visit job)
      (part.rename (.ofRule job.rule) scopes) (part.sites scopes)
  | .words text => Visits.pure (Part.words text)
  | .target name => by
      simp only [Part.visit, Part.rename, Part.sites]
      exact (visitRelation_visits job scopes name).map Part.target
  | .expr value => by
      simp only [Part.visit, Part.rename, Part.sites]
      exact (Expr.visits job scopes hscopes value).map Part.expr
  | .query query => by
      simp only [Part.visit, Part.rename, Part.sites]
      exact ((Query.visitsParts job scopes query).visits hscopes).map Part.query
  | .tables joined => by
      simp only [Part.visit, Part.rename, Part.sites]
      exact (Joined.visits job scopes hscopes joined).map Part.tables
  | .item item => by
      simp only [Part.visit, Part.rename, Part.sites]
      exact (Item.visits job scopes hscopes item).map Part.item
  | .statement statement => by
      simp only [Part.visit, Part.rename, Part.sites]
      exact (Statement.visits job scopes hscopes statement).map Part.statement

end

/-! ## A query as a whole -/

/-- Outside all queries the tables of the query are the pending ones. -/
theorem Query.visit_run_outermost
    (job : Job) (query : Query) (stats : RewriteStats) (log : List Entry) :
    (query.visit job).run ⟨[], stats, log⟩ =
      (query.rename (.ofRule job.rule) [],
        ⟨[], (Tally.visitAll job ⟨query.pending, stats, log⟩ (query.sites [])).stats,
          (Tally.visitAll job ⟨query.pending, stats, log⟩ (query.sites [])).log⟩) := by
  obtain ⟨parts, hvisit, hparts⟩ := Query.visitsParts job [] query
  have henter : (Rewriter.enter query).run ⟨[], stats, log⟩ =
      ((), Rewriter.at [Scope.ofQuery query] ⟨query.pending, stats, log⟩) := rfl
  rw [hvisit]
  unfold Rewriter.within
  rw [Rewriter.run_bind henter, Rewriter.run_bind (hparts _)]
  rfl

namespace Tally

theorem stats_visitAll (job : Job) (tally : Tally) (sites : List Site) :
    (tally.visitAll job sites).stats =
      tally.stats + ⟨sites.countP fun site => (site.moved? job.rule).isSome, 0⟩ := by
  induction sites generalizing tally with
  | nil => rfl
  | cons site rest ih =>
      rw [visitAll_cons, ih, visit, RewriteStats.add_counts, List.countP_cons, Nat.add_comm]
      cases site.moved? job.rule <;> rfl

theorem log_visitAll (job : Job) (tally : Tally) (sites : List Site) :
    (tally.visitAll job sites).log =
      tally.log ++ (withClauses tally.pending sites).filterMap fun (site, clause) =>
        site.entry? job clause := by
  induction sites generalizing tally with
  | nil => simp [withClauses]
  | cons site rest ih =>
      rw [visitAll_cons, ih, withClauses, List.filterMap_cons]
      cases hentry : site.entry? job (site.clause tally.pending).1 with
      | none => simp [visit, hentry]
      | some entry => simp [visit, hentry]

end Tally

/-- Rewriting a query renames it, counts the sites whose names are moved and
tells them in the order of visits. -/
theorem Statement.rewrite_query (rule : Rule) (view : Path) (origin : String) (query : Query) :
    (Statement.query query).rewrite rule view origin =
      ⟨.query (query.rename (.ofRule rule) []),
        ⟨(query.sites []).countP fun site => (site.moved? rule).isSome, 0⟩,
        query.replacements ⟨rule, view, origin⟩⟩ := by
  have hrun := Query.visit_run_outermost ⟨rule, view, origin⟩ query .zero []
  have hstats : ∀ count : Nat, RewriteStats.zero + ⟨count, 0⟩ = ⟨count, 0⟩ := by
    intro count
    exact congrArg (fun replaced => RewriteStats.mk replaced 0) (Nat.zero_add count)
  unfold Statement.rewrite Rewriter.rewrite Rewriter.start
  simp only [Rewriter.run_bind hrun, Tally.stats_visitAll, Tally.log_visitAll, hstats,
    List.nil_append]
  rfl

end Relocate.Sql
