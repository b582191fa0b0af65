import Mathlib.Data.List.Forall2
import Relocate.Proofs.Sql.Sites
import Relocate.Proofs.Sql.Visits

/-!
# Which names a rule replaces

A name is replaced when its first identifiers are the source up to ASCII case,
unless it is exempt at its place.  `Site.moved?_eq` says that this is what a
rewriter decides at a site, and `Statement.rewrite_query_replaces` what follows
for a query as a whole: names at other sites stay, and so does everything else.
-/

namespace Relocate.Sql

open Catalog Text

/-! ## Names that start with segments -/

/-- The first identifiers of the name are the segments up to ASCII case. -/
def Name.StartsWith (segments : Path) (name : Name) : Prop :=
  List.Forall₂ (fun ident segment => sameFold ident.value segment = true)
    (name.take segments.length) segments

theorem Name.suffix?_eq_some_iff
    {segments : Path} {name rest : Name} :
    name.suffix? segments = some rest ↔
      name.StartsWith segments ∧ rest = name.drop segments.length := by
  unfold Name.StartsWith
  induction segments generalizing name with
  | nil =>
      rw [Name.suffix?, Option.some.injEq, List.length_nil, List.take_zero, List.drop_zero]
      simp only [List.Forall₂.nil, true_and]
      exact eq_comm
  | cons segment segments ih =>
      cases name with
      | nil => simp [Name.suffix?]
      | cons ident name =>
          rw [Name.suffix?, List.length_cons, List.take_succ_cons, List.drop_succ_cons,
            List.forall₂_cons]
          by_cases hsame : sameFold ident.value segment = true
          · rw [if_pos hsame, ih]
            simp only [hsame, true_and]
          · rw [if_neg hsame]
            simp only [hsame, reduceCtorEq, false_and]

theorem Name.StartsWith.length_le
    {segments : Path} {name : Name} (hstarts : name.StartsWith segments) :
    segments.length ≤ name.length := by
  have heq := hstarts.length_eq
  rw [List.length_take] at heq
  omega

instance (segments : Path) (name : Name) : Decidable (name.StartsWith segments) :=
  decidable_of_iff ((name.suffix? segments).isSome = true) (by
    rw [Option.isSome_iff_exists]
    simp [Name.suffix?_eq_some_iff])

/-- The destination and the identifiers behind the source, which are kept as
they are written. -/
def Name.replaced (rule : Rule) (name : Name) : Name :=
  rule.destination.map Ident.bare ++ name.drop rule.source.length

theorem Name.moved?_eq (rule : Rule) (name : Name) :
    name.moved? rule =
      if name.StartsWith rule.source then some (name.replaced rule) else none := by
  unfold Name.moved?
  by_cases hstarts : name.StartsWith rule.source
  · have hsuffix : name.suffix? rule.source = some (name.drop rule.source.length) :=
      Name.suffix?_eq_some_iff.mpr ⟨hstarts, rfl⟩
    rw [hsuffix, if_pos hstarts]
    rfl
  · have hsuffix : name.suffix? rule.source = none := by
      rw [Option.eq_none_iff_forall_ne_some]
      intro rest hrest
      exact hstarts (Name.suffix?_eq_some_iff.mp hrest).1
    rw [hsuffix, if_neg hstarts]
    rfl

/-- The characters of a replaced name are the path that the rule gives. -/
theorem Name.values_replaced (rule : Rule) (name : Name) :
    (name.replaced rule).map Ident.value = rule.rebuild (name.map Ident.value) := by
  simp [Name.replaced, Rule.rebuild, Ident.bare, Function.comp_def]

/-! ## Exempt names -/

/-- The first identifier, if any, is a local name of a query around the place. -/
def Site.StartsLocal (site : Site) : Prop :=
  ∀ first ∈ site.name.head?, ∃ scope ∈ site.scopes, ∃ qualifier ∈ scope.qualifiers,
    sameFold qualifier first.value = true

/-- The name is no reference that the rule could change, whatever it starts with:
a single identifier that names a query of a `WITH` clause, or a qualifier that is
too short or starts with a local name.  Columns without a qualifier and aliases
are no references at all. -/
def Site.Exempt (rule : Rule) (site : Site) : Prop :=
  match site.role with
  | .relation =>
    ∃ ident, site.name = [ident] ∧ ∃ scope ∈ site.scopes, ∃ named ∈ scope.named,
      sameFold named ident.value = true
  | .path => site.name.length - 1 < rule.source.length ∨ site.StartsLocal
  | .allOf => site.name.length < rule.source.length ∨ site.StartsLocal
  | .column | .label => True

/-- The name starts with the source and is not exempt. -/
def Site.IsReplaced (rule : Rule) (site : Site) : Prop :=
  site.name.StartsWith rule.source ∧ ¬ site.Exempt rule

theorem isNamedQuery_iff (scopes : List Scope) (name : Name) :
    Scope.isNamedQuery scopes name = true ↔
      ∃ ident, name = [ident] ∧ ∃ scope ∈ scopes, ∃ named ∈ scope.named,
        sameFold named ident.value = true := by
  unfold Scope.isNamedQuery
  split <;> simp_all

theorem isQualified_iff
    (rule : Rule) (site : Site) (qualifier : Nat) :
    isQualified rule site.scopes site.name qualifier = true ↔
      ¬ (qualifier < rule.source.length ∨ site.StartsLocal) := by
  obtain ⟨role, name, scopes⟩ := site
  cases name with
  | nil => simp [isQualified, Site.StartsLocal]
  | cons first rest => simp [isQualified, Scope.isLocal, Site.StartsLocal]

/-- A rewriter moves the name at a site exactly when it is replaced. -/
theorem Site.moved?_eq_some_iff
    {rule : Rule} {site : Site} {new : Name} :
    site.moved? rule = some new ↔ site.IsReplaced rule ∧ new = site.name.replaced rule := by
  have hname : ∀ {moves : Prop} [Decidable moves],
      (if moves then site.name.moved? rule else none) = some new ↔
        (site.name.StartsWith rule.source ∧ moves) ∧ new = site.name.replaced rule := by
    intro moves _
    rw [Name.moved?_eq]
    by_cases hmoves : moves <;> by_cases hstarts : site.name.StartsWith rule.source <;>
      simp [hmoves, hstarts, eq_comm]
  have hqualified := isQualified_iff rule site
  obtain ⟨role, name, scopes⟩ := site
  unfold Site.IsReplaced Site.Exempt Site.moved?
  cases role with
  | relation =>
      simp only
      rw [← isNamedQuery_iff, ← hname, ite_not]
  | path =>
      simp only
      rw [← hqualified, ← hname]
  | allOf =>
      simp only
      rw [← hqualified, ← hname]
  | column => simp
  | label => simp

instance (rule : Rule) (site : Site) : Decidable (site.IsReplaced rule) :=
  decidable_of_iff ((site.moved? rule).isSome = true) (by
    rw [Option.isSome_iff_exists]
    simp [Site.moved?_eq_some_iff])

/-- The name at the site after the rule. -/
def Site.after (rule : Rule) (site : Site) : Name :=
  if site.IsReplaced rule then site.name.replaced rule else site.name

theorem Site.moved?_eq (rule : Rule) (site : Site) :
    site.moved? rule =
      if site.IsReplaced rule then some (site.name.replaced rule) else none := by
  by_cases hreplaced : site.IsReplaced rule
  · rw [if_pos hreplaced]
    exact Site.moved?_eq_some_iff.mpr ⟨hreplaced, rfl⟩
  · rw [if_neg hreplaced, Option.eq_none_iff_forall_ne_some]
    intro new hnew
    exact hreplaced (Site.moved?_eq_some_iff.mp hnew).1

theorem Site.getD_moved? (rule : Rule) (site : Site) :
    (site.moved? rule).getD site.name = site.after rule := by
  rw [Site.moved?_eq, Site.after]
  split <;> rfl

/-! ## Queries as a whole -/

/-- The renaming that replaces the names of a rule. -/
def Renaming.replacing (rule : Rule) : Renaming where
  relation := fun scopes name => Site.after rule ⟨.relation, name, scopes⟩
  column := id
  path := fun scopes name => Site.after rule ⟨.path, name, scopes⟩
  allOf := fun scopes name => Site.after rule ⟨.allOf, name, scopes⟩
  label := id

theorem Renaming.ofRule_eq_replacing (rule : Rule) : ofRule rule = replacing rule := by
  simp only [ofRule, replacing, ← Site.getD_moved?]

theorem Renaming.spelling_replacing (rule : Rule) (site : Site) :
    (replacing rule).spelling site = (site.role, site.after rule) := by
  obtain ⟨role, name, scopes⟩ := site
  cases role with
  | relation => rfl
  | path => rfl
  | allOf => rfl
  | column => simp [spelling, replacing, Site.after, Site.IsReplaced, Site.Exempt]
  | label => simp [spelling, replacing, Site.after, Site.IsReplaced, Site.Exempt]

/-- The sites whose names a rule replaces, in the order of visits. -/
def Query.replacedSites (rule : Rule) (query : Query) : List Site :=
  (query.sites []).filter fun site => site.IsReplaced rule

/-- The entry tells the name at the site and the name that replaces it. -/
def Site.IsToldBy (job : Job) (site : Site) (entry : Entry) : Prop :=
  ∃ clause, entry =
    replacedEntry job.view job.origin clause site.name (site.name.replaced job.rule)

theorem entries_tell_replaced
    (job : Job) (pending : List (String × Clause)) (sites : List Site) :
    List.Forall₂ (Site.IsToldBy job)
      (sites.filter fun site => site.IsReplaced job.rule)
      ((withClauses pending sites).filterMap fun (site, clause) => site.entry? job clause) := by
  induction sites generalizing pending with
  | nil => exact List.Forall₂.nil
  | cons site rest ih =>
      rw [withClauses, List.filterMap_cons]
      by_cases hreplaced : site.IsReplaced job.rule
      · have hentry : ∀ clause, site.entry? job clause =
            some (replacedEntry job.view job.origin clause site.name
              (site.name.replaced job.rule)) := by
          intro clause
          rw [Site.entry?, Site.moved?_eq, if_pos hreplaced]
          rfl
        rw [List.filter_cons_of_pos (by simpa using hreplaced)]
        simp only [hentry]
        exact List.Forall₂.cons ⟨_, rfl⟩ (ih _)
      · have hentry : ∀ clause, site.entry? job clause = none := by
          intro clause
          rw [Site.entry?, Site.moved?_eq, if_neg hreplaced]
          rfl
        rw [List.filter_cons_of_neg (by simpa using hreplaced)]
        simp only [hentry]
        exact ih _

theorem Query.countP_moved? (rule : Rule) (query : Query) :
    (query.sites []).countP (fun site => (site.moved? rule).isSome) =
      (query.replacedSites rule).length := by
  rw [Query.replacedSites, ← List.countP_eq_length_filter]
  refine List.countP_congr fun site _ => ?_
  rw [Site.moved?_eq]
  split <;> simp_all

/-- Rewriting a query changes the names of the replaced sites and nothing else.
Each of them is judged by the name that the query had before and replaced once;
its characters become the path that the rule gives.  Each is counted and told
once, in the order of visits. -/
theorem Statement.rewrite_query_replaces
    (rule : Rule) (view : Path) (origin : String) (query : Query) :
    let result := (Statement.query query).rewrite rule view origin
    result.statement = .query (query.rename (.replacing rule) []) ∧
    ((query.rename (.replacing rule) []).sites []).map Site.spelling =
      (query.sites []).map (fun site => (site.role, site.after rule)) ∧
    (∀ site ∈ query.replacedSites rule,
      (site.after rule).map Ident.value = rule.rebuild (site.name.map Ident.value)) ∧
    result.stats = ⟨(query.replacedSites rule).length, 0⟩ ∧
    result.log.length = (query.replacedSites rule).length ∧
    List.Forall₂ (Site.IsToldBy ⟨rule, view, origin⟩) (query.replacedSites rule) result.log := by
  have htold := entries_tell_replaced ⟨rule, view, origin⟩ query.pending (query.sites [])
  have hspelling := (Query.sites_rename (.replacing rule) query).spelling
  rw [funext (Renaming.spelling_replacing rule)] at hspelling
  intro result
  have hresult : result = ⟨.query (query.rename (.replacing rule) []),
      ⟨(query.replacedSites rule).length, 0⟩, query.replacements ⟨rule, view, origin⟩⟩ := by
    rw [← Renaming.ofRule_eq_replacing, ← Query.countP_moved?]
    exact Statement.rewrite_query rule view origin query
  rw [hresult]
  refine ⟨rfl, hspelling, ?_, rfl, htold.length_eq.symm, htold⟩
  intro site hsite
  have hreplaced : site.IsReplaced rule := by
    simpa using (List.mem_filter.mp hsite).2
  rw [Site.after, if_pos hreplaced, Name.values_replaced]

end Relocate.Sql
