import Relocate.Proofs.Sql.Succession

/-!
# Rules in either order

Two unrelated rules never replace the same name, so on a query they can go in either
order when none of them changes what is local for the other.  Each replaces as many
names as it would alone: this is read off a renaming that writes a mark wherever a rule
replaces a name, `Query.length_replacedSites_rename`.
-/

namespace Relocate.Sql

open Catalog Text

/-! ## Which names a rule finds -/

/-- No identifier where the rule replaces the name, and one that is no name elsewhere. -/
def Site.mark (rule : Rule) (site : Site) : Name :=
  if site.IsReplaced rule then [] else [.bare ""]

/-- Writes the marks of a rule in place of the names that it could replace. -/
def Renaming.marking (rule : Rule) : Renaming where
  relation := fun scopes name => Site.mark rule ⟨.relation, name, scopes⟩
  column := id
  path := fun scopes name => Site.mark rule ⟨.path, name, scopes⟩
  allOf := fun scopes name => Site.mark rule ⟨.allOf, name, scopes⟩
  label := id

theorem Renaming.goesBy_marking (rule : Rule) : (marking rule).GoesBy rule where
  relation := fun hiff => if_congr hiff rfl rfl
  path := fun hiff => if_congr hiff rfl rfl
  allOf := fun hiff => if_congr hiff rfl rfl

/-- What is written is the mark of a name that is replaced. -/
def IsMark (spelling : Role × Name) : Prop :=
  spelling.1 ≠ .column ∧ spelling.1 ≠ .label ∧ spelling.2 = []

instance (spelling : Role × Name) : Decidable (IsMark spelling) :=
  inferInstanceAs (Decidable (_ ∧ _ ∧ _))

theorem Site.mark_eq_nil_iff {rule : Rule} {site : Site} :
    site.mark rule = [] ↔ site.IsReplaced rule := by
  unfold mark
  split <;> simp_all

theorem Renaming.isMark_marking (rule : Rule) (site : Site) :
    IsMark ((marking rule).spelling site) ↔ site.IsReplaced rule := by
  obtain ⟨role, name, scopes⟩ := site
  cases role with
  | relation => simp [spelling, marking, IsMark, Site.mark_eq_nil_iff]
  | path => simp [spelling, marking, IsMark, Site.mark_eq_nil_iff]
  | allOf => simp [spelling, marking, IsMark, Site.mark_eq_nil_iff]
  | column => simp [spelling, IsMark, Site.IsReplaced, Site.Exempt]
  | label => simp [spelling, IsMark, Site.IsReplaced, Site.Exempt]

theorem Renaming.spelling_andThen (r q : Renaming) (site : Site) :
    (r.andThen q).spelling site = q.spelling { site with name := (r.spelling site).2 } := by
  obtain ⟨role, name, scopes⟩ := site
  cases role <;> simp [spelling, andThen]

/-- The marks that a renaming leaves in a query are those of its sites. -/
theorem Query.countP_isMark (r : Renaming) (query : Query) :
    (((query.rename r []).sites []).map Site.spelling).countP (fun spelling => IsMark spelling) =
      (query.sites []).countP fun site => IsMark (r.spelling site) := by
  rw [(Query.sites_rename r query).spelling, List.countP_map]
  rfl

theorem Query.length_replacedSites (rule : Rule) (query : Query) :
    (query.replacedSites rule).length =
      (((query.rename (.marking rule) []).sites []).map Site.spelling).countP
        fun spelling => IsMark spelling := by
  rw [Query.countP_isMark, Query.replacedSites, ← List.countP_eq_length_filter]
  simp only [Renaming.isMark_marking]

/-! ## Queries -/

/-- For all columns of the query that the other rule may move, the first segment of its
source is a local name after the rule exactly when it was one before. -/
def Query.KeepsLocal (rule other : Rule) (query : Query) : Prop :=
  Fits rule other (query.references [])

instance (rule other : Rule) (query : Query) : Decidable (query.KeepsLocal rule other) :=
  inferInstanceAs (Decidable (∀ use ∈ query.references [], use.MayMove other →
    ∀ head ∈ other.source.head?, use.KeepsLocal rule head))

/-- What an unrelated rule leaves is judged name by name like what was there before. -/
theorem Query.rename_rename
    {rule other : Rule} (hunrelated : rule.Unrelated other) {query : Query}
    (hkeeps : query.KeepsLocal rule other) {q : Renaming} (hgoes : q.GoesBy other) :
    (query.rename (.replacing rule) []).rename q [] =
      query.rename ((Renaming.replacing rule).andThen q) [] :=
  @Query.rename_andThen rule other q hunrelated hgoes [] query hkeeps

theorem Renaming.andThen_comm {first second : Rule} (hunrelated : first.Unrelated second) :
    (replacing first).andThen (replacing second) =
      (replacing second).andThen (replacing first) := by
  have hcomm : ∀ role scopes name,
      Site.after second ⟨role, Site.after first ⟨role, name, scopes⟩, scopes⟩ =
        Site.after first ⟨role, Site.after second ⟨role, name, scopes⟩, scopes⟩ :=
    fun role scopes name => Site.after_comm hunrelated ⟨role, name, scopes⟩
  simp only [andThen, replacing, hcomm]

theorem Query.rename_comm
    {first second : Rule} (hunrelated : first.Unrelated second) {query : Query}
    (hfirst : query.KeepsLocal first second) (hsecond : query.KeepsLocal second first) :
    (query.rename (.replacing first) []).rename (.replacing second) [] =
      (query.rename (.replacing second) []).rename (.replacing first) [] := by
  rw [Query.rename_rename hunrelated hfirst (Renaming.goesBy_replacing second),
    Query.rename_rename hunrelated.symm hsecond (Renaming.goesBy_replacing first),
    Renaming.andThen_comm hunrelated]

theorem Query.length_replacedSites_rename
    {first second : Rule} (hunrelated : first.Unrelated second) {query : Query}
    (hkeeps : query.KeepsLocal first second) :
    ((query.rename (.replacing first) []).replacedSites second).length =
      (query.replacedSites second).length := by
  rw [Query.length_replacedSites,
    Query.rename_rename hunrelated hkeeps (Renaming.goesBy_marking second), Query.countP_isMark,
    Query.replacedSites, ← List.countP_eq_length_filter]
  simp only [Renaming.spelling_andThen, Renaming.spelling_replacing, Renaming.isMark_marking,
    Site.isReplaced_after hunrelated]

/-! ## Statements -/

/-- What is no query is never rewritten. -/
def Statement.KeepsLocal (rule other : Rule) : Statement → Prop
  | .query inner => inner.KeepsLocal rule other
  | .command _ => True

theorem Statement.rewrite_eq
    (rule : Rule) (view : Path) (origin : String) (query : Query) :
    ((Statement.query query).rewrite rule view origin).statement =
      .query (query.rename (.replacing rule) []) ∧
    ((Statement.query query).rewrite rule view origin).stats =
      ⟨(query.replacedSites rule).length, 0⟩ := by
  rw [Statement.rewrite_query, Query.countP_moved?, Renaming.ofRule_eq_replacing]
  exact ⟨rfl, rfl⟩

theorem RewriteStats.add_comm (a b : RewriteStats) : a + b = b + a :=
  congrArg₂ RewriteStats.mk (Nat.add_comm _ _) (Nat.add_comm _ _)

/-- Unrelated rules can go over a statement in either order, and each replaces as many
names as it would alone. -/
theorem Statement.rewrite_comm
    {first second : Rule} (hunrelated : first.Unrelated second) (view : Path) (origin : String)
    {statement : Statement} (hfirst : statement.KeepsLocal first second)
    (hsecond : statement.KeepsLocal second first) :
    let one := statement.rewrite first view origin
    let other := statement.rewrite second view origin
    (one.statement.rewrite second view origin).statement =
      (other.statement.rewrite first view origin).statement ∧
    (one.statement.rewrite second view origin).stats = other.stats := by
  cases statement with
  | command parts => exact ⟨rfl, rfl⟩
  | query inner =>
      simp only [Statement.rewrite_eq]
      exact ⟨congrArg Statement.query (Query.rename_comm hunrelated hfirst hsecond),
        congrArg (RewriteStats.mk · 0) (Query.length_replacedSites_rename hunrelated hfirst)⟩

end Relocate.Sql
