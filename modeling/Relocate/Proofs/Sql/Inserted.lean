import Mathlib.Data.List.Forall2
import Relocate.Proofs.Sql.Commuting
import Relocate.Proofs.Sql.QuoteStyles

/-!
# Quotes around inserted identifiers

A rule inserts the segments of its destination as bare identifiers, and the quotes
that they need are added when the statement is quoted.  The two walks do not cover
the same places: a rule also replaces what stands before `.*`, which quoting leaves
alone.

To tell inserted identifiers from written ones, the provenance of each identifier is
followed through the rules, site for site (`Query.provenance`).  What is true of the
written identifiers and of those that a rule inserts is true after the rule
(`EachTraced.replace`), hence after any number of rules.
-/

namespace Relocate.Sql

open Catalog Text

/-! ## Where identifiers come from -/

/-- How an identifier came to stand in a query. -/
inductive Provenance
  /-- It was written there. -/
  | written (ident : Ident)
  /-- A rule inserted this segment of its destination. -/
  | inserted (segment : String)
deriving DecidableEq, Repr

def Provenance.isInserted : Provenance → Bool
  | .written _ => false
  | .inserted _ => true

/-- The provenance of the identifiers at a site after a rule: those of the destination
are inserted, those behind the source are kept. -/
def Site.provenanceAfter (rule : Rule) (site : Site) (before : List Provenance) :
    List Provenance :=
  if site.IsReplaced rule then
    rule.destination.map .inserted ++ before.drop rule.source.length
  else before

/-- The provenance of the identifiers at all sites of a query after some rules. -/
def Query.provenanceFrom : List Rule → Query → List (List Provenance) → List (List Provenance)
  | [], _, before => before
  | rule :: rules, query, before =>
    provenanceFrom rules (query.rename (.replacing rule) [])
      (List.zipWith (Site.provenanceAfter rule) (query.sites []) before)

/-- Before all rules, every identifier of a query is written. -/
def Query.provenance (rules : List Rule) (query : Query) : List (List Provenance) :=
  query.provenanceFrom rules ((query.sites []).map fun site => site.name.map .written)

/-- At every site there are as many identifiers as provenances, and each identifier has the
property, which may depend on the role of the site. -/
def EachTraced (p : Role → Ident → Provenance → Prop) : List Site → List (List Provenance) → Prop :=
  List.Forall₂ fun site provenance => List.Forall₂ (p site.role) site.name provenance

/-- Every inserted identifier has the property at the role of its site. -/
def EachInserted (p : Role → Ident → Prop) : List Site → List (List Provenance) → Prop :=
  EachTraced fun role ident how => how.isInserted = true → p role ident

instance (p : Role → Ident → Provenance → Prop) [∀ role ident how, Decidable (p role ident how)]
    (sites : List Site) (provenance : List (List Provenance)) :
    Decidable (EachTraced p sites provenance) :=
  inferInstanceAs (Decidable (List.Forall₂
    (fun (site : Site) provenance => List.Forall₂ (p site.role) site.name provenance) _ _))

instance (p : Role → Ident → Prop) [∀ role ident, Decidable (p role ident)]
    (sites : List Site) (provenance : List (List Provenance)) :
    Decidable (EachInserted p sites provenance) :=
  inferInstanceAs (Decidable (EachTraced _ _ _))

/-! ## Rules in a row -/

/-- The query after rules that go over it one after the other. -/
def Query.replaceInTurn (rules : List Rule) (query : Query) : Query :=
  rules.foldl (fun query rule => query.rename (.replacing rule) []) query

/-- The statement after jobs that go over it one after the other. -/
def Statement.rewriteInTurn (jobs : List Job) (statement : Statement) : Statement :=
  jobs.foldl (fun statement job => (statement.rewrite job.rule job.view job.origin).statement)
    statement

theorem Statement.rewriteInTurn_query (jobs : List Job) (query : Query) :
    (Statement.query query).rewriteInTurn jobs =
      .query (query.replaceInTurn (jobs.map Job.rule)) := by
  induction jobs generalizing query with
  | nil => rfl
  | cons job jobs ih =>
      rw [rewriteInTurn, List.foldl_cons, (Statement.rewrite_eq _ _ _ query).1]
      exact ih (query.rename (.replacing job.rule) [])

/-! ## What is true of each identifier -/

theorem forall₂_zipWith
    {α β γ : Type} {R : α → β → Prop} {S : α → γ → Prop} {f : α → β → γ}
    {as : List α} {bs : List β}
    (h : List.Forall₂ R as bs) (hstep : ∀ a b, R a b → S a (f a b)) :
    List.Forall₂ S as (List.zipWith f as bs) := by
  induction h with
  | nil => exact .nil
  | cons hfirst _ ih => exact .cons (hstep _ _ hfirst) ih

section Each

variable {p q known : Role → Ident → Provenance → Prop} {sites : List Site}
  {provenance : List (List Provenance)}

theorem EachTraced.mp
    (h : EachTraced known sites provenance) (hp : EachTraced p sites provenance)
    (himp : ∀ role ident how, known role ident how → p role ident how → q role ident how) :
    EachTraced q sites provenance :=
  List.Forall₂.mp
    (fun site _ hsite hpsite => List.Forall₂.mp (himp site.role) hsite hpsite) h hp

theorem EachTraced.imp
    (h : EachTraced p sites provenance)
    (himp : ∀ role ident how, p role ident how → q role ident how) :
    EachTraced q sites provenance :=
  h.mp h fun role ident how hp _ => himp role ident how hp

theorem eachTraced_written
    (hwritten : ∀ role ident, p role ident (.written ident)) (sites : List Site) :
    EachTraced p sites (sites.map fun site => site.name.map .written) := by
  refine List.forall₂_map_right_iff.mpr (List.forall₂_same.mpr fun site _ => ?_)
  exact List.forall₂_map_right_iff.mpr (List.forall₂_same.mpr fun ident _ =>
    hwritten site.role ident)

/-- What is true at the sites of a renamed statement, told by the sites before. -/
theorem Respells.eachTraced_iff
    {r : Renaming} {before after : List Site} (h : Respells r before after) :
    EachTraced p after provenance ↔
      List.Forall₂ (fun site provenance =>
        List.Forall₂ (p site.role) (r.spelling site).2 provenance) before provenance := by
  have hspelling := List.forall₂_map_left_iff (f := Site.spelling) (l := after) (u := provenance)
    (R := fun spelling provenance => List.Forall₂ (p spelling.1) spelling.2 provenance)
  rw [h.spelling, List.forall₂_map_left_iff] at hspelling
  exact hspelling.symm

/-- At a site, a rule inserts the identifiers of its destination and no others. -/
theorem Site.traced_after
    {rule : Rule} {site : Site} {before : List Provenance}
    (hrule : ∀ segment ∈ rule.destination, p site.role (.bare segment) (.inserted segment))
    (h : List.Forall₂ (p site.role) site.name before) :
    List.Forall₂ (p site.role) (site.after rule) (site.provenanceAfter rule before) := by
  unfold after provenanceAfter
  split
  · refine List.rel_append ?_ (List.forall₂_drop rule.source.length h)
    refine List.forall₂_map_left_iff.mpr (List.forall₂_map_right_iff.mpr ?_)
    exact List.forall₂_same.mpr hrule
  · exact h

/-- The step of a rule. -/
theorem EachTraced.replace
    {rule : Rule} {query : Query} {before : List (List Provenance)}
    (hrule : ∀ role, ∀ segment ∈ rule.destination, p role (.bare segment) (.inserted segment))
    (h : EachTraced p (query.sites []) before) :
    EachTraced p ((query.rename (.replacing rule) []).sites [])
      (List.zipWith (Site.provenanceAfter rule) (query.sites []) before) := by
  rw [(Query.sites_rename (.replacing rule) query).eachTraced_iff]
  refine forall₂_zipWith h fun site before hsite => ?_
  rw [Renaming.spelling_replacing]
  exact Site.traced_after (hrule site.role) hsite

theorem EachTraced.replaceInTurn
    {rules : List Rule} {query : Query} {before : List (List Provenance)}
    (hrules : ∀ rule ∈ rules, ∀ role, ∀ segment ∈ rule.destination,
      p role (.bare segment) (.inserted segment))
    (h : EachTraced p (query.sites []) before) :
    EachTraced p ((query.replaceInTurn rules).sites []) (query.provenanceFrom rules before) := by
  induction rules generalizing query before with
  | nil => exact h
  | cons rule rules ih =>
      rw [Query.provenanceFrom]
      refine ih (fun later hlater => hrules later (.tail _ hlater)) ?_
      exact h.replace (hrules rule (.head _))

theorem EachTraced.applyQuoting
    {query : Query} (h : EachTraced p (query.sites []) provenance)
    (hquoted : ∀ role ident how, p role ident how → q role (ident.quotedAs role) how) :
    EachTraced q ((Statement.query query).applyQuoting.sites []) provenance := by
  rw [(Statement.query query).applyQuoting_respells.eachTraced_iff]
  refine List.Forall₂.imp (fun site provenance hsite => ?_) h
  rw [Renaming.spelling_quoting]
  exact List.forall₂_map_left_iff.mpr (hsite.imp (hquoted site.role))

end Each

/-! ## Quotes after all rules -/

/-- The identifier is in quotes if it needs them. -/
def Ident.QuotedAsNeeded (ident : Ident) : Prop :=
  needsQuoting ident.value = true → ident.quote = some '"'

instance (ident : Ident) : Decidable ident.QuotedAsNeeded :=
  inferInstanceAs (Decidable (_ → _))

/-- Quoting adds the quotes that a segment needs, except before `.*`. -/
theorem Ident.quote_quotedAs_bare (role : Role) (segment : String) :
    needsQuoting ((Ident.bare segment).quotedAs role).value = true →
      (((Ident.bare segment).quotedAs role).quote = some '"' ↔ role ≠ .allOf) := by
  intro hneeds
  cases role with
  | allOf => simp [quotedAs, bare]
  | _ => simpa [quotedAs, quoted] using hneeds

/-- The identifier is what its provenance says: the one that was written, or a bare segment of
the destination of one of the rules. -/
def Provenance.Accounts (rules : List Rule) (ident : Ident) : Provenance → Prop
  | .written old => ident = old
  | .inserted segment => ident = .bare segment ∧ ∃ rule ∈ rules, segment ∈ rule.destination

theorem Query.replaceInTurn_accounts (rules : List Rule) (query : Query) :
    EachTraced (fun _ ident how => how.Accounts rules ident)
      ((query.replaceInTurn rules).sites []) (query.provenance rules) := by
  refine EachTraced.replaceInTurn ?_ (eachTraced_written ?_ _)
  · exact fun rule hrule _ segment hsegment => ⟨rfl, rule, hrule, hsegment⟩
  · exact fun _ _ => rfl

theorem Statement.rewriteInTurn_accounts (jobs : List Job) (query : Query) :
    EachTraced
      (fun role ident how =>
        ∃ before, how.Accounts (jobs.map Job.rule) before ∧ ident = before.quotedAs role)
      (((Statement.query query).rewriteInTurn jobs).applyQuoting.sites [])
      (query.provenance (jobs.map Job.rule)) := by
  rw [Statement.rewriteInTurn_query]
  exact (Query.replaceInTurn_accounts _ query).applyQuoting fun _ ident _ hident =>
    ⟨ident, hident, rfl⟩

/-- After rules in a row and quoting, every identifier is a written one or a segment of a
destination, up to the quotes.  A segment that needs quotes is in quotes exactly when it does
not stand before `.*`.  So all segments have the quotes that they need exactly when none
before `.*` needs any. -/
theorem Statement.rewriteInTurn_quotes_iff (jobs : List Job) (query : Query) :
    let sites := ((Statement.query query).rewriteInTurn jobs).applyQuoting.sites []
    let provenance := query.provenance (jobs.map Job.rule)
    EachTraced
      (fun role ident how =>
        ∃ before, how.Accounts (jobs.map Job.rule) before ∧ ident = before.quotedAs role)
      sites provenance ∧
    EachInserted (fun role ident => needsQuoting ident.value = true →
      (ident.quote = some '"' ↔ role ≠ .allOf)) sites provenance ∧
    (EachInserted (fun _ ident => ident.QuotedAsNeeded) sites provenance ↔
      EachInserted (fun role ident => role = .allOf → needsQuoting ident.value = false)
        sites provenance) := by
  intro sites provenance
  have haccounts := Statement.rewriteInTurn_accounts jobs query
  have hquotes : EachInserted (fun role ident => needsQuoting ident.value = true →
      (ident.quote = some '"' ↔ role ≠ .allOf)) sites provenance := by
    refine haccounts.imp ?_
    rintro role _ how ⟨before, hbefore, rfl⟩ hhow
    cases how with
    | written old => cases hhow
    | inserted segment =>
        rw [hbefore.1]
        exact Ident.quote_quotedAs_bare role segment
  refine ⟨haccounts, hquotes, fun hneeded => ?_, fun hspared => ?_⟩
  · refine EachTraced.mp hquotes hneeded fun role ident how hquote hident hhow hallOf => ?_
    rw [← Bool.not_eq_true]
    intro hneeds
    exact (hquote hhow hneeds).mp (hident hhow hneeds) hallOf
  · refine EachTraced.mp hquotes hspared fun role ident how hquote hident hhow hneeds => ?_
    refine (hquote hhow hneeds).mpr fun hallOf => ?_
    rw [hident hhow hallOf] at hneeds
    cases hneeds

/-- `SELECT Prod.Orders.* FROM Prod.Orders` -/
def allOfOrders : Query :=
  let orders : Name := [.bare "Prod", .bare "Orders"]
  .mk false []
    (.select (.mk [] [.allOf orders []] none [.mk (.table orders [] none []) []] [])) []

/-- The rule gives both names a segment that needs quotes, and only the table gets them. -/
theorem allOfOrders_not_quoted :
    let after := ((Statement.query allOfOrders).rewriteInTurn
      [⟨⟨["Prod"], ["Sales EU"]⟩, ["Analytics", "Report"], "Source migration"⟩]).applyQuoting
    after.render = "SELECT Sales EU.Orders.* FROM \"Sales EU\".Orders" ∧
      ¬ EachInserted (fun _ ident => ident.QuotedAsNeeded) (after.sites [])
        (allOfOrders.provenance [⟨["Prod"], ["Sales EU"]⟩]) := by
  rw [Statement.rewriteInTurn_query]
  decide +kernel

end Relocate.Sql
