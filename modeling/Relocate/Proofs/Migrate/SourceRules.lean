import Relocate.Migrate.Apply
import Relocate.Proofs.Sql.Commuting
import Relocate.Proofs.Text.Prefixes

/-!
# Source rules in either order

A source rule moves no object.  It changes the contexts and the statements of all views
and the parents of all dependency records, each by itself, so two source rules can go in
either order when they can on each of these.

Contexts and statements are matched by segments, and there it is enough that the rules
are unrelated and that none of them changes the local names that the other asks for.
Parents are matched as texts, in which a segment may begin like a longer one:
`Dependency.Clashes` says when a parent begins with both sources.
-/

namespace Relocate.Catalog

open Sql Text

/-! ## One value under two rules -/

/-- Where one of two moves applies, the other one applies neither before nor after it. -/
structure Apart {α : Type} (f g : α → Option α) (x : α) : Prop where
  left : ∀ y, f x = some y → g x = none ∧ g y = none
  right : ∀ y, g x = some y → f y = none

theorem Apart.getD_comm {α : Type} {f g : α → Option α} {x : α} (hapart : Apart f g x) :
    (g ((f x).getD x)).getD ((f x).getD x) = (f ((g x).getD x)).getD ((g x).getD x) := by
  cases hf : f x with
  | some y =>
      obtain ⟨hx, hy⟩ := hapart.left y hf
      simp [hx, hy, hf]
  | none =>
      cases hg : g x with
      | some z => simp [hg, hapart.right z hg]
      | none => simp [hf, hg]

/-- A context has at most one of the sources above it, before and after a rule. -/
theorem Rule.Unrelated.apart_moved?
    {first second : Rule} (hunrelated : first.Unrelated second) (context : Path) :
    Apart first.moved? second.moved? context := by
  have hmoved : ∀ {rule other : Rule}, rule.Unrelated other → ∀ {new : Path},
      rule.moved? context = some new →
        other.moved? context = none ∧ other.moved? new = none := by
    intro rule other hunrelated new hnew
    obtain ⟨hcovers, hnew⟩ := Option.ite_none_right_eq_some.mp hnew
    obtain rfl := Option.some.inj hnew
    have hstarts := Path.lower_isPrefix (Path.covers_iff_isPrefix.mp hcovers)
    refine ⟨if_neg fun hother => ?_, if_neg fun hother => ?_⟩
    · exact hunrelated.not_isPrefix hstarts
        (Path.lower_isPrefix (Path.covers_iff_isPrefix.mp hother))
    · exact hunrelated.not_isPrefix_rebuild context
        (Path.lower_isPrefix (Path.covers_iff_isPrefix.mp hother))
  exact ⟨fun _ hnew => hmoved hunrelated hnew, fun _ hnew => (hmoved hunrelated.symm hnew).2⟩

/-- As a text the parent begins with the first source, and with the second one too, before
or after the first rule. -/
def Dependency.Clashes (first second : Rule) (parent : String) : Prop :=
  startsWithFold parent first.source.slashed = true ∧
    (startsWithFold parent second.source.slashed = true ∨
      startsWithFold ((movedParent? first parent).getD parent) second.source.slashed = true)

instance (first second : Rule) (parent : String) :
    Decidable (Dependency.Clashes first second parent) :=
  inferInstanceAs (Decidable (_ ∧ (_ ∨ _)))

namespace Dependency

theorem isSome_movedParent? (rule : Rule) (parent : String) :
    (movedParent? rule parent).isSome = startsWithFold parent rule.source.slashed :=
  isSome_replacePrefix? parent rule.source.slashed rule.destination.slashed

theorem apart_movedParent?
    {first second : Rule} {parent : String} (hfirst : ¬ Clashes first second parent)
    (hsecond : ¬ Clashes second first parent) :
    Apart (movedParent? first) (movedParent? second) parent := by
  have hmoved : ∀ {rule other : Rule}, ¬ Clashes rule other parent → ∀ {new : String},
      movedParent? rule parent = some new →
        movedParent? other parent = none ∧ movedParent? other new = none := by
    intro rule other hclash new hnew
    have hbegins : startsWithFold parent rule.source.slashed = true := by
      rw [← isSome_movedParent?, hnew]
      rfl
    obtain ⟨hbefore, hafter⟩ := not_or.mp fun hboth => hclash ⟨hbegins, hboth⟩
    rw [hnew, Option.getD_some] at hafter
    rw [← isSome_movedParent?, Option.not_isSome_iff_eq_none] at hbefore hafter
    exact ⟨hbefore, hafter⟩
  exact ⟨fun _ hnew => hmoved hfirst hnew, fun _ hnew => (hmoved hsecond hnew).2⟩

/-- The record is the same after both rules, whichever goes first. -/
theorem rewriteParents_comm
    {first second : Rule} {record : Dependency}
    (hparents : ∀ parent ∈ record.parents,
      ¬ Clashes first second parent ∧ ¬ Clashes second first parent) :
    (record.rewriteParents first).rewriteParents second =
      (record.rewriteParents second).rewriteParents first := by
  unfold rewriteParents
  simp only [List.map_map]
  refine congrArg (Dependency.mk record.path) (List.map_congr_left fun parent hparent => ?_)
  obtain ⟨hfirst, hsecond⟩ := hparents parent hparent
  exact (apart_movedParent? hfirst hsecond).getD_comm

end Dependency

/-! ## Views -/

namespace View

theorem applySourceRule_view (rule : Rule) (view : View) :
    (view.applySourceRule rule).view = { view with
      context := view.context.map fun context => (rule.moved? context).getD context
      query := view.query.map fun statement =>
        (statement.rewrite rule view.path sourceOrigin).statement } := by
  have hcontext : (view.sourceContext? rule <|> view.context) =
      view.context.map fun context => (rule.moved? context).getD context := by
    unfold sourceContext?
    cases view.context with
    | none => rfl
    | some context =>
        cases hmoved : rule.moved? context <;> simp [hmoved]
  rw [← hcontext]
  unfold applySourceRule rewrite
  cases view.query <;> rfl

theorem applySourceRule_stats (rule : Rule) (view : View) :
    (view.applySourceRule rule).stats = (view.query.map fun statement =>
      (statement.rewrite rule view.path sourceOrigin).stats).getD .zero := by
  unfold applySourceRule rewrite
  cases view.query <;> rfl

/-- Neither rule changes what is local for the other one in the statement of the view. -/
def KeepsLocal (first second : Rule) (view : View) : Prop :=
  ∀ statement ∈ view.query,
    statement.KeepsLocal first second ∧ statement.KeepsLocal second first

/-- The view is the same after both rules, whichever goes first, and the second one
replaces as many names as it would alone. -/
theorem applySourceRule_comm
    {first second : Rule} (hunrelated : first.Unrelated second) {view : View}
    (hkeeps : view.KeepsLocal first second) :
    ((view.applySourceRule first).view.applySourceRule second).view =
      ((view.applySourceRule second).view.applySourceRule first).view ∧
    ((view.applySourceRule first).view.applySourceRule second).stats =
      (view.applySourceRule second).stats := by
  obtain ⟨id, path, sql, context, extra, query⟩ := view
  simp only [applySourceRule_view, applySourceRule_stats, Option.map_map, Function.comp_def]
  have hcontext : ∀ path, (second.moved? ((first.moved? path).getD path)).getD
      ((first.moved? path).getD path) =
        (first.moved? ((second.moved? path).getD path)).getD ((second.moved? path).getD path) :=
    fun path => (hunrelated.apart_moved? path).getD_comm
  simp only [hcontext]
  cases query with
  | none => exact ⟨rfl, rfl⟩
  | some statement =>
      obtain ⟨hfirst, hsecond⟩ := hkeeps statement rfl
      obtain ⟨hstatement, hstats⟩ :=
        Statement.rewrite_comm hunrelated path sourceOrigin hfirst hsecond
      simp only [Option.map_some, Option.getD_some, hstatement, hstats, and_self]

end View

/-! ## Catalogs -/

theorem totalStats_congr {changes others : List ViewChange}
    (hstats : changes.map ViewChange.stats = others.map ViewChange.stats) :
    totalStats changes = totalStats others := by
  have hfold : ∀ changes : List ViewChange,
      totalStats changes = (changes.map ViewChange.stats).foldl (· + ·) .zero :=
    fun changes => List.foldl_map.symm
  rw [hfold, hfold, hstats]

/-- The rule replaces as many names in the views that an unrelated one leaves as it would
alone. -/
theorem applySourceRule_stats_after
    {first second : Rule} (hunrelated : first.Unrelated second) {catalog : Catalog}
    (hviews : ∀ view ∈ catalog.views, view.KeepsLocal first second) :
    ((catalog.applySourceRule first).catalog.applySourceRule second).stats =
      (catalog.applySourceRule second).stats := by
  refine totalStats_congr ?_
  simp only [applySourceRule, List.map_map]
  refine List.map_congr_left fun view hview => ?_
  exact (View.applySourceRule_comm hunrelated (hviews view hview)).2

/-- Two source rules can go in either order when no source agrees, up to ASCII case, with
a path of the other rule, when no parent of a record begins as a text with both sources,
and when no rule makes the first segment of the other source a local name, or none any
more, around a column that is qualified with that source.  The catalog is the same after
both, and each rule replaces as many references as it would alone. -/
theorem unrelated_source_rules_commute
    {first second : Rule} (hunrelated : first.Unrelated second) {catalog : Catalog}
    (hviews : ∀ view ∈ catalog.views, view.KeepsLocal first second)
    (hparents : ∀ record ∈ catalog.dependencies, ∀ parent ∈ record.parents,
      ¬ Dependency.Clashes first second parent ∧ ¬ Dependency.Clashes second first parent) :
    let one := catalog.applySourceRule first
    let other := catalog.applySourceRule second
    let both := one.catalog.applySourceRule second
    let back := other.catalog.applySourceRule first
    both.catalog = back.catalog ∧ one.stats + both.stats = other.stats + back.stats ∧
      both.stats = other.stats ∧ back.stats = one.stats := by
  intro one other both back
  have hswapped : ∀ view ∈ catalog.views, view.KeepsLocal second first :=
    fun view hview statement hstatement => (hviews view hview statement hstatement).symm
  have hboth : both.stats = other.stats := applySourceRule_stats_after hunrelated hviews
  have hback : back.stats = one.stats := applySourceRule_stats_after hunrelated.symm hswapped
  refine ⟨?_, ?_, hboth, hback⟩
  · have hnewViews : both.catalog.views = back.catalog.views := by
      simp only [both, back, one, other, applySourceRule, List.map_map]
      exact List.map_congr_left fun view hview =>
        (View.applySourceRule_comm hunrelated (hviews view hview)).1
    have hnewRecords : both.catalog.dependencies = back.catalog.dependencies := by
      simp only [both, back, one, other, applySourceRule, List.map_map]
      exact List.map_congr_left fun record hrecord =>
        Dependency.rewriteParents_comm (hparents record hrecord)
    exact congrArg₂ (fun views records =>
      { catalog with views := views, dependencies := records }) hnewViews hnewRecords
  · rw [hboth, hback, RewriteStats.add_comm]

/-- `SELECT lake.raw.orders.id FROM lake.raw.orders JOIN erp.customers` -/
def selectFromLake : Query :=
  let orders : Name := [.bare "lake", .bare "raw", .bare "orders"]
  let customers : Factor := .table [.bare "erp", .bare "customers"] [] none []
  .mk false []
    (.select (.mk [] [.expr (.path (orders ++ [.bare "id"])) none] none
      [.mk (.table orders [] none []) [.mk "JOIN" customers []]] [])) []

/-- A view that reads two sources, with its dependency record. -/
def readerOfLake : Catalog := { empty with
  views := [⟨"report", ["Marts", "Report"],
    "SELECT lake.raw.orders.id FROM lake.raw.orders JOIN erp.customers", some ["lake", "raw"], [],
    some (.query selectFromLake)⟩]
  dependencies := [⟨["Marts", "Report"], ["Lake/raw/orders", "erp/customers"]⟩] }

/-- A column may be moved by the first rule, and the second one replaces a table as a whole,
but under both names the table is known as `customers`. -/
theorem readerOfLake_rules_commute :
    let first : Rule := ⟨["lake"], ["s3", "landing"]⟩
    let second : Rule := ⟨["ERP", "customers"], ["dwh", "core", "customers"]⟩
    let one := readerOfLake.applySourceRule first
    let other := readerOfLake.applySourceRule second
    let both := one.catalog.applySourceRule second
    let back := other.catalog.applySourceRule first
    first.Unrelated second ∧ (∀ view ∈ readerOfLake.views, view.KeepsLocal first second) ∧
      both.catalog = back.catalog ∧ one.stats + both.stats = other.stats + back.stats ∧
      one.stats + both.stats = ⟨3, 0⟩ ∧
      both.catalog.dependencies =
        [⟨["Marts", "Report"], ["s3/landing/raw/orders", "dwh/core/customers"]⟩] := by
  intro first second one other both back
  have hunrelated : first.Unrelated second := by decide
  have hviews : ∀ view ∈ readerOfLake.views, view.KeepsLocal first second := by
    intro view hview statement hstatement
    obtain rfl := List.mem_singleton.mp hview
    obtain rfl := Option.some.inj hstatement
    have hfirst : selectFromLake.KeepsLocal first second := by decide
    have hsecond : selectFromLake.KeepsLocal second first := by decide
    exact ⟨hfirst, hsecond⟩
  obtain ⟨hcatalog, htotal, -, -⟩ :=
    unrelated_source_rules_commute hunrelated hviews (by decide)
  exact ⟨hunrelated, hviews, hcatalog, htotal, by decide, by decide⟩

/-- The first rule has a table end in `lake`, which is then a local name around the column.
The second rule passes the column over unless it goes first. -/
theorem readerOfLake_order_matters :
    let first : Rule := ⟨["erp", "customers"], ["dwh", "lake"]⟩
    let second : Rule := ⟨["lake"], ["s3"]⟩
    let one := readerOfLake.applySourceRule first
    let other := readerOfLake.applySourceRule second
    let both := one.catalog.applySourceRule second
    let back := other.catalog.applySourceRule first
    let texts := fun catalog : Catalog => catalog.views.map fun view =>
      view.query.map Statement.render
    first.Unrelated second ∧ ¬ selectFromLake.KeepsLocal first second ∧
      texts both.catalog =
        [some "SELECT lake.raw.orders.id FROM s3.raw.orders JOIN dwh.lake"] ∧
      texts back.catalog =
        [some "SELECT s3.raw.orders.id FROM s3.raw.orders JOIN dwh.lake"] ∧
      one.stats + both.stats = ⟨2, 0⟩ ∧ other.stats + back.stats = ⟨3, 0⟩ := by
  intro first second one other both back texts
  exact ⟨by decide, by decide, by decide, by decide, by decide, by decide⟩

/-- As a text `lakehouse/orders` begins with `lake`, and what is left of it after the first
rule does not begin with `lakehouse`. -/
theorem lake_and_lakehouse_clash :
    let first : Rule := ⟨["lake"], ["s3"]⟩
    let second : Rule := ⟨["lakehouse"], ["warehouse"]⟩
    let catalog : Catalog := { empty with
      dependencies := [⟨["Marts", "Report"], ["lakehouse/orders"]⟩] }
    let both := (catalog.applySourceRule first).catalog.applySourceRule second
    let back := (catalog.applySourceRule second).catalog.applySourceRule first
    first.Unrelated second ∧
      both.catalog.dependencies = [⟨["Marts", "Report"], ["s3house/orders"]⟩] ∧
      back.catalog.dependencies = [⟨["Marts", "Report"], ["warehouse/orders"]⟩] ∧
      both.catalog ≠ back.catalog := by
  intro first second catalog both back
  refine ⟨by decide, by decide, by decide, fun hsame => ?_⟩
  exact absurd (congrArg dependencies hsame) (by decide)

end Relocate.Catalog
