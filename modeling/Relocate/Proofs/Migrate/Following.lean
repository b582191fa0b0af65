import Relocate.Proofs.Migrate.Tree
import Relocate.Proofs.Sql.Matching

/-!
# Where references lead after container rules

A container rule changes the statements of the views that it moves and of no
others.  So a table of a view that names another view is followed through the
rules by the moves of the view that it stands in (`View.trackedName`), while the
other view follows its own path.  Both end at the same path when every rule, at
its turn, treats the two alike.
-/

namespace Relocate.Catalog

open Sql

/-! ## Views under container rules -/

/-- The view after container rules, one after the other. -/
def View.relocated (rules : List Rule) (view : View) : View :=
  rules.foldl (fun view rule => (view.applyContainerRule rule).view) view

theorem View.path_rewrite (rule : Rule) (origin : String) (view : View) :
    (view.rewrite rule origin).view.path = view.path := by
  unfold View.rewrite
  split <;> rfl

theorem View.path_applyContainerRule (rule : Rule) (view : View) :
    (view.applyContainerRule rule).view.path = (rule.moved? view.path).getD view.path := by
  cases hmoved : rule.moved? view.path with
  | none => simp [View.applyContainerRule, hmoved]
  | some path => simp [View.applyContainerRule, hmoved, View.path_rewrite]

/-- The query of a view changes when the view itself moves. -/
theorem View.query_applyContainerRule
    (rule : Rule) {view : View} {query : Query} (hquery : view.query = some (.query query)) :
    (view.applyContainerRule rule).view.query =
      some (.query (if rule.source.covers view.path then query.rename (.replacing rule) []
        else query)) := by
  by_cases hcovers : rule.source.covers view.path = true
  · have hmoved : rule.moved? view.path = some (rule.rebuild view.path) := if_pos hcovers
    simp only [View.applyContainerRule, hmoved, hcovers, if_true, View.rewrite, hquery,
      Statement.rewrite_query, Renaming.ofRule_eq_replacing]
  · have hmoved : rule.moved? view.path = none := if_neg hcovers
    simp only [View.applyContainerRule, hmoved, hcovers, hquery]
    rfl

/-- Rules that change each object of a collection by itself do so one after the
other. -/
theorem collection_applyRules
    {α : Type} (collection : Catalog → List α) {apply : Rule → Catalog → RuleResult}
    {change : Rule → α → α}
    (happly : ∀ rule catalog,
      collection (apply rule catalog).catalog = (collection catalog).map (change rule))
    (origin : String) (rules : List Rule) (catalog : Catalog) :
    collection (applyRules origin apply rules catalog).catalog =
      (collection catalog).map fun object =>
        rules.foldl (fun object rule => change rule object) object := by
  induction rules generalizing catalog with
  | nil => exact (List.map_id' (collection catalog)).symm
  | cons rule rest ih =>
      rw [applyRules, ih, happly, List.map_map]
      rfl

theorem views_applyRules (origin : String) (rules : List Rule) (catalog : Catalog) :
    (applyRules origin Catalog.applyContainerRule rules catalog).catalog.views =
      catalog.views.map (View.relocated rules) :=
  collection_applyRules Catalog.views (fun _ _ => List.map_map) origin rules catalog

/-- The path after container rules, one after the other. -/
def Path.relocated (rules : List Rule) (path : Path) : Path :=
  rules.foldl (fun path rule => (rule.moved? path).getD path) path

/-- What moves as its path does under one rule, does so under all of them. -/
theorem Path.relocated_foldl
    {α : Type} {path : α → Path} {change : Rule → α → α}
    (hchange : ∀ rule object, path (change rule object) =
      (rule.moved? (path object)).getD (path object))
    (rules : List Rule) (object : α) :
    path (rules.foldl (fun object rule => change rule object) object) =
      Path.relocated rules (path object) := by
  induction rules generalizing object with
  | nil => rfl
  | cons rule rest ih =>
      have hfirst := hchange rule object
      rw [List.foldl_cons, ih, hfirst]
      rfl

/-- The path goes its own way, whatever the text and the statement are. -/
theorem View.path_relocated (rules : List Rule) (view : View) :
    (view.relocated rules).path = Path.relocated rules view.path :=
  Path.relocated_foldl View.path_applyContainerRule rules view

/-! ## One table under one rule -/

/-- Whether a table is replaced depends on its characters and on the queries that
are named around it. -/
theorem isReplaced_relation_iff {rule : Rule} {name : Name} {scopes : List Scope} :
    Site.IsReplaced rule ⟨.relation, name, scopes⟩ ↔
      List.Forall₂ (fun value segment => Text.sameFold value segment = true)
        ((name.map Ident.value).take rule.source.length) rule.source ∧
      ¬ ∃ value, name.map Ident.value = [value] ∧ ∃ labels ∈ scopes.map Scope.named,
        ∃ label ∈ labels, Text.sameFold label value = true := by
  have hsingle : (∃ ident, name = [ident] ∧ ∃ scope ∈ scopes, ∃ named ∈ scope.named,
      Text.sameFold named ident.value = true) ↔
        ∃ value, name.map Ident.value = [value] ∧ ∃ labels ∈ scopes.map Scope.named,
          ∃ label ∈ labels, Text.sameFold label value = true := by
    match name with
    | [] => simp
    | [ident] => simp
    | first :: second :: rest => simp
  unfold Site.IsReplaced Site.Exempt Name.StartsWith
  rw [← hsingle, ← List.map_take, List.forall₂_map_left_iff]

theorem Site.isReplaced_congr
    {rule : Rule} {name other : Name} {scopes inner : List Scope}
    (hvalues : name.map Ident.value = other.map Ident.value)
    (hnamed : scopes.map Scope.named = inner.map Scope.named) :
    Site.IsReplaced rule ⟨.relation, name, scopes⟩ ↔
      Site.IsReplaced rule ⟨.relation, other, inner⟩ := by
  rw [isReplaced_relation_iff, isReplaced_relation_iff, hvalues, hnamed]

/-- A table of the view after the rules, where these scopes are around it.  It is
replaced by the rules that move the view at their turn. -/
def View.trackedName (scopes : List Scope) : List Rule → View → Name → Name
  | [], _, name => name
  | rule :: rest, view, name =>
    trackedName scopes rest (view.applyContainerRule rule).view
      (if rule.source.covers view.path then Site.after rule ⟨.relation, name, scopes⟩
        else name)

/-- The table at a site after one rule, in a view that the rule may move. -/
theorem View.site_applyContainerRule
    (rule : Rule) {view : View} {query : Query} (hquery : view.query = some (.query query))
    {index : Nat} {site : Site} (hsite : (query.sites [])[index]? = some site) :
    ∃ (next : Query) (moved : Site),
      (view.applyContainerRule rule).view.query = some (.query next) ∧
      (next.sites [])[index]? = some moved ∧ moved.role = site.role ∧
      moved.named = site.named ∧
      moved.name = if rule.source.covers view.path then site.after rule else site.name := by
  have hnext := View.query_applyContainerRule rule hquery
  by_cases hcovers : rule.source.covers view.path = true
  · have hrespells := Query.sites_rename (.replacing rule) query
    have hspelling := congrArg (fun sites : List (Role × Name) => sites[index]?)
      hrespells.spelling
    have hnamed := congrArg (fun sites : List (List (List String)) => sites[index]?)
      hrespells.named
    simp only [List.getElem?_map, hsite, Option.map_some] at hspelling hnamed
    obtain ⟨moved, hmoved, hspelling⟩ := Option.map_eq_some_iff.mp hspelling
    rw [hmoved, Option.map_some, Option.some.injEq] at hnamed
    rw [Renaming.spelling_replacing] at hspelling
    simp only [hcovers, if_true] at hnext ⊢
    exact ⟨_, moved, hnext, hmoved, congrArg Prod.fst hspelling, hnamed,
      congrArg Prod.snd hspelling⟩
  · simp only [hcovers] at hnext ⊢
    exact ⟨query, site, hnext, hsite, rfl, rfl, rfl⟩

/-- The table at a site after all rules, by the step for one of them. -/
theorem View.relation_relocated
    (rules : List Rule) {view : View} {query : Query}
    (hquery : view.query = some (.query query)) {index : Nat} {site : Site}
    (hsite : (query.sites [])[index]? = some site) (hrole : site.role = .relation)
    {scopes : List Scope} (hscopes : scopes.map Scope.named = site.named) :
    ∃ (final : Query) (after : Site),
      (view.relocated rules).query = some (.query final) ∧
      (final.sites [])[index]? = some after ∧ after.role = .relation ∧
      after.name = view.trackedName scopes rules site.name := by
  induction rules generalizing view query site with
  | nil => exact ⟨query, site, hquery, hsite, hrole, rfl⟩
  | cons rule rest ih =>
      obtain ⟨next, moved, hnext, hmoved, hmovedRole, hnamed, hname⟩ :=
        View.site_applyContainerRule rule hquery hsite
      obtain ⟨final, after, hfinal, hafter, hafterRole, htracked⟩ :=
        ih hnext hmoved (hmovedRole.trans hrole) (hscopes.trans hnamed.symm)
      refine ⟨final, after, hfinal, hafter, hafterRole, ?_⟩
      have hsame : site.after rule = Site.after rule ⟨.relation, site.name, scopes⟩ := by
        obtain ⟨role, name, around⟩ := site
        subst hrole
        unfold Site.after
        simp only [Site.isReplaced_congr rfl hscopes]
      rw [htracked, hname, hsame, View.trackedName]

/-! ## Tables and views that are treated alike -/

/-- The rule moves the second view exactly when it replaces a table of the first
one that names it: when it moves the first view, and the path of the second
starts with the source up to ASCII case and is not the name of a query around
the table. -/
def Rule.TreatsAlike (rule : Rule) (scopes : List Scope) (view named : View) : Prop :=
  rule.source.covers named.path = true ↔
    rule.source.covers view.path = true ∧
      Site.IsReplaced rule ⟨.relation, named.path.map Ident.bare, scopes⟩

theorem Rule.moved?_getD_eq
    (rule : Rule) (path : Path) :
    (rule.moved? path).getD path = if rule.source.covers path then rule.rebuild path else path := by
  unfold Rule.moved?
  split <;> rfl

/-- Every rule treats both views alike when its turn comes. -/
def AlwaysAlike (rules : List Rule) (scopes : List Scope) (view named : View) : Prop :=
  ∀ (turn : Nat) (rule : Rule), rules[turn]? = some rule →
    rule.TreatsAlike scopes (view.relocated (rules.take turn)) (named.relocated (rules.take turn))

/-- One rule that treats both alike keeps the name of the table at the path. -/
theorem Rule.TreatsAlike.step
    {rule : Rule} {scopes : List Scope} {view named : View} {name : Name}
    (halike : rule.TreatsAlike scopes view named)
    (hname : name.map Ident.value = named.path) :
    (if rule.source.covers view.path then Site.after rule ⟨.relation, name, scopes⟩
      else name).map Ident.value = (named.applyContainerRule rule).view.path := by
  have hbare : name.map Ident.value = (named.path.map Ident.bare).map Ident.value := by
    rw [hname, List.map_map]
    exact (List.map_id' named.path).symm
  have hreplaced : Site.IsReplaced rule ⟨.relation, name, scopes⟩ ↔
      Site.IsReplaced rule ⟨.relation, named.path.map Ident.bare, scopes⟩ :=
    Site.isReplaced_congr hbare rfl
  unfold Rule.TreatsAlike at halike
  rw [← hreplaced] at halike
  rw [View.path_applyContainerRule, Rule.moved?_getD_eq]
  by_cases hboth : rule.source.covers view.path = true ∧
      Site.IsReplaced rule ⟨.relation, name, scopes⟩
  · rw [if_pos hboth.1, Site.after, if_pos hboth.2, if_pos (halike.mpr hboth),
      Name.values_replaced, hname]
  · rw [if_neg fun hcovers => hboth (halike.mp hcovers)]
    by_cases hcovers : rule.source.covers view.path = true
    · rw [if_pos hcovers, Site.after, if_neg fun hreplaced => hboth ⟨hcovers, hreplaced⟩]
      exact hname
    · rw [if_neg hcovers]
      exact hname

theorem View.trackedName_of_alike
    {rules : List Rule} {scopes : List Scope} {view named : View} {name : Name}
    (hname : name.map Ident.value = named.path)
    (halike : AlwaysAlike rules scopes view named) :
    (view.trackedName scopes rules name).map Ident.value = (named.relocated rules).path := by
  induction rules generalizing view named name with
  | nil => exact hname
  | cons rule rest ih =>
      have hfirst : rule.TreatsAlike scopes view named := halike 0 rule rfl
      apply ih (hfirst.step hname)
      intro turn later hlater
      exact halike (turn + 1) later hlater

/-! ## Views of the migrated catalog -/

/-- The views after container rules, pruning and the repair of the tree are the
relocated ones that are in the scope of some destination, in their old order. -/
theorem views_migrated
    {ids : Nat → String} {rules : List Rule} {catalog final : Catalog} {count : Nat}
    (hresult : (((applyRules View.containerOrigin Catalog.applyContainerRule rules
      catalog).catalog.prune rules).catalog.reconcile ids).result = .ok (final, count)) :
    final.views = (catalog.views.map (View.relocated rules)).filter fun view =>
      inDestinationScope rules view.path := by
  obtain ⟨after, hends, rfl⟩ := ends_of_reconcile hresult
  rw [Ends.views_reconcileTree hends, ← views_applyRules View.containerOrigin]
  rfl

/-- A table of a view is followed through the rules that move the view.  It ends
at the path of the view that it names when every rule treats the two alike at its
turn.  The views of the migrated catalog are relocated ones, so this is what
becomes of the tables of all views that are still there. -/
theorem references_follow_alike
    (ids : Nat → String) (rules : List Rule) {catalog final : Catalog} {count : Nat}
    (hresult : (((applyRules View.containerOrigin Catalog.applyContainerRule rules
      catalog).catalog.prune rules).catalog.reconcile ids).result = .ok (final, count))
    {view named : View} (hview : view ∈ catalog.views) (hnamed : named ∈ catalog.views)
    {query : Query} (hquery : view.query = some (.query query))
    {index : Nat} {site : Site} (hsite : (query.sites [])[index]? = some site)
    (hrole : site.role = .relation) (hnames : site.name.map Ident.value = named.path) :
    (∀ moved ∈ [view.relocated rules, named.relocated rules],
      moved ∈ final.views ↔ inDestinationScope rules moved.path = true) ∧
    ∃ (after : Query) (moved : Site),
      (view.relocated rules).query = some (.query after) ∧
      (after.sites [])[index]? = some moved ∧ moved.role = .relation ∧
      moved.name = view.trackedName site.scopes rules site.name ∧
      (AlwaysAlike rules site.scopes view named →
        moved.name.map Ident.value = (named.relocated rules).path) := by
  constructor
  · intro moved hmoved
    have hmem : moved ∈ catalog.views.map (View.relocated rules) := by
      rcases List.mem_pair.mp hmoved with rfl | rfl
      · exact List.mem_map_of_mem hview
      · exact List.mem_map_of_mem hnamed
    rw [views_migrated hresult, List.mem_filter]
    exact and_iff_right hmem
  · have hscopes : site.scopes.map Scope.named = site.named := rfl
    obtain ⟨after, moved, hafter, hmoved, hmovedRole, hname⟩ :=
      View.relation_relocated rules hquery hsite hrole hscopes
    refine ⟨after, moved, hafter, hmoved, hmovedRole, hname, ?_⟩
    intro halike
    rw [hname]
    exact View.trackedName_of_alike hnames halike

/-- `SELECT * FROM Prod.Sales.Orders` -/
def selectOrders : Query :=
  .mk false [] (.select (.mk [] [.all []] none
    [.mk (.table [.bare "Prod", .bare "Sales", .bare "Orders"] [] none []) []] [])) []

/-- A view that reads no other one. -/
def orders : View :=
  ⟨"orders", ["Prod", "Sales", "Orders"], "VALUES (1)", none, [],
    some (.query (.mk false [] (.values [.constant "(1)"]) []))⟩

/-- A view that reads another one in the same folder. -/
def totals : View :=
  ⟨"totals", ["Prod", "Sales", "Totals"], "SELECT * FROM Prod.Sales.Orders", none, [],
    some (.query selectOrders)⟩

/-- A view that reads another one in a different space. -/
def report : View :=
  ⟨"report", ["Analytics", "Sales", "Report"], "SELECT * FROM Prod.Sales.Orders", none, [],
    some (.query selectOrders)⟩

/-- The three views in their folders and spaces. -/
def readersOfOrders : Catalog := { empty with
  spaces := [
    ⟨"prod", "Prod", [.folder "sales" ["Prod", "Sales"]], []⟩,
    ⟨"analytics", "Analytics", [.folder "reports" ["Analytics", "Sales"]], []⟩]
  folders := [
    ⟨"sales", ["Prod", "Sales"], [.view "orders" orders.path, .view "totals" totals.path], none,
      none, []⟩,
    ⟨"reports", ["Analytics", "Sales"], [.view "report" report.path], none, none, []⟩]
  views := [orders, totals, report] }

/-- `Prod.Sales` goes to `Analytics.Sales`. -/
def salesToAnalytics : Rule := ⟨["Prod", "Sales"], ["Analytics", "Sales"]⟩

/-- The view that is moved together with what it reads follows it. -/
theorem totals_follow_orders :
    ∃ (after : Query) (moved : Site),
      (totals.relocated [salesToAnalytics]).query = some (.query after) ∧
      (after.sites [])[0]? = some moved ∧
      moved.name.map Ident.value = (orders.relocated [salesToAnalytics]).path := by
  have hview : totals ∈ readersOfOrders.views := by simp [readersOfOrders]
  have hnamed : orders ∈ readersOfOrders.views := by simp [readersOfOrders]
  have hquery : totals.query = some (.query selectOrders) := rfl
  have hsite : (selectOrders.sites [])[0]? = some ⟨.relation,
      [.bare "Prod", .bare "Sales", .bare "Orders"], [Scope.ofQuery selectOrders]⟩ := rfl
  have halike : AlwaysAlike [salesToAnalytics] [Scope.ofQuery selectOrders] totals orders := by
    intro turn rule hrule
    match turn with
    | 0 =>
        cases hrule
        unfold Rule.TreatsAlike
        decide
    | turn + 1 => cases hrule
  obtain ⟨-, after, moved, hafter, hmoved, -, -, hfollows⟩ :=
    references_follow_alike (FolderId.supply 0) [salesToAnalytics] rfl hview hnamed hquery hsite
      rfl rfl
  exact ⟨after, moved, hafter, hmoved, hfollows halike⟩

/-- The view that the rule does not move still names the old path of what it
reads, although both are in the migrated catalog. -/
theorem report_names_old_orders :
    ∃ (final : Catalog) (count : Nat) (after : Query) (moved : Site),
      (((applyRules View.containerOrigin Catalog.applyContainerRule [salesToAnalytics]
        readersOfOrders).catalog.prune [salesToAnalytics]).catalog.reconcile
          (FolderId.supply 0)).result = .ok (final, count) ∧
      report.relocated [salesToAnalytics] ∈ final.views ∧
      orders.relocated [salesToAnalytics] ∈ final.views ∧
      (selectOrders.sites [])[0]?.map (fun site => site.name.map Ident.value) =
        some orders.path ∧
      (report.relocated [salesToAnalytics]).query = some (.query after) ∧
      (after.sites [])[0]? = some moved ∧ moved.role = .relation ∧
      moved.name.map Ident.value ≠ (orders.relocated [salesToAnalytics]).path := by
  refine ⟨_, _, _, _, rfl, ?_, ?_, rfl, rfl, rfl, rfl, ?_⟩
  · exact List.Mem.tail _ (List.Mem.tail _ (List.Mem.head _))
  · exact List.Mem.head _
  · decide

end Relocate.Catalog
