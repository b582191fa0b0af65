import Mathlib.Data.List.TakeDrop
import Relocate.Proofs.Migrate.Following

/-!
# Short names and the context of a view

A view may name another one by its last segment when its context is the path above.
A container rule moves the other view by its whole path, and changes the context by a
formula of its own: what is not below the source becomes the part of the destination
at its own depth.  The short name itself is rewritten without a look at the context.

Whether context and name still give the path of the other view depends on how deep
the context, the source and the destination are: `Rule.KeepsContext` says when they
do, as long as the name itself is left alone.
-/

namespace Relocate.Catalog

open Sql

/-! ## Contexts and paths under one rule -/

/-- The source lies above the context; or it is the context, and the destination is no
deeper; or it is the path that the name has in the context, and the destination is as
deep and ends with the name. -/
def Rule.KeepsContext (rule : Rule) (context : Path) (name : String) : Prop :=
  rule.source.length < context.length ∨
  (rule.source.length = context.length ∧ rule.destination.length ≤ context.length) ∨
  (rule.source.length = context.length + 1 ∧ rule.destination.drop context.length = [name])

/-- A name that is left alone is looked up at its new path exactly when the rule keeps
the context for it. -/
theorem Rule.rebuildContext_append_iff
    {rule : Rule} {context : Path} {name : String}
    (hcovers : rule.source <+: context ++ [name]) :
    rule.rebuildContext context ++ [name] = rule.rebuild (context ++ [name]) ↔
      rule.KeepsContext context name := by
  have hle : rule.source.length ≤ context.length + 1 := by
    simpa using hcovers.length_le
  unfold KeepsContext rebuildContext rebuild Path.truncated
  rcases Nat.lt_trichotomy rule.source.length context.length with hless | hsame | hmore
  · rw [if_neg (Nat.not_le.mpr hless), List.drop_append_of_le_length (Nat.le_of_lt hless),
      List.append_assoc]
    simp [hless]
  · rw [if_pos (Nat.le_of_eq hsame.symm), hsame, List.drop_left, List.append_left_inj,
      List.take_eq_self_iff]
    simp
  · have hwhole : rule.source.length = context.length + 1 := by omega
    have hall : (context ++ [name]).drop rule.source.length = [] :=
      List.drop_eq_nil_of_le (by simp [hwhole])
    have hends : rule.destination.take context.length ++ [name] = rule.destination ↔
        rule.destination.drop context.length = [name] := by
      conv_lhs => rhs; rw [← List.take_append_drop context.length rule.destination]
      rw [List.append_right_inj, eq_comm]
    rw [if_pos (Nat.le_of_lt hmore), hall, List.append_nil, hends]
    constructor
    · exact fun hends => .inr (.inr ⟨hwhole, hends⟩)
    · rintro (hless | ⟨hsame, -⟩ | ⟨-, hends⟩)
      · omega
      · omega
      · exact hends

/-- A segment before a list is the same as a segment behind it when all are equal. -/
theorem cons_eq_append_singleton_iff {α : Type} {first last : α} {rest : List α} :
    first :: rest = rest ++ [last] ↔ ∀ segment ∈ first :: rest, segment = last := by
  induction rest generalizing first with
  | nil => simp
  | cons next rest ih =>
      rw [List.cons_append, List.cons.injEq, ih]
      constructor
      · rintro ⟨rfl, hall⟩
        exact List.forall_mem_cons.mpr ⟨hall first List.mem_cons_self, hall⟩
      · intro hall
        have hrest := (List.forall_mem_cons.mp hall).2
        exact ⟨(hall first List.mem_cons_self).trans (hrest next List.mem_cons_self).symm, hrest⟩

/-- A name that a rule replaces is the source, one segment, and becomes the destination.
In the new context it is looked up at the new path only when the destination says the
name over and over. -/
theorem Rule.rebuildContext_append_destination_iff
    {rule : Rule} {context : Path} {name : String} (hsource : rule.source.length = 1)
    (hdestination : rule.destination ≠ []) (hcontext : context ≠ []) :
    rule.rebuildContext context ++ rule.destination = rule.rebuild (context ++ [name]) ↔
      (∀ segment ∈ rule.destination, segment = name) ∧
        (context.length = 1 ∨ rule.destination.length = 1) := by
  obtain ⟨first, rest, rfl⟩ := List.exists_cons_of_ne_nil hcontext
  obtain ⟨segment, more, hsplit⟩ := List.exists_cons_of_ne_nil hdestination
  unfold rebuildContext rebuild Path.truncated
  rw [hsource, hsplit]
  cases rest with
  | nil =>
      have hall := @cons_eq_append_singleton_iff _ segment name more
      simpa using hall
  | cons second rest =>
      have hdeep : ¬ (first :: second :: rest).length ≤ 1 := by simp
      rw [if_neg hdeep]
      change (segment :: more) ++ (second :: rest) ++ (segment :: more) =
        (segment :: more) ++ ((second :: rest) ++ [name]) ↔ _
      rw [List.append_assoc, List.append_right_inj, List.append_right_inj]
      constructor
      · intro hname
        rw [hname]
        simp
      · rintro ⟨hall, hdeeper | hlength⟩
        · exact absurd hdeeper (by simp)
        · obtain ⟨only, honly⟩ := List.length_eq_one_iff.mp hlength
          rw [honly] at hall ⊢
          rw [hall only List.mem_cons_self]

/-! ## Views under one rule -/

theorem View.context_rewrite (rule : Rule) (origin : String) (view : View) :
    (view.rewrite rule origin).view.context = view.context := by
  unfold View.rewrite
  split <;> rfl

/-- The context of a view changes wherever the view is. -/
theorem View.context_applyContainerRule (rule : Rule) (view : View) :
    (view.applyContainerRule rule).view.context =
      (view.containerContext? rule <|> view.context) := by
  cases hmoved : rule.moved? view.path with
  | none => simp [View.applyContainerRule, hmoved]
  | some path => simp [View.applyContainerRule, hmoved, View.context_rewrite]

theorem View.context_applyContainerRule_of_overlaps
    {rule : Rule} {view : View} {context : Path} (hcontext : view.context = some context)
    (hnonempty : context ≠ []) (hoverlaps : rule.source.overlaps context = true) :
    (view.applyContainerRule rule).view.context = some (rule.rebuildContext context) := by
  have hempty : context.isEmpty = false := by
    simpa using hnonempty
  rw [View.context_applyContainerRule, View.containerContext?, hcontext]
  simp [hempty, hoverlaps]

/-- Only a source of one segment is all of a short name. -/
theorem Site.length_source_of_isReplaced
    {rule : Rule} {site : Site} {ident : Ident} (hsource : rule.source ≠ [])
    (hname : site.name = [ident]) (hreplaced : site.IsReplaced rule) :
    rule.source.length = 1 := by
  have hle := hreplaced.1.length_le
  have hpos := List.length_pos_of_ne_nil hsource
  rw [hname, List.length_singleton] at hle
  omega

/-! ## Short names in a catalog -/

/-- Let a view that a rule moves name another one by its last segment, and let the rule
move the other one too.  When the name is left alone, it is looked up at the new path
exactly when the rule keeps the context for it.  A name that the rule replaces, which
takes a source of one segment, is looked up elsewhere unless the destination says the
name over and over. -/
theorem short_name_follows_iff
    {rule : Rule} (hsource : rule.source ≠ []) (hdestination : rule.destination ≠ [])
    {catalog : Catalog} {i j : Nat} {view named : View}
    (hview : catalog.views[i]? = some view) (hnamed : catalog.views[j]? = some named)
    (hmoved : rule.source.covers view.path = true)
    (hcovers : rule.source.covers named.path = true)
    {context : Path} (hcontext : view.context = some context) (hnonempty : context ≠ [])
    {query : Query} (hquery : view.query = some (.query query))
    {index : Nat} {site : Site} (hsite : (query.sites [])[index]? = some site)
    (hrole : site.role = .relation) {ident : Ident} (hname : site.name = [ident])
    (hpath : context ++ [ident.value] = named.path) :
    ∃ (newView newNamed : View) (newContext : Path) (newQuery : Query) (newSite : Site),
      (catalog.applyContainerRule rule).catalog.views[i]? = some newView ∧
      (catalog.applyContainerRule rule).catalog.views[j]? = some newNamed ∧
      newView.context = some newContext ∧ newView.query = some (.query newQuery) ∧
      (newQuery.sites [])[index]? = some newSite ∧ newSite.role = .relation ∧
      (site.IsReplaced rule → rule.source.length = 1) ∧
      (newContext ++ newSite.name.map Ident.value = newNamed.path ↔
        if site.IsReplaced rule then
          (∀ segment ∈ rule.destination, segment = ident.value) ∧
            (context.length = 1 ∨ rule.destination.length = 1)
        else rule.KeepsContext context ident.value) := by
  have hafter : ∀ (k : Nat) (before : View), catalog.views[k]? = some before →
      (catalog.applyContainerRule rule).catalog.views[k]? =
        some (before.applyContainerRule rule).view := by
    intro k before hbefore
    simp [applyContainerRule, hbefore]
  have hstarts : rule.source <+: context ++ [ident.value] := by
    rw [hpath]
    exact Path.covers_iff_isPrefix.mp hcovers
  have hoverlaps : rule.source.overlaps context = true :=
    Path.overlaps_iff_isPrefix_or.mpr
      (List.prefix_or_prefix_of_prefix hstarts (List.prefix_append context [ident.value]))
  obtain ⟨newQuery, newSite, hnewQuery, hnewSite, hnewRole, -, hnewName⟩ :=
    View.site_applyContainerRule rule hquery hsite
  have hnewPath : (named.applyContainerRule rule).view.path =
      rule.rebuild (context ++ [ident.value]) := by
    rw [View.path_applyContainerRule, Rule.moved?_getD_eq, if_pos hcovers, hpath]
  refine ⟨_, _, _, newQuery, newSite, hafter i view hview, hafter j named hnamed,
    View.context_applyContainerRule_of_overlaps hcontext hnonempty hoverlaps, hnewQuery, hnewSite,
    hnewRole.trans hrole, Site.length_source_of_isReplaced hsource hname, ?_⟩
  rw [hnewPath, hnewName, if_pos hmoved, Site.after]
  by_cases hreplaced : site.IsReplaced rule
  · have hlength := Site.length_source_of_isReplaced hsource hname hreplaced
    have hvalues : (site.name.replaced rule).map Ident.value = rule.destination := by
      simp [Name.values_replaced, hname, Rule.rebuild, hlength]
    rw [if_pos hreplaced, if_pos hreplaced, hvalues]
    exact Rule.rebuildContext_append_destination_iff hlength hdestination hnonempty
  · rw [if_neg hreplaced, if_neg hreplaced, hname]
    exact Rule.rebuildContext_append_iff hstarts

/-- `SELECT * FROM Orders` -/
def selectShort : Query :=
  .mk false [] (.select (.mk [] [.all []] none [.mk (.table [.bare "Orders"] [] none []) []] []))
    []

/-- A view at a path that reads `Orders` next to it, and the view `Orders`. -/
def shortNames (folder : Path) : Catalog := { empty with
  views := [
    ⟨"orders", folder ++ ["Orders"], "VALUES (1)", none, [],
      some (.query (.mk false [] (.values [.constant "(1)"]) []))⟩,
    ⟨"totals", folder ++ ["Totals"], "SELECT * FROM Orders", some folder, [],
      some (.query selectShort)⟩] }

/-- The context goes to `Analytics.EU` just as the view in it does. -/
theorem shortNames_follow :
    let after := ((shortNames ["Prod", "Sales"]).applyContainerRule
      ⟨["Prod", "Sales"], ["Analytics", "EU"]⟩).catalog
    ∃ (newView newNamed : View) (newContext : Path) (newQuery : Query) (newSite : Site),
      after.views[1]? = some newView ∧ after.views[0]? = some newNamed ∧
      newView.context = some newContext ∧ newView.query = some (.query newQuery) ∧
      (newQuery.sites [])[0]? = some newSite ∧
      newContext ++ newSite.name.map Ident.value = newNamed.path := by
  let site : Site := ⟨.relation, [.bare "Orders"], [Scope.ofQuery selectShort]⟩
  have hreplaced : ¬ site.IsReplaced ⟨["Prod", "Sales"], ["Analytics", "EU"]⟩ := by decide
  obtain ⟨newView, newNamed, newContext, newQuery, newSite, hview, hnamed, hcontext, hquery, hsite,
      -, -, hfollows⟩ :=
    @short_name_follows_iff ⟨["Prod", "Sales"], ["Analytics", "EU"]⟩ (by decide) (by decide)
      (shortNames ["Prod", "Sales"]) 1 0 _ _ rfl rfl (by decide) (by decide) ["Prod", "Sales"] rfl
      (by decide) selectShort rfl 0 site rfl rfl (.bare "Orders") rfl rfl
  rw [if_neg hreplaced] at hfollows
  exact ⟨newView, newNamed, newContext, newQuery, newSite, hview, hnamed, hcontext, hquery, hsite,
    hfollows.mpr (.inr (.inl ⟨rfl, Nat.le_refl 2⟩))⟩

/-- A space as the context becomes the first segment of the destination alone, and
`Orders` is looked up at `Analytics.Orders` while it has gone to `Analytics.EU.Orders`. -/
theorem shortNames_lost :
    let rule : Rule := ⟨["Prod"], ["Analytics", "EU"]⟩
    let catalog := shortNames ["Prod"]
    let after := (catalog.applyContainerRule rule).catalog
    ∃ (view named newView newNamed : View) (newContext : Path) (newQuery : Query)
      (newSite : Site),
      catalog.views[1]? = some view ∧ catalog.views[0]? = some named ∧
      rule.source.covers view.path = true ∧ rule.source.covers named.path = true ∧
      view.context = some ["Prod"] ∧ view.query = some (.query selectShort) ∧
      ["Prod"] ++ ["Orders"] = named.path ∧
      (selectShort.sites [])[0]?.map (fun site => (site.role, site.name)) =
        some (.relation, [.bare "Orders"]) ∧
      after.views[1]? = some newView ∧ after.views[0]? = some newNamed ∧
      newView.context = some newContext ∧ newView.query = some (.query newQuery) ∧
      (newQuery.sites [])[0]? = some newSite ∧ newSite.role = .relation ∧
      newContext ++ newSite.name.map Ident.value ≠ newNamed.path := by
  refine ⟨_, _, _, _, _, _, _, rfl, rfl, by decide, by decide, rfl, rfl, rfl, rfl, rfl, rfl, rfl,
    rfl, rfl, rfl, ?_⟩
  decide

end Relocate.Catalog
