import Relocate.Proofs.Sql.Visibility

/-!
# Tables named by their last identifier

A table of several identifiers without an alias can be named by the last of them in
its select.  A rewriter never touches a column with such a qualifier, but it may
replace the identifier itself: when the source is the whole name of the table, the
last identifier of the destination takes its place.  Only then a qualifier can lose
its table, by `Statement.rewrite_query_resolves`.
-/

namespace Relocate.Catalog

open Text

/-- Source and destination end alike. -/
def Rule.KeepsLast (rule : Rule) : Prop :=
  ∃ last new, rule.source.getLast? = some last ∧ rule.destination.getLast? = some new ∧
    sameFold new last = true

end Relocate.Catalog

namespace Relocate.Sql

open Catalog Text

/-- The qualifier is the last identifier of the table. -/
def Name.IsLastOf (qualifier table : Name) : Prop :=
  ∃ ident last, qualifier = [ident] ∧ table.getLast? = some last ∧
    sameFold last.value ident.value = true

/-- A column or `t.*` is qualified with the last identifier of the table alone. -/
def Reference.Uses (use table : Reference) : Prop :=
  use.IsColumn ∧ use.qualifier.IsLastOf table.name

/-- In one select there is a table of several identifiers without an alias, and a column
or `t.*` is qualified with the last of them.  Selects that are equal have equal tables, so
it does not matter which of them the two stand in. -/
structure Sighting.Resolves (use table : Sighting) : Prop where
  bare : table.bare = true
  several : 1 < table.reference.name.length
  sameSelect : ∃ select, table.place.own = some select ∧ use.place.own = some select
  uses : use.reference.Uses table.reference

/-- What was qualified with the last identifier of a table still is. -/
def Query.KeepsImplicitNames (query after : Query) : Prop :=
  ∀ (tableIndex useIndex : Nat) (table use : Sighting),
    (query.sightings [] [])[tableIndex]? = some table →
      (query.sightings [] [])[useIndex]? = some use → use.Resolves table →
        ∃ newTable newUse : Reference,
          (after.references [])[tableIndex]? = some newTable ∧
          (after.references [])[useIndex]? = some newUse ∧ newUse.Uses newTable

/-! ## The table and the column -/

theorem Reference.qualifier_prefix_name (reference : Reference) :
    reference.qualifier <+: reference.name := by
  unfold Reference.qualifier
  split
  · exact List.dropLast_prefix _
  · exact List.prefix_rfl
  · exact List.nil_prefix

namespace Sighting.Resolves

variable {use table : Sighting}

/-- The table introduces the qualifier, and can be seen from the column. -/
theorem hidden (hresolves : use.Resolves table) (hplaced : table.Placed) : use.Hidden := by
  obtain ⟨hbare, hseveral, ⟨select, htable, huse⟩, -, ident, last, hqualifier, hlast, hsame⟩ :=
    hresolves
  obtain ⟨-, -, details, hints, howns⟩ := hplaced.owned hbare
  have hfactor := howns select (Option.mem_def.mpr htable) (List.mem_singleton.mpr rfl)
  have hfirst : use.reference.name.head? = some ident := by
    obtain ⟨rest, hname⟩ := use.reference.qualifier_prefix_name
    rw [← hname, hqualifier]
    rfl
  refine ⟨ident, hfirst, last.value, hsame, .inl ⟨select, ?_, _, hfactor, ?_⟩⟩
  · rw [Place.seen, huse]
    exact List.mem_cons_self
  · rw [Factor.introduced?, if_pos hseveral, hlast]
    rfl

/-- A table of several identifiers is no query of a `WITH` clause. -/
theorem after_table (hresolves : use.Resolves table) (hplaced : table.Placed) (rule : Rule) :
    table.reference.after rule =
      if table.reference.name.StartsWith rule.source then table.reference.name.replaced rule
      else table.reference.name := by
  obtain ⟨hrole, hreached, -⟩ := hplaced.owned hresolves.bare
  have hexempt : ¬ table.reference.Exempt rule := by
    rw [Reference.Exempt, hrole]
    rintro ⟨ident, hname, -⟩
    have hseveral := hresolves.several
    rw [hname] at hseveral
    exact absurd hseveral (Nat.lt_irrefl 1)
  split
  · next hstarts => exact Reference.after_eq_replaced hreached ⟨hstarts, hexempt⟩
  · next hstarts => exact Reference.after_eq_self (.inr fun hmove => hstarts hmove.1)

end Sighting.Resolves

/-- A replaced name ends as it did, unless the source is all of it. -/
theorem Name.getLast?_replaced
    {rule : Rule} {name : Name} (hstarts : name.StartsWith rule.source) :
    (name.replaced rule).getLast? =
      if name.length = rule.source.length then rule.destination.getLast?.map Ident.bare
      else name.getLast? := by
  have hle := hstarts.length_le
  rw [Name.replaced]
  split
  · next hlength =>
    rw [List.drop_eq_nil_of_le (Nat.le_of_eq hlength), List.append_nil, List.getLast?_map]
  · next hlength =>
    have hrest : name.drop rule.source.length ≠ [] := by
      rw [Ne, List.drop_eq_nil_iff]
      omega
    rw [List.getLast?_append_of_ne_nil _ hrest, List.getLast?_drop, if_neg (by omega)]

/-! ## Queries as a whole -/

/-- A name that is the source ends like it. -/
theorem Name.getLast?_of_startsWith
    {segments : Path} {name : Name} (hstarts : name.StartsWith segments)
    (hlength : name.length = segments.length) {last : Ident} (hlast : name.getLast? = some last) :
    ∃ segment, segments.getLast? = some segment ∧ sameFold last.value segment = true := by
  rw [Name.StartsWith, List.take_of_length_le (Nat.le_of_eq hlength),
    ← List.forall₂_reverse_iff] at hstarts
  rw [← List.head?_reverse] at hlast ⊢
  generalize name.reverse = lasts at hstarts hlast
  generalize segments.reverse = ends at hstarts
  cases hstarts with
  | nil => cases hlast
  | cons hsame _ =>
      cases hlast
      exact ⟨_, rfl, hsame⟩

/-- The qualifier loses its table when the table is the source, and the destination ends
differently. -/
theorem Sighting.Resolves.isLastOf_after_iff
    {use table : Sighting} (hresolves : use.Resolves table) (hplaced : table.Placed)
    (rule : Rule) :
    use.reference.qualifier.IsLastOf (table.reference.after rule) ↔
      (table.reference.name.StartsWith rule.source →
        table.reference.name.length = rule.source.length → rule.KeepsLast) := by
  have hafter := hresolves.after_table hplaced rule
  obtain ⟨-, ident, last, hqualifier, hlast, hsame⟩ := hresolves.uses
  -- Only a table that is the source as a whole ends differently after the rule.
  by_cases hall : table.reference.name.StartsWith rule.source ∧
      table.reference.name.length = rule.source.length
  · obtain ⟨segment, hsegment, hends⟩ := Name.getLast?_of_startsWith hall.1 hall.2 hlast
    rw [if_pos hall.1] at hafter
    have hnew : (table.reference.after rule).getLast? =
        rule.destination.getLast?.map Ident.bare := by
      rw [hafter, Name.getLast?_replaced hall.1, if_pos hall.2]
    have hfold : ∀ new : String, sameFold new ident.value = sameFold new segment := by
      simp only [sameFold, beq_iff_eq] at hsame hends ⊢
      simp only [← hsame, hends, implies_true]
    constructor
    · rintro ⟨first, newLast, hfirst, hnewLast, hstill⟩ - -
      cases hqualifier.symm.trans hfirst
      obtain ⟨new, hdestination, rfl⟩ := Option.map_eq_some_iff.mp (hnew.symm.trans hnewLast)
      exact ⟨segment, new, hsegment, hdestination, (hfold new).symm.trans hstill⟩
    · intro hkeeps
      obtain ⟨segment', new, hsegment', hdestination, hstill⟩ := hkeeps hall.1 hall.2
      cases hsegment.symm.trans hsegment'
      refine ⟨ident, .bare new, hqualifier, ?_, (hfold new).trans hstill⟩
      rw [hnew, hdestination]
      rfl
  · have hnew : (table.reference.after rule).getLast? = table.reference.name.getLast? := by
      rw [hafter]
      split
      · next hstarts => rw [Name.getLast?_replaced hstarts, if_neg fun hlen => hall ⟨hstarts, hlen⟩]
      · rfl
    constructor
    · exact fun _ hstarts hlength => absurd ⟨hstarts, hlength⟩ hall
    · exact fun _ => ⟨ident, last, hqualifier, hnew.trans hlast, hsame⟩

/-- In the query after a rule the column is as before, so it still has its table when the
qualifier is the last identifier of the new one. -/
theorem Sighting.Resolves.uses_after_iff
    {rule : Rule} {query after : Query} {use table : Sighting} (hresolves : use.Resolves table)
    (hmoves : Moves rule (query.references []) (after.references []))
    {tableIndex useIndex : Nat}
    (htable : (query.sightings [] [])[tableIndex]? = some table)
    (huse : (query.sightings [] [])[useIndex]? = some use) :
    (∃ newTable newUse : Reference,
      (after.references [])[tableIndex]? = some newTable ∧
      (after.references [])[useIndex]? = some newUse ∧ newUse.Uses newTable) ↔
      use.reference.qualifier.IsLastOf (table.reference.after rule) := by
  have hplaced := query.sights_outermost.placed
  have hhidden := hresolves.hidden (hplaced table (List.mem_of_getElem? htable))
  have hlocal := (hplaced use (List.mem_of_getElem? huse)).startsLocal hhidden
  have hcolumn := hresolves.uses.1
  have hstays : use.reference.after rule = use.reference.name :=
    Reference.after_eq_self (.inr fun hmove =>
      ((Reference.shouldMove_iff hcolumn).mp hmove).2 hlocal)
  obtain ⟨newTable, hnewTable, htableSpelling⟩ :=
    Option.map_eq_some_iff.mp (Query.spelling_of_sighting hmoves htable)
  obtain ⟨newUse, hnewUse, huseSpelling⟩ :=
    Option.map_eq_some_iff.mp (Query.spelling_of_sighting hmoves huse)
  rw [hstays] at huseSpelling
  obtain ⟨hrole, hname⟩ := Prod.mk.inj huseSpelling
  have hqualifier : newUse.qualifier = use.reference.qualifier := by
    rw [Reference.qualifier, hrole, hname, Reference.qualifier]
  have huses : newUse.Uses newTable ↔
      use.reference.qualifier.IsLastOf (table.reference.after rule) := by
    rw [Reference.Uses, hqualifier, (Prod.mk.inj htableSpelling).2]
    refine and_iff_right ?_
    rwa [Reference.IsColumn, hrole]
  constructor
  · rintro ⟨newTable', newUse', hnewTable', hnewUse', hstill⟩
    cases hnewTable.symm.trans hnewTable'
    cases hnewUse.symm.trans hnewUse'
    exact huses.mp hstill
  · exact fun hstill => ⟨newTable, newUse, hnewTable, hnewUse, huses.mpr hstill⟩

/-- A rule leaves a column alone that is qualified with the last identifier of a table in
its select.  So all of them keep their tables exactly when none of these tables is the
source itself, or source and destination end alike. -/
theorem Statement.rewrite_query_resolves
    (rule : Rule) (view : Path) (origin : String) (query : Query) :
    ∃ after : Query,
      ((Statement.query query).rewrite rule view origin).statement = .query after ∧
      (query.KeepsImplicitNames after ↔
        rule.KeepsLast ∨
          ∀ table ∈ query.sightings [] [], ∀ use ∈ query.sightings [] [], use.Resolves table →
            table.reference.name.StartsWith rule.source →
              table.reference.name.length ≠ rule.source.length) := by
  have hmoves : Moves rule (query.references [])
      ((query.rename (.replacing rule) []).references []) := Query.moves rule [] [] query
  refine ⟨query.rename (.replacing rule) [], ?_, ?_⟩
  · rw [Statement.rewrite_query, Renaming.ofRule_eq_replacing]
  have hplaced := query.sights_outermost.placed
  constructor
  · intro hkeeps
    by_cases hends : rule.KeepsLast
    · exact .inl hends
    · refine .inr fun table htable use huse hresolves hstarts hlength => hends ?_
      obtain ⟨tableIndex, htableIndex⟩ := List.mem_iff_getElem?.mp htable
      obtain ⟨useIndex, huseIndex⟩ := List.mem_iff_getElem?.mp huse
      have hlast := (hresolves.uses_after_iff hmoves htableIndex huseIndex).mp
        (hkeeps tableIndex useIndex table use htableIndex huseIndex hresolves)
      exact (hresolves.isLastOf_after_iff (hplaced table htable) rule).mp hlast hstarts hlength
  · intro hends tableIndex useIndex table use htableIndex huseIndex hresolves
    have htable := List.mem_of_getElem? htableIndex
    refine (hresolves.uses_after_iff hmoves htableIndex huseIndex).mpr ?_
    refine (hresolves.isLastOf_after_iff (hplaced table htable) rule).mpr fun hstarts hlength => ?_
    rcases hends with hends | hshorter
    · exact hends
    · exact absurd hlength
        (hshorter table htable use (List.mem_of_getElem? huseIndex) hresolves hstarts)

/-- `SELECT Orders.id FROM Prod.Sales.Orders` -/
def implicitOrders : Query :=
  .mk false []
    (.select (.mk [] [.expr (.path [.bare "Orders", .bare "id"]) none] none
      [.mk (.table [.bare "Prod", .bare "Sales", .bare "Orders"] [] none []) []] [])) []

/-- The table becomes `Analytics.Sales.Invoices`, which no one calls `Orders`. -/
theorem rewrite_implicitOrders_loses :
    ∃ after : Query,
      ((Statement.query implicitOrders).rewrite
        ⟨["Prod", "Sales", "Orders"], ["Analytics", "Sales", "Invoices"]⟩ ["Analytics", "Report"]
        "Source migration").statement = .query after ∧
      ¬ implicitOrders.KeepsImplicitNames after := by
  rw [Statement.rewrite_query, Renaming.ofRule_eq_replacing]
  refine ⟨_, rfl, fun hkeeps => ?_⟩
  let orders : Name := [.bare "Prod", .bare "Sales", .bare "Orders"]
  let place : Place := ⟨implicitOrders.body.select?, []⟩
  let table : Sighting := ⟨⟨.relation, orders, true, [implicitOrders]⟩, place, true⟩
  let use : Sighting :=
    ⟨⟨.path, [.bare "Orders", .bare "id"], true, [implicitOrders]⟩, place, false⟩
  have hresolves : use.Resolves table :=
    ⟨rfl, by decide, ⟨_, rfl, rfl⟩, .inl rfl, .bare "Orders", .bare "Orders", rfl, rfl, by decide⟩
  obtain ⟨newTable, newUse, hnewTable, hnewUse, -, ident, last, hqualifier, hlast, hsame⟩ :=
    hkeeps 1 0 table use rfl rfl hresolves
  cases hnewTable
  cases hnewUse
  cases hqualifier
  cases hlast
  exact absurd hsame (by decide)

end Relocate.Sql
