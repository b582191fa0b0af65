import Relocate.Proofs.Sql.References

/-!
# Where local names can be seen

A rewriter asks whether any query around a column introduces the name in front of
it, and a query introduces the names of all its selects.  What a select can see is
less: its own tables, and those of the selects in whose expressions it stands.  The
other branches of a combined body, and the tables beside a query of a `WITH` clause
or a derived table, are not among them.

`Query.sightings` goes through the references of a query once more and notes for
each what can be seen from its place.  `Statement.rewrite_query_hides` says that a
rule never moves a column that is qualified with a name it can see, and when it moves
all others that start with the source.
-/

namespace Relocate.Sql

open Catalog Text

/-! ## Places -/

/-- The tables in the `FROM` clause of the select. -/
def Select.factors (select : Select) : List Factor :=
  select.tables.flatMap Joined.factors

/-- A table of the select has the name. -/
def Select.Introduces (select : Select) (name : String) : Prop :=
  ∃ factor ∈ select.factors, factor.introduced? = some name

/-- The select that a body is, unless it combines several. -/
def Body.select? : Body → Option Select
  | .select inner => some inner
  | _ => none

/-- What can be seen from a place: the select that the place is part of, and the
selects in whose expressions that one stands, the innermost first. -/
structure Place where
  own : Option Select
  outer : List Select

/-- The selects whose tables can be seen. -/
def Place.seen (place : Place) : List Select :=
  place.own.toList ++ place.outer

/-- A reference and its place. -/
structure Sighting where
  reference : Reference
  place : Place
  /-- The reference is a table of a `FROM` clause, without an alias. -/
  bare : Bool

/-! ## The references of a statement and their places -/

/-- References at one place, none of them a table of a `FROM` clause. -/
def Place.sight (place : Place) (references : List Reference) : List Sighting :=
  references.map fun reference => ⟨reference, place, false⟩

mutual

/-- The references in an expression.  A query in it sees what the expression sees. -/
def Expr.sightings (around : List Query) (place : Place) : Expr → List Sighting
  | .column _ => []
  | .path parts => place.sight [⟨.path, parts, true, around⟩]
  | .allOf qualifier => place.sight [⟨.allOf, qualifier, true, around⟩]
  | .query body => body.sightings around place.seen
  | .form form operands =>
    place.sight (form.references around operands) ++ exprSightings around place operands

/-- The references in expressions. -/
def exprSightings (around : List Query) (place : Place) : List Expr → List Sighting
  | [] => []
  | expr :: rest => expr.sightings around place ++ exprSightings around place rest

/-- The references in a query.  Its clauses are part of its body when that is one
select. -/
def Query.sightings (around : List Query) (outer : List Select) : Query → List Sighting
  | .mk recursive named body clauses =>
    let around := .mk recursive named body clauses :: around
    namedSightings around outer named ++ body.sightings around outer ++
      exprSightings around ⟨body.select?, outer⟩ clauses

/-- The references in the queries of a `WITH` clause, and their sources. -/
def namedSightings (around : List Query) (outer : List Select) : List Named → List Sighting
  | [] => []
  | .mk _ body source :: rest =>
    body.sightings around outer ++
      Place.sight ⟨none, outer⟩
        (source.toList.map fun ident => ⟨.relation, [ident], false, around⟩) ++
      namedSightings around outer rest

/-- The references in the body of a query.  No branch sees another one. -/
def Body.sightings (around : List Query) (outer : List Select) : Body → List Sighting
  | .select select => select.sightings around outer
  | .query query => query.sightings around outer
  | .combined _ left right => left.sightings around outer ++ right.sightings around outer
  | .values rows => exprSightings around ⟨none, outer⟩ rows
  | .table words =>
    Place.sight ⟨none, outer⟩ [⟨.relation, words.map Ident.bare, false, around⟩]
  | .command statement => statement.sightings around outer

/-- The references in a select. -/
def Select.sightings (around : List Query) (outer : List Select) : Select → List Sighting
  | .mk start items target tables clauses =>
    let place : Place := ⟨some (.mk start items target tables clauses), outer⟩
    exprSightings around place start ++ itemSightings around place items ++
      place.sight (target.toList.map fun target => ⟨.relation, target.name, false, around⟩) ++
      tableSightings around place tables ++ exprSightings around place clauses

/-- The references in the items of a select. -/
def itemSightings (around : List Query) (place : Place) : List Item → List Sighting
  | [] => []
  | item :: rest => item.sightings around place true ++ itemSightings around place rest

/-- The references in an item; only those of a select reach what is before `.*`. -/
def Item.sightings (around : List Query) (place : Place) (reached : Bool) : Item → List Sighting
  | .expr value _ => value.sightings around place
  | .allOf qualifier options =>
    place.sight [⟨.allOf, qualifier, reached, around⟩] ++ exprSightings around place options
  | .all options => exprSightings around place options

/-- The references in tables with their joins. -/
def tableSightings (around : List Query) (place : Place) : List Joined → List Sighting
  | [] => []
  | joined :: rest => joined.sightings around place ++ tableSightings around place rest

/-- The references in a table and its joins. -/
def Joined.sightings (around : List Query) (place : Place) : Joined → List Sighting
  | .mk first joins => first.sightings around place ++ joinSightings around place joins

/-- The references in joins. -/
def joinSightings (around : List Query) (place : Place) : List Join → List Sighting
  | [] => []
  | .mk _ factor condition :: rest =>
    factor.sightings around place ++ exprSightings around place condition ++
      joinSightings around place rest

/-- The references in a table.  A derived table does not see the tables beside it
unless it is lateral. -/
def Factor.sightings (around : List Query) (place : Place) : Factor → List Sighting
  | .table name details label hints =>
    ⟨⟨.relation, name, true, around⟩, place, label.isNone⟩ ::
      exprSightings around place details ++ exprSightings around place hints
  | .derived lateral query _ =>
    query.sightings around (if lateral then place.seen else place.outer)
  | .nested inner _ => inner.sightings around place
  | .transformed inner operation _ =>
    inner.sightings around place ++ operation.sightings around place
  | .computed source _ _ => source.sightings around place

/-- The references in a statement. -/
def Statement.sightings (around : List Query) (outer : List Select) : Statement → List Sighting
  | .query query => query.sightings around outer
  | .command parts => partSightings around outer parts

/-- The references in the parts of a command. -/
def partSightings (around : List Query) (outer : List Select) : List Part → List Sighting
  | [] => []
  | part :: rest => part.sightings around outer ++ partSightings around outer rest

/-- The references in a part of a command. -/
def Part.sightings (around : List Query) (outer : List Select) : Part → List Sighting
  | .words _ => []
  | .target name => Place.sight ⟨none, outer⟩ [⟨.relation, name, true, around⟩]
  | .expr value => value.sightings around ⟨none, outer⟩
  | .query query => query.sightings around outer
  | .tables joined => joined.sightings around ⟨none, outer⟩
  | .item item => item.sightings around ⟨none, outer⟩ false
  | .statement statement => statement.sightings around outer

end

/-! ## Places in a query -/

/-- The selects are among those that make up the queries. -/
def Within (selects : List Select) (around : List Query) : Prop :=
  ∀ select ∈ selects, ∃ query ∈ around, select ∈ query.body.selects

/-- All these tables are of the select of the place, if it is part of one. -/
def Place.Owns (place : Place) (factors : List Factor) : Prop :=
  ∀ select ∈ place.own, factors ⊆ select.factors

/-- What can be seen from the reference is around it, and a table without an alias is
one of its select. -/
structure Sighting.Placed (sighting : Sighting) : Prop where
  within : Within sighting.place.seen sighting.reference.around
  owned : sighting.bare = true →
    sighting.reference.role = .relation ∧ sighting.reference.reached = true ∧
    ∃ details hints, sighting.place.Owns [.table sighting.reference.name details none hints]

/-- The sightings are those of the references, one after the other. -/
structure Sights (sightings : List Sighting) (references : List Reference) : Prop where
  references_eq : sightings.map Sighting.reference = references
  placed : ∀ sighting ∈ sightings, sighting.Placed

section Judgements

variable {around : List Query} {place : Place} {outer selects : List Select}

namespace Within

theorem cons (hwithin : Within selects around) (query : Query) :
    Within selects (query :: around) := by
  intro select hselect
  obtain ⟨other, hother, hmem⟩ := hwithin select hselect
  exact ⟨other, List.mem_cons_of_mem query hother, hmem⟩

theorem append (hselects : Within selects around) (houter : Within outer around) :
    Within (selects ++ outer) around := fun select hmem =>
  (List.mem_append.mp hmem).elim (hselects select) (houter select)

theorem mono (houter : Within outer around) (hsubset : selects ⊆ outer) :
    Within selects around := fun select hmem => houter select (hsubset hmem)

/-- A query is around what is in it. -/
theorem own (query : Query) (around : List Query) :
    Within query.body.selects (query :: around) := fun _ hmem =>
  ⟨query, List.mem_cons_self, hmem⟩

theorem outside (houter : Within outer around) : Within (Place.seen ⟨none, outer⟩) around :=
  houter

end Within

theorem Body.select?_subset_selects (body : Body) : body.select?.toList ⊆ body.selects := by
  cases body with
  | select inner => exact List.Subset.refl _
  | query query => exact List.nil_subset _
  | combined operator left right => exact List.nil_subset _
  | values rows => exact List.nil_subset _
  | table words => exact List.nil_subset _
  | command statement => exact List.nil_subset _

namespace Place.Owns

variable {front rest : List Factor}

theorem none (outer : List Select) (factors : List Factor) : Owns ⟨.none, outer⟩ factors := nofun

theorem mono (howns : place.Owns rest) (hsubset : front ⊆ rest) : place.Owns front :=
  fun select hselect => List.Subset.trans hsubset (howns select hselect)

theorem left (howns : place.Owns (front ++ rest)) : place.Owns front :=
  howns.mono (List.subset_append_left front rest)

theorem right (howns : place.Owns (front ++ rest)) : place.Owns rest :=
  howns.mono (List.subset_append_right front rest)

end Place.Owns

namespace Sights

variable {sightings front : List Sighting} {references frontReferences : List Reference}

theorem nil : Sights [] [] := ⟨rfl, nofun⟩

theorem append
    (hfront : Sights front frontReferences) (hrest : Sights sightings references) :
    Sights (front ++ sightings) (frontReferences ++ references) where
  references_eq := by
    rw [List.map_append, hfront.references_eq, hrest.references_eq]
  placed := fun sighting hmem =>
    (List.mem_append.mp hmem).elim (hfront.placed sighting) (hrest.placed sighting)

/-- References at one place, all with the same queries around them. -/
theorem sight
    (hwithin : Within place.seen around)
    (haround : ∀ reference ∈ references, reference.around = around) :
    Sights (place.sight references) references where
  references_eq := by
    rw [Place.sight, List.map_map]
    exact List.map_id references
  placed := by
    intro sighting hsighting
    obtain ⟨reference, hreference, rfl⟩ := List.mem_map.mp hsighting
    exact ⟨(haround reference hreference).symm ▸ hwithin, nofun⟩

theorem table
    (hwithin : Within place.seen around) {name : Name} {details hints : List Expr}
    {label : Option Alias} (howns : place.Owns [.table name details label hints]) :
    Sights [⟨⟨.relation, name, true, around⟩, place, label.isNone⟩]
      [⟨.relation, name, true, around⟩] where
  references_eq := rfl
  placed := by
    intro sighting hsighting
    cases List.mem_singleton.mp hsighting
    refine ⟨hwithin, fun hbare => ?_⟩
    cases Option.isNone_iff_eq_none.mp hbare
    exact ⟨rfl, rfl, details, hints, howns⟩

end Sights

end Judgements

theorem Form.around_references
    (around : List Query) (form : Form) (operands : List Expr) :
    ∀ reference ∈ form.references around operands, reference.around = around := by
  intro reference hreference
  unfold Form.references at hreference
  split at hreference
  · rw [List.mem_singleton.mp hreference]
  · rw [List.mem_singleton.mp hreference]
  · rw [List.mem_singleton.mp hreference]
  · obtain ⟨name, -, rfl⟩ := List.mem_map.mp hreference
    rfl
  · cases hreference

/-! ## The walk

Each case hands on what can be seen: an expression hands it to its queries, a query
hands to its parts only what came from outside of it. -/

mutual

theorem Expr.sights
    {around : List Query} {place : Place} (hwithin : Within place.seen around) :
    ∀ expr : Expr, Sights (expr.sightings around place) (expr.references around)
  | .column name => .nil
  | .path parts => by
      rw [Expr.sightings, Expr.references]
      exact .sight hwithin (by simp)
  | .allOf qualifier => by
      rw [Expr.sightings, Expr.references]
      exact .sight hwithin (by simp)
  | .query body => by
      rw [Expr.sightings, Expr.references]
      exact Query.sights hwithin body
  | .form form operands => by
      rw [Expr.sightings, Expr.references]
      exact (Sights.sight hwithin (Form.around_references around form operands)).append
        (exprSightings_sight hwithin operands)

theorem exprSightings_sight
    {around : List Query} {place : Place} (hwithin : Within place.seen around) :
    ∀ exprs : List Expr, Sights (exprSightings around place exprs) (exprReferences around exprs)
  | [] => .nil
  | expr :: rest => by
      rw [exprSightings, exprReferences]
      exact (Expr.sights hwithin expr).append (exprSightings_sight hwithin rest)

theorem Query.sights
    {around : List Query} {outer : List Select} (houter : Within outer around) :
    ∀ query : Query, Sights (query.sightings around outer) (query.references around)
  | .mk recursive named body clauses => by
      have hown := Within.own (.mk recursive named body clauses) around
      have hrest := houter.cons (.mk recursive named body clauses)
      have hclauses : Within (Place.seen ⟨body.select?, outer⟩)
          (.mk recursive named body clauses :: around) :=
        (hown.mono body.select?_subset_selects).append hrest
      rw [Query.sightings, Query.references]
      exact ((namedSightings_sight hrest named).append (Body.sights hrest body hown)).append
        (exprSightings_sight hclauses clauses)

theorem namedSightings_sight
    {around : List Query} {outer : List Select} (houter : Within outer around) :
    ∀ named : List Named,
      Sights (namedSightings around outer named) (namedReferences around named)
  | [] => .nil
  | .mk name body source :: rest => by
      rw [namedSightings, namedReferences]
      exact ((Query.sights houter body).append (Sights.sight houter.outside (by simp))).append
        (namedSightings_sight houter rest)

theorem Body.sights
    {around : List Query} {outer : List Select} (houter : Within outer around) :
    ∀ body : Body, Within body.selects around →
      Sights (body.sightings around outer) (body.references around)
  | .select select, hselects => by
      rw [Body.sightings, Body.references]
      exact Select.sights houter select hselects
  | .query query, _ => by
      rw [Body.sightings, Body.references]
      exact Query.sights houter query
  | .combined operator left right, hselects => by
      rw [Body.sightings, Body.references]
      rw [Body.selects] at hselects
      exact (Body.sights houter left (hselects.mono (List.subset_append_left _ _))).append
        (Body.sights houter right (hselects.mono (List.subset_append_right _ _)))
  | .values rows, _ => by
      rw [Body.sightings, Body.references]
      exact exprSightings_sight houter.outside rows
  | .table words, _ => by
      rw [Body.sightings, Body.references]
      exact .sight houter.outside (by simp)
  | .command statement, _ => by
      rw [Body.sightings, Body.references]
      exact Statement.sights houter statement

theorem Select.sights
    {around : List Query} {outer : List Select} (houter : Within outer around) :
    ∀ select : Select, Within [select] around →
      Sights (select.sightings around outer) (select.references around)
  | .mk start items target tables clauses, hselects => by
      let place : Place := ⟨some (.mk start items target tables clauses), outer⟩
      have hwithin : Within place.seen around := hselects.append houter
      have howns : place.Owns (tables.flatMap Joined.factors) := by
        intro select hselect
        cases hselect
        exact List.Subset.refl _
      rw [Select.sightings, Select.references]
      exact ((((exprSightings_sight hwithin start).append
        (itemSightings_sight hwithin items)).append (Sights.sight hwithin (by simp))).append
          (tableSightings_sight hwithin tables howns)).append
            (exprSightings_sight hwithin clauses)

theorem itemSightings_sight
    {around : List Query} {place : Place} (hwithin : Within place.seen around) :
    ∀ items : List Item, Sights (itemSightings around place items) (itemReferences around items)
  | [] => .nil
  | item :: rest => by
      rw [itemSightings, itemReferences]
      exact (Item.sights hwithin true item).append (itemSightings_sight hwithin rest)

theorem Item.sights
    {around : List Query} {place : Place} (hwithin : Within place.seen around) (reached : Bool) :
    ∀ item : Item,
      Sights (item.sightings around place reached) (item.references around reached)
  | .expr value name => by
      rw [Item.sightings, Item.references]
      exact Expr.sights hwithin value
  | .allOf qualifier options => by
      rw [Item.sightings, Item.references, ← List.singleton_append]
      exact (Sights.sight hwithin (by simp)).append (exprSightings_sight hwithin options)
  | .all options => by
      rw [Item.sightings, Item.references]
      exact exprSightings_sight hwithin options

theorem tableSightings_sight
    {around : List Query} {place : Place} (hwithin : Within place.seen around) :
    ∀ tables : List Joined, place.Owns (tables.flatMap Joined.factors) →
      Sights (tableSightings around place tables) (tableReferences around tables)
  | [], _ => .nil
  | joined :: rest, howns => by
      rw [tableSightings, tableReferences]
      rw [List.flatMap_cons] at howns
      exact (Joined.sights hwithin joined howns.left).append
        (tableSightings_sight hwithin rest howns.right)

theorem Joined.sights
    {around : List Query} {place : Place} (hwithin : Within place.seen around) :
    ∀ joined : Joined, place.Owns joined.factors →
      Sights (joined.sightings around place) (joined.references around)
  | .mk first joins, howns => by
      rw [Joined.sightings, Joined.references]
      rw [Joined.factors] at howns
      exact (Factor.sights hwithin first howns.left).append
        (joinSightings_sight hwithin joins howns.right)

theorem joinSightings_sight
    {around : List Query} {place : Place} (hwithin : Within place.seen around) :
    ∀ joins : List Join, place.Owns (joinFactors joins) →
      Sights (joinSightings around place joins) (joinReferences around joins)
  | [], _ => .nil
  | .mk words factor condition :: rest, howns => by
      rw [joinSightings, joinReferences]
      rw [joinFactors] at howns
      exact ((Factor.sights hwithin factor howns.left).append
        (exprSightings_sight hwithin condition)).append
          (joinSightings_sight hwithin rest howns.right)

theorem Factor.sights
    {around : List Query} {place : Place} (hwithin : Within place.seen around) :
    ∀ factor : Factor, place.Owns factor.within →
      Sights (factor.sightings around place) (factor.references around)
  | .table name details label hints, howns => by
      rw [Factor.sightings, Factor.references, ← List.singleton_append,
        ← List.singleton_append (x := (⟨.relation, name, true, around⟩ : Reference))]
      exact ((Sights.table hwithin howns).append (exprSightings_sight hwithin details)).append
        (exprSightings_sight hwithin hints)
  | .derived lateral query label, _ => by
      rw [Factor.sightings, Factor.references]
      refine Query.sights ?_ query
      split
      · exact hwithin
      · exact hwithin.mono (List.subset_append_right _ _)
  | .nested inner label, howns => by
      rw [Factor.sightings, Factor.references]
      exact Joined.sights hwithin inner (howns.mono (List.subset_cons_self _ _))
  | .transformed inner operation label, howns => by
      rw [Factor.sightings, Factor.references]
      exact (Factor.sights hwithin inner (howns.mono (List.subset_cons_self _ _))).append
        (Expr.sights hwithin operation)
  | .computed source label suffix, _ => by
      rw [Factor.sightings, Factor.references]
      exact Expr.sights hwithin source

theorem Statement.sights
    {around : List Query} {outer : List Select} (houter : Within outer around) :
    ∀ statement : Statement,
      Sights (statement.sightings around outer) (statement.references around)
  | .query query => by
      rw [Statement.sightings, Statement.references]
      exact Query.sights houter query
  | .command parts => by
      rw [Statement.sightings, Statement.references]
      exact partSightings_sight houter parts

theorem partSightings_sight
    {around : List Query} {outer : List Select} (houter : Within outer around) :
    ∀ parts : List Part, Sights (partSightings around outer parts) (partReferences around parts)
  | [] => .nil
  | part :: rest => by
      rw [partSightings, partReferences]
      exact (Part.sights houter part).append (partSightings_sight houter rest)

theorem Part.sights
    {around : List Query} {outer : List Select} (houter : Within outer around) :
    ∀ part : Part, Sights (part.sightings around outer) (part.references around)
  | .words text => .nil
  | .target name => by
      rw [Part.sightings, Part.references]
      exact .sight houter.outside (by simp)
  | .expr value => by
      rw [Part.sightings, Part.references]
      exact Expr.sights houter.outside value
  | .query query => by
      rw [Part.sightings, Part.references]
      exact Query.sights houter query
  | .tables joined => by
      rw [Part.sightings, Part.references]
      exact Joined.sights houter.outside joined (.none outer _)
  | .item item => by
      rw [Part.sightings, Part.references]
      exact Item.sights houter.outside false item
  | .statement statement => by
      rw [Part.sightings, Part.references]
      exact Statement.sights houter statement

end

/-- Sightings go through the references of a query in the same order, and each sees
selects around it only. -/
theorem Query.sights_outermost (query : Query) :
    Sights (query.sightings [] []) (query.references []) :=
  Query.sights (fun _ hselect => absurd hselect List.not_mem_nil) query

/-! ## Names that can be seen -/

/-- A column with a qualifier, or what stands before `.*`. -/
def Reference.IsColumn (reference : Reference) : Prop :=
  reference.role = .path ∨ reference.role = .allOf

/-- The identifiers before the column or before `.*`. -/
def Reference.qualifier (reference : Reference) : Name :=
  match reference.role with
  | .path => reference.name.dropLast
  | .allOf => reference.name
  | _ => []

/-- The first identifier is the name of a table that can be seen from the place, or of
a query in the `WITH` clause of a query around it. -/
def Sighting.Hidden (sighting : Sighting) : Prop :=
  ∃ first ∈ sighting.reference.name.head?, ∃ name, sameFold name first.value = true ∧
    ((∃ select ∈ sighting.place.seen, select.Introduces name) ∨
      ∃ query ∈ sighting.reference.around, ∃ named ∈ query.namedQueries, named.label = name)

theorem Name.startsWith_dropLast_iff {segments : Path} {name : Name} :
    Name.StartsWith segments name.dropLast ↔
      name.StartsWith segments ∧ segments.length ≤ name.length - 1 := by
  have htake : segments.length ≤ name.length - 1 →
      name.dropLast.take segments.length = name.take segments.length := by
    intro hle
    rw [List.dropLast_eq_take, List.take_take, Nat.min_eq_left hle]
  constructor
  · intro hstarts
    have hlength : segments.length ≤ name.length - 1 := by
      have heq := hstarts.length_eq
      rw [List.length_take, List.length_dropLast] at heq
      omega
    exact ⟨by rwa [Name.StartsWith, htake hlength] at hstarts, hlength⟩
  · rintro ⟨hstarts, hlength⟩
    rwa [Name.StartsWith, htake hlength]

/-- A column follows a rule when its qualifier starts with the source and no query
around it introduces the first identifier. -/
theorem Reference.shouldMove_iff
    {rule : Rule} {reference : Reference} (hcolumn : reference.IsColumn) :
    reference.ShouldMove rule ↔
      reference.qualifier.StartsWith rule.source ∧ ¬ reference.StartsLocal := by
  unfold Reference.ShouldMove Reference.Exempt Reference.qualifier
  rcases hcolumn with hrole | hrole
  · simp only [hrole, Name.startsWith_dropLast_iff]
    rw [not_or, Nat.not_lt]
    tauto
  · simp only [hrole]
    rw [not_or, Nat.not_lt]
    constructor
    · rintro ⟨hstarts, -, hlocal⟩
      exact ⟨hstarts, hlocal⟩
    · rintro ⟨hstarts, hlocal⟩
      exact ⟨hstarts, hstarts.length_le, hlocal⟩

theorem Reference.after_eq_replaced_iff
    {rule : Rule} {reference : Reference} (hcolumn : reference.IsColumn)
    (hstarts : reference.qualifier.StartsWith rule.source) :
    reference.after rule = reference.name.replaced rule ↔
      (reference.reached = true ∧ ¬ reference.StartsLocal) ∨
        reference.name.replaced rule = reference.name := by
  have hmove : reference.ShouldMove rule ↔ ¬ reference.StartsLocal := by
    rw [Reference.shouldMove_iff hcolumn]
    exact and_iff_right hstarts
  rw [Reference.after_eq, ← hmove]
  split
  · next hmoved => exact ⟨fun _ => .inl hmoved, fun _ => rfl⟩
  · next hstays =>
    constructor
    · exact fun hsame => .inr hsame.symm
    · rintro (hmoved | hsame)
      · exact absurd hmoved hstays
      · exact hsame.symm

theorem Query.introduces_of_select
    {query : Query} {select : Select} {name : String} (hselect : select ∈ query.body.selects)
    (hname : select.Introduces name) : query.Introduces name := by
  obtain ⟨factor, hfactor, hname⟩ := hname
  obtain ⟨joined, hjoined, hfactor⟩ := List.mem_flatMap.mp hfactor
  refine .inr ⟨factor, List.mem_flatMap.mpr ⟨joined, ?_, hfactor⟩, hname⟩
  exact List.mem_flatMap.mpr ⟨select, hselect, hjoined⟩

/-- What can be seen is introduced around the reference; the converse fails. -/
theorem Sighting.Placed.startsLocal
    {sighting : Sighting} (hplaced : sighting.Placed) (hhidden : sighting.Hidden) :
    sighting.reference.StartsLocal := by
  obtain ⟨first, hfirst, name, hsame, hname⟩ := hhidden
  intro other hother
  cases Option.mem_unique hfirst hother
  rcases hname with ⟨select, hselect, hname⟩ | ⟨query, hquery, named, hnamed, hlabel⟩
  · obtain ⟨query, hquery, hmem⟩ := hplaced.within select hselect
    exact ⟨query, hquery, name, Query.introduces_of_select hmem hname, hsame⟩
  · exact ⟨query, hquery, name, .inl ⟨named, hnamed, hlabel⟩, hsame⟩

/-! ## Columns under a rule -/

/-- In every select, a column whose qualifier starts with the source keeps it when its
first identifier is a name that can be seen, and otherwise gets the destination. -/
def Query.HidesVisible (rule : Rule) (query after : Query) : Prop :=
  ∀ (index : Nat) (sighting : Sighting),
    (query.sightings [] [])[index]? = some sighting → sighting.place.own.isSome = true →
      sighting.reference.IsColumn → sighting.reference.qualifier.StartsWith rule.source →
        (sighting.Hidden → (after.references [])[index]?.map Reference.spelling =
          some (sighting.reference.role, sighting.reference.name)) ∧
        (¬ sighting.Hidden → (after.references [])[index]?.map Reference.spelling =
          some (sighting.reference.role, sighting.reference.name.replaced rule))

/-- The reference at the place of a sighting, after a rule. -/
theorem Query.spelling_of_sighting
    {rule : Rule} {query after : Query}
    (hmoves : Moves rule (query.references []) (after.references []))
    {index : Nat} {sighting : Sighting}
    (hindex : (query.sightings [] [])[index]? = some sighting) :
    (after.references [])[index]?.map Reference.spelling =
      some (sighting.reference.role, sighting.reference.after rule) := by
  have hreference : (query.references [])[index]? = some sighting.reference := by
    rw [← query.sights_outermost.references_eq, List.getElem?_map, hindex]
    rfl
  rw [← List.getElem?_map, hmoves, List.getElem?_map, hreference]
  rfl

/-- A rule never touches a column whose qualifier is a name that can be seen from it.
All others are moved exactly when each of them stands where a rewriter gets to and
no query around it introduces its first identifier, in whatever select, or when the
rule does not change it. -/
theorem Statement.rewrite_query_hides
    (rule : Rule) (view : Path) (origin : String) (query : Query) :
    ∃ after : Query,
      ((Statement.query query).rewrite rule view origin).statement = .query after ∧
      (∀ (index : Nat) (sighting : Sighting),
        (query.sightings [] [])[index]? = some sighting → sighting.reference.IsColumn →
          sighting.Hidden →
            (after.references [])[index]?.map Reference.spelling =
              some (sighting.reference.role, sighting.reference.name)) ∧
      (query.HidesVisible rule after ↔
        ∀ sighting ∈ query.sightings [] [], sighting.place.own.isSome = true →
          sighting.reference.IsColumn → sighting.reference.qualifier.StartsWith rule.source →
            ¬ sighting.Hidden →
              (sighting.reference.reached = true ∧ ¬ sighting.reference.StartsLocal) ∨
                sighting.reference.name.replaced rule = sighting.reference.name) := by
  have hmoves : Moves rule (query.references [])
      ((query.rename (.replacing rule) []).references []) := Query.moves rule [] [] query
  have hstays : ∀ (index : Nat) (sighting : Sighting),
      (query.sightings [] [])[index]? = some sighting → sighting.reference.IsColumn →
        sighting.Hidden →
          ((query.rename (.replacing rule) []).references [])[index]?.map Reference.spelling =
            some (sighting.reference.role, sighting.reference.name) := by
    intro index sighting hindex hcolumn hhidden
    have hlocal := (query.sights_outermost.placed sighting
      (List.mem_of_getElem? hindex)).startsLocal hhidden
    rw [Query.spelling_of_sighting hmoves hindex, Reference.after_eq_self]
    exact .inr fun hmove => ((Reference.shouldMove_iff hcolumn).mp hmove).2 hlocal
  refine ⟨query.rename (.replacing rule) [], ?_, hstays, ?_⟩
  · rw [Statement.rewrite_query, Renaming.ofRule_eq_replacing]
  constructor
  · intro hvisible sighting hmem hown hcolumn hstarts hhidden
    obtain ⟨index, hindex⟩ := List.mem_iff_getElem?.mp hmem
    have hreplaced := (hvisible index sighting hindex hown hcolumn hstarts).2 hhidden
    rw [Query.spelling_of_sighting hmoves hindex, Option.some.injEq, Prod.mk.injEq] at hreplaced
    exact (Reference.after_eq_replaced_iff hcolumn hstarts).mp hreplaced.2
  · intro hmoved index sighting hindex hown hcolumn hstarts
    refine ⟨hstays index sighting hindex hcolumn, fun hhidden => ?_⟩
    have hreplaced := (Reference.after_eq_replaced_iff hcolumn hstarts).mpr
      (hmoved sighting (List.mem_of_getElem? hindex) hown hcolumn hstarts hhidden)
    rw [Query.spelling_of_sighting hmoves hindex, hreplaced]

/-- The query of the derived table in `derivedLake`. -/
def rawOrders : Query :=
  let orders : Name := [.bare "lake", .bare "raw", .bare "orders"]
  .mk false []
    (.select (.mk [] [.expr (.path (orders ++ [.bare "id"])) none] none
      [.mk (.table orders [] none []) []] [])) []

/-- `SELECT lake.id FROM (SELECT lake.raw.orders.id FROM lake.raw.orders) AS lake` -/
def derivedLake : Query :=
  .mk false []
    (.select (.mk [] [.expr (.path [.bare "lake", .bare "id"]) none] none
      [.mk (.derived false rawOrders (some ⟨.bare "lake", []⟩)) []] [])) []

/-- The alias of the derived table cannot be seen inside of it, and yet keeps the column
there from following its table. -/
theorem rewrite_derivedLake_hides :
    ∃ after : Query,
      ((Statement.query derivedLake).rewrite ⟨["lake"], ["s3", "landing"]⟩
        ["Analytics", "Report"] "Source migration").statement = .query after ∧
      ¬ derivedLake.HidesVisible ⟨["lake"], ["s3", "landing"]⟩ after := by
  rw [Statement.rewrite_query, Renaming.ofRule_eq_replacing]
  refine ⟨_, rfl, fun hvisible => ?_⟩
  let column : Name := [.bare "lake", .bare "raw", .bare "orders", .bare "id"]
  let sighting : Sighting :=
    ⟨⟨.path, column, true, [rawOrders, derivedLake]⟩, ⟨rawOrders.body.select?, []⟩, false⟩
  have hseen : ¬ sighting.Hidden := by
    rintro ⟨first, hfirst, name, hsame, ⟨select, hselect, factor, hfactor, hname⟩ | hnamed⟩
    · cases hfirst
      cases List.mem_singleton.mp hselect
      cases List.mem_singleton.mp hfactor
      cases hname
      exact absurd hsame (by decide)
    · obtain ⟨query, hquery, named, hnamed, -⟩ := hnamed
      rcases List.mem_pair.mp hquery with rfl | rfl <;> cases hnamed
  have hmoved := (hvisible 1 sighting rfl rfl (.inl rfl) (by decide)).2 hseen
  have hstays : (Role.path, column) =
      (Role.path, Ident.bare "s3" :: Ident.bare "landing" :: column.tail) :=
    Option.some.inj hmoved
  exact absurd hstays (by decide)

end Relocate.Sql
