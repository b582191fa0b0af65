import Relocate.Proofs.Catalog.Agreement
import Relocate.Proofs.Sql.Visibility

/-!
# One rule after another

A rule judges a name by its first identifiers and by the names that are known around
it.  When an unrelated rule goes first, the names that this one replaces are still
there, and no new ones have come.  Of the names around, it asks for the queries of
`WITH` clauses, which no rule changes, and in front of a column for the first segment
of its source.  The other rule can make that segment known or unknown only in a query
around the column, where it replaces a table as a whole and so puts another last
identifier in its place (`Reference.keepsLocal_of_tables`).

`Query.rename_andThen` says that otherwise the statement that the first rule leaves is
judged like the one before it, name by name.
-/

namespace Relocate.Catalog

open Text

/-- A table that is named by the whole path, and has no alias, is known by the text. -/
def Path.Introduces (path : Path) (text : String) : Prop :=
  1 < path.length ∧ ∃ last ∈ path.getLast?, sameFold last text = true

instance (path : Path) (text : String) : Decidable (path.Introduces text) :=
  inferInstanceAs (Decidable (1 < path.length ∧ ∃ last ∈ path.getLast?, sameFold last text = true))

theorem Path.introduces_iff_lower {path : Path} {text : String} :
    path.Introduces text ↔
      1 < path.lower.length ∧ path.lower.getLast? = some (Text.lower text) := by
  unfold Introduces lower
  rw [List.length_map, List.getLast?_map, Option.map_eq_some_iff]
  simp only [sameFold_iff_lower, Option.mem_def]

/-- Behind the source a path ends as before. -/
theorem Rule.introduces_rebuild
    {rule : Rule} (hsource : rule.source ≠ []) (hdestination : rule.destination ≠ [])
    {path : Path} (hlonger : rule.source.length < path.length) {text : String} :
    (rule.rebuild path).Introduces text ↔ path.Introduces text := by
  have hfront := List.length_pos_of_ne_nil hsource
  have hnew := List.length_pos_of_ne_nil hdestination
  have hrest : path.drop rule.source.length ≠ [] := by
    rw [Ne, List.drop_eq_nil_iff]
    omega
  have hlength : 1 < rule.destination.length + (path.length - rule.source.length) := by omega
  unfold Path.Introduces rebuild
  rw [List.getLast?_append_of_ne_nil _ hrest, List.getLast?_drop, if_neg (by omega),
    List.length_append, List.length_drop]
  exact and_congr_left fun _ => iff_of_true hlength (by omega)

end Relocate.Catalog

namespace Relocate.Sql

open Catalog Text

/-! ## One name -/

theorem Name.startsWith_cons {segment : String} {segments : Path} {ident : Ident} {rest : Name} :
    StartsWith (segment :: segments) (ident :: rest) ↔
      sameFold ident.value segment = true ∧ StartsWith segments rest := by
  rw [StartsWith, List.length_cons, List.take_succ_cons, List.forall₂_cons]
  rfl

theorem Name.startsWith_iff {segments : Path} {name : Name} :
    name.StartsWith segments ↔ segments.lower <+: Path.lower (name.map Ident.value) := by
  induction segments generalizing name with
  | nil => simp [StartsWith, Path.lower]
  | cons segment segments ih =>
      cases name with
      | nil => simp [StartsWith, Path.lower]
      | cons ident name =>
          rw [startsWith_cons, ih, sameFold_iff_lower, eq_comm]
          simp [Path.lower, List.cons_prefix_cons]

/-- What the first rule writes does not begin with the source of the other. -/
theorem Name.not_startsWith_replaced
    {first second : Rule} (hunrelated : first.Unrelated second) (name : Name) :
    ¬ (name.replaced first).StartsWith second.source := by
  rw [startsWith_iff, values_replaced]
  exact hunrelated.not_isPrefix_rebuild _

/-- The other rule replaces the same names as before. -/
theorem Site.isReplaced_after
    {first second : Rule} (hunrelated : first.Unrelated second) (site : Site) :
    Site.IsReplaced second { site with name := site.after first } ↔ site.IsReplaced second := by
  by_cases hfirst : site.IsReplaced first
  · rw [Site.after, if_pos hfirst]
    refine iff_of_false (fun hsecond => ?_) (fun hsecond => ?_)
    · exact Name.not_startsWith_replaced hunrelated site.name hsecond.1
    · exact hunrelated.not_isPrefix (Name.startsWith_iff.mp hfirst.1)
        (Name.startsWith_iff.mp hsecond.1)
  · rw [Site.after, if_neg hfirst]

theorem Site.after_after
    {first second : Rule} (hunrelated : first.Unrelated second) (site : Site) :
    Site.after second { site with name := site.after first } =
      if site.IsReplaced second then (site.after first).replaced second else site.after first :=
  if_congr (site.isReplaced_after hunrelated) rfl rfl

theorem Site.after_comm
    {first second : Rule} (hunrelated : first.Unrelated second) (site : Site) :
    Site.after second { site with name := site.after first } =
      Site.after first { site with name := site.after second } := by
  rw [site.after_after hunrelated, site.after_after hunrelated.symm]
  by_cases hfirst : site.IsReplaced first
  · have hsecond : ¬ site.IsReplaced second := fun hsecond =>
      hunrelated.not_isPrefix (Name.startsWith_iff.mp hfirst.1) (Name.startsWith_iff.mp hsecond.1)
    rw [if_neg hsecond, if_pos hfirst]
    simp only [Site.after, if_pos hfirst, if_neg hsecond]
  · rw [if_neg hfirst]
    simp only [Site.after, if_neg hfirst]

/-! ## What a rule asks of the names around -/

/-- The text is a local name of the scope. -/
def Scope.knows (text : String) (scope : Scope) : Bool :=
  scope.qualifiers.any (sameFold · text)

/-- A column or `t.*` that a rewriter reaches and whose qualifier starts with the source,
so that it depends on the local names around it whether the rule replaces it. -/
def Reference.MayMove (rule : Rule) (use : Reference) : Prop :=
  use.reached = true ∧ use.qualifier.StartsWith rule.source

instance (rule : Rule) (use : Reference) : Decidable (use.MayMove rule) :=
  inferInstanceAs (Decidable (_ ∧ _))

/-- The rule gets the same answers in both places: which queries are named, and, should
it be asked, whether the first segment of its source is a local name. -/
structure Scope.Alike (rule : Rule) (asked : Prop) (inner scopes : List Scope) : Prop where
  named : inner.map Scope.named = scopes.map Scope.named
  known : asked → ∀ head ∈ rule.source.head?,
    inner.any (Scope.knows head) = scopes.any (Scope.knows head)

namespace Scope.Alike

variable {rule : Rule} {asked : Prop} {inner scopes : List Scope}

theorem isNamedQuery_eq (halike : Alike rule asked inner scopes) (name : Name) :
    isNamedQuery inner name = isNamedQuery scopes name := by
  unfold isNamedQuery
  split
  · next ident =>
    have hany := congrArg (List.any · fun named => named.any (sameFold · ident.value)) halike.named
    simpa [List.any_map, Function.comp_def] using hany
  · rfl

theorem isLocal_eq
    (halike : Alike rule asked inner scopes) (hasked : asked) {name : Name}
    (hstarts : name.StartsWith rule.source) (hsource : rule.source ≠ []) :
    ∀ ident ∈ name.head?, isLocal inner ident = isLocal scopes ident := by
  obtain ⟨head, segments, hsource⟩ := List.exists_cons_of_ne_nil hsource
  intro ident hident
  obtain ⟨rest, rfl⟩ := List.head?_eq_some_iff.mp hident
  rw [hsource, Name.startsWith_cons] at hstarts
  have hknows : knows ident.value = knows head := by
    funext scope
    refine congrArg scope.qualifiers.any (funext fun name => ?_)
    rw [Bool.eq_iff_iff, sameFold_iff_lower, sameFold_iff_lower,
      sameFold_iff_lower.mp hstarts.1]
  change inner.any (knows ident.value) = scopes.any (knows ident.value)
  rw [hknows]
  exact halike.known hasked head (by rw [hsource]; rfl)

end Scope.Alike

theorem Site.startsLocal_iff (site : Site) :
    site.StartsLocal ↔ ∀ ident ∈ site.name.head?, Scope.isLocal site.scopes ident = true := by
  simp [StartsLocal, Scope.isLocal]

/-- In scopes that are alike a rule judges a reference alike, when it starts with the
source at all. -/
theorem Reference.isReplaced_of_alike
    {rule : Rule} (hsource : rule.source ≠ []) {asked : Prop} {reference : Reference}
    {inner : List Scope} (halike : Scope.Alike rule asked inner reference.site.scopes)
    (hasks : reference.qualifier.StartsWith rule.source → asked) :
    Site.IsReplaced rule { reference.site with scopes := inner } ↔
      reference.site.IsReplaced rule := by
  refine and_congr_right fun hstarts => not_congr ?_
  have hlocal : asked →
      (Site.StartsLocal { reference.site with scopes := inner } ↔ reference.site.StartsLocal) := by
    intro hasked
    rw [Site.startsLocal_iff, Site.startsLocal_iff]
    exact forall₂_congr fun ident hident => by
      rw [halike.isLocal_eq hasked hstarts hsource ident hident]
  obtain ⟨role, name, reached, around⟩ := reference
  cases role with
  | relation =>
      have hnamed := halike.isNamedQuery_eq name
      simp only [Site.Exempt, Reference.site, ← isNamedQuery_iff]
      rw [hnamed]
      rfl
  | path =>
      refine or_congr_right' fun hlong => hlocal (hasks ?_)
      exact Name.startsWith_dropLast_iff.mpr ⟨hstarts, Nat.not_lt.mp hlong⟩
  | allOf => exact or_congr_right (hlocal (hasks hstarts))
  | column => rfl
  | label => rfl

/-! ## Local names after a rule -/

/-- The scopes of queries, each of them inside of those behind it, after the rule. -/
def Scope.after (rule : Rule) : List Query → List Scope
  | [] => []
  | query :: around =>
    ofQuery (query.rename (.replacing rule) (around.map ofQuery)) :: after rule around

theorem Scope.named_after (rule : Rule) (around : List Query) :
    (Scope.after rule around).map Scope.named = (around.map Scope.ofQuery).map Scope.named := by
  induction around with
  | nil => rfl
  | cons query around ih =>
      obtain ⟨recursive, named, body, clauses⟩ := query
      exact named_cons_rename (.replacing rule) ih recursive named body clauses

/-- After the rule the text is a local name of a query around the reference exactly when
it was one before. -/
def Reference.KeepsLocal (rule : Rule) (text : String) (use : Reference) : Prop :=
  (Scope.after rule use.around).any (Scope.knows text) =
    (use.around.map Scope.ofQuery).any (Scope.knows text)

instance (rule : Rule) (text : String) (use : Reference) : Decidable (use.KeepsLocal rule text) :=
  inferInstanceAs (Decidable (_ = _))

/-! ## Tables that keep their local names -/

section Tables

variable (r : Renaming) (scopes : List Scope)

mutual

theorem Factor.within_rename :
    ∀ factor : Factor, (factor.rename r scopes).within = factor.within.map (Factor.rename r scopes)
  | .table name details label hints => rfl
  | .derived lateral query label => rfl
  | .nested inner label => by
      rw [Factor.rename, Factor.within, Factor.within, List.map_cons, Joined.factors_rename inner]
      rfl
  | .transformed inner operation label => by
      rw [Factor.rename, Factor.within, Factor.within, List.map_cons, Factor.within_rename inner]
      rfl
  | .computed source label suffix => rfl

theorem Joined.factors_rename :
    ∀ joined : Joined,
      (joined.rename r scopes).factors = joined.factors.map (Factor.rename r scopes)
  | .mk first joins => by
      rw [Joined.rename, Joined.factors, Joined.factors, List.map_append,
        Factor.within_rename first, joinFactors_rename joins]

theorem joinFactors_rename :
    ∀ joins : List Join,
      joinFactors (renameJoins r scopes joins) = (joinFactors joins).map (Factor.rename r scopes)
  | [] => rfl
  | .mk words factor condition :: rest => by
      rw [renameJoins, joinFactors, joinFactors, List.map_append, Factor.within_rename factor,
        joinFactors_rename rest]

end

theorem Select.tables_rename (select : Select) :
    (select.rename r scopes).tables = select.tables.map (Joined.rename r scopes) := by
  obtain ⟨start, items, target, tables, clauses⟩ := select
  rw [Select.rename, Select.tables, Select.tables]
  induction tables with
  | nil => rfl
  | cons joined rest ih => rw [renameTables, List.map_cons, ih]

/-- The tables of a query are renamed one by one. -/
theorem Query.factors_rename (query : Query) :
    (query.rename r scopes).factors =
      query.factors.map (Factor.rename r (Scope.ofQuery query :: scopes)) := by
  obtain ⟨recursive, named, body, clauses⟩ := query
  simp only [Query.rename, Query.factors, Query.body, Body.selects_rename, List.flatMap_map,
    List.map_flatMap, Select.tables_rename, Joined.factors_rename, List.flatMap_assoc]

end Tables

/-- The scope of a query knows what the query introduces. -/
theorem Scope.knows_iff {text : String} {query : Query} :
    (Scope.ofQuery query).knows text = true ↔
      ∃ name, query.Introduces name ∧ sameFold name text = true := by
  simp only [Scope.knows, List.any_eq_true, Scope.mem_qualifiers_ofQuery]

theorem Name.introduces_iff {name : Name} {text : String} :
    (∃ last, (if 1 < name.length then name.getLast?.map Ident.value else none) = some last ∧
      sameFold last text = true) ↔ Path.Introduces (name.map Ident.value) text := by
  simp only [Path.Introduces, List.length_map, List.getLast?_map, Option.mem_def]
  by_cases hlength : 1 < name.length <;> simp [hlength]

/-- When the rule replaces a table as a whole that has no alias, the table is known by the
text after it as before. -/
def Query.TablesKeep (rule : Rule) (text : String) (around : List Query) (query : Query) : Prop :=
  ∀ name details hints, Factor.table name details none hints ∈ query.factors →
    Site.IsReplaced rule ⟨.relation, name, (query :: around).map Scope.ofQuery⟩ →
      name.length = rule.source.length →
        (rule.source.Introduces text ↔ rule.destination.Introduces text)

/-- Unless it is replaced as a whole, a table keeps its last identifier. -/
theorem Site.introduces_after
    {rule other : Rule} (hunrelated : rule.Unrelated other) {site : Site} {text : String}
    (hkeeps : site.IsReplaced rule → site.name.length = rule.source.length →
      (rule.source.Introduces text ↔ rule.destination.Introduces text)) :
    Path.Introduces ((site.after rule).map Ident.value) text ↔
      Path.Introduces (site.name.map Ident.value) text := by
  by_cases hreplaced : site.IsReplaced rule
  · have hstarts := hreplaced.1.length_le
    rw [Site.after, if_pos hreplaced, Name.values_replaced]
    by_cases hwhole : site.name.length = rule.source.length
    · have hlower : rule.source.lower = Path.lower (site.name.map Ident.value) :=
        (Name.startsWith_iff.mp hreplaced.1).eq_of_length (by simp [Path.lower, hwhole])
      have hrebuild : rule.rebuild (site.name.map Ident.value) = rule.destination := by
        simp [Rule.rebuild, hwhole]
      rw [hrebuild, ← hkeeps hreplaced hwhole, Path.introduces_iff_lower,
        Path.introduces_iff_lower, hlower]
    · exact Rule.introduces_rebuild hunrelated.source_ne_nil hunrelated.destination_ne_nil
        (by rw [List.length_map]; omega)
  · rw [Site.after, if_neg hreplaced]

/-- A table introduces the text after the rule as before. -/
theorem Factor.introduces_after
    {rule other : Rule} (hunrelated : rule.Unrelated other) {scopes : List Scope}
    {text : String} (factor : Factor)
    (hkeeps : ∀ name details hints, factor = .table name details none hints →
      Site.IsReplaced rule ⟨.relation, name, scopes⟩ → name.length = rule.source.length →
        (rule.source.Introduces text ↔ rule.destination.Introduces text)) :
    (∃ name, (factor.rename (.replacing rule) scopes).introduced? = some name ∧
        sameFold name text = true) ↔
      ∃ name, factor.introduced? = some name ∧ sameFold name text = true := by
  cases factor with
  | table name details label hints =>
      cases label with
      | none =>
          have hsite := @Site.introduces_after rule other hunrelated ⟨.relation, name, scopes⟩ text
            (hkeeps name details hints rfl)
          exact Name.introduces_iff.trans (hsite.trans Name.introduces_iff.symm)
      | some label => rfl
  | derived lateral query label =>
      rw [Factor.rename, Factor.introduced?, Factor.introduced?, Option.map_map]
      rfl
  | nested inner label => rfl
  | transformed inner operation label => rfl
  | computed source label suffix => rfl

/-- The scope of a query knows the text after the rule when it did before. -/
theorem Scope.knows_ofQuery_rename
    {rule other : Rule} (hunrelated : rule.Unrelated other) {text : String}
    {around : List Query} {query : Query} (hkeep : query.TablesKeep rule text around) :
    (Scope.ofQuery (query.rename (.replacing rule) (around.map Scope.ofQuery))).knows text =
      (Scope.ofQuery query).knows text := by
  have hlabels : ∀ name,
      (∃ named ∈ (query.rename (.replacing rule) (around.map Scope.ofQuery)).namedQueries,
        named.label = name) ↔ ∃ named ∈ query.namedQueries, named.label = name := by
    intro name
    obtain ⟨recursive, named, body, clauses⟩ := query
    simp only [← List.mem_map, Query.rename, Query.namedQueries, labels_renameNamed]
  have hfactor := fun factor hmem => Factor.introduces_after hunrelated factor fun name details
    hints heq => hkeep name details hints (heq ▸ hmem)
  rw [Bool.eq_iff_iff, Scope.knows_iff, Scope.knows_iff]
  simp only [Query.Introduces, hlabels, Query.factors_rename, List.mem_map,
    exists_exists_and_eq_and, or_and_right, exists_or]
  refine or_congr_right ?_
  constructor
  · rintro ⟨name, ⟨factor, hmem, hname⟩, hsame⟩
    obtain ⟨old, hold, hsame⟩ := (hfactor factor hmem).mp ⟨name, hname, hsame⟩
    exact ⟨old, ⟨factor, hmem, hold⟩, hsame⟩
  · rintro ⟨name, ⟨factor, hmem, hname⟩, hsame⟩
    obtain ⟨new, hnew, hsame⟩ := (hfactor factor hmem).mpr ⟨name, hname, hsame⟩
    exact ⟨new, ⟨factor, hmem, hnew⟩, hsame⟩

/-- A reference keeps its local names when the tables of the queries around it do. -/
theorem Reference.keepsLocal_of_tables
    {rule other : Rule} (hunrelated : rule.Unrelated other) {text : String} {use : Reference}
    (htables : ∀ query around, query :: around <:+ use.around →
      query.TablesKeep rule text around) : use.KeepsLocal rule text := by
  obtain ⟨role, name, reached, chain⟩ := use
  unfold KeepsLocal
  simp only at htables ⊢
  induction chain with
  | nil => rfl
  | cons query around ih =>
      rw [Scope.after, List.map_cons, List.any_cons, List.any_cons,
        Scope.knows_ofQuery_rename hunrelated (htables query around List.suffix_rfl)]
      congr 1
      exact ih fun inner outer hsuffix =>
        htables inner outer (hsuffix.trans (List.suffix_cons query around))

/-! ## One renaming after another -/

/-- The scopes around a name matter only as far as they decide whether the rule replaces
it. -/
structure Renaming.GoesBy (rule : Rule) (q : Renaming) : Prop where
  relation : ∀ {inner scopes : List Scope} {name : Name},
    (Site.IsReplaced rule ⟨.relation, name, inner⟩ ↔
      Site.IsReplaced rule ⟨.relation, name, scopes⟩) →
        q.relation inner name = q.relation scopes name
  path : ∀ {inner scopes : List Scope} {name : Name},
    (Site.IsReplaced rule ⟨.path, name, inner⟩ ↔ Site.IsReplaced rule ⟨.path, name, scopes⟩) →
      q.path inner name = q.path scopes name
  allOf : ∀ {inner scopes : List Scope} {name : Name},
    (Site.IsReplaced rule ⟨.allOf, name, inner⟩ ↔ Site.IsReplaced rule ⟨.allOf, name, scopes⟩) →
      q.allOf inner name = q.allOf scopes name

theorem Renaming.goesBy_replacing (rule : Rule) : (replacing rule).GoesBy rule where
  relation := fun hiff => if_congr hiff rfl rfl
  path := fun hiff => if_congr hiff rfl rfl
  allOf := fun hiff => if_congr hiff rfl rfl

/-- The first renaming and then the second, both with the scopes that a statement has
before them. -/
def Renaming.andThen (r q : Renaming) : Renaming where
  relation := fun scopes name => q.relation scopes (r.relation scopes name)
  column := fun name => q.column (r.column name)
  path := fun scopes name => q.path scopes (r.path scopes name)
  allOf := fun scopes name => q.allOf scopes (r.allOf scopes name)
  label := fun name => q.label (r.label name)

/-- Whether the first segment of the other source is a local name stays the same for all
columns that the other rule may move. -/
def Fits (rule other : Rule) (uses : List Reference) : Prop :=
  ∀ use ∈ uses, use.MayMove other → ∀ head ∈ other.source.head?, use.KeepsLocal rule head

namespace Fits

variable {rule other : Rule} {front rest uses : List Reference}

theorem left (hfits : Fits rule other (front ++ rest)) : Fits rule other front :=
  (List.forall_mem_append.mp hfits).1

theorem right (hfits : Fits rule other (front ++ rest)) : Fits rule other rest :=
  (List.forall_mem_append.mp hfits).2

theorem tail {use : Reference} (hfits : Fits rule other (use :: rest)) : Fits rule other rest :=
  (List.forall_mem_cons.mp hfits).2

/-- The other rule judges what the first one makes of a reference in the scopes before it
and in those after it alike. -/
theorem isReplaced_iff
    (hfits : Fits rule other uses) (hunrelated : rule.Unrelated other) {reference : Reference}
    (hmem : reference ∈ uses) (hreached : reference.reached = true) :
    Site.IsReplaced other
        ⟨reference.role, reference.site.after rule, Scope.after rule reference.around⟩ ↔
      Site.IsReplaced other
        ⟨reference.role, reference.site.after rule, reference.site.scopes⟩ := by
  by_cases hfirst : reference.site.IsReplaced rule
  · rw [Site.after, if_pos hfirst]
    exact iff_of_false
      (fun hsecond => Name.not_startsWith_replaced hunrelated reference.site.name hsecond.1)
      (fun hsecond => Name.not_startsWith_replaced hunrelated reference.site.name hsecond.1)
  · rw [Site.after, if_neg hfirst]
    have halike : Scope.Alike other (reference.MayMove other) (Scope.after rule reference.around)
        reference.site.scopes :=
      ⟨Scope.named_after rule reference.around, hfits reference hmem⟩
    exact Reference.isReplaced_of_alike hunrelated.symm.source_ne_nil halike fun hstarts =>
      ⟨hreached, hstarts⟩

end Fits

theorem Alias.rename_rename (r q : Renaming) (label : Option Alias) :
    (label.map (Alias.rename r.label)).map (Alias.rename q.label) =
      label.map (Alias.rename (r.andThen q).label) := by
  rw [Option.map_map]
  rfl

/-! ## What stands before `.*` -/

theorem map_mapQualifier_mapQualifier (f g : Name → Name) (items : List Item) :
    (items.map (Item.mapQualifier f)).map (Item.mapQualifier g) =
      items.map (Item.mapQualifier fun name => g (f name)) := by
  rw [List.map_map]
  refine List.map_congr_left fun item _ => ?_
  cases item <;> rfl

theorem Item.rename_mapQualifier
    (q : Renaming) (scopes : List Scope) (f : Name → Name) (item : Item) :
    (item.mapQualifier f).rename q scopes = (item.rename q scopes).mapQualifier f := by
  cases item <;> rfl

theorem renameItems_map_mapQualifier
    (q : Renaming) (scopes : List Scope) (f : Name → Name) (items : List Item) :
    renameItems q scopes (items.map (Item.mapQualifier f)) =
      (renameItems q scopes items).map (Item.mapQualifier f) := by
  induction items with
  | nil => rfl
  | cons item rest ih =>
      rw [List.map_cons, renameItems, renameItems, List.map_cons, ih, Item.rename_mapQualifier]

theorem map_mapQualifier_congr
    {f g : Name → Name} {items : List Item}
    (hsame : ∀ name ∈ items.filterMap Item.qualifier?, f name = g name) :
    items.map (Item.mapQualifier f) = items.map (Item.mapQualifier g) := by
  refine List.map_congr_left fun item hitem => ?_
  cases item with
  | expr value name => rfl
  | allOf qualifier options =>
      have hname := hsame qualifier (List.mem_filterMap.mpr ⟨_, hitem, rfl⟩)
      exact congrArg (Item.allOf · options) hname
  | all options => rfl

theorem mem_itemReferences
    {around : List Query} {items : List Item} {name : Name}
    (hname : name ∈ items.filterMap Item.qualifier?) :
    ⟨.allOf, name, true, around⟩ ∈ itemReferences around items := by
  obtain ⟨item, hitem, hqualifier⟩ := List.mem_filterMap.mp hname
  induction items with
  | nil => cases hitem
  | cons first rest ih =>
      rcases List.mem_cons.mp hitem with rfl | hrest
      · cases item with
        | allOf qualifier options =>
            cases hqualifier
            exact List.mem_append_left _ List.mem_cons_self
        | expr value name => cases hqualifier
        | all options => cases hqualifier
      · refine List.mem_append_right _ (ih ?_ hrest)
        exact List.mem_filterMap.mpr ⟨item, hrest, hqualifier⟩

/-! ## The walk

Each query adds its own scope on both sides: the one that it has before the first rule,
and the one that it has after it. -/

section Walk

variable {rule other : Rule} {q : Renaming}

mutual

theorem Expr.rename_andThen
    (hunrelated : rule.Unrelated other) (hgoes : q.GoesBy other) {around : List Query} :
    ∀ expr : Expr, Fits rule other (expr.references around) →
      (expr.rename (.replacing rule) (around.map Scope.ofQuery)).rename q
          (Scope.after rule around) =
        expr.rename ((Renaming.replacing rule).andThen q) (around.map Scope.ofQuery)
  | .column name, _ => rfl
  | .path parts, hfits => by
      have hname := hfits.isReplaced_iff hunrelated List.mem_cons_self rfl
      rw [Expr.rename, Expr.rename, Expr.rename]
      exact congrArg Expr.path (hgoes.path hname)
  | .allOf qualifier, hfits => by
      have hname := hfits.isReplaced_iff hunrelated List.mem_cons_self rfl
      rw [Expr.rename, Expr.rename, Expr.rename]
      exact congrArg Expr.allOf (hgoes.allOf hname)
  | .query body, hfits => by
      rw [Expr.rename, Expr.rename, Expr.rename,
        Query.rename_andThen hunrelated hgoes body hfits]
  | .form form operands, hfits => by
      rw [Expr.rename, Expr.rename, Expr.rename,
        renameExprs_andThen hunrelated hgoes operands hfits.right]

theorem renameExprs_andThen
    (hunrelated : rule.Unrelated other) (hgoes : q.GoesBy other) {around : List Query} :
    ∀ exprs : List Expr, Fits rule other (exprReferences around exprs) →
      renameExprs q (Scope.after rule around)
          (renameExprs (.replacing rule) (around.map Scope.ofQuery) exprs) =
        renameExprs ((Renaming.replacing rule).andThen q) (around.map Scope.ofQuery) exprs
  | [], _ => rfl
  | expr :: rest, hfits => by
      rw [renameExprs, renameExprs, renameExprs,
        Expr.rename_andThen hunrelated hgoes expr hfits.left,
        renameExprs_andThen hunrelated hgoes rest hfits.right]

theorem Query.rename_andThen
    (hunrelated : rule.Unrelated other) (hgoes : q.GoesBy other) {around : List Query} :
    ∀ query : Query, Fits rule other (query.references around) →
      (query.rename (.replacing rule) (around.map Scope.ofQuery)).rename q
          (Scope.after rule around) =
        query.rename ((Renaming.replacing rule).andThen q) (around.map Scope.ofQuery)
  | .mk recursive named body clauses, hfits => by
      have hbody := hfits.left.right
      rw [Query.rename, Query.rename, Query.rename]
      exact congr (congr (congrArg (Query.mk recursive)
        (renameNamed_andThen hunrelated hgoes named hfits.left.left))
        (Body.rename_andThen hunrelated hgoes body hbody))
        (renameExprs_andThen hunrelated hgoes clauses hfits.right)

theorem renameNamed_andThen
    (hunrelated : rule.Unrelated other) (hgoes : q.GoesBy other) {around : List Query} :
    ∀ named : List Named, Fits rule other (namedReferences around named) →
      renameNamed q (Scope.after rule around)
          (renameNamed (.replacing rule) (around.map Scope.ofQuery) named) =
        renameNamed ((Renaming.replacing rule).andThen q) (around.map Scope.ofQuery) named
  | [], _ => rfl
  | .mk name body source :: rest, hfits => by
      rw [renameNamed, renameNamed, renameNamed,
        Query.rename_andThen hunrelated hgoes body hfits.left.left,
        renameNamed_andThen hunrelated hgoes rest hfits.right]

theorem Body.rename_andThen
    (hunrelated : rule.Unrelated other) (hgoes : q.GoesBy other) {around : List Query} :
    ∀ body : Body, Fits rule other (body.references around) →
      (body.rename (.replacing rule) (around.map Scope.ofQuery)).rename q
          (Scope.after rule around) =
        body.rename ((Renaming.replacing rule).andThen q) (around.map Scope.ofQuery)
  | .select select, hfits => by
      rw [Body.rename, Body.rename, Body.rename,
        Select.rename_andThen hunrelated hgoes select hfits]
  | .query query, hfits => by
      rw [Body.rename, Body.rename, Body.rename,
        Query.rename_andThen hunrelated hgoes query hfits]
  | .combined operator left right, hfits => by
      rw [Body.rename, Body.rename, Body.rename,
        Body.rename_andThen hunrelated hgoes left hfits.left,
        Body.rename_andThen hunrelated hgoes right hfits.right]
  | .values rows, hfits => by
      rw [Body.rename, Body.rename, Body.rename,
        renameExprs_andThen hunrelated hgoes rows hfits]
  | .table words, _ => rfl
  | .command statement, hfits => by
      rw [Body.rename, Body.rename, Body.rename,
        Statement.rename_andThen hunrelated hgoes statement hfits]

theorem Select.rename_andThen
    (hunrelated : rule.Unrelated other) (hgoes : q.GoesBy other) {around : List Query} :
    ∀ select : Select, Fits rule other (select.references around) →
      (select.rename (.replacing rule) (around.map Scope.ofQuery)).rename q
          (Scope.after rule around) =
        select.rename ((Renaming.replacing rule).andThen q) (around.map Scope.ofQuery)
  | .mk start items target tables clauses, hfits => by
      have htables := hfits.left
      have hitems := htables.left.left
      have hqualifiers : ∀ name ∈ items.filterMap Item.qualifier?,
          q.allOf (Scope.after rule around)
              ((Renaming.replacing rule).allOf (around.map Scope.ofQuery) name) =
            ((Renaming.replacing rule).andThen q).allOf (around.map Scope.ofQuery) name :=
        fun name hname => hgoes.allOf
          (hitems.right.isReplaced_iff hunrelated (mem_itemReferences hname) rfl)
      rw [Select.rename, Select.rename, Select.rename, renameItems_map_mapQualifier,
        renameExprs_andThen hunrelated hgoes start hitems.left,
        renameItems_andThen hunrelated hgoes items hitems.right,
        renameTables_andThen hunrelated hgoes tables htables.right,
        renameExprs_andThen hunrelated hgoes clauses hfits.right]
      rw [← qualifiers_renameItems ((Renaming.replacing rule).andThen q)
        (around.map Scope.ofQuery)] at hqualifiers
      rw [map_mapQualifier_mapQualifier, map_mapQualifier_congr hqualifiers]

theorem renameItems_andThen
    (hunrelated : rule.Unrelated other) (hgoes : q.GoesBy other) {around : List Query} :
    ∀ items : List Item, Fits rule other (itemReferences around items) →
      renameItems q (Scope.after rule around)
          (renameItems (.replacing rule) (around.map Scope.ofQuery) items) =
        renameItems ((Renaming.replacing rule).andThen q) (around.map Scope.ofQuery) items
  | [], _ => rfl
  | item :: rest, hfits => by
      rw [renameItems, renameItems, renameItems,
        Item.rename_andThen hunrelated hgoes item hfits.left,
        renameItems_andThen hunrelated hgoes rest hfits.right]

theorem Item.rename_andThen
    (hunrelated : rule.Unrelated other) (hgoes : q.GoesBy other) {around : List Query}
    {reached : Bool} :
    ∀ item : Item, Fits rule other (item.references around reached) →
      (item.rename (.replacing rule) (around.map Scope.ofQuery)).rename q
          (Scope.after rule around) =
        item.rename ((Renaming.replacing rule).andThen q) (around.map Scope.ofQuery)
  | .expr value name, hfits => by
      rw [Item.rename, Item.rename, Item.rename,
        Expr.rename_andThen hunrelated hgoes value hfits]
  | .allOf qualifier options, hfits => by
      rw [Item.rename, Item.rename, Item.rename,
        renameExprs_andThen hunrelated hgoes options hfits.tail]
  | .all options, hfits => by
      rw [Item.rename, Item.rename, Item.rename,
        renameExprs_andThen hunrelated hgoes options hfits]

theorem renameTables_andThen
    (hunrelated : rule.Unrelated other) (hgoes : q.GoesBy other) {around : List Query} :
    ∀ tables : List Joined, Fits rule other (tableReferences around tables) →
      renameTables q (Scope.after rule around)
          (renameTables (.replacing rule) (around.map Scope.ofQuery) tables) =
        renameTables ((Renaming.replacing rule).andThen q) (around.map Scope.ofQuery) tables
  | [], _ => rfl
  | joined :: rest, hfits => by
      rw [renameTables, renameTables, renameTables,
        Joined.rename_andThen hunrelated hgoes joined hfits.left,
        renameTables_andThen hunrelated hgoes rest hfits.right]

theorem Joined.rename_andThen
    (hunrelated : rule.Unrelated other) (hgoes : q.GoesBy other) {around : List Query} :
    ∀ joined : Joined, Fits rule other (joined.references around) →
      (joined.rename (.replacing rule) (around.map Scope.ofQuery)).rename q
          (Scope.after rule around) =
        joined.rename ((Renaming.replacing rule).andThen q) (around.map Scope.ofQuery)
  | .mk first joins, hfits => by
      rw [Joined.rename, Joined.rename, Joined.rename,
        Factor.rename_andThen hunrelated hgoes first hfits.left,
        renameJoins_andThen hunrelated hgoes joins hfits.right]

theorem renameJoins_andThen
    (hunrelated : rule.Unrelated other) (hgoes : q.GoesBy other) {around : List Query} :
    ∀ joins : List Join, Fits rule other (joinReferences around joins) →
      renameJoins q (Scope.after rule around)
          (renameJoins (.replacing rule) (around.map Scope.ofQuery) joins) =
        renameJoins ((Renaming.replacing rule).andThen q) (around.map Scope.ofQuery) joins
  | [], _ => rfl
  | .mk words factor condition :: rest, hfits => by
      have hfirst := hfits.left
      rw [renameJoins, renameJoins, renameJoins,
        Factor.rename_andThen hunrelated hgoes factor hfirst.left,
        renameExprs_andThen hunrelated hgoes condition hfirst.right,
        renameJoins_andThen hunrelated hgoes rest hfits.right]

theorem Factor.rename_andThen
    (hunrelated : rule.Unrelated other) (hgoes : q.GoesBy other) {around : List Query} :
    ∀ factor : Factor, Fits rule other (factor.references around) →
      (factor.rename (.replacing rule) (around.map Scope.ofQuery)).rename q
          (Scope.after rule around) =
        factor.rename ((Renaming.replacing rule).andThen q) (around.map Scope.ofQuery)
  | .table name details label hints, hfits => by
      have hname := hfits.isReplaced_iff hunrelated List.mem_cons_self rfl
      rw [Factor.rename, Factor.rename, Factor.rename, Alias.rename_rename,
        renameExprs_andThen hunrelated hgoes details hfits.left.tail,
        renameExprs_andThen hunrelated hgoes hints hfits.right]
      exact congrArg (Factor.table · _ _ _) (hgoes.relation hname)
  | .derived lateral query label, hfits => by
      rw [Factor.rename, Factor.rename, Factor.rename, Alias.rename_rename,
        Query.rename_andThen hunrelated hgoes query hfits]
  | .nested joined label, hfits => by
      rw [Factor.rename, Factor.rename, Factor.rename,
        Joined.rename_andThen hunrelated hgoes joined hfits]
  | .transformed factor operation label, hfits => by
      rw [Factor.rename, Factor.rename, Factor.rename,
        Factor.rename_andThen hunrelated hgoes factor hfits.left,
        Expr.rename_andThen hunrelated hgoes operation hfits.right]
  | .computed source label suffix, hfits => by
      rw [Factor.rename, Factor.rename, Factor.rename,
        Expr.rename_andThen hunrelated hgoes source hfits]

theorem Statement.rename_andThen
    (hunrelated : rule.Unrelated other) (hgoes : q.GoesBy other) {around : List Query} :
    ∀ statement : Statement, Fits rule other (statement.references around) →
      (statement.rename (.replacing rule) (around.map Scope.ofQuery)).rename q
          (Scope.after rule around) =
        statement.rename ((Renaming.replacing rule).andThen q) (around.map Scope.ofQuery)
  | .query query, hfits => by
      rw [Statement.rename, Statement.rename, Statement.rename,
        Query.rename_andThen hunrelated hgoes query hfits]
  | .command parts, hfits => by
      rw [Statement.rename, Statement.rename, Statement.rename,
        renameParts_andThen hunrelated hgoes parts hfits]

theorem renameParts_andThen
    (hunrelated : rule.Unrelated other) (hgoes : q.GoesBy other) {around : List Query} :
    ∀ parts : List Part, Fits rule other (partReferences around parts) →
      renameParts q (Scope.after rule around)
          (renameParts (.replacing rule) (around.map Scope.ofQuery) parts) =
        renameParts ((Renaming.replacing rule).andThen q) (around.map Scope.ofQuery) parts
  | [], _ => rfl
  | part :: rest, hfits => by
      rw [renameParts, renameParts, renameParts,
        Part.rename_andThen hunrelated hgoes part hfits.left,
        renameParts_andThen hunrelated hgoes rest hfits.right]

theorem Part.rename_andThen
    (hunrelated : rule.Unrelated other) (hgoes : q.GoesBy other) {around : List Query} :
    ∀ part : Part, Fits rule other (part.references around) →
      (part.rename (.replacing rule) (around.map Scope.ofQuery)).rename q
          (Scope.after rule around) =
        part.rename ((Renaming.replacing rule).andThen q) (around.map Scope.ofQuery)
  | .words text, _ => rfl
  | .target name, hfits => by
      have hname := hfits.isReplaced_iff hunrelated List.mem_cons_self rfl
      rw [Part.rename, Part.rename, Part.rename]
      exact congrArg Part.target (hgoes.relation hname)
  | .expr value, hfits => by
      rw [Part.rename, Part.rename, Part.rename,
        Expr.rename_andThen hunrelated hgoes value hfits]
  | .query query, hfits => by
      rw [Part.rename, Part.rename, Part.rename,
        Query.rename_andThen hunrelated hgoes query hfits]
  | .tables joined, hfits => by
      rw [Part.rename, Part.rename, Part.rename,
        Joined.rename_andThen hunrelated hgoes joined hfits]
  | .item item, hfits => by
      rw [Part.rename, Part.rename, Part.rename,
        Item.rename_andThen hunrelated hgoes item hfits]
  | .statement statement, hfits => by
      rw [Part.rename, Part.rename, Part.rename,
        Statement.rename_andThen hunrelated hgoes statement hfits]

end

end Walk

end Relocate.Sql
