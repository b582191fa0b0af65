import Relocate.Proofs.Catalog.Agreement
import Relocate.Proofs.Migrate.Lockstep

/-!
# What pruning keeps

Pruning looks at the path of an object alone: it keeps what agrees with a destination
as far as both paths go.  A rule brings what it moves below its own destination, and
no later rule takes it out of the reach of all destinations again, so nothing that has
moved is lost.  What is above a path in reach is in reach too, so nothing that is kept
loses its folders and its space.
-/

namespace Relocate.Catalog

/-! ## Paths in reach of a destination -/

/-- The path agrees with the destination of some rule. -/
def Path.InReach (rules : List Rule) (path : Path) : Prop :=
  ∃ rule ∈ rules, rule.destination.Agrees path

instance (rules : List Rule) (path : Path) : Decidable (Path.InReach rules path) :=
  inferInstanceAs (Decidable (∃ rule ∈ rules, rule.destination.Agrees path))

theorem inDestinationScope_iff {rules : List Rule} {path : Path} :
    inDestinationScope rules path = true ↔ path.InReach rules := by
  simp only [inDestinationScope, List.any_eq_true, Path.overlaps_iff_isPrefix_or, Path.InReach,
    Path.agrees_iff_isPrefix_or]

theorem inDestinationScope_eq (rules : List Rule) (path : Path) :
    inDestinationScope rules path = decide (path.InReach rules) := by
  rw [Bool.eq_iff_iff, inDestinationScope_iff, decide_eq_true_iff]

namespace Path.InReach

variable {rules : List Rule} {rule : Rule} {path above : Path}

theorem of_prefix (hreach : path.InReach rules) (habove : above <+: path) :
    above.InReach rules := by
  obtain ⟨rule, hrule, hagrees⟩ := hreach
  refine ⟨rule, hrule, ?_⟩
  rw [agrees_iff_isPrefix_or] at hagrees ⊢
  rcases hagrees with hbelow | habove'
  · exact List.prefix_or_prefix_of_prefix hbelow habove
  · exact .inr (habove.trans habove')

theorem rebuild (hrule : rule ∈ rules) (path : Path) : (rule.rebuild path).InReach rules :=
  ⟨rule, hrule, agrees_iff_isPrefix_or.mpr (.inl (List.prefix_append _ _))⟩

theorem root {name : String} (hrule : rule ∈ rules)
    (hname : rule.destination.root? = some name) : Path.InReach rules [name] := by
  obtain ⟨rest, hdestination⟩ := List.head?_eq_some_iff.mp hname
  refine ⟨rule, hrule, agrees_iff_isPrefix_or.mpr (.inr ⟨rest, ?_⟩)⟩
  rw [hdestination, List.singleton_append]

end Path.InReach

/-! ## Objects that have moved -/

/-- What some rule brings about at its turn and every rule keeps, is so in the end. -/
theorem foldl_of_turn
    {α : Type} {change : Rule → α → α} {p : α → Prop} {rules : List Rule}
    (hkeeps : ∀ rule ∈ rules, ∀ object, p object → p (change rule object))
    {object : α} {turn : Nat} {rule : Rule} (hturn : rules[turn]? = some rule)
    (hbrings : p (change rule
      ((rules.take turn).foldl (fun object rule => change rule object) object))) :
    p (rules.foldl (fun object rule => change rule object) object) := by
  obtain ⟨hlt, rfl⟩ := List.getElem?_eq_some_iff.mp hturn
  have hsplit : rules.take turn ++ rules[turn] :: rules.drop (turn + 1) = rules := by
    rw [List.getElem_cons_drop, List.take_append_drop]
  rw [← hsplit, List.foldl_append, List.foldl_cons]
  refine List.foldlRecOn _ _ hbrings fun object hobject later hlater => ?_
  exact hkeeps later (List.mem_of_mem_drop hlater) object hobject

/-- Some rule finds the object below its source when its turn comes. -/
def Entity.IsMoved (rules : List Rule) (entity : Entity) : Prop :=
  ∃ (turn : Nat) (rule : Rule), rules[turn]? = some rule ∧
    rule.source.covers (entity.relocated (rules.take turn)).path = true

/-- Some rule renames the space when its turn comes. -/
def Space.IsMoved (rules : List Rule) (space : Space) : Prop :=
  ∃ (turn : Nat) (rule : Rule), rules[turn]? = some rule ∧
    ((space.relocated (rules.take turn)).moved? rule).isSome = true

theorem Entity.IsMoved.inReach
    {rules : List Rule} {entity : Entity} (hmoved : entity.IsMoved rules) :
    (entity.relocated rules).path.InReach rules := by
  obtain ⟨turn, rule, hturn, hcovers⟩ := hmoved
  have hrule : rule ∈ rules := List.mem_of_getElem? hturn
  refine foldl_of_turn (p := fun entity : Entity => entity.path.InReach rules) ?_ hturn ?_
  · intro later hlater entity hreach
    rw [path_applyRule, Rule.moved?_getD_eq]
    split
    · exact .rebuild hlater entity.path
    · exact hreach
  · rw [path_applyRule, Rule.moved?_getD_eq]
    exact (if_pos hcovers).symm ▸ Path.InReach.rebuild hrule _

theorem Space.root?_of_moved {rule : Rule} {space : Space} {name : String}
    (hmoved : space.moved? rule = some name) : rule.destination.root? = some name := by
  unfold moved? at hmoved
  split at hmoved
  · next hsource hdestination =>
    split at hmoved
    · exact hdestination.trans hmoved
    · cases hmoved
  · cases hmoved

/-- A renamed space is on the way to the destination, any other one is as it was. -/
theorem Space.applyRule_cases (rule : Rule) (space : Space) :
    (space.moved? rule = none ∧ space.applyRule rule = space) ∨
      rule.destination.root? = some (space.applyRule rule).name := by
  rw [applyRule]
  cases hmoved : space.moved? rule with
  | none => exact .inl ⟨rfl, rfl⟩
  | some name => exact .inr (root?_of_moved hmoved)

theorem Space.IsMoved.inReach
    {rules : List Rule} {space : Space} (hmoved : space.IsMoved rules) :
    (space.relocated rules).path.InReach rules := by
  obtain ⟨turn, rule, hturn, hrenamed⟩ := hmoved
  have hrule : rule ∈ rules := List.mem_of_getElem? hturn
  refine foldl_of_turn (p := fun space : Space => space.path.InReach rules) ?_ hturn ?_
  · intro later hlater space hreach
    rcases Space.applyRule_cases later space with ⟨-, hsame⟩ | hname
    · rwa [hsame]
    · exact .root hlater hname
  · rcases Space.applyRule_cases rule _ with ⟨hnone, -⟩ | hname
    · rw [Space.relocated] at hrenamed
      rw [hnone] at hrenamed
      cases hrenamed
    · exact .root hrule hname

/-! ## The pruned catalog -/

theorem prune_catalog_eq (rules : List Rule) (catalog : Catalog) :
    (catalog.prune rules).catalog = { catalog with
      spaces := catalog.spaces.filter fun space => space.path.InReach rules
      folders := catalog.folders.filter fun folder => folder.path.InReach rules
      views := catalog.views.filter fun view => view.path.InReach rules
      tags := catalog.tags.filter fun tag => tag.path.InReach rules
      wikis := catalog.wikis.filter fun wiki => wiki.path.InReach rules } := by
  simp only [prune, inDestinationScope_eq]

theorem mem_spaces_prune {rules : List Rule} {catalog : Catalog} {space : Space} :
    space ∈ (catalog.prune rules).catalog.spaces ↔
      space ∈ catalog.spaces ∧ space.path.InReach rules := by
  simp [prune_catalog_eq]

/-- Pruning depends on which rules there are, not on their order. -/
theorem prune_perm {rules order : List Rule} (hperm : order.Perm rules) (catalog : Catalog) :
    catalog.prune order = catalog.prune rules := by
  have hscope : inDestinationScope order = inDestinationScope rules :=
    funext fun _ => hperm.any_eq
  unfold prune dropLog
  rw [hscope]

theorem length_sub_length_filter {α : Type} (p : α → Bool) (objects : List α) :
    objects.length - (objects.filter p).length = objects.countP fun object => !p object := by
  rw [List.length_eq_countP_add_countP p, ← List.countP_eq_length_filter, Nat.add_sub_cancel_left]
  simp

theorem dropped_prune (rules : List Rule) (catalog : Catalog) :
    (catalog.prune rules).dropped =
      catalog.spaces.countP (fun space => ¬ space.path.InReach rules) +
        catalog.entities.countP fun entity =>
          entity.isPrunable = true ∧ ¬ entity.path.InReach rules := by
  simp only [prune, length_sub_length_filter, inDestinationScope_eq, entities, List.countP_append,
    List.countP_map]
  simp [Function.comp_def, Entity.isPrunable, Entity.path, Nat.add_assoc]

/-! ## Container rules with pruning -/

/-- After container rules and pruning with their destinations, every space, folder, view,
tag and wiki text that some rule has moved is still there, and so are the spaces and the
folders above whatever is there.  The survivors of a collection are what agrees with some
destination, in the old order; in which order the destinations are looked at makes no
difference, and the number is that of the dropped objects. -/
theorem pruning_keeps_moved (rules : List Rule) (catalog : Catalog) :
    let after := (applyRules View.containerOrigin Catalog.applyContainerRule rules
      catalog).catalog
    let pruned := after.prune rules
    let kept := pruned.catalog
    ((∀ space ∈ catalog.spaces, space.IsMoved rules → space.relocated rules ∈ kept.spaces) ∧
      ∀ entity ∈ catalog.entities, entity.isPrunable = true → entity.IsMoved rules →
        entity.relocated rules ∈ kept.entities) ∧
    (∀ path : Path,
      ((∃ space ∈ kept.spaces, space.path = path) ∨
        ∃ entity ∈ kept.entities, entity.isPrunable = true ∧ entity.path = path) →
      (∀ space ∈ after.spaces, space.path <+: path → space ∈ kept.spaces) ∧
        ∀ folder ∈ after.folders, folder.path <+: path → folder ∈ kept.folders) ∧
    kept = { after with
      spaces := after.spaces.filter fun space => space.path.InReach rules
      folders := after.folders.filter fun folder => folder.path.InReach rules
      views := after.views.filter fun view => view.path.InReach rules
      tags := after.tags.filter fun tag => tag.path.InReach rules
      wikis := after.wikis.filter fun wiki => wiki.path.InReach rules } ∧
    (∀ order : List Rule, order.Perm rules → after.prune order = pruned) ∧
    pruned.dropped =
      after.spaces.countP (fun space => ¬ space.path.InReach rules) +
        after.entities.countP fun entity =>
          entity.isPrunable = true ∧ ¬ entity.path.InReach rules := by
  intro after pruned kept
  have hspaces : after.spaces = catalog.spaces.map (Space.relocated rules) :=
    spaces_applyRules View.containerOrigin rules catalog
  have hentities : after.entities = catalog.entities.map (Entity.relocated rules) :=
    entities_applyRules View.containerOrigin rules catalog
  have hkept := prune_catalog_eq rules after
  refine ⟨⟨?_, ?_⟩, ?_, hkept, fun order hperm => prune_perm hperm after,
    dropped_prune rules after⟩
  · intro space hspace hmoved
    refine mem_spaces_prune.mpr ⟨?_, hmoved.inReach⟩
    rw [hspaces]
    exact List.mem_map_of_mem hspace
  · intro entity hentity hprunable hmoved
    have hstill : (entity.relocated rules).isPrunable = true := by
      rwa [Entity.isPrunable_relocated]
    refine (mem_entities_prune hstill).mpr ⟨?_, inDestinationScope_iff.mpr hmoved.inReach⟩
    rw [hentities]
    exact List.mem_map_of_mem hentity
  · intro path hpath
    have hreach : path.InReach rules := by
      rcases hpath with ⟨space, hspace, rfl⟩ | ⟨entity, hentity, hprunable, rfl⟩
      · exact (mem_spaces_prune.mp hspace).2
      · exact inDestinationScope_iff.mp ((mem_entities_prune hprunable).mp hentity).2
    constructor
    · intro space hspace habove
      exact mem_spaces_prune.mpr ⟨hspace, hreach.of_prefix habove⟩
    · intro folder hfolder habove
      have hfolders : kept.folders = _ := congrArg folders hkept
      rw [hfolders, List.mem_filter]
      exact ⟨hfolder, decide_eq_true (hreach.of_prefix habove)⟩

/-- The view `Prod.Sales.Orders` with its tag, and a wiki text that no rule moves. -/
def ordersAndLegacy : Catalog := { taggedOrders with
  wikis := [⟨["Legacy", "Orders"], [("text", .text "Use Prod.Sales.Orders.")]⟩] }

/-- The space and the view are moved twice and kept, the folder above the view is kept
with it, and the wiki text is dropped. -/
theorem ordersAndLegacy_keep_moved :
    let after := (applyRules View.containerOrigin Catalog.applyContainerRule throughStage
      ordersAndLegacy).catalog
    let pruned := after.prune throughStage
    (∀ space ∈ ordersAndLegacy.spaces, space.IsMoved throughStage ∧
      space.relocated throughStage ∈ pruned.catalog.spaces) ∧
    (∀ view ∈ ordersAndLegacy.views, (Entity.view view).IsMoved throughStage ∧
      (Entity.view view).relocated throughStage ∈ pruned.catalog.entities) ∧
    (∀ folder ∈ after.folders, folder.path <+: ["Analytics", "EU", "Sales", "Orders"] ∧
      folder ∈ pruned.catalog.folders) ∧
    after.prune throughStage.reverse = pruned ∧ pruned.dropped = 1 := by
  obtain ⟨⟨hspaces, hentities⟩, habove, -, horder, hdropped⟩ :=
    pruning_keeps_moved throughStage ordersAndLegacy
  intro after pruned
  have hview : ∀ view ∈ ordersAndLegacy.views, (Entity.view view).IsMoved throughStage ∧
      (Entity.view view).relocated throughStage ∈ pruned.catalog.entities := by
    intro view hview
    have hmoved : (Entity.view view).IsMoved throughStage := by
      obtain rfl := List.mem_singleton.mp hview
      exact ⟨0, _, rfl, rfl⟩
    obtain rfl := List.mem_singleton.mp hview
    exact ⟨hmoved, hentities _ (List.mem_of_getElem? (i := 1) rfl) rfl hmoved⟩
  refine ⟨?_, hview, ?_, horder _ throughStage.reverse_perm, hdropped⟩
  · intro space hspace
    have hmoved : space.IsMoved throughStage := by
      obtain rfl := List.mem_singleton.mp hspace
      exact ⟨0, _, rfl, rfl⟩
    exact ⟨hmoved, hspaces space hspace hmoved⟩
  · intro folder hfolder
    have hover : folder.path <+: ["Analytics", "EU", "Sales", "Orders"] := by
      obtain rfl := List.mem_singleton.mp hfolder
      decide
    obtain ⟨-, hkept⟩ := hview _ (List.mem_singleton_self _)
    exact ⟨hover, (habove _ (.inr ⟨_, hkept, rfl, rfl⟩)).2 _ hfolder hover⟩

end Relocate.Catalog
