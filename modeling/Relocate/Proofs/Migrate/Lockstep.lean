import Relocate.Proofs.Migrate.Following

/-!
# Objects at one path move together

The rules change the paths of six kinds of objects, and the code for each kind is
its own.  An `Entity` is an object of one of these kinds, and the entities of a
catalog are those of all collections, in order.  Container rules move every
entity as they move its path, so what is at one path stays at one path, and
pruning then decides by the path alone.

Spaces and containers are moved in other ways, by the first segment and by the
length of the destination; the two agree about paths of one segment.
-/

namespace Relocate.Catalog

/-! ## Objects with a path -/

/-- An object that container rules move when their source covers its path. -/
inductive Entity
  | folder (folder : Folder)
  | view (view : View)
  | reflection (reflection : Reflection)
  | tag (tag : Remark)
  | wiki (wiki : Remark)
  | dependency (record : Dependency)

namespace Entity

/-- The path of the object. -/
def path : Entity → Path
  | .folder object => object.path
  | .view object => object.path
  | .reflection object => object.path
  | .tag remark | .wiki remark => remark.path
  | .dependency record => record.path

/-- The object after a container rule. -/
def applyRule (rule : Rule) : Entity → Entity
  | .folder object => .folder (object.applyRule rule)
  | .view object => .view (object.applyContainerRule rule).view
  | .reflection object => .reflection (object.applyRule rule)
  | .tag remark => .tag (remark.applyRule rule)
  | .wiki remark => .wiki (remark.applyRule rule)
  | .dependency record => .dependency (record.applyRule rule)

/-- The object after container rules, one after the other. -/
def relocated (rules : List Rule) (entity : Entity) : Entity :=
  rules.foldl (fun entity rule => entity.applyRule rule) entity

/-- Reflections and dependency records are never dropped. -/
def isPrunable : Entity → Bool
  | .folder _ | .view _ | .tag _ | .wiki _ => true
  | .reflection _ | .dependency _ => false

/-- A tag or a wiki text, which is about the object at its path. -/
def isRemark : Entity → Bool
  | .tag _ | .wiki _ => true
  | _ => false

/-- A folder or a view. -/
def isNode : Entity → Bool
  | .folder _ | .view _ => true
  | _ => false

theorem path_applyRule (rule : Rule) (entity : Entity) :
    (entity.applyRule rule).path = (rule.moved? entity.path).getD entity.path := by
  cases entity with
  | folder object => exact Folder.path_applyRule rule object
  | view object => exact View.path_applyContainerRule rule object
  | reflection | tag | wiki => rfl
  | dependency record =>
      cases hmoved : rule.moved? record.path with
      | none => simp [applyRule, path, Dependency.applyRule, hmoved]
      | some moved =>
          simp [applyRule, path, Dependency.applyRule, Dependency.rewriteParents, hmoved]

theorem path_relocated (rules : List Rule) (entity : Entity) :
    (entity.relocated rules).path = Path.relocated rules entity.path :=
  Path.relocated_foldl path_applyRule rules entity

theorem isPrunable_applyRule (rule : Rule) (entity : Entity) :
    (entity.applyRule rule).isPrunable = entity.isPrunable := by
  cases entity <;> rfl

theorem isPrunable_relocated (rules : List Rule) (entity : Entity) :
    (entity.relocated rules).isPrunable = entity.isPrunable := by
  induction rules generalizing entity with
  | nil => rfl
  | cons rule rest ih => exact (ih _).trans (isPrunable_applyRule rule entity)

theorem isPrunable_of_isRemark {entity : Entity} (h : entity.isRemark = true) :
    entity.isPrunable = true := by
  match entity, h with
  | .tag _, _ | .wiki _, _ => rfl

theorem isPrunable_of_isNode {entity : Entity} (h : entity.isNode = true) :
    entity.isPrunable = true := by
  match entity, h with
  | .folder _, _ | .view _, _ => rfl

end Entity

/-- The objects of all collections that container rules move by their paths. -/
def entities (catalog : Catalog) : List Entity :=
  catalog.folders.map .folder ++ catalog.views.map .view ++
    catalog.reflections.map .reflection ++ catalog.tags.map .tag ++ catalog.wikis.map .wiki ++
    catalog.dependencies.map .dependency

/-! ## Container rules -/

theorem entities_applyContainerRule (rule : Rule) (catalog : Catalog) :
    (catalog.applyContainerRule rule).catalog.entities =
      catalog.entities.map (Entity.applyRule rule) := by
  simp [entities, applyContainerRule, Entity.applyRule, Function.comp_def]

theorem entities_applyRules (origin : String) (rules : List Rule) (catalog : Catalog) :
    (applyRules origin Catalog.applyContainerRule rules catalog).catalog.entities =
      catalog.entities.map (Entity.relocated rules) :=
  collection_applyRules entities entities_applyContainerRule origin rules catalog

/-- The space after container rules, one after the other. -/
def Space.relocated (rules : List Rule) (space : Space) : Space :=
  rules.foldl (fun space rule => space.applyRule rule) space

/-- The container after container rules, one after the other. -/
def Container.relocated (rules : List Rule) (container : Container) : Container :=
  rules.foldl (fun container rule => container.applyRule rule) container

theorem spaces_applyRules (origin : String) (rules : List Rule) (catalog : Catalog) :
    (applyRules origin Catalog.applyContainerRule rules catalog).catalog.spaces =
      catalog.spaces.map (Space.relocated rules) :=
  collection_applyRules Catalog.spaces (fun _ _ => rfl) origin rules catalog

theorem containers_applyRules (origin : String) (rules : List Rule) (catalog : Catalog) :
    (applyRules origin Catalog.applyContainerRule rules catalog).catalog.containers =
      catalog.containers.map (Container.relocated rules) :=
  collection_applyRules Catalog.containers (fun _ _ => rfl) origin rules catalog

/-- A container of one segment and the space of that name move together: what is
left of the source at this length is the name that the space has to have. -/
theorem Container.path_applyRule_of_space
    {rule : Rule} (hdestination : rule.destination ≠ []) {container : Container} {space : Space}
    (hpath : container.path = space.path) :
    (container.applyRule rule).path = (space.applyRule rule).path := by
  obtain ⟨source, destination⟩ := rule
  obtain ⟨root, rest, rfl⟩ := List.exists_cons_of_ne_nil hdestination
  have hlength : min container.path.length (root :: rest).length = 1 := by
    simp [hpath, Space.path]
  cases source with
  | nil => simp [applyRule, moved?, Space.applyRule, Space.moved?, Path.truncated, Path.root?,
      hpath, Space.path]
  | cons first more =>
      by_cases hname : space.name = first
      · simp [applyRule, moved?, Space.applyRule, Space.moved?, Path.truncated, Path.root?,
          hpath, Space.path, hname]
      · simp [applyRule, moved?, Space.applyRule, Space.moved?, Path.truncated, Path.root?,
          hpath, Space.path, hname]

theorem Container.path_relocated_of_space
    {rules : List Rule} (hdestinations : ∀ rule ∈ rules, rule.destination ≠ [])
    {container : Container} {space : Space} (hpath : container.path = space.path) :
    (container.relocated rules).path = (space.relocated rules).path := by
  induction rules generalizing container space with
  | nil => exact hpath
  | cons rule rest ih =>
      have hfirst := path_applyRule_of_space (hdestinations rule List.mem_cons_self) hpath
      exact ih (fun later hlater => hdestinations later (List.mem_cons_of_mem _ hlater)) hfirst

/-! ## Pruning -/

theorem entities_prune (rules : List Rule) (catalog : Catalog) :
    (catalog.prune rules).catalog.entities =
      catalog.entities.filter fun entity =>
        !entity.isPrunable || inDestinationScope rules entity.path := by
  simp [entities, prune, List.filter_map, Function.comp_def, Entity.isPrunable, Entity.path]

theorem mem_entities_prune {rules : List Rule} {catalog : Catalog} {entity : Entity}
    (hprunable : entity.isPrunable = true) :
    entity ∈ (catalog.prune rules).catalog.entities ↔
      entity ∈ catalog.entities ∧ inDestinationScope rules entity.path = true := by
  rw [entities_prune, List.mem_filter]
  simp [hprunable]

/-! ## All kinds in lockstep -/

/-- The rules move the objects of every collection one by one and in place.
Objects at one path end up at one path, a container of one segment keeps the name
of its space, and pruning keeps or drops all that is at one path alike: what a tag
or a wiki text is about stays as long as the tag or the text does. -/
theorem entities_move_in_lockstep
    (rules : List Rule) (catalog : Catalog)
    (hdestinations : ∀ rule ∈ rules, rule.destination ≠ []) :
    let after := (applyRules View.containerOrigin Catalog.applyContainerRule rules
      catalog).catalog
    let kept := (after.prune rules).catalog
    (after.entities = catalog.entities.map (Entity.relocated rules) ∧
      after.spaces = catalog.spaces.map (Space.relocated rules) ∧
      after.containers = catalog.containers.map (Container.relocated rules)) ∧
    (∀ first ∈ catalog.entities, ∀ second ∈ catalog.entities, first.path = second.path →
      (first.relocated rules).path = (second.relocated rules).path) ∧
    (∀ container ∈ catalog.containers, ∀ space ∈ catalog.spaces,
      container.path = [space.name] →
        (container.relocated rules).path = [(space.relocated rules).name]) ∧
    (∀ first ∈ after.entities, ∀ second ∈ after.entities,
      first.isPrunable = true → second.isPrunable = true → first.path = second.path →
        (first ∈ kept.entities ↔ second ∈ kept.entities)) ∧
    ∀ remark ∈ catalog.entities, ∀ node ∈ catalog.entities,
      remark.isRemark = true → node.isNode = true → remark.path = node.path →
        remark.relocated rules ∈ kept.entities → node.relocated rules ∈ kept.entities := by
  intro after kept
  have hentities : after.entities = catalog.entities.map (Entity.relocated rules) :=
    entities_applyRules View.containerOrigin rules catalog
  have hlockstep : ∀ first second : Entity, first.path = second.path →
      (first.relocated rules).path = (second.relocated rules).path := by
    intro first second hpath
    rw [Entity.path_relocated, Entity.path_relocated, hpath]
  have halike : ∀ first ∈ after.entities, ∀ second ∈ after.entities,
      first.isPrunable = true → second.isPrunable = true → first.path = second.path →
        (first ∈ kept.entities ↔ second ∈ kept.entities) := by
    intro first hfirst second hsecond hprunable hother hpath
    rw [mem_entities_prune hprunable, mem_entities_prune hother, hpath]
    constructor
    · rintro ⟨-, hscope⟩
      exact ⟨hsecond, hscope⟩
    · rintro ⟨-, hscope⟩
      exact ⟨hfirst, hscope⟩
  refine ⟨⟨hentities, spaces_applyRules _ rules catalog, containers_applyRules _ rules catalog⟩,
    ?_, ?_, halike, ?_⟩
  · intro first _ second _ hpath
    exact hlockstep first second hpath
  · intro container _ space _ hpath
    exact Container.path_relocated_of_space hdestinations hpath
  · intro remark hremark node hnode hisRemark hisNode hpath hkept
    have hmoved : ∀ entity ∈ catalog.entities, entity.relocated rules ∈ after.entities := by
      intro entity hentity
      rw [hentities]
      exact List.mem_map_of_mem hentity
    have hremarkPrunable : (remark.relocated rules).isPrunable = true := by
      rw [Entity.isPrunable_relocated]
      exact Entity.isPrunable_of_isRemark hisRemark
    have hnodePrunable : (node.relocated rules).isPrunable = true := by
      rw [Entity.isPrunable_relocated]
      exact Entity.isPrunable_of_isNode hisNode
    exact (halike _ (hmoved remark hremark) _ (hmoved node hnode) hremarkPrunable hnodePrunable
      (hlockstep remark node hpath)).mp hkept

/-- The view `Prod.Sales.Orders` with its tag, and the container of its space. -/
def taggedOrders : Catalog := { ordersInProd with
  containers := [⟨"prod", ["Prod"], spaceType, []⟩]
  tags := [⟨["Prod", "Sales", "Orders"], [("tags", .array [.text "eu"])]⟩] }

/-- `Prod.Sales` goes to `Stage.Sales`, and all of `Stage` to `Analytics.EU`. -/
def throughStage : List Rule :=
  [⟨["Prod", "Sales"], ["Stage", "Sales"]⟩, ⟨["Stage"], ["Analytics", "EU"]⟩]

/-- The tag of the view is kept, and so is the view; the container has the new
name of the space. -/
theorem taggedOrders_move_in_lockstep :
    (∀ rule ∈ throughStage, rule.destination ≠ []) ∧
    (∀ tag ∈ taggedOrders.tags, ∀ view ∈ taggedOrders.views,
      (Entity.tag tag).relocated throughStage ∈
          (((applyRules View.containerOrigin Catalog.applyContainerRule throughStage
            taggedOrders).catalog.prune throughStage).catalog).entities ∧
        (Entity.view view).relocated throughStage ∈
          (((applyRules View.containerOrigin Catalog.applyContainerRule throughStage
            taggedOrders).catalog.prune throughStage).catalog).entities) ∧
    ∀ container ∈ taggedOrders.containers, ∀ space ∈ taggedOrders.spaces,
      (container.relocated throughStage).path = [(space.relocated throughStage).name] := by
  have hdestinations : ∀ rule ∈ throughStage, rule.destination ≠ [] := by decide
  obtain ⟨-, -, hspaces, -, hremarks⟩ :=
    entities_move_in_lockstep throughStage taggedOrders hdestinations
  refine ⟨hdestinations, ?_, ?_⟩
  · intro tag htag view hview
    obtain rfl := List.mem_singleton.mp htag
    obtain rfl := List.mem_singleton.mp hview
    have hkept := List.mem_of_getElem? (l := (((applyRules View.containerOrigin
      Catalog.applyContainerRule throughStage taggedOrders).catalog.prune
        throughStage).catalog).entities) (i := 2) rfl
    refine ⟨hkept, ?_⟩
    exact hremarks _ (List.mem_of_getElem? (i := 2) rfl) _ (List.mem_of_getElem? (i := 1) rfl) rfl
      rfl rfl hkept
  · intro container hcontainer space hspace
    obtain rfl := List.mem_singleton.mp hcontainer
    obtain rfl := List.mem_singleton.mp hspace
    exact hspaces _ hcontainer _ hspace rfl

end Relocate.Catalog
