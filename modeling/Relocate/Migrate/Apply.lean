import Relocate.Catalog.Snapshot
import Relocate.Sql.Rewrite

/-!
# Applying a rule to a catalog

A container rule moves every object below its source: the objects themselves,
the references in the moved views, and the dependency records.  Moved spaces and
folders lose their listings, which are put together again once all rules have
been applied.  A source rule moves no object; it changes the references of all
views and of all dependency records.

For each kind of object there is the object after the rule and what there is to
tell about it.
-/

namespace Relocate

open Text

namespace Catalog

/-- The path after the rule, when the source covers it. -/
def Rule.moved? (rule : Rule) (path : Path) : Option Path :=
  if rule.source.covers path then some (rule.rebuild path) else none

/-- What there is to tell about a path that changes. -/
def movedEntry (kind : String) (old new : Path) : Entry :=
  ⟨.info, "Matching " ++ kind ++ ": " ++ old.dotted ++ " -> " ++ new.dotted⟩

/-- What there is to tell about a path under a rule. -/
def Rule.log (rule : Rule) (kind : String) (path : Path) : List Entry :=
  (rule.moved? path).toList.map (movedEntry kind path)

namespace Container

/-- The path of the container after the rule.  A container above the source goes
to the part of the destination at its own depth. -/
def moved? (rule : Rule) (container : Container) : Option Path :=
  let length := min container.path.length rule.destination.length
  if container.path.truncated length = rule.source.truncated length then
    some (rule.destination.truncated length)
  else none

/-- The container after the rule. -/
def applyRule (rule : Rule) (container : Container) : Container :=
  { container with path := (container.moved? rule).getD container.path }

/-- What there is to tell about the container. -/
def ruleLog (rule : Rule) (container : Container) : List Entry :=
  (container.moved? rule).toList.map (movedEntry "container" container.path)

end Container

namespace Space

/-- The name of the space after the rule, when the source lies in the space. -/
def moved? (rule : Rule) (space : Space) : Option String :=
  match rule.source.root?, rule.destination.root? with
  | some source, some destination => if space.name = source then some destination else none
  | _, _ => none

/-- The space after the rule; it is empty when it has moved. -/
def applyRule (rule : Rule) (space : Space) : Space :=
  match space.moved? rule with
  | some name => { space with name := name, children := [] }
  | none => space

/-- What there is to tell about the space. -/
def ruleLog (rule : Rule) (space : Space) : List Entry :=
  (space.moved? rule).toList.map fun name =>
    ⟨.info, "Matching space: " ++ space.name ++ " -> " ++ name⟩

end Space

namespace Folder

/-- The folder after the rule; it is empty when it has moved. -/
def applyRule (rule : Rule) (folder : Folder) : Folder :=
  match rule.moved? folder.path with
  | some path => { folder with path := path, children := [] }
  | none => folder

/-- What there is to tell about the folder. -/
def ruleLog (rule : Rule) (folder : Folder) : List Entry :=
  rule.log "folder" folder.path

end Folder

namespace Reflection

/-- The reflection after the rule. -/
def applyRule (rule : Rule) (reflection : Reflection) : Reflection :=
  { reflection with path := (rule.moved? reflection.path).getD reflection.path }

/-- What there is to tell about the reflection. -/
def ruleLog (rule : Rule) (reflection : Reflection) : List Entry :=
  rule.log ("reflection (" ++ reflection.name ++ ")") reflection.path

end Reflection

namespace Remark

/-- The tag or the wiki text after the rule. -/
def applyRule (rule : Rule) (remark : Remark) : Remark :=
  { remark with path := (rule.moved? remark.path).getD remark.path }

/-- What there is to tell about the tag or the wiki text. -/
def ruleLog (rule : Rule) (kind : String) (remark : Remark) : List Entry :=
  rule.log kind remark.path

end Remark

namespace Dependency

/-- A reference after the rule, when it starts with the source. -/
def movedParent? (rule : Rule) (parent : String) : Option String :=
  replacePrefix? parent rule.source.slashed rule.destination.slashed

/-- The record with all its references after the rule. -/
def rewriteParents (rule : Rule) (record : Dependency) : Dependency :=
  { record with
    parents := record.parents.map fun parent => (movedParent? rule parent).getD parent }

/-- What there is to tell about the references of the record. -/
def parentsLog (rule : Rule) (record : Dependency) : List Entry :=
  record.parents.flatMap fun parent =>
    (movedParent? rule parent).toList.map fun replaced =>
      ⟨.info, "Matching dependency of " ++ record.path.dotted ++ ": " ++ parent ++ " -> " ++
        replaced⟩

/-- The record after the rule; its references change when it has moved. -/
def applyRule (rule : Rule) (record : Dependency) : Dependency :=
  match rule.moved? record.path with
  | some path => rewriteParents rule { record with path := path }
  | none => record

/-- What there is to tell about the record. -/
def ruleLog (rule : Rule) (record : Dependency) : List Entry :=
  match rule.moved? record.path with
  | some path =>
    movedEntry "dependency record" record.path path :: parentsLog rule { record with path := path }
  | none => []

end Dependency

/-- A view after a rule, with what was done to its statement. -/
structure ViewChange where
  view : View
  stats : Sql.RewriteStats
  log : List Entry

namespace View

/-- The view with the references of its statement rewritten. -/
def rewrite (rule : Rule) (origin : String) (view : View) : ViewChange :=
  match view.query with
  | some statement =>
    let result := statement.rewrite rule view.path origin
    ⟨{ view with query := some result.statement }, result.stats, result.log⟩
  | none => ⟨view, .zero, []⟩

/-- The context of the view after a container rule, when the rule changes it. -/
def containerContext? (rule : Rule) (view : View) : Option Path :=
  match view.context with
  | some context =>
    if !context.isEmpty && rule.source.overlaps context then some (rule.rebuildContext context)
    else none
  | none => none

/-- The label of container rules in messages. -/
def containerOrigin : String := "Space/folder migration"

/-- The label of source rules in messages. -/
def sourceOrigin : String := "Source migration"

/-- The view after a container rule.  Its context changes wherever the view is;
its statement changes only when the view itself moves. -/
def applyContainerRule (rule : Rule) (view : View) : ViewChange :=
  let context := view.containerContext? rule
  let contextLog := context.toList.map (movedEntry "view SQL context" (view.context.getD []))
  let view := { view with context := context <|> view.context }
  match rule.moved? view.path with
  | some path =>
    let change := rewrite rule containerOrigin { view with path := path }
    { change with log := contextLog ++ movedEntry "view path" view.path path :: change.log }
  | none => ⟨view, .zero, contextLog⟩

/-- The context of the view after a source rule, when the rule changes it. -/
def sourceContext? (rule : Rule) (view : View) : Option Path :=
  match view.context with
  | some context => rule.moved? context
  | none => none

/-- The view after a source rule. -/
def applySourceRule (rule : Rule) (view : View) : ViewChange :=
  let context := view.sourceContext? rule
  let contextLog := context.toList.map fun new =>
    ⟨.info, sourceOrigin ++ " - Matching view SQL context (" ++ view.path.dotted ++ "): " ++
      Path.dotted (view.context.getD []) ++ " -> " ++ new.dotted⟩
  let change := rewrite rule sourceOrigin { view with context := context <|> view.context }
  { change with log := contextLog ++ change.log }

end View

/-- A catalog after a rule, with what was done to its statements. -/
structure RuleResult where
  catalog : Catalog
  stats : Sql.RewriteStats
  log : List Entry

/-- What was done to several views together. -/
def totalStats (changes : List ViewChange) : Sql.RewriteStats :=
  changes.foldl (fun total change => total + change.stats) .zero

/-- The catalog after a container rule. -/
def applyContainerRule (rule : Rule) (catalog : Catalog) : RuleResult :=
  let changes := catalog.views.map (View.applyContainerRule rule)
  { catalog := { catalog with
      containers := catalog.containers.map (Container.applyRule rule)
      spaces := catalog.spaces.map (Space.applyRule rule)
      folders := catalog.folders.map (Folder.applyRule rule)
      views := changes.map ViewChange.view
      reflections := catalog.reflections.map (Reflection.applyRule rule)
      tags := catalog.tags.map (Remark.applyRule rule)
      wikis := catalog.wikis.map (Remark.applyRule rule)
      dependencies := catalog.dependencies.map (Dependency.applyRule rule) }
    stats := totalStats changes
    log :=
      catalog.containers.flatMap (Container.ruleLog rule) ++
      catalog.spaces.flatMap (Space.ruleLog rule) ++
      catalog.folders.flatMap (Folder.ruleLog rule) ++
      catalog.reflections.flatMap (Reflection.ruleLog rule) ++
      catalog.tags.flatMap (Remark.ruleLog rule "tag") ++
      catalog.dependencies.flatMap (Dependency.ruleLog rule) ++
      changes.flatMap ViewChange.log ++
      catalog.wikis.flatMap (Remark.ruleLog rule "wiki") }

/-- The catalog after a source rule. -/
def applySourceRule (rule : Rule) (catalog : Catalog) : RuleResult :=
  let changes := catalog.views.map (View.applySourceRule rule)
  { catalog := { catalog with
      views := changes.map ViewChange.view
      dependencies := catalog.dependencies.map (Dependency.rewriteParents rule) }
    stats := totalStats changes
    log :=
      changes.flatMap ViewChange.log ++
      catalog.dependencies.flatMap (Dependency.parentsLog rule) }

end Catalog

end Relocate
