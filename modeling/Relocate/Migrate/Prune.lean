import Relocate.Catalog.Snapshot
import Relocate.Log

/-!
# Dropping what lies outside all destinations

After the rules only the objects on the way to some destination and below it are
kept.
-/

namespace Relocate.Catalog

/-- The path agrees with the destination of some rule, as far as both go. -/
def inDestinationScope (rules : List Rule) (path : Path) : Bool :=
  rules.any fun rule => rule.destination.overlaps path

/-- What there is to tell about a path that is not kept. -/
def dropLog (rules : List Rule) (kind : String) (path : Path) : List Entry :=
  if inDestinationScope rules path then []
  else
    [⟨.info, "Dropping " ++ kind ++ " which does not match any dstPath -> " ++ path.dotted⟩]

/-- A catalog without the dropped objects. -/
structure Pruned where
  catalog : Catalog
  /-- The number of dropped objects. -/
  dropped : Nat
  log : List Entry

/-- Drops spaces, folders, views, tags and wiki texts outside all destinations. -/
def prune (rules : List Rule) (catalog : Catalog) : Pruned :=
  let keeps := inDestinationScope rules
  let kept : Catalog := { catalog with
    spaces := catalog.spaces.filter fun space => keeps space.path
    folders := catalog.folders.filter fun folder => keeps folder.path
    views := catalog.views.filter fun view => keeps view.path
    tags := catalog.tags.filter fun tag => keeps tag.path
    wikis := catalog.wikis.filter fun wiki => keeps wiki.path }
  { catalog := kept
    dropped :=
      (catalog.spaces.length - kept.spaces.length) +
      (catalog.folders.length - kept.folders.length) +
      (catalog.views.length - kept.views.length) +
      (catalog.tags.length - kept.tags.length) +
      (catalog.wikis.length - kept.wikis.length)
    log :=
      catalog.spaces.flatMap (fun space => dropLog rules "space" space.path) ++
      catalog.folders.flatMap (fun folder => dropLog rules "folder" folder.path) ++
      catalog.views.flatMap (fun view => dropLog rules "view" view.path) ++
      catalog.tags.flatMap (fun tag => dropLog rules "tag" tag.path) ++
      catalog.wikis.flatMap (fun wiki => dropLog rules "wiki" wiki.path) }

end Relocate.Catalog
