import Relocate.Catalog.Codec
import Relocate.Proofs.Json.Depth

/-!
# Catalogs and their data

Turning data into a catalog loses nothing of what a reader may return: only a
closed record has no place for unknown members, and there are none in sound data.
-/

namespace Relocate.Catalog

open Json

/-- The collections of a catalog as fields. -/
def catalogFields : Fields :=
  match catalogShape with
  | .record _ fields _ => fields
  | _ => .nil

theorem isProper_catalogShape : catalogShape.isProper = true := by decide

/-- Data that are turned into structures one by one come back one by one. -/
theorem map_map_of_sound {α : Type} {item : Shape} {ofData : item.Data → α}
    {toData : α → item.Data} (hitem : ∀ data, item.Sound data → toData (ofData data) = data)
    {items : List item.Data} (hsound : (Shape.list item).Sound items) :
    List.map toData (List.map ofData items) = items := by
  have hitems := List.forall_iff_forall_mem.mp hsound
  calc
    List.map toData (List.map ofData items) = List.map (fun data => toData (ofData data)) items :=
      List.map_map
    _ = List.map id items := List.map_congr_left fun data hdata => hitem data (hitems data hdata)
    _ = items := List.map_id items

theorem Container.toData_ofData (data : containerShape.Data) :
    (Container.ofData data).toData = data := rfl

theorem View.toData_ofData (data : viewShape.Data) : (View.ofData data).toData = data := rfl

theorem Reflection.toData_ofData (data : reflectionShape.Data) :
    (Reflection.ofData data).toData = data := rfl

theorem Remark.toData_ofData (data : remarkFields.Data × List (String × Value)) :
    (Remark.ofData data).toData = data := rfl

/-- A closed record has no unknown members to lose. -/
theorem Child.toData_ofData (data : childShape.Data) (hsound : childShape.Sound data) :
    (Child.ofData data).toData = data := by
  obtain ⟨⟨id, path, entryType, containerType, datasetType, ⟨⟩⟩, extra⟩ := data
  obtain ⟨-, -, -, hclosed⟩ := hsound
  obtain rfl : extra = [] := hclosed rfl
  rfl

theorem Dependency.toData_ofData (data : dependencyShape.Data)
    (hsound : dependencyShape.Sound data) :
    (Dependency.ofData data).toData = data := by
  obtain ⟨⟨path, parents, ⟨⟩⟩, extra⟩ := data
  obtain ⟨-, -, -, hclosed⟩ := hsound
  obtain rfl : extra = [] := hclosed rfl
  rfl

theorem Space.toData_ofData (data : spaceShape.Data) (hsound : spaceShape.Sound data) :
    (Space.ofData data).toData = data := by
  obtain ⟨⟨id, name, children, ⟨⟩⟩, extra⟩ := data
  obtain ⟨⟨-, -, hchildren, -⟩, -⟩ := hsound
  rw [Space.ofData, Space.toData, map_map_of_sound Child.toData_ofData hchildren]

theorem Folder.toData_ofData (data : folderShape.Data) (hsound : folderShape.Sound data) :
    (Folder.ofData data).toData = data := by
  obtain ⟨⟨id, path, children, entityType, accessControl, ⟨⟩⟩, extra⟩ := data
  obtain ⟨⟨-, -, hchildren, -⟩, -⟩ := hsound
  rw [Folder.ofData, Folder.toData, map_map_of_sound Child.toData_ofData hchildren]

/-- Nothing of sound data is lost in a catalog. -/
theorem toData_ofData {data : catalogShape.Data} (hsound : catalogShape.Sound data) :
    (ofData data).toData = data := by
  obtain ⟨⟨containers, spaces, folders, views, physicalDatasets, sources, homes, reflections, tags,
    wikis, dependencies, ⟨⟩⟩, extra⟩ := data
  obtain ⟨⟨hcontainers, hspaces, hfolders, hviews, -, -, -, hreflections, htags, hwikis,
    hdependencies, -⟩, -, -, hclosed⟩ := hsound
  obtain rfl : extra = [] := hclosed rfl
  have hcontainers := map_map_of_sound (fun data _ => Container.toData_ofData data) hcontainers
  have hspaces := map_map_of_sound Space.toData_ofData hspaces
  have hfolders := map_map_of_sound Folder.toData_ofData hfolders
  have hviews := map_map_of_sound (fun data _ => View.toData_ofData data) hviews
  have hreflections := map_map_of_sound (fun data _ => Reflection.toData_ofData data) hreflections
  have htags := @map_map_of_sound Remark tagShape _ _ (fun data _ => Remark.toData_ofData data) _
    htags
  have hwikis := @map_map_of_sound Remark wikiShape _ _ (fun data _ => Remark.toData_ofData data) _
    hwikis
  have hdependencies := map_map_of_sound Dependency.toData_ofData hdependencies
  exact Prod.ext (Prod.ext hcontainers (Prod.ext hspaces (Prod.ext hfolders (Prod.ext hviews
    (Prod.ext rfl (Prod.ext rfl (Prod.ext rfl (Prod.ext hreflections (Prod.ext htags
      (Prod.ext hwikis (Prod.ext hdependencies rfl))))))))))) rfl

end Relocate.Catalog
