import Mathlib.Data.List.Flatten
import Mathlib.Data.List.Perm.Subperm
import Relocate.Migrate.Pipeline

/-!
# Listings of a catalog

`Catalog.listings` are the entries of all spaces and folders, each with the path
of its owner.  A catalog is `Tidy` when every entry is in the parent of what it
lists and nothing is listed twice.

Container rules clear the listings of what they move and pruning drops whole
owners, so the listings afterwards are some of those before, and a tidy catalog
stays tidy.
-/

namespace Relocate.Catalog

/-! ## Entries with their owners -/

/-- The entries of the space with its path. -/
def Space.listings (space : Space) : List (Path × Child) :=
  space.children.map fun child => (space.path, child)

/-- The entries of the folder with its path. -/
def Folder.listings (folder : Folder) : List (Path × Child) :=
  folder.children.map fun child => (folder.path, child)

/-- All entries of the catalog, each with the path of its owner. -/
def listings (catalog : Catalog) : List (Path × Child) :=
  catalog.spaces.flatMap Space.listings ++ catalog.folders.flatMap Folder.listings

/-- The paths that are listed, once for each entry. -/
def listedPaths (catalog : Catalog) : List Path :=
  catalog.listings.map fun entry => entry.2.path

/-- The paths of the folders. -/
def folderPaths (catalog : Catalog) : List Path :=
  catalog.folders.map Folder.path

/-- The paths of the views. -/
def viewPaths (catalog : Catalog) : List Path :=
  catalog.views.map View.path

theorem mem_listings {catalog : Catalog} {owner : Path} {child : Child} :
    (owner, child) ∈ catalog.listings ↔
      (∃ space ∈ catalog.spaces, space.path = owner ∧ child ∈ space.children) ∨
        ∃ folder ∈ catalog.folders, folder.path = owner ∧ child ∈ folder.children := by
  simp only [listings, List.mem_append, List.mem_flatMap, Space.listings, Folder.listings,
    List.mem_map, Prod.mk.injEq]
  constructor
  · rintro (⟨space, hspace, found, hfound, rfl, rfl⟩ | ⟨folder, hfolder, found, hfound, rfl, rfl⟩)
    · exact .inl ⟨space, hspace, rfl, hfound⟩
    · exact .inr ⟨folder, hfolder, rfl, hfound⟩
  · rintro (⟨space, hspace, rfl, hchild⟩ | ⟨folder, hfolder, rfl, hchild⟩)
    · exact .inl ⟨space, hspace, child, hchild, rfl, rfl⟩
    · exact .inr ⟨folder, hfolder, child, hchild, rfl, rfl⟩

theorem mem_listedPaths {catalog : Catalog} {path : Path} :
    path ∈ catalog.listedPaths ↔ ∃ owner child, (owner, child) ∈ catalog.listings ∧
      child.path = path := by
  simp [listedPaths]

/-- An object is referenced when its path is listed. -/
theorem isReferenced_iff {catalog : Catalog} {path : Path} :
    catalog.isReferenced path = true ↔ path ∈ catalog.listedPaths := by
  simp only [isReferenced, lists, Bool.or_eq_true, List.any_eq_true, beq_iff_eq,
    mem_listedPaths, mem_listings]
  constructor
  · rintro (⟨space, hspace, child, hchild, rfl⟩ | ⟨folder, hfolder, child, hchild, rfl⟩)
    · exact ⟨_, child, .inl ⟨space, hspace, rfl, hchild⟩, rfl⟩
    · exact ⟨_, child, .inr ⟨folder, hfolder, rfl, hchild⟩, rfl⟩
  · rintro ⟨owner, child, ⟨space, hspace, -, hchild⟩ | ⟨folder, hfolder, -, hchild⟩, hpath⟩
    · exact .inl ⟨space, hspace, child, hchild, hpath⟩
    · exact .inr ⟨folder, hfolder, child, hchild, hpath⟩

/-! ## Tidy catalogs -/

/-- Every entry is in the parent of what it lists, nothing is listed twice, and
every folder has a path. -/
structure Tidy (catalog : Catalog) : Prop where
  owned : ∀ entry ∈ catalog.listings, entry.2.path.parent = entry.1
  nodup : catalog.listedPaths.Nodup
  rooted : ∀ folder ∈ catalog.folders, folder.path ≠ []

/-- Every entry is in the parent of what it lists, and every folder has a path; an
object may be listed twice. -/
structure Housed (catalog : Catalog) : Prop where
  owned : ∀ entry ∈ catalog.listings, entry.2.path.parent = entry.1
  rooted : ∀ folder ∈ catalog.folders, folder.path ≠ []

theorem Tidy.housed {catalog : Catalog} (htidy : catalog.Tidy) : catalog.Housed :=
  ⟨htidy.owned, htidy.rooted⟩

/-- A catalog whose entries are some of those of a tidy one is tidy too. -/
theorem Tidy.of_subperm
    {catalog after : Catalog} (htidy : catalog.Tidy)
    (hlistings : List.Subperm after.listings catalog.listings)
    (hrooted : ∀ folder ∈ after.folders, folder.path ≠ []) :
    after.Tidy where
  owned := fun entry hentry => htidy.owned entry (hlistings.subset hentry)
  nodup := by
    obtain ⟨entries, hperm, hsub⟩ := hlistings
    have hentries : (entries.map fun entry => entry.2.path).Nodup :=
      htidy.nodup.sublist (hsub.map _)
    exact (hperm.map _).nodup_iff.mp hentries
  rooted := hrooted

/-! ## Container rules -/

theorem Space.listings_applyRule (rule : Rule) (space : Space) :
    (space.applyRule rule).listings.Sublist space.listings := by
  unfold Space.applyRule
  split
  · exact List.nil_sublist _
  · exact List.Sublist.refl _

theorem Folder.listings_applyRule (rule : Rule) (folder : Folder) :
    (folder.applyRule rule).listings.Sublist folder.listings := by
  unfold Folder.applyRule
  split
  · exact List.nil_sublist _
  · exact List.Sublist.refl _

theorem Folder.path_applyRule (rule : Rule) (folder : Folder) :
    (folder.applyRule rule).path = (rule.moved? folder.path).getD folder.path := by
  unfold Folder.applyRule
  split <;> simp_all

theorem Rule.rebuild_ne_nil {rule : Rule} (hdestination : rule.destination ≠ []) (path : Path) :
    rule.rebuild path ≠ [] := by
  simp [Rule.rebuild, hdestination]

theorem Rule.moved?_getD_ne_nil
    {rule : Rule} (hdestination : rule.destination ≠ []) {path : Path} (hpath : path ≠ []) :
    (rule.moved? path).getD path ≠ [] := by
  unfold Rule.moved?
  split
  · exact Rule.rebuild_ne_nil hdestination path
  · exact hpath

theorem listings_applyContainerRule (rule : Rule) (catalog : Catalog) :
    (catalog.applyContainerRule rule).catalog.listings.Sublist catalog.listings := by
  simp only [applyContainerRule, listings, List.flatMap_map]
  refine List.Sublist.append ?_ ?_
  · exact List.Sublist.flatMap_right _ fun space _ => Space.listings_applyRule rule space
  · exact List.Sublist.flatMap_right _ fun folder _ => Folder.listings_applyRule rule folder

theorem listings_applyRules (origin : String) (rules : List Rule) (catalog : Catalog) :
    (applyRules origin Catalog.applyContainerRule rules catalog).catalog.listings.Sublist
      catalog.listings := by
  induction rules generalizing catalog with
  | nil => exact List.Sublist.refl _
  | cons rule rest ih => exact (ih _).trans (listings_applyContainerRule rule catalog)

theorem Tidy.applyContainerRule
    {catalog : Catalog} (htidy : catalog.Tidy) {rule : Rule}
    (hdestination : rule.destination ≠ []) :
    (catalog.applyContainerRule rule).catalog.Tidy := by
  refine htidy.of_subperm (listings_applyContainerRule rule catalog).subperm ?_
  intro folder hfolder
  obtain ⟨before, hbefore, rfl⟩ := List.mem_map.mp hfolder
  rw [Folder.path_applyRule]
  exact Rule.moved?_getD_ne_nil hdestination (htidy.rooted before hbefore)

/-- The rules one after the other, by the step for one of them. -/
theorem Tidy.applyRules
    {catalog : Catalog} (htidy : catalog.Tidy) {rules : List Rule}
    (hdestinations : ∀ rule ∈ rules, rule.destination ≠ []) (origin : String) :
    (applyRules origin Catalog.applyContainerRule rules catalog).catalog.Tidy := by
  induction rules generalizing catalog with
  | nil => exact htidy
  | cons rule rest ih =>
      have hfirst := htidy.applyContainerRule (hdestinations rule List.mem_cons_self)
      exact ih hfirst fun later hlater => hdestinations later (List.mem_cons_of_mem _ hlater)

/-! ## Pruning -/

theorem listings_prune (rules : List Rule) (catalog : Catalog) :
    (catalog.prune rules).catalog.listings.Sublist catalog.listings := by
  simp only [prune, listings]
  exact (List.filter_sublist.flatMap _).append (List.filter_sublist.flatMap _)

theorem Tidy.prune {catalog : Catalog} (htidy : catalog.Tidy) (rules : List Rule) :
    (catalog.prune rules).catalog.Tidy := by
  refine htidy.of_subperm (listings_prune rules catalog).subperm ?_
  intro folder hfolder
  exact htidy.rooted folder (List.mem_filter.mp hfolder).1

end Relocate.Catalog
