import Relocate.Proofs.Migrate.SharedPaths

/-!
# Entries and the objects they are of

An entry has an id and a kind besides its path, and `Child.Names` says that they
are those of the folder or the view at that path.  The repair of a tree looks at
the paths of entries alone.  So the entries that it makes name their objects, while
an entry of a container that no rule moves stays as it was, also when the object
at its path is another one by then.
-/

namespace Relocate.Catalog

/-- The entry has the id and the kind of the folder or the view at its path. -/
def Child.Names (catalog : Catalog) (child : Child) : Prop :=
  child.kind = .folder ∧ (child.id, child.path) ∈ catalog.folderLabels ∨
    child.kind = .view ∧ (child.id, child.path) ∈ catalog.viewLabels

/-- The entries of the path with their owners. -/
def entriesAt (catalog : Catalog) (path : Path) : List (Path × Child) :=
  catalog.listings.filter fun entry => entry.2.path == path

theorem mem_entriesAt {catalog : Catalog} {path : Path} {entry : Path × Child} :
    entry ∈ catalog.entriesAt path ↔ entry ∈ catalog.listings ∧ entry.2.path = path := by
  simp [entriesAt]

/-- Every folder and every view has one entry, in its parent, with its id and its
kind. -/
structure Labelled (catalog : Catalog) : Prop where
  folders : ∀ label ∈ catalog.folderLabels, ∃ child : Child,
    catalog.entriesAt label.2 = [(label.2.parent, child)] ∧
      child.id = label.1 ∧ child.kind = .folder
  views : ∀ label ∈ catalog.viewLabels, ∃ child : Child,
    catalog.entriesAt label.2 = [(label.2.parent, child)] ∧
      child.id = label.1 ∧ child.kind = .view

namespace Labelled

variable {catalog : Catalog} {entry : Path × Child}

theorem id_of_folder (h : catalog.Labelled) (hentry : entry ∈ catalog.listings) {id : String}
    (hlabel : (id, entry.2.path) ∈ catalog.folderLabels) :
    entry.2.kind = .folder ∧ entry.2.id = id := by
  obtain ⟨child, hentries, hid, hkind⟩ := h.folders _ hlabel
  have hmem : entry ∈ catalog.entriesAt entry.2.path := mem_entriesAt.mpr ⟨hentry, rfl⟩
  rw [hentries, List.mem_singleton] at hmem
  rw [hmem]
  exact ⟨hkind, hid⟩

theorem id_of_view (h : catalog.Labelled) (hentry : entry ∈ catalog.listings) {id : String}
    (hlabel : (id, entry.2.path) ∈ catalog.viewLabels) :
    entry.2.kind = .view ∧ entry.2.id = id := by
  obtain ⟨child, hentries, hid, hkind⟩ := h.views _ hlabel
  have hmem : entry ∈ catalog.entriesAt entry.2.path := mem_entriesAt.mpr ⟨hentry, rfl⟩
  rw [hentries, List.mem_singleton] at hmem
  rw [hmem]
  exact ⟨hkind, hid⟩

end Labelled

/-! ## Entries that are left from the input -/

theorem mem_listings_of_merged {rules : List Rule} {catalog : Catalog} {entry : Path × Child}
    (hentry : entry ∈ (catalog.relocate rules).mergeDuplicates.dropDangling.listings) :
    entry ∈ catalog.listings := by
  have hmerged := (listings_dropDangling _).subset hentry
  have hrelocated := (listings_mergeDuplicates _).subset hmerged
  have hmoved := (listings_prune rules _).subset hrelocated
  exact (listings_applyRules View.containerOrigin rules catalog).subset hmoved

/-- The folder or the view that is at the path afterwards is one that the rules
brought there from another path. -/
def Arrived (rules : List Rule) (before after : Catalog) (path : Path) : Prop :=
  ∃ id origin, origin ≠ path ∧ Path.relocated rules origin = path ∧
    ((id, origin) ∈ before.folderLabels ∧ (id, path) ∈ after.folderLabels ∨
      (id, origin) ∈ before.viewLabels ∧ (id, path) ∈ after.viewLabels)

/-- An entry that the repair attached names its object. -/
theorem Child.IsOf.names
    {start after : Catalog} (hviews : after.views = start.views) {child : Child}
    (h : child.IsOf start after) : child.Names after := by
  rcases h with ⟨id, path, rfl, hlabel⟩ | ⟨id, path, rfl, hlabel⟩
  · refine .inr ⟨Child.kind_view id path, ?_⟩
    rw [viewLabels, hviews]
    exact hlabel
  · exact .inl ⟨Child.kind_folder id path, hlabel⟩

/-! ## Entries of the migrated tree -/

/-- When every folder and every view of a catalog has one entry, in its parent and
with its id and its kind, then after container rules, pruning and repair every
entry of a folder or a view has the id and the kind of what is at its path.  The
exception are entries of the input that are still there while the rules brought
another folder or view to their path. -/
theorem migrated_entries_identify
    (ids : Nat → String) (rules : List Rule) {catalog final : Catalog} {count : Nat}
    (hlabelled : catalog.Labelled)
    (hresult : (((applyRules View.containerOrigin Catalog.applyContainerRule rules
      catalog).catalog.prune rules).catalog.reconcile ids).result = .ok (final, count)) :
    ∀ entry ∈ final.listings, entry.2.kind ≠ .other →
      entry.2.Names final ∨
        entry ∈ catalog.listings ∧ Arrived rules catalog final entry.2.path := by
  obtain ⟨after, hends, rfl⟩ := ends_of_reconcile hresult
  have hgrown := Ends.grown_reconcileTree hends
  have hsettled := Settled.of_merged (catalog.relocate rules)
  intro entry hentry hkind
  rcases hgrown.entries entry hentry with hstart | ⟨-, -, hof⟩
  · have hinput : entry ∈ catalog.listings := mem_listings_of_merged hstart
    rcases mem_existingPaths.mp (hsettled.entriesExist entry hstart hkind) with hfolder | hview
    · obtain ⟨id, hlabel⟩ := exists_label_of_mem_folderPaths hfolder
      have hafter := hgrown.kept _ hlabel
      have hrelocated := mem_folderLabels_of_merged hlabel
      rw [folderLabels_relocate, mem_survivors] at hrelocated
      obtain ⟨⟨origin, horigin, hmoved⟩, -⟩ := hrelocated
      by_cases hsame : origin = entry.2.path
      · rw [hsame] at horigin
        obtain ⟨hfolderKind, hid⟩ := hlabelled.id_of_folder hinput horigin
        rw [← hid] at hafter
        exact .inl (.inl ⟨hfolderKind, hafter⟩)
      · exact .inr ⟨hinput, id, origin, hsame, hmoved, .inl ⟨horigin, hafter⟩⟩
    · obtain ⟨id, hlabel⟩ := exists_label_of_mem_viewPaths hview
      have hafter : (id, entry.2.path) ∈ after.catalog.viewLabels := by
        rw [viewLabels, hgrown.views]
        exact hlabel
      have hrelocated : (id, entry.2.path) ∈ (catalog.relocate rules).viewLabels := hlabel
      rw [viewLabels_relocate, mem_survivors] at hrelocated
      obtain ⟨⟨origin, horigin, hmoved⟩, -⟩ := hrelocated
      by_cases hsame : origin = entry.2.path
      · rw [hsame] at horigin
        obtain ⟨hviewKind, hid⟩ := hlabelled.id_of_view hinput horigin
        rw [← hid] at hafter
        exact .inl (.inr ⟨hviewKind, hafter⟩)
      · exact .inr ⟨hinput, id, origin, hsame, hmoved, .inr ⟨horigin, hafter⟩⟩
  · exact .inl (hof.names hgrown.views)

/-- A folder with two others in it. -/
def regions : Catalog := { empty with
  spaces := [⟨"prod", "Prod", [.folder "sales" ["Prod", "Sales"]], []⟩]
  folders := [
    ⟨"sales", ["Prod", "Sales"],
      [.folder "eu" ["Prod", "Sales", "EU"], .folder "us" ["Prod", "Sales", "US"]], none, none,
      []⟩,
    ⟨"eu", ["Prod", "Sales", "EU"], [], none, none, []⟩,
    ⟨"us", ["Prod", "Sales", "US"], [], none, none, []⟩] }

theorem labelled_regions : regions.Labelled := by
  constructor
  · intro label hlabel
    have hlabels : regions.folderLabels = [("sales", ["Prod", "Sales"]),
        ("eu", ["Prod", "Sales", "EU"]), ("us", ["Prod", "Sales", "US"])] := rfl
    rw [hlabels] at hlabel
    simp only [List.mem_cons, List.not_mem_nil, or_false] at hlabel
    rcases hlabel with rfl | rfl | rfl <;> exact ⟨_, rfl, rfl, rfl⟩
  · intro label hlabel
    cases hlabel

/-- The folder `EU` moves to the archive and nothing takes its place: all entries
name their folders. -/
theorem regions_identify :
    ∃ final count,
      (((applyRules View.containerOrigin Catalog.applyContainerRule
        [⟨["Prod", "Sales", "EU"], ["Prod", "Archive", "EU"]⟩] regions).catalog.prune
          [⟨["Prod", "Sales", "EU"], ["Prod", "Archive", "EU"]⟩]).catalog.reconcile
            (FolderId.supply 0)).result = .ok (final, count) ∧
      (["Prod", "Archive"], Child.folder "eu" ["Prod", "Archive", "EU"]) ∈ final.listings ∧
      (Child.folder "eu" ["Prod", "Archive", "EU"]).Names final := by
  refine ⟨_, _, rfl, ?_⟩
  have hentry := migrated_entries_identify (FolderId.supply 0)
    [⟨["Prod", "Sales", "EU"], ["Prod", "Archive", "EU"]⟩] labelled_regions rfl
      (["Prod", "Archive"], Child.folder "eu" ["Prod", "Archive", "EU"]) (by decide) (by decide)
  refine ⟨by decide, ?_⟩
  rcases hentry with hnames | ⟨hinput, -⟩
  · exact hnames
  · exact absurd hinput (by decide)

/-- `EU` moves away and `US` takes its place: the entry of the path still has the
id of the folder that is gone. -/
theorem regions_mislabelled :
    regions.Labelled ∧ regions.objectPaths.Nodup ∧
    ∃ (rules : List Rule) (final : Catalog) (count : Nat),
      (∀ rule ∈ rules, rule.source ≠ [] ∧ rule.destination ≠ []) ∧
      (((applyRules View.containerOrigin Catalog.applyContainerRule rules
        regions).catalog.prune rules).catalog.reconcile (FolderId.supply 0)).result =
          .ok (final, count) ∧
      ∃ entry ∈ final.listings, entry.2.kind = .folder ∧ entry.2.id = "eu" ∧
        final.folderLabels.filter (fun label => label.2 == entry.2.path) =
          [("us", entry.2.path)] := by
  refine ⟨labelled_regions, by decide,
    [⟨["Prod", "Sales", "EU"], ["Prod", "Archive", "EU"]⟩,
      ⟨["Prod", "Sales", "US"], ["Prod", "Sales", "EU"]⟩], _, _, by decide, rfl,
    (["Prod", "Sales"], Child.folder "eu" ["Prod", "Sales", "EU"]), by decide, rfl, rfl, by decide⟩

end Relocate.Catalog
