import Relocate.Proofs.Migrate.Pruning
import Relocate.Proofs.Migrate.Refusals
import Relocate.Proofs.Migrate.SharedPaths

/-!
# Objects whose space has gone elsewhere

A rule renames a space by the first segment of its source, and moves a folder or a
view only when the whole source covers it.  A space so may go without what is in
it, and what is in it may go where no space is.  What matters is what is left after
all rules and pruning: `migrated_misses_space_iff` says that the migration ends
with a missing space exactly when the first segment of something that is left is
not the name of a moved space.

With rules that send each space to one place, and into no space that another rule
leads out of, this cannot happen.  A path is then in step with its space at each
turn (`InStep`): it is in it, or it is left behind in a space that no destination
is in, and pruning drops it.
-/

namespace Relocate.Catalog

/-! ## Repairs that miss a space -/

/-- When every object has a container above it, a repair misses a space exactly when
no two views are at one path and some folder or view is in no space. -/
theorem reconcile_misses_space_iff
    (ids : Nat → String) {catalog : Catalog} (hhoused : catalog.Housed)
    (hlong : ∀ path ∈ catalog.existingPaths, 2 ≤ path.length) :
    (∃ name path, (catalog.reconcile ids).result = .error (.missingSpace name path)) ↔
      catalog.viewPaths.Nodup ∧
        ∃ path ∈ catalog.existingPaths, ∀ space ∈ catalog.spaces, path.root? ≠ some space.name := by
  constructor
  · rintro ⟨name, path, h⟩
    have hviews : catalog.viewPaths.Nodup := by
      by_contra hshared
      obtain ⟨_, first, _, second, _, -, -, -, hcollision⟩ :=
        @collisionAfter?_of_not_nodup [] catalog.views List.nodup_nil hshared
      have hother := reconcile_eq_error_iff.mpr ⟨_, @Fails.of_collision? ids _ _ hcollision⟩
      rw [h] at hother
      cases hother
    refine ⟨hviews, ?_⟩
    by_contra hall
    push Not at hall
    obtain ⟨final, count, hok⟩ := reconcile_succeeds_of_inSpace ids hviews
      fun path hpath => ⟨hlong path hpath, hall path hpath⟩
    rw [h] at hok
    cases hok
  · rintro ⟨hviews, path, hpath, hnowhere⟩
    rcases Fails.ends_or_fails (reconcileTree ids) ⟨catalog, 0, []⟩ with
      ⟨⟨⟩, after, hends⟩ | ⟨error, after, hfails⟩
    · obtain ⟨-, space, hspace, hroot⟩ :=
        inSpace_of_repairable hhoused (reconcile_eq_ok_iff.mpr ⟨_, hends⟩) path hpath
      exact absurd hroot (hnowhere space hspace)
    · obtain ⟨refused, horigin, hrefuses⟩ :=
        Fails.refuses_reconcileTree hfails (collision?_eq_none_iff.mpr hviews)
      have herror := reconcile_eq_error_iff.mpr ⟨after, hfails⟩
      have hdeep : 2 ≤ refused.length := by
        rcases horigin with hexists | hmadeUp
        · apply hlong
          obtain ⟨-, hfolders, hsameViews⟩ := mergedPaths catalog
          rw [mem_existingPaths] at hexists ⊢
          rw [viewPaths, hsameViews, hfolders] at hexists
          exact hexists
        · exact hmadeUp.two_le_length
      cases hrefuses with
      | rootLevel hparent =>
          have hlength : refused.parent.length = refused.length - 1 := List.length_dropLast
          rw [hparent, List.length_nil] at hlength
          omega
      | missingSpace hparent hmissing => exact ⟨_, _, herror⟩

/-! ## Spaces and paths under one rule -/

theorem Space.name_applyRule
    {rule : Rule} (hdestination : rule.destination ≠ []) (space : Space) :
    some (space.applyRule rule).name =
      if rule.source.root? = some space.name then rule.destination.root?
      else some space.name := by
  obtain ⟨name, rest, hsplit⟩ := List.exists_cons_of_ne_nil hdestination
  have hroot : rule.destination.root? = some name := by rw [hsplit]; rfl
  rw [Space.applyRule, Space.moved?, hroot]
  cases hsource : rule.source.root? with
  | none => rfl
  | some source =>
      by_cases hsame : space.name = source
      · simp [hsame]
      · have hother : source ≠ space.name := fun heq => hsame heq.symm
        simp [hsame, hother]

theorem Path.root?_append {path rest : Path} (hpath : path ≠ []) :
    Path.root? (path ++ rest) = path.root? :=
  (Path.root?_of_prefix (List.prefix_append path rest) hpath).symm

/-- A moved path is where the destination is, and it was where the source is. -/
theorem Rule.root?_moved
    {rule : Rule} (hsource : rule.source ≠ []) (hdestination : rule.destination ≠ [])
    {path : Path} (hcovers : rule.source.covers path = true) :
    rule.source.root? = path.root? ∧
      ((rule.moved? path).getD path).root? = rule.destination.root? := by
  constructor
  · exact Path.root?_of_prefix (Path.covers_iff_isPrefix.mp hcovers) hsource
  · rw [Rule.moved?_getD_eq, if_pos hcovers, Rule.rebuild]
    exact Path.root?_append hdestination

/-! ## Rules that settle spaces -/

/-- Rules out of one space lead into one space, and a rule out of a space that
another one leads into leads nowhere else. -/
structure SettleSpaces (rules : List Rule) : Prop where
  together : ∀ first ∈ rules, ∀ second ∈ rules, first.source.root? = second.source.root? →
    first.destination.root? = second.destination.root?
  settled : ∀ first ∈ rules, ∀ second ∈ rules, first.destination.root? = second.source.root? →
    second.destination.root? = second.source.root?

/-- The space has gone on to the name, where it stays and where any rule takes the
path, and no rule leads to where the path is. -/
structure LeftBehind (rules : List Rule) (name : String) (path : Path) : Prop where
  followed : ∀ rule ∈ rules, rule.source.root? = path.root? → rule.destination.root? = some name
  stays : ∀ rule ∈ rules, rule.source.root? = some name → rule.destination.root? = some name
  abandoned : ∀ rule ∈ rules, rule.destination.root? ≠ path.root?

/-- The path is in the space of the name, or left behind by it. -/
def InStep (rules : List Rule) (name : String) (path : Path) : Prop :=
  path.root? = some name ∨ LeftBehind rules name path

/-- A path is left behind when a rule out of its space leads elsewhere. -/
theorem SettleSpaces.leftBehind
    {rules : List Rule} (hsettle : SettleSpaces rules) {rule : Rule} (hrule : rule ∈ rules)
    {name : String} {path : Path} (hout : rule.source.root? = path.root?)
    (hname : rule.destination.root? = some name) (haway : rule.destination.root? ≠ path.root?) :
    LeftBehind rules name path where
  followed := by
    intro other hother hsame
    have htogether := hsettle.together other hother rule hrule (hsame.trans hout.symm)
    exact htogether.trans hname
  stays := by
    intro other hother hsame
    have hsettled := hsettle.settled rule hrule other hother (hname.trans hsame.symm)
    exact hsettled.trans hsame
  abandoned := by
    intro other hother hsame
    have hsettled := hsettle.settled other hother rule hrule (hsame.trans hout.symm)
    exact haway (hsettled.trans hout)

/-- One rule: the space and the path go together, the space goes alone, or the path
comes after. -/
theorem InStep.applyRule
    {rules : List Rule} (hsettle : SettleSpaces rules) {rule : Rule} (hrule : rule ∈ rules)
    (hsource : rule.source ≠ []) (hdestination : rule.destination ≠ [])
    {space : Space} {path : Path} (h : InStep rules space.name path) :
    InStep rules (space.applyRule rule).name ((rule.moved? path).getD path) := by
  have hname := Space.name_applyRule hdestination space
  have hstill : ¬ rule.source.covers path = true → (rule.moved? path).getD path = path := by
    intro hcovers
    rw [Rule.moved?_getD_eq, if_neg hcovers]
  rcases h with hroot | hbehind
  · by_cases hcovers : rule.source.covers path = true
    · obtain ⟨hsame, hmoved⟩ := Rule.root?_moved hsource hdestination hcovers
      rw [if_pos (hsame.trans hroot)] at hname
      exact .inl (hmoved.trans hname.symm)
    · rw [hstill hcovers]
      by_cases hout : rule.source.root? = some space.name
      · rw [if_pos hout] at hname
        by_cases hback : rule.destination.root? = path.root?
        · exact .inl (hback.symm.trans hname.symm)
        · exact .inr (hsettle.leftBehind hrule (hout.trans hroot.symm) hname.symm hback)
      · rw [if_neg hout] at hname
        exact .inl (hroot.trans hname.symm)
  · have hkept : (space.applyRule rule).name = space.name := by
      by_cases hout : rule.source.root? = some space.name
      · rw [if_pos hout, hbehind.stays rule hrule hout] at hname
        exact Option.some.inj hname
      · rw [if_neg hout] at hname
        exact Option.some.inj hname
    rw [hkept]
    by_cases hcovers : rule.source.covers path = true
    · obtain ⟨hsame, hmoved⟩ := Rule.root?_moved hsource hdestination hcovers
      exact .inl (hmoved.trans (hbehind.followed rule hrule hsame))
    · rw [hstill hcovers]
      exact .inr hbehind

/-- Several rules, by the step for one of them. -/
theorem InStep.relocated
    {rules : List Rule} (hsettle : SettleSpaces rules)
    (hproper : ∀ rule ∈ rules, rule.source ≠ [] ∧ rule.destination ≠ [])
    {turns : List Rule} (hturns : ∀ rule ∈ turns, rule ∈ rules)
    {space : Space} {path : Path} (h : InStep rules space.name path) :
    InStep rules (space.relocated turns).name (Path.relocated turns path) := by
  induction turns generalizing space path with
  | nil => exact h
  | cons rule rest ih =>
      have hrule := hturns rule List.mem_cons_self
      obtain ⟨hsource, hdestination⟩ := hproper rule hrule
      have hfirst := h.applyRule hsettle hrule hsource hdestination
      exact ih (fun later hlater => hturns later (List.mem_cons_of_mem _ hlater)) hfirst

/-! ## What pruning leaves -/

/-- What is in the scope of destinations is so by its first segment too. -/
theorem exists_destination_of_inScope
    {rules : List Rule} (hproper : ∀ rule ∈ rules, rule.source ≠ [] ∧ rule.destination ≠ [])
    {path : Path} (hpath : path ≠ []) (hscope : inDestinationScope rules path = true) :
    ∃ rule ∈ rules, rule.destination.root? = path.root? := by
  obtain ⟨rule, hrule, hoverlaps⟩ := List.any_eq_true.mp hscope
  refine ⟨rule, hrule, ?_⟩
  rcases Path.overlaps_iff_isPrefix_or.mp hoverlaps with hstarts | hstarts
  · exact Path.root?_of_prefix hstarts (hproper rule hrule).2
  · exact (Path.root?_of_prefix hstarts hpath).symm

/-- The space that an object in scope needs is in scope itself. -/
theorem inScope_of_root
    {rules : List Rule} {path : Path} {name : String} (hroot : path.root? = some name)
    (hscope : inDestinationScope rules path = true) : inDestinationScope rules [name] = true := by
  obtain ⟨rest, rfl⟩ := List.head?_eq_some_iff.mp hroot
  rw [inDestinationScope_iff] at hscope ⊢
  exact hscope.of_prefix (List.prefix_append [name] rest)

/-- Which spaces are there after the rules, to an object that is left. -/
theorem root_mem_relocate_iff
    {rules : List Rule} {catalog : Catalog} {path : Path}
    (hscope : inDestinationScope rules path = true) :
    (∃ space ∈ (catalog.relocate rules).spaces, path.root? = some space.name) ↔
      ∃ space ∈ catalog.spaces, path.root? = some (space.relocated rules).name := by
  rw [spaces_relocate]
  constructor
  · rintro ⟨space, hspace, hroot⟩
    obtain ⟨before, hbefore, rfl⟩ := List.mem_map.mp (List.mem_filter.mp hspace).1
    exact ⟨before, hbefore, hroot⟩
  · rintro ⟨space, hspace, hroot⟩
    refine ⟨space.relocated rules, List.mem_filter.mpr ⟨List.mem_map_of_mem hspace, ?_⟩, hroot⟩
    exact inScope_of_root hroot hscope

theorem mem_survivingPaths
    {rules : List Rule} {paths : List Path} {path : Path} :
    path ∈ survivingPaths rules paths ↔
      (∃ origin ∈ paths, Path.relocated rules origin = path) ∧
        inDestinationScope rules path = true := by
  rw [survivingPaths, List.mem_filter, List.mem_map]

theorem mem_existingPaths_relocate {rules : List Rule} {catalog : Catalog} {path : Path} :
    path ∈ (catalog.relocate rules).existingPaths ↔
      path ∈ survivingPaths rules catalog.folderPaths ∨
        path ∈ survivingPaths rules catalog.viewPaths := by
  rw [mem_existingPaths, folderPaths_relocate, viewPaths_relocate]

/-- What is left comes from a folder or a view, and is in scope. -/
theorem exists_origin_of_survives
    {rules : List Rule} {catalog : Catalog} {path : Path}
    (hpath : path ∈ survivingPaths rules catalog.folderPaths ∨
      path ∈ survivingPaths rules catalog.viewPaths) :
    (∃ origin ∈ catalog.existingPaths, Path.relocated rules origin = path) ∧
      inDestinationScope rules path = true := by
  rw [mem_survivingPaths, mem_survivingPaths] at hpath
  rcases hpath with ⟨⟨origin, hfolder, hmoved⟩, hscope⟩ | ⟨⟨origin, hview, hmoved⟩, hscope⟩
  · exact ⟨⟨origin, mem_existingPaths.mpr (.inl hfolder), hmoved⟩, hscope⟩
  · exact ⟨⟨origin, mem_existingPaths.mpr (.inr hview), hmoved⟩, hscope⟩

/-- The entries after the rules are still in the parents of what they list. -/
theorem housed_relocate
    {rules : List Rule} {catalog : Catalog}
    (howned : ∀ entry ∈ catalog.listings, entry.2.path.parent = entry.1)
    (hlong : ∀ path ∈ catalog.existingPaths, 2 ≤ (Path.relocated rules path).length) :
    (catalog.relocate rules).Housed where
  owned := by
    intro entry hentry
    have hmoved := (listings_prune rules _).subset hentry
    exact howned entry ((listings_applyRules View.containerOrigin rules catalog).subset hmoved)
  rooted := by
    intro folder hfolder hnil
    have hpath : folder.path ∈ (catalog.relocate rules).folderPaths := List.mem_map_of_mem hfolder
    rw [folderPaths_relocate, mem_survivingPaths] at hpath
    obtain ⟨⟨origin, horigin, hmoved⟩, -⟩ := hpath
    have hdeep := hlong origin (mem_existingPaths.mpr (.inl horigin))
    rw [hmoved, hnil] at hdeep
    simp at hdeep

/-! ## Migrations that miss a space -/

/-- When every entry is in the parent of what it lists, every folder and view is in
a space, and none of them is a space after the rules, then the migration ends with
a missing space exactly when no two views that are left are at one path and the
first segment of some folder or view that is left is the moved name of no space.
This does not happen under rules that send each space to one place, and none to
where another rule leads out of. -/
theorem migrated_misses_space_iff
    (ids : Nat → String) {rules : List Rule} {catalog : Catalog}
    (howned : ∀ entry ∈ catalog.listings, entry.2.path.parent = entry.1)
    (hspaces : ∀ path ∈ catalog.existingPaths,
      2 ≤ path.length ∧ ∃ space ∈ catalog.spaces, path.root? = some space.name)
    (hproper : ∀ rule ∈ rules, rule.source ≠ [] ∧ rule.destination ≠ [])
    (hlong : ∀ path ∈ catalog.existingPaths, 2 ≤ (Path.relocated rules path).length) :
    ((∃ name path, (((applyRules View.containerOrigin Catalog.applyContainerRule rules
        catalog).catalog.prune rules).catalog.reconcile ids).result =
          .error (.missingSpace name path)) ↔
      (survivingPaths rules catalog.viewPaths).Nodup ∧
        ∃ path, (path ∈ survivingPaths rules catalog.folderPaths ∨
            path ∈ survivingPaths rules catalog.viewPaths) ∧
          ∀ space ∈ catalog.spaces, path.root? ≠ some (space.relocated rules).name) ∧
    (SettleSpaces rules →
      ¬ ∃ name path, (((applyRules View.containerOrigin Catalog.applyContainerRule rules
        catalog).catalog.prune rules).catalog.reconcile ids).result =
          .error (.missingSpace name path)) := by
  have hdeep : ∀ path ∈ (catalog.relocate rules).existingPaths, 2 ≤ path.length := by
    intro path hpath
    obtain ⟨⟨origin, horigin, rfl⟩, -⟩ :=
      exists_origin_of_survives (mem_existingPaths_relocate.mp hpath)
    exact hlong origin horigin
  have hhoused : (catalog.relocate rules).Housed := housed_relocate howned hlong
  have hmisses := reconcile_misses_space_iff ids hhoused hdeep
  have hexact : (∃ name path, ((catalog.relocate rules).reconcile ids).result =
      .error (.missingSpace name path)) ↔
        (survivingPaths rules catalog.viewPaths).Nodup ∧
          ∃ path, (path ∈ survivingPaths rules catalog.folderPaths ∨
              path ∈ survivingPaths rules catalog.viewPaths) ∧
            ∀ space ∈ catalog.spaces, path.root? ≠ some (space.relocated rules).name := by
    rw [hmisses, viewPaths_relocate]
    refine and_congr_right fun _ => exists_congr fun path => ?_
    rw [mem_existingPaths_relocate]
    refine and_congr_right fun hpath => ?_
    have hscope := (exists_origin_of_survives hpath).2
    have hroots := not_congr (@root_mem_relocate_iff rules catalog path hscope)
    push Not at hroots
    exact hroots
  refine ⟨hexact, ?_⟩
  intro hsettle hmissed
  obtain ⟨-, path, hpath, hnowhere⟩ := hexact.mp hmissed
  obtain ⟨⟨origin, horigin, rfl⟩, hscope⟩ := exists_origin_of_survives hpath
  have hsurvivor := hlong origin horigin
  obtain ⟨-, space, hspace, hroot⟩ := hspaces origin horigin
  have hstep : InStep rules (space.relocated rules).name (Path.relocated rules origin) :=
    InStep.relocated hsettle hproper (fun _ hrule => hrule) (.inl hroot)
  rcases hstep with hnamed | hbehind
  · exact hnowhere space hspace hnamed
  · have hsome : Path.relocated rules origin ≠ [] := List.ne_nil_of_length_pos (by omega)
    obtain ⟨rule, hrule, hdestination⟩ := exists_destination_of_inScope hproper hsome hscope
    exact hbehind.abandoned rule hrule hdestination

/-- Both spaces go to `Analytics`, and their folders do. -/
theorem prodAndDev_misses_no_space :
    SettleSpaces allToAnalytics ∧
    ¬ ∃ name path, (((applyRules View.containerOrigin Catalog.applyContainerRule allToAnalytics
      prodAndDev).catalog.prune allToAnalytics).catalog.reconcile (FolderId.supply 0)).result =
        .error (.missingSpace name path) := by
  have hsettle : SettleSpaces allToAnalytics := ⟨by decide, by decide⟩
  have hmisses := @migrated_misses_space_iff (FolderId.supply 0) allToAnalytics prodAndDev
    (by decide) (by decide) (by decide) (by decide)
  exact ⟨hsettle, hmisses.2 hsettle⟩

/-- Two spaces with a folder each. -/
def prodAndLab : Catalog := { empty with
  spaces := [
    ⟨"prod", "Prod", [.folder "sales" ["Prod", "Sales"]], []⟩,
    ⟨"lab", "Lab", [.folder "trials" ["Lab", "Trials"]], []⟩]
  folders := [
    ⟨"sales", ["Prod", "Sales"], [], none, none, []⟩,
    ⟨"trials", ["Lab", "Trials"], [], none, none, []⟩] }

/-- The folders change places. -/
def exchange : List Rule :=
  [⟨["Prod", "Sales"], ["Lab", "Sales"]⟩, ⟨["Lab", "Trials"], ["Prod", "Trials"]⟩]

/-- The first rule makes both spaces `Lab`, the second one both `Prod`. -/
theorem prodAndLab_exchange_misses :
    (∀ entry ∈ prodAndLab.listings, entry.2.path.parent = entry.1) ∧
    (∀ path ∈ prodAndLab.existingPaths,
      2 ≤ path.length ∧ ∃ space ∈ prodAndLab.spaces, path.root? = some space.name) ∧
    (∀ rule ∈ exchange, rule.source ≠ [] ∧ rule.destination ≠ []) ∧
    (∀ path ∈ prodAndLab.existingPaths, 2 ≤ (Path.relocated exchange path).length) ∧
    (((applyRules View.containerOrigin Catalog.applyContainerRule exchange
      prodAndLab).catalog.prune exchange).catalog.reconcile (FolderId.supply 0)).result =
        .error (.missingSpace "Lab" ["Lab", "Sales"]) := by
  exact ⟨by decide, by decide, by decide, by decide, rfl⟩

end Relocate.Catalog
