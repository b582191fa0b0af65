import Relocate.Migrate.Apply
import Relocate.Proofs.Files.Tree
import Relocate.Proofs.Sql.Matching
import Relocate.Proofs.Text.Prefixes

/-!
# Parents of dependency records

A dependency record writes a reference as its segments with slashes between them,
and a rule replaces a prefix of that text; in a statement the same reference is a
name, and a rule replaces its first identifiers.  A prefix of the text may end inside
a segment: below `Prod/Sales` there is also `Prod/SalesArchive`.  `Path.overruns`
says when it does, and `Dependency.parent_follows_reference` that everywhere else a
rule makes the same of both.
-/

namespace Relocate.Catalog

open Sql Text

/-- The path has the segments of the source, up to ASCII case, but for the last one:
at its place there is a longer segment that begins with it. -/
def Path.overruns : Path → Path → Bool
  | [], _ | _ :: _, [] => false
  | [last], segment :: _ => startsWithFold segment last && !sameFold segment last
  | first :: source, segment :: rest => sameFold segment first && overruns source rest

/-! ## Prefixes of texts with slashes -/

theorem toLower_eq_slash_iff {c : Char} : c.toLower = '/' ↔ c = '/' := by
  unfold Char.toLower
  split
  · next hupper =>
    have hlow : 65 ≤ c.val.toNat := UInt32.le_iff_toNat_le.mp hupper.1
    have hhigh : c.val.toNat ≤ 90 := UInt32.le_iff_toNat_le.mp hupper.2
    constructor
    · intro heq
      have hval : (c.val + 32).toNat = 47 := congrArg (fun c => c.val.toNat) heq
      have hsum : (c.val.toNat + 32) % 2 ^ 32 = 47 := (UInt32.toNat_add _ _).symm.trans hval
      omega
    · rintro rfl
      exact absurd hlow (by decide)
  · rfl

theorem dropPrefix?_append (front back text : List Char) :
    dropPrefix? (front ++ back) text = (dropPrefix? front text).bind (dropPrefix? back) := by
  induction front generalizing text with
  | nil => rfl
  | cons p front ih =>
      cases text with
      | nil => rfl
      | cons c text =>
          rw [List.cons_append, dropPrefix?, dropPrefix?]
          split
          · exact ih text
          · rfl

/-- A prefix without a slash ends before the first slash of the text. -/
theorem dropPrefix?_before_slash
    {start : List Char} (hstart : '/' ∉ start) (front back : List Char) :
    dropPrefix? start (front ++ '/' :: back) =
      (dropPrefix? start front).map fun rest => rest ++ '/' :: back := by
  induction start generalizing front with
  | nil => rfl
  | cons p start ih =>
      have hp : p ≠ '/' := fun heq => hstart (heq ▸ List.mem_cons_self)
      cases front with
      | nil =>
          have hlower : ¬ p.toLower = '/' := mt toLower_eq_slash_iff.mp hp
          rw [List.nil_append, dropPrefix?]
          exact if_neg hlower
      | cons c front =>
          rw [List.cons_append, dropPrefix?, dropPrefix?]
          split
          · exact ih (List.not_mem_of_not_mem_cons hstart) front
          · rfl

/-- A text without a slash begins with no text that has one. -/
theorem dropPrefix?_eq_none
    {text : List Char} (htext : '/' ∉ text) (front back : List Char) :
    dropPrefix? (front ++ '/' :: back) text = none := by
  induction front generalizing text with
  | nil =>
      cases text with
      | nil => rfl
      | cons c text =>
          have hc : c ≠ '/' := fun heq => htext (heq ▸ List.mem_cons_self)
          exact if_neg fun hlower => hc (toLower_eq_slash_iff.mp hlower.symm)
  | cons p front ih =>
      cases text with
      | nil => rfl
      | cons c text =>
          rw [List.cons_append, dropPrefix?, ih (List.not_mem_of_not_mem_cons htext), ite_self]

theorem dropPrefix?_eq_some_nil_iff {start text : String} :
    dropPrefix? start.toList text.toList = some [] ↔ sameFold text start = true := by
  simp [dropPrefix?_eq_some_iff, sameFold]

/-- Where both texts go on after a slash, a prefix without a slash is a whole part. -/
theorem dropPrefix?_part
    {part segment : String} (hpart : '/' ∉ part.toList) (hsegment : '/' ∉ segment.toList)
    (front back : List Char) :
    dropPrefix? (part.toList ++ '/' :: front) (segment.toList ++ '/' :: back) =
      if sameFold segment part then dropPrefix? front back else none := by
  rw [dropPrefix?_append, dropPrefix?_before_slash hpart]
  split
  · next hsame =>
    rw [dropPrefix?_eq_some_nil_iff.mpr hsame]
    simp [dropPrefix?]
  · next hdiffer =>
    cases hdrop : dropPrefix? part.toList segment.toList with
    | none => rfl
    | some rest =>
        obtain ⟨start, hstart, -⟩ := dropPrefix?_eq_some_iff.mp hdrop
        cases rest with
        | nil => exact absurd (dropPrefix?_eq_some_nil_iff.mp hdrop) hdiffer
        | cons c rest =>
            have hc : c ≠ '/' := by
              rintro rfl
              exact hsegment (hstart ▸ List.mem_append_right _ List.mem_cons_self)
            exact if_neg fun hlower => hc (toLower_eq_slash_iff.mp hlower.symm)

/-! ## Paths as texts -/

/-- What stands behind a prefix of a path: each segment after a slash. -/
def Path.behind (segments : Path) : List Char :=
  segments.flatMap fun segment => '/' :: segment.toList

theorem Path.toList_slashed_cons_cons (first second : String) (rest : Path) :
    (slashed (first :: second :: rest)).toList =
      first.toList ++ '/' :: (slashed (second :: rest)).toList := by
  simp [slashed, Text.join]

theorem Path.toList_slashed_cons (segment : String) (rest : Path) :
    (slashed (segment :: rest)).toList = segment.toList ++ behind rest := by
  induction rest generalizing segment with
  | nil => simp [slashed, Text.join, behind]
  | cons next rest ih =>
      rw [toList_slashed_cons_cons, ih]
      simp [behind]

theorem Path.toList_slashed_append {front : Path} (hfront : front ≠ []) (rest : Path) :
    (slashed (front ++ rest)).toList = (slashed front).toList ++ behind rest := by
  obtain ⟨first, front, rfl⟩ := List.exists_cons_of_ne_nil hfront
  rw [List.cons_append, toList_slashed_cons, toList_slashed_cons]
  simp [behind]

theorem dropPrefix?_before_behind
    {start : List Char} (hstart : '/' ∉ start) (front : List Char) (rest : Path) :
    dropPrefix? start (front ++ Path.behind rest) =
      (dropPrefix? start front).map fun left => left ++ Path.behind rest := by
  cases rest with
  | nil => simp [Path.behind]
  | cons next rest =>
      exact dropPrefix?_before_slash hstart front (next.toList ++ Path.behind rest)

/-! ## Names as texts -/

/-- How a record writes a name: its identifiers without quotes, with slashes between
them. -/
def Dependency.written (name : Name) : String :=
  Path.slashed (name.map Ident.value)

namespace Dependency

theorem written_singleton (ident : Ident) : written [ident] = ident.value := rfl

theorem toList_written_cons (ident : Ident) (rest : Name) :
    (written (ident :: rest)).toList =
      ident.value.toList ++ Path.behind (rest.map Ident.value) :=
  Path.toList_slashed_cons ident.value (rest.map Ident.value)

theorem toList_written_cons_cons (ident next : Ident) (rest : Name) :
    (written (ident :: next :: rest)).toList =
      ident.value.toList ++ '/' :: (written (next :: rest)).toList :=
  Path.toList_slashed_cons_cons ident.value next.value (rest.map Ident.value)

/-- A text may begin with a source of one segment in the midst of its own first one. -/
theorem dropPrefix?_written_singleton
    {segment : String} (hsegment : '/' ∉ segment.toList) (ident : Ident) (rest : Name) :
    dropPrefix? (Path.slashed [segment]).toList (written (ident :: rest)).toList =
      (dropPrefix? segment.toList ident.value.toList).map
        fun left => left ++ Path.behind (rest.map Ident.value) := by
  rw [toList_written_cons]
  exact dropPrefix?_before_behind hsegment _ _

/-- Every other segment of the source has to be one of the text. -/
theorem dropPrefix?_written_cons
    {first : String} {ident : Ident} (hfirst : '/' ∉ first.toList)
    (hident : '/' ∉ ident.value.toList) (second : String) (source : Path) (rest : Name) :
    dropPrefix? (Path.slashed (first :: second :: source)).toList
        (written (ident :: rest)).toList =
      if sameFold ident.value first = true ∧ rest ≠ [] then
        dropPrefix? (Path.slashed (second :: source)).toList (written rest).toList
      else none := by
  rw [Path.toList_slashed_cons_cons]
  cases rest with
  | nil =>
      rw [written_singleton, dropPrefix?_eq_none hident, if_neg fun hboth => hboth.2 rfl]
  | cons next rest =>
      rw [toList_written_cons_cons, dropPrefix?_part hfirst hident]
      simp

/-- The text of a name begins with a source in two cases only: the name begins with its
segments, or it runs over the last of them. -/
theorem dropPrefix?_written
    {source : Path} {name : Name} (hsource : source ≠ []) (hname : name ≠ [])
    (hsegments : ∀ segment ∈ source, '/' ∉ segment.toList)
    (hidents : ∀ ident ∈ name, '/' ∉ ident.value.toList) :
    let dropped := dropPrefix? source.slashed.toList (written name).toList
    (Path.overruns source (name.map Ident.value) = true →
      name.suffix? source = none ∧ dropped.isSome = true) ∧
    (Path.overruns source (name.map Ident.value) = false →
      dropped = (name.suffix? source).map fun rest => Path.behind (rest.map Ident.value)) := by
  -- The source and the name are walked together; all three sides look at the same
  -- pair of segments.
  induction source generalizing name with
  | nil => exact absurd rfl hsource
  | cons first source ih =>
      obtain ⟨ident, rest, rfl⟩ := List.exists_cons_of_ne_nil hname
      have hfirst : '/' ∉ first.toList := hsegments first List.mem_cons_self
      have hident : '/' ∉ ident.value.toList := hidents ident List.mem_cons_self
      cases source with
      | nil =>
          rw [dropPrefix?_written_singleton hfirst, List.map_cons, Path.overruns, startsWithFold_eq,
            Name.suffix?]
          by_cases hsame : sameFold ident.value first = true
          · simp [hsame, dropPrefix?_eq_some_nil_iff.mpr hsame, Name.suffix?]
          · simp [hsame]
      | cons second source =>
          have hoverruns : Path.overruns (first :: second :: source)
                ((ident :: rest).map Ident.value) =
              (sameFold ident.value first &&
                Path.overruns (second :: source) (rest.map Ident.value)) := rfl
          rw [hoverruns, dropPrefix?_written_cons hfirst hident, Name.suffix?]
          by_cases hsame : sameFold ident.value first = true
          · cases rest with
            | nil => simp [Path.overruns, Name.suffix?]
            | cons next rest =>
                rw [if_pos ⟨hsame, List.cons_ne_nil next rest⟩, if_pos hsame, hsame,
                  Bool.true_and]
                exact ih (List.cons_ne_nil second source) (List.cons_ne_nil next rest)
                  (fun segment hmem => hsegments segment (List.mem_cons_of_mem first hmem))
                  (fun other hmem => hidents other (List.mem_cons_of_mem ident hmem))
          · simp [hsame]

theorem splitSlashes_written
    {name : Name} (hname : name ≠ []) (hidents : ∀ ident ∈ name, '/' ∉ ident.value.toList) :
    Files.splitSlashes (written name).toList = name.map fun ident => ident.value.toList := by
  induction name with
  | nil => exact absurd rfl hname
  | cons ident rest ih =>
      have hident : '/' ∉ ident.value.toList := hidents ident List.mem_cons_self
      cases rest with
      | nil => exact Files.splitSlashes_of_not_mem hident
      | cons next rest =>
          rw [toList_written_cons_cons, Files.splitSlashes_append,
            Files.splitSlashes_of_not_mem hident, ih (List.cons_ne_nil next rest)
              (fun other hmem => hidents other (List.mem_cons_of_mem ident hmem))]
          rfl

/-- Names without slashes are told apart by their texts. -/
theorem written_eq_written_iff
    {name other : Name} (hname : name ≠ []) (hother : other ≠ [])
    (hidents : ∀ ident ∈ name ++ other, '/' ∉ ident.value.toList) :
    written name = written other ↔ name.map Ident.value = other.map Ident.value := by
  constructor
  · intro heq
    have hsplit : Files.splitSlashes (written name).toList =
        Files.splitSlashes (written other).toList := by
      rw [heq]
    rw [splitSlashes_written hname fun ident hmem => hidents ident (List.mem_append_left _ hmem),
      splitSlashes_written hother fun ident hmem => hidents ident (List.mem_append_right _ hmem)]
      at hsplit
    have hofList := congrArg (List.map String.ofList) hsplit
    simpa [Function.comp_def] using hofList
  · intro heq
    rw [written, heq, written]

/-! ## Rules -/

/-- The text of a replaced name is the destination with what stands behind the source. -/
theorem written_replaced
    (rule : Rule) (hdestination : rule.destination ≠ []) (rest : Name) :
    written (rule.destination.map Ident.bare ++ rest) =
      rule.destination.slashed ++ String.ofList (Path.behind (rest.map Ident.value)) := by
  have hvalues : (rule.destination.map Ident.bare ++ rest).map Ident.value =
      rule.destination ++ rest.map Ident.value := by
    simp [Ident.bare, Function.comp_def]
  rw [written, hvalues]
  refine String.toList_injective ?_
  rw [Path.toList_slashed_append hdestination, String.toList_append, String.toList_ofList]

theorem movedParent?_written
    {rule : Rule} {name : Name} (hname : name ≠ []) (hsource : rule.source ≠ [])
    (hdestination : rule.destination ≠ [])
    (hsegments : ∀ segment ∈ rule.source, '/' ∉ segment.toList)
    (hidents : ∀ ident ∈ name, '/' ∉ ident.value.toList)
    (hoverruns : Path.overruns rule.source (name.map Ident.value) = false) :
    movedParent? rule (written name) = (name.moved? rule).map written := by
  have hdropped := (dropPrefix?_written hsource hname hsegments hidents).2 hoverruns
  rw [movedParent?, replacePrefix?_eq, hdropped, Name.moved?]
  cases name.suffix? rule.source with
  | none => rfl
  | some rest => exact congrArg some (written_replaced rule hdestination rest).symm

/-- Where a name runs over the source, the destination takes the place of the source in
its text and nowhere else. -/
theorem movedParent?_of_overruns
    {rule : Rule} {name : Name} (hname : name ≠ []) (hsource : rule.source ≠ [])
    (hsegments : ∀ segment ∈ rule.source, '/' ∉ segment.toList)
    (hidents : ∀ ident ∈ name, '/' ∉ ident.value.toList)
    (hoverruns : Path.overruns rule.source (name.map Ident.value) = true) :
    name.moved? rule = none ∧
    ∃ start rest, written name = start ++ rest ∧
      sameFold start rule.source.slashed = true ∧
      movedParent? rule (written name) = some (rule.destination.slashed ++ rest) := by
  obtain ⟨hsuffix, hdropped⟩ := (dropPrefix?_written hsource hname hsegments hidents).1 hoverruns
  obtain ⟨rest, hrest⟩ := Option.isSome_iff_exists.mp hdropped
  obtain ⟨start, htext, hstart⟩ := dropPrefix?_eq_some_iff.mp hrest
  refine ⟨by rw [Name.moved?, hsuffix]; rfl, String.ofList start, String.ofList rest, ?_, ?_, ?_⟩
  · rw [← String.ofList_append, ← htext, String.ofList_toList]
  · simp [sameFold, hstart]
  · rw [movedParent?, replacePrefix?_eq, hrest]
    rfl

/-- A rule without slashes brings none into a name. -/
theorem unslashed_moved
    {rule : Rule} {name : Name} (hname : name ≠ []) (hdestination : rule.destination ≠ [])
    (hsegments : ∀ segment ∈ rule.destination, '/' ∉ segment.toList)
    (hidents : ∀ ident ∈ name, '/' ∉ ident.value.toList) :
    (name.moved? rule).getD name ≠ [] ∧
    ∀ ident ∈ (name.moved? rule).getD name, '/' ∉ ident.value.toList := by
  rw [Name.moved?_eq]
  split
  · rw [Option.getD_some, Name.replaced]
    refine ⟨by simp [hdestination], fun ident hmem => ?_⟩
    rcases List.mem_append.mp hmem with hmem | hmem
    · obtain ⟨segment, hsegment, rfl⟩ := List.mem_map.mp hmem
      exact hsegments segment hsegment
    · exact hidents ident (List.mem_of_mem_drop hmem)
  · exact ⟨hname, hidents⟩

/-- Let a name be a parent of a record.  Unless it runs over the source, a rule makes
of its text the text of what a rewriter makes of the name; one of them is replaced when
the other is, and the one keeps its characters when the other does.  Where the name runs
over the source, the rewriter leaves it alone, and in the text the destination takes the
place of the source all the same: the rest of the longer segment stays behind it. -/
theorem parent_follows_reference
    (job : Job) (clause : Clause) (rewriter : Rewriter) {name : Name} (hname : name ≠ [])
    (hsource : job.rule.source ≠ []) (hdestination : job.rule.destination ≠ [])
    (hrule : ∀ segment ∈ job.rule.source ++ job.rule.destination, '/' ∉ segment.toList)
    (hidents : ∀ ident ∈ name, '/' ∉ ident.value.toList)
    (record : Dependency) {i : Nat} (hparent : record.parents[i]? = some (written name)) :
    let new := ((Rewriter.replace job clause name).run rewriter).1
    let after := rewriteParents job.rule record
    (Path.overruns job.rule.source (name.map Ident.value) = false →
      after.parents[i]? = some (written new) ∧
      (movedParent? job.rule (written name)).isSome = (name.moved? job.rule).isSome ∧
      (after.parents[i]? = record.parents[i]? ↔
        new.map Ident.value = name.map Ident.value)) ∧
    (Path.overruns job.rule.source (name.map Ident.value) = true →
      new = name ∧
      ∃ start rest, written name = start ++ rest ∧
        sameFold start job.rule.source.slashed = true ∧
        after.parents[i]? = some (job.rule.destination.slashed ++ rest)) := by
  intro new after
  have hsegments : ∀ segment ∈ job.rule.source, '/' ∉ segment.toList := fun segment hmem =>
    hrule segment (List.mem_append_left _ hmem)
  have hnew : new = (name.moved? job.rule).getD name := by
    simp only [new, Rewriter.replace_run]
  have hafter : after.parents[i]? =
      some ((movedParent? job.rule (written name)).getD (written name)) := by
    simp only [after, rewriteParents, List.getElem?_map, hparent, Option.map_some]
  refine ⟨fun hoverruns => ?_, fun hoverruns => ?_⟩
  · have hmoved := movedParent?_written hname hsource hdestination hsegments hidents hoverruns
    have hwritten : after.parents[i]? = some (written new) := by
      rw [hafter, hmoved, hnew]
      cases name.moved? job.rule <;> rfl
    refine ⟨hwritten, by rw [hmoved, Option.isSome_map], ?_⟩
    obtain ⟨hnonempty, hunslashed⟩ := unslashed_moved hname hdestination
      (fun segment hmem => hrule segment (List.mem_append_right _ hmem)) hidents
    rw [← hnew] at hnonempty hunslashed
    rw [hwritten, hparent, Option.some.injEq]
    refine written_eq_written_iff hnonempty hname fun ident hmem => ?_
    exact (List.mem_append.mp hmem).elim (hunslashed ident) (hidents ident)
  · obtain ⟨hstays, start, rest, htext, hstart, hmoved⟩ :=
      movedParent?_of_overruns hname hsource hsegments hidents hoverruns
    refine ⟨by rw [hnew, hstays]; rfl, start, rest, htext, hstart, ?_⟩
    rw [hafter, hmoved]
    rfl

/-- A quoted identifier, letters of other cases, and a rule that moves the name. -/
theorem parent_orders_follows_reference :
    let rule : Rule := ⟨["Prod", "Sales"], ["Analytics"]⟩
    let name : Name := [.bare "PROD", ⟨"sales", some '"'⟩, .bare "Orders"]
    let new := ((Rewriter.replace ⟨rule, [], ""⟩ .table name).run .start).1
    let after := rewriteParents rule ⟨["Marts", "Report"], ["Dev/Prod", "PROD/sales/Orders"]⟩
    after.parents[1]? = some (written new) ∧ written new = "Analytics/Orders" := by
  refine ⟨?_, by decide⟩
  exact ((parent_follows_reference ⟨⟨["Prod", "Sales"], ["Analytics"]⟩, [], ""⟩ .table .start
    (by decide) (by decide) (by decide) (by decide) (by decide)
    ⟨["Marts", "Report"], ["Dev/Prod", "PROD/sales/Orders"]⟩ rfl).1 (by decide)).1

/-- Below `Prod/Sales` a rule finds `Prod/SalesArchive/Orders` too, which no statement
rewrites. -/
theorem parent_salesArchive_differs :
    let rule : Rule := ⟨["Prod", "Sales"], ["Analytics", "Sales"]⟩
    let name : Name := [.bare "Prod", .bare "SalesArchive", .bare "Orders"]
    let new := ((Rewriter.replace ⟨rule, [], ""⟩ .table name).run .start).1
    let after := rewriteParents rule ⟨["Marts", "Report"], [written name]⟩
    written name = "Prod/SalesArchive/Orders" ∧ new = name ∧
    after.parents = ["Analytics/SalesArchive/Orders"] ∧ after.parents ≠ [written new] := by
  decide

end Dependency

end Relocate.Catalog
