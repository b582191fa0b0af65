import Relocate.Proofs.Sql.CommentScan
import Relocate.Proofs.Sql.Projection
import Relocate.Proofs.Sql.Written
import Relocate.Proofs.Text.TrimmedLines

/-!
# Comments and literals

Comments are normalized line by line, and no quotes are looked for on the way.  So a line
is left alone only when nothing on it looks like a comment (`Comments.Bypassed`), and of
a text of such lines only the blanks at both ends of each line are taken away.  Its
tokens stay as they are read when none of these blanks belongs to a token or stands
between `#`, `@` or `@@` and the end of the line (`Written.Spared`).  Then the text is
read as the same statement, since the places of tokens matter to errors only
(`parseSingle_congr`).
-/

namespace Relocate.Sql

open Text

namespace Comments

/-! ## Lines that are left alone -/

/-- Nothing on a trimmed line is taken for a comment, or what is taken for one stands
there as a comment would: after two dashes and a space. -/
def Bypassed (line : List Char) : Prop :=
  ['-', '-', ' '] <+: line ∨
    ¬ ['-', '-'] <+: line ∧ ¬ ['/', '/'] <+: line ∧ ¬ [' ', '/', '/'] <:+: line ∧
      OpensNoBlock line

theorem opensBlock_eq_false_iff {line : List Char} :
    opensBlock line = false ↔ OpensNoBlock line := by
  refine ⟨opensNoBlock_of_opensBlock, fun h => ?_⟩
  rw [← Bool.not_eq_true, opensBlock_iff]
  rintro ⟨front, back, hsplit, hnone⟩
  exact hnone (h front back (eq_of_splitAtMark? hsplit).1)

instance : DecidablePred OpensNoBlock := fun _ =>
  decidable_of_iff _ opensBlock_eq_false_iff

instance : DecidablePred Bypassed := fun line =>
  inferInstanceAs (Decidable (['-', '-', ' '] <+: line ∨
    ¬ ['-', '-'] <+: line ∧ ¬ ['/', '/'] <+: line ∧ ¬ [' ', '/', '/'] <:+: line ∧
      OpensNoBlock line))

theorem replaceSlashes_eq_self_iff {line : List Char} :
    replaceSlashes line = line ↔ ¬ [' ', '/', '/'] <:+: line := by
  fun_induction replaceSlashes line with
  | case1 rest ih =>
      have hmark : [' ', '/', '/'] <:+: ' ' :: '/' :: '/' :: rest := ⟨[], rest, rfl⟩
      exact ⟨by simp, fun h => absurd hmark h⟩
  | case2 c rest hne ih =>
      have hbegin : ¬ [' ', '/', '/'] <+: c :: rest := by
        rintro ⟨more, hmore⟩
        cases hmore
        exact hne more rfl rfl
      rw [List.cons_inj_right, ih, List.infix_cons_iff, or_iff_right hbegin]
  | case3 => simp

theorem commentLine_eq_iff {text : List Char} :
    commentLine text = '-' :: '-' :: text ↔ [' '] <+: text := by
  unfold commentLine
  split
  · exact ⟨fun _ => ⟨_, rfl⟩, fun _ => rfl⟩
  · next hne =>
      constructor
      · intro heq
        have hlength := congrArg List.length heq
        simp at hlength
      · rintro ⟨rest, rfl⟩
        exact absurd rfl (hne rest)

theorem lineComment?_eq_none_iff {line : List Char} :
    lineComment? line = none ↔ ¬ ['-', '-'] <+: line ∧ ¬ ['/', '/'] <+: line := by
  unfold lineComment?
  split
  · simp
  · simp
  · next hslashes hdashes =>
      refine ⟨fun _ => ⟨?_, ?_⟩, fun _ => rfl⟩
      · rintro ⟨rest, rfl⟩
        exact hdashes rest rfl
      · rintro ⟨rest, rfl⟩
        exact hslashes rest rfl

/-- A line is left alone outside block comments exactly when it is bypassed. -/
theorem normalizeLine_eq_self_iff {line : List Char} (hline : '\n' ∉ line) :
    normalizeLine false line = ([line], false) ↔ Bypassed line := by
  have hout := @opensNoBlock_normalizeLine false line hline
  cases hcomment : lineComment? line with
  | some text =>
      have hresult : normalizeLine false line = ([commentLine text], false) := by
        simp [normalizeLine, hcomment]
      rw [hresult]
      rcases eq_of_lineComment? hcomment with rfl | rfl
      · have hdashes : commentLine text ≠ '/' :: '/' :: text := by
          rcases commentLine_cases text with heq | heq <;> rw [heq] <;> rintro ⟨⟩
        simp [Bypassed, hdashes]
      · simp [Bypassed, commentLine_eq_iff]
  | none =>
      obtain ⟨hdashes, hslashes⟩ := lineComment?_eq_none_iff.mp hcomment
      have hnot : ¬ ['-', '-', ' '] <+: line := fun hbegin =>
        hdashes (List.IsPrefix.trans ⟨[' '], rfl⟩ hbegin)
      simp only [Bypassed, hnot, hdashes, hslashes, false_or, not_false_eq_true, true_and]
      cases hopens : opensBlock line with
      | true =>
          have hblock : ¬ OpensNoBlock line := fun h => by
            rw [opensBlock_eq_false_iff.mpr h] at hopens
            cases hopens
          refine ⟨fun heq => absurd (hout line ?_).1 hblock, fun h => absurd h.2 hblock⟩
          rw [heq]
          exact List.mem_singleton_self line
      | false =>
          have hresult : normalizeLine false line = ([replaceSlashes line], false) := by
            simp [normalizeLine, hcomment, hopens]
          have hblock := opensBlock_eq_false_iff.mp hopens
          simp [hresult, replaceSlashes_eq_self_iff, hblock]

theorem normalizeLines_of_bypassed
    {found : List (List Char)} (hlines : ∀ line ∈ found, '\n' ∉ line)
    (h : ∀ line ∈ found, Bypassed (trim line)) :
    normalizeLines false found = found.map trim := by
  induction found with
  | nil => rfl
  | cons line found ih =>
      have htrim : '\n' ∉ trim line := fun hmem =>
        hlines line List.mem_cons_self ((trim_within line).subset hmem)
      have hfirst := (normalizeLine_eq_self_iff htrim).mpr (h line List.mem_cons_self)
      have hmore := ih (fun other hother => hlines other (List.mem_cons_of_mem _ hother))
        fun other hother => h other (List.mem_cons_of_mem _ hother)
      rw [normalizeLines, hfirst, List.map_cons]
      exact congrArg _ hmore

end Comments

open Comments Lexer

/-- A text of lines that are left alone is only trimmed. -/
theorem toList_normalizeComments_of_bypassed
    {sql : String} (h : ∀ line ∈ lines sql.toList, Bypassed (trim line)) :
    (normalizeComments sql).toList = trimLines true sql.toList := by
  have hlines : ∀ line ∈ lines sql.toList, '\n' ∉ line := fun _ => not_mem_of_mem_lines
  rw [toList_normalizeComments, normalizeLines_of_bypassed hlines h, trimLines_eq]

/-! ## Tokens of a trimmed text -/

/-- Trimming the lines puts no more in front of the next line feed. -/
theorem narrows_trimLines {start : Bool} {text : List Char} (hstart : start = true → Flush text) :
    Narrows (trimLines start text) text := by
  induction text generalizing start with
  | nil => exact Narrows.refl []
  | cons c text ih =>
      cases hblank : blankLine (c :: text) with
      | true =>
          have hhead := head?_trimLines_of_blankLine hblank start
          cases hleft : trimLines start (c :: text) with
          | nil => exact Narrows.nil _
          | cons d rest =>
              obtain ⟨rfl, -⟩ := hhead d (by rw [hleft]; rfl)
              exact Narrows.newline _ _
      | false =>
          have hc : c ≠ '\n' := by
            rintro rfl
            cases hblank
          have hnext : startsBehind start c = false := by
            rw [startsBehind, beq_eq_false_iff_ne.mpr hc, Bool.false_or, Bool.and_eq_false_iff,
              ← Bool.not_eq_true, ← Bool.not_eq_true, ← not_and_or]
            exact fun hboth => hc (hstart hboth.1 c rfl hboth.2)
          rw [trimLines_of_not_trims (not_trims_of_not_blankLine hstart hblank), hnext]
          exact (@ih false fun hfalse => absurd hfalse Bool.false_ne_true).append [c]

namespace Written

/-- Trimming the lines changes neither the characters of the token nor what it may take
for its next one. -/
structure Spared (piece : Written) (back : List Char) : Prop where
  untrimmed : Untrimmed piece.text back
  /-- `#`, `@` and `@@` end no line but the last one. -/
  sign : piece.token.TakesNewline → ∀ gap more, back = gap ++ '\n' :: more →
    (∀ c ∈ gap, isBlank c = true) → more = []

variable {before : Option Token} {piece : Written} {back : List Char}

theorem Spared.follows
    (h : Spared piece back) {start : Bool} (hstart : start = true → Flush back) :
    MayFollow piece.token (trimLines start back) back := by
  refine ⟨narrows_trimLines hstart, fun htakes hline => ?_⟩
  cases hblank : blankLine back with
  | true =>
      obtain ⟨-, gap, more, heq, hgap, hmore⟩ := head?_trimLines_of_blankLine hblank start _ hline
      exact absurd (h.sign htakes gap more heq hgap) hmore
  | false => rwa [head?_trimLines hstart hblank] at hline

/-- Blanks are trimmed to blanks. -/
theorem exists_trimmed_blanks
    {gap : List Char} (hgap : ∀ c ∈ gap, isBlank c = true) {start : Bool} {more : List Written}
    (hmore : spelled more = trimLines (gap.foldl startsBehind start) back)
    (hread : ∀ before, AllRead before more) :
    ∃ pieces, spelled pieces = trimLines start (gap ++ back) ∧
      significant pieces = significant more ∧ ∀ before, AllRead before pieces := by
  induction gap generalizing start with
  | nil => exact ⟨more, hmore, rfl, hread⟩
  | cons c gap ih =>
      obtain ⟨hc, hgap⟩ := List.forall_mem_cons.mp hgap
      obtain ⟨pieces, hspelled, hsame, hall⟩ := ih hgap hmore
      rw [List.cons_append]
      cases htrims : trims start c (gap ++ back) with
      | true => exact ⟨pieces, hspelled.trans (trimLines_of_trims htrims).symm, hsame, hall⟩
      | false =>
          refine ⟨white c :: pieces, ?_, (significant_blank rfl _).trans hsame,
            fun before => .cons (reads_white hc ?_ before) (hall _)⟩
          · rw [spelled_cons, hspelled, trimLines_of_not_trims htrims]
            rfl
          · -- A carriage return stays only where more than blanks follows on its line.
            rintro rfl
            rw [hspelled]
            have hreturn : trims start '\r' (gap ++ back) = false := htrims
            obtain ⟨rfl, hline⟩ : start = false ∧ blankLine (gap ++ back) = false := by
              simpa [trims, hc] using hreturn
            have hhead := @head?_trimLines (gap ++ back) false
              (fun hfalse => absurd hfalse Bool.false_ne_true) hline
            rw [show startsBehind false '\r' = false from rfl, hhead]
            intro hnext
            obtain ⟨rest, hrest⟩ := List.head?_eq_some_iff.mp hnext
            rw [hrest] at hline
            cases hline

/-- The tokens of a text without comments stay where trimming its lines spares them. -/
theorem exists_trimmed_lines
    {pieces : List Written} (h : AllRead before pieces)
    (hwhite : ∀ piece ∈ pieces, piece.token.isBlank = true → piece.text.all isBlank = true)
    (hspared : ∀ piece back, piece :: back <:+ pieces → piece.token.isBlank = false →
      Spared piece (spelled back))
    (start : Bool) :
    ∃ pieces', spelled pieces' = trimLines start (spelled pieces) ∧
      significant pieces' = significant pieces ∧ ∀ before',
        (followsWord before = true → followsWord before' = true) → AllRead before' pieces' := by
  -- `start` is carried from token to token.  The token before one matters only to a point
  -- that stands directly behind a word, so it may change where blanks are taken away.
  induction h generalizing start with
  | nil before => exact ⟨[], rfl, rfl, fun before' _ => .nil before'⟩
  | @cons before piece rest hfirst hrest ih =>
      have hmore := fun next hnext => hwhite next (List.mem_cons_of_mem piece hnext)
      have hspares := fun next back (hback : next :: back <:+ rest) =>
        hspared next back (hback.trans (List.suffix_cons piece rest))
      rw [spelled_cons]
      cases hblank : piece.token.isBlank with
      | true =>
          have hword : followsWord (some piece.token) = false := by
            cases htoken : piece.token <;> rw [htoken] at hblank <;> first | rfl | cases hblank
          obtain ⟨more, hspelled, hsame, hall⟩ :=
            ih hmore hspares (piece.text.foldl startsBehind start)
          obtain ⟨pieces', hspelled', hsame', hall'⟩ := exists_trimmed_blanks
            (List.all_eq_true.mp (hwhite piece List.mem_cons_self hblank)) hspelled
            fun before' => hall before' (by rw [hword]; exact nofun)
          exact ⟨pieces', hspelled', by rw [hsame', hsame, significant_blank hblank],
            fun before' _ => hall' before'⟩
      | false =>
          have hspare := hspared piece rest List.suffix_rfl hblank
          obtain ⟨c, text, htext, hvisible⟩ := hfirst.exists_visible hblank
          obtain ⟨htrim, hflush⟩ := @trimLines_untrimmed _ _ hspare.untrimmed start fun _ => by
            rw [htext]
            rintro d ⟨⟩ hd
            rw [hvisible] at hd
            cases hd
          obtain ⟨more, hspelled, hsame, hall⟩ := ih hmore hspares _
          refine ⟨piece :: more, ?_, ?_, fun before' hbefore => .cons ?_ (hall _ id)⟩
          · rw [spelled_cons, hspelled, htrim]
          · rw [significant_cons hblank, significant_cons hblank, hsame]
          · rw [hspelled]
            exact hfirst.follow (hspare.follows hflush) fun _ => hbefore

end Written

open Written

theorem parseSingle_eq_ok_iff {stage : Stage} {sql : String} {statement : Statement} :
    parseSingle stage sql = .ok statement ↔ Statement.parseAll sql = .ok [statement] := by
  unfold parseSingle
  cases Statement.parseAll sql with
  | error issue => simp
  | ok statements =>
      match statements with
      | [] | [_] | _ :: _ :: _ => simp

/-- What a text is read as depends on its tokens with a meaning alone. -/
theorem parseSingle_congr
    {stage : Stage} {sql sql' : String} {pieces pieces' : List Written}
    (h : written sql = .ok pieces) (h' : written sql' = .ok pieces')
    (hsame : significant pieces' = significant pieces) (statement : Statement) :
    parseSingle stage sql' = .ok statement ↔ parseSingle stage sql = .ok statement := by
  rw [parseSingle_eq_ok_iff, parseSingle_eq_ok_iff, parseAll_of_tokens (significantTokens_eq h),
    parseAll_of_tokens (significantTokens_eq h'), tokens_placed, tokens_placed, hsame]

/-- Normalizing comments keeps the significant tokens of a text, each with its
characters, and so the statement that it is read as, when the text holds no comment, none
of its lines is taken for one, and trimming the lines spares its tokens. -/
theorem normalizeComments_keeps_literals
    {sql : String} {pieces : List Written} (h : written sql = .ok pieces)
    (hwhite : ∀ piece ∈ pieces, piece.token.isBlank = true → piece.text.all isBlank = true)
    (hlines : ∀ line ∈ lines sql.toList, Bypassed (trim line))
    (hspared : ∀ piece back, piece :: back <:+ pieces → piece.token.isBlank = false →
      Spared piece (spelled back)) :
    ∃ pieces', written (normalizeComments sql) = .ok pieces' ∧
      significant pieces' = significant pieces ∧
      ∀ statement, parseView sql = .ok statement ↔ parseSingle .parse sql = .ok statement := by
  obtain ⟨hspelled, hall⟩ := written_eq_ok_iff.mp h
  obtain ⟨pieces', htrimmed, hsame, hread⟩ := exists_trimmed_lines hall hwhite hspared true
  have hwritten : written (normalizeComments sql) = .ok pieces' := by
    rw [written_eq_ok_iff, toList_normalizeComments_of_bypassed hlines, htrimmed, hspelled]
    exact ⟨rfl, hread none id⟩
  exact ⟨pieces', hwritten, hsame, parseSingle_congr h hwritten hsame⟩

/-- Marks of all kinds in quotes, with a line feed in one of them. -/
theorem normalizeComments_keeps_literals_select :
    ∃ pieces, written "SELECT '//a--b', \"c/*\nd\" FROM t" = .ok pieces ∧ ∃ pieces',
      written (normalizeComments "SELECT '//a--b', \"c/*\nd\" FROM t") = .ok pieces' ∧
      significant pieces' = significant pieces ∧
      ∀ statement, parseView "SELECT '//a--b', \"c/*\nd\" FROM t" = .ok statement ↔
        parseSingle .parse "SELECT '//a--b', \"c/*\nd\" FROM t" = .ok statement := by
  let pieces : List Written := [⟨.word (.bare "SELECT"), "SELECT".toList⟩, white ' ',
    ⟨.quoted .plain "//a--b", "'//a--b'".toList⟩, ⟨.symbol ",", [',']⟩, white ' ',
    ⟨.word ⟨"c/*\nd", some '"'⟩, "\"c/*\nd\"".toList⟩, white ' ',
    ⟨.word (.bare "FROM"), "FROM".toList⟩, white ' ', ⟨.word (.bare "t"), "t".toList⟩]
  have hpieces : written "SELECT '//a--b', \"c/*\nd\" FROM t" = .ok pieces := by decide +kernel
  have hwhite : ∀ piece ∈ pieces, piece.token.isBlank = true →
    piece.text.all isBlank = true := by decide +kernel
  have hlines : ∀ line ∈ lines "SELECT '//a--b', \"c/*\nd\" FROM t".toList,
    Bypassed (trim line) := by decide +kernel
  have hall : ∀ rest ∈ pieces.tails, ∀ piece ∈ rest.head?, piece.token.isBlank = false →
    Untrimmed piece.text (spelled rest.tail) ∧ ¬ piece.token.TakesNewline := by decide +kernel
  have hspared : ∀ piece back, piece :: back <:+ pieces → piece.token.isBlank = false →
      Spared piece (spelled back) := by
    intro piece back hsuffix hblank
    obtain ⟨huntrimmed, hsign⟩ :=
      hall (piece :: back) ((List.mem_tails _ _).mpr hsuffix) piece rfl hblank
    exact ⟨huntrimmed, fun htakes => absurd htakes hsign⟩
  exact ⟨pieces, hpieces, normalizeComments_keeps_literals hpieces hwhite hlines hspared⟩

/-- Normalizing comments changes a token with a meaning. -/
def ChangesTokens (sql : String) : Prop :=
  (written (normalizeComments sql)).map significant ≠ (written sql).map significant

instance : DecidablePred ChangesTokens := fun sql =>
  inferInstanceAs (Decidable
    ((written (normalizeComments sql)).map significant ≠ (written sql).map significant))

/-- Marks in quotes are taken for comments, and trimming takes blanks from literals and
words, and from between a `#` and the end of its line. -/
theorem literals_changed :
    ChangesTokens "SELECT '/* x */' FROM t" ∧ ChangesTokens "SELECT 'a //b' FROM t" ∧
    ChangesTokens "SELECT 'a\n--b' FROM t" ∧ ChangesTokens "SELECT 'a \nb' FROM t" ∧
    ChangesTokens "SELECT a # \nFROM t" ∧ ChangesTokens "SELECT a #\t\nFROM t" := by
  decide +kernel

end Relocate.Sql
