import Relocate.Proofs.Sql.Offsets

/-!
# Laying a text out keeps its tokens

A break puts a line feed in the place of the blanks in front of a clause keyword.  The
token in front of those blanks is still read from the same characters unless it clings to
them: a word may end in a blank (`#` followed by a tab), and `#`, `@` and `@@` take the
line feed for their own next character (`Written.Clings`).  When no break follows such a
token, the laid out text has the same tokens on the same lines (`exists_relaid`), so it is
broken at the same places and laying it out again changes nothing.
-/

namespace Relocate.Sql

open Text Lexer Written

namespace Written

/-! ## Ends of lines -/

/-- The token goes on, or loses its own end, when the blanks behind it give way to a line
feed. -/
def Clings (piece : Written) : Prop :=
  piece.token.isBlank = false ∧
    (piece.token.TakesNewline ∨ ∃ c ∈ piece.text.getLast?, isBlank c = true)

instance : DecidablePred Clings := fun piece =>
  decidable_of_iff (piece.token.isBlank = false ∧
    (piece.token.TakesNewline ∨ piece.text.getLast?.any isBlank = true)) <| by
    simp only [Clings, Option.any_eq_true, Option.mem_def]

/-- The last of some tokens that is not made of blanks. -/
def lastVisible (line : List Written) : Option Written :=
  line.reverse.find? fun piece => !(visible piece.text).isEmpty

/-- The blanks at the end of the line may give way to a line feed. -/
def Loose (line : List Written) : Prop :=
  ∀ piece ∈ lastVisible line, ¬ piece.Clings

instance : DecidablePred Loose := fun line =>
  inferInstanceAs (Decidable (∀ piece ∈ lastVisible line, ¬ piece.Clings))

/-- A line feed, as a token. -/
def newline : Written := white '\n'

/-- A space, as a token. -/
def space : Written := white ' '

theorem reads_newline (before : Option Token) (rest : List Char) : Reads before newline rest :=
  reads_white rfl (fun heq => absurd heq (by decide)) before

theorem reads_space (before : Option Token) (rest : List Char) : Reads before space rest :=
  reads_white rfl (fun heq => absurd heq (by decide)) before

theorem AllRead.of_append
    {before : Option Token} {front back : List Written} (h : AllRead before (front ++ back)) :
    ∃ between, AllRead between back := by
  induction front generalizing before with
  | nil => exact ⟨before, h⟩
  | cons piece front ih =>
      cases h with
      | cons _ hrest => exact ih hrest

theorem numberOrPoint_not_word
    {before : Option Token} {c : Char} {rest : List Char} {place : Location} {ident : Ident}
    {cursor : Cursor} : numberOrPoint before c rest place ≠ reached (.word ident) cursor := by
  intro h
  simp only [numberOrPoint] at h
  repeat' split at h
  all_goals cases h

/-- A word may be read behind any other token. -/
theorem Reads.word
    {before : Option Token} {ident : Ident} {text rest : List Char}
    (h : Reads before ⟨.word ident, text⟩ rest) (before' : Option Token) :
    Reads before' ⟨.word ident, text⟩ rest := by
  refine h.follow (MayFollow.refl _ _) ?_
  obtain ⟨c, back, rfl, hread⟩ := h
  rintro ⟨⟩
  exact absurd (hread Location.start) numberOrPoint_not_word

theorem AllRead.word
    {before : Option Token} {ident : Ident} {text : List Char} {rest : List Written}
    (h : AllRead before (⟨.word ident, text⟩ :: rest)) (before' : Option Token) :
    AllRead before' (⟨.word ident, text⟩ :: rest) := by
  cases h with
  | cons hfirst hrest => exact .cons (hfirst.word before') hrest

/-- Spaces may be read behind any token, and a word behind them. -/
theorem AllRead.indent
    {before : Option Token} {ident : Ident} {text : List Char} {rest : List Written}
    (h : AllRead before (⟨.word ident, text⟩ :: rest)) (width : Nat) (before' : Option Token) :
    AllRead before' (List.replicate width space ++ ⟨.word ident, text⟩ :: rest) := by
  induction width generalizing before' with
  | zero => exact h.word before'
  | succ width ih => exact .cons (reads_space before' _) (ih _)

theorem spelled_spaces (width : Nat) :
    spelled (List.replicate width space) = List.replicate width ' ' := by
  induction width with
  | zero => rfl
  | succ width ih => rw [List.replicate_succ, spelled_cons, ih]; rfl

theorem significant_spaces (width : Nat) : significant (List.replicate width space) = [] := by
  induction width with
  | zero => rfl
  | succ width ih => rw [List.replicate_succ, significant_blank rfl, ih]

section

variable {before : Option Token} {piece : Written} {line back more : List Written}

theorem lastVisible_cons (piece : Written) (line : List Written) :
    lastVisible (piece :: line) =
      (lastVisible line).or (if visible piece.text = [] then none else some piece) := by
  rw [lastVisible, List.reverse_cons, List.find?_append, ← lastVisible]
  by_cases hvisible : visible piece.text = [] <;> simp [hvisible]

theorem lastVisible_eq_none_iff : lastVisible line = none ↔ visible (spelled line) = [] := by
  induction line with
  | nil => exact ⟨fun _ => rfl, fun _ => rfl⟩
  | cons piece line ih =>
      rw [lastVisible_cons, spelled_cons, visible_append, List.append_eq_nil_iff, ← ih]
      by_cases hvisible : visible piece.text = [] <;> simp [hvisible]

theorem Loose.tail (h : Loose (piece :: line)) : Loose line := by
  intro last hlast
  refine h last ?_
  rw [lastVisible_cons, Option.mem_def.mp hlast]
  rfl

theorem Loose.head
    (h : Loose (piece :: line)) (hblank : visible (spelled line) = [])
    (hvisible : visible piece.text ≠ []) : ¬ piece.Clings := by
  refine h piece ?_
  rw [lastVisible_cons, lastVisible_eq_none_iff.mpr hblank, if_neg hvisible]
  rfl

theorem Reads.visible_ne_nil
    {rest : List Char} (h : Reads before piece rest) (hblank : piece.token.isBlank = false) :
    visible piece.text ≠ [] := by
  obtain ⟨c, text, htext, hc⟩ := h.exists_visible hblank
  intro hnil
  rw [visible_eq_nil_iff.mp hnil c (htext ▸ List.mem_cons_self)] at hc
  cases hc

/-- Tokens that are made of blanks have no meaning. -/
theorem significant_eq_nil
    (h : AllRead before (line ++ back)) (hblank : visible (spelled line) = []) :
    significant line = [] := by
  induction line generalizing before with
  | nil => rfl
  | cons piece line ih =>
      cases h with
      | cons hfirst hrest =>
      rw [spelled_cons, visible_append, List.append_eq_nil_iff] at hblank
      obtain ⟨hpiece, hline⟩ := hblank
      have htoken : piece.token.isBlank = true := by
        by_contra hnot
        exact hfirst.visible_ne_nil (Bool.not_eq_true _ ▸ hnot) hpiece
      rw [significant_blank htoken, ih hrest hline]

/-- What the last token of a line that is not made of blanks becomes in front of a line
feed: itself, or a comment without the blanks at its end. -/
structure Ended (before : Option Token) (piece : Written) (line more : List Written) : Prop where
  text : spelled line = trimEnd piece.text ++ ['\n']
  read : AllRead before (line ++ more)
  same : significant line = significant [piece]
  head : piece.token.isBlank = false → ∃ rest, line = piece :: rest

/-- A token whose last character is visible stays in front of a line feed. -/
theorem Reads.ended
    {rest : List Char} (h : Reads before piece rest) (htrim : trimEnd piece.text = piece.text)
    (hline : ¬ piece.token.TakesNewline) (hmore : AllRead (some newline.token) more) :
    Ended before piece [piece, newline] more := by
  have hfirst : Reads before piece (spelled (newline :: more)) :=
    h.follow ⟨Narrows.newline _ _, fun htakes => absurd htakes hline⟩ fun _ hword => hword
  refine ⟨?_, .cons hfirst (.cons (reads_newline _ _) hmore), ?_, fun _ => ⟨[newline], rfl⟩⟩
  · rw [htrim, spelled_cons]
    rfl
  · cases hblank : piece.token.isBlank with
    | true => rw [significant_blank hblank, significant_blank hblank]; rfl
    | false => rw [significant_cons hblank, significant_cons hblank]; rfl

theorem ended_white
    (hblank : piece.token.isBlank = true) (htext : ∀ c ∈ piece.text, isBlank c = true)
    (hmore : AllRead (some newline.token) more) : Ended before piece [newline] more := by
  refine ⟨?_, .cons (reads_newline before _) hmore, ?_, ?_⟩
  · rw [trimEnd_eq_nil_iff.mpr htext]
    rfl
  · rw [significant_blank hblank]
    rfl
  · rw [hblank]
    exact nofun

/-- A comment that takes the rest of its line, as a token. -/
def remark (front : List Char) : Written :=
  ⟨.blank (String.ofList ('-' :: '-' :: front ++ ['\n'])), '-' :: '-' :: front ++ ['\n']⟩

theorem reads_remark {front : List Char} (hfront : '\n' ∉ front) (before : Option Token)
    (rest : List Char) : Reads before (remark front) rest := by
  refine ⟨'-', '-' :: front ++ ['\n'], rfl, fun place => ?_⟩
  have hread := @next_comment front ('\n' :: rest) hfront (by simp) before place
  simpa [remark] using hread

theorem ended_remark
    {front ending : List Char} (hfront : '\n' ∉ front) (hending : trimEnd ending = [])
    (htext : piece.text = '-' :: '-' :: front ++ ending) (hblank : piece.token.isBlank = true)
    (hmore : ∀ text, AllRead (some (.blank text)) more) :
    Ended before piece [remark (trimEnd front)] more := by
  have htrim : trimEnd piece.text = '-' :: '-' :: trimEnd front := by
    rw [htext, List.cons_append, List.cons_append, trimEnd_cons_visible (by decide),
      trimEnd_cons_visible (by decide), trimEnd_append, if_pos hending]
  obtain ⟨gap, hgap, -⟩ := exists_eq_trimEnd_append front
  have hline : '\n' ∉ trimEnd front := fun hmem => hfront (hgap ▸ List.mem_append_left gap hmem)
  refine ⟨?_, .cons (reads_remark hline before _) (hmore _), ?_, ?_⟩
  · rw [htrim]
    exact List.append_nil _
  · rw [significant_blank hblank]
    rfl
  · rw [hblank]
    exact nofun

theorem Reads.exists_ended
    {rest : List Char} (h : Reads before piece rest)
    (hloose : visible piece.text ≠ [] → ¬ piece.Clings)
    (hmore : ∀ text, AllRead (some (.blank text)) more) :
    ∃ line, Ended before piece line more := by
  cases h.kind with
  | white hblank htext => exact ⟨_, ended_white hblank htext (hmore _)⟩
  | remark hfront hending =>
      have hblank : ∀ ending, ending = ['\n'] ∨ ending = [] ∧ rest = [] →
          trimEnd ending = [] := by
        rintro _ (rfl | ⟨rfl, -⟩) <;> rfl
      exact ⟨_, ended_remark hfront (hblank _ hending) rfl rfl hmore⟩
  | block front =>
      have htext : '/' :: '*' :: (front ++ ['*', '/']) =
          ('/' :: '*' :: front ++ ['*']) ++ ['/'] := by
        simp
      refine ⟨_, h.ended ?_ ?_ (hmore _)⟩
      · rw [htext]
        exact trimEnd_concat (by decide)
      · rintro (heq | ⟨⟨rest, hrest⟩, -⟩)
        · have hchars := congrArg String.toList heq
          rw [String.toList_ofList] at hchars
          cases hchars
        · rw [String.toList_ofList] at hrest
          cases hrest
  | meaningful hblank =>
      have hcling := hloose (h.visible_ne_nil hblank)
      refine ⟨_, h.ended ?_ (fun htakes => hcling ⟨hblank, .inl htakes⟩) (hmore _)⟩
      obtain ⟨front, c, htext⟩ := List.eq_nil_or_concat' piece.text |>.resolve_left h.ne_nil
      have hlast : c ∈ piece.text.getLast? := htext ▸ List.getLast?_concat
      rw [htext]
      exact trimEnd_concat (Bool.eq_false_iff.mpr fun hc => hcling ⟨hblank, .inr ⟨c, hlast, hc⟩⟩)

/-- In front of visible text, the blanks behind that text may give way to a line feed. -/
theorem Reads.broken
    {text rest : List Char} (h : Reads before piece (text ++ rest)) (htrim : trimEnd text ≠ [])
    (other : List Char) : Reads before piece (trimEnd text ++ '\n' :: other) := by
  obtain ⟨gap, hgap, -⟩ := exists_eq_trimEnd_append text
  have hold : text ++ rest = trimEnd text ++ (gap ++ rest) := by
    rw [← List.append_assoc, ← hgap]
  rw [hold] at h
  refine h.follow ⟨(Narrows.newline _ _).append _, fun _ hline => ?_⟩ fun _ hword => hword
  rwa [List.head?_append_of_ne_nil _ htrim] at hline ⊢

/-- A line whose blanks at the end give way to a line feed keeps its tokens. -/
theorem exists_trimmed
    (h : AllRead before (line ++ back)) (hloose : Loose line)
    (hmore : ∀ text, AllRead (some (.blank text)) more) :
    ∃ line', spelled line' = trimEnd (spelled line) ++ ['\n'] ∧ AllRead before (line' ++ more) ∧
      significant line' = significant line ∧
      ∀ piece rest, line = piece :: rest → piece.token.isBlank = false →
        ∃ rest', line' = piece :: rest' := by
  induction line generalizing before with
  | nil =>
      exact ⟨[newline], rfl, .cons (reads_newline before _) (hmore _), rfl, nofun⟩
  | cons piece line ih =>
      cases h with
      | cons hfirst hrest =>
      by_cases hvisible : visible (spelled line) = []
      · have htrim : trimEnd (spelled line) = [] :=
          trimEnd_eq_nil_iff.mpr (visible_eq_nil_iff.mp hvisible)
        obtain ⟨line', hspelled, hread, hsame, hhead⟩ :=
          hfirst.exists_ended (hloose.head hvisible) hmore
        refine ⟨line', ?_, hread, ?_, ?_⟩
        · rw [spelled_cons, trimEnd_append, if_pos htrim, hspelled]
        · have happend : significant (piece :: line) = significant [piece] ++ significant line :=
            significant_append [piece] line
          rw [hsame, happend, significant_eq_nil hrest hvisible, List.append_nil]
        · rintro _ _ ⟨⟩ hblank
          exact hhead hblank
      · obtain ⟨line', hspelled, hread, hsame, -⟩ := ih hrest hloose.tail
        have htrim : trimEnd (spelled line) ≠ [] := fun hnil =>
          hvisible (visible_eq_nil_iff.mpr (trimEnd_eq_nil_iff.mp hnil))
        refine ⟨piece :: line', ?_, .cons ?_ hread, ?_, ?_⟩
        · rw [spelled_cons, spelled_cons, trimEnd_append, if_neg htrim, hspelled,
            List.append_assoc]
        · have hnew : spelled (line' ++ more) = trimEnd (spelled line) ++ '\n' :: spelled more := by
            rw [spelled_append, hspelled, List.append_assoc, List.singleton_append]
          rw [List.append_eq, spelled_append] at hfirst
          rw [List.append_eq, hnew]
          exact hfirst.broken htrim _
        · cases hblank : piece.token.isBlank with
          | true => rw [significant_blank hblank, significant_blank hblank, hsame]
          | false => rw [significant_cons hblank, significant_cons hblank, hsame]
        · rintro _ _ ⟨⟩ _
          exact ⟨line', rfl⟩

end

/-! ## All lines -/

theorem trimEnd_broken (text : List Char) (width : Nat) :
    trimEnd (trimEnd text ++ ['\n'] ++ List.replicate width ' ') = trimEnd text := by
  have hblank : trimEnd (['\n'] ++ List.replicate width ' ') = [] := by
    rw [trimEnd_eq_nil_iff]
    intro c hc
    rcases List.mem_append.mp hc with hc | hc
    · rw [List.mem_singleton.mp hc]
      rfl
    · rw [List.eq_of_mem_replicate hc]
      rfl
  rw [List.append_assoc, trimEnd_append, if_pos hblank, trimEnd_trimEnd]

/-- The tokens of the laid out text, line by line: the same ones on the same lines, and
lines that are put together to the same text again. -/
structure Relaid (before : Option Token) (line : List Written) (lines : List (Nat × List Written))
    (line' : List Written) (lines' : List (Nat × List Written)) : Prop where
  read : AllRead before (line' ++ lines'.flatMap Prod.snd)
  first : significant line' = significant line
  others : Layout.SameLines lines lines'
  text : spelled (line' ++ lines'.flatMap Prod.snd) =
    Layout.assemble (spelled line) (Layout.lineTexts lines)
  again : Layout.assemble (spelled line') (Layout.lineTexts lines') =
    Layout.assemble (spelled line) (Layout.lineTexts lines)
  head : ∀ piece rest, line = piece :: rest → piece.token.isBlank = false →
    ∃ rest', line' = piece :: rest'

theorem exists_relaid
    {before : Option Token} {line : List Written} {lines : List (Nat × List Written)}
    (h : AllRead before (line ++ lines.flatMap Prod.snd))
    (hstarts : ∀ line ∈ lines, Layout.StartsWithWord line.2)
    (hloose : ∀ ended ∈ (line :: lines.map Prod.snd).dropLast, Loose ended) :
    ∃ line' lines', Relaid before line lines line' lines' := by
  -- The lines behind are laid out first.  They start with the same word, so this line may
  -- end in a line feed and the indentation in front of it.
  induction lines generalizing before line with
  | nil =>
      refine ⟨line, [], h, rfl, .nil, ?_, rfl, fun _ rest hline _ => ⟨rest, hline⟩⟩
      rw [List.flatMap_nil, List.append_nil]
      rfl
  | cons next lines ih =>
      obtain ⟨depth, next⟩ := next
      obtain ⟨ident, text, rest, rfl⟩ := hstarts (depth, next) List.mem_cons_self
      rw [List.flatMap_cons] at h
      obtain ⟨between, hback⟩ := h.of_append
      obtain ⟨next', lines', hread, hsame, hlines, hspelled, hagain, hhead⟩ :=
        ih hback (fun other hother => hstarts other (List.mem_cons_of_mem _ hother))
          fun ended hended => hloose ended (List.mem_cons_of_mem _ hended)
      obtain ⟨rest', rfl⟩ := hhead _ _ rfl rfl
      let spaces := List.replicate (depth * Layout.indentWidth) space
      have hmore : ∀ text, AllRead (some (.blank text))
          (spaces ++ (⟨.word ident, _⟩ :: rest' ++ lines'.flatMap Prod.snd)) :=
        fun _ => hread.indent _ _
      obtain ⟨front, hfront, hall, hkept, hfirst⟩ :=
        exists_trimmed h (hloose line List.mem_cons_self) hmore
      refine ⟨front ++ spaces, (depth, _ :: rest') :: lines', ?_, ?_, .cons rfl ?_ hlines, ?_, ?_,
        ?_⟩
      · rw [List.flatMap_cons, List.append_assoc]
        exact hall
      · rw [significant_append, significant_spaces, List.append_nil, hkept]
      · rw [significant_cons rfl, significant_cons rfl] at hsame
        exact (List.cons.inj hsame).2
      · rw [List.flatMap_cons, spelled_append, spelled_append, hspelled, hfront, spelled_spaces]
        simp [Layout.lineTexts, Layout.assemble]
      · have hends : trimEnd (spelled (front ++ spaces)) = trimEnd (spelled line) := by
          rw [spelled_append, hfront, spelled_spaces, trimEnd_broken]
        simp only [Layout.lineTexts, List.map_cons, Layout.assemble] at hagain ⊢
        rw [hends, hagain]
      · rintro piece more hline hblank
        obtain ⟨more', hmore'⟩ := hfirst piece more hline hblank
        exact ⟨more' ++ spaces, by rw [hmore']; rfl⟩

end Written

open Layout

/-- The lines of a text in front of its breaks. -/
def Written.brokenLines (pieces : List Written) : List (List Written) :=
  ((laidOut pieces).1 :: (laidOut pieces).2.map Prod.snd).dropLast

/-- Laying a text out keeps its significant tokens with their characters, and does
nothing to a text that is laid out. -/
theorem exists_reindent_again
    {sql : String} {pieces : List Written} (h : written sql = .ok pieces)
    (hloose : ∀ line ∈ brokenLines pieces, Loose line) :
    ∃ out pieces', reindent sql = .ok out ∧ written out = .ok pieces' ∧
      significant pieces' = significant pieces ∧ reindent out = .ok out := by
  obtain ⟨-, hall⟩ := written_eq_ok_iff.mp h
  have hfits := fits_allDepths pieces
  have hflatten := hfits.flatten
  rw [← hflatten] at hall
  obtain ⟨line', lines', hread, hline, hlines, hspelled, hagain, -⟩ :=
    exists_relaid hall hfits.starts hloose
  let out := assemble (spelled (laidOut pieces).1) (lineTexts (laidOut pieces).2)
  have hwritten : written (String.ofList out) = .ok (line' ++ lines'.flatMap Prod.snd) := by
    rw [written_eq_ok_iff, String.toList_ofList]
    exact ⟨hspelled, hread⟩
  have hsame : significant (line' ++ lines'.flatMap Prod.snd) = significant pieces := by
    rw [significant_append, hline, significant_flatten hlines, ← significant_append, hflatten]
  have hlaid : laidOut (line' ++ lines'.flatMap Prod.snd) = (line', lines') := by
    rw [laidOut, hsame]
    exact divide_sameLines hfits hline hlines
  refine ⟨String.ofList out, _, reindent_eq h, hwritten, hsame, ?_⟩
  rw [reindent_eq hwritten, hlaid]
  exact congrArg (fun text => Except.ok (String.ofList text)) hagain

/-- A text that has tokens is laid out, also when it is cut by its bytes.  Where no break
follows a token that clings, the result has the same significant tokens, each read from
the same characters, and laying it out again changes nothing. -/
theorem reindent_keeps_tokens
    {sql : String} {pieces : List Written} (h : written sql = .ok pieces) :
    ∃ tokens out, significantTokens sql = .ok tokens ∧ reindent sql = .ok out ∧
      slices? sql.toList (allBreaks tokens) = some out.toList ∧
      ((∀ line ∈ brokenLines pieces, Loose line) →
        (∃ pieces', written out = .ok pieces' ∧ significant pieces' = significant pieces) ∧
          reindent out = .ok out) := by
  obtain ⟨tokens, text, htokens, hout, hslices⟩ := slices?_eq h
  refine ⟨tokens, String.ofList text, htokens, hout, ?_, ?_⟩
  · rw [String.toList_ofList]
    exact hslices
  · intro hloose
    obtain ⟨out, pieces', hout', hwritten, hsame, hagain⟩ := exists_reindent_again h hloose
    rw [hout] at hout'
    cases hout'
    exact ⟨⟨pieces', hwritten, hsame⟩, hagain⟩

/-- A derived table with a clause of its own, remarks, and constants and names in quotes
that are no layout whatever they look like. -/
def nestedSelect : String :=
  "SELECT é, 'a  FROM\nb' FROM (SELECT \"Größe\", x /* WHERE */ FROM t\n WHERE x IN (1, 2)) u" ++
    " -- ü\n WHERE v = 'ü'"

/-- Four breaks, two of them inside of parentheses. -/
theorem reindent_keeps_tokens_select :
    ∃ pieces, written nestedSelect = .ok pieces ∧ (brokenLines pieces).length = 4 ∧
      (∀ line ∈ brokenLines pieces, Loose line) ∧ ∃ out,
      reindent nestedSelect = .ok out ∧
        out = "SELECT é, 'a  FROM\nb'\nFROM (SELECT \"Größe\", x /* WHERE */\n  FROM t\n" ++
          "  WHERE x IN (1, 2)) u -- ü\nWHERE v = 'ü'" ∧
        (∃ pieces', written out = .ok pieces' ∧ significant pieces' = significant pieces) ∧
          reindent out = .ok out := by
  let pieces : List Written := (written nestedSelect).toOption.getD []
  have hpieces : written nestedSelect = .ok pieces := by decide +kernel
  have hbreaks : (brokenLines pieces).length = 4 := by decide +kernel
  have hloose : ∀ line ∈ brokenLines pieces, Loose line := by decide +kernel
  have htext : reindent nestedSelect =
      .ok ("SELECT é, 'a  FROM\nb'\nFROM (SELECT \"Größe\", x /* WHERE */\n  FROM t\n" ++
        "  WHERE x IN (1, 2)) u -- ü\nWHERE v = 'ü'") := by
    decide +kernel
  obtain ⟨tokens, out, -, hout, -, hsame⟩ := reindent_keeps_tokens hpieces
  exact ⟨pieces, hpieces, hbreaks, hloose, out, hout, Except.ok.inj (hout.symm.trans htext),
    hsame hloose⟩

/-- The tab is part of the word `#\t`.  A break takes it away, and the line feed in its
place joins the word to the keyword behind it. -/
theorem reindent_cuts_word :
    (written "SELECT #\t FROM t").map significant = .ok [
      ⟨.word (.bare "SELECT"), "SELECT".toList⟩, ⟨.word (.bare "#\t"), "#\t".toList⟩,
      ⟨.word (.bare "FROM"), "FROM".toList⟩, ⟨.word (.bare "t"), "t".toList⟩] ∧
    reindent "SELECT #\t FROM t" = .ok "SELECT #\nFROM t" ∧
    (written "SELECT #\nFROM t").map significant = .ok [
      ⟨.word (.bare "SELECT"), "SELECT".toList⟩,
      ⟨.word (.bare "#\nFROM"), "#\nFROM".toList⟩, ⟨.word (.bare "t"), "t".toList⟩] :=
  ⟨by decide +kernel, by decide +kernel, by decide +kernel⟩

end Relocate.Sql
