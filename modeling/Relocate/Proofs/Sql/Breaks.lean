import Relocate.Proofs.Sql.Written

/-!
# The lines of a layout

Whether a token starts a line depends on the tokens alone: `advance` says what one token
does, and `depths` lists for each token the depth at which it starts a line.  `divide`
cuts the tokens of a text at those that start lines, and `reindent` cuts its characters
at the same places (`reindent_eq`).
-/

namespace Relocate.Sql

open Text Written

namespace Layout

/-! ## The tokens that start lines -/

/-- What one token does to the layout: the depth at which it starts a line, if it starts
one, and what is open behind it. -/
def advance (before : Token) (opened : List Bool) (token : Token) (after : String) :
    Option Nat × List Bool :=
  match token with
  | .symbol "(" => (none, false :: opened)
  | .symbol ")" => (none, opened.drop 1)
  | .word _ =>
    if before = .symbol "(" ∧ (token.keyword = "SELECT" ∨ token.keyword = "WITH") then
      (none, true :: opened.drop 1)
    else if opened.headD true && startsClause before.keyword token.keyword after then
      (some (opened.countP id), opened)
    else (none, opened)
  | _ => (none, opened)

/-- The keyword of the first token. -/
def firstKeyword (tokens : List Token) : String :=
  (tokens.head?.map Token.keyword).getD ""

/-- For each token the depth at which it starts a line, if it starts one. -/
def depths (before : Token) (opened : List Bool) : List Token → List (Option Nat)
  | [] => []
  | token :: rest =>
    let (depth, opened) := advance before opened token (firstKeyword rest)
    depth :: depths token opened rest

/-- The places of the tokens that start lines. -/
def breaksOf : List (Option Nat) → List Placed → List Break
  | some depth :: depths, placed :: rest => ⟨placed.place, depth⟩ :: breaksOf depths rest
  | none :: depths, _ :: rest => breaksOf depths rest
  | _, _ => []

theorem breaks_cons (before token : Token) (opened : List Bool) (place : Location)
    (rest : List Placed) :
    breaks before opened (⟨token, place⟩ :: rest) =
      let (depth, opened) := advance before opened token (firstKeyword (rest.map Placed.token))
      (depth.map fun depth => ⟨place, depth⟩).toList ++ breaks token opened rest := by
  have hkeyword : firstKeyword (rest.map Placed.token) =
      (rest.head?.map fun next => next.token.keyword).getD "" := by
    cases rest <;> rfl
  rw [hkeyword]
  cases token with
  | symbol text =>
      by_cases hopens : text = "("
      · subst hopens
        rfl
      · by_cases hcloses : text = ")"
        · subst hcloses
          rfl
        · simp [breaks, advance, hopens, hcloses]
  | word ident =>
      simp only [breaks, advance]
      split
      · rfl
      · split <;> rfl
  | number | quoted | dollarQuoted | placeholder | blank => rfl

theorem breaks_eq (before : Token) (opened : List Bool) (tokens : List Placed) :
    breaks before opened tokens =
      breaksOf (depths before opened (tokens.map Placed.token)) tokens := by
  induction tokens generalizing before opened with
  | nil => rfl
  | cons placed rest ih =>
      rw [breaks_cons, List.map_cons, depths]
      simp only [ih]
      cases (advance before opened placed.token (firstKeyword (rest.map Placed.token))).1 <;> rfl

/-- The depths of a whole text; its first token starts no line. -/
def allDepths : List Token → List (Option Nat)
  | [] => []
  | token :: rest => none :: depths token (if token = .symbol "(" then [false] else []) rest

theorem allBreaks_eq (tokens : List Placed) :
    allBreaks tokens = breaksOf (allDepths (tokens.map Placed.token)) tokens := by
  cases tokens with
  | nil => rfl
  | cons placed rest => exact breaks_eq _ _ _

/-- Only words start lines. -/
theorem advance_eq_some {before token : Token} {opened : List Bool} {after : String} {depth : Nat}
    (h : (advance before opened token after).1 = some depth) : ∃ ident, token = .word ident := by
  unfold advance at h
  split at h
  · cases h
  · cases h
  · exact ⟨_, rfl⟩
  · cases h

/-- The depth belongs to a word, if there is one. -/
def Opens (depth : Option Nat) (token : Token) : Prop :=
  depth.isSome → ∃ ident, token = .word ident

theorem depths_open (before : Token) (opened : List Bool) (tokens : List Token) :
    List.Forall₂ Opens (depths before opened tokens) tokens := by
  induction tokens generalizing before opened with
  | nil => exact .nil
  | cons token rest ih =>
      refine .cons ?_ (ih _ _)
      intro hdepth
      obtain ⟨depth, hdepth⟩ := Option.isSome_iff_exists.mp hdepth
      exact advance_eq_some hdepth

theorem allDepths_open (tokens : List Token) : List.Forall₂ Opens (allDepths tokens) tokens := by
  cases tokens with
  | nil => exact .nil
  | cons token rest => exact .cons nofun (depths_open _ _ _)

/-! ## The tokens of the lines -/

/-- The tokens of the first line, and for each break its depth and the tokens of the line
behind it. -/
def divide : List (Option Nat) → List Written → List Written × List (Nat × List Written)
  | _, [] => ([], [])
  | depths, piece :: rest =>
    if piece.token.isBlank then
      let (line, lines) := divide depths rest
      (piece :: line, lines)
    else
      match depths with
      | some depth :: depths =>
        let (line, lines) := divide depths rest
        ([], (depth, piece :: line) :: lines)
      | depths =>
        let (line, lines) := divide (depths.drop 1) rest
        (piece :: line, lines)

/-- The characters of the lines behind the breaks. -/
def lineTexts (lines : List (Nat × List Written)) : List (Nat × List Char) :=
  lines.map fun line => (line.1, spelled line.2)

/-- The line begins with a word. -/
def StartsWithWord (line : List Written) : Prop :=
  ∃ ident text rest, line = ⟨.word ident, text⟩ :: rest

section

variable {piece : Written}

theorem divide_blank (h : piece.token.isBlank = true) (depths : List (Option Nat))
    (rest : List Written) :
    divide depths (piece :: rest) = (piece :: (divide depths rest).1, (divide depths rest).2) := by
  simp only [divide, if_pos h]

theorem divide_break (h : piece.token.isBlank = false) (depth : Nat) (depths : List (Option Nat))
    (rest : List Written) :
    divide (some depth :: depths) (piece :: rest) =
      ([], (depth, piece :: (divide depths rest).1) :: (divide depths rest).2) := by
  simp only [divide, h, Bool.false_eq_true, if_false]

theorem divide_none (h : piece.token.isBlank = false) (depths : List (Option Nat))
    (rest : List Written) :
    divide (none :: depths) (piece :: rest) =
      (piece :: (divide depths rest).1, (divide depths rest).2) := by
  simp only [divide, h, Bool.false_eq_true, if_false, List.drop_succ_cons, List.drop_zero]

end

/-- Depths for the significant tokens of a text; those at which lines start belong to
words. -/
inductive Fits : List (Option Nat) → List Written → Prop
  | nil : Fits [] []
  | blank {piece : Written} {depths : List (Option Nat)} {rest : List Written}
      (hblank : piece.token.isBlank = true) (hrest : Fits depths rest) :
      Fits depths (piece :: rest)
  | word {depth : Nat} {ident : Ident} {text : List Char} {depths : List (Option Nat)}
      {rest : List Written} (hrest : Fits depths rest) :
      Fits (some depth :: depths) (⟨.word ident, text⟩ :: rest)
  | other {piece : Written} {depths : List (Option Nat)} {rest : List Written}
      (hblank : piece.token.isBlank = false) (hrest : Fits depths rest) :
      Fits (none :: depths) (piece :: rest)

theorem fits_of_opens
    {depths : List (Option Nat)} {pieces : List Written}
    (h : List.Forall₂ Opens depths ((significant pieces).map Written.token)) :
    Fits depths pieces := by
  induction pieces generalizing depths with
  | nil =>
      cases h
      exact .nil
  | cons piece rest ih =>
      cases hblank : piece.token.isBlank with
      | true =>
          rw [significant_blank hblank] at h
          exact .blank hblank (ih h)
      | false =>
          rw [significant_cons hblank, List.map_cons] at h
          obtain ⟨depth, depths, hdepth, hrest, rfl⟩ := List.forall₂_cons_right_iff.mp h
          cases depth with
          | none => exact .other hblank (ih hrest)
          | some depth =>
              obtain ⟨ident, hword⟩ := hdepth rfl
              obtain ⟨token, text⟩ := piece
              obtain rfl : token = .word ident := hword
              exact .word (ih hrest)

theorem fits_allDepths (pieces : List Written) :
    Fits (allDepths ((significant pieces).map Written.token)) pieces :=
  fits_of_opens (allDepths_open _)

section

variable {ds : List (Option Nat)} {pieces : List Written}

/-- Dividing the tokens loses none. -/
theorem Fits.flatten (h : Fits ds pieces) :
    (divide ds pieces).1 ++ (divide ds pieces).2.flatMap Prod.snd = pieces := by
  induction h with
  | nil => rfl
  | blank hblank _ ih => rw [divide_blank hblank, List.cons_append, ih]
  | word _ ih => rw [divide_break rfl, List.nil_append, List.flatMap_cons, List.cons_append, ih]
  | other hblank _ ih => rw [divide_none hblank, List.cons_append, ih]

theorem Fits.starts (h : Fits ds pieces) :
    ∀ line ∈ (divide ds pieces).2, StartsWithWord line.2 := by
  induction h with
  | nil => exact fun line hline => absurd hline List.not_mem_nil
  | blank hblank _ ih =>
      rw [divide_blank hblank]
      exact ih
  | @word depth ident text _ _ _ ih =>
      rw [divide_break rfl]
      rintro line (_ | ⟨_, hline⟩)
      · exact ⟨ident, text, _, rfl⟩
      · exact ih line hline
  | other hblank _ ih =>
      rw [divide_none hblank]
      exact ih

/-- The breaks are where the lines behind them start. -/
theorem Fits.breaksOf (h : Fits ds pieces) (place : Location) :
    Layout.breaksOf ds ((placed place pieces).filter fun placed => !placed.token.isBlank) =
      breaksFrom (place.after (spelled (divide ds pieces).1))
        (lineTexts (divide ds pieces).2) := by
  induction h generalizing place with
  | nil => rfl
  | @blank piece depths rest hblank _ ih =>
      rw [divide_blank hblank, spelled_cons, Lexer.after_append, ← ih, placed,
        List.filter_cons_of_neg (by simp [hblank])]
  | @word depth ident text depths rest _ ih =>
      rw [divide_break rfl, placed, List.filter_cons_of_pos rfl, Layout.breaksOf, ih,
        ← Lexer.after_append, ← spelled_cons ⟨.word ident, text⟩]
      rfl
  | @other piece depths rest hblank _ ih =>
      rw [divide_none hblank, spelled_cons, Lexer.after_append, ← ih, placed,
        List.filter_cons_of_pos (by simp [hblank]), Layout.breaksOf]

end

/-! ## Lines with the same tokens -/

/-- The lines hold the same significant tokens, and start with the same words. -/
inductive SameLines : List (Nat × List Written) → List (Nat × List Written) → Prop
  | nil : SameLines [] []
  | cons {depth : Nat} {piece : Written} {line line' : List Written}
      {lines lines' : List (Nat × List Written)} (hblank : piece.token.isBlank = false)
      (hline : significant line' = significant line) (hlines : SameLines lines lines') :
      SameLines ((depth, piece :: line) :: lines) ((depth, piece :: line') :: lines')

theorem significant_flatten
    {lines lines' : List (Nat × List Written)} (h : SameLines lines lines') :
    significant (lines'.flatMap Prod.snd) = significant (lines.flatMap Prod.snd) := by
  induction h with
  | nil => rfl
  | cons hblank hline _ ih =>
      rw [List.flatMap_cons, List.flatMap_cons, significant_append, significant_append, ih,
        significant_cons hblank, significant_cons hblank, hline]

/-- Tokens that start no line stay on theirs. -/
theorem divide_append
    (line rest : List Written) (ds : List (Option Nat)) :
    divide ((significant line).map (fun _ => none) ++ ds) (line ++ rest) =
      (line ++ (divide ds rest).1, (divide ds rest).2) := by
  induction line with
  | nil => rfl
  | cons piece line ih =>
      cases hblank : piece.token.isBlank with
      | true => rw [significant_blank hblank, List.cons_append, divide_blank hblank, ih]; rfl
      | false =>
          rw [significant_cons hblank, List.map_cons, List.cons_append, List.cons_append,
            divide_none hblank, ih]
          rfl

/-- The depths of the tokens of the lines behind the breaks. -/
inductive Marks : List (Option Nat) → List (Nat × List Written) → Prop
  | nil : Marks [] []
  | cons {depth : Nat} {piece : Written} {line : List Written} {ds : List (Option Nat)}
      {lines : List (Nat × List Written)} (hlines : Marks ds lines) :
      Marks (some depth :: ((significant line).map (fun _ => none) ++ ds))
        ((depth, piece :: line) :: lines)

theorem Fits.marks {ds : List (Option Nat)} {pieces : List Written} (h : Fits ds pieces) :
    ∃ more, ds = (significant (divide ds pieces).1).map (fun _ => none) ++ more ∧
      Marks more (divide ds pieces).2 := by
  induction h with
  | nil => exact ⟨[], rfl, .nil⟩
  | blank hblank _ ih =>
      rw [divide_blank hblank, significant_blank hblank]
      exact ih
  | @word depth ident text depths rest _ ih =>
      obtain ⟨more, hdepths, hmore⟩ := ih
      rw [divide_break rfl]
      have hcons := @Marks.cons depth ⟨.word ident, text⟩ (divide depths rest).1 more _ hmore
      rw [← hdepths] at hcons
      exact ⟨some depth :: depths, rfl, hcons⟩
  | other hblank _ ih =>
      obtain ⟨more, hdepths, hmore⟩ := ih
      rw [divide_none hblank, significant_cons hblank]
      exact ⟨more, congrArg (none :: ·) hdepths, hmore⟩

theorem Marks.divide
    {ds : List (Option Nat)} {lines lines' : List (Nat × List Written)} (h : Marks ds lines)
    (hlines : SameLines lines lines') :
    Layout.divide ds (lines'.flatMap Prod.snd) = ([], lines') := by
  induction h generalizing lines' with
  | nil =>
      cases hlines
      rfl
  | cons _ ih =>
      cases hlines with
      | cons hblank hline hmore =>
          rw [List.flatMap_cons, List.cons_append, divide_break hblank, ← hline, divide_append,
            ih hmore, List.append_nil]

/-- Lines with the same significant tokens are divided at the same of them. -/
theorem divide_sameLines
    {ds : List (Option Nat)} {pieces line' : List Written} {lines' : List (Nat × List Written)}
    (h : Fits ds pieces) (hline : significant line' = significant (divide ds pieces).1)
    (hlines : SameLines (divide ds pieces).2 lines') :
    divide ds (line' ++ lines'.flatMap Prod.snd) = (line', lines') := by
  obtain ⟨more, hds, hmore⟩ := h.marks
  rw [← hline] at hds
  calc divide ds (line' ++ lines'.flatMap Prod.snd)
      = divide ((significant line').map (fun _ => none) ++ more)
          (line' ++ lines'.flatMap Prod.snd) := by rw [← hds]
    _ = (line', lines') := by rw [divide_append, hmore.divide hlines, List.append_nil]

end Layout

namespace Written

/-- The tokens of a text, line by line as they are laid out. -/
def laidOut (pieces : List Written) : List Written × List (Nat × List Written) :=
  Layout.divide (Layout.allDepths ((significant pieces).map Written.token)) pieces

end Written

theorem spelled_flatten (lines : List (Nat × List Written)) :
    spelled (lines.flatMap Prod.snd) = (Layout.lineTexts lines).flatMap Prod.snd := by
  rw [spelled, List.flatMap_assoc, Layout.lineTexts, List.flatMap_map]
  rfl

section

variable {sql : String} {pieces : List Written}

/-- The text is made of the characters of the tokens of its lines. -/
theorem text_eq (h : written sql = .ok pieces) :
    sql.toList = spelled (laidOut pieces).1 ++
      (Layout.lineTexts (laidOut pieces).2).flatMap Prod.snd := by
  obtain ⟨hspelled, -⟩ := written_eq_ok_iff.mp h
  rw [← spelled_flatten, ← spelled_append, ← hspelled]
  exact congrArg spelled (Layout.fits_allDepths pieces).flatten.symm

theorem lineTexts_ne_nil (h : written sql = .ok pieces) :
    ∀ line ∈ Layout.lineTexts (laidOut pieces).2, line.2 ≠ [] := by
  obtain ⟨-, hall⟩ := written_eq_ok_iff.mp h
  have hfits := Layout.fits_allDepths pieces
  intro line hline
  obtain ⟨⟨depth, line⟩, hmem, rfl⟩ := List.mem_map.mp hline
  obtain ⟨ident, text, rest, rfl⟩ := hfits.starts _ hmem
  have hpiece : ⟨.word ident, text⟩ ∈ pieces := by
    rw [← hfits.flatten]
    exact List.mem_append_right _ (List.mem_flatMap.mpr ⟨_, hmem, List.mem_cons_self⟩)
  rw [spelled_cons]
  exact List.append_ne_nil_of_left_ne_nil (hall.ne_nil _ hpiece) _

/-- The breaks are where the characters of the lines start. -/
theorem allBreaks_placed (pieces : List Written) :
    Layout.allBreaks ((placed Location.start pieces).filter fun placed =>
        !placed.token.isBlank) =
      Layout.breaksFrom (Location.start.after (spelled (laidOut pieces).1))
        (Layout.lineTexts (laidOut pieces).2) := by
  rw [Layout.allBreaks_eq, tokens_placed, (Layout.fits_allDepths pieces).breaksOf]
  rfl

/-- A text is laid out by putting the characters of its lines together. -/
theorem reindent_eq (h : written sql = .ok pieces) :
    reindent sql = .ok (String.ofList (Layout.assemble (spelled (laidOut pieces).1)
      (Layout.lineTexts (laidOut pieces).2))) := by
  rw [reindent, significantTokens_eq h]
  simp only [allBreaks_placed, text_eq h, Layout.cut_lines _ _ (lineTexts_ne_nil h)]

end

end Relocate.Sql
