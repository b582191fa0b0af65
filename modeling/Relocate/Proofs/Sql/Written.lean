import Relocate.Proofs.Sql.Lines
import Relocate.Proofs.Sql.NextToken

/-!
# Tokens with the characters that they are read from

`written` gives the tokens of a text, each with its characters: what stands from its
place to the place of the next one.  That a text is read as some tokens is a property of
their characters and of what follows them, at every place (`Reads`), so tokens can be
left out, put in and replaced one at a time (`Reads.follow`).
-/

namespace Relocate.Sql

open Text Lexer

/-- A token and the characters that it is read from. -/
structure Written where
  token : Token
  text : List Char
deriving DecidableEq, Repr

/-- The tokens of a text with their characters, which go from place to place. -/
def written (sql : String) : Except LexicalError (List Written) :=
  (tokenize sql).map fun tokens =>
    tokens.zipWith (fun placed line => ⟨placed.token, line.2⟩)
      (Layout.cut (tokens.map fun placed => ⟨placed.place, 0⟩) Location.start sql.toList).2

/-! ## What has a meaning -/

namespace Lexer

/-- What is read has a meaning. -/
def Meaningful (step : Step) : Prop :=
  ∀ token cursor, step = reached token cursor → token.isBlank = false

theorem bareWord_meaningful (front rest : List Char) (place : Location) :
    Meaningful (bareWord front rest place) := by
  rintro token cursor ⟨⟩
  rfl

theorem constant_meaningful (form : Quotation) (start : Location)
    (result : Option (List Char × Cursor)) : Meaningful (constant form start result) := by
  intro token cursor h
  obtain ⟨value, -, rfl⟩ := constant_eq_ok_iff.mp h
  rfl

theorem markOrCharacter_meaningful (c : Char) (rest : List Char) (place : Location) :
    Meaningful (markOrCharacter c rest place) := by
  intro token cursor h
  unfold markOrCharacter at h
  split at h <;> cases h <;> rfl

theorem rawConstant_meaningful (quote : Char) (rest : List Char) (place : Location) :
    Meaningful (rawConstant quote rest place) := by
  intro token cursor h
  simp only [rawConstant] at h
  split at h
  · cases h
    rfl
  all_goals exact constant_meaningful _ _ _ _ _ h

theorem numberOrPoint_meaningful (before : Option Token) (c : Char) (rest : List Char)
    (place : Location) : Meaningful (numberOrPoint before c rest place) := by
  intro token cursor h
  simp only [numberOrPoint] at h
  repeat' split at h
  all_goals
    cases h
    try rfl

theorem afterDollar_meaningful (rest : List Char) (place : Location) :
    Meaningful (afterDollar rest place) := by
  intro token cursor h
  simp only [afterDollar] at h
  repeat' split at h
  all_goals
    cases h
    try rfl

theorem wordOrConstant_meaningful (c : Char) (rest : List Char) (place : Location) :
    Meaningful (wordOrConstant c rest place) := by
  intro token cursor h
  simp only [wordOrConstant] at h
  repeat' split at h
  all_goals first
    | exact constant_meaningful _ _ _ _ _ h
    | exact rawConstant_meaningful _ _ _ _ _ h
    | exact bareWord_meaningful _ _ _ _ _ h
    | (cases h; try rfl)

theorem afterNumberSign_meaningful (rest : List Char) (place : Location) :
    Meaningful (afterNumberSign rest place) := by
  intro token cursor h
  unfold afterNumberSign at h
  split at h
  all_goals first
    | exact bareWord_meaningful _ _ _ _ _ h
    | exact markOrCharacter_meaningful _ _ _ _ _ h

theorem afterAtSign_meaningful (rest : List Char) (place : Location) :
    Meaningful (afterAtSign rest place) := by
  intro token cursor h
  simp only [afterAtSign] at h
  split at h
  all_goals first
    | exact bareWord_meaningful _ _ _ _ _ h
    | exact markOrCharacter_meaningful _ _ _ _ _ h
    | (cases h; rfl)

/-- What opens and closes a comment belongs to it. -/
theorem blockComment_text
    {depth : Nat} {text value : List Char} {place : Location} {cursor : Cursor}
    (h : blockComment depth text place = reached value cursor) :
    text = value ++ cursor.rest ∧ ∃ front, value = front ++ ['*', '/'] := by
  fun_induction blockComment depth text place generalizing value cursor with
  | case1 => cases h
  | case2 depth rest place ih =>
      obtain ⟨⟨value, cursor⟩, hread, heq⟩ := map_eq_ok_iff.mp h
      cases heq
      obtain ⟨rfl, front, rfl⟩ := ih hread
      exact ⟨rfl, '/' :: '*' :: front, rfl⟩
  | case3 | case4 =>
      cases h
      exact ⟨rfl, [], rfl⟩
  | case5 rest place after depth hdepth =>
      rename_i ih
      obtain ⟨⟨value, cursor⟩, hread, heq⟩ := map_eq_ok_iff.mp h
      cases heq
      obtain ⟨rfl, front, rfl⟩ := ih hread
      exact ⟨rfl, '*' :: '/' :: front, rfl⟩
  | case6 depth c rest place hopen hclose ih =>
      obtain ⟨⟨value, cursor⟩, hread, heq⟩ := map_eq_ok_iff.mp h
      cases heq
      obtain ⟨rfl, front, rfl⟩ := ih hread
      exact ⟨rfl, c :: front, rfl⟩

/-- No number and no word starts with a blank. -/
theorem starts_neither_of_isBlank {c : Char} (hc : isBlank c = true) :
    (c.isDigit || c == '.') = false ∧ isWordStart c = false := by
  obtain ⟨hletter, hdigit⟩ := Bool.or_eq_false_iff.mp (not_letter_of_isBlank hc)
  constructor
  · rw [hdigit, Bool.false_or, beq_eq_false_iff_ne]
    rintro rfl
    cases hc
  · by_contra hstart
    simp only [isWordStart, hletter, Bool.false_or, Bool.or_eq_true, beq_iff_eq,
      Bool.not_eq_false] at hstart
    rcases hstart with (rfl | rfl) | rfl <;> cases hc

theorem nextOther_cases
    {before : Option Token} {c : Char} {rest : List Char} {place : Location} {token : Token}
    {cursor : Cursor} (h : nextOther before c rest place = reached token cursor) :
    (isBlank c = true ∧ token.isBlank = true ∧ rest = cursor.rest) ∨
      (isBlank c = false ∧ token.isBlank = false) := by
  by_cases hblank : isBlank c = true
  · obtain ⟨hnumber, hstart⟩ := starts_neither_of_isBlank hblank
    simp only [nextOther, hnumber, hstart, hblank, Bool.false_eq_true, if_false, if_true] at h
    cases h
    exact .inl ⟨hblank, rfl, rfl⟩
  · refine .inr ⟨Bool.eq_false_iff.mpr hblank, ?_⟩
    unfold nextOther at h
    split at h
    · exact numberOrPoint_meaningful _ _ _ _ _ _ h
    · split at h
      · exact wordOrConstant_meaningful _ _ _ _ _ h
      · exact markOrCharacter_meaningful _ _ _ _ _ h

/-- What a token is, by the character that it starts with. -/
theorem next_cases
    {before : Option Token} {c : Char} {rest : List Char} {place : Location} {token : Token}
    {cursor : Cursor} (h : next before c rest place = reached token cursor) :
    (isBlank c = true ∧ token.isBlank = true ∧
      (rest = cursor.rest ∨ rest = '\n' :: cursor.rest)) ∨
    (∃ tail, c = '-' ∧ rest = '-' :: tail) ∨
    (∃ value front, c = '/' ∧ rest = '*' :: (value ++ cursor.rest) ∧ value = front ++ ['*', '/'] ∧
      token = .blank (String.ofList ('/' :: '*' :: value))) ∨
    (isBlank c = false ∧ token.isBlank = false) := by
  have hnext := h
  unfold next at h
  simp only at h
  split at h
  case h_1 | h_2 | h_3 =>
    cases h
    exact .inl ⟨rfl, rfl, .inl rfl⟩
  case h_4 =>
    split at h
    · cases h
      exact .inl ⟨rfl, rfl, .inr rfl⟩
    · cases h
      exact .inl ⟨rfl, rfl, .inl rfl⟩
  case h_5 => exact .inr (.inr (.inr ⟨rfl, constant_meaningful _ _ _ _ _ h⟩))
  case h_6 | h_7 =>
    split at h
    · cases h
      exact .inr (.inr (.inr ⟨rfl, rfl⟩))
    · cases h
  case h_8 =>
    split at h
    · exact .inr (.inl ⟨_, rfl, rfl⟩)
    · exact .inr (.inr (.inr ⟨rfl, markOrCharacter_meaningful _ _ _ _ _ h⟩))
  case h_9 =>
    split at h
    · split at h
      · next hread =>
          cases h
          obtain ⟨rfl, front, hfront⟩ := blockComment_text hread
          exact .inr (.inr (.inl ⟨_, front, rfl, rfl, hfront, rfl⟩))
      · cases h
    · exact .inr (.inr (.inr ⟨rfl, markOrCharacter_meaningful _ _ _ _ _ h⟩))
  case h_10 => exact .inr (.inr (.inr ⟨rfl, afterNumberSign_meaningful _ _ _ _ h⟩))
  case h_11 => exact .inr (.inr (.inr ⟨rfl, afterAtSign_meaningful _ _ _ _ h⟩))
  case h_12 =>
    cases h
    exact .inr (.inr (.inr ⟨rfl, rfl⟩))
  case h_13 => exact .inr (.inr (.inr ⟨rfl, afterDollar_meaningful _ _ _ _ h⟩))
  case h_14 =>
    rcases nextOther_cases h with ⟨hblank, htoken, hrest⟩ | hcode
    · exact .inl ⟨hblank, htoken, .inl hrest⟩
    · exact .inr (.inr (.inr hcode))

end Lexer

namespace Written

/-- The characters of tokens that stand one behind the other. -/
def spelled (pieces : List Written) : List Char :=
  pieces.flatMap Written.text

/-- The tokens that have a meaning. -/
def significant (pieces : List Written) : List Written :=
  pieces.filter fun piece => !piece.token.isBlank

/-- The tokens at their places. -/
def placed : Location → List Written → List Placed
  | _, [] => []
  | place, piece :: rest => ⟨piece.token, place⟩ :: placed (place.after piece.text) rest

theorem spelled_cons (piece : Written) (rest : List Written) :
    spelled (piece :: rest) = piece.text ++ spelled rest :=
  List.flatMap_cons

theorem spelled_append (front back : List Written) :
    spelled (front ++ back) = spelled front ++ spelled back :=
  List.flatMap_append

theorem significant_blank {piece : Written} (h : piece.token.isBlank = true)
    (rest : List Written) : significant (piece :: rest) = significant rest :=
  List.filter_cons_of_neg (by simp [h])

theorem significant_cons {piece : Written} (h : piece.token.isBlank = false)
    (rest : List Written) : significant (piece :: rest) = piece :: significant rest :=
  List.filter_cons_of_pos (by simp [h])

theorem significant_append (front back : List Written) :
    significant (front ++ back) = significant front ++ significant back :=
  List.filter_append ..

/-! ## Reading one token -/

/-- Behind a token and in front of the rest, the token is read from its characters. -/
def Reads (before : Option Token) (piece : Written) (rest : List Char) : Prop :=
  ∃ c back, piece.text = c :: back ∧ ∀ place,
    next before c (back ++ rest) place = .ok (piece.token, ⟨rest, place.after piece.text⟩)

section

variable {before before' : Option Token} {piece : Written} {rest other : List Char}

theorem Reads.ne_nil (h : Reads before piece rest) : piece.text ≠ [] := by
  obtain ⟨c, back, htext, -⟩ := h
  rw [htext]
  exact List.cons_ne_nil c back

theorem exists_reads
    {c : Char} {text : List Char} {place : Location} {token : Token} {cursor : Cursor}
    (h : next before c text place = .ok (token, cursor)) :
    ∃ back, text = back ++ cursor.rest ∧ cursor.place = place.after (c :: back) ∧
      Reads before ⟨token, c :: back⟩ cursor.rest := by
  obtain ⟨back, htext, hread⟩ := next_local h fun _ hword => hword
  have hsame := hread cursor.rest (MayFollow.refl token cursor.rest)
  refine ⟨back, htext, ?_, c, back, rfl, hsame⟩
  have hplace := hsame place
  rw [← htext, h] at hplace
  exact congrArg (fun step : Token × Cursor => step.2.place) (Except.ok.inj hplace)

/-- The same token is read in front of another text that may follow it. -/
theorem Reads.follow
    (h : Reads before piece rest) (hfollow : MayFollow piece.token other rest)
    (hword : piece.text.head? = some '.' → followsWord before = true →
      followsWord before' = true) :
    Reads before' piece other := by
  obtain ⟨c, back, htext, hread⟩ := h
  rw [htext] at hword
  obtain ⟨back', hback, hmore⟩ :=
    next_local (hread Location.start) fun hc => hword (by rw [hc]; rfl)
  obtain rfl := List.append_cancel_right hback
  refine ⟨c, back, htext, ?_⟩
  intro place
  rw [htext]
  exact hmore other hfollow place

end

/-- One blank, as a token. -/
def white (c : Char) : Written := ⟨.blank c.toString, [c]⟩

theorem reads_white
    {c : Char} {rest : List Char} (hc : isBlank c = true)
    (hline : c = '\r' → rest.head? ≠ some '\n') (before : Option Token) :
    Reads before (white c) rest := by
  refine ⟨c, [], rfl, fun place => ?_⟩
  obtain ⟨hnumber, hstart⟩ := starts_neither_of_isBlank hc
  simp only [next]
  split
  case h_1 | h_2 | h_3 => rfl
  case h_4 =>
    split
    · next heq =>
        rw [List.nil_append] at heq
        rw [heq] at hline
        exact absurd rfl (hline rfl)
    · rfl
  case h_14 =>
    rw [hnumber, hstart, hc]
    rfl
  all_goals cases hc

/-- The kinds of tokens: blanks, the two kinds of comments, and tokens with a meaning. -/
inductive Kind : Written → List Char → Prop
  | white {piece : Written} {rest : List Char} (hblank : piece.token.isBlank = true)
      (htext : ∀ c ∈ piece.text, isBlank c = true) : Kind piece rest
  | remark {front ending rest : List Char} (hfront : '\n' ∉ front)
      (hending : ending = ['\n'] ∨ ending = [] ∧ rest = []) :
      Kind ⟨.blank (String.ofList ('-' :: '-' :: front ++ ending)), '-' :: '-' :: front ++ ending⟩
        rest
  | block (front rest : List Char) :
      Kind ⟨.blank (String.ofList ('/' :: '*' :: (front ++ ['*', '/']))),
        '/' :: '*' :: (front ++ ['*', '/'])⟩ rest
  | meaningful {piece : Written} {rest : List Char} (hblank : piece.token.isBlank = false)
      (htext : ∀ c ∈ piece.text.head?, isBlank c = false) : Kind piece rest

theorem Reads.kind {before : Option Token} {piece : Written} {rest : List Char}
    (h : Reads before piece rest) : Kind piece rest := by
  obtain ⟨token, text⟩ := piece
  obtain ⟨c, back, rfl, hread⟩ := h
  have hnext := hread Location.start
  rcases next_cases hnext with ⟨hc, hblank, hback⟩ | ⟨tail, rfl, htail⟩ |
    ⟨value, front, rfl, htext, rfl, rfl⟩ | ⟨hc, hblank⟩
  · refine .white hblank ?_
    have hspace : back = [] ∨ back = ['\n'] := by
      rcases hback with hback | hback
      · exact .inl (List.append_left_eq_self.mp hback)
      · exact .inr (List.append_cancel_right hback)
    rcases hspace with rfl | rfl
    · simpa using hc
    · simpa using ⟨hc, (by decide : isBlank '\n' = true)⟩
  · obtain ⟨front, more, rfl, hfront, hmore, -⟩ := run_cases (· != '\n') tail Location.start
    have hline : '\n' ∉ front := fun hmem => by simpa using hfront _ hmem
    have hend : ∀ c ∈ more.head?, c = '\n' := fun c hc => by simpa using hmore c hc
    rw [htail, ← List.cons_append, next_comment hline hend] at hnext
    obtain ⟨htoken, hcursor⟩ := Prod.mk.inj (Except.ok.inj hnext)
    obtain rfl : more.drop 1 = rest := congrArg Cursor.rest hcursor
    have hboth : back ++ more.drop 1 = ('-' :: front ++ more.take 1) ++ more.drop 1 := by
      rw [htail, List.append_assoc, List.take_append_drop, List.cons_append]
    obtain rfl := List.append_cancel_right hboth
    obtain rfl : _ = token := htoken
    refine .remark hline ?_
    cases more with
    | nil => exact .inr ⟨rfl, rfl⟩
    | cons c more => exact .inl (by rw [hend c rfl]; rfl)
  · obtain rfl : back = '*' :: (front ++ ['*', '/']) := List.append_cancel_right htext
    exact .block front rest
  · refine .meaningful hblank ?_
    rintro _ ⟨⟩
    exact hc

/-! ## Reading a text -/

/-- A token with a meaning starts with a visible character. -/
theorem Reads.exists_visible
    {before : Option Token} {piece : Written} {rest : List Char} (h : Reads before piece rest)
    (hblank : piece.token.isBlank = false) :
    ∃ c back, piece.text = c :: back ∧ isBlank c = false := by
  obtain ⟨c, back, htext⟩ := List.exists_cons_of_ne_nil h.ne_nil
  refine ⟨c, back, htext, ?_⟩
  cases h.kind with
  | white htoken => rw [hblank] at htoken; cases htoken
  | remark | block => cases hblank
  | meaningful _ hhead => exact hhead c (htext ▸ rfl)

/-- Behind a token, each token is read in front of the characters of those behind it. -/
inductive AllRead : Option Token → List Written → Prop
  | nil (before : Option Token) : AllRead before []
  | cons {before : Option Token} {piece : Written} {rest : List Written}
      (hfirst : Reads before piece (spelled rest)) (hrest : AllRead (some piece.token) rest) :
      AllRead before (piece :: rest)

theorem AllRead.scan
    {before : Option Token} {pieces : List Written} (h : AllRead before pieces) {fuel : Nat}
    (hfuel : (spelled pieces).length ≤ fuel) (place : Location) :
    Lexer.scan fuel before (spelled pieces) place = .ok (placed place pieces) := by
  induction h generalizing fuel place with
  | nil before => cases fuel <;> rfl
  | @cons before piece rest hfirst _ ih =>
      obtain ⟨c, back, htext, hread⟩ := hfirst
      rw [spelled_cons, htext, List.cons_append] at hfuel ⊢
      cases fuel with
      | zero => exact absurd hfuel (Nat.not_succ_le_zero _)
      | succ fuel =>
          have hmore := @ih fuel (by simp at hfuel; omega) (place.after piece.text)
          simp only [Lexer.scan, hread place, bind, Except.bind, hmore]
          rfl

theorem exists_allRead_of_scan
    {fuel : Nat} {before : Option Token} {text : List Char} {place : Location}
    {tokens : List Placed} (hfuel : text.length ≤ fuel)
    (h : Lexer.scan fuel before text place = .ok tokens) :
    ∃ pieces, spelled pieces = text ∧ AllRead before pieces ∧ tokens = placed place pieces := by
  induction fuel generalizing before text place tokens with
  | zero =>
      obtain rfl := List.eq_nil_of_length_eq_zero (Nat.le_zero.mp hfuel)
      cases h
      exact ⟨[], rfl, .nil before, rfl⟩
  | succ fuel ih =>
      cases text with
      | nil =>
          cases h
          exact ⟨[], rfl, .nil before, rfl⟩
      | cons c text =>
          obtain ⟨⟨token, cursor⟩, hnext, h⟩ := exists_of_bind_eq_ok h
          obtain ⟨more, hmore, heq⟩ := exists_of_bind_eq_ok h
          cases heq
          obtain ⟨back, rfl, hplace, hread⟩ := exists_reads hnext
          have hlength : cursor.rest.length ≤ fuel := by simp at hfuel; omega
          obtain ⟨pieces, hspelled, hall, rfl⟩ := ih hlength hmore
          refine ⟨⟨token, c :: back⟩ :: pieces, ?_, .cons (hspelled.symm ▸ hread) hall, ?_⟩
          · rw [spelled_cons, hspelled, List.cons_append]
          · rw [placed, hplace]

theorem tokenize_eq_ok_iff {sql : String} {tokens : List Placed} :
    tokenize sql = .ok tokens ↔
      ∃ pieces, spelled pieces = sql.toList ∧ AllRead none pieces ∧
        tokens = placed Location.start pieces := by
  constructor
  · exact exists_allRead_of_scan (Nat.le_refl _)
  · rintro ⟨pieces, hspelled, hall, rfl⟩
    rw [tokenize, ← hspelled]
    exact hall.scan (Nat.le_refl _) Location.start

theorem AllRead.ne_nil {before : Option Token} {pieces : List Written} (h : AllRead before pieces) :
    ∀ piece ∈ pieces, piece.text ≠ [] := by
  induction h with
  | nil => exact fun piece hmem => absurd hmem List.not_mem_nil
  | cons hfirst _ ih =>
      rintro piece (_ | ⟨_, hmem⟩)
      · exact hfirst.ne_nil
      · exact ih piece hmem

/-- The text is cut at the places of its tokens into their characters. -/
theorem cut_placed {before : Option Token} {pieces : List Written} (h : AllRead before pieces)
    (place : Location) :
    Layout.cut ((placed place pieces).map fun token => ⟨token.place, 0⟩) place (spelled pieces) =
      ([], pieces.map fun piece => (0, piece.text)) := by
  have hbreaks : ∀ (pieces : List Written) (place : Location),
      (placed place pieces).map (fun token => (⟨token.place, 0⟩ : Layout.Break)) =
        Layout.breaksFrom place (pieces.map fun piece => (0, piece.text)) := by
    intro pieces
    induction pieces with
    | nil => exact fun _ => rfl
    | cons piece rest ih =>
        intro place
        exact congrArg _ (ih (place.after piece.text))
  have hcut := @Layout.cut_lines place [] (pieces.map fun piece => (0, piece.text)) ?_
  · rw [hbreaks]
    rwa [List.nil_append, List.flatMap_map] at hcut
  · intro line hline
    obtain ⟨piece, hpiece, rfl⟩ := List.mem_map.mp hline
    exact h.ne_nil piece hpiece

/-- The tokens of a text are read from it one after the other, all of it. -/
theorem written_eq_ok_iff {sql : String} {pieces : List Written} :
    written sql = .ok pieces ↔ spelled pieces = sql.toList ∧ AllRead none pieces := by
  have hzip : ∀ (pieces : List Written) (place : Location),
      (placed place pieces).zipWith (fun placed line => ⟨placed.token, line.2⟩)
        (pieces.map fun piece => ((0 : Nat), piece.text)) = pieces := by
    intro pieces
    induction pieces with
    | nil => exact fun _ => rfl
    | cons piece rest ih => exact fun place => congrArg _ (ih (place.after piece.text))
  rw [written, map_eq_ok_iff]
  constructor
  · rintro ⟨tokens, htokens, rfl⟩
    obtain ⟨pieces, hspelled, hall, rfl⟩ := tokenize_eq_ok_iff.mp htokens
    rw [← hspelled, cut_placed hall, hzip]
    exact ⟨rfl, hall⟩
  · rintro ⟨hspelled, hall⟩
    refine ⟨placed Location.start pieces, tokenize_eq_ok_iff.mpr ⟨pieces, hspelled, hall, rfl⟩, ?_⟩
    rw [← hspelled, cut_placed hall, hzip]

theorem tokens_placed (place : Location) (pieces : List Written) :
    ((placed place pieces).filter fun placed => !placed.token.isBlank).map Placed.token =
      (significant pieces).map Written.token := by
  induction pieces generalizing place with
  | nil => rfl
  | cons piece rest ih =>
      cases hblank : piece.token.isBlank with
      | true =>
          rw [placed, List.filter_cons_of_neg (by simp [hblank]), significant_blank hblank, ih]
      | false =>
          rw [placed, List.filter_cons_of_pos (by simp [hblank]), significant_cons hblank,
            List.map_cons, List.map_cons, ih]

/-- The significant tokens of a text are those of its tokens, at their places. -/
theorem significantTokens_eq {sql : String} {pieces : List Written} (h : written sql = .ok pieces) :
    significantTokens sql =
      .ok ((placed Location.start pieces).filter fun placed => !placed.token.isBlank) := by
  obtain ⟨hspelled, hall⟩ := written_eq_ok_iff.mp h
  rw [significantTokens, tokenize_eq_ok_iff.mpr ⟨pieces, hspelled, hall, rfl⟩]
  rfl

end Written

end Relocate.Sql
