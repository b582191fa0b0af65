import Mathlib.Data.List.Forall2
import Relocate.Sql.Format

/-!
# Texts that are read as they are spelled

A text is made by writing tokens one after the other.  Where each token may stand
before what follows it (`Readable`), the tokens are read back from the text, each
at its place: `tokenize_spell`.
-/

namespace Relocate.Sql

open Text

theorem toNat_le_of_isDigit {c : Char} (h : c.isDigit = true) : c.toNat ≤ 57 := by
  simp only [Char.isDigit, Bool.and_eq_true, decide_eq_true_eq, UInt32.le_iff_toNat_le] at h
  exact h.2

/-- A letter is no digit. -/
theorem isDigit_of_isLetter {c : Char} (h : isLetter c = true) : c.isDigit = false := by
  by_contra hdigit
  rw [Bool.not_eq_false] at hdigit
  have hcode : c.toNat < 58 := Nat.lt_succ_of_le (toNat_le_of_isDigit hdigit)
  have hnone : ∀ code < 58, (isLetter (Char.ofNat code) && (Char.ofNat code).isDigit) = false := by
    decide
  have hboth := hnone c.toNat hcode
  rw [Char.ofNat_toNat, h, hdigit] at hboth
  cases hboth

/-! ## Places behind texts -/

/-- The place behind a text. -/
def Location.after (place : Location) (text : List Char) : Location :=
  text.foldl Location.step place

namespace Lexer

/-- A run ends where the property fails for the first time. -/
theorem run_append
    {p : Char → Bool} {front rest : List Char} (hfront : ∀ c ∈ front, p c = true)
    (hrest : ∀ c ∈ rest.head?, p c = false) (place : Location) :
    run p (front ++ rest) place = (front, ⟨rest, place.after front⟩) := by
  induction front generalizing place with
  | nil =>
      cases rest with
      | nil => rfl
      | cons c rest =>
          have hc : p c = false := hrest c rfl
          simp only [List.nil_append, run, hc]
          rfl
  | cons c front ih =>
      have hc : p c = true := hfront c List.mem_cons_self
      have hmore := ih (fun d hd => hfront d (List.mem_cons_of_mem _ hd)) (place.step c)
      simp only [List.cons_append, run, hc, if_true, hmore]
      rfl

/-- A quoted text without quotes inside ends at the next quote. -/
theorem untilQuote_append
    {quote : Char} {value rest : List Char} (hvalue : quote ∉ value)
    (hrest : rest.head? ≠ some quote) (place : Location) :
    untilQuote quote (value ++ quote :: rest) place =
      some (value, ⟨rest, place.after (value ++ [quote])⟩) := by
  induction value generalizing place with
  | nil =>
      cases rest with
      | nil => simp [untilQuote, Location.after]
      | cons c rest =>
          have hc : c ≠ quote := fun heq => hrest (congrArg some heq)
          simp [untilQuote, hc, Location.after]
  | cons c value ih =>
      have hc : c ≠ quote := fun heq => hvalue (heq ▸ List.mem_cons_self)
      have hmore := ih (fun hmem => hvalue (List.mem_cons_of_mem _ hmem)) (place.step c)
      unfold untilQuote
      simp only [List.cons_append, if_neg hc, hmore]
      rfl

end Lexer

/-! ## Tokens that are read as they are written -/

/-- A word ends here. -/
def EndsWord (rest : List Char) : Prop :=
  ∀ c ∈ rest.head?, c = ' ' ∨ c = '\n' ∨ c = ',' ∨ c = '.'

/-- A word that is read as it stands: a letter and then letters and digits. -/
structure IsBare (word : String) : Prop where
  letter : ∀ c ∈ word.toList.head?, isLetter c = true
  part : ∀ c ∈ word.toList, (isLetter c || c.isDigit) = true
  nonempty : word.toList ≠ []

theorem IsBare.of_eq
    {word : String} {first : Char} {rest : List Char} (htext : word.toList = first :: rest)
    (hfirst : isLetter first = true)
    (hall : word.toList.all (fun c => isLetter c || c.isDigit) = true) : IsBare word := by
  refine ⟨?_, List.all_eq_true.mp hall, htext ▸ List.cons_ne_nil _ _⟩
  rw [htext]
  intro c hc
  cases hc
  exact hfirst

/-- The token is read where it is written in front of the text. -/
inductive Readable : Token → List Char → Prop
  | bare {word : String} {rest : List Char} (hword : IsBare word) (hrest : EndsWord rest) :
      Readable (.word (.bare word)) rest
  | quoted {value : String} {rest : List Char} (hvalue : '"' ∉ value.toList)
      (hrest : EndsWord rest) : Readable (.word ⟨value, some '"'⟩) rest
  | comma (rest : List Char) : Readable (.symbol ",") rest
  | point {rest : List Char} (hrest : ∀ c ∈ rest.head?, isLetter c = true ∨ c = '"') :
      Readable (.symbol ".") rest
  | space (rest : List Char) : Readable (.blank " ") rest
  | newline (rest : List Char) : Readable (.blank "\n") rest

namespace Lexer

/-- No quotation starts behind a letter that a word goes on or ends behind. -/
theorem wordOrConstant_eq
    {c : Char} {rest : List Char}
    (hrest : ∀ d ∈ rest.head?, d ≠ '\'' ∧ d ≠ '"' ∧ d ≠ '&') (place : Location) :
    wordOrConstant c rest place = bareWord [c] rest (place.step c) := by
  unfold wordOrConstant
  split <;> first | rfl | exact absurd (hrest _ rfl) (by decide)

/-- A letter that no quotation starts with begins a bare word. -/
theorem next_letter
    {c : Char} {rest : List Char} (hc : isLetter c = true)
    (hrest : ∀ d ∈ rest.head?, d ≠ '\'' ∧ d ≠ '"' ∧ d ≠ '&')
    (before : Option Token) (place : Location) :
    next before c rest place = bareWord [c] rest (place.step c) := by
  have hnot : ∀ d : Char, isLetter d = false → c ≠ d := by
    rintro d hd rfl
    rw [hc] at hd
    cases hd
  have hdigit : (c.isDigit || c == '.') = false := by
    rw [isDigit_of_isLetter hc, Bool.false_or, beq_eq_false_iff_ne]
    exact hnot '.' (by decide)
  have hstart : isWordStart c = true := by
    simp only [isWordStart, hc, Bool.true_or]
  unfold next
  split
  case h_14 =>
    simp only [hdigit, hstart, if_true, wordOrConstant_eq hrest]
    rfl
  all_goals exact absurd rfl (hnot _ (by decide))

/-- No bare word goes on here, and no quotation starts. -/
def StopsWord (rest : List Char) : Prop :=
  ∀ c ∈ rest.head?, isWordPart c = false ∧ c ≠ '\'' ∧ c ≠ '"' ∧ c ≠ '&'

theorem stopsWord_of_endsWord {rest : List Char} (h : EndsWord rest) : StopsWord rest := by
  intro c hc
  rcases h c hc with rfl | rfl | rfl | rfl <;> decide

theorem next_bare
    {first : Char} {back rest : List Char} (hfirst : isLetter first = true)
    (hback : ∀ c ∈ back, (isLetter c || c.isDigit) = true) (hrest : StopsWord rest)
    (before : Option Token) (place : Location) :
    next before first (back ++ rest) place =
      .ok (.word (.bare (String.ofList (first :: back))), ⟨rest, place.after (first :: back)⟩) := by
  have hpart : ∀ c ∈ back, isWordPart c = true := by
    intro c hc
    have hletter := hback c hc
    simp only [isWordPart, hletter, Bool.true_or]
  have hhead : ∀ d ∈ (back ++ rest).head?, d ≠ '\'' ∧ d ≠ '"' ∧ d ≠ '&' := by
    intro d hd
    cases back with
    | nil => exact (hrest d hd).2
    | cons c back =>
        cases hd
        have hletter := hback d List.mem_cons_self
        refine ⟨?_, ?_, ?_⟩ <;> rintro rfl <;> exact absurd hletter (by decide)
  rw [next_letter hfirst hhead, bareWord, run_append hpart fun c hc => (hrest c hc).1]
  rfl

theorem next_quoted
    {value rest : List Char} (hvalue : '"' ∉ value) (hrest : EndsWord rest)
    (before : Option Token) (place : Location) :
    next before '"' (value ++ '"' :: rest) place =
      .ok (.word ⟨String.ofList value, some '"'⟩,
        ⟨rest, place.after ('"' :: value ++ ['"'])⟩) := by
  have hstop : rest.head? ≠ some '"' := by
    intro hhead
    exact absurd (hrest '"' hhead) (by decide)
  unfold next
  simp only [untilQuote_append hvalue hstop]
  rfl

theorem next_point
    {rest : List Char} (hrest : ∀ c ∈ rest.head?, isLetter c = true ∨ c = '"')
    (before : Option Token) (place : Location) :
    next before '.' rest place = .ok (.symbol ".", ⟨rest, place.step '.'⟩) := by
  have hstop : ∀ c ∈ rest.head?, c.isDigit = false := by
    intro c hc
    rcases hrest c hc with hletter | rfl
    · exact isDigit_of_isLetter hletter
    · rfl
  have hnone : run Char.isDigit rest (place.step '.') = ([], ⟨rest, place.step '.'⟩) :=
    run_append (fun c hc => absurd hc List.not_mem_nil) hstop _
  have hpoint : run Char.isDigit ('.' :: rest) place = ([], ⟨'.' :: rest, place⟩) := rfl
  have hdispatch : next before '.' rest place = numberOrPoint before '.' rest place := rfl
  rw [hdispatch]
  unfold numberOrPoint
  split
  · rcases hrest '_' rfl with hletter | hquote
    · exact absurd hletter (by decide)
    · exact absurd hquote (by decide)
  · simp only [hpoint, hnone]
    rfl

end Lexer

theorem Readable.next
    {token : Token} {rest : List Char} (h : Readable token rest) :
    ∃ first back, token.text.toList = first :: back ∧ ∀ before place,
      Lexer.next before first (back ++ rest) place =
        .ok (token, ⟨rest, place.after (first :: back)⟩) := by
  cases h with
  | @bare word _ hword hrest =>
      cases htext : word.toList with
      | nil => exact absurd htext hword.nonempty
      | cons first back =>
          have hfirst : isLetter first = true := hword.letter first (by rw [htext]; rfl)
          have hback : ∀ c ∈ back, (isLetter c || c.isDigit) = true := by
            intro c hc
            exact hword.part c (htext ▸ List.mem_cons_of_mem _ hc)
          refine ⟨first, back, htext, ?_⟩
          intro before place
          have hstop := Lexer.stopsWord_of_endsWord hrest
          have hnext := Lexer.next_bare hfirst hback hstop before place
          rwa [← htext, String.ofList_toList, htext] at hnext
  | @quoted value _ hvalue hrest =>
      refine ⟨'"', value.toList ++ ['"'], ?_, ?_⟩
      · simp [Token.text]
      · intro before place
        have hnext := Lexer.next_quoted hvalue hrest before place
        rw [String.ofList_toList] at hnext
        simpa using hnext
  | comma => exact ⟨',', [], rfl, fun _ _ => rfl⟩
  | point hrest => exact ⟨'.', [], rfl, fun before place => Lexer.next_point hrest before place⟩
  | space => exact ⟨' ', [], rfl, fun _ _ => rfl⟩
  | newline => exact ⟨'\n', [], rfl, fun _ _ => rfl⟩

/-! ## Texts of tokens -/

/-- The text of tokens written one after the other. -/
def spell (tokens : List Token) : List Char :=
  tokens.flatMap fun token => token.text.toList

/-- The tokens, each at its place in their text. -/
def placedFrom : Location → List Token → List Placed
  | _, [] => []
  | place, token :: rest => ⟨token, place⟩ :: placedFrom (place.after token.text.toList) rest

theorem spell_append (front back : List Token) :
    spell (front ++ back) = spell front ++ spell back :=
  List.flatMap_append

theorem spell_cons (token : Token) (rest : List Token) :
    spell (token :: rest) = token.text.toList ++ spell rest :=
  List.flatMap_cons

theorem placedFrom_append (place : Location) (front back : List Token) :
    placedFrom place (front ++ back) =
      placedFrom place front ++ placedFrom (place.after (spell front)) back := by
  induction front generalizing place with
  | nil => rfl
  | cons token front ih =>
      have hafter : place.after (spell (token :: front)) =
          (place.after token.text.toList).after (spell front) := by
        rw [spell_cons, Location.after, List.foldl_append]
        rfl
      rw [List.cons_append, placedFrom, ih, hafter]
      rfl

theorem token_mem_of_placedFrom
    {place : Location} {tokens : List Token} {placed : Placed}
    (h : placed ∈ placedFrom place tokens) : placed.token ∈ tokens := by
  induction tokens generalizing place with
  | nil => exact absurd h List.not_mem_nil
  | cons token rest ih =>
      rcases List.mem_cons.mp h with rfl | hmem
      · exact List.mem_cons_self
      · exact List.mem_cons_of_mem _ (ih hmem)

/-- Every token is readable in front of those behind it. -/
inductive AllReadable : List Token → Prop
  | nil : AllReadable []
  | cons {token : Token} {rest : List Token} (hfirst : Readable token (spell rest))
      (hrest : AllReadable rest) : AllReadable (token :: rest)

theorem scan_spell
    {tokens : List Token} (h : AllReadable tokens) (fuel : Nat)
    (hfuel : (spell tokens).length ≤ fuel) (before : Option Token) (place : Location) :
    Lexer.scan fuel before (spell tokens) place = .ok (placedFrom place tokens) := by
  induction h generalizing fuel before place with
  | nil =>
      cases fuel <;> rfl
  | @cons token rest hfirst _ ih =>
      obtain ⟨first, back, htext, hnext⟩ := hfirst.next
      have hspell : spell (token :: rest) = first :: (back ++ spell rest) := by
        rw [spell, List.flatMap_cons, htext]
        rfl
      rw [hspell] at hfuel ⊢
      cases fuel with
      | zero => exact absurd hfuel (Nat.not_succ_le_zero _)
      | succ fuel =>
          have hmore := ih fuel (by simp at hfuel; omega) (some token) (place.after (first :: back))
          simp only [Lexer.scan, hnext, bind, Except.bind, hmore]
          rw [placedFrom, htext]
          rfl

/-- Readable tokens are read back from their text. -/
theorem tokenize_spell {tokens : List Token} (h : AllReadable tokens) :
    tokenize (String.ofList (spell tokens)) = .ok (placedFrom Location.start tokens) := by
  rw [tokenize, String.toList_ofList]
  exact scan_spell h _ (Nat.le_refl _) none Location.start

/-! ## Pieces with a mark between them -/

/-- Pieces of tokens with a mark between them. -/
def separate (mark : List Token) : List (List Token) → List Token
  | [] => []
  | [piece] => piece
  | piece :: rest => piece ++ (mark ++ separate mark rest)

section

variable {mark : List Token} {pieces : List (List Token)}

theorem mem_of_mem_separate {token : Token} (h : token ∈ separate mark pieces) :
    token ∈ mark ∨ ∃ piece ∈ pieces, token ∈ piece := by
  induction pieces with
  | nil => exact absurd h List.not_mem_nil
  | cons piece pieces ih =>
      cases pieces with
      | nil => exact .inr ⟨piece, List.mem_cons_self, h⟩
      | cons other pieces =>
          rcases List.mem_append.mp h with hpiece | h
          · exact .inr ⟨piece, List.mem_cons_self, hpiece⟩
          rcases List.mem_append.mp h with hmark | hrest
          · exact .inl hmark
          rcases ih hrest with hmark | ⟨found, hfound, hmem⟩
          · exact .inl hmark
          · exact .inr ⟨found, List.mem_cons_of_mem _ hfound, hmem⟩

/-- The text of the pieces is made of their texts. -/
theorem spell_separate (mark : List Token) (pieces : List (List Token)) :
    spell (separate mark pieces) = (spell mark).intercalate (pieces.map spell) := by
  induction pieces with
  | nil => rfl
  | cons piece pieces ih =>
      cases pieces with
      | nil => simp [separate]
      | cons other pieces =>
          have hpieces : separate mark (piece :: other :: pieces) =
            piece ++ (mark ++ separate mark (other :: pieces)) := rfl
          rw [hpieces, spell_append, spell_append, ih, List.map_cons, List.map_cons,
            List.map_cons, List.intercalate_cons_cons, List.append_assoc]

/-- The pieces are readable when each may stand before the mark and before what follows
the last one. -/
theorem separate_readable
    (hne : pieces ≠ [])
    (hpiece : ∀ piece ∈ pieces, ∀ rest, AllReadable rest → EndsWord (spell rest) →
      AllReadable (piece ++ rest))
    (hmark : ∀ piece ∈ pieces, ∀ rest, AllReadable (piece ++ rest) →
      AllReadable (mark ++ (piece ++ rest)))
    (hends : ∀ rest, EndsWord (spell (mark ++ rest))) {rest : List Token}
    (hrest : AllReadable rest) (hend : EndsWord (spell rest)) :
    AllReadable (separate mark pieces ++ rest) := by
  induction pieces with
  | nil => exact absurd rfl hne
  | cons piece pieces ih =>
      have hfirst := hpiece piece List.mem_cons_self
      cases pieces with
      | nil => exact hfirst rest hrest hend
      | cons other pieces =>
          have hmore := ih (List.cons_ne_nil _ _)
            (fun p hp => hpiece p (List.mem_cons_of_mem _ hp))
            (fun p hp => hmark p (List.mem_cons_of_mem _ hp))
          obtain ⟨tail, htail⟩ : ∃ tail,
              separate mark (other :: pieces) ++ rest = other ++ tail := by
            cases pieces with
            | nil => exact ⟨rest, rfl⟩
            | cons => exact ⟨_, List.append_assoc _ _ _⟩
          have hothers : AllReadable (mark ++ (separate mark (other :: pieces) ++ rest)) := by
            rw [htail] at hmore ⊢
            exact hmark other (List.mem_cons_of_mem _ List.mem_cons_self) tail hmore
          have hpieces : separate mark (piece :: other :: pieces) ++ rest =
              piece ++ (mark ++ (separate mark (other :: pieces) ++ rest)) := by
            simp [separate]
          rw [hpieces]
          exact hfirst _ hothers (hends _)

end

end Relocate.Sql
