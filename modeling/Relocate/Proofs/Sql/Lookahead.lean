import Relocate.Proofs.Sql.Spelling

/-!
# How far the readers look ahead

A reader decides where a value ends by a look at what follows it, and no reader here
looks for a line feed.  So what follows may be replaced by a text in which no more
stands before the first line feed (`Narrows`): the same value is read, at every place
(`Local`).
-/

namespace Relocate.Sql

open Text

namespace Lexer

/-- A text without line feeds stands at the start of `other` only if it stands at the
start of `rest`. -/
def Narrows (other rest : List Char) : Prop :=
  ∀ mark, '\n' ∉ mark → mark <+: other → mark <+: rest

section

variable {other rest : List Char}

theorem Narrows.refl (rest : List Char) : Narrows rest rest :=
  fun _ _ hbegin => hbegin

theorem Narrows.nil (rest : List Char) : Narrows [] rest := by
  intro mark _ hbegin
  rw [List.prefix_nil.mp hbegin]
  exact List.nil_prefix

theorem Narrows.newline (other rest : List Char) : Narrows ('\n' :: other) rest := by
  intro mark hmark hbegin
  cases mark with
  | nil => exact List.nil_prefix
  | cons c mark =>
      obtain ⟨rfl, -⟩ := List.cons_prefix_cons.mp hbegin
      exact absurd List.mem_cons_self hmark

theorem Narrows.append (h : Narrows other rest) (front : List Char) :
    Narrows (front ++ other) (front ++ rest) := by
  induction front with
  | nil => exact h
  | cons c front ih =>
      intro mark hmark hbegin
      cases mark with
      | nil => exact List.nil_prefix
      | cons d mark =>
          obtain ⟨rfl, hmore⟩ := List.cons_prefix_cons.mp hbegin
          exact List.cons_prefix_cons.mpr
            ⟨rfl, ih mark (fun hmem => hmark (List.mem_cons_of_mem d hmem)) hmore⟩

/-- A character that follows ends the line or is there already. -/
theorem Narrows.head (h : Narrows other rest) :
    ∀ c ∈ other.head?, c = '\n' ∨ c ∈ rest.head? := by
  intro c hc
  by_cases hline : c = '\n'
  · exact .inl hline
  · obtain ⟨more, rfl⟩ := List.head?_eq_some_iff.mp hc
    have hbegin : [c] <+: rest := h [c] (by simpa using Ne.symm hline) ⟨more, rfl⟩
    obtain ⟨tail, rfl⟩ := hbegin
    exact .inr rfl

theorem Narrows.head_of_ne (h : Narrows other rest) {c : Char} (hc : c ≠ '\n')
    (hother : other.head? = some c) : rest.head? = some c :=
  (h.head c hother).resolve_left hc

theorem Narrows.ne_cons (h : Narrows other rest) {c : Char} (hc : c ≠ '\n')
    (hrest : ∀ tail, rest ≠ c :: tail) : ∀ tail, other ≠ c :: tail := by
  rintro tail rfl
  obtain ⟨more, hmore⟩ := List.head?_eq_some_iff.mp (h.head_of_ne hc rfl)
  exact hrest more hmore

theorem Narrows.eq_nil (h : Narrows other []) (hline : other.head? ≠ some '\n') :
    other = [] := by
  cases other with
  | nil => rfl
  | cons c other =>
      rcases h.head c rfl with rfl | hc
      · exact absurd rfl hline
      · cases hc

end

/-! ## Readers -/

theorem after_append (place : Location) (front back : List Char) :
    place.after (front ++ back) = (place.after front).after back :=
  List.foldl_append

section

variable {α β γ ρ σ τ : Type} {done : α → Cursor → ρ} {done' : β → Cursor → σ}
  {done'' : γ → Cursor → τ} {read : List Char → Location → ρ} {read' : List Char → Location → σ}
  {read'' : List Char → Location → τ} {text : List Char} {value : α} {value' : β} {value'' : γ}
  {cursor cursor' : Cursor}

/-- From this text the reader reads the value and stops at the cursor; it does so at
every place, and when what follows the characters that it read is replaced by a text that
narrows it. -/
def Local (done : α → Cursor → ρ) (read : List Char → Location → ρ) (text : List Char)
    (value : α) (cursor : Cursor) : Prop :=
  ∃ front, text = front ++ cursor.rest ∧ ∀ other, Narrows other cursor.rest →
    ∀ place, read (front ++ other) place = done value ⟨other, place.after front⟩

/-- A reader that goes on behind some known characters. -/
theorem Local.lead
    (h : Local done read text value cursor) (lead : List Char)
    (hstep : ∀ other, Narrows other text → ∀ place cursor,
      read other (place.after lead) = done value cursor →
        read' (lead ++ other) place = done' value' cursor) :
    Local done' read' (lead ++ text) value' cursor := by
  obtain ⟨front, rfl, hread⟩ := h
  refine ⟨lead ++ front, (List.append_assoc _ _ _).symm, ?_⟩
  intro other hother place
  rw [List.append_assoc, after_append]
  exact hstep _ (hother.append front) place _ (hread other hother (place.after lead))

/-- A reader that goes on where another one stopped. -/
theorem Local.andThen
    (h : Local done read text value cursor) (h' : Local done' read' cursor.rest value' cursor')
    (hstep : ∀ other, Narrows other text → ∀ place after after',
      read other place = done value after → Narrows after.rest cursor.rest →
      read' after.rest after.place = done' value' after' →
        read'' other place = done'' value'' after') :
    Local done'' read'' text value'' cursor' := by
  obtain ⟨front, htext, hread⟩ := h
  obtain ⟨back, hrest, hread'⟩ := h'
  refine ⟨front ++ back, by rw [htext, hrest, List.append_assoc], ?_⟩
  intro other hother place
  have hback : Narrows (back ++ other) cursor.rest := hrest ▸ hother.append back
  rw [List.append_assoc, after_append]
  exact hstep _ (htext ▸ hback.append front) place _ _ (hread _ hback place) hback
    (hread' other hother _)

end

theorem skip_append (front rest : List Char) (place : Location) :
    skip front.length (front ++ rest) place = ⟨rest, place.after front⟩ := by
  induction front generalizing place with
  | nil => cases rest <;> rfl
  | cons c front ih => exact ih (place.step c)

theorem skip_eq (n : Nat) (text : List Char) (place : Location) :
    skip n text place = ⟨text.drop n, place.after (text.take n)⟩ := by
  induction n generalizing text place with
  | zero => cases text <;> rfl
  | succ n ih =>
      cases text with
      | nil => rfl
      | cons c text => exact ih text (place.step c)

/-- A run holds characters with the property and stops in front of one without. -/
theorem run_cases (p : Char → Bool) (text : List Char) (place : Location) :
    ∃ front rest, text = front ++ rest ∧ (∀ c ∈ front, p c = true) ∧
      (∀ c ∈ rest.head?, p c = false) ∧
      run p text place = (front, ⟨rest, place.after front⟩) := by
  induction text generalizing place with
  | nil => exact ⟨[], [], rfl, nofun, nofun, rfl⟩
  | cons c text ih =>
      by_cases hc : p c = true
      · obtain ⟨front, rest, htext, hfront, hrest, hrun⟩ := ih (place.step c)
        refine ⟨c :: front, rest, by rw [htext]; rfl, ?_, hrest, ?_⟩
        · rintro d (_ | ⟨_, hd⟩)
          · exact hc
          · exact hfront d hd
        · rw [run, if_pos hc, hrun]
          rfl
      · rw [Bool.not_eq_true] at hc
        refine ⟨[], c :: text, rfl, nofun, ?_, ?_⟩
        · rintro d ⟨⟩
          exact hc
        · rw [run, hc]
          rfl

theorem run_cons {p : Char → Bool} {c : Char} (hc : p c = true) (rest : List Char)
    (place : Location) :
    run p (c :: rest) place =
      (c :: (run p rest (place.step c)).1, (run p rest (place.step c)).2) := by
  rw [run, if_pos hc]

theorem run_local
    {p : Char → Bool} (hp : p '\n' = false) {text front : List Char} {place : Location}
    {cursor : Cursor} (h : run p text place = (front, cursor)) :
    Local Prod.mk (run p) text front cursor := by
  obtain ⟨front, rest, htext, hfront, hrest, hrun⟩ := run_cases p text place
  rw [hrun] at h
  obtain ⟨rfl, rfl⟩ := Prod.mk.inj h
  refine ⟨front, htext, ?_⟩
  intro other hother place
  refine run_append hfront ?_ place
  intro c hc
  rcases hother.head c hc with rfl | hmem
  · exact hp
  · exact hrest c hmem

/-! ## Quoted texts -/

/-- How a reader of a quoted text reports what it found. -/
abbrev found (value : List Char) (cursor : Cursor) : Option (List Char × Cursor) :=
  some (value, cursor)

section

variable {quote : Char} {text value : List Char} {place : Location} {cursor : Cursor}

/-- A reader that puts a character in front of what another one finds. -/
theorem Local.cons
    {read read' : List Char → Location → Option (List Char × Cursor)} (c : Char)
    (lead : List Char)
    (ih : ∀ {value cursor}, read text place = found value cursor →
      Local found read text value cursor)
    (h : (read text place).map (fun (front, cursor) => (c :: front, cursor)) = found value cursor)
    (hstep : ∀ other, Narrows other text → ∀ place, read' (lead ++ other) place =
      (read other (place.after lead)).map fun (front, cursor) => (c :: front, cursor)) :
    Local found read' (lead ++ text) value cursor := by
  obtain ⟨⟨front, cursor⟩, hread, heq⟩ := Option.map_eq_some_iff.mp h
  cases heq
  refine (ih hread).lead lead ?_
  intro other hother place cursor hmore
  rw [hstep other hother, hmore]
  rfl

theorem untilQuote_local (hquote : quote ≠ '\n')
    (h : untilQuote quote text place = found value cursor) :
    Local found (untilQuote quote) text value cursor := by
  have hclosed : ∀ {rest other : List Char}, rest.head? ≠ some quote → Narrows other rest →
      ∀ place, untilQuote quote (quote :: other) place = found [] ⟨other, place.step quote⟩ := by
    intro rest other hrest hother place
    exact @untilQuote_append quote [] other List.not_mem_nil
      (mt (hother.head_of_ne hquote) hrest) place
  fun_induction untilQuote quote text place generalizing value cursor with
  | case1 => cases h
  | case2 place =>
      cases h
      exact ⟨[quote], rfl, fun other hother => hclosed (by simp) hother⟩
  | case3 place tail ih =>
      refine Local.cons quote [quote, quote] ih h ?_
      intro other _ place
      simp only [List.cons_append, List.nil_append, untilQuote, if_true]
      rfl
  | case4 place d tail hd =>
      cases h
      exact ⟨[quote], rfl, fun other hother => hclosed (by simpa using hd) hother⟩
  | case5 c rest place hc ih =>
      refine Local.cons c [c] ih h ?_
      intro other _ place
      rw [List.singleton_append, untilQuote.eq_def]
      simp only [if_neg hc]
      rfl

theorem untilQuoteEscaped_local (hquote : quote ≠ '\n')
    (h : untilQuoteEscaped quote text place = found value cursor) :
    Local found (untilQuoteEscaped quote) text value cursor := by
  have hclosed : ∀ {rest other : List Char}, rest.head? ≠ some quote → Narrows other rest →
      ∀ place, untilQuoteEscaped quote (quote :: other) place =
        found [] ⟨other, place.step quote⟩ := by
    intro rest other hrest hother place
    cases other with
    | nil => simp [untilQuoteEscaped]
    | cons d other =>
        have hd : d ≠ quote := by
          rintro rfl
          exact hrest (hother.head_of_ne hquote rfl)
        simp [untilQuoteEscaped, hd]
  fun_induction untilQuoteEscaped quote text place generalizing value cursor with
  | case1 => cases h
  | case2 place =>
      cases h
      exact ⟨[quote], rfl, fun other hother => hclosed (by simp) hother⟩
  | case3 place tail ih =>
      refine Local.cons quote [quote, quote] ih h ?_
      intro other _ place
      simp only [List.cons_append, List.nil_append, untilQuoteEscaped, if_true]
      rfl
  | case4 place d tail hd =>
      cases h
      exact ⟨[quote], rfl, fun other hother => hclosed (by simpa using hd) hother⟩
  | case5 => cases h
  | case6 place d tail hslash ih =>
      refine Local.cons (controlCharacter d) ['\\', d] ih h ?_
      intro other _ place
      simp only [List.cons_append, List.nil_append, untilQuoteEscaped, if_neg hslash, if_true]
      rfl
  | case7 c rest place hc hslash ih =>
      refine Local.cons c [c] ih h ?_
      intro other _ place
      rw [List.singleton_append, untilQuoteEscaped.eq_def]
      simp only [if_neg hc, if_neg hslash]
      rfl

theorem untilTripleQuote_local (hquote : quote ≠ '\n')
    (h : untilTripleQuote quote text place = found value cursor) :
    Local found (untilTripleQuote quote) text value cursor := by
  fun_induction untilTripleQuote quote text place generalizing value cursor with
  | case1 => cases h
  | case2 c rest place hquotes =>
      obtain ⟨rfl, hrest⟩ := hquotes
      obtain ⟨tail, rfl⟩ : [c, c] <+: rest := hrest ▸ List.take_prefix 2 rest
      cases h
      refine ⟨[c, c, c], rfl, ?_⟩
      intro other _ place
      simp only [List.cons_append, List.nil_append, untilTripleQuote, List.take_succ_cons,
        List.take_zero, and_self, if_true]
      rfl
  | case3 c rest place hquotes ih =>
      refine Local.cons c [c] ih h ?_
      intro other hother place
      have hquotes' : ¬ (c = quote ∧ other.take 2 = [quote, quote]) := by
        rintro ⟨hc, htake⟩
        refine hquotes ⟨hc, ?_⟩
        have hbegin := hother [quote, quote] (by simpa using hquote.symm)
          (htake ▸ List.take_prefix 2 other)
        exact (List.prefix_iff_eq_take.mp hbegin).symm
      rw [List.singleton_append, untilTripleQuote, if_neg hquotes']
      rfl

end

/-! ## Escapes -/

theorem leadingDigits_eq_nil
    {base limit : Nat} {text : List Char}
    (h : ∀ c ∈ text.head?, ∀ digit ∈ hexValue? c, ¬ digit < base) :
    leadingDigits base limit text = [] := by
  fun_cases leadingDigits base limit text with
  | case3 limit c rest digit hdigit hbase => exact absurd hbase (h c rfl digit hdigit)
  | _ => rfl

/-- Digits end at a character that is none, or there are as many as may be. -/
theorem leadingDigits_local (base limit : Nat) (text : List Char) :
    ∃ front rest, text = front ++ rest ∧ front.length = (leadingDigits base limit text).length ∧
      ∀ other, Narrows other rest →
        leadingDigits base limit (front ++ other) = leadingDigits base limit text := by
  have hstop : ∀ {limit : Nat} {rest : List Char},
      (∀ c ∈ rest.head?, ∀ digit ∈ hexValue? c, ¬ digit < base) →
      ∀ other, Narrows other rest → leadingDigits base limit other = [] := by
    intro limit rest hrest other hother
    refine leadingDigits_eq_nil ?_
    intro c hc digit hdigit
    rcases hother.head c hc with rfl | hmem
    · cases hdigit
    · exact hrest c hmem digit hdigit
  fun_induction leadingDigits base limit text with
  | case1 text => exact ⟨[], text, rfl, rfl, fun other _ => by cases other <;> rfl⟩
  | case2 limit => exact ⟨[], [], rfl, rfl, hstop nofun⟩
  | case3 limit c rest digit hdigit hbase ih =>
      obtain ⟨front, rest, rfl, hlength, hread⟩ := ih
      refine ⟨c :: front, rest, rfl, congrArg (· + 1) hlength, ?_⟩
      intro other hother
      simp only [List.cons_append, leadingDigits, hdigit, if_pos hbase, hread other hother]
  | case4 limit c rest digit hdigit hbase =>
      refine ⟨[], c :: rest, rfl, rfl, hstop ?_⟩
      rintro d ⟨⟩ other hother
      rw [hdigit] at hother
      cases hother
      exact hbase
  | case5 limit c rest hdigit =>
      refine ⟨[], c :: rest, rfl, rfl, hstop ?_⟩
      rintro d ⟨⟩ other hother
      rw [hdigit] at hother
      cases hother

/-- An escape sequence behind its first character is read from its own characters and,
where fewer digits stand than there may be, from the one behind them. -/
def LocalEscape (read : List Char → Option (Char × Nat)) (text : List Char) (c : Char)
    (width : Nat) : Prop :=
  ∃ front rest, text = front ++ rest ∧ front.length + 1 = width ∧ ∀ other, Narrows other rest →
    read (front ++ other) = some (c, width)

theorem fixed_local
    {limit width : Nat} {text : List Char} {c : Char}
    (h : escapeSequence?.fixed limit text = some (c, width)) :
    LocalEscape (escapeSequence?.fixed limit) text c width := by
  obtain ⟨front, rest, htext, hlength, hread⟩ := leadingDigits_local 16 limit text
  refine ⟨front, rest, htext, ?_, ?_⟩
  · simp only [escapeSequence?.fixed] at h
    split at h
    · next hwidth =>
        obtain ⟨_, -, heq⟩ := Option.map_eq_some_iff.mp h
        cases heq
        omega
    · cases h
  · intro other hother
    simp only [escapeSequence?.fixed, hread other hother]
    exact h

/-- What `\x` stands for: a byte of one or two digits, or the letter itself. -/
def hexadecimalEscape (text : List Char) : Option (Char × Nat) :=
  match leadingDigits 16 2 text with
  | [] => some ('x', 1)
  | digits => (asciiByte? (digitsValue 16 digits)).map fun found => (found, 1 + digits.length)

theorem hexadecimalEscape_local
    {text : List Char} {c : Char} {width : Nat} (h : hexadecimalEscape text = some (c, width)) :
    LocalEscape hexadecimalEscape text c width := by
  obtain ⟨front, rest, htext, hlength, hread⟩ := leadingDigits_local 16 2 text
  refine ⟨front, rest, htext, ?_, ?_⟩
  · unfold hexadecimalEscape at h
    split at h
    · next hnone =>
        cases h
        rw [hlength, hnone]
        rfl
    · obtain ⟨_, -, heq⟩ := Option.map_eq_some_iff.mp h
      cases heq
      rw [hlength, Nat.add_comm]
  · intro other hother
    rw [hexadecimalEscape, hread other hother]
    exact h

/-- What any other character stands for behind a backslash: a byte of one to three digits
with itself as the first, or itself. -/
def octalEscape (first : Char) (text : List Char) : Option (Char × Nat) :=
  match leadingDigits 8 3 (first :: text) with
  | [] => some (first, 1)
  | digits => (asciiByte? (digitsValue 8 digits)).map fun found => (found, digits.length)

/-- Whether a first digit stands there does not depend on what follows it. -/
theorem leadingDigits_cons_eq_nil
    {base limit : Nat} {c : Char} {text : List Char}
    (h : leadingDigits base (limit + 1) (c :: text) = []) (other : List Char) :
    leadingDigits base (limit + 1) (c :: other) = [] := by
  refine leadingDigits_eq_nil ?_
  rintro _ ⟨⟩ digit hdigit hbase
  rw [leadingDigits, hdigit] at h
  simp only [if_pos hbase] at h
  cases h

theorem octalEscape_local
    {first : Char} {text : List Char} {c : Char} {width : Nat}
    (h : octalEscape first text = some (c, width)) :
    LocalEscape (octalEscape first) text c width := by
  cases hdigits : leadingDigits 8 3 (first :: text) with
  | nil =>
      have hnone := leadingDigits_cons_eq_nil hdigits
      rw [octalEscape, hdigits] at h
      cases h
      refine ⟨[], text, rfl, rfl, ?_⟩
      intro other _
      rw [List.nil_append, octalEscape, hnone]
  | cons digit digits =>
      obtain ⟨front, rest, htext, hlength, hread⟩ := leadingDigits_local 8 3 (first :: text)
      rw [hdigits] at hlength
      obtain ⟨d, front, rfl⟩ := List.exists_cons_of_length_eq_add_one hlength
      obtain ⟨rfl, hmore⟩ := List.cons.inj htext
      refine ⟨front, rest, hmore, ?_, ?_⟩
      · rw [octalEscape, hdigits] at h
        obtain ⟨_, -, heq⟩ := Option.map_eq_some_iff.mp h
        cases heq
        exact hlength
      · intro other hother
        rw [octalEscape, ← List.cons_append, hread other hother]
        exact h

theorem escapeSequence?_local
    {text : List Char} {c : Char} {width : Nat} (h : escapeSequence? text = some (c, width)) :
    ∃ front rest, text = front ++ rest ∧ front.length = width ∧ ∀ other, Narrows other rest →
      escapeSequence? (front ++ other) = some (c, width) := by
  cases text with
  | nil => cases h
  | cons d tail =>
      rw [escapeSequence?.eq_def] at h
      simp only at h
      split at h
      case h_6 | h_7 =>
        obtain ⟨front, rest, rfl, hlength, hread⟩ := fixed_local h
        exact ⟨_ :: front, rest, rfl, hlength, hread⟩
      case h_8 =>
        obtain ⟨front, rest, rfl, hlength, hread⟩ := hexadecimalEscape_local h
        exact ⟨'x' :: front, rest, rfl, hlength, hread⟩
      case h_9 hb hf hn hr ht hu hU hx =>
        obtain ⟨front, rest, rfl, hlength, hread⟩ := octalEscape_local h
        refine ⟨d :: front, rest, rfl, hlength, ?_⟩
        intro other hother
        simp only [List.cons_append, escapeSequence?]
        exact hread other hother
      all_goals
        cases h
        exact ⟨[_], tail, rfl, rfl, fun _ _ => rfl⟩

/-! ## Constants with escapes -/

section

variable {α β ρ σ : Type} {done : α → Cursor → ρ} {done' : β → Cursor → σ}
  {read : Nat → List Char → Location → ρ} {read' : Nat → List Char → Location → σ}
  {text : List Char} {value : α} {value' : β} {cursor : Cursor}

/-- As `Local`, for a reader whose fuel is enough when it exceeds the number of characters,
whatever it is. -/
def LocalFueled (done : α → Cursor → ρ) (read : Nat → List Char → Location → ρ)
    (text : List Char) (value : α) (cursor : Cursor) : Prop :=
  ∃ front, text = front ++ cursor.rest ∧ ∀ other, Narrows other cursor.rest →
    ∀ place fuel, (front ++ other).length < fuel →
      read fuel (front ++ other) place = done value ⟨other, place.after front⟩

theorem LocalFueled.enough (h : LocalFueled done read text value cursor) :
    Local done (fun text place => read (text.length + 1) text place) text value cursor := by
  obtain ⟨front, htext, hread⟩ := h
  exact ⟨front, htext, fun other hother place => hread other hother place _ (Nat.lt_succ_self _)⟩

/-- A step that reads at least one character spends one unit of fuel. -/
theorem LocalFueled.lead
    (h : LocalFueled done read text value cursor) (c : Char) (lead : List Char)
    (hstep : ∀ other, Narrows other text → ∀ fuel place cursor,
      read fuel other (place.after (c :: lead)) = done value cursor →
        read' (fuel + 1) (c :: lead ++ other) place = done' value' cursor) :
    LocalFueled done' read' (c :: lead ++ text) value' cursor := by
  obtain ⟨front, rfl, hread⟩ := h
  refine ⟨c :: lead ++ front, (List.append_assoc _ _ _).symm, ?_⟩
  rintro other hother place (_ | fuel) hfuel
  · cases hfuel
  have hless : (front ++ other).length < fuel := by
    simp only [List.cons_append, List.length_cons, List.length_append] at hfuel ⊢
    omega
  rw [List.append_assoc, after_append]
  exact hstep _ (hother.append front) fuel place _ (hread other hother _ fuel hless)

end

theorem escapedText_local
    {fuel : Nat} {text value : List Char} {place : Location} {cursor : Cursor}
    (h : escapedText fuel text place = found value cursor) :
    LocalFueled found escapedText text value cursor := by
  fun_induction escapedText fuel text place generalizing value cursor with
  | case1 | case2 | case5 | case6 => cases h
  | case3 fuel place tail ih =>
      obtain ⟨⟨front, cursor⟩, hread, heq⟩ := Option.map_eq_some_iff.mp h
      cases heq
      refine (ih hread).lead '\'' ['\''] ?_
      intro other _ fuel place cursor hother
      simp only [List.cons_append, List.nil_append, escapedText, if_true]
      exact Option.map_eq_some_iff.mpr ⟨_, hother, rfl⟩
  | case4 fuel rest place hrest =>
      cases h
      refine ⟨['\''], rfl, ?_⟩
      rintro other hother place (_ | fuel) hfuel
      · cases hfuel
      have hhead := hother.ne_cons (by decide) hrest
      simp only [List.cons_append, List.nil_append, escapedText, if_true]
      rfl
  | case7 fuel rest place c width hsequence hc hslash after =>
      rename_i ih
      obtain ⟨⟨value, cursor⟩, hread, heq⟩ := Option.map_eq_some_iff.mp h
      cases heq
      obtain ⟨front, back, rfl, rfl, hagain⟩ := escapeSequence?_local hsequence
      have hafter : after = ⟨back, (place.step '\\').after front⟩ := skip_append front back _
      rw [hafter] at ih hread
      refine (ih hread).lead '\\' front ?_
      intro other hother fuel place cursor hrest
      simp only [List.cons_append, escapedText, if_neg hslash, if_true, hagain other hother,
        if_neg hc, skip_append]
      exact Option.map_eq_some_iff.mpr ⟨_, hrest, rfl⟩
  | case8 fuel c rest place hquote hslash ih =>
      obtain ⟨⟨front, cursor⟩, hread, heq⟩ := Option.map_eq_some_iff.mp h
      cases heq
      refine (ih hread).lead c [] ?_
      intro other _ fuel place cursor hother
      simp only [List.cons_append, List.nil_append, escapedText, if_neg hquote, if_neg hslash]
      exact Option.map_eq_some_iff.mpr ⟨_, hother, rfl⟩

/-- How a reader that names its failures reports what it found. -/
abbrev reached {ε α : Type} (value : α) (cursor : Cursor) : Except ε (α × Cursor) :=
  .ok (value, cursor)

theorem exists_of_bind_eq_ok
    {ε α β : Type} {first : Except ε α} {next : α → Except ε β} {result : β}
    (h : first >>= next = .ok result) : ∃ value, first = .ok value ∧ next value = .ok result := by
  cases first with
  | error issue => cases h
  | ok value => exact ⟨value, rfl, h⟩

theorem bind_eq_ok
    {ε α β : Type} {first : Except ε α} {next : α → Except ε β} {value : α} {result : β}
    (h : first = .ok value) (hnext : next value = .ok result) : first >>= next = .ok result := by
  rw [h]
  exact hnext

theorem codePoint_local
    {width value : Nat} {text : List Char} {place : Location} {c : Char} {cursor : Cursor}
    (h : codePoint width value text place = reached c cursor) :
    Local reached (codePoint width value) text c cursor := by
  fun_induction codePoint width value text place generalizing c cursor with
  | case1 value rest place c hvalue =>
      cases h
      refine ⟨[], rfl, ?_⟩
      intro other _ place
      simp only [List.nil_append, codePoint, hvalue]
      rfl
  | case2 | case3 | case4 => cases h
  | case5 value place width d tail digit hdigit ih =>
      refine (ih h).lead [d] ?_
      intro other _ place cursor hother
      simp only [List.cons_append, List.nil_append, codePoint, hdigit]
      exact hother

/-- A code point and what follows it in a constant. -/
def codePointText (width fuel : Nat) (text : List Char) (place : Location) :
    Except LexicalError (List Char × Cursor) := do
  let (found, after) ← codePoint width 0 text place
  let (front, cursor) ← unicodeText fuel after.rest after.place
  return (found :: front, cursor)

theorem codePointText_local
    {width : Nat} {text value : List Char} {place : Location} {c : Char} {after cursor : Cursor}
    (hcode : codePoint width 0 text place = reached c after)
    (h : LocalFueled reached unicodeText after.rest value cursor) :
    LocalFueled reached (codePointText width) text (c :: value) cursor := by
  obtain ⟨front, htext, hread⟩ := codePoint_local hcode
  obtain ⟨back, hrest, hread'⟩ := h
  refine ⟨front ++ back, by rw [htext, hrest, List.append_assoc], ?_⟩
  intro other hother place fuel hfuel
  have hback : Narrows (back ++ other) after.rest := hrest ▸ hother.append back
  rw [List.append_assoc, List.length_append] at hfuel
  rw [List.append_assoc, after_append]
  refine bind_eq_ok (hread _ hback place) (bind_eq_ok (hread' other hother _ fuel ?_) rfl)
  exact Nat.lt_of_le_of_lt (Nat.le_add_left _ _) hfuel

theorem unicodeText_local
    {fuel : Nat} {text value : List Char} {place : Location} {cursor : Cursor}
    (h : unicodeText fuel text place = reached value cursor) :
    LocalFueled reached unicodeText text value cursor := by
  fun_induction unicodeText fuel text place generalizing value cursor with
  | case1 | case2 => cases h
  | case3 fuel place tail after =>
      rename_i ih
      obtain ⟨⟨front, cursor⟩, hread, heq⟩ := exists_of_bind_eq_ok h
      cases heq
      refine (ih hread).lead '\'' ['\''] ?_
      intro other _ fuel place cursor hother
      simp only [List.cons_append, List.nil_append, unicodeText, if_true]
      exact bind_eq_ok hother rfl
  | case4 fuel rest place hrest =>
      cases h
      refine ⟨['\''], rfl, ?_⟩
      rintro other hother place (_ | fuel) hfuel
      · cases hfuel
      have hhead := hother.ne_cons (by decide) hrest
      simp only [List.cons_append, List.nil_append, unicodeText, if_true]
      rfl
  | case5 fuel place tail after hslash =>
      rename_i ih
      obtain ⟨⟨front, cursor⟩, hread, heq⟩ := exists_of_bind_eq_ok h
      cases heq
      refine (ih hread).lead '\\' ['\\'] ?_
      intro other _ fuel place cursor hother
      simp only [List.cons_append, List.nil_append, unicodeText, if_neg hslash, if_true]
      exact bind_eq_ok hother rfl
  | case6 fuel place tail after hslash =>
      rename_i ih
      obtain ⟨⟨c, behind⟩, hcode, h⟩ := exists_of_bind_eq_ok h
      obtain ⟨⟨value, cursor⟩, hread, heq⟩ := exists_of_bind_eq_ok h
      cases heq
      refine (codePointText_local hcode (ih behind hread)).lead '\\' ['+'] ?_
      intro other _ fuel place cursor hother
      simp only [List.cons_append, List.nil_append, unicodeText, if_neg hslash, if_true]
      exact hother
  | case7 fuel rest place hslashes hplus after hslash =>
      rename_i ih
      obtain ⟨⟨c, behind⟩, hcode, h⟩ := exists_of_bind_eq_ok h
      obtain ⟨⟨value, cursor⟩, hread, heq⟩ := exists_of_bind_eq_ok h
      cases heq
      refine (codePointText_local hcode (ih behind hread)).lead '\\' [] ?_
      intro other hother fuel place cursor hcodes
      have hslashes' := hother.ne_cons (by decide) hslashes
      have hplus' := hother.ne_cons (by decide) hplus
      simp only [List.cons_append, List.nil_append, unicodeText, if_neg hslash, if_true]
      exact hcodes
  | case8 fuel c rest place after hquote hslash =>
      rename_i ih
      obtain ⟨⟨front, cursor⟩, hread, heq⟩ := exists_of_bind_eq_ok h
      cases heq
      refine (ih hread).lead c [] ?_
      intro other _ fuel place cursor hother
      simp only [List.cons_append, List.nil_append, unicodeText, if_neg hquote, if_neg hslash]
      exact bind_eq_ok hother rfl

/-! ## Comments and texts between marks -/

theorem map_eq_ok_iff
    {ε α β : Type} {read : Except ε α} {f : α → β} {result : β} :
    read.map f = .ok result ↔ ∃ value, read = .ok value ∧ f value = result := by
  cases read <;> simp [Except.map]

theorem blockComment_local
    {depth : Nat} {text value : List Char} {place : Location} {cursor : Cursor}
    (h : blockComment depth text place = reached value cursor) :
    Local reached (blockComment depth) text value cursor := by
  fun_induction blockComment depth text place generalizing value cursor with
  | case1 => cases h
  | case2 depth rest place ih =>
      obtain ⟨⟨front, cursor⟩, hread, heq⟩ := map_eq_ok_iff.mp h
      cases heq
      refine (ih hread).lead ['/', '*'] ?_
      intro other _ place cursor hother
      exact map_eq_ok_iff.mpr ⟨_, hother, rfl⟩
  | case3 | case4 =>
      cases h
      exact ⟨['*', '/'], rfl, fun other _ place => rfl⟩
  | case5 rest place after depth hdepth =>
      rename_i ih
      obtain ⟨⟨front, cursor⟩, hread, heq⟩ := map_eq_ok_iff.mp h
      cases heq
      refine (ih hread).lead ['*', '/'] ?_
      intro other _ place cursor hother
      simp only [List.cons_append, List.nil_append, blockComment]
      exact map_eq_ok_iff.mpr ⟨_, hother, rfl⟩
  | case6 depth c rest place hopen hclose ih =>
      obtain ⟨⟨front, cursor⟩, hread, heq⟩ := map_eq_ok_iff.mp h
      cases heq
      refine (ih hread).lead [c] ?_
      intro other hother place cursor hmore
      have hopen' : ∀ tail, c = '/' → other = '*' :: tail → False := fun tail hc =>
        hother.ne_cons (by decide) (fun more => hopen more hc) tail
      have hclose' : ∀ tail, c = '*' → other = '/' :: tail → False := fun tail hc =>
        hother.ne_cons (by decide) (fun more => hclose more hc) tail
      simp only [List.cons_append, List.nil_append, blockComment]
      exact map_eq_ok_iff.mpr ⟨_, hmore, rfl⟩

theorem dropExact?_eq_some_iff {mark text rest : List Char} :
    dropExact? mark text = some rest ↔ text = mark ++ rest := by
  fun_induction dropExact? mark text with
  | case1 text => simp
  | case2 => simp
  | case3 mark c text ih => simp [ih]
  | case4 m mark c text hne => simp [Ne.symm hne]

theorem isSome_dropExact?_iff {mark text : List Char} :
    (dropExact? mark text).isSome = true ↔ mark <+: text := by
  rw [Option.isSome_iff_exists]
  exact exists_congr fun rest => dropExact?_eq_some_iff.trans eq_comm

theorem untilMark_local
    {mark text value : List Char} {place : Location} {cursor : Cursor} (hne : mark ≠ [])
    (hmark : '\n' ∉ mark) (h : untilMark mark text place = reached value cursor) :
    Local reached (untilMark mark) text value cursor := by
  fun_induction untilMark mark text place generalizing value cursor with
  | case1 => cases h
  | case2 c rest place tail htail =>
      have htext := dropExact?_eq_some_iff.mp htail
      rw [htext, skip_append] at h
      cases h
      refine ⟨mark, htext, ?_⟩
      intro other _ place
      obtain ⟨m, marks, rfl⟩ := List.exists_cons_of_ne_nil hne
      have hhere := dropExact?_eq_some_iff.mpr (rfl : m :: marks ++ other = m :: marks ++ other)
      rw [List.cons_append] at hhere ⊢
      rw [untilMark, hhere]
      exact congrArg (fun cursor => reached [] cursor) (skip_append (m :: marks) other place)
  | case3 c rest place hnone ih =>
      obtain ⟨⟨front, cursor⟩, hread, heq⟩ := map_eq_ok_iff.mp h
      cases heq
      refine (ih hread).lead [c] ?_
      intro other hother place cursor hmore
      have hnone' : dropExact? mark (c :: other) = none := by
        rw [Option.eq_none_iff_forall_ne_some]
        rintro tail htail
        have hbegin := hother.append [c] mark hmark
          ⟨tail, (dropExact?_eq_some_iff.mp htail).symm⟩
        rw [← isSome_dropExact?_iff] at hbegin
        rw [List.singleton_append, hnone] at hbegin
        cases hbegin
      simp only [List.cons_append, List.nil_append, untilMark, hnone']
      exact map_eq_ok_iff.mpr ⟨_, hmore, rfl⟩

/-! ## Numbers -/

/-- The point in a number. -/
def point (text : List Char) (place : Location) : List Char × Cursor :=
  match text with
  | '.' :: tail => (['.'], ⟨tail, place.step '.'⟩)
  | _ => ([], ⟨text, place⟩)

/-- A number whose digits are known, and the mark of a long one. -/
def markedNumber (digits : String) (text : List Char) (place : Location) : Step :=
  match text with
  | 'L' :: tail => .ok (.number digits true, ⟨tail, place.step 'L'⟩)
  | _ => .ok (.number digits false, ⟨text, place⟩)

/-- The exponent of a number. -/
def exponent (text : List Char) (place : Location) : List Char × Cursor :=
  numberOrPoint.exponentOf ⟨text, place⟩

/-- The end of a number, behind its digits and its point. -/
def numberEnd (plain text : List Char) (place : Location) : Step :=
  let (exponent, cursor) := exponent text place
  markedNumber (String.ofList (plain ++ exponent)) cursor.rest cursor.place

/-- The digits of a number behind those and the point that are known. -/
def fraction (front text : List Char) (place : Location) : Step :=
  let (digits, cursor) := run Char.isDigit text place
  let plain := front ++ digits
  if plain = ['.'] then .ok (.symbol ".", cursor) else numberEnd plain cursor.rest cursor.place

/-- What follows the whole part of a number in base ten. -/
def decimal (whole text : List Char) (place : Location) : Step :=
  let (point, cursor) := point text place
  fraction (whole ++ point) cursor.rest cursor.place

/-- A number behind its first digit. -/
def number (first : Char) (text : List Char) (place : Location) : Step :=
  let (digits, cursor) := run Char.isDigit text place
  let whole := first :: digits
  match whole, cursor.rest with
  | ['0'], 'x' :: tail =>
    let (digits, cursor) := run (fun d => (hexValue? d).isSome) tail (cursor.place.step 'x')
    .ok (.quoted .hexadecimal (String.ofList digits), cursor)
  | _, _ => decimal whole cursor.rest cursor.place

theorem numberOrPoint_digit {c : Char} (hc : c.isDigit = true) (before : Option Token)
    (rest : List Char) (place : Location) :
    numberOrPoint before c rest place = number c rest (place.step c) := by
  unfold numberOrPoint
  split
  · cases hc
  · rw [run_cons hc]
    rfl

theorem numberOrPoint_point {rest : List Char} (h : ∀ tail, rest ≠ '_' :: tail)
    (before : Option Token) (place : Location) :
    numberOrPoint before '.' rest place = fraction ['.'] rest (place.step '.') := by
  unfold numberOrPoint
  split
  · exact absurd rfl (h _)
  · rfl

section

variable {text front : List Char} {place : Location} {token : Token} {cursor : Cursor}

theorem point_local (h : point text place = (front, cursor)) :
    Local Prod.mk point text front cursor := by
  unfold point at h
  split at h
  · cases h
    exact ⟨['.'], rfl, fun other _ place => rfl⟩
  · next hnone =>
      cases h
      refine ⟨[], rfl, ?_⟩
      intro other hother place
      have hnone' := hother.ne_cons (by decide) hnone
      simp only [List.nil_append, point]
      rfl

theorem markedNumber_local
    {digits : String} (h : markedNumber digits text place = reached token cursor) :
    Local reached (markedNumber digits) text token cursor := by
  unfold markedNumber at h
  split at h
  · cases h
    exact ⟨['L'], rfl, fun other _ place => rfl⟩
  · next hnone =>
      cases h
      refine ⟨[], rfl, ?_⟩
      intro other hother place
      have hnone' := hother.ne_cons (by decide) hnone
      simp only [List.nil_append, markedNumber]
      rfl

/-- What stands before the digits of an exponent. -/
def IsExponentMark (mark : List Char) : Prop :=
  ∃ e, (e = 'e' ∨ e = 'E') ∧ (mark = [e] ∨ ∃ sign, (sign = '+' ∨ sign = '-') ∧ mark = [e, sign])

theorem exponent_of_mark
    {mark : List Char} {d : Char} {tail : List Char} (hmark : IsExponentMark mark)
    (hd : d.isDigit = true) (place : Location) :
    exponent (mark ++ d :: tail) place =
      (mark ++ (run Char.isDigit (d :: tail) (place.after mark)).1,
        (run Char.isDigit (d :: tail) (place.after mark)).2) := by
  obtain ⟨e, he, rfl | ⟨sign, hsign, rfl⟩⟩ := hmark
  · have hnone : ¬ (d = '+' ∨ d = '-') := by
      rintro (rfl | rfl) <;> cases hd
    simp only [exponent, numberOrPoint.exponentOf, List.cons_append, List.nil_append, if_pos he,
      if_neg hnone, List.length_singleton, skip, if_pos hd]
    rfl
  · simp only [exponent, numberOrPoint.exponentOf, List.cons_append, List.nil_append, if_pos he,
      if_pos hsign, List.length_cons, List.length_nil, skip, if_pos hd]
    rfl

theorem exponent_of_none
    (h : ∀ mark d tail, IsExponentMark mark → d.isDigit = true → text ≠ mark ++ d :: tail)
    (place : Location) : exponent text place = ([], ⟨text, place⟩) := by
  have hmark : ∀ {mark rest : List Char}, IsExponentMark mark → text = mark ++ rest →
      ∀ d ∈ rest.head?, d.isDigit = false := by
    rintro mark rest hmark rfl d hd
    obtain ⟨tail, rfl⟩ := List.head?_eq_some_iff.mp hd
    by_contra hdigit
    exact h mark d tail hmark (Bool.not_eq_false _ ▸ hdigit) rfl
  rcases text with _ | ⟨e, _ | ⟨sign, tail⟩⟩
  · rfl
  · rfl
  · by_cases he : e = 'e' ∨ e = 'E'
    · by_cases hsign : sign = '+' ∨ sign = '-'
      · have hstop := hmark ⟨e, he, .inr ⟨sign, hsign, rfl⟩⟩ (rfl : _ = [e, sign] ++ tail)
        cases tail with
        | nil =>
            simp only [exponent, numberOrPoint.exponentOf, if_pos he, if_pos hsign,
              List.length_cons, List.length_nil, skip]
        | cons d tail =>
            simp only [exponent, numberOrPoint.exponentOf, if_pos he, if_pos hsign,
              List.length_cons, List.length_nil, skip, hstop d rfl, Bool.false_eq_true, if_false]
      · have hstop := hmark ⟨e, he, .inl rfl⟩ (rfl : _ = [e] ++ sign :: tail)
        simp only [exponent, numberOrPoint.exponentOf, if_pos he, if_neg hsign,
          List.length_singleton, skip, hstop sign rfl, Bool.false_eq_true, if_false]
    · simp only [exponent, numberOrPoint.exponentOf, if_neg he]

theorem exponent_local (h : exponent text place = (front, cursor)) :
    Local Prod.mk exponent text front cursor := by
  have hline : ∀ {mark : List Char} {d : Char}, IsExponentMark mark → d.isDigit = true →
      '\n' ∉ mark ++ [d] := by
    rintro mark d ⟨e, he, hmark⟩ hd
    have hd' : '\n' ≠ d := by
      rintro rfl
      cases hd
    have he' : '\n' ≠ e := by
      rintro rfl
      rcases he with he | he <;> cases he
    rcases hmark with rfl | ⟨sign, hsign, rfl⟩
    · simp [he', hd']
    · have hsign' : '\n' ≠ sign := by
        rintro rfl
        rcases hsign with hsign | hsign <;> cases hsign
      simp [he', hsign', hd']
  by_cases hmark : ∃ mark d tail, IsExponentMark mark ∧ d.isDigit = true ∧ text = mark ++ d :: tail
  · obtain ⟨mark, d, tail, hmark, hd, rfl⟩ := hmark
    obtain ⟨digits, rest, -, -, -, hrun⟩ := run_cases Char.isDigit tail ((place.after mark).step d)
    rw [exponent_of_mark hmark hd, run_cons hd, hrun] at h
    cases h
    have hlocal : Local Prod.mk exponent ((mark ++ [d]) ++ tail) (mark ++ d :: digits) _ :=
      (run_local (by decide) hrun).lead (mark ++ [d]) ?_
    · rwa [List.append_assoc] at hlocal
    · intro other _ place cursor hother
      have hplace : place.after (mark ++ [d]) = (place.after mark).step d := after_append _ _ _
      rw [hplace] at hother
      rw [List.append_assoc, List.singleton_append, exponent_of_mark hmark hd, run_cons hd, hother]
  · have hnone : ∀ mark d tail, IsExponentMark mark → d.isDigit = true →
        text ≠ mark ++ d :: tail := fun mark d tail hm hd heq => hmark ⟨mark, d, tail, hm, hd, heq⟩
    rw [exponent_of_none hnone] at h
    cases h
    refine ⟨[], rfl, ?_⟩
    rintro other hother place
    refine exponent_of_none ?_ place
    rintro mark d tail hm hd rfl
    obtain ⟨more, hmore⟩ := hother (mark ++ [d]) (hline hm hd) ⟨tail, by simp⟩
    exact hnone mark d more hm hd (by simpa using hmore.symm)

theorem numberEnd_local
    {plain : List Char} (h : numberEnd plain text place = reached token cursor) :
    Local reached (numberEnd plain) text token cursor := by
  obtain ⟨mark, after, hmark⟩ : ∃ mark after, exponent text place = (mark, after) := ⟨_, _, rfl⟩
  rw [numberEnd, hmark] at h
  refine (exponent_local hmark).andThen (markedNumber_local h) ?_
  intro other _ place after after' hother _ hafter
  rw [numberEnd, hother]
  exact hafter

theorem fraction_local (h : fraction front text place = reached token cursor) :
    Local reached (fraction front) text token cursor := by
  obtain ⟨digits, after, hdigits⟩ : ∃ digits after, run Char.isDigit text place = (digits, after) :=
    ⟨_, _, rfl⟩
  simp only [fraction, hdigits] at h
  have hrun := run_local (by decide) hdigits
  split at h
  · next hplain =>
      cases h
      obtain ⟨front, htext, hread⟩ := hrun
      refine ⟨front, htext, ?_⟩
      intro other hother place
      simp only [fraction, hread other hother, if_pos hplain]
  · next hplain =>
      refine hrun.andThen (numberEnd_local h) ?_
      intro other _ place after after' hother _ hafter
      simp only [fraction, hother, if_neg hplain]
      exact hafter

theorem decimal_local
    {whole : List Char} (h : decimal whole text place = reached token cursor) :
    Local reached (decimal whole) text token cursor := by
  obtain ⟨mark, after, hmark⟩ : ∃ mark after, point text place = (mark, after) := ⟨_, _, rfl⟩
  rw [decimal, hmark] at h
  refine (point_local hmark).andThen (fraction_local h) ?_
  intro other _ place after after' hother _ hafter
  rw [decimal, hother]
  exact hafter

/-- The digits of a hexadecimal number, behind its zero. -/
def hexDigits (text : List Char) (place : Location) : Option (List Char × Cursor) :=
  match text with
  | 'x' :: tail => some (run (fun d => (hexValue? d).isSome) tail (place.step 'x'))
  | _ => none

theorem number_local {first : Char} (h : number first text place = reached token cursor) :
    Local reached (number first) text token cursor := by
  obtain ⟨digits, after, hdigits⟩ : ∃ digits after, run Char.isDigit text place = (digits, after) :=
    ⟨_, _, rfl⟩
  simp only [number, hdigits] at h
  have hrun := run_local (by decide) hdigits
  split at h
  · next tail hwhole hrest =>
      obtain ⟨digits, behind, hhex⟩ : ∃ digits behind,
          run (fun d => (hexValue? d).isSome) tail (after.place.step 'x') = (digits, behind) :=
        ⟨_, _, rfl⟩
      rw [hhex] at h
      cases h
      have hlocal : Local found hexDigits (['x'] ++ tail) digits behind :=
        (run_local (by decide) hhex).lead ['x'] fun other _ place cursor hother =>
          congrArg some hother
      refine hrun.andThen (by rw [hrest]; exact hlocal) ?_
      intro other _ place after' behind' hother _ hafter
      unfold hexDigits at hafter
      split at hafter
      · next hrest' =>
          simp only [number, hother, hwhole, hrest', Option.some.inj hafter]
      · cases hafter
  · next hnone =>
      refine hrun.andThen (decimal_local h) ?_
      intro other _ place after' behind hother hnarrow hafter
      have hnone' : ∀ tail, first :: digits = ['0'] → after'.rest = 'x' :: tail → False :=
        fun tail hw => hnarrow.ne_cons (by decide) (fun more hmore => hnone more hw hmore) tail
      simp only [number, hother]
      exact hafter

end

end Lexer

end Relocate.Sql
