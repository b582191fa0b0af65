import Mathlib.Data.String.Basic
import Relocate.Json.Shape

/-!
# What readers get from a text

`Reads reader text value rest` says that the reader gets the value from the start
of the text and leaves the rest, whatever the place of the text.  This is closed
under `pure` and `bind`, so a reader is followed through a text step by step.

Texts and integers are read back as they were written.  The end of a number is
seen only from what stands behind it; behind a written value that is a comma, a
line feed or nothing, which is `Closes`.
-/

namespace Relocate.Json.Reader

variable {α β : Type}

/-- From the text the reader gets the value and leaves the rest. -/
def Reads (reader : Reader α) (text : List Char) (value : α) (rest : List Char) : Prop :=
  ∀ cursor : Cursor, cursor.rest = text →
    ∃ after : Cursor, reader cursor = .ok (value, after) ∧ after.rest = rest

theorem reads_pure (value : α) (text : List Char) :
    Reads (pure value) text value text := by
  intro cursor hcursor
  exact ⟨cursor, rfl, hcursor⟩

theorem Reads.bind {first : Reader α} {next : α → Reader β} {text middle rest : List Char}
    {x : α} {y : β} (hfirst : Reads first text x middle) (hnext : Reads (next x) middle y rest) :
    Reads (first >>= next) text y rest := by
  intro cursor hcursor
  obtain ⟨between, hbetween, hmiddle⟩ := hfirst cursor hcursor
  obtain ⟨after, hafter, hrest⟩ := hnext between hmiddle
  refine ⟨after, ?_, hrest⟩
  simp only [Bind.bind, hbetween]
  exact hafter

theorem Reads.map {reader : Reader α} {text rest : List Char} {x : α} (f : α → β)
    (h : Reads reader text x rest) : Reads (f <$> reader) text (f x) rest :=
  h.bind (reads_pure (f x) rest)

/-! ## Single characters -/

theorem reads_peek? (text : List Char) : Reads peek? text text.head? text := by
  intro cursor hcursor
  exact ⟨cursor, by rw [peek?, hcursor], hcursor⟩

@[simp]
theorem rest_behind (cursor : Cursor) (c : Char) (rest : List Char) :
    (cursor.behind c rest).rest = rest := by
  unfold Cursor.behind
  split <;> rfl

theorem reads_advance (c : Char) (rest : List Char) : Reads advance (c :: rest) () rest := by
  intro cursor hcursor
  exact ⟨cursor.behind c rest, by rw [advance, hcursor], rest_behind cursor c rest⟩

theorem reads_fuel (text : List Char) : Reads fuel text text.length text := by
  intro cursor hcursor
  exact ⟨cursor, by rw [fuel, hcursor], hcursor⟩

theorem rest_dropWhileFrom (p : Char → Bool) (text : List Char) (cursor : Cursor)
    (hcursor : cursor.rest = text) : (dropWhileFrom p text cursor).rest = text.dropWhile p := by
  induction text generalizing cursor with
  | nil => exact hcursor
  | cons c rest ih =>
    by_cases hc : p c = true
    · rw [dropWhileFrom, if_pos hc, List.dropWhile_cons_of_pos hc]
      exact ih _ (rest_behind cursor c rest)
    · rw [dropWhileFrom, if_neg hc, List.dropWhile_cons_of_neg hc]
      exact hcursor

theorem reads_takeWhile (p : Char → Bool) (text : List Char) :
    Reads (takeWhile p) text (text.takeWhile p) (text.dropWhile p) := by
  intro cursor hcursor
  refine ⟨dropWhileFrom p cursor.rest cursor, ?_, ?_⟩
  · rw [takeWhile, hcursor]
  · rw [hcursor]
    exact rest_dropWhileFrom p text cursor hcursor

/-- Behind blanks comes a character that is none. -/
theorem reads_afterBlanks? {blanks : List Char} {c : Char} (rest : List Char)
    (hblanks : ∀ blank ∈ blanks, isBlank blank = true) (hc : isBlank c = false) :
    Reads afterBlanks? (blanks ++ c :: rest) (some c) (c :: rest) := by
  intro cursor hcursor
  have hdropped : (dropWhileFrom isBlank cursor.rest cursor).rest = c :: rest := by
    rw [hcursor, rest_dropWhileFrom isBlank _ cursor hcursor,
      List.dropWhile_append_of_pos hblanks, List.dropWhile_cons_of_neg (by simp [hc])]
  exact ⟨_, by rw [afterBlanks?, hdropped, List.head?_cons], hdropped⟩

/-- Without blanks in front. -/
theorem reads_next? {c : Char} (rest : List Char) (hc : isBlank c = false) :
    Reads afterBlanks? (c :: rest) (some c) (c :: rest) :=
  @reads_afterBlanks? [] c rest (by simp) hc

theorem reads_wordEnd (letters rest : List Char) :
    Reads (wordEnd letters) (letters ++ rest) () rest := by
  induction letters with
  | nil => exact reads_pure () rest
  | cons letter letters ih =>
    apply (reads_peek? _).bind
    simp only [List.cons_append, List.head?_cons, if_true]
    exact (reads_advance letter _).bind ih

/-- What depends on the cursor depends on the text alone. -/
theorem reads_cursor {next : Cursor → Reader β} {text rest : List Char} {y : β}
    (hnext : ∀ here : Cursor, here.rest = text → Reads (next here) text y rest) :
    Reads (cursor >>= next) text y rest := by
  intro here hhere
  exact hnext here hhere here hhere

/-! ## Texts -/

/-- The code of a control character in four digits. -/
theorem reads_codeUnit {code : Nat} (hcode : code < 0x20) (rest : List Char) :
    Reads codeUnit ('0' :: '0' :: twoHexDigits code ++ rest) code rest := by
  have hvalue : ∀ code < 0x20, hexValue? ('0' :: '0' :: twoHexDigits code) = some code := by
    decide
  have hbytes : ∀ code < 0x20, byteCount ('0' :: '0' :: twoHexDigits code) = 4 := by
    decide
  apply reads_cursor
  intro here hhere
  have htaken : here.rest.take 4 = '0' :: '0' :: twoHexDigits code := by
    rw [hhere, twoHexDigits]
    rfl
  rw [htaken, hbytes code hcode, hvalue code hcode]
  simp only [Nat.lt_irrefl, if_false]
  apply (reads_advance _ _).bind
  apply (reads_advance _ _).bind
  apply (reads_advance _ _).bind
  apply (reads_advance _ _).bind
  exact reads_pure code rest

theorem reads_unicodeEscape {c : Char} (hcode : c.toNat < 0x20) (rest : List Char) :
    Reads unicodeEscape ('0' :: '0' :: twoHexDigits c.toNat ++ rest) c rest := by
  apply (reads_codeUnit hcode rest).bind
  have hlow : ¬ (0xDC00 ≤ c.toNat ∧ c.toNat ≤ 0xDFFF) := by omega
  have hsingle : c.toNat < 0xD800 ∨ 0xDBFF < c.toNat := by omega
  rw [if_neg hlow, if_pos hsingle, Char.ofNat_toNat]
  exact reads_pure c rest

theorem reads_simpleEscape {mark c : Char} (hmark : simpleEscape? mark = some c)
    (rest : List Char) : Reads (escape unicodeEscape) (mark :: rest) c rest := by
  apply (reads_peek? _).bind
  simp only [List.head?_cons, hmark]
  apply (reads_advance mark rest).bind
  exact reads_pure c rest

/-- A control character is read back from its code. -/
theorem reads_codeEscape {c : Char} (hcode : c.toNat < 0x20) (rest : List Char) :
    Reads (escape unicodeEscape) ('u' :: '0' :: '0' :: twoHexDigits c.toNat ++ rest) c rest := by
  apply (reads_peek? _).bind
  simp only [List.cons_append, List.head?_cons, show simpleEscape? 'u' = none from rfl, if_true]
  apply (reads_advance 'u' _).bind
  exact reads_unicodeEscape hcode rest

section

variable {fuel : Nat} {c : Char} {more text rest : List Char}

theorem reads_textFrom_escape {escaped : List Char}
    (hescape : Reads (escape unicodeEscape) escaped c more)
    (hmore : Reads (textFrom fuel) more text rest) :
    Reads (textFrom (fuel + 1)) ('\\' :: escaped) (c :: text) rest := by
  apply (reads_peek? _).bind
  apply (reads_advance _ _).bind
  apply hescape.bind
  apply hmore.bind
  exact reads_pure _ rest

theorem reads_textFrom_plain (hquote : c ≠ '"') (hslash : c ≠ '\\') (hcode : ¬ c.toNat < 0x20)
    (hmore : Reads (textFrom fuel) more text rest) :
    Reads (textFrom (fuel + 1)) (c :: more) (c :: text) rest := by
  apply (reads_peek? _).bind
  simp only [List.head?_cons, if_neg hcode]
  apply (reads_advance c more).bind
  apply hmore.bind
  exact reads_pure _ rest

/-- A written character is read back. -/
theorem reads_writeChar (hmore : Reads (textFrom fuel) more text rest) :
    Reads (textFrom (fuel + 1)) (writeChar c ++ more) (c :: text) rest := by
  have hescaped {mark : Char} (hmark : simpleEscape? mark = some c) :
      Reads (textFrom (fuel + 1)) ('\\' :: mark :: more) (c :: text) rest :=
    reads_textFrom_escape (reads_simpleEscape hmark more) hmore
  unfold writeChar
  split
  · exact hescaped rfl
  · exact hescaped rfl
  · exact hescaped rfl
  · exact hescaped rfl
  · exact hescaped rfl
  · next hquote hslash _ _ _ =>
    split
    · next hcode =>
      have hc : c = Char.ofNat 8 := by rw [← hcode, Char.ofNat_toNat]
      exact hescaped (hc ▸ rfl)
    · split
      · next hcode =>
        have hc : c = Char.ofNat 12 := by rw [← hcode, Char.ofNat_toNat]
        exact hescaped (hc ▸ rfl)
      · split
        · next hcode =>
          exact reads_textFrom_escape (reads_codeEscape hcode more) hmore
        · next hcode => exact reads_textFrom_plain hquote hslash hcode hmore

end

theorem reads_textFrom (chars rest : List Char) {fuel : Nat} (hfuel : chars.length < fuel) :
    Reads (textFrom fuel) (chars.flatMap writeChar ++ '"' :: rest) chars rest := by
  induction chars generalizing fuel with
  | nil =>
    obtain ⟨fuel, rfl⟩ := Nat.exists_eq_succ_of_ne_zero (Nat.ne_of_gt hfuel)
    apply (reads_peek? _).bind
    apply (reads_advance '"' rest).bind
    exact reads_pure [] rest
  | cons c chars ih =>
    obtain ⟨fuel, rfl⟩ := Nat.exists_eq_succ_of_ne_zero (Nat.ne_of_gt (Nat.zero_lt_of_lt hfuel))
    rw [List.flatMap_cons, List.append_assoc]
    exact reads_writeChar (ih (Nat.lt_of_succ_lt_succ hfuel))

theorem length_le_flatMap_writeChar (chars : List Char) :
    chars.length ≤ (chars.flatMap writeChar).length := by
  induction chars with
  | nil => exact Nat.le_refl _
  | cons c chars ih =>
    have hpos : 0 < (writeChar c).length := by
      unfold writeChar
      repeat' split
      all_goals simp
    rw [List.flatMap_cons, List.length_append, List.length_cons]
    omega

/-- A written text is read back, behind its opening quote. -/
theorem reads_text (written : String) (rest : List Char) :
    Reads text (written.toList.flatMap writeChar ++ '"' :: rest) written rest := by
  apply (reads_fuel _).bind
  have hlength := length_le_flatMap_writeChar written.toList
  apply (reads_textFrom written.toList rest (by simp only [List.length_append]; omega)).bind
  rw [String.ofList_toList]
  exact reads_pure written rest

/-! ## Integers -/

/-- What may stand behind a written value. -/
def Closes (rest : List Char) : Prop :=
  ∀ c ∈ rest.head?, c = ',' ∨ c = '\n'

/-- The values of digits. -/
def digitValues (chars : List Char) : List Nat :=
  chars.map fun c => c.toNat - 48

theorem le_ofDigitChars (chars : List Char) (value : Nat) :
    value ≤ Nat.ofDigitChars 10 chars value := by
  induction chars generalizing value with
  | nil => exact Nat.le_refl _
  | cons c chars ih =>
    rw [Nat.ofDigitChars_cons]
    exact Nat.le_trans (by omega) (ih _)

/-- Digits of an integer that is kept all fit. -/
theorem integerPart_digitValues {chars : List Char} {value : Nat}
    (hfits : Nat.ofDigitChars 10 chars value ≤ maxNatural) :
    integerPart value (digitValues chars) = (Nat.ofDigitChars 10 chars value, 0) := by
  induction chars generalizing value with
  | nil => rfl
  | cons c chars ih =>
    rw [Nat.ofDigitChars_cons, Nat.mul_comm] at hfits ⊢
    have hnext : value * 10 + (c.toNat - 48) ≤ maxNatural :=
      Nat.le_trans (le_ofDigitChars chars _) hfits
    rw [digitValues, List.map_cons, integerPart, if_pos hnext]
    exact ih hfits

theorem integerPart_toDigits {n : Nat} (hn : n ≤ maxNatural) :
    integerPart 0 (digitValues (Nat.toDigits 10 n)) = (n, 0) := by
  have hvalue : Nat.ofDigitChars 10 (Nat.toDigits 10 n) 0 = n :=
    Nat.ofDigitChars_toDigits (by decide) (by decide)
  rw [integerPart_digitValues (hvalue.symm ▸ hn), hvalue]

theorem toList_toString (n : Nat) : (toString n).toList = Nat.toDigits 10 n := by
  show n.repr.toList = _
  rw [Nat.repr_eq_ofList_toDigits, String.toList_ofList]

/-- An integer is written with a digit in front. -/
theorem exists_toString_eq_cons (n : Nat) :
    ∃ c rest, (toString n).toList = c :: rest ∧ c.isDigit = true := by
  rw [toList_toString]
  cases hchars : Nat.toDigits 10 n with
  | nil => exact absurd hchars Nat.toDigits_ne_nil
  | cons c rest =>
    have hmem : c ∈ Nat.toDigits 10 n := by simp [hchars]
    exact ⟨c, rest, rfl, Nat.isDigit_of_mem_toDigits (by decide) (by decide) hmem⟩

/-- No integer but zero is written with a zero in front. -/
theorem head?_toDigits_ne_zero {n : Nat} (hn : 0 < n) :
    (Nat.toDigits 10 n).head? ≠ some '0' := by
  induction n using Nat.strongRecOn with
  | ind n ih =>
    by_cases hsmall : n < 10
    · have hdigit : ∀ m < 10, 0 < m → m.digitChar ≠ '0' := by decide
      rw [Nat.toDigits_of_lt_base hsmall, List.head?_cons]
      exact fun h => hdigit n hsmall hn (Option.some.inj h)
    · rw [Nat.toDigits_of_base_le (by decide) (by omega),
        List.head?_append_of_ne_nil _ Nat.toDigits_ne_nil]
      exact ih (n / 10) (by omega) (by omega)

section

variable {rest : List Char} (hrest : Closes rest)

include hrest

theorem Closes.isDigit {c : Char} (hc : c ∈ rest.head?) : c.isDigit = false := by
  rcases hrest c hc with rfl | rfl <;> rfl

theorem Closes.takeWhile_isDigit {chars : List Char} (hchars : ∀ c ∈ chars, c.isDigit = true) :
    (chars ++ rest).takeWhile Char.isDigit = chars ∧
      (chars ++ rest).dropWhile Char.isDigit = rest := by
  rw [List.takeWhile_append_of_pos hchars, List.dropWhile_append_of_pos hchars]
  cases rest with
  | nil => simp
  | cons c rest =>
    have hc : ¬ c.isDigit = true := by simp [hrest.isDigit (c := c) rfl]
    rw [List.takeWhile_cons_of_neg hc, List.dropWhile_cons_of_neg hc]
    simp

theorem Closes.reads_digits {chars : List Char} (hchars : ∀ c ∈ chars, c.isDigit = true) :
    Reads digits (chars ++ rest) (digitValues chars) rest := by
  obtain ⟨htaken, hdropped⟩ := hrest.takeWhile_isDigit hchars
  have htake := reads_takeWhile Char.isDigit (chars ++ rest)
  rw [htaken, hdropped] at htake
  apply htake.bind
  exact reads_pure _ rest

theorem Closes.reads_integerDigits (n : Nat) (atEnd : String) :
    Reads (integerDigits atEnd) (Nat.toDigits 10 n ++ rest) (digitValues (Nat.toDigits 10 n))
      rest := by
  apply (reads_peek? _).bind
  by_cases hzero : n = 0
  · subst hzero
    apply (reads_advance '0' rest).bind
    apply (reads_peek? rest).bind
    cases hhead : rest.head? with
    | none => exact reads_pure [0] rest
    | some c =>
      simp only [hrest.isDigit hhead, Bool.false_eq_true, if_false]
      exact reads_pure [0] rest
  · have hhead := head?_toDigits_ne_zero (Nat.pos_of_ne_zero hzero)
    have hdigits : ∀ c ∈ Nat.toDigits 10 n, c.isDigit = true :=
      fun c hc => Nat.isDigit_of_mem_toDigits (by decide) (by decide) hc
    have hread := hrest.reads_digits hdigits
    cases hchars : Nat.toDigits 10 n with
    | nil => exact absurd hchars Nat.toDigits_ne_nil
    | cons c chars =>
      rw [hchars] at hhead hdigits hread
      have hzero : c ≠ '0' := fun h => hhead (congrArg some h)
      simp only [List.cons_append, List.head?_cons, hdigits c List.mem_cons_self, if_true]
      exact hread

theorem Closes.reads_fraction? (atEnd : String) : Reads (fraction? atEnd) rest none rest := by
  apply (reads_peek? rest).bind
  cases hhead : rest.head? with
  | none => exact reads_pure none rest
  | some c =>
    rcases hrest c hhead with rfl | rfl
    · exact reads_pure none rest
    · exact reads_pure none rest

theorem Closes.reads_exponentSign? : Reads exponentSign? rest none rest := by
  apply (reads_peek? rest).bind
  cases hhead : rest.head? with
  | none => exact reads_pure none rest
  | some c =>
    rcases hrest c hhead with rfl | rfl
    · exact reads_pure none rest
    · exact reads_pure none rest

/-- A written integer is read back, behind its sign. -/
theorem Closes.reads_number {n : Nat} (hn : n ≤ maxNatural) (isNegative : Bool) :
    Reads (number isNegative) ((toString n).toList ++ rest) (integer isNegative n) rest := by
  rw [toList_toString]
  apply (hrest.reads_integerDigits n _).bind
  rw [integerPart_toDigits hn]
  apply (hrest.reads_fraction? _).bind
  apply hrest.reads_exponentSign?.bind
  exact reads_pure _ rest

end

end Relocate.Json.Reader
