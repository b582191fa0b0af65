import Relocate.Proofs.Sql.Lookahead

/-!
# What may follow a token

The token at the start of a text stays the same when another text follows it in which no
more stands before the first line feed.  Only `#`, `@`, `@@`, a carriage return and a
comment at the end of the text may take a line feed behind them (`Token.TakesNewline`).
-/

namespace Relocate.Sql

open Text

/-- A line feed behind the token may become part of it. -/
def Token.TakesNewline : Token → Prop
  | symbol text => text = "#" ∨ text = "@" ∨ text = "@@"
  | blank text => text = "\r" ∨ ['-', '-'] <+: text.toList ∧ text.toList.getLast? ≠ some '\n'
  | _ => False

instance : DecidablePred Token.TakesNewline := fun token =>
  match token with
  | .symbol text => inferInstanceAs (Decidable (text = "#" ∨ text = "@" ∨ text = "@@"))
  | .blank text =>
      inferInstanceAs (Decidable
        (text = "\r" ∨ ['-', '-'] <+: text.toList ∧ text.toList.getLast? ≠ some '\n'))
  | .word _ | .number .. | .quoted .. | .dollarQuoted .. | .placeholder _ => .isFalse id

namespace Lexer

/-- A text that may stand behind the token in the place of the rest. -/
structure MayFollow (token : Token) (other rest : List Char) : Prop where
  narrows : Narrows other rest
  line : token.TakesNewline → other.head? = some '\n' → rest.head? = some '\n'

theorem MayFollow.refl (token : Token) (rest : List Char) : MayFollow token rest rest :=
  ⟨Narrows.refl rest, fun _ hline => hline⟩

/-- The reader of a token that starts with a character reads the same one when another
text follows it that may, and at every place. -/
def LocalStep (c : Char) (read : List Char → Location → Step) (rest : List Char) (token : Token)
    (cursor : Cursor) : Prop :=
  ∃ back, rest = back ++ cursor.rest ∧ ∀ other, MayFollow token other cursor.rest →
    ∀ place, read (back ++ other) place = reached token ⟨other, place.after (c :: back)⟩

section

variable {α ρ : Type} {done : α → Cursor → ρ} {read : List Char → Location → ρ} {value : α}
  {c : Char} {rest : List Char} {place : Location} {token : Token} {cursor : Cursor}

theorem LocalStep.of_eq
    {step step' : List Char → Location → Step} (h : LocalStep c step rest token cursor)
    (heq : ∀ other place, step' other place = step other place) :
    LocalStep c step' rest token cursor := by
  obtain ⟨back, hrest, hread⟩ := h
  exact ⟨back, hrest, fun other hother place => (heq _ _).trans (hread other hother place)⟩

theorem Local.step
    {step : List Char → Location → Step} (h : Local done read rest value cursor)
    (lead : List Char)
    (hstep : ∀ other, Narrows other rest → ∀ place cursor,
      read other (place.after (c :: lead)) = done value cursor →
        step (lead ++ other) place = reached token cursor) :
    LocalStep c step (lead ++ rest) token cursor := by
  obtain ⟨front, rfl, hread⟩ := h
  refine ⟨lead ++ front, (List.append_assoc _ _ _).symm, ?_⟩
  intro other hother place
  have hplace : place.after (c :: (lead ++ front)) = (place.after (c :: lead)).after front :=
    after_append place (c :: lead) front
  rw [List.append_assoc, hplace]
  exact hstep _ (hother.narrows.append front) place _ (hread other hother.narrows _)

/-! ## Words and text constants -/

theorem bareWord_local
    {front : List Char} (h : bareWord front rest place = reached token cursor) :
    Local reached (bareWord front) rest token cursor := by
  obtain ⟨back, after, hrun⟩ : ∃ back after, run isWordPart rest place = (back, after) :=
    ⟨_, _, rfl⟩
  simp only [bareWord, hrun] at h
  cases h
  refine (run_local (by decide) hrun).lead [] ?_
  intro other _ place cursor hother
  simp only [List.nil_append, bareWord]
  rw [show run isWordPart other place = _ from hother]

theorem constant_eq_ok_iff
    {form : Quotation} {start : Location} {result : Option (List Char × Cursor)} :
    constant form start result = reached token cursor ↔
      ∃ value, result = found value cursor ∧ .quoted form (String.ofList value) = token := by
  cases result with
  | none => simp [constant]
  | some result =>
      obtain ⟨value, after⟩ := result
      simp [constant, and_comm]

section

variable {quote : Char} {tail : List Char}

theorem rawConstant_one (h : tail.head? ≠ some quote) (place : Location) :
    rawConstant quote (quote :: tail) place =
      constant (.raw quote) (place.step quote) (untilQuote quote tail (place.step quote)) := by
  cases tail with
  | nil => simp [rawConstant, run, skip]
  | cons d tail =>
      have hd : d ≠ quote := fun heq => h (congrArg some heq)
      simp [rawConstant, run, skip, hd]

theorem rawConstant_two (h : tail.head? ≠ some quote) (place : Location) :
    rawConstant quote (quote :: quote :: tail) place =
      .ok (.quoted (.raw quote) "", ⟨tail, place.after [quote, quote]⟩) := by
  cases tail with
  | nil => simp [rawConstant, run, skip, Location.after]
  | cons d tail =>
      have hd : d ≠ quote := fun heq => h (congrArg some heq)
      simp [rawConstant, run, skip, hd, Location.after]

theorem rawConstant_three (tail : List Char) (place : Location) :
    rawConstant quote (quote :: quote :: quote :: tail) place =
      constant (.rawTriple quote) (place.after [quote, quote, quote])
        (untilTripleQuote quote tail (place.after [quote, quote, quote])) := by
  simp [rawConstant, run, skip, Location.after]

theorem rawConstant_local
    (hquote : quote ≠ '\n') (h : rawConstant quote (quote :: tail) place = reached token cursor) :
    LocalStep quote (fun tail place => rawConstant quote (quote :: tail) place) tail token
      cursor := by
  by_cases hone : tail.head? = some quote
  · obtain ⟨tail, rfl⟩ := List.head?_eq_some_iff.mp hone
    by_cases htwo : tail.head? = some quote
    · obtain ⟨tail, rfl⟩ := List.head?_eq_some_iff.mp htwo
      rw [rawConstant_three] at h
      obtain ⟨value, hread, rfl⟩ := constant_eq_ok_iff.mp h
      refine (untilTripleQuote_local hquote hread).step [quote, quote] ?_
      intro other _ place cursor hother
      rw [List.cons_append, List.singleton_append, rawConstant_three]
      exact constant_eq_ok_iff.mpr ⟨value, hother, rfl⟩
    · rw [rawConstant_two htwo] at h
      cases h
      refine ⟨[quote], rfl, ?_⟩
      intro other hother place
      exact rawConstant_two (mt (hother.narrows.head_of_ne hquote) htwo) place
  · rw [rawConstant_one hone] at h
    obtain ⟨value, hread, rfl⟩ := constant_eq_ok_iff.mp h
    refine (untilQuote_local hquote hread).step [] ?_
    intro other hother place cursor hmore
    rw [List.nil_append, rawConstant_one (mt (hother.head_of_ne hquote) hone)]
    exact constant_eq_ok_iff.mpr ⟨value, hmore, rfl⟩

end

theorem wordOrConstant_local (h : wordOrConstant c rest place = reached token cursor) :
    LocalStep c (wordOrConstant c) rest token cursor := by
  unfold wordOrConstant at h
  simp only at h
  split at h
  case h_1 hc | h_2 hc | h_5 hc =>
    obtain ⟨value, hread, rfl⟩ := constant_eq_ok_iff.mp h
    refine (untilQuote_local (by decide) hread).step [_] ?_
    intro other _ place cursor hother
    simp only [List.cons_append, List.nil_append, wordOrConstant, hc]
    exact constant_eq_ok_iff.mpr ⟨value, hother, rfl⟩
  case h_3 hc | h_4 hc =>
    obtain ⟨back, hback, hread⟩ := rawConstant_local (by decide) h
    refine ⟨_ :: back, congrArg _ hback, ?_⟩
    intro other hother place
    simp only [List.cons_append, wordOrConstant, hc]
    exact hread other hother _
  case h_6 tail hc =>
    split at h
    · next value after hread =>
        cases h
        refine (escapedText_local hread).enough.step ['\''] ?_
        intro other _ place cursor hother
        have hmore : escapedText (other.length + 1) other ((place.step c).step '\'') =
          found value cursor := hother
        simp only [List.cons_append, List.nil_append, wordOrConstant, hc, hmore]
    · cases h
  case h_7 tail hc =>
    split at h
    · next value after hread =>
        cases h
        refine (unicodeText_local hread).enough.step ['&', '\''] ?_
        intro other _ place cursor hother
        have hmore : unicodeText (other.length + 1) other
            (((place.step c).step '&').step '\'') = reached value cursor := hother
        simp only [List.cons_append, List.nil_append, wordOrConstant, hc, hmore]
    · cases h
  case h_8 tail hc =>
    obtain ⟨value, hread, rfl⟩ := constant_eq_ok_iff.mp h
    refine (untilQuoteEscaped_local (by decide) hread).step [_] ?_
    intro other _ place cursor hother
    simp only [List.cons_append, List.nil_append, wordOrConstant, hc]
    exact constant_eq_ok_iff.mpr ⟨value, hother, rfl⟩
  case h_9 rest _ _ hb hb' hr hr' hn he hu hx =>
    refine (bareWord_local h).step [] ?_
    intro other hother place cursor hmore
    have hquote : ∀ {letter quote : Char}, quote ≠ '\n' →
        (∀ tail, c.toLower = letter → rest = quote :: tail → False) →
        ∀ tail, c.toLower = letter → other = quote :: tail → False := fun hline hnone tail hc =>
      hother.ne_cons hline (fun more => hnone more hc) tail
    have hu' : ∀ tail, c.toLower = 'u' → other = '&' :: '\'' :: tail → False := by
      rintro tail hc rfl
      obtain ⟨more, hmore⟩ := hother ['&', '\''] (by decide) ⟨tail, rfl⟩
      exact hu more hc hmore.symm
    rw [List.nil_append, wordOrConstant]
    · exact hmore
    all_goals first | exact hu' | exact hquote (by decide) (by assumption)

/-! ## Texts between dollar marks -/

/-- The characters of a tag between dollar marks. -/
abbrev isTagPart (c : Char) : Bool :=
  isLetterOrNumber c || c == '_'

/-- What a dollar mark and the characters of a tag begin: a text up to the next such tag,
or a placeholder. -/
def afterTag (tag text : List Char) (place : Location) : Step :=
  match text with
  | '$' :: tail =>
    match untilMark ('$' :: tag ++ ['$']) tail (place.step '$') with
    | .ok (value, cursor) => .ok (.dollarQuoted (String.ofList tag) (String.ofList value), cursor)
    | .error stop => .error ⟨"Unterminated dollar-quoted, expected $", stop⟩
  | _ => .ok (.placeholder (String.ofList ('$' :: tag)), ⟨text, place⟩)

theorem afterDollar_tag (h : ∀ tail, rest ≠ '$' :: tail) (place : Location) :
    afterDollar rest place =
      afterTag (run isTagPart rest place).1 (run isTagPart rest place).2.rest
        (run isTagPart rest place).2.place := by
  unfold afterDollar
  split
  · exact absurd rfl (h _)
  · rfl

theorem afterTag_local
    {tag : List Char} (htag : '\n' ∉ tag) (h : afterTag tag rest place = reached token cursor) :
    Local reached (afterTag tag) rest token cursor := by
  unfold afterTag at h
  split at h
  · next tail =>
      split at h
      · next value after hread =>
          cases h
          have hmark : '\n' ∉ '$' :: tag ++ ['$'] := by simp [htag]
          refine (untilMark_local (by simp) hmark hread).lead ['$'] ?_
          intro other _ place cursor hother
          simp only [List.singleton_append, afterTag]
          rw [show untilMark ('$' :: tag ++ ['$']) other (place.step '$') = _ from hother]
      · cases h
  · next hnone =>
      cases h
      refine ⟨[], rfl, ?_⟩
      intro other hother place
      have hnone' := hother.ne_cons (by decide) hnone
      simp only [List.nil_append, afterTag]
      rfl

theorem afterDollar_local (h : afterDollar rest place = reached token cursor) :
    Local reached afterDollar rest token cursor := by
  by_cases hmark : ∃ tail, rest = '$' :: tail
  · obtain ⟨tail, rfl⟩ := hmark
    simp only [afterDollar] at h
    split at h
    · next value after hread =>
        cases h
        refine (untilMark_local (by decide) (by decide) hread).lead ['$'] ?_
        intro other _ place cursor hother
        simp only [List.singleton_append, afterDollar]
        rw [show untilMark ['$', '$'] other (place.step '$') = _ from hother]
    · cases h
  · have hnone : ∀ tail, rest ≠ '$' :: tail := fun tail heq => hmark ⟨tail, heq⟩
    obtain ⟨tag, behind, hrest, htag, -, hrun⟩ := run_cases isTagPart rest place
    have hline : '\n' ∉ tag := fun hmem => absurd (htag _ hmem) (by decide)
    rw [afterDollar_tag hnone, hrun] at h
    refine (run_local (by decide) hrun).andThen (afterTag_local hline h) ?_
    intro other hother place after after' hread _ hafter
    rw [afterDollar_tag (hother.ne_cons (by decide) hnone), hread]
    exact hafter

/-! ## Operators -/

theorem not_newline_of_mem_marks : ∀ mark ∈ marks, '\n' ∉ mark.toList := by
  decide

theorem mark?_eq_none_iff {text : List Char} :
    mark? text = none ↔ ∀ mark ∈ marks, ¬ mark.toList <+: text := by
  simp only [mark?, List.find?_eq_none, isSome_dropExact?_iff]

/-- No further mark stands at the start of a text that narrows another one. -/
theorem mark?_of_narrows
    {text other : List Char} {mark : String} (hmark : mark? text = some mark)
    (hother : Narrows other text) (hbegin : mark.toList <+: other) : mark? other = some mark := by
  obtain ⟨-, front, back, hmarks, hfront⟩ := List.find?_eq_some_iff_append.mp hmark
  refine List.find?_eq_some_iff_append.mpr
    ⟨isSome_dropExact?_iff.mpr hbegin, front, back, hmarks, ?_⟩
  intro longer hmem
  have hlonger := hfront longer hmem
  simp only [Bool.not_eq_true', Bool.eq_false_iff, ne_eq, isSome_dropExact?_iff] at hlonger ⊢
  have hline := not_newline_of_mem_marks longer (by rw [hmarks]; exact List.mem_append_left _ hmem)
  exact fun hthere => hlonger (hother _ hline hthere)

/-- An operator is read from its own characters, and one of a single character is that
character. -/
theorem markOrCharacter_local (h : markOrCharacter c rest place = reached token cursor) :
    ∃ back, rest = back ++ cursor.rest ∧ (back = [] → token = .symbol c.toString) ∧
      ∀ other, Narrows other cursor.rest → ∀ place,
        markOrCharacter c (back ++ other) place =
          reached token ⟨other, place.after (c :: back)⟩ := by
  cases hmark : mark? (c :: rest) with
  | some mark =>
      simp only [markOrCharacter, hmark] at h
      obtain ⟨hbegin, -⟩ := List.find?_eq_some_iff_append.mp hmark
      obtain ⟨tail, htail⟩ := isSome_dropExact?_iff.mp hbegin
      have hmem : mark ∈ marks := List.mem_of_find?_eq_some hmark
      have hne : mark.toList ≠ [] := (by decide : ∀ mark ∈ marks, mark.toList ≠ []) mark hmem
      obtain ⟨d, back, hchars⟩ := List.exists_cons_of_ne_nil hne
      rw [hchars] at htail
      obtain ⟨rfl, hrest⟩ := List.cons.inj htail
      have hskip : ∀ other place, skip mark.length (d :: (back ++ other)) place =
          ⟨other, place.after (d :: back)⟩ := by
        intro other place
        rw [← String.length_toList, hchars]
        exact skip_append (d :: back) other place
      rw [← hrest, List.append_eq, hskip] at h
      cases h
      refine ⟨back, hrest.symm, ?_, ?_⟩
      · rintro rfl
        have hsingle : mark = d.toString := String.toList_inj.mp (by rw [hchars]; simp)
        have hne : mark ≠ "!=" := fun heq => by
          rw [heq] at hchars
          cases hchars
        rw [markToken, if_neg hne, hsingle]
      · intro other hother place
        have hnarrow : Narrows (d :: (back ++ other)) (d :: rest) :=
          hrest ▸ hother.append (d :: back)
        have hsame := mark?_of_narrows hmark hnarrow (hchars ▸ ⟨other, rfl⟩)
        simp only [markOrCharacter, hsame, hskip]
  | none =>
      simp only [markOrCharacter, hmark] at h
      cases h
      refine ⟨[], rfl, fun _ => rfl, ?_⟩
      intro other hother place
      have hnone : mark? (c :: other) = none := by
        rw [mark?_eq_none_iff] at hmark ⊢
        exact fun mark hmem hbegin => hmark mark hmem
          (hother.append [c] _ (not_newline_of_mem_marks mark hmem) hbegin)
      simp only [List.nil_append, markOrCharacter, hnone]
      rfl

theorem markOrCharacter_step (h : markOrCharacter c rest place = reached token cursor) :
    LocalStep c (markOrCharacter c) rest token cursor := by
  obtain ⟨back, hrest, -, hread⟩ := markOrCharacter_local h
  exact ⟨back, hrest, fun other hother => hread other hother.narrows⟩

/-- An operator, where a second character would begin a comment. -/
theorem markOrCharacter_unless
    {step : List Char → Location → Step} {second : Char} (hsecond : second ≠ '\n')
    (hnone : ∀ tail, rest ≠ second :: tail)
    (h : markOrCharacter c rest place = reached token cursor)
    (hstep : ∀ other, (∀ tail, other ≠ second :: tail) → ∀ place,
      step other place = markOrCharacter c other place) :
    LocalStep c step rest token cursor := by
  obtain ⟨back, rfl, -, hread⟩ := markOrCharacter_local h
  refine ⟨back, rfl, ?_⟩
  intro other hother place
  rw [hstep _ ((hother.narrows.append back).ne_cons hsecond hnone)]
  exact hread other hother.narrows place

/-- What stands behind a token that may take a line feed keeps its first character, or
there is nothing left of it. -/
theorem MayFollow.head {other : List Char} (h : MayFollow token other rest)
    (htoken : token.TakesNewline) :
    other = [] ∨ ∃ d more tail, other = d :: more ∧ rest = d :: tail := by
  cases other with
  | nil => exact .inl rfl
  | cons d more =>
      have hd : rest.head? = some d := by
        rcases h.narrows.head d rfl with rfl | hd
        · exact h.line htoken rfl
        · exact hd
      obtain ⟨tail, rfl⟩ := List.head?_eq_some_iff.mp hd
      exact .inr ⟨d, more, tail, rfl, rfl⟩

/-- Where a number sign is an operator or begins one. -/
def EndsSign (rest : List Char) : Prop :=
  rest = [] ∨ rest.head? ∈ [some '-', some '>', some ' ']

theorem afterNumberSign_eq_mark (h : EndsSign rest) (place : Location) :
    afterNumberSign rest place = markOrCharacter '#' rest place := by
  unfold afterNumberSign
  split <;> simp_all [EndsSign]

theorem afterNumberSign_eq_word {d : Char} {tail : List Char} (h : ¬ EndsSign (d :: tail))
    (place : Location) :
    afterNumberSign (d :: tail) place = bareWord ['#', d] tail (place.after ['#', d]) := by
  unfold afterNumberSign
  split <;> simp_all [EndsSign, Location.after]

theorem afterNumberSign_local (h : afterNumberSign rest place = reached token cursor) :
    LocalStep '#' afterNumberSign rest token cursor := by
  by_cases hrest : EndsSign rest
  · rw [afterNumberSign_eq_mark hrest] at h
    obtain ⟨back, htext, hsingle, hread⟩ := markOrCharacter_local h
    refine ⟨back, htext, ?_⟩
    intro other hother place
    rw [afterNumberSign_eq_mark]
    · exact hread other hother.narrows place
    rw [htext] at hrest
    cases back with
    | cons d back => exact .inr (hrest.resolve_left nofun)
    | nil =>
        rw [hsingle rfl] at hother
        rcases hother.head (.inl rfl) with rfl | ⟨d, more, tail, rfl, htail⟩
        · exact .inl rfl
        · rw [htail] at hrest
          exact .inr (hrest.resolve_left nofun)
  · cases rest with
    | nil => exact absurd (.inl rfl) hrest
    | cons d tail =>
        rw [afterNumberSign_eq_word hrest] at h
        refine (bareWord_local h).step [d] ?_
        intro other _ place cursor hother
        have hword : ¬ EndsSign (d :: other) := fun hends =>
          hrest (.inr (hends.resolve_left nofun))
        rw [List.singleton_append, afterNumberSign_eq_word hword]
        exact hother

theorem afterAtSign_local (h : afterAtSign rest place = reached token cursor) :
    LocalStep '@' afterAtSign rest token cursor := by
  unfold afterAtSign at h
  simp only at h
  split at h
  case h_1 | h_2 =>
    cases h
    refine ⟨['@'], rfl, ?_⟩
    intro other hother place
    rcases hother.head (.inr (.inr rfl)) with rfl | ⟨d, more, tail, rfl, htail⟩
    · rfl
    · cases htail <;> rfl
  case h_3 d tail hd =>
    refine (bareWord_local h).step ['@', d] ?_
    intro other _ place cursor hother
    simp only [List.cons_append, List.nil_append, afterAtSign]
    exact hother
  case h_9 | h_10 =>
    cases h
    exact ⟨[_], rfl, fun other _ place => rfl⟩
  case h_11 d tail h₁ h₂ h₃ h₄ h₅ h₆ h₇ h₈ h₉ =>
    have hd : d ≠ '@' := by
      rintro rfl
      cases tail with
      | nil => exact h₁ rfl rfl
      | cons e tail => exact h₃ e tail rfl rfl
    refine (bareWord_local h).step [d] ?_
    intro other _ place cursor hother
    rw [List.singleton_append, afterAtSign]
    · exact hother
    all_goals simp_all
  all_goals
    cases h
    refine ⟨[], rfl, ?_⟩
    intro other hother place
    rcases hother.head (.inr (.inl rfl)) with rfl | ⟨d, more, tail, rfl, htail⟩
    · rfl
    · cases htail <;> rfl

/-! ## All tokens -/

/-- A word stands directly before, so a point may be followed by an underscore. -/
def followsWord : Option Token → Bool
  | some (.word _) => true
  | _ => false

theorem numberOrPoint_local
    {before before' : Option Token} (h : numberOrPoint before c rest place = reached token cursor)
    (hc : (c.isDigit || c == '.') = true)
    (hword : c = '.' → followsWord before = true → followsWord before' = true) :
    LocalStep c (numberOrPoint before' c) rest token cursor := by
  by_cases hdigit : c.isDigit = true
  · rw [numberOrPoint_digit hdigit] at h
    refine (number_local h).step [] ?_
    intro other _ place cursor hother
    rw [List.nil_append, numberOrPoint_digit hdigit]
    exact hother
  obtain rfl : c = '.' := by simpa [hdigit] using hc
  by_cases hunderscore : ∃ tail, rest = '_' :: tail
  · obtain ⟨tail, rfl⟩ := hunderscore
    have hbefore : followsWord before = true ∧ token = .symbol "." ∧
        cursor = ⟨'_' :: tail, place.step '.'⟩ := by
      simp only [numberOrPoint] at h
      split at h
      · cases h
        exact ⟨rfl, rfl, rfl⟩
      · cases h
    obtain ⟨hbefore, rfl, rfl⟩ := hbefore
    have hbefore' := hword rfl hbefore
    refine ⟨[], rfl, ?_⟩
    intro other hother place
    cases other with
    | nil => rfl
    | cons d other =>
        rcases hother.narrows.head d rfl with rfl | hd
        · rfl
        · cases hd
          simp only [List.nil_append, numberOrPoint]
          split
          · rfl
          · next hnone =>
              unfold followsWord at hbefore'
              split at hbefore'
              · exact absurd rfl (hnone _)
              · cases hbefore'
  · have hnone : ∀ tail, rest ≠ '_' :: tail := fun tail heq => hunderscore ⟨tail, heq⟩
    rw [numberOrPoint_point hnone] at h
    refine (fraction_local h).step [] ?_
    intro other hother place cursor hmore
    rw [List.nil_append, numberOrPoint_point (hother.ne_cons (by decide) hnone)]
    exact hmore

/-- A comment behind two dashes goes on to the end of its line, which belongs to it. -/
theorem next_comment
    {front tail : List Char} (hfront : '\n' ∉ front) (htail : ∀ c ∈ tail.head?, c = '\n')
    (before : Option Token) (place : Location) :
    next before '-' ('-' :: front ++ tail) place =
      .ok (.blank (String.ofList ('-' :: '-' :: front ++ tail.take 1)),
        ⟨tail.drop 1, place.after ('-' :: '-' :: front ++ tail.take 1)⟩) := by
  have hpart : ∀ c ∈ '-' :: front, (c != '\n') = true := by
    rintro c (_ | ⟨_, hc⟩)
    · rfl
    · exact bne_iff_ne.mpr fun heq => hfront (heq ▸ hc)
  have hstop : ∀ c ∈ tail.head?, (c != '\n') = false := by
    intro c hc
    rw [htail c hc]
    rfl
  have hrun := run_append hpart hstop (place.step '-')
  have hplace : place.after ('-' :: '-' :: front ++ tail.take 1) =
      ((place.step '-').after ('-' :: front)).after (tail.take 1) := after_append _ _ _
  simp only [List.cons_append] at hrun hplace ⊢
  simp only [next, hrun, skip_eq, hplace]
  rfl

theorem comment_local
    {before : Option Token} {tail : List Char}
    (h : next before '-' ('-' :: tail) place = reached token cursor) (before' : Option Token) :
    LocalStep '-' (next before' '-') ('-' :: tail) token cursor := by
  obtain ⟨front, back, rfl, hfront, hback, -⟩ := run_cases (· != '\n') tail place
  have hline : '\n' ∉ front := fun hmem => by simpa using hfront _ hmem
  have hend : ∀ c ∈ back.head?, c = '\n' := fun c hc => by simpa using hback c hc
  rw [← List.cons_append, next_comment hline hend] at h
  cases h
  refine ⟨'-' :: front ++ back.take 1, ?_, ?_⟩
  · rw [List.append_assoc, List.take_append_drop]
    rfl
  intro other hother place
  cases back with
  | nil =>
      have hnone : other = [] := by
        have htakes : Token.TakesNewline (.blank (String.ofList ('-' :: '-' :: front))) := by
          refine .inr ⟨⟨front, by simp⟩, ?_⟩
          intro hlast
          have hmem := List.mem_of_getLast? hlast
          simp [hline] at hmem
        rw [List.take_nil, List.append_nil] at hother
        exact hother.narrows.eq_nil fun hhead => by cases hother.line htakes hhead
      have hread := @next_comment front [] hline (by simp) before' place
      rw [hnone]
      simpa using hread
  | cons c back =>
      obtain rfl := hend c rfl
      have hread := @next_comment front ('\n' :: other) hline (by simp) before' place
      simpa using hread

theorem quotedWord_local
    {quote : Char} {value : List Char} (hquote : quote = '"' ∨ quote = '`')
    (h : untilQuote quote rest (place.step quote) = found value cursor) (before : Option Token) :
    LocalStep quote (next before quote) rest (.word ⟨String.ofList value, some quote⟩) cursor := by
  have hline : quote ≠ '\n' := by
    rcases hquote with rfl | rfl <;> decide
  refine (untilQuote_local hline h).step [] ?_
  intro other _ place cursor hother
  have hmore : untilQuote quote other (place.step quote) = found value cursor := hother
  rcases hquote with rfl | rfl <;> simp only [List.nil_append, next, hmore]

theorem blockComment_step
    {tail value : List Char}
    (h : blockComment 1 tail (place.after ['/', '*']) = reached value cursor)
    (before : Option Token) :
    LocalStep '/' (next before '/') ('*' :: tail)
      (.blank (String.ofList ('/' :: '*' :: value))) cursor := by
  refine (blockComment_local h).step ['*'] ?_
  intro other _ place cursor hother
  have hmore : blockComment 1 other ((place.step '/').step '*') = reached value cursor := hother
  simp only [List.cons_append, List.nil_append, next, hmore]

/-- A placeholder ends where its digits end. -/
theorem placeholder_local
    {before before' : Option Token} (h : next before '?' rest place = reached token cursor) :
    LocalStep '?' (next before' '?') rest token cursor := by
  obtain ⟨digits, after, hdigits⟩ :
      ∃ digits after, run isNumber rest (place.step '?') = (digits, after) :=
    ⟨_, _, rfl⟩
  simp only [next, hdigits] at h
  cases h
  refine (run_local (by decide) hdigits).step [] ?_
  intro other _ place cursor hother
  have hmore : run isNumber other (place.step '?') = (digits, cursor) := hother
  simp only [List.nil_append, next, hmore]

/-- A line feed behind a carriage return belongs to it. -/
theorem carriageReturn_local
    {before : Option Token} (h : next before '\r' rest place = reached token cursor)
    (before' : Option Token) : LocalStep '\r' (next before' '\r') rest token cursor := by
  simp only [next] at h
  split at h
  · cases h
    exact ⟨['\n'], rfl, fun other _ place => rfl⟩
  · next hnone =>
      cases h
      refine ⟨[], rfl, ?_⟩
      intro other hother place
      have hline : ∀ tail, other ≠ '\n' :: tail := by
        rintro tail rfl
        obtain ⟨more, hmore⟩ := List.head?_eq_some_iff.mp (hother.line (.inl rfl) rfl)
        exact hnone more hmore
      simp only [List.nil_append, next]
      rfl

/-- The token at a character that `next` does not name. -/
def nextOther (before : Option Token) (c : Char) (rest : List Char) (place : Location) : Step :=
  if c.isDigit || c == '.' then numberOrPoint before c rest place
  else if isWordStart c then wordOrConstant c rest place
  else if isBlank c then .ok (.blank c.toString, ⟨rest, place.step c⟩)
  else markOrCharacter c rest place

theorem nextOther_local
    {before before' : Option Token} (h : nextOther before c rest place = reached token cursor)
    (hword : c = '.' → followsWord before = true → followsWord before' = true) :
    LocalStep c (nextOther before' c) rest token cursor := by
  unfold nextOther at h
  split at h
  · next hnumber =>
      refine (numberOrPoint_local h hnumber hword).of_eq ?_
      intro other place
      rw [nextOther, if_pos hnumber]
  · next hnumber =>
      split at h
      · next hstart =>
          refine (wordOrConstant_local h).of_eq ?_
          intro other place
          rw [nextOther, if_neg hnumber, if_pos hstart]
      · next hstart =>
          split at h
          · next hblank =>
              cases h
              refine ⟨[], rfl, ?_⟩
              intro other _ place
              rw [nextOther, if_neg hnumber, if_neg hstart, if_pos hblank]
              rfl
          · next hblank =>
              refine (markOrCharacter_step h).of_eq ?_
              intro other place
              rw [nextOther, if_neg hnumber, if_neg hstart, if_neg hblank]

theorem next_local
    {before before' : Option Token} (h : next before c rest place = reached token cursor)
    (hword : c = '.' → followsWord before = true → followsWord before' = true) :
    LocalStep c (next before' c) rest token cursor := by
  -- One case for each character that `next` tells apart, the last one for all others.
  have hnext := h
  unfold next at h
  simp only at h
  split at h
  case h_1 | h_2 | h_3 =>
    cases h
    exact ⟨[], rfl, fun other _ place => rfl⟩
  case h_4 => exact carriageReturn_local hnext before'
  case h_5 =>
    obtain ⟨value, hread, rfl⟩ := constant_eq_ok_iff.mp h
    refine (untilQuote_local (by decide) hread).step [] ?_
    intro other _ place cursor hother
    exact constant_eq_ok_iff.mpr ⟨value, hother, rfl⟩
  case h_6 | h_7 =>
    split at h
    · next hread =>
        cases h
        exact quotedWord_local (by simp) hread before'
    · cases h
  case h_8 =>
    split at h
    · exact comment_local hnext before'
    · next hnone =>
        refine markOrCharacter_unless (by decide) hnone h ?_
        intro other hother place
        simp only [next]
  case h_9 =>
    split at h
    · split at h
      · next hread =>
          cases h
          exact blockComment_step hread before'
      · cases h
    · next hnone =>
        refine markOrCharacter_unless (by decide) hnone h ?_
        intro other hother place
        simp only [next]
  case h_10 => exact afterNumberSign_local h
  case h_11 => exact afterAtSign_local h
  case h_12 => exact placeholder_local hnext
  case h_13 =>
    exact (afterDollar_local h).step [] fun other _ place cursor hother => hother
  case h_14 =>
    refine (nextOther_local h hword).of_eq ?_
    intro other place
    rw [next, nextOther] <;> assumption

end

end Lexer

end Relocate.Sql
