import Relocate.Proofs.Sql.RoundTrip
import Relocate.Proofs.Sql.Written

/-!
# How bare words are read

The policy leaves a word bare that is made of letters and numbers of any script.  The
lexer knows fewer word characters: letters, but of the numbers only the ASCII digits.  A
word with any other number in it is cut in front of that number, which becomes a token
of its own (`tokenize_plain`).  All other bare words are one token each.  A column that is
cut so is read from its quotes and cannot be written (`format_squaredColumn`).
-/

namespace Relocate.Sql

open Text

/-- A number that no bare word goes on with: neither a letter nor an ASCII digit, as the
superscript two is. -/
def BreaksWord (c : Char) : Prop :=
  isNumber c = true ∧ isLetter c = false ∧ c.isDigit = false

instance : DecidablePred BreaksWord := fun c =>
  inferInstanceAs (Decidable (isNumber c = true ∧ isLetter c = false ∧ c.isDigit = false))

theorem not_breaksWord_of_any {text : List Char} (h : text.any (BreaksWord ·) = false) :
    ∀ c ∈ text, ¬ BreaksWord c := by
  simpa using h

/-- Letters and ASCII digits are all that is left of the letters and numbers. -/
theorem not_breaksWord_iff {c : Char} (hc : isLetterOrNumber c = true) :
    ¬ BreaksWord c ↔ (isLetter c || c.isDigit) = true := by
  unfold BreaksWord
  unfold isLetterOrNumber at hc
  cases hletter : isLetter c <;> simp_all

namespace Lexer

/-! ## One token -/

theorem number_reads (first : Char) (text : List Char) (place : Location) :
    ∃ token cursor, number first text place = .ok (token, cursor) := by
  have hmarked : ∀ digits text place, ∃ token cursor,
      markedNumber digits text place = .ok (token, cursor) := by
    intro digits text place
    unfold markedNumber
    split <;> exact ⟨_, _, rfl⟩
  unfold number
  simp only
  split
  · exact ⟨_, _, rfl⟩
  · unfold decimal fraction
    simp only
    split
    · exact ⟨_, _, rfl⟩
    · exact hmarked _ _ _

theorem next_digit {c : Char} (hc : c.isDigit = true) (before : Option Token)
    (rest : List Char) (place : Location) :
    next before c rest place = number c rest (place.step c) := by
  rw [← numberOrPoint_digit hc before]
  unfold next
  split
  case h_14 => simp only [hc, Bool.true_or, if_true]
  all_goals cases hc

/-- No operator begins with a number. -/
theorem mark?_of_breaksWord {c : Char} (hc : BreaksWord c) (rest : List Char) :
    mark? (c :: rest) = none := by
  have hmarks : ∀ mark ∈ marks, mark.toList ≠ [] ∧ mark.toList.any (BreaksWord ·) = false := by
    decide
  rw [mark?_eq_none_iff]
  intro mark hmark hbegin
  obtain ⟨hne, hplain⟩ := hmarks mark hmark
  obtain ⟨d, tail, htext⟩ := List.exists_cons_of_ne_nil hne
  rw [htext, List.cons_prefix_cons] at hbegin
  exact not_breaksWord_of_any hplain d (htext ▸ List.mem_cons_self) (hbegin.1 ▸ hc)

/-- A number that breaks words is a token of its own. -/
theorem next_breaksWord {c : Char} (hc : BreaksWord c) (before : Option Token)
    (rest : List Char) (place : Location) :
    next before c rest place = .ok (.symbol c.toString, ⟨rest, place.step c⟩) := by
  have hnot : ∀ d : Char, ¬ BreaksWord d → (c == d) = false := by
    intro d hd
    rw [beq_eq_false_iff_ne]
    rintro rfl
    exact hd hc
  have hstart : isWordStart c = false := by
    simp only [isWordStart, hc.2.1, hnot '_' (by decide), hnot '#' (by decide),
      hnot '@' (by decide), Bool.or_false]
  have hblank : isBlank c = false := by
    by_contra hblank
    have hnone := not_letterOrNumber_of_isBlank (Bool.not_eq_false _ ▸ hblank)
    rw [isLetterOrNumber, hc.1, Bool.or_true] at hnone
    cases hnone
  unfold next
  split
  case h_14 =>
    simp only [hc.2.2, hnot '.' (by decide), hstart, hblank, Bool.or_false, Bool.false_eq_true,
      if_false, markOrCharacter, mark?_of_breaksWord hc]
  all_goals exact absurd hc (by decide)

theorem stopsWord_of_breaksWord {c : Char} (hc : BreaksWord c) (rest : List Char) :
    StopsWord (c :: rest) := by
  have hnot : ∀ d : Char, ¬ BreaksWord d → c ≠ d := by
    rintro d hd rfl
    exact hd hc
  rintro _ ⟨⟩
  refine ⟨?_, hnot _ (by decide), hnot _ (by decide), hnot _ (by decide)⟩
  simp only [isWordPart, hc.2.1, hc.2.2, beq_eq_false_iff_ne.mpr (hnot '@' (by decide)),
    beq_eq_false_iff_ne.mpr (hnot '$' (by decide)), beq_eq_false_iff_ne.mpr (hnot '#' (by decide)),
    beq_eq_false_iff_ne.mpr (hnot '_' (by decide)), Bool.or_false]

/-! ## Letters and numbers -/

/-- Some token is read from any letter or number in front of others. -/
theorem next_letterOrNumber
    {c : Char} {rest : List Char} (htext : ∀ d ∈ c :: rest, isLetterOrNumber d = true)
    (before : Option Token) (place : Location) :
    ∃ token cursor, next before c rest place = .ok (token, cursor) := by
  have hc := htext c List.mem_cons_self
  by_cases hbreaks : BreaksWord c
  · exact ⟨_, _, next_breaksWord hbreaks before rest place⟩
  rw [not_breaksWord_iff hc, Bool.or_eq_true] at hbreaks
  rcases hbreaks with hletter | hdigit
  · have hhead : ∀ d ∈ rest.head?, d ≠ '\'' ∧ d ≠ '"' ∧ d ≠ '&' := by
      intro d hd
      have hd := htext d (List.mem_cons_of_mem c (List.mem_of_mem_head? hd))
      refine ⟨?_, ?_, ?_⟩ <;> rintro rfl <;> exact absurd hd (by decide)
    rw [next_letter hletter hhead, bareWord]
    exact ⟨_, _, rfl⟩
  · rw [next_digit hdigit]
    exact number_reads c rest _

/-- A text of letters and numbers is cut into tokens, whatever stands before it. -/
theorem scan_letterOrNumber
    {text : List Char} (htext : ∀ c ∈ text, isLetterOrNumber c = true) (fuel : Nat)
    (before : Option Token) (place : Location) :
    ∃ tokens, scan fuel before text place = .ok tokens := by
  induction fuel generalizing text before place with
  | zero => exact ⟨[], rfl⟩
  | succ fuel ih =>
      cases text with
      | nil => exact ⟨[], rfl⟩
      | cons c text =>
          obtain ⟨token, cursor, hnext⟩ := next_letterOrNumber htext before place
          obtain ⟨back, hback, -⟩ := Written.exists_reads hnext
          have hrest : ∀ d ∈ cursor.rest, isLetterOrNumber d = true := by
            intro d hd
            refine htext d (List.mem_cons_of_mem c ?_)
            rw [hback]
            exact List.mem_append_right back hd
          obtain ⟨more, hmore⟩ := ih hrest (some token) cursor.place
          exact ⟨⟨token, place⟩ :: more, bind_eq_ok hnext (bind_eq_ok hmore rfl)⟩

end Lexer

/-! ## Words that the policy leaves bare -/

/-- The word is cut in front of the first number that breaks it. -/
theorem tokenize_broken
    {word : String} {front back : List Char} {c : Char}
    (hword : needsQuoting word = false) (htext : word.toList = front ++ c :: back)
    (hfront : ∀ d ∈ front, ¬ BreaksWord d) (hc : BreaksWord c) :
    ∃ more, tokenize word = .ok
      (⟨.word (.bare (String.ofList front)), Location.start⟩ ::
        ⟨.symbol c.toString, Location.start.after front⟩ :: more) := by
  obtain ⟨-, first, rest, hsplit, hletter, hall⟩ := bare_of_needsQuoting hword
  rw [← hsplit, htext] at hall
  have hplain : ∀ d ∈ front, (isLetter d || d.isDigit) = true := fun d hd =>
    (not_breaksWord_iff (hall d (List.mem_append_left _ hd))).mp (hfront d hd)
  -- The first character is a letter, so it is in front of the one that breaks the word.
  cases front with
  | nil =>
      rw [hsplit, List.nil_append] at htext
      rw [(List.cons.inj htext).1, hc.2.1] at hletter
      cases hletter
  | cons d front =>
      rw [hsplit, List.cons_append] at htext
      obtain ⟨rfl, rfl⟩ := List.cons.inj htext
      have hback : ∀ d ∈ back, isLetterOrNumber d = true := fun d hd =>
        hall d (List.mem_append_right _ (List.mem_cons_of_mem c hd))
      have hnext := Lexer.next_bare hletter
        (fun d hd => hplain d (List.mem_cons_of_mem first hd))
        (Lexer.stopsWord_of_breaksWord hc back) none Location.start
      have hbreak := Lexer.next_breaksWord hc
        (some (.word (.bare (String.ofList (first :: front))))) back
        (Location.start.after (first :: front))
      obtain ⟨more, hmore⟩ := Lexer.scan_letterOrNumber hback (front.length + back.length)
        (some (.symbol c.toString)) ((Location.start.after (first :: front)).step c)
      refine ⟨more, ?_⟩
      have hlength : word.toList.length = front.length + back.length + 1 + 1 := by
        rw [hsplit]
        simp
        omega
      rw [tokenize, hlength, hsplit]
      exact Lexer.bind_eq_ok hnext
        (Lexer.bind_eq_ok (Lexer.bind_eq_ok hbreak (Lexer.bind_eq_ok hmore rfl)) rfl)

/-- A word that the policy leaves bare is read as one bare word with the same characters
exactly when no number breaks it.  Otherwise it is read as several tokens: the word in
front of the first such number, this number alone, and what follows. -/
theorem tokenize_plain {word : String} (hword : needsQuoting word = false) :
    (tokenize word = .ok [⟨.word (.bare word), Location.start⟩] ↔
      ∀ c ∈ word.toList, ¬ BreaksWord c) ∧
    ∀ front c back, word.toList = front ++ c :: back → (∀ d ∈ front, ¬ BreaksWord d) →
      BreaksWord c → ∃ more, tokenize word = .ok
        (⟨.word (.bare (String.ofList front)), Location.start⟩ ::
          ⟨.symbol c.toString, Location.start.after front⟩ :: more) := by
  have hbroken := fun front c back htext hfront hc =>
    @tokenize_broken word front back c hword htext hfront hc
  refine ⟨⟨fun htokens c hmem hc => ?_, fun hplain => ?_⟩, hbroken⟩
  · obtain ⟨d, hfind⟩ : ∃ d, word.toList.find? (fun d => BreaksWord d) = some d :=
      Option.isSome_iff_exists.mp (List.find?_isSome.mpr ⟨c, hmem, by simpa using hc⟩)
    obtain ⟨hd, front, back, htext, hfront⟩ := List.find?_eq_some_iff_append.mp hfind
    obtain ⟨more, hmore⟩ :=
      hbroken front d back htext (by simpa using hfront) (by simpa using hd)
    rw [htokens] at hmore
    cases hmore
  · obtain ⟨-, first, rest, htext, hfirst, hall⟩ := bare_of_needsQuoting hword
    rw [← htext] at hall
    have hbare : IsBare word := .of_eq htext hfirst
      (List.all_eq_true.mpr fun c hc => (not_breaksWord_iff (hall c hc)).mp (hplain c hc))
    have hend : EndsWord (spell []) := fun c hc => by cases hc
    have hread := tokenize_spell (.cons (.bare hbare hend) .nil)
    have hspell : String.ofList (spell [.word (.bare word)]) = word := by
      simp [spell, Token.text, Ident.bare]
    rwa [hspell] at hread

/-- A word with a letter beyond ASCII is one token, and a superscript cuts a word in two. -/
theorem region_and_squared_read :
    needsQuoting "Région" = false ∧
      tokenize "Région" = .ok [⟨.word (.bare "Région"), Location.start⟩] ∧
      needsQuoting "x²" = false ∧
      ∃ more, tokenize "x²" = .ok
        (⟨.word (.bare "x"), Location.start⟩ :: ⟨.symbol "²", ⟨1, 2⟩⟩ :: more) := by
  have hregion : needsQuoting "Région" = false := by decide +kernel
  have hsquared : needsQuoting "x²" = false := by decide +kernel
  have hplain : ∀ c ∈ "Région".toList, ¬ BreaksWord c :=
    not_breaksWord_of_any (by decide +kernel)
  have hfront : ∀ c ∈ ['x'], ¬ BreaksWord c := not_breaksWord_of_any (by decide)
  refine ⟨hregion, (tokenize_plain hregion).1.mpr hplain, hsquared, ?_⟩
  exact (tokenize_plain hsquared).2 ['x'] '²' [] (by decide) hfront (by decide +kernel)

/-- The column `x²` of a view loses its quotes and is read as the word `x` and a symbol. -/
theorem quotedSquared_breaks :
    needsQuoting "x²" = false ∧
      tokenize "x²" = .ok [⟨.word (.bare "x"), ⟨1, 1⟩⟩, ⟨.symbol "²", ⟨1, 2⟩⟩] ∧
      (∀ place, tokenize "x²" ≠ .ok [⟨.word (.bare "x²"), place⟩]) ∧
      (projection [[⟨"x²", some '"'⟩]] [[.bare "t"]]).applyQuoting.render = "SELECT x² FROM t" := by
  have htokens : tokenize "x²" =
      .ok [⟨.word (.bare "x"), ⟨1, 1⟩⟩, ⟨.symbol "²", ⟨1, 2⟩⟩] := by
    decide +kernel
  refine ⟨by decide +kernel, htokens, ?_, by decide +kernel⟩
  intro place heq
  rw [htokens, Except.ok.injEq] at heq
  exact absurd (congrArg List.length heq) (by simp)

/-! ## A broken word in a view -/

/-- The column `x²` of a table. -/
def squaredColumn : Statement :=
  projection [[⟨"x²", some '"'⟩]] [[.bare "t"]]

theorem parseView_squaredColumn :
    parseView "SELECT \"x²\" FROM t" = .ok squaredColumn := by
  have hsource : String.ofList (spell (projectionTokens " " [[⟨"x²", some '"'⟩]] [[.bare "t"]])) =
      "SELECT \"x²\" FROM t" := by
    decide +kernel
  have hview := @parseAll_quotedColumn "x²" (by decide)
  rw [hsource] at hview
  have hnormal : normalizeComments "SELECT \"x²\" FROM t" = "SELECT \"x²\" FROM t" := rfl
  rw [parseView, hnormal, parseSingle, hview]
  rfl

/-- Behind the column `x` the superscript ends the statement. -/
theorem parseAll_squared :
    ∃ issue, Statement.parseAll "SELECT x²\nFROM t" = .error issue := by
  have htokens : significantTokens "SELECT x²\nFROM t" = .ok [⟨.word (.bare "SELECT"), ⟨1, 1⟩⟩,
      ⟨.word (.bare "x"), ⟨1, 8⟩⟩, ⟨.symbol "²", ⟨1, 9⟩⟩, ⟨.word (.bare "FROM"), ⟨2, 1⟩⟩,
      ⟨.word (.bare "t"), ⟨2, 6⟩⟩] := by
    decide +kernel
  have hitems : StartItems [[.bare "x"]] := by
    intro name hname ident hident
    cases List.mem_singleton.mp hname
    cases hident
    exact ⟨by decide, by decide, by decide, by decide, .inl rfl⟩
  have hselect := select_reads_squared (.last (.last (.bare "x") ⟨1, 2⟩)) hitems ⟨1, 1⟩ ⟨1, 3⟩
    [.word (.bare "FROM") ⟨1, 4⟩, .word (.bare "t") ⟨1, 5⟩] 47
  have hread := @ofTokens_of_squared [.word (.bare "SELECT"), .word (.bare "x"), .symbol "²",
    .word (.bare "FROM"), .word (.bare "t")] _ _ _ _ _ rfl (query_reads hselect (.squared _ _))
  rw [Statement.parseAll, htokens]
  simp only [List.map_cons, List.map_nil, hread]
  exact ⟨_, rfl⟩

/-- The policy takes the quotes of the column away, and the text cannot be parsed. -/
theorem format_squaredColumn : ∃ failure, squaredColumn.format = .error failure := by
  have hrender : squaredColumn.applyQuoting.render = "SELECT x² FROM t" := by
    decide +kernel
  have hlayout : reindent "SELECT x² FROM t" = .ok "SELECT x²\nFROM t" := by
    decide +kernel
  obtain ⟨issue, hissue⟩ := parseAll_squared
  rw [Statement.format, Statement.writeQuoted, hrender, hlayout]
  simp only [bind, Except.bind, parseSingle, hissue]
  exact ⟨_, rfl⟩

end Relocate.Sql
