import Relocate.Proofs.Sql.Lines
import Relocate.Proofs.Sql.Projection
import Relocate.Proofs.Text.Trimming

/-!
# Formatting keeps projections

The text of a formatted projection of plain columns is read as the same projection up
to quotes, except for columns that become constants when their quotes are taken away
(`format_projection_reads`).  The policy takes the quotes of such words away, so a column
named `true` becomes the truth value (`quotedTrue_becomes_constant`).
-/

namespace Relocate.Sql

open Text

/-! ## Tokens of projections -/

/-- The identifier is read back from its text. -/
inductive Ident.Legible : Ident → Prop
  | bare {word : String} (hword : IsBare word) : Legible (.bare word)
  | quoted {value : String} (hvalue : '"' ∉ value.toList) : Legible ⟨value, some '"'⟩

/-- There are names, each with an identifier, and all identifiers are read back. -/
structure LegibleNames (names : List Name) : Prop where
  given : names ≠ []
  named : ∀ name ∈ names, name ≠ []
  legible : ∀ name ∈ names, ∀ ident ∈ name, ident.Legible

/-- The tokens of a name. -/
def Name.tokens (name : Name) : List Token :=
  separate [.symbol "."] (name.map fun ident => [.word ident])

/-- The tokens of names with commas between them. -/
def nameTokens (names : List Name) : List Token :=
  separate [.symbol ",", .blank " "] (names.map Name.tokens)

/-- The tokens in front of the tables of a projection, a blank last. -/
def leadTokens (gap : String) (columns : List Name) : List Token :=
  .word (.bare "SELECT") :: .blank " " :: nameTokens columns ++ [.blank gap]

/-- The tokens of a projection, with a blank in front of its tables. -/
def projectionTokens (gap : String) (columns tables : List Name) : List Token :=
  leadTokens gap columns ++ .word (.bare "FROM") :: .blank " " :: nameTokens tables

/-! ## Texts of projections -/

/-- A text without quotes has none to double. -/
theorem escapeQuotes_eq_self
    {quote : Char} {text : List Char} (h : quote ∉ text) (before : Char) :
    escapeQuotes quote before text = text := by
  induction text generalizing before with
  | nil => rfl
  | cons c text ih =>
      have hc : c ≠ quote := fun heq => h (heq ▸ List.mem_cons_self)
      unfold escapeQuotes
      rw [if_neg hc, ih fun hmem => h (List.mem_cons_of_mem _ hmem)]

theorem Ident.Legible.render_eq {ident : Ident} (h : ident.Legible) :
    ident.render = (Token.word ident).text := by
  cases h with
  | bare => rfl
  | quoted hvalue =>
      simp only [Ident.render, inQuotes, escapeQuotes_eq_self hvalue, String.ofList_toList,
        Token.text]

theorem Name.spell_tokens {name : Name} (h : ∀ ident ∈ name, ident.Legible) :
    spell name.tokens = name.render.toList := by
  have hidents : name.map (fun ident => spell [.word ident]) =
      name.map fun ident => ident.render.toList := by
    refine List.map_congr_left fun ident hident => ?_
    rw [(h ident hident).render_eq]
    exact List.append_nil _
  rw [Name.tokens, spell_separate, Name.render, String.toList_intercalate, List.map_map,
    List.map_map]
  exact congrArg _ hidents

theorem LegibleNames.spell_eq {names : List Name} (h : LegibleNames names) :
    spell (nameTokens names) = (commaList (names.map Name.render)).toList := by
  have hnames : names.map (fun name => spell name.tokens) =
      names.map fun name => name.render.toList :=
    List.map_congr_left fun name hname => Name.spell_tokens (h.legible name hname)
  rw [nameTokens, spell_separate, commaList, toList_join, List.map_map, List.map_map]
  exact congrArg _ hnames

theorem Expr.render_ofName (name : Name) : (Expr.ofName name).render = name.render := by
  match name with
  | [] => rfl
  | [ident] => simp [Expr.ofName, Expr.render, Name.render]
  | ident :: other :: rest => rfl

theorem renderItems_columns (names : List Name) :
    renderItems ((names.map Expr.ofName).map fun value => .expr value none) =
      names.map Name.render := by
  induction names with
  | nil => rfl
  | cons name names ih =>
      simp only [List.map_cons, renderItems, Item.render, Expr.render_ofName, ih,
        String.append_empty]

theorem renderTables_names (names : List Name) :
    renderTables (names.map fun name => .mk (.table name [] none []) []) =
      names.map Name.render := by
  induction names with
  | nil => rfl
  | cons name names ih =>
      simp [renderTables, Joined.render, renderJoins, Factor.render, renderExprs, renderAlias,
        spaced, ih]

section

variable {columns tables : List Name}

/-- A projection is written as its tokens. -/
theorem render_projection (hcolumns : LegibleNames columns) (htables : LegibleNames tables) :
    (projection columns tables).render =
      String.ofList (spell (projectionTokens " " columns tables)) := by
  rw [← String.toList_inj, String.toList_ofList]
  simp only [projection, selection, Select.ofValues, Statement.render, Query.render, Body.render,
    Select.render, renderNamed, renderExprs, renderTarget, renderItems_columns,
    renderTables_names, List.isEmpty_map,
    List.isEmpty_eq_false_iff.mpr hcolumns.given, List.isEmpty_eq_false_iff.mpr htables.given,
    spaced]
  simp [projectionTokens, leadTokens, spell_append, spell_cons, hcolumns.spell_eq,
    htables.spell_eq, Token.text, Ident.bare]

end

/-! ## Reading the texts -/

theorem Ident.Legible.readable
    {ident : Ident} (h : ident.Legible) {rest : List Char} (hrest : EndsWord rest) :
    Readable (.word ident) rest := by
  cases h with
  | bare hword => exact .bare hword hrest
  | quoted hvalue => exact .quoted hvalue hrest

/-- A legible identifier starts with a letter or a quote. -/
theorem Ident.Legible.head
    {ident : Ident} (h : ident.Legible) (rest : List Token) :
    ∀ c ∈ (spell (.word ident :: rest)).head?, isLetter c = true ∨ c = '"' := by
  intro c hc
  rw [spell_cons] at hc
  cases h with
  | @bare word hword =>
      cases htext : word.toList with
      | nil => exact absurd htext hword.nonempty
      | cons first back =>
          have hfirst : isLetter first = true := hword.letter first (by rw [htext]; rfl)
          have htoken : (Token.word (.bare word)).text.toList = first :: back := htext
          rw [htoken] at hc
          cases hc
          exact .inl hfirst
  | @quoted value hvalue =>
      have htoken : (Token.word ⟨value, some '"'⟩).text.toList =
          '"' :: (value.toList ++ ['"']) := by
        simp [Token.text]
      rw [htoken] at hc
      cases hc
      exact .inr rfl

/-- The pieces of a name are its identifiers. -/
theorem Name.tokens_readable
    {name : Name} (hne : name ≠ []) (h : ∀ ident ∈ name, ident.Legible) {rest : List Token}
    (hrest : AllReadable rest) (hend : EndsWord (spell rest)) :
    AllReadable (name.tokens ++ rest) := by
  refine separate_readable (mt List.map_eq_nil_iff.mp hne) ?_ ?_ ?_ hrest hend
  · intro piece hpiece following hfollowing hends
    obtain ⟨ident, hident, rfl⟩ := List.mem_map.mp hpiece
    exact .cons ((h ident hident).readable hends) hfollowing
  · intro piece hpiece following hfollowing
    obtain ⟨ident, hident, rfl⟩ := List.mem_map.mp hpiece
    exact .cons (.point ((h ident hident).head following)) hfollowing
  · intro following c hc
    cases hc
    decide

/-- The pieces of a list are its names. -/
theorem LegibleNames.readable
    {names : List Name} (h : LegibleNames names) {rest : List Token} (hrest : AllReadable rest)
    (hend : EndsWord (spell rest)) : AllReadable (nameTokens names ++ rest) := by
  refine separate_readable (mt List.map_eq_nil_iff.mp h.given) ?_ ?_ ?_ hrest hend
  · intro piece hpiece following hfollowing hends
    obtain ⟨name, hname, rfl⟩ := List.mem_map.mp hpiece
    exact Name.tokens_readable (h.named name hname) (h.legible name hname) hfollowing hends
  · intro piece _ following hfollowing
    exact .cons (.comma _) (.cons (.space _) hfollowing)
  · intro following c hc
    cases hc
    decide

theorem isBare_select : IsBare "SELECT" :=
  @IsBare.of_eq "SELECT" 'S' ['E', 'L', 'E', 'C', 'T'] rfl (by decide) (by decide)

theorem isBare_from : IsBare "FROM" :=
  @IsBare.of_eq "FROM" 'F' ['R', 'O', 'M'] rfl (by decide) (by decide)

section

variable {columns tables : List Name}

/-- The tokens of a projection are read back from its text on one or two lines. -/
theorem projectionTokens_readable
    (hcolumns : LegibleNames columns) (htables : LegibleNames tables) {gap : String}
    (hgap : gap = " " ∨ gap = "\n") : AllReadable (projectionTokens gap columns tables) := by
  have hblank : ∀ rest, Readable (.blank gap) rest := by
    intro rest
    rcases hgap with rfl | rfl
    · exact .space rest
    · exact .newline rest
  have hback : AllReadable (nameTokens tables ++ []) := htables.readable .nil nofun
  rw [List.append_nil] at hback
  have hsource : AllReadable
      (.blank gap :: .word (.bare "FROM") :: .blank " " :: nameTokens tables) := by
    refine .cons (hblank _) (.cons (.bare isBare_from ?_) (.cons (.space _) hback))
    intro c hc
    cases hc
    decide
  have hfront : AllReadable (nameTokens columns ++
      .blank gap :: .word (.bare "FROM") :: .blank " " :: nameTokens tables) := by
    refine hcolumns.readable hsource ?_
    intro c hc
    rcases hgap with rfl | rfl <;> cases hc <;> decide
  rw [projectionTokens, leadTokens, List.append_assoc]
  refine .cons (.bare isBare_select ?_) (.cons (.space _) hfront)
  intro c hc
  cases hc
  decide

end

/-- The tokens with a meaning, each with its place. -/
def significantFrom (place : Location) (tokens : List Token) : List Placed :=
  (placedFrom place tokens).filter fun placed => !placed.token.isBlank

theorem significantFrom_append (place : Location) (front back : List Token) :
    significantFrom place (front ++ back) =
      significantFrom place front ++ significantFrom (place.after (spell front)) back := by
  rw [significantFrom, placedFrom_append, List.filter_append]
  rfl

theorem significantTokens_spell {tokens : List Token} (h : AllReadable tokens) :
    significantTokens (String.ofList (spell tokens)) =
      .ok (significantFrom Location.start tokens) := by
  rw [significantTokens, tokenize_spell h]
  rfl

theorem tokens_significantFrom (place : Location) (tokens : List Token) :
    (significantFrom place tokens).map Placed.token =
      tokens.filter fun token => !token.isBlank := by
  induction tokens generalizing place with
  | nil => rfl
  | cons token tokens ih =>
      simp only [significantFrom] at ih ⊢
      cases hblank : token.isBlank with
      | true =>
          rw [placedFrom, List.filter_cons_of_neg (by simp [hblank]),
            List.filter_cons_of_neg (by simp [hblank]), ih]
      | false =>
          rw [placedFrom, List.filter_cons_of_pos (by simp [hblank]),
            List.filter_cons_of_pos (by simp [hblank]), List.map_cons, ih]

/-- The lexemes of the tokens with a meaning, from a column on. -/
def lexemesFrom (column : Nat) (tokens : List Token) : List Lexeme :=
  Lexeme.row column (tokens.filter fun token => !token.isBlank)

theorem row_append (column : Nat) (front back : List Token) :
    Lexeme.row column (front ++ back) =
      Lexeme.row column front ++ Lexeme.row (column + front.length) back := by
  induction front generalizing column with
  | nil => rfl
  | cons token front ih =>
      have hcolumn : column + (token :: front).length = column + 1 + front.length := by
        rw [List.length_cons]
        omega
      rw [List.cons_append, Lexeme.row, ih, hcolumn]
      rfl

theorem lexemesFrom_append (column : Nat) (front back : List Token) :
    lexemesFrom column (front ++ back) = lexemesFrom column front ++
      lexemesFrom (column + (front.filter fun token => !token.isBlank).length) back := by
  rw [lexemesFrom, List.filter_append, row_append]
  rfl

theorem Name.tokens_spellsName {name : Name} (hne : name ≠ []) (column : Nat) :
    SpellsName (lexemesFrom column name.tokens) name := by
  induction name generalizing column with
  | nil => exact absurd rfl hne
  | cons ident name ih =>
      cases name with
      | nil => exact .last ident _
      | cons other name => exact .cons ident _ _ (ih (List.cons_ne_nil _ _) _)

theorem nameTokens_spellsNames
    {names : List Name} (hne : names ≠ []) (h : ∀ name ∈ names, name ≠ []) (column : Nat) :
    SpellsNames (lexemesFrom column (nameTokens names)) names := by
  induction names generalizing column with
  | nil => exact absurd rfl hne
  | cons name names ih =>
      have hname := h name List.mem_cons_self
      cases names with
      | nil => exact .last (Name.tokens_spellsName hname column)
      | cons other names =>
          have hmore := ih (List.cons_ne_nil _ _) fun n hn => h n (List.mem_cons_of_mem _ hn)
          have htokens : nameTokens (name :: other :: names) =
            name.tokens ++ .symbol "," :: .blank " " :: nameTokens (other :: names) := rfl
          rw [htokens, lexemesFrom_append]
          exact .cons (Name.tokens_spellsName hname column) _ (hmore _)

theorem lexemesFrom_projection
    (column : Nat) (gap : String) (columns tables : List Name) :
    ∃ front source back,
      lexemesFrom column (projectionTokens gap columns tables) =
        .word (.bare "SELECT") ⟨1, column⟩ :: (lexemesFrom front (nameTokens columns) ++
          .word (.bare "FROM") source :: lexemesFrom back (nameTokens tables)) := by
  rw [projectionTokens, leadTokens, List.append_assoc, lexemesFrom_append]
  exact ⟨_, _, _, rfl⟩

/-- The text of a projection is read as the select of what its columns are read as. -/
theorem parseAll_projection
    {columns tables : List Name} (hcolumns : LegibleNames columns) (htables : LegibleNames tables)
    (hitems : StartItems columns) (hsources : StartTables tables) {gap : String}
    (hgap : gap = " " ∨ gap = "\n") :
    Statement.parseAll (String.ofList (spell (projectionTokens gap columns tables))) =
      .ok [selection (columns.map Name.reading) tables] := by
  have htokens := significantTokens_spell (projectionTokens_readable hcolumns htables hgap)
  obtain ⟨front, source, back, hlexemes⟩ := lexemesFrom_projection 1 gap columns tables
  have hfront := nameTokens_spellsNames hcolumns.given hcolumns.named front
  have hback := nameTokens_spellsNames htables.given htables.named back
  have hselect := select_reads hfront hback hitems hsources ⟨1, 1⟩ source 47
  rw [parseAll_of_tokens htokens, tokens_significantFrom]
  exact ofTokens_of_query hlexemes (query_reads hselect .nil)

/-! ## Layout of projections -/

theorem Ident.Legible.endsVisible {ident : Ident} (h : ident.Legible) :
    EndsVisible (Token.word ident).text.toList := by
  cases h with
  | @bare word hword =>
      have hlast := List.dropLast_append_getLast hword.nonempty
      refine ⟨_, _, hlast.symm, ?_⟩
      have hpart := hword.part _ (List.getLast_mem hword.nonempty)
      by_contra hblank
      rw [Bool.not_eq_false] at hblank
      rw [not_letter_of_isBlank hblank] at hpart
      cases hpart
  | @quoted value hvalue =>
      refine ⟨'"' :: value.toList, '"', ?_, by decide⟩
      simp [Token.text]

theorem LegibleNames.endsVisible {names : List Name} (h : LegibleNames names) :
    EndsVisible (spell (nameTokens names)) := by
  refine separate_endsVisible (mt List.map_eq_nil_iff.mp h.given) ?_
  intro tokens htokens
  obtain ⟨name, hname, rfl⟩ := List.mem_map.mp htokens
  refine separate_endsVisible (mt List.map_eq_nil_iff.mp (h.named name hname)) ?_
  intro piece hpiece
  obtain ⟨ident, hident, rfl⟩ := List.mem_map.mp hpiece
  have hends := (h.legible name hname ident hident).endsVisible
  rwa [spell_cons, spell, List.flatMap_nil, List.append_nil]

/-- No identifier of the names is a word that may start a clause. -/
def OpenNothing (names : List Name) : Prop :=
  ∀ name ∈ names, ∀ ident ∈ name, (Token.word ident).keyword ∉ Keyword.opening

theorem significantFrom_quiet
    {names : List Name} (h : OpenNothing names) (place : Location) :
    ∀ placed ∈ significantFrom place (nameTokens names), Layout.Quiet placed.token := by
  intro placed hplaced
  obtain ⟨hmem, hblank⟩ := List.mem_filter.mp hplaced
  rcases mem_of_mem_separate (token_mem_of_placedFrom hmem) with hmark | ⟨tokens, htokens, htoken⟩
  · rcases List.mem_cons.mp hmark with heq | hmark
    · rw [heq]
      exact .comma
    · rw [List.mem_singleton.mp hmark] at hblank
      cases hblank
  obtain ⟨name, hname, rfl⟩ := List.mem_map.mp htokens
  rcases mem_of_mem_separate htoken with hmark | ⟨piece, hpiece, htoken⟩
  · rw [List.mem_singleton.mp hmark]
    exact .point
  obtain ⟨ident, hident, rfl⟩ := List.mem_map.mp hpiece
  rw [List.mem_singleton.mp htoken]
  exact .word (h name hname ident hident)

section

variable {columns tables : List Name}

/-- The only break of a projection stands in front of its tables. -/
theorem allBreaks_projection
    (hcolumns : OpenNothing columns) (htables : OpenNothing tables) (gap : String)
    (place : Location) :
    Layout.allBreaks (significantFrom place (projectionTokens gap columns tables)) =
      [⟨place.after (spell (leadTokens gap columns)), 0⟩] := by
  obtain ⟨front, hlead⟩ : ∃ front, significantFrom place (leadTokens gap columns) =
      ⟨.word (.bare "SELECT"), place⟩ :: significantFrom front (nameTokens columns) := by
    rw [leadTokens, significantFrom_append]
    exact ⟨_, List.append_nil _⟩
  generalize hsource : place.after (spell (leadTokens gap columns)) = source
  obtain ⟨back, hback⟩ : ∃ back,
      significantFrom source (.word (.bare "FROM") :: .blank " " :: nameTokens tables) =
        ⟨.word (.bare "FROM"), source⟩ :: significantFrom back (nameTokens tables) :=
    ⟨_, rfl⟩
  rw [projectionTokens, significantFrom_append, hsource, hlead, hback]
  -- Nothing starts a line up to the word `FROM`, and nothing does behind it.
  obtain ⟨last, hlast, hbreaks⟩ := @Layout.breaks_quiet (.word (.bare "SELECT")) nofun _
    (significantFrom_quiet hcolumns front)
    (⟨.word (.bare "FROM"), source⟩ :: significantFrom back (nameTokens tables))
  obtain ⟨_, _, hend⟩ := @Layout.breaks_quiet (.word (.bare "FROM")) nofun _
    (significantFrom_quiet htables back) []
  rw [List.append_nil] at hend
  have hall : Layout.allBreaks (⟨.word (.bare "SELECT"), place⟩ ::
      significantFrom front (nameTokens columns) ++
        ⟨.word (.bare "FROM"), source⟩ :: significantFrom back (nameTokens tables)) =
      Layout.breaks last [] (⟨.word (.bare "FROM"), source⟩ ::
        significantFrom back (nameTokens tables)) := hbreaks
  have hkeyword : (Token.word (.bare "FROM")).keyword = "FROM" := rfl
  rw [hall]
  simp only [Layout.breaks, hlast, false_and, if_false, hkeyword, hend]
  rfl

/-- The layout puts the tables of a projection on a line of their own. -/
theorem reindent_projection
    (hcolumns : LegibleNames columns) (htables : LegibleNames tables)
    (hopenColumns : OpenNothing columns) (hopenTables : OpenNothing tables) :
    reindent (String.ofList (spell (projectionTokens " " columns tables))) =
      .ok (String.ofList (spell (projectionTokens "\n" columns tables))) := by
  have htokens := significantTokens_spell
    (projectionTokens_readable hcolumns htables (.inl rfl))
  have hlead : spell (leadTokens " " columns) =
      spell (.word (.bare "SELECT") :: .blank " " :: nameTokens columns) ++ [' '] := by
    rw [leadTokens, spell_append]
    rfl
  have hlast : EndsVisible (spell (.word (.bare "SELECT") :: .blank " " :: nameTokens columns)) :=
    (hcolumns.endsVisible.append _).append _
  have hsource : spell (.word (.bare "FROM") :: .blank " " :: nameTokens tables) =
    'F' :: ("ROM".toList ++ spell (.blank " " :: nameTokens tables)) := rfl
  have hcut := Layout.cut_single Location.start 0 (spell (leadTokens " " columns)) 'F'
    ("ROM".toList ++ spell (.blank " " :: nameTokens tables))
  have htext : Layout.assemble (spell (leadTokens " " columns))
      [(0, spell (.word (.bare "FROM") :: .blank " " :: nameTokens tables))] =
        spell (projectionTokens "\n" columns tables) := by
    simp only [Layout.assemble, hlead, hlast.trimEnd]
    rw [projectionTokens, leadTokens, spell_append, spell_append, List.append_assoc,
      List.append_assoc]
    rfl
  unfold reindent
  rw [htokens]
  simp only [allBreaks_projection hopenColumns hopenTables]
  rw [String.toList_ofList, projectionTokens, spell_append, hsource, hcut, ← hsource]
  simp only [htext]

end

/-! ## Quoting -/

/-- A word that the policy leaves bare is not `from`, and is a letter and then letters and
numbers. -/
theorem bare_of_needsQuoting
    {word : String} (h : needsQuoting word = false) :
    sameFold word "from" = false ∧
      ∃ first rest, word.toList = first :: rest ∧ isLetter first = true ∧
        ∀ c ∈ first :: rest, isLetterOrNumber c = true := by
  unfold needsQuoting at h
  by_cases hday : word = "day"
  · subst hday
    exact ⟨by decide, 'd', ['a', 'y'], rfl, by decide, List.all_eq_true.mp (by decide)⟩
  rw [if_neg hday] at h
  by_cases hreserved : alwaysQuoted.any (sameFold word) = true
  · rw [if_pos hreserved] at h
    cases h
  rw [if_neg hreserved] at h
  constructor
  · by_contra hfrom
    rw [Bool.not_eq_false] at hfrom
    exact hreserved (List.any_eq_true.mpr ⟨"from", by decide, hfrom⟩)
  · cases htext : word.toList with
    | nil =>
        rw [htext] at h
        cases h
    | cons first rest =>
        rw [htext] at h
        obtain ⟨hnumber, hall⟩ := Bool.or_eq_false_iff.mp h
        rw [Bool.not_eq_false', List.all_eq_true] at hall
        have hfirst := hall first List.mem_cons_self
        rw [isLetterOrNumber, hnumber, Bool.or_false] at hfirst
        exact ⟨first, rest, rfl, hfirst, hall⟩

/-- The identifier is written as one token that starts no clause: it holds no quote, and
when the policy leaves it bare it is made of letters and digits. -/
structure Ident.Lasting (ident : Ident) : Prop where
  quotable : '"' ∉ ident.value.toList
  plain : needsQuoting ident.value = false →
    ident.value.toList.all (fun c => isLetter c || c.isDigit) = true
  opening : ident.quoted.keyword ∉ Keyword.opening

namespace Ident

variable {ident : Ident}

theorem quoted_of_needs (h : needsQuoting ident.value = true) :
    ident.quoted = ⟨ident.value, some '"'⟩ := by
  rw [quoted, if_pos h]

theorem quoted_of_plain (h : needsQuoting ident.value = false) :
    ident.quoted = .bare ident.value := by
  rw [quoted, h]
  rfl

theorem Lasting.legible (h : ident.Lasting) : ident.quoted.Legible := by
  by_cases hneeds : needsQuoting ident.value = true
  · rw [quoted_of_needs hneeds]
    exact .quoted h.quotable
  rw [Bool.not_eq_true] at hneeds
  have hall := h.plain hneeds
  obtain ⟨-, first, rest, htext, hfirst, -⟩ := bare_of_needsQuoting hneeds
  rw [quoted_of_plain hneeds]
  exact .bare (.of_eq htext hfirst hall)

/-- The policy quotes the word that ends the items of a select. -/
theorem endingWord_quoted (ident : Ident) :
    Selection.endingWord? (.column ident.quoted) = none := by
  by_cases hneeds : needsQuoting ident.value = true
  · rw [quoted_of_needs hneeds]
    rfl
  rw [Bool.not_eq_true] at hneeds
  obtain ⟨hfrom, -⟩ := bare_of_needsQuoting hneeds
  have hword : (ident.value.toList.map Char.toLower == ['f', 'r', 'o', 'm']) = false := hfrom
  rw [quoted_of_plain hneeds]
  simp only [Selection.endingWord?, Ident.bare, hword]
  rfl

end Ident

/-- The names with every identifier quoted as it needs. -/
def quotedNames (names : List Name) : List Name :=
  names.map (List.map Ident.quoted)

theorem Expr.rename_ofName (scopes : List Scope) (name : Name) :
    (Expr.ofName name).rename .quoting scopes = .ofName (name.map Ident.quoted) := by
  match name with
  | [] => rfl
  | [ident] => rfl
  | ident :: other :: rest => rfl

theorem renameItems_columns (scopes : List Scope) (names : List Name) :
    renameItems .quoting scopes ((names.map Expr.ofName).map fun value => .expr value none) =
      ((quotedNames names).map Expr.ofName).map fun value => .expr value none := by
  induction names with
  | nil => rfl
  | cons name names ih =>
      rw [quotedNames] at ih
      simp only [List.map_cons, renameItems, Item.rename, Expr.rename_ofName, ih, quotedNames]

theorem renameTables_names (scopes : List Scope) (names : List Name) :
    renameTables .quoting scopes (names.map fun name => .mk (.table name [] none []) []) =
      (quotedNames names).map fun name => .mk (.table name [] none []) [] := by
  induction names with
  | nil => rfl
  | cons name names ih =>
      simp only [List.map_cons, renameTables, Joined.rename, renameJoins, Factor.rename,
        renameExprs, ih, quotedNames]
      rfl

/-- Quoting a projection quotes its names. -/
theorem applyQuoting_projection (columns tables : List Name) :
    (projection columns tables).applyQuoting =
      projection (quotedNames columns) (quotedNames tables) := by
  have hitems : ∀ values : List Expr, ∀ f,
      ((values.map fun value => Item.expr value none).map (Item.mapQualifier f)) =
        values.map fun value => .expr value none := by
    intro values f
    rw [List.map_map]
    rfl
  simp only [Statement.applyQuoting, projection, selection, Select.ofValues, Statement.rename,
    Query.rename, renameNamed, Body.rename, Select.rename, renameExprs, renameItems_columns,
    renameTables_names, hitems]

/-! ## Formatting -/

/-- There are names, each with an identifier, and each identifier is written as one token. -/
structure LastingNames (names : List Name) : Prop where
  given : names ≠ []
  named : ∀ name ∈ names, name ≠ []
  lasting : ∀ name ∈ names, ∀ ident ∈ name, ident.Lasting

/-- No column starts with a word that starts another item or an expression of its own; a
constant may be a column, but not the start of a qualified one. -/
structure LastingColumns (names : List Name) : Prop extends LastingNames names where
  leading : ∀ name ∈ names, ∀ ident ∈ name.head?,
    ident.quoted.keyword ∉ Keyword.heads ++ Keyword.types ++ Keyword.forms
  qualified : ∀ name ∈ names, ∀ ident ∈ name.head?,
    name.length = 1 ∨ Keyword.constant? ident.quoted.keyword = none

/-- No table starts with a word that starts another kind of table. -/
structure LastingTables (names : List Name) : Prop extends LastingNames names where
  leading : ∀ name ∈ names, ∀ ident ∈ name.head?, ident.quoted.keyword ∉ Keyword.heads

instance (ident : Ident) : Decidable ident.Lasting :=
  decidable_of_iff
    ('"' ∉ ident.value.toList ∧ (needsQuoting ident.value = false →
      ident.value.toList.all (fun c => isLetter c || c.isDigit) = true) ∧
        ident.quoted.keyword ∉ Keyword.opening)
    ⟨fun h => ⟨h.1, h.2.1, h.2.2⟩, fun h => ⟨h.quotable, h.plain, h.opening⟩⟩

section

variable {names : List Name}

instance : Decidable (LastingNames names) :=
  decidable_of_iff
    (names ≠ [] ∧ (∀ name ∈ names, name ≠ []) ∧ ∀ name ∈ names, ∀ ident ∈ name, ident.Lasting)
    ⟨fun h => ⟨h.1, h.2.1, h.2.2⟩, fun h => ⟨h.given, h.named, h.lasting⟩⟩

instance : Decidable (LastingColumns names) :=
  decidable_of_iff
    (LastingNames names ∧ (∀ name ∈ names, ∀ ident ∈ name.head?,
      ident.quoted.keyword ∉ Keyword.heads ++ Keyword.types ++ Keyword.forms) ∧
        ∀ name ∈ names, ∀ ident ∈ name.head?,
          name.length = 1 ∨ Keyword.constant? ident.quoted.keyword = none)
    ⟨fun h => ⟨h.1, h.2.1, h.2.2⟩, fun h => ⟨h.toLastingNames, h.leading, h.qualified⟩⟩

instance : Decidable (LastingTables names) :=
  decidable_of_iff
    (LastingNames names ∧ ∀ name ∈ names, ∀ ident ∈ name.head?,
      ident.quoted.keyword ∉ Keyword.heads)
    ⟨fun h => ⟨h.1, h.2⟩, fun h => ⟨h.toLastingNames, h.leading⟩⟩

theorem LastingNames.legible (h : LastingNames names) : LegibleNames (quotedNames names) := by
  refine ⟨mt List.map_eq_nil_iff.mp h.given, ?_, ?_⟩
  · intro name hname
    obtain ⟨source, hsource, rfl⟩ := List.mem_map.mp hname
    exact mt List.map_eq_nil_iff.mp (h.named source hsource)
  · intro name hname ident hident
    obtain ⟨source, hsource, rfl⟩ := List.mem_map.mp hname
    obtain ⟨plain, hplain, rfl⟩ := List.mem_map.mp hident
    exact (h.lasting source hsource plain hplain).legible

theorem LastingNames.opens_nothing (h : LastingNames names) : OpenNothing (quotedNames names) := by
  intro name hname ident hident
  obtain ⟨source, hsource, rfl⟩ := List.mem_map.mp hname
  obtain ⟨plain, hplain, rfl⟩ := List.mem_map.mp hident
  exact (h.lasting source hsource plain hplain).opening

theorem LastingTables.start (h : LastingTables names) : StartTables (quotedNames names) := by
  intro name hname ident hident
  obtain ⟨source, hsource, rfl⟩ := List.mem_map.mp hname
  rw [List.head?_map] at hident
  obtain ⟨plain, hplain, rfl⟩ := Option.map_eq_some_iff.mp hident
  exact h.leading source hsource plain hplain

theorem LastingColumns.start (h : LastingColumns names) : StartItems (quotedNames names) := by
  intro name hname ident hident
  obtain ⟨source, hsource, rfl⟩ := List.mem_map.mp hname
  rw [List.head?_map] at hident
  obtain ⟨plain, hplain, rfl⟩ := Option.map_eq_some_iff.mp hident
  have hleading := h.leading source hsource plain hplain
  simp only [List.mem_append, not_or] at hleading
  obtain ⟨⟨hheads, htypes⟩, hforms⟩ := hleading
  refine ⟨htypes, hforms, hheads, plain.endingWord_quoted, ?_⟩
  rcases h.qualified source hsource plain hplain with hlength | hnone
  · obtain ⟨only, rfl⟩ := List.length_eq_one_iff.mp hlength
    cases hplain
    exact .inl rfl
  · exact .inr hnone

/-- The quoted columns are read as they stand unless one is a constant. -/
theorem map_reading_eq_iff (names : List Name) :
    (quotedNames names).map Name.reading = (quotedNames names).map Expr.ofName ↔
      ∀ ident, [ident] ∈ names → Keyword.constant? ident.quoted.keyword = none := by
  rw [List.map_inj_left]
  constructor
  · intro h ident hident
    have hreading := h [ident.quoted] (List.mem_map_of_mem hident)
    cases hconstant : Keyword.constant? ident.quoted.keyword with
    | none => rfl
    | some text =>
        simp only [Name.reading, hconstant] at hreading
        cases hreading
  · intro h name hname
    obtain ⟨source, hsource, rfl⟩ := List.mem_map.mp hname
    refine Name.reading_eq fun ident heq => ?_
    obtain ⟨plain, rfl, rfl⟩ := List.map_eq_singleton_iff.mp heq
    exact h plain hsource

end

theorem selection_inj {values others : List Expr} {tables : List Name} :
    selection values tables = selection others tables ↔ values = others := by
  constructor
  · intro h
    injection h with hquery
    injection hquery with _ _ hbody
    injection hbody with hselect
    injection hselect with _ hitems
    refine (List.map_inj_right ?_).mp hitems
    intro value other hitem
    injection hitem
  · rintro rfl
    rfl

section

variable {columns tables : List Name}

/-- The text of a formatted projection. -/
def formattedText (columns tables : List Name) : String :=
  String.ofList (spell (projectionTokens "\n" (quotedNames columns) (quotedNames tables)))

/-- The text of a formatted projection is read as the select of what its quoted columns are
read as. -/
theorem format_projection (hcolumns : LastingColumns columns) (htables : LastingTables tables) :
    (projection columns tables).format = .ok (formattedText columns tables) ∧
      ∀ stage, parseSingle stage (formattedText columns tables) =
        .ok (selection ((quotedNames columns).map Name.reading) (quotedNames tables)) := by
  have hrender := render_projection hcolumns.legible htables.legible
  have hreindent := reindent_projection hcolumns.legible htables.legible
    hcolumns.opens_nothing htables.opens_nothing
  have hall := parseAll_projection hcolumns.legible htables.legible hcolumns.start htables.start
    (.inr rfl)
  rw [← hrender] at hreindent
  have hparse : ∀ stage, parseSingle stage (formattedText columns tables) =
      .ok (selection ((quotedNames columns).map Name.reading) (quotedNames tables)) := by
    intro stage
    rw [parseSingle, formattedText, hall]
  refine ⟨?_, hparse⟩
  rw [formattedText] at hparse
  rw [Statement.format, Statement.writeQuoted, applyQuoting_projection, hreindent]
  simp only [bind, Except.bind, hparse .format]
  rfl

/-- **What a formatted projection is read as**: every column that the policy leaves bare and
that is the word of a constant becomes the constant, all else stays.  So the text is read as
the formatted statement, up to quotes, exactly when no column is such a word. -/
theorem format_projection_reads
    (hcolumns : LastingColumns columns) (htables : LastingTables tables) :
    ∃ text, (projection columns tables).format = .ok text ∧
      (∀ stage, parseSingle stage text =
        .ok (selection ((quotedNames columns).map Name.reading) (quotedNames tables))) ∧
      ((∀ stage, parseSingle stage text = .ok (projection columns tables).applyQuoting) ↔
        ∀ ident, [ident] ∈ columns → Keyword.constant? ident.quoted.keyword = none) := by
  obtain ⟨hformat, hparse⟩ := format_projection hcolumns htables
  refine ⟨formattedText columns tables, hformat, hparse, ?_⟩
  rw [← map_reading_eq_iff, applyQuoting_projection, projection, ← selection_inj]
  constructor
  · intro h
    have hread := h .format
    rw [hparse] at hread
    injection hread
  · intro h stage
    rw [hparse, h]

end

-- A reserved word, and `true` with and without the name of its table, are such columns.
example : LastingColumns [[.bare "key"], [.bare "Orders", .bare "true"], [.bare "true"]] ∧
    LastingTables [[.bare "Prod", .bare "Order lines"]] := by
  decide +kernel

/-- A column in quotes is read as this column. -/
theorem parseAll_quotedColumn {word : String} (hword : '"' ∉ word.toList) :
    Statement.parseAll
      (String.ofList (spell (projectionTokens " " [[⟨word, some '"'⟩]] [[.bare "t"]]))) =
      .ok [projection [[⟨word, some '"'⟩]] [[.bare "t"]]] := by
  have hcolumns : LegibleNames [[⟨word, some '"'⟩]] := by
    refine ⟨by simp, by simp, ?_⟩
    intro name hname ident hident
    cases List.mem_singleton.mp hname
    cases List.mem_singleton.mp hident
    exact .quoted hword
  have hitems : StartItems [[⟨word, some '"'⟩]] := by
    intro name hname ident hident
    cases List.mem_singleton.mp hname
    cases hident
    have hkeyword : Ident.keyword ⟨word, some '"'⟩ = "" := rfl
    refine ⟨?_, ?_, ?_, rfl, .inl rfl⟩ <;> rw [hkeyword] <;> decide
  have htables : LastingTables [[.bare "t"]] := by
    decide +kernel
  have htable : quotedNames [[.bare "t"]] = [[.bare "t"]] := by
    decide +kernel
  have hread := parseAll_projection hcolumns htables.legible hitems htables.start (.inl rfl)
  rw [htable] at hread
  exact hread

/-- The column `true` of a view is a truth value in the formatted text. -/
theorem quotedTrue_becomes_constant :
    parseView "SELECT \"true\" FROM t" = .ok (projection [[⟨"true", some '"'⟩]] [[.bare "t"]]) ∧
      (projection [[⟨"true", some '"'⟩]] [[.bare "t"]]).format = .ok "SELECT true\nFROM t" ∧
      parseView "SELECT true\nFROM t" = .ok (selection [.constant "true"] [[.bare "t"]]) ∧
      ∀ ident, selection [.constant "true"] [[.bare "t"]] ≠ projection [[ident]] [[.bare "t"]] := by
  have hcolumns : LastingColumns [[⟨"true", some '"'⟩]] := by
    decide +kernel
  have htables : LastingTables [[.bare "t"]] := by
    decide +kernel
  obtain ⟨hformat, hparse⟩ := format_projection hcolumns htables
  have htext : formattedText [[⟨"true", some '"'⟩]] [[.bare "t"]] = "SELECT true\nFROM t" := by
    decide +kernel
  have hread := hparse .parse
  rw [htext] at hformat hread
  have hsource : String.ofList (spell (projectionTokens " " [[⟨"true", some '"'⟩]] [[.bare "t"]])) =
      "SELECT \"true\" FROM t" := by
    decide +kernel
  have hview := @parseAll_quotedColumn "true" (by decide)
  rw [hsource] at hview
  have hnormal : normalizeComments "SELECT \"true\" FROM t" = "SELECT \"true\" FROM t" := rfl
  refine ⟨?_, hformat, hread, ?_⟩
  · rw [parseView, hnormal, parseSingle, hview]
  · intro ident heq
    cases selection_inj.mp heq

end Relocate.Sql
