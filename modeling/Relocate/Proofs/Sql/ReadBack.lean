import Relocate.Proofs.Sql.Spelling

/-!
# Names that are read back

A name is read from its lexemes as a column or a qualified name
(`expression_reads`), unless its first word starts a form of its own.  Before that
the grammar tries to read the name as a type in front of a text constant, which
fails (`typedConstant_fails`).
-/

namespace Relocate.Sql

open Relocate.Sql.Parser Text

namespace Lexeme

/-- The lexeme of a word. -/
def word (ident : Ident) (place : Location) : Lexeme :=
  .ofPlaced ⟨.word ident, place⟩

/-- The lexeme of a symbol. -/
def symbol (text : String) (place : Location) : Lexeme :=
  .ofPlaced ⟨.symbol text, place⟩

end Lexeme

/-- The word by which the identifier is compared with keywords. -/
abbrev Ident.keyword (ident : Ident) : String :=
  (Token.word ident).keyword

/-! ## Readers one after the other -/

theorem Parser.bind_ok
    {α β : Type} {reader : Parser α} {next : α → Parser β} {lexemes rest : List Lexeme}
    {value : α} (h : reader lexemes = .ok (value, rest)) :
    (reader >>= next) lexemes = next value rest := by
  simp only [bind, h]

theorem Parser.bind_error
    {α β : Type} {reader : Parser α} {next : α → Parser β} {lexemes : List Lexeme}
    {issue : ParseError} (h : reader lexemes = .error issue) :
    (reader >>= next) lexemes = .error issue := by
  simp only [bind, h]

theorem Parser.pure_bind
    {α β : Type} (next : α → Parser β) (value : α) (lexemes : List Lexeme) :
    (pure value >>= next) lexemes = next value lexemes :=
  rfl

theorem Parser.remaining_bind
    {β : Type} (next : List Lexeme → Parser β) (lexemes : List Lexeme) :
    (remaining >>= next) lexemes = next lexemes lexemes :=
  rfl

theorem Parser.advance_bind
    {β : Type} (next : Unit → Parser β) (lexeme : Lexeme) (rest : List Lexeme) :
    (advance >>= next) (lexeme :: rest) = next () rest :=
  rfl

theorem Parser.resume_bind
    {β : Type} (next : Unit → Parser β) (start lexemes : List Lexeme) :
    (resume start >>= next) lexemes = next () start :=
  rfl

theorem Parser.symbol?_self (text : String) (place : Location) (rest : List Lexeme) :
    symbol? text (.symbol text place :: rest) = .ok (true, rest) := by
  simp [symbol?, Lexeme.symbol, Lexeme.ofPlaced]

section

variable {α : Type} {mark : String} {reader : Parser α} {value : α} {lexemes rest : List Lexeme}

/-- The last value of a list. -/
theorem Parser.separatedFrom_last
    (hvalue : reader lexemes = .ok (value, rest)) (hmark : symbol? mark rest = .ok (false, rest))
    (fuel : Nat) : separatedFrom mark reader fuel lexemes = .ok ([value], rest) := by
  cases fuel with
  | zero =>
      unfold separatedFrom
      exact bind_ok hvalue
  | succ fuel =>
      unfold separatedFrom
      rw [bind_ok hvalue, bind_ok hmark]
      rfl

/-- A value of a list and those behind it. -/
theorem Parser.separatedFrom_cons
    {place : Location} {more : List Lexeme} {values : List α} {fuel : Nat}
    (hvalue : reader lexemes = .ok (value, .symbol mark place :: more))
    (hmore : separatedFrom mark reader fuel more = .ok (values, rest)) :
    separatedFrom mark reader (fuel + 1) lexemes = .ok (value :: values, rest) := by
  unfold separatedFrom
  rw [bind_ok hvalue, bind_ok (symbol?_self mark place more)]
  simp only [if_true]
  rw [bind_ok hmore]
  rfl

end

/-! ## Lexemes of names -/

/-- The lexemes spell the name. -/
inductive SpellsName : List Lexeme → Name → Prop
  | last (ident : Ident) (place : Location) : SpellsName [.word ident place] [ident]
  | cons (ident : Ident) (place point : Location) {lexemes : List Lexeme} {name : Name}
      (hrest : SpellsName lexemes name) :
      SpellsName (.word ident place :: .symbol "." point :: lexemes) (ident :: name)

/-- What follows a name of a list: the end, a comma, the word `FROM`, or a superscript,
which no word goes on with. -/
inductive Stops : List Lexeme → Prop
  | nil : Stops []
  | comma (place : Location) (rest : List Lexeme) : Stops (.symbol "," place :: rest)
  | source (place : Location) (rest : List Lexeme) : Stops (.word (.bare "FROM") place :: rest)
  | squared (place : Location) (rest : List Lexeme) : Stops (.symbol "²" place :: rest)

section

variable {front rest : List Lexeme} {spelled : Name}

theorem SpellsName.length_le (h : SpellsName front spelled) : spelled.length ≤ front.length := by
  induction h with
  | last => exact Nat.le_refl 1
  | cons ident place point hrest ih =>
      simp only [List.length_cons]
      omega

theorem separatedFrom_reads_name
    (h : SpellsName front spelled) (hrest : Stops rest) {fuel : Nat}
    (hfuel : spelled.length ≤ fuel + 1) :
    separatedFrom "." ident fuel (front ++ rest) = .ok (spelled, rest) := by
  induction h generalizing fuel with
  | last ident place =>
      have hmark : symbol? "." rest = .ok (false, rest) := by
        cases hrest <;> rfl
      exact separatedFrom_last rfl hmark fuel
  | @cons ident place point lexemes name hname ih =>
      cases fuel with
      | zero => cases hname <;> simp at hfuel
      | succ fuel => exact separatedFrom_cons rfl (ih (Nat.le_of_succ_le_succ hfuel))

theorem name_reads (h : SpellsName front spelled) (hrest : Stops rest) :
    name (front ++ rest) = .ok (spelled, rest) := by
  have hlength := h.length_le
  refine separatedFrom_reads_name h hrest ?_
  rw [List.length_append]
  omega

end

/-! ## Words that might start a typed constant -/

/-- What follows the first word of a name: a point, or what follows the name. -/
inductive Calm : List Lexeme → Prop
  | stop {rest : List Lexeme} (hrest : Stops rest) : Calm rest
  | point (place : Location) (rest : List Lexeme) : Calm (.symbol "." place :: rest)

theorem Calm.cases {tail : List Lexeme} (h : Calm tail) :
    tail = [] ∨ (∃ place rest, tail = .symbol "," place :: rest) ∨
      (∃ place rest, tail = .word (.bare "FROM") place :: rest) ∨
      (∃ place rest, tail = .symbol "²" place :: rest) ∨
      ∃ place rest, tail = .symbol "." place :: rest := by
  cases h with
  | stop hrest => cases hrest <;> simp
  | point place rest => simp

/-- The word may be read as a type, and then nothing behind it is. -/
def ReadsType (word : String) (reader : Parser (Option DataType)) (tail : List Lexeme) : Prop :=
  ∃ found, reader tail = .ok (found, tail) ∧
    ∀ type, found = some type → type.kind = .known ∨ word = "INTERVAL"

theorem ReadsType.known
    {word text : String} {reader : Parser (Option DataType)} {tail : List Lexeme}
    (h : reader tail = .ok (some (.named text), tail)) : ReadsType word reader tail := by
  refine ⟨_, h, ?_⟩
  intro type htype
  cases htype
  exact .inl rfl

theorem ReadsType.nothing
    {word : String} {reader : Parser (Option DataType)} {tail : List Lexeme}
    (h : reader tail = .ok (none, tail)) : ReadsType word reader tail :=
  ⟨_, h, fun _ htype => nomatch htype⟩

theorem afterWord_calm {tail : List Lexeme} (h : Calm tail) (word : String) :
    ReadsType word (DataType.afterWord word) tail := by
  have hlength : DataType.length? tail = .ok ("", tail) := by
    rcases h.cases with rfl | ⟨_, _, rfl⟩ | ⟨_, _, rfl⟩ | ⟨_, _, rfl⟩ | ⟨_, _, rfl⟩ <;> rfl
  have hprecision : DataType.precision? tail = .ok ("", tail) := by
    rcases h.cases with rfl | ⟨_, _, rfl⟩ | ⟨_, _, rfl⟩ | ⟨_, _, rfl⟩ | ⟨_, _, rfl⟩ <;> rfl
  have hunsigned : keyword? "UNSIGNED" tail = .ok (false, tail) := by
    rcases h.cases with rfl | ⟨_, _, rfl⟩ | ⟨_, _, rfl⟩ | ⟨_, _, rfl⟩ | ⟨_, _, rfl⟩ <;> rfl
  unfold DataType.afterWord
  by_cases hplain : DataType.plainNames.contains word = true
  · rw [if_pos hplain]
    exact .known rfl
  rw [if_neg hplain]
  by_cases hlengths : DataType.lengthNames.contains word = true
  · rw [if_pos hlengths]
    exact .known (bind_ok hlength)
  rw [if_neg hlengths]
  by_cases hexact : DataType.exactNames.contains word = true
  · rw [if_pos hexact]
    exact .known (bind_ok hprecision)
  rw [if_neg hexact]
  by_cases hinteger : DataType.integerNames.contains word = true
  · rw [if_pos hinteger]
    exact .known ((bind_ok hlength).trans (bind_ok hunsigned))
  rw [if_neg hinteger]
  cases DataType.mixedNames.lookup word with
  | some text => exact .known rfl
  | none =>
      -- The types with a spelling of their own, and last the words that are none.
      simp only
      split <;> rcases h.cases with rfl | ⟨_, _, rfl⟩ | ⟨_, _, rfl⟩ | ⟨_, _, rfl⟩ | ⟨_, _, rfl⟩ <;>
        first
          | exact .known rfl
          | exact .nothing rfl
          | exact ⟨_, rfl, fun _ _ => .inr rfl⟩

section

variable {ident : Ident} {place : Location} {front tail rest : List Lexeme} {spelled : Name}

/-- A spelled name starts with its first word. -/
theorem SpellsName.uncons (h : SpellsName front spelled) :
    ∃ ident place tail, front = .word ident place :: tail ∧ spelled.head? = some ident := by
  cases h with
  | last ident place => exact ⟨ident, place, [], rfl, rfl⟩
  | cons ident place point => exact ⟨ident, place, _, rfl, rfl⟩

/-- What follows the first word of a name. -/
theorem SpellsName.calm
    (h : SpellsName (.word ident place :: tail) spelled) (hrest : Stops rest) :
    Calm (tail ++ rest) := by
  cases h with
  | last => exact .stop hrest
  | cons _ _ point => exact .point point _

/-- Words that start a type in a way of their own. -/
def Keyword.types : List String := ["ARRAY", "STRUCT", "MAP", "INTERVAL"]

/-- A type that is followed by no brackets is the whole type. -/
theorem dataType_of_base
    {fuel : Nat} {lexemes : List Lexeme} {type : DataType}
    (hbase : DataType.nested.base fuel lexemes = .ok ((type, false), tail)) (htail : Calm tail)
    (hlength : lexemes.length = fuel + 1) :
    DataType.parser lexemes = .ok (type, tail) := by
  have hsizes : many DataType.arraySuffix tail = .ok ([], tail) := by
    rcases htail.cases with rfl | ⟨_, _, rfl⟩ | ⟨_, _, rfl⟩ | ⟨_, _, rfl⟩ | ⟨_, _, rfl⟩ <;> rfl
  have hnested : DataType.nested (fuel + 1) lexemes = .ok ((type, false), tail) := by
    unfold DataType.nested
    rw [bind_ok hbase]
    simp only [Bool.false_eq_true, if_false]
    rw [bind_ok hsizes]
    rfl
  unfold DataType.parser
  rw [remaining_bind, hlength, bind_ok hnested]
  rfl

theorem custom_reads (h : SpellsName front spelled) (hrest : Stops rest) :
    DataType.custom (front ++ rest) = .ok (⟨.custom, spelled.render⟩, rest) := by
  unfold DataType.custom
  rw [bind_ok (name_reads h hrest)]
  cases hrest <;> rfl

theorem base_of_type
    {type : DataType} (h : DataType.afterWord ident.keyword tail = .ok (some type, tail))
    (fuel : Nat) :
    DataType.nested.base fuel (.word ident place :: tail) = .ok ((type, false), tail) := by
  unfold DataType.nested.base
  rw [remaining_bind]
  simp only [Lexeme.word, Lexeme.ofPlaced]
  rw [advance_bind, bind_ok h]
  rfl

theorem base_of_custom
    {type : DataType} (h : DataType.afterWord ident.keyword tail = .ok (none, tail))
    (hcustom : DataType.custom (.word ident place :: tail) = .ok (type, rest))
    (htype : ident.keyword ∉ Keyword.types) (fuel : Nat) :
    DataType.nested.base fuel (.word ident place :: tail) = .ok ((type, false), rest) := by
  have hword : (Token.word ident).keyword ∉ Keyword.types := htype
  unfold DataType.nested.base
  rw [remaining_bind]
  simp only [Lexeme.word, Lexeme.ofPlaced]
  rw [advance_bind, bind_ok h]
  simp only
  generalize hkey : (Token.word ident).keyword = key at hword
  split
  case h_4 =>
      subst hkey
      rw [resume_bind]
      exact bind_ok hcustom
  all_goals exact absurd (by decide) hword

/-- The first word is read as a type that the grammar knows, or the whole name as one
that it does not know. -/
theorem dataType_reads
    (h : SpellsName (.word ident place :: tail) spelled) (hrest : Stops rest)
    (htype : ident.keyword ∉ Keyword.types) :
    ∃ type, (DataType.parser (.word ident place :: (tail ++ rest)) = .ok (type, tail ++ rest) ∧
      type.kind = .known) ∨
    (DataType.parser (.word ident place :: (tail ++ rest)) = .ok (type, rest) ∧
      type.kind = .custom) := by
  have hcalm := h.calm hrest
  obtain ⟨found, hfound, hkind⟩ := afterWord_calm hcalm ident.keyword
  cases found with
  | some type =>
      refine ⟨type, .inl ⟨dataType_of_base (base_of_type hfound _) hcalm rfl, ?_⟩⟩
      rcases hkind type rfl with hknown | hinterval
      · exact hknown
      · rw [hinterval] at htype
        exact absurd (by decide) htype
  | none =>
      have hcustom : DataType.custom (.word ident place :: (tail ++ rest)) =
        .ok (⟨.custom, spelled.render⟩, rest) := custom_reads h hrest
      have hbase := base_of_custom hfound hcustom htype (tail ++ rest).length
      exact ⟨_, .inr ⟨dataType_of_base hbase (.stop hrest) rfl, rfl⟩⟩

/-- No text constant stands behind the first word of a name. -/
theorem text_calm {tail : List Lexeme} (h : Calm tail) :
    ∃ issue, Literal.text tail = .error issue ∧ issue ≠ .tooDeep := by
  rcases h.cases with rfl | ⟨place, rest, rfl⟩ | ⟨place, rest, rfl⟩ | ⟨place, rest, rfl⟩ |
    ⟨place, rest, rfl⟩
  · exact ⟨_, rfl, nofun⟩
  · exact ⟨_, rfl, nofun⟩
  · have hknown : Keyword.allKeywords.contains "FROM" = true := by decide +kernel
    have hsource : (Token.word (.bare "FROM")).keyword = "FROM" := by decide
    have hfound : Keyword.allKeywords.contains (Token.word (.bare "FROM")).keyword = true := by
      rw [hsource]
      exact hknown
    refine ⟨.expected "literal string" (some ⟨.word (.bare "FROM"), place⟩), ?_, nofun⟩
    unfold Literal.text
    simp only [Lexeme.word, Lexeme.ofPlaced, hfound, if_true]
    rfl
  · exact ⟨_, rfl, nofun⟩
  · exact ⟨_, rfl, nofun⟩

/-- A name is no typed constant. -/
theorem typedConstant_fails
    (h : SpellsName (.word ident place :: tail) spelled) (hrest : Stops rest)
    (htype : ident.keyword ∉ Keyword.types) (first : Parser Expr) :
    attempt (Expression.typedConstant first) (.word ident place :: (tail ++ rest)) =
      .ok (none, .word ident place :: (tail ++ rest)) := by
  have hfails : ∃ issue, Expression.typedConstant first (.word ident place :: (tail ++ rest)) =
      .error issue ∧ issue ≠ .tooDeep := by
    unfold Expression.typedConstant
    obtain ⟨type, ⟨hread, hknown⟩ | ⟨hread, hcustom⟩⟩ := dataType_reads h hrest htype
    · obtain ⟨issue, htext, hissue⟩ := text_calm (h.calm hrest)
      refine ⟨issue, ?_, hissue⟩
      rw [bind_ok hread]
      simp only [hknown]
      exact bind_error htext
    · refine ⟨.failed "dummy" none, ?_, nofun⟩
      rw [bind_ok hread]
      simp only [hcustom]
      rfl
  obtain ⟨issue, hissue, hdeep⟩ := hfails
  unfold attempt
  rw [hissue]
  cases issue <;> first | rfl | exact absurd rfl hdeep

end

/-! ## Words that start an expression -/

/-- The words that start an expression of their own, other than constants. -/
def Keyword.forms : List String := [
  "CURRENT_CATALOG", "CURRENT_USER", "SESSION_USER", "USER", "CURRENT_TIMESTAMP",
  "CURRENT_TIME", "CURRENT_DATE", "LOCALTIME", "LOCALTIMESTAMP", "CASE", "CONVERT",
  "TRY_CONVERT", "CAST", "TRY_CAST", "SAFE_CAST", "EXISTS", "EXTRACT", "CEIL", "FLOOR",
  "SUBSTRING", "OVERLAY", "TRIM", "NOT"]

/-- The constant that a word is. -/
def Keyword.constant? (word : String) : Option String :=
  match word with
  | "TRUE" => some "true"
  | "FALSE" => some "false"
  | "NULL" => some "NULL"
  | _ => none

section

variable {word : String} (g : Grammar) (first : Parser Expr) (start : List Lexeme) (ident : Ident)

theorem specialWord_constant
    {text : String} (h : Keyword.constant? word = some text) (tail : List Lexeme) :
    Expression.specialWord g first start ident word tail = .ok (some (.constant text), tail) := by
  unfold Keyword.constant? at h
  split at h <;> cases h <;> rfl

/-- Other words start no expression of their own before what follows a name. -/
theorem specialWord_none
    {tail : List Lexeme} (htail : Calm tail) (hform : word ∉ Keyword.forms)
    (htype : word ∉ Keyword.types) (hconstant : Keyword.constant? word = none) :
    Expression.specialWord g first start ident word tail = .ok (none, tail) := by
  unfold Expression.specialWord
  split <;> first
    | rfl
    | exact absurd (by decide) hform
    | exact absurd (by decide) htype
    | exact absurd hconstant (by decide)
    | rcases htail.cases with rfl | ⟨_, _, rfl⟩ | ⟨_, _, rfl⟩ | ⟨_, _, rfl⟩ | ⟨_, _, rfl⟩ <;> rfl

end

/-! ## Names as expressions -/

/-- The expression that a name stands for. -/
def Expr.ofName : Name → Expr
  | [ident] => .column ident
  | name => .path name

/-- The expression that a name is read as. -/
def Name.reading : Name → Expr
  | [ident] =>
    match Keyword.constant? ident.keyword with
    | some text => .constant text
    | none => .column ident
  | name => .path name

/-- A name is read as what it stands for, unless it is the word of a constant. -/
theorem Name.reading_eq
    {name : Name} (h : ∀ ident, name = [ident] → Keyword.constant? ident.keyword = none) :
    name.reading = .ofName name := by
  match name with
  | [] => rfl
  | [ident] => simp only [reading, h ident rfl, Expr.ofName]
  | ident :: other :: rest => rfl

theorem subscripts_calm {tail : List Lexeme} (h : Calm tail) (g : Grammar) :
    Expression.subscripts g tail = .ok ([], tail) := by
  rcases h.cases with rfl | ⟨_, _, rfl⟩ | ⟨_, _, rfl⟩ | ⟨_, _, rfl⟩ | ⟨_, _, rfl⟩ <;> rfl

section

variable {front rest : List Lexeme} {spelled : Name}

/-- A link is read before those behind it. -/
theorem linksFrom_cons
    {tail : List Lexeme} (htail : Calm tail) {g : Grammar} {fuel : Nat}
    {links : List (Link × Expr)} (hlinks : Expression.linksFrom g fuel tail = .ok (links, rest))
    (ident : Ident) (place point : Location) :
    Expression.linksFrom g (fuel + 1) (.symbol "." point :: .word ident place :: tail) =
      .ok ((.field, .column ident) :: links, rest) := by
  have hpoint : symbol? "." (.symbol "." point :: .word ident place :: tail) =
      .ok (true, .word ident place :: tail) := rfl
  unfold Expression.linksFrom
  rw [bind_ok hpoint]
  simp only [if_true]
  rw [remaining_bind]
  simp only [Lexeme.word, Lexeme.ofPlaced]
  rw [advance_bind, bind_ok (subscripts_calm htail g), bind_ok hlinks]
  rfl

theorem linksFrom_stops (hrest : Stops rest) (g : Grammar) (fuel : Nat) :
    Expression.linksFrom g fuel rest = .ok ([], rest) := by
  cases fuel with
  | zero => rfl
  | succ fuel => cases hrest <;> rfl

theorem linksFrom_reads
    (h : SpellsName front spelled) (hrest : Stops rest) (g : Grammar) {fuel : Nat}
    (hfuel : spelled.length ≤ fuel) (point : Location) :
    Expression.linksFrom g fuel (.symbol "." point :: (front ++ rest)) =
      .ok (spelled.map fun ident => (.field, .column ident), rest) := by
  induction h generalizing fuel point with
  | last ident place =>
      cases fuel with
      | zero => simp at hfuel
      | succ fuel =>
          exact linksFrom_cons (.stop hrest) (linksFrom_stops hrest g fuel) ident place point
  | @cons ident place next lexemes name _ ih =>
      cases fuel with
      | zero => simp at hfuel
      | succ fuel =>
          have hmore := ih (Nat.le_of_succ_le_succ hfuel) next
          exact linksFrom_cons (.point next _) hmore ident place point

/-- The identifiers of a name are the fields behind its first one. -/
theorem fieldNames_map (name : Name) :
    Expression.fieldNames? (name.map fun ident => (.field, .column ident)) = some name := by
  induction name with
  | nil => rfl
  | cons ident name ih => simp only [List.map_cons, Expression.fieldNames?, ih, Option.map_some]

/-- A name that does not start a form is read as a column or a qualified name. -/
theorem ordinaryWord_reads
    {ident : Ident} {place : Location} {tail : List Lexeme}
    (h : SpellsName (.word ident place :: tail) spelled) (hrest : Stops rest) (g : Grammar)
    (first : Parser Expr) :
    Expression.ordinaryWord g first ident (tail ++ rest) = .ok (.ofName spelled, rest) := by
  cases h with
  | last => cases hrest <;> rfl
  | @cons _ _ point lexemes name hname =>
      have hlength : name.length ≤ (Lexeme.symbol "." point :: (lexemes ++ rest)).length := by
        have hlexemes := hname.length_le
        simp only [List.length_cons, List.length_append]
        omega
      have hlinks := linksFrom_reads hname hrest g hlength point
      have hnone : atSymbol "(" rest = .ok (false, rest) := by
        cases hrest <;> rfl
      have hcompound : Expression.compound g first (.column ident) []
          (.symbol "." point :: (lexemes ++ rest)) = .ok (.path (ident :: name), rest) := by
        unfold Expression.compound
        rw [remaining_bind, bind_ok hlinks, bind_ok hnone]
        simp only [List.nil_append, Expression.nameOf?, fieldNames_map, Option.map_some]
        cases hname <;> rfl
      have hpath : Expr.ofName (ident :: name) = .path (ident :: name) := by
        cases hname <;> rfl
      rw [hpath]
      exact hcompound

/-- The words of a name in front of a star. -/
theorem qualifierFrom_none
    (h : SpellsName front spelled) (hrest : Stops rest) {fuel : Nat}
    (hfuel : spelled.length ≤ fuel) (parts : Name) (point : Location) :
    ∃ left, Expression.qualifierFrom fuel parts (.symbol "." point :: (front ++ rest)) =
      .ok (none, left) := by
  induction h generalizing fuel parts point with
  | last ident place =>
      cases fuel with
      | zero => simp at hfuel
      | succ fuel =>
          cases fuel with
          | zero => exact ⟨rest, rfl⟩
          | succ fuel => cases hrest <;> exact ⟨_, rfl⟩
  | @cons ident place next lexemes name _ ih =>
      cases fuel with
      | zero => simp at hfuel
      | succ fuel =>
          obtain ⟨left, hleft⟩ := ih (Nat.le_of_succ_le_succ hfuel) (parts ++ [ident]) next
          exact ⟨left, hleft⟩

/-- The words that start something else where a select item or a table may stand. -/
def Keyword.heads : List String := [
  "ALL", "DISTINCT", "TOP", "FROM", "LATERAL", "TABLE", "UNNEST"]

/-- The name, which starts with the identifier, is read as a select item.  A qualified
name starts with no constant. -/
structure StartsItem (ident : Ident) (name : Name) : Prop where
  type : ident.keyword ∉ Keyword.types
  form : ident.keyword ∉ Keyword.forms
  head : ident.keyword ∉ Keyword.heads
  column : Selection.endingWord? (.column ident) = none
  whole : name = [ident] ∨ Keyword.constant? ident.keyword = none

variable {ident : Ident} {place : Location} {tail : List Lexeme}

theorem primary_reads_constant
    {text : String} (hconstant : Keyword.constant? ident.keyword = some text) (g : Grammar)
    (first : Parser Expr) :
    Expression.primary g first (.word ident place :: rest) = .ok (.constant text, rest) := by
  have htried : trying (Expression.specialWord g first (.word ident place :: rest) ident
      ident.keyword) rest = .ok (.ok (some (.constant text)), rest) := by
    unfold trying
    rw [specialWord_constant g first _ ident hconstant]
  change Expression.startingWithWord g first (.word ident place :: rest) ident ident.keyword
    (.word ident place :: rest) = _
  unfold Expression.startingWithWord
  rw [advance_bind, bind_ok htried]
  rfl

theorem primary_reads_name
    (h : SpellsName (.word ident place :: tail) spelled) (hrest : Stops rest)
    (hident : StartsItem ident spelled) (hconstant : Keyword.constant? ident.keyword = none)
    (g : Grammar) (first : Parser Expr) :
    Expression.primary g first (.word ident place :: (tail ++ rest)) =
      .ok (.ofName spelled, rest) := by
  have hspecial := specialWord_none g first (.word ident place :: (tail ++ rest)) ident
    (h.calm hrest) hident.form hident.type hconstant
  have htried : trying (Expression.specialWord g first
      (.word ident place :: (tail ++ rest)) ident ident.keyword) (tail ++ rest) =
        .ok (.ok none, tail ++ rest) := by
    unfold trying
    rw [hspecial]
  change Expression.startingWithWord g first (.word ident place :: (tail ++ rest)) ident
    ident.keyword (.word ident place :: (tail ++ rest)) = _
  unfold Expression.startingWithWord
  rw [advance_bind, bind_ok htried]
  exact ordinaryWord_reads h hrest g first

theorem primary_reads
    (h : SpellsName (.word ident place :: tail) spelled) (hrest : Stops rest)
    (hident : StartsItem ident spelled) (g : Grammar) (first : Parser Expr) :
    Expression.primary g first (.word ident place :: (tail ++ rest)) =
      .ok (spelled.reading, rest) := by
  cases hconstant : Keyword.constant? ident.keyword with
  | none =>
      have hreading : spelled.reading = .ofName spelled := by
        refine Name.reading_eq fun other hother => ?_
        cases h with
        | last => exact List.head_eq_of_cons_eq hother ▸ hconstant
        | cons _ _ _ hname =>
            cases hname <;> cases hother
      rw [hreading]
      exact primary_reads_name h hrest hident hconstant g first
  | some text =>
      obtain rfl : spelled = [ident] := hident.whole.resolve_right (by simp [hconstant])
      obtain rfl : tail = [] := by
        cases h with
        | last => rfl
        | cons _ _ _ hname => cases hname
      have hreading : Name.reading [ident] = .constant text := by
        simp only [Name.reading, hconstant]
      rw [hreading]
      exact primary_reads_constant hconstant g first

/-- A name is read as a constant, a column or a qualified name. -/
theorem expression_reads
    (h : SpellsName (.word ident place :: tail) spelled) (hrest : Stops rest)
    (hident : StartsItem ident spelled) (g : Grammar) :
    Expression.parser g Level.none (.word ident place :: (tail ++ rest)) =
      .ok (spelled.reading, rest) := by
  have hcollate : keyword? "COLLATE" rest = .ok (false, rest) := by
    cases hrest <;> rfl
  have hoperand : Expression.operand g (.word ident place :: (tail ++ rest)) =
      .ok (spelled.reading, rest) := by
    unfold Expression.operand
    rw [remaining_bind]
    unfold Expression.operandFrom
    rw [bind_ok (typedConstant_fails h hrest hident.type _)]
    simp only
    rw [bind_ok (primary_reads h hrest hident g _), bind_ok hcollate]
    rfl
  unfold Expression.parser
  rw [bind_ok hoperand]
  cases hrest <;> rfl

end

end Relocate.Sql
