import Relocate.Proofs.Sql.ReadBack

/-!
# Projections that are read back

A projection selects columns from tables and does nothing else.  Its lexemes are
read as the projection (`ofTokens_of_query`, `query_reads`, `select_reads`), when
the first word of each of its names means nothing else where it stands.  Where a `²`
stands behind the columns, reading stops in front of it (`ofTokens_of_squared`).
-/

namespace Relocate.Sql

open Relocate.Sql.Parser Text

/-! ## Lists of names -/

/-- The lexemes spell the names, with commas between them. -/
inductive SpellsNames : List Lexeme → List Name → Prop
  | last {front : List Lexeme} {name : Name} (hname : SpellsName front name) :
      SpellsNames front [name]
  | cons {front lexemes : List Lexeme} {name : Name} {names : List Name}
      (hname : SpellsName front name) (place : Location) (hrest : SpellsNames lexemes names) :
      SpellsNames (front ++ .symbol "," place :: lexemes) (name :: names)

/-- What follows a list of names: the end, the word `FROM`, or a superscript. -/
inductive Ends : List Lexeme → Prop
  | nil : Ends []
  | source (place : Location) (rest : List Lexeme) : Ends (.word (.bare "FROM") place :: rest)
  | squared (place : Location) (rest : List Lexeme) : Ends (.symbol "²" place :: rest)

/-- What follows a name of a list: a comma, or what follows the list. -/
inductive Follows (rest : List Lexeme) : List Lexeme → Prop
  | last : Follows rest rest
  | comma (place : Location) (more : List Lexeme) : Follows rest (.symbol "," place :: more)

theorem Ends.stops {rest more : List Lexeme} (h : Ends rest) (hmore : Follows rest more) :
    Stops more := by
  cases hmore with
  | comma place more => exact .comma place more
  | last =>
      cases h with
      | nil => exact .nil
      | source place rest => exact .source place rest
      | squared place rest => exact .squared place rest

/-- A list of names has no more names than lexemes. -/
theorem SpellsNames.length_le
    {front : List Lexeme} {names : List Name} (h : SpellsNames front names) :
    names.length ≤ front.length := by
  induction h with
  | last hname =>
      cases hname <;> simp
  | cons hname place hrest ih =>
      simp only [List.length_cons, List.length_append]
      omega

/-- The first name of a list starts with its first word. -/
theorem SpellsNames.uncons
    {front : List Lexeme} {names : List Name} (h : SpellsNames front names) :
    ∃ name ∈ names, ∃ ident place tail,
      front = .word ident place :: tail ∧ name.head? = some ident := by
  cases h with
  | last hname => exact ⟨_, List.mem_cons_self, hname.uncons⟩
  | cons hname comma hrest =>
      obtain ⟨ident, place, tail, rfl, hhead⟩ := hname.uncons
      exact ⟨_, List.mem_cons_self, ident, place, _, rfl, hhead⟩

theorem separatedFrom_reads
    {α : Type} {reader : Parser α} {value : Name → α} {front rest : List Lexeme}
    {names : List Name} (h : SpellsNames front names) (hrest : Ends rest)
    (hreads : ∀ name ∈ names, ∀ front more, SpellsName front name → Follows rest more →
      reader (front ++ more) = .ok (value name, more)) {fuel : Nat}
    (hfuel : names.length ≤ fuel + 1) :
    separatedFrom "," reader fuel (front ++ rest) = .ok (names.map value, rest) := by
  induction h generalizing fuel with
  | @last front name hname =>
      have hmark : symbol? "," rest = .ok (false, rest) := by
        cases hrest <;> rfl
      exact separatedFrom_last (hreads name List.mem_cons_self front rest hname .last) hmark fuel
  | @cons front lexemes name names hname place hnames ih =>
      have hvalue := hreads name List.mem_cons_self front
        (.symbol "," place :: (lexemes ++ rest)) hname (.comma place _)
      cases fuel with
      | zero => cases hnames <;> simp at hfuel
      | succ fuel =>
          have hmore := ih (fun other hother => hreads other (List.mem_cons_of_mem _ hother))
            (Nat.le_of_succ_le_succ hfuel)
          rw [List.append_assoc, List.cons_append]
          exact separatedFrom_cons hvalue hmore

/-- A reader of single names reads all names of a list. -/
theorem commaSeparated_reads
    {α : Type} {reader : Parser α} {value : Name → α} {front rest : List Lexeme}
    {names : List Name} (h : SpellsNames front names) (hrest : Ends rest)
    (hreads : ∀ name ∈ names, ∀ front more, SpellsName front name → Follows rest more →
      reader (front ++ more) = .ok (value name, more)) :
    commaSeparated reader (front ++ rest) = .ok (names.map value, rest) := by
  have hlength := h.length_le
  refine separatedFrom_reads h hrest hreads ?_
  rw [List.length_append]
  omega

/-! ## Items and tables -/

section

variable {ident : Ident} {place : Location} {tail rest : List Lexeme} {spelled : Name}

/-- A name in a list of items is no star. -/
theorem starred_reads
    (h : SpellsName (.word ident place :: tail) spelled) (hrest : Stops rest)
    (hident : StartsItem ident spelled) (depth : Nat) :
    Expression.starred (.ofDepth (depth + 1)) (.word ident place :: (tail ++ rest)) =
      .ok (.expr spelled.reading, rest) := by
  have hexpr : (Grammar.ofDepth (depth + 1)).expr Level.none
      (.word ident place :: (tail ++ rest)) = .ok (spelled.reading, rest) :=
    expression_reads h hrest hident (.ofDepth depth)
  have hfirst : Parser.ident (.word ident place :: (tail ++ rest)) = .ok (ident, tail ++ rest) :=
    rfl
  have hqualifier : ∃ left, Expression.qualifierFrom
      (Lexeme.word ident place :: (tail ++ rest)).length [ident] (tail ++ rest) =
        .ok (none, left) := by
    cases h with
    | last => cases hrest <;> exact ⟨_, rfl⟩
    | @cons _ _ point lexemes name hname =>
        have hlength := hname.length_le
        refine qualifierFrom_none hname hrest ?_ [ident] point
        simp only [List.length_cons, List.length_append]
        omega
  obtain ⟨left, hleft⟩ := hqualifier
  unfold Expression.starred
  rw [remaining_bind]
  simp only [Lexeme.word, Lexeme.ofPlaced] at hfirst hleft hexpr ⊢
  rw [bind_ok hfirst, bind_ok hleft]
  simp only
  rw [resume_bind, bind_ok hexpr]
  rfl

/-- No name that is read as an item is the word that ends the items. -/
theorem endingWord_reading
    (h : SpellsName (.word ident place :: tail) spelled) (hident : StartsItem ident spelled) :
    Selection.endingWord? spelled.reading = none := by
  cases h with
  | last =>
      cases hconstant : Keyword.constant? ident.keyword with
      | none =>
          simp only [Name.reading, hconstant]
          exact hident.column
      | some text =>
          simp only [Name.reading, hconstant]
          rfl
  | cons _ _ _ hname => cases hname <;> rfl

/-- A name is read as a select item. -/
theorem item_reads
    (h : SpellsName (.word ident place :: tail) spelled) (hrest : Stops rest)
    (hident : StartsItem ident spelled) (depth : Nat) :
    Selection.item (.ofDepth (depth + 1)) (.word ident place :: (tail ++ rest)) =
      .ok (.expr spelled.reading none, rest) := by
  unfold Selection.item
  rw [bind_ok (starred_reads h hrest hident depth)]
  simp only [endingWord_reading h hident]
  cases hrest <;> rfl

/-- A word that heads nothing else is read as none of these words. -/
theorem keyword?_of_not_heads
    (h : ident.keyword ∉ Keyword.heads) {word : String} (hword : word ∈ Keyword.heads)
    (place : Location) (tail : List Lexeme) :
    keyword? word (.word ident place :: tail) = .ok (false, .word ident place :: tail) := by
  have hne : ((Token.word ident).keyword == word) = false := by
    rw [beq_eq_false_iff_ne]
    rintro rfl
    exact h hword
  unfold keyword?
  simp only [Lexeme.word, Lexeme.ofPlaced, hne]
  rfl

theorem atKeywordAndSymbol_calm (h : Calm tail) (word : String) (ident : Ident) (place : Location) :
    atKeywordAndSymbol word "(" (.word ident place :: tail) =
      .ok (false, .word ident place :: tail) := by
  rcases h.cases with rfl | ⟨_, _, rfl⟩ | ⟨_, _, rfl⟩ | ⟨_, _, rfl⟩ | ⟨_, _, rfl⟩ <;>
    simp [atKeywordAndSymbol, Lexeme.word, Lexeme.symbol, Lexeme.ofPlaced]

/-- A name in front of a comma or the end is the whole of a table factor. -/
theorem factor_reads
    (h : SpellsName (.word ident place :: tail) spelled) (hrest : Follows [] rest)
    (hident : ident.keyword ∉ Keyword.heads) (g : Grammar) (fuel : Nat) :
    Table.factorFrom g (fuel + 1) (.word ident place :: (tail ++ rest)) =
      .ok (.table spelled [] none [], rest) := by
  have hstops : Stops rest := Ends.nil.stops hrest
  have hcalm := h.calm hstops
  have hname : name (.word ident place :: (tail ++ rest)) = .ok (spelled, rest) :=
    name_reads h hstops
  have hparenthesis : symbol? "(" (.word ident place :: (tail ++ rest)) =
    .ok (false, .word ident place :: (tail ++ rest)) := rfl
  unfold Table.factorFrom
  rw [bind_ok (keyword?_of_not_heads hident (by decide) place _)]
  simp only [Bool.false_eq_true, if_false]
  rw [bind_ok (keyword?_of_not_heads hident (by decide) place _)]
  simp only [Bool.false_eq_true, if_false]
  rw [bind_ok hparenthesis]
  simp only [Bool.false_eq_true, if_false]
  rw [bind_ok (atKeywordAndSymbol_calm hcalm "VALUES" ident place)]
  simp only [Bool.false_eq_true, if_false]
  rw [bind_ok (keyword?_of_not_heads hident (by decide) place _)]
  simp only [Bool.false_eq_true, if_false]
  rw [bind_ok (atKeywordAndSymbol_calm hcalm "JSON_TABLE" ident place)]
  simp only [Bool.false_eq_true, if_false]
  rw [bind_ok (atKeywordAndSymbol_calm hcalm "OPENJSON" ident place)]
  simp only [Bool.false_eq_true, if_false]
  unfold Table.named
  rw [bind_ok hname]
  cases hrest <;> rfl

/-- A name in front of a comma or the end is read as a table without an alias. -/
theorem table_reads
    (h : SpellsName (.word ident place :: tail) spelled) (hrest : Follows [] rest)
    (hident : ident.keyword ∉ Keyword.heads) (g : Grammar) :
    Table.parser g (.word ident place :: (tail ++ rest)) =
      .ok (.mk (.table spelled [] none []) [], rest) := by
  unfold Table.parser
  rw [remaining_bind]
  unfold Table.joinedBy
  rw [bind_ok (factor_reads h hrest hident g _)]
  cases hrest <;> rfl

/-- No word in front of the items is read from them, and the items do not end there. -/
theorem noWords_read
    (h : ident.keyword ∉ Keyword.heads) (g : Grammar) (place : Location) (tail : List Lexeme) :
    Selection.duplicates? g (.word ident place :: tail) = .ok ([], .word ident place :: tail) ∧
      Selection.top? g (.word ident place :: tail) = .ok ([], .word ident place :: tail) ∧
      ∃ word, (word == "FROM") = false ∧
        peekKeyword 0 (.word ident place :: tail) = .ok (word, .word ident place :: tail) := by
  refine ⟨?_, ?_, ident.keyword, ?_, rfl⟩
  · unfold Selection.duplicates?
    rw [remaining_bind, bind_ok (keyword?_of_not_heads h (by decide) place tail),
      bind_ok (keyword?_of_not_heads h (by decide) place tail)]
    rfl
  · unfold Selection.top?
    rw [bind_ok (keyword?_of_not_heads h (by decide) place tail)]
    rfl
  · rw [beq_eq_false_iff_ne]
    intro heq
    rw [heq] at h
    exact h (by decide)

end

/-! ## Statements -/

/-- The names are read as select items. -/
def StartItems (columns : List Name) : Prop :=
  ∀ name ∈ columns, ∀ ident ∈ name.head?, StartsItem ident name

/-- The names are read as tables. -/
def StartTables (tables : List Name) : Prop :=
  ∀ name ∈ tables, ∀ ident ∈ name.head?, ident.keyword ∉ Keyword.heads

theorem items_read
    {front rest : List Lexeme} {names : List Name} (h : SpellsNames front names)
    (hrest : Ends rest) (hnames : StartItems names) (depth : Nat) :
    commaSeparated (Selection.item (.ofDepth (depth + 1))) (front ++ rest) =
      .ok (names.map fun name => .expr name.reading none, rest) := by
  refine commaSeparated_reads h hrest ?_
  intro name hmem front more hname hmore
  obtain ⟨ident, place, tail, rfl, hhead⟩ := hname.uncons
  exact item_reads hname (hrest.stops hmore) (hnames name hmem ident hhead) depth

theorem tables_read
    {front : List Lexeme} {names : List Name} (h : SpellsNames front names)
    (hnames : StartTables names) (g : Grammar) :
    commaSeparated (Table.parser g) front =
      .ok (names.map fun name => .mk (.table name [] none []) [], []) := by
  have hreads : ∀ name ∈ names, ∀ front more, SpellsName front name → Follows [] more →
      Table.parser g (front ++ more) = .ok (.mk (.table name [] none []) [], more) := by
    intro name hmem front more hname hmore
    obtain ⟨ident, place, tail, rfl, hhead⟩ := hname.uncons
    exact table_reads hname hmore (hnames name hmem ident hhead) g
  have hall := commaSeparated_reads h .nil hreads
  rwa [List.append_nil] at hall

/-- The select of values from tables. -/
def Select.ofValues (values : List Expr) (tables : List Name) : Select :=
  .mk [] (values.map fun value => .expr value none) none
    (tables.map fun name => .mk (.table name [] none []) []) []

/-- The query that selects values from tables. -/
def selection (values : List Expr) (tables : List Name) : Statement :=
  .query (.mk false [] (.select (.ofValues values tables)) [])

/-- A projection of columns of some tables. -/
def projection (columns tables : List Name) : Statement :=
  selection (columns.map Expr.ofName) tables

section

variable {front : List Lexeme} {columns : List Name}

/-- In front of the items there is nothing to read but the word of the select. -/
theorem items_open
    (hcolumns : SpellsNames front columns) (hitems : StartItems columns) (g : Grammar)
    (rest : List Lexeme) :
    Selection.duplicates? g (front ++ rest) = .ok ([], front ++ rest) ∧
      Selection.top? g (front ++ rest) = .ok ([], front ++ rest) ∧
      ∃ word, (word == "FROM") = false ∧
        peekKeyword 0 (front ++ rest) = .ok (word, front ++ rest) := by
  obtain ⟨name, hname, ident, place, tail, rfl, hhead⟩ := hcolumns.uncons
  exact noWords_read (hitems name hname ident hhead).head g place (tail ++ rest)

theorem select_reads
    {back : List Lexeme} {tables : List Name} (hcolumns : SpellsNames front columns)
    (htables : SpellsNames back tables) (hitems : StartItems columns)
    (hsources : StartTables tables) (select source : Location) (depth : Nat) :
    Selection.select (.ofDepth (depth + 1))
      (.word (.bare "SELECT") select :: (front ++ .word (.bare "FROM") source :: back)) =
      .ok (.ofValues (columns.map Name.reading) tables, []) := by
  have hselect : keyword "SELECT"
      (.word (.bare "SELECT") select :: (front ++ .word (.bare "FROM") source :: back)) =
    .ok ((), front ++ .word (.bare "FROM") source :: back) := rfl
  obtain ⟨hduplicates, htop, word, hword, hpeek⟩ := items_open hcolumns hitems
    (.ofDepth (depth + 1)) (.word (.bare "FROM") source :: back)
  have hread := items_read hcolumns (.source source back) hitems depth
  have htarget : Selection.target? (.word (.bare "FROM") source :: back) =
    .ok (none, .word (.bare "FROM") source :: back) := rfl
  have hsource : keyword? "FROM" (.word (.bare "FROM") source :: back) = .ok (true, back) := rfl
  unfold Selection.select
  rw [bind_ok hselect, bind_ok hduplicates, bind_ok htop, bind_ok hpeek]
  simp only [hword, Bool.false_eq_true, if_false]
  rw [bind_ok hread, bind_ok htarget, bind_ok hsource]
  simp only [if_true]
  rw [bind_ok (tables_read htables hsources (.ofDepth (depth + 1))), Select.ofValues,
    List.map_map]
  rfl

/-- A superscript behind the columns ends the select in front of its tables. -/
theorem select_reads_squared
    (hcolumns : SpellsNames front columns) (hitems : StartItems columns)
    (select place : Location) (rest : List Lexeme) (depth : Nat) :
    Selection.select (.ofDepth (depth + 1))
      (.word (.bare "SELECT") select :: (front ++ .symbol "²" place :: rest)) =
      .ok (.ofValues (columns.map Name.reading) [], .symbol "²" place :: rest) := by
  have hselect : keyword "SELECT"
      (.word (.bare "SELECT") select :: (front ++ .symbol "²" place :: rest)) =
    .ok ((), front ++ .symbol "²" place :: rest) := rfl
  obtain ⟨hduplicates, htop, word, hword, hpeek⟩ := items_open hcolumns hitems
    (.ofDepth (depth + 1)) (.symbol "²" place :: rest)
  have hread := items_read hcolumns (.squared place rest) hitems depth
  unfold Selection.select
  rw [bind_ok hselect, bind_ok hduplicates, bind_ok htop, bind_ok hpeek]
  simp only [hword, Bool.false_eq_true, if_false]
  rw [bind_ok hread, Select.ofValues, List.map_map]
  rfl

end

/-- A query is its select when no clause follows. -/
theorem query_reads
    {lexemes rest : List Lexeme} {select : Location} {selection : Select} {depth : Nat}
    (h : Selection.select (.ofDepth depth) (.word (.bare "SELECT") select :: lexemes) =
      .ok (selection, rest)) (hrest : Stops rest) :
    (Grammar.ofDepth (depth + 1)).query (.word (.bare "SELECT") select :: lexemes) =
      .ok (.mk false [] (.select selection) [], rest) := by
  have hwith : keyword? "WITH" (.word (.bare "SELECT") select :: lexemes) =
    .ok (false, .word (.bare "SELECT") select :: lexemes) := rfl
  have hcommand : Command.inQuery? (.ofDepth depth) (.word (.bare "SELECT") select :: lexemes) =
    .ok (none, .word (.bare "SELECT") select :: lexemes) := rfl
  have hplain : Combination.plain (.ofDepth depth) (.word (.bare "SELECT") select :: lexemes) =
      .ok (.select selection, rest) := by
    have hpeek : peekKeyword 0 (.word (.bare "SELECT") select :: lexemes) =
      .ok ("SELECT", .word (.bare "SELECT") select :: lexemes) := rfl
    unfold Combination.plain
    rw [bind_ok hpeek]
    simp only [beq_self_eq_true, if_true]
    rw [bind_ok h]
    rfl
  have hbody : Combination.body (.ofDepth depth) (.word (.bare "SELECT") select :: lexemes) =
      .ok (.select selection, rest) := by
    unfold Combination.body Combination.bodyFrom
    rw [bind_ok hplain]
    cases hrest <;> rfl
  change Query.parser (.ofDepth depth) (Command.inQuery? (.ofDepth depth)) _ = _
  unfold Query.parser
  rw [bind_ok hwith]
  simp only [Bool.false_eq_true, if_false]
  rw [Parser.pure_bind, bind_ok hcommand]
  simp only
  rw [bind_ok hbody]
  cases hrest <;> rfl

/-- A text is read as its tokens are. -/
theorem parseAll_of_tokens
    {text : String} {tokens : List Placed} {statements : List Statement}
    (htokens : significantTokens text = .ok tokens) :
    Statement.parseAll text = .ok statements ↔
      Statement.ofTokens (tokens.map Placed.token) = .ok statements := by
  rw [Statement.parseAll, htokens]
  simp only
  cases Statement.ofTokens (tokens.map Placed.token) with
  | ok found => exact Iff.rfl
  | error issue => exact ⟨nofun, nofun⟩

section

variable {tokens : List Token} {select : Location} {lexemes rest : List Lexeme} {query : Query}

/-- What is behind the first query has to be the next statement, or nothing. -/
theorem ofTokens_of_first
    (hlexemes : Lexeme.row 1 tokens = .word (.bare "SELECT") select :: lexemes)
    (hquery : (Grammar.ofDepth (Statement.maxDepth - 1)).query
      (.word (.bare "SELECT") select :: lexemes) = .ok (query, rest)) :
    Statement.ofTokens tokens =
      (Statement.allFrom (.ofDepth Statement.maxDepth) tokens.length rest).map fun more =>
        Statement.query query :: more.1 := by
  have hstatement : (Grammar.ofDepth Statement.maxDepth).statement
      (.word (.bare "SELECT") select :: lexemes) = .ok (.query query, rest) := by
    change Statement.parser (.ofDepth (Statement.maxDepth - 1)) _ = _
    unfold Statement.parser
    have hpeek : peekKeyword 0 (.word (.bare "SELECT") select :: lexemes) =
      .ok ("SELECT", .word (.bare "SELECT") select :: lexemes) := rfl
    rw [remaining_bind, bind_ok hpeek]
    simp only
    exact bind_ok hquery
  have hmarks : many (do return if ← symbol? ";" then some () else none)
      (.word (.bare "SELECT") select :: lexemes) =
    .ok ([], .word (.bare "SELECT") select :: lexemes) := rfl
  unfold Statement.ofTokens
  simp only [hlexemes]
  rw [bind_ok hmarks, remaining_bind]
  simp only [Lexeme.word, Lexeme.ofPlaced] at hstatement ⊢
  rw [bind_ok hstatement]
  cases hmore : Statement.allFrom (.ofDepth Statement.maxDepth) tokens.length rest with
  | ok more =>
      rw [bind_ok hmore]
      rfl
  | error issue =>
      rw [bind_error hmore]
      rfl

/-- The tokens of one query are one statement. -/
theorem ofTokens_of_query
    (hlexemes : Lexeme.row 1 tokens = .word (.bare "SELECT") select :: lexemes)
    (hquery : (Grammar.ofDepth (Statement.maxDepth - 1)).query
      (.word (.bare "SELECT") select :: lexemes) = .ok (query, [])) :
    Statement.ofTokens tokens = .ok [.query query] := by
  rw [ofTokens_of_first hlexemes hquery]
  cases tokens with
  | nil => cases hlexemes
  | cons => rfl

/-- Behind a query that a superscript ends no statement starts. -/
theorem ofTokens_of_squared
    {place : Location} (hlexemes : Lexeme.row 1 tokens = .word (.bare "SELECT") select :: lexemes)
    (hquery : (Grammar.ofDepth (Statement.maxDepth - 1)).query
      (.word (.bare "SELECT") select :: lexemes) = .ok (query, .symbol "²" place :: rest)) :
    Statement.ofTokens tokens =
      .error (.expected "end of statement" (some ⟨.symbol "²", place⟩)) := by
  rw [ofTokens_of_first hlexemes hquery]
  cases tokens with
  | nil => cases hlexemes
  | cons => rfl

end

end Relocate.Sql
