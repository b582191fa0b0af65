import Relocate.Proofs.Sql.Sites
import Relocate.Sql.Format

/-!
# Quote styles do not matter

Two statements are alike when they differ at most in the quotes around the names
that quoting decides about: tables, columns, qualified columns, and the aliases of
named tables and of queries in place of tables.  Everything else of them is the
same, down to the quotes around the names of `WITH` queries, of items and of what
stands before `.*`.

The relation is given by the syntax, without a walk that changes names.  Quoting
overwrites what two alike statements may differ in (`Statement.Alike.quoted_eq`)
and nothing else (`Statement.alike_quoted`), so that it does the same to both.
-/

namespace Relocate.Sql

/-! ## Alike statements -/

/-- The identifiers have the same characters. -/
def Ident.Alike (a b : Ident) : Prop :=
  a.value = b.value

/-- The names have the same characters, part for part. -/
def Name.Alike (a b : Name) : Prop :=
  a.map Ident.value = b.map Ident.value

/-- The aliases have the same characters and name the same columns. -/
structure Alias.Alike (a b : Alias) : Prop where
  name : a.name.Alike b.name
  columns : a.columns = b.columns

mutual

/-- The expressions differ at most in quotes that quoting decides about. -/
inductive Expr.Alike : Expr → Expr → Prop
  | column {a b : Ident} : a.Alike b → Expr.Alike (.column a) (.column b)
  | path {a b : Name} : Name.Alike a b → Expr.Alike (.path a) (.path b)
  | allOf (qualifier : Name) : Expr.Alike (.allOf qualifier) (.allOf qualifier)
  | query {a b : Query} : Query.Alike a b → Expr.Alike (.query a) (.query b)
  | form (form : Form) {as bs : List Expr} :
      ExprsAlike as bs → Expr.Alike (.form form as) (.form form bs)

inductive ExprsAlike : List Expr → List Expr → Prop
  | nil : ExprsAlike [] []
  | cons {a b : Expr} {as bs : List Expr} :
      Expr.Alike a b → ExprsAlike as bs → ExprsAlike (a :: as) (b :: bs)

inductive Query.Alike : Query → Query → Prop
  | mk (recursive : Bool) {named named' : List Named} {body body' : Body}
      {clauses clauses' : List Expr} :
      NamedAlike named named' → Body.Alike body body' → ExprsAlike clauses clauses' →
      Query.Alike (.mk recursive named body clauses) (.mk recursive named' body' clauses')

/-- The `WITH` queries are alike; their names are the same, with their quotes. -/
inductive NamedAlike : List Named → List Named → Prop
  | nil : NamedAlike [] []
  | cons (name : Alias) (source : Option Ident) {a b : Query} {as bs : List Named} :
      Query.Alike a b → NamedAlike as bs →
      NamedAlike (.mk name a source :: as) (.mk name b source :: bs)

inductive Body.Alike : Body → Body → Prop
  | select {a b : Select} : Select.Alike a b → Body.Alike (.select a) (.select b)
  | query {a b : Query} : Query.Alike a b → Body.Alike (.query a) (.query b)
  | combined (operator : String) {a b c d : Body} :
      Body.Alike a b → Body.Alike c d →
      Body.Alike (.combined operator a c) (.combined operator b d)
  | values {as bs : List Expr} : ExprsAlike as bs → Body.Alike (.values as) (.values bs)
  | table (words : List String) : Body.Alike (.table words) (.table words)
  | command {a b : Statement} : Statement.Alike a b → Body.Alike (.command a) (.command b)

inductive Select.Alike : Select → Select → Prop
  | mk (target : Option Target) {start start' clauses clauses' : List Expr}
      {items items' : List Item} {tables tables' : List Joined} :
      ExprsAlike start start' → ItemsAlike items items' → TablesAlike tables tables' →
      ExprsAlike clauses clauses' →
      Select.Alike (.mk start items target tables clauses)
        (.mk start' items' target tables' clauses')

inductive ItemsAlike : List Item → List Item → Prop
  | nil : ItemsAlike [] []
  | cons {a b : Item} {as bs : List Item} :
      Item.Alike a b → ItemsAlike as bs → ItemsAlike (a :: as) (b :: bs)

/-- The items are alike; their names and what stands before `.*` are the same, with
their quotes. -/
inductive Item.Alike : Item → Item → Prop
  | expr (name : Option Ident) {a b : Expr} :
      Expr.Alike a b → Item.Alike (.expr a name) (.expr b name)
  | allOf (qualifier : Name) {as bs : List Expr} :
      ExprsAlike as bs → Item.Alike (.allOf qualifier as) (.allOf qualifier bs)
  | all {as bs : List Expr} : ExprsAlike as bs → Item.Alike (.all as) (.all bs)

inductive TablesAlike : List Joined → List Joined → Prop
  | nil : TablesAlike [] []
  | cons {a b : Joined} {as bs : List Joined} :
      Joined.Alike a b → TablesAlike as bs → TablesAlike (a :: as) (b :: bs)

inductive Joined.Alike : Joined → Joined → Prop
  | mk {a b : Factor} {as bs : List Join} :
      Factor.Alike a b → JoinsAlike as bs → Joined.Alike (.mk a as) (.mk b bs)

inductive JoinsAlike : List Join → List Join → Prop
  | nil : JoinsAlike [] []
  | cons (words : String) {a b : Factor} {condition condition' : List Expr}
      {as bs : List Join} :
      Factor.Alike a b → ExprsAlike condition condition' → JoinsAlike as bs →
      JoinsAlike (.mk words a condition :: as) (.mk words b condition' :: bs)

/-- The tables are alike.  Only a named table and a query in place of a table may
have aliases that differ in their quotes. -/
inductive Factor.Alike : Factor → Factor → Prop
  | table {a b : Name} {label label' : Option Alias}
      {details details' hints hints' : List Expr} :
      Name.Alike a b → Option.Rel Alias.Alike label label' →
      ExprsAlike details details' → ExprsAlike hints hints' →
      Factor.Alike (.table a details label hints) (.table b details' label' hints')
  | derived (lateral : Bool) {a b : Query} {label label' : Option Alias} :
      Query.Alike a b → Option.Rel Alias.Alike label label' →
      Factor.Alike (.derived lateral a label) (.derived lateral b label')
  | nested (label : Option Alias) {a b : Joined} :
      Joined.Alike a b → Factor.Alike (.nested a label) (.nested b label)
  | transformed (label : Option Alias) {a b : Factor} {c d : Expr} :
      Factor.Alike a b → Expr.Alike c d →
      Factor.Alike (.transformed a c label) (.transformed b d label)
  | computed (label : Option Alias) (suffix : String) {a b : Expr} :
      Expr.Alike a b → Factor.Alike (.computed a label suffix) (.computed b label suffix)

/-- The statements differ at most in quotes that quoting decides about. -/
inductive Statement.Alike : Statement → Statement → Prop
  | query {a b : Query} : Query.Alike a b → Statement.Alike (.query a) (.query b)
  | command {as bs : List Part} :
      PartsAlike as bs → Statement.Alike (.command as) (.command bs)

inductive PartsAlike : List Part → List Part → Prop
  | nil : PartsAlike [] []
  | cons {a b : Part} {as bs : List Part} :
      Part.Alike a b → PartsAlike as bs → PartsAlike (a :: as) (b :: bs)

inductive Part.Alike : Part → Part → Prop
  | words (text : String) : Part.Alike (.words text) (.words text)
  | target {a b : Name} : Name.Alike a b → Part.Alike (.target a) (.target b)
  | expr {a b : Expr} : Expr.Alike a b → Part.Alike (.expr a) (.expr b)
  | query {a b : Query} : Query.Alike a b → Part.Alike (.query a) (.query b)
  | tables {a b : Joined} : Joined.Alike a b → Part.Alike (.tables a) (.tables b)
  | item {a b : Item} : Item.Alike a b → Part.Alike (.item a) (.item b)
  | statement {a b : Statement} :
      Statement.Alike a b → Part.Alike (.statement a) (.statement b)

end

/-! ## Names -/

/-- The quotes that an identifier gets are read off its characters. -/
theorem Ident.Alike.quoted_eq {a b : Ident} (h : a.Alike b) : a.quoted = b.quoted := by
  rw [Ident.quoted, Ident.quoted, show a.value = b.value from h]

theorem Name.map_quoted (name : Name) :
    name.map Ident.quoted =
      (name.map Ident.value).map fun value =>
        ⟨value, if needsQuoting value then some '"' else none⟩ := by
  rw [List.map_map]
  rfl

theorem Name.Alike.quoted_eq {a b : Name} (h : Name.Alike a b) :
    a.map Ident.quoted = b.map Ident.quoted := by
  rw [Name.map_quoted, Name.map_quoted, show a.map Ident.value = b.map Ident.value from h]

theorem Name.alike_quoted (name : Name) : Name.Alike name (name.map Ident.quoted) := by
  rw [Name.Alike, List.map_map]
  rfl

theorem Alias.quoted_eq_of_rel {a b : Option Alias} (h : Option.Rel Alias.Alike a b) :
    a.map (Alias.rename Ident.quoted) = b.map (Alias.rename Ident.quoted) := by
  cases h with
  | none => rfl
  | some h =>
      obtain ⟨hname, hcolumns⟩ := h
      simp only [Option.map_some, Alias.rename, hname.quoted_eq, hcolumns]

theorem Alias.rel_quoted (label : Option Alias) :
    Option.Rel Alias.Alike label (label.map (Alias.rename Ident.quoted)) := by
  cases label with
  | none => exact .none
  | some label => exact .some ⟨rfl, rfl⟩

/-- Quoting leaves alone what stands before `.*`. -/
theorem map_mapQualifier_quoting (scopes : List Scope) (items : List Item) :
    items.map (Item.mapQualifier (Renaming.quoting.allOf scopes)) = items := by
  refine (List.map_congr_left fun item _ => ?_).trans (List.map_id items)
  cases item <;> rfl

/-!
## Quoting makes alike statements equal

The scopes of alike queries hold names that differ in their quotes, so the two walks go
through different scopes.  Quoting reads none of them.
-/

mutual

theorem Expr.Alike.quoted_eq {scopes inner : List Scope} :
    ∀ {a b : Expr}, a.Alike b →
      a.rename .quoting scopes = b.rename .quoting inner
  | _, _, .column h => by
      rw [Expr.rename, Expr.rename]
      exact congrArg Expr.column (Ident.Alike.quoted_eq h)
  | _, _, .path h => by
      rw [Expr.rename, Expr.rename]
      exact congrArg Expr.path (Name.Alike.quoted_eq h)
  | _, _, .allOf qualifier => by rw [Expr.rename, Expr.rename]; rfl
  | _, _, .query h => by rw [Expr.rename, Expr.rename, Query.Alike.quoted_eq h]
  | _, _, .form form h => by rw [Expr.rename, Expr.rename, ExprsAlike.quoted_eq h]

theorem ExprsAlike.quoted_eq {scopes inner : List Scope} :
    ∀ {as bs : List Expr}, ExprsAlike as bs →
      renameExprs .quoting scopes as = renameExprs .quoting inner bs
  | _, _, .nil => by rw [renameExprs, renameExprs]
  | _, _, .cons h hs => by
      rw [renameExprs, renameExprs, Expr.Alike.quoted_eq h, ExprsAlike.quoted_eq hs]

theorem Query.Alike.quoted_eq {scopes inner : List Scope} :
    ∀ {a b : Query}, a.Alike b →
      a.rename .quoting scopes = b.rename .quoting inner
  | _, _, .mk recursive hnamed hbody hclauses => by
      simp only [Query.rename]
      rw [NamedAlike.quoted_eq hnamed, Body.Alike.quoted_eq hbody,
        ExprsAlike.quoted_eq hclauses]

theorem NamedAlike.quoted_eq {scopes inner : List Scope} :
    ∀ {as bs : List Named}, NamedAlike as bs →
      renameNamed .quoting scopes as = renameNamed .quoting inner bs
  | _, _, .nil => by rw [renameNamed, renameNamed]
  | _, _, .cons name source h hs => by
      rw [renameNamed, renameNamed, Query.Alike.quoted_eq h, NamedAlike.quoted_eq hs]

theorem Body.Alike.quoted_eq {scopes inner : List Scope} :
    ∀ {a b : Body}, a.Alike b →
      a.rename .quoting scopes = b.rename .quoting inner
  | _, _, .select h => by rw [Body.rename, Body.rename, Select.Alike.quoted_eq h]
  | _, _, .query h => by rw [Body.rename, Body.rename, Query.Alike.quoted_eq h]
  | _, _, .combined operator h h' => by
      rw [Body.rename, Body.rename, Body.Alike.quoted_eq h, Body.Alike.quoted_eq h']
  | _, _, .values h => by rw [Body.rename, Body.rename, ExprsAlike.quoted_eq h]
  | _, _, .table words => by rw [Body.rename, Body.rename]
  | _, _, .command h => by rw [Body.rename, Body.rename, Statement.Alike.quoted_eq h]

theorem Select.Alike.quoted_eq {scopes inner : List Scope} :
    ∀ {a b : Select}, a.Alike b →
      a.rename .quoting scopes = b.rename .quoting inner
  | _, _, .mk target hstart hitems htables hclauses => by
      simp only [Select.rename, map_mapQualifier_quoting]
      rw [ExprsAlike.quoted_eq hstart, ItemsAlike.quoted_eq hitems,
        TablesAlike.quoted_eq htables, ExprsAlike.quoted_eq hclauses]

theorem ItemsAlike.quoted_eq {scopes inner : List Scope} :
    ∀ {as bs : List Item}, ItemsAlike as bs →
      renameItems .quoting scopes as = renameItems .quoting inner bs
  | _, _, .nil => by rw [renameItems, renameItems]
  | _, _, .cons h hs => by
      rw [renameItems, renameItems, Item.Alike.quoted_eq h, ItemsAlike.quoted_eq hs]

theorem Item.Alike.quoted_eq {scopes inner : List Scope} :
    ∀ {a b : Item}, a.Alike b →
      a.rename .quoting scopes = b.rename .quoting inner
  | _, _, .expr name h => by rw [Item.rename, Item.rename, Expr.Alike.quoted_eq h]
  | _, _, .allOf qualifier h => by rw [Item.rename, Item.rename, ExprsAlike.quoted_eq h]
  | _, _, .all h => by rw [Item.rename, Item.rename, ExprsAlike.quoted_eq h]

theorem TablesAlike.quoted_eq {scopes inner : List Scope} :
    ∀ {as bs : List Joined}, TablesAlike as bs →
      renameTables .quoting scopes as = renameTables .quoting inner bs
  | _, _, .nil => by rw [renameTables, renameTables]
  | _, _, .cons h hs => by
      rw [renameTables, renameTables, Joined.Alike.quoted_eq h, TablesAlike.quoted_eq hs]

theorem Joined.Alike.quoted_eq {scopes inner : List Scope} :
    ∀ {a b : Joined}, a.Alike b →
      a.rename .quoting scopes = b.rename .quoting inner
  | _, _, .mk h hs => by
      rw [Joined.rename, Joined.rename, Factor.Alike.quoted_eq h, JoinsAlike.quoted_eq hs]

theorem JoinsAlike.quoted_eq {scopes inner : List Scope} :
    ∀ {as bs : List Join}, JoinsAlike as bs →
      renameJoins .quoting scopes as = renameJoins .quoting inner bs
  | _, _, .nil => by rw [renameJoins, renameJoins]
  | _, _, .cons words h hcondition hs => by
      rw [renameJoins, renameJoins, Factor.Alike.quoted_eq h,
        ExprsAlike.quoted_eq hcondition, JoinsAlike.quoted_eq hs]

theorem Factor.Alike.quoted_eq {scopes inner : List Scope} :
    ∀ {a b : Factor}, a.Alike b →
      a.rename .quoting scopes = b.rename .quoting inner
  | .table a _ _ _, .table b _ _ _, .table hname hlabel hdetails hhints => by
      have hname : Renaming.quoting.relation scopes a = Renaming.quoting.relation inner b :=
        Name.Alike.quoted_eq hname
      rw [Factor.rename, Factor.rename, hname, ExprsAlike.quoted_eq hdetails,
        ExprsAlike.quoted_eq hhints, Renaming.quoting, Alias.quoted_eq_of_rel hlabel]
  | _, _, .derived lateral h hlabel => by
      rw [Factor.rename, Factor.rename, Query.Alike.quoted_eq h]
      exact congrArg _ (Alias.quoted_eq_of_rel hlabel)
  | _, _, .nested label h => by rw [Factor.rename, Factor.rename, Joined.Alike.quoted_eq h]
  | _, _, .transformed label h hoperation => by
      rw [Factor.rename, Factor.rename, Factor.Alike.quoted_eq h,
        Expr.Alike.quoted_eq hoperation]
  | _, _, .computed label suffix h => by
      rw [Factor.rename, Factor.rename, Expr.Alike.quoted_eq h]

theorem Statement.Alike.quoted_eq {scopes inner : List Scope} :
    ∀ {a b : Statement}, a.Alike b →
      a.rename .quoting scopes = b.rename .quoting inner
  | _, _, .query h => by rw [Statement.rename, Statement.rename, Query.Alike.quoted_eq h]
  | _, _, .command hs => by rw [Statement.rename, Statement.rename, PartsAlike.quoted_eq hs]

theorem PartsAlike.quoted_eq {scopes inner : List Scope} :
    ∀ {as bs : List Part}, PartsAlike as bs →
      renameParts .quoting scopes as = renameParts .quoting inner bs
  | _, _, .nil => by rw [renameParts, renameParts]
  | _, _, .cons h hs => by
      rw [renameParts, renameParts, Part.Alike.quoted_eq h, PartsAlike.quoted_eq hs]

theorem Part.Alike.quoted_eq {scopes inner : List Scope} :
    ∀ {a b : Part}, a.Alike b →
      a.rename .quoting scopes = b.rename .quoting inner
  | _, _, .words text => by rw [Part.rename, Part.rename]
  | _, _, .target h => by
      rw [Part.rename, Part.rename]
      exact congrArg Part.target (Name.Alike.quoted_eq h)
  | _, _, .expr h => by rw [Part.rename, Part.rename, Expr.Alike.quoted_eq h]
  | _, _, .query h => by rw [Part.rename, Part.rename, Query.Alike.quoted_eq h]
  | _, _, .tables h => by rw [Part.rename, Part.rename, Joined.Alike.quoted_eq h]
  | _, _, .item h => by rw [Part.rename, Part.rename, Item.Alike.quoted_eq h]
  | _, _, .statement h => by rw [Part.rename, Part.rename, Statement.Alike.quoted_eq h]

end

/-! ## Quoting changes quotes only -/

mutual

theorem Expr.alike_quoted (scopes : List Scope) :
    ∀ expr : Expr, expr.Alike (expr.rename .quoting scopes)
  | .column name => by rw [Expr.rename]; exact .column rfl
  | .path parts => by rw [Expr.rename]; exact .path (Name.alike_quoted parts)
  | .allOf qualifier => by rw [Expr.rename]; exact .allOf qualifier
  | .query body => by rw [Expr.rename]; exact .query (Query.alike_quoted scopes body)
  | .form form operands => by
      rw [Expr.rename]
      exact .form form (exprsAlike_quoted scopes operands)

theorem exprsAlike_quoted (scopes : List Scope) :
    ∀ exprs : List Expr, ExprsAlike exprs (renameExprs .quoting scopes exprs)
  | [] => by rw [renameExprs]; exact .nil
  | expr :: rest => by
      rw [renameExprs]
      exact .cons (Expr.alike_quoted scopes expr) (exprsAlike_quoted scopes rest)

theorem Query.alike_quoted (scopes : List Scope) :
    ∀ query : Query, query.Alike (query.rename .quoting scopes)
  | .mk recursive named body clauses => by
      rw [Query.rename]
      exact .mk recursive (namedAlike_quoted _ named) (Body.alike_quoted _ body)
        (exprsAlike_quoted _ clauses)

theorem namedAlike_quoted (scopes : List Scope) :
    ∀ named : List Named, NamedAlike named (renameNamed .quoting scopes named)
  | [] => by rw [renameNamed]; exact .nil
  | .mk name body source :: rest => by
      rw [renameNamed]
      exact .cons name source (Query.alike_quoted scopes body)
        (namedAlike_quoted scopes rest)

theorem Body.alike_quoted (scopes : List Scope) :
    ∀ body : Body, body.Alike (body.rename .quoting scopes)
  | .select select => by rw [Body.rename]; exact .select (Select.alike_quoted scopes select)
  | .query query => by rw [Body.rename]; exact .query (Query.alike_quoted scopes query)
  | .combined operator left right => by
      rw [Body.rename]
      exact .combined operator (Body.alike_quoted scopes left) (Body.alike_quoted scopes right)
  | .values rows => by rw [Body.rename]; exact .values (exprsAlike_quoted scopes rows)
  | .table words => by rw [Body.rename]; exact .table words
  | .command statement => by
      rw [Body.rename]
      exact .command (Statement.alike_quoted scopes statement)

theorem Select.alike_quoted (scopes : List Scope) :
    ∀ select : Select, select.Alike (select.rename .quoting scopes)
  | .mk start items target tables clauses => by
      rw [Select.rename, map_mapQualifier_quoting]
      exact .mk target (exprsAlike_quoted scopes start) (itemsAlike_quoted scopes items)
        (tablesAlike_quoted scopes tables) (exprsAlike_quoted scopes clauses)

theorem itemsAlike_quoted (scopes : List Scope) :
    ∀ items : List Item, ItemsAlike items (renameItems .quoting scopes items)
  | [] => by rw [renameItems]; exact .nil
  | item :: rest => by
      rw [renameItems]
      exact .cons (Item.alike_quoted scopes item) (itemsAlike_quoted scopes rest)

theorem Item.alike_quoted (scopes : List Scope) :
    ∀ item : Item, item.Alike (item.rename .quoting scopes)
  | .expr value name => by rw [Item.rename]; exact .expr name (Expr.alike_quoted scopes value)
  | .allOf qualifier options => by
      rw [Item.rename]
      exact .allOf qualifier (exprsAlike_quoted scopes options)
  | .all options => by rw [Item.rename]; exact .all (exprsAlike_quoted scopes options)

theorem tablesAlike_quoted (scopes : List Scope) :
    ∀ tables : List Joined, TablesAlike tables (renameTables .quoting scopes tables)
  | [] => by rw [renameTables]; exact .nil
  | joined :: rest => by
      rw [renameTables]
      exact .cons (Joined.alike_quoted scopes joined) (tablesAlike_quoted scopes rest)

theorem Joined.alike_quoted (scopes : List Scope) :
    ∀ joined : Joined, joined.Alike (joined.rename .quoting scopes)
  | .mk first joins => by
      rw [Joined.rename]
      exact .mk (Factor.alike_quoted scopes first) (joinsAlike_quoted scopes joins)

theorem joinsAlike_quoted (scopes : List Scope) :
    ∀ joins : List Join, JoinsAlike joins (renameJoins .quoting scopes joins)
  | [] => by rw [renameJoins]; exact .nil
  | .mk words factor condition :: rest => by
      rw [renameJoins]
      exact .cons words (Factor.alike_quoted scopes factor)
        (exprsAlike_quoted scopes condition) (joinsAlike_quoted scopes rest)

theorem Factor.alike_quoted (scopes : List Scope) :
    ∀ factor : Factor, factor.Alike (factor.rename .quoting scopes)
  | .table name details label hints => by
      rw [Factor.rename]
      exact .table (Name.alike_quoted name) (Alias.rel_quoted label)
        (exprsAlike_quoted scopes details) (exprsAlike_quoted scopes hints)
  | .derived lateral query label => by
      rw [Factor.rename]
      exact .derived lateral (Query.alike_quoted scopes query) (Alias.rel_quoted label)
  | .nested inner label => by
      rw [Factor.rename]
      exact .nested label (Joined.alike_quoted scopes inner)
  | .transformed inner operation label => by
      rw [Factor.rename]
      exact .transformed label (Factor.alike_quoted scopes inner)
        (Expr.alike_quoted scopes operation)
  | .computed source label suffix => by
      rw [Factor.rename]
      exact .computed label suffix (Expr.alike_quoted scopes source)

theorem Statement.alike_quoted (scopes : List Scope) :
    ∀ statement : Statement, statement.Alike (statement.rename .quoting scopes)
  | .query query => by rw [Statement.rename]; exact .query (Query.alike_quoted scopes query)
  | .command parts => by rw [Statement.rename]; exact .command (partsAlike_quoted scopes parts)

theorem partsAlike_quoted (scopes : List Scope) :
    ∀ parts : List Part, PartsAlike parts (renameParts .quoting scopes parts)
  | [] => by rw [renameParts]; exact .nil
  | part :: rest => by
      rw [renameParts]
      exact .cons (Part.alike_quoted scopes part) (partsAlike_quoted scopes rest)

theorem Part.alike_quoted (scopes : List Scope) :
    ∀ part : Part, part.Alike (part.rename .quoting scopes)
  | .words text => by rw [Part.rename]; exact .words text
  | .target name => by rw [Part.rename]; exact .target (Name.alike_quoted name)
  | .expr value => by rw [Part.rename]; exact .expr (Expr.alike_quoted scopes value)
  | .query query => by rw [Part.rename]; exact .query (Query.alike_quoted scopes query)
  | .tables joined => by rw [Part.rename]; exact .tables (Joined.alike_quoted scopes joined)
  | .item item => by rw [Part.rename]; exact .item (Item.alike_quoted scopes item)
  | .statement statement => by
      rw [Part.rename]
      exact .statement (Statement.alike_quoted scopes statement)

end

/-! ## What quoting writes at a site -/

/-- The identifier after quoting, at a site of the role. -/
def Ident.quotedAs : Role → Ident → Ident
  | .allOf, ident => ident
  | _, ident => ident.quoted

theorem Ident.quotedAs_value (role : Role) (ident : Ident) :
    (ident.quotedAs role).value = ident.value := by
  cases role <;> rfl

theorem Renaming.spelling_quoting (site : Site) :
    Renaming.quoting.spelling site = (site.role, site.name.map (Ident.quotedAs site.role)) := by
  obtain ⟨role, name, scopes⟩ := site
  cases role with
  | allOf => exact congrArg (Prod.mk _) (List.map_id name).symm
  | _ => rfl

theorem Statement.applyQuoting_respells (statement : Statement) :
    Respells .quoting (statement.sites []) (statement.applyQuoting.sites []) :=
  Statement.respells .quoting rfl statement

/-- Quoting tells about the characters of names, which it does not change. -/
theorem Site.quotingLog_eq_of_spelling {site new : Site}
    (h : new.spelling = Renaming.quoting.spelling site) : new.quotingLog = site.quotingLog := by
  rw [Renaming.spelling_quoting] at h
  have hrole : new.role = site.role := congrArg Prod.fst h
  have hname : new.name = site.name.map (Ident.quotedAs site.role) := congrArg Prod.snd h
  rw [Site.quotingLog, Site.quotingLog, hrole, hname]
  simp only [List.flatMap_map, Ident.quotedAs_value]

theorem flatMap_quotingLog_of_spelling {before after : List Site}
    (h : after.map Site.spelling = before.map Renaming.quoting.spelling) :
    after.flatMap Site.quotingLog = before.flatMap Site.quotingLog := by
  induction before generalizing after with
  | nil => rw [List.map_eq_nil_iff.mp h]
  | cons site before ih =>
      rw [List.map_cons] at h
      obtain ⟨new, rest, rfl, hnew, hrest⟩ := List.map_eq_cons_iff.mp h
      rw [List.flatMap_cons, List.flatMap_cons, Site.quotingLog_eq_of_spelling hnew, ih hrest]

theorem Statement.quotingLog_applyQuoting (statement : Statement) :
    statement.applyQuoting.quotingLog = statement.quotingLog :=
  flatMap_quotingLog_of_spelling statement.applyQuoting_respells.spelling

/-! ## Alike statements are written alike -/

/-- Two statements that differ only in quotes that quoting decides about are the same
after quoting, which changes quotes only and changes nothing when it is done again.  So
they are written as the same text, or not written for the same reason, and quoting tells
the same about both. -/
theorem Statement.Alike.written_alike {a b : Statement} (h : a.Alike b) :
    a.applyQuoting = b.applyQuoting ∧ a.Alike a.applyQuoting ∧
      a.applyQuoting.applyQuoting = a.applyQuoting ∧
      a.format = b.format ∧ a.quotingLog = b.quotingLog := by
  have hsame : a.applyQuoting = b.applyQuoting := h.quoted_eq
  have honly : a.Alike a.applyQuoting := Statement.alike_quoted [] a
  refine ⟨hsame, honly, honly.quoted_eq.symm, ?_, ?_⟩
  · rw [Statement.format, Statement.format, hsame]
  · rw [← Statement.quotingLog_applyQuoting, hsame, Statement.quotingLog_applyQuoting]

/-- A select of one qualified column, with all its names in the given quotes. -/
def columnOfTable (quote : Option Char) : Statement :=
  let column : Expr := .path [⟨"o", quote⟩, ⟨"total", quote⟩]
  let table : Factor := .table [⟨"orders", quote⟩] [] (some ⟨⟨"o", quote⟩, []⟩) []
  .query (.mk false [] (.select (.mk [] [.expr column none] none [.mk table []] [])) [])

theorem columnOfTable_written_alike :
    (columnOfTable (some '"')).Alike (columnOfTable none) ∧
      (columnOfTable (some '"')).format = (columnOfTable none).format := by
  have h : (columnOfTable (some '"')).Alike (columnOfTable none) :=
    .query (.mk false .nil
      (.select (.mk none .nil (.cons (.expr none (.path rfl)) .nil)
        (.cons (.mk (.table rfl (.some ⟨rfl, rfl⟩) .nil .nil) .nil) .nil) .nil)) .nil)
  exact ⟨h, h.written_alike.2.2.2.1⟩

end Relocate.Sql
