import Mathlib.Logic.Function.DependsOn
import SqliteScanner.Pushdown.Resolution

/-!
# `CREATE OR REPLACE TABLE t AS query`

A `CREATE TABLE` with a query is pushed down as several statements: the table is dropped if it is to
be replaced, it is created, and then the rows of the query are inserted into it. The query runs after
the old table is gone. So it must not read that table, and `SupportsPushdown` refuses a query in
which the name of the table occurs.

The names are looked up in the query as it is parsed. The writer puts the queries of views into it
afterwards, and nothing looks at the names in them. `readsBeforeReplacing_iff` says that this is the
only gap: the statement is safe exactly if no view that is put in reads the table.

## Main definitions

* `supportsStatement` — the constructs that a query of a `CREATE TABLE` may have.
* `supportsCreateTable` — whether a `CREATE TABLE` is pushed down.
* `writeCreateTable` — the statements that are executed for it.
-/

namespace SqliteScanner.Pushdown

open Scoping Runs

variable {α : Type}

/-! ### Capabilities -/

/-- What `SQLiteCapabilities` knows. Whether a construct exists in SQLite is a parameter. -/
structure Capabilities (α : Type) where
  readOnly : Bool
  catalogName : Identifier
  /-- `SupportsPushdown` for an expression, a table reference or a query node by itself. -/
  supportsPushdown : (k : Kind) → Syn α k → Bool

/-- The operations that are translated in the same way for all types. -/
def isTypeIndependent : OperationClass → Bool
  | .constant exact => exact
  | .comparison _ => true
  | .conjunction _ => true
  | .between => true
  | .operator type => type ≠ .other
  | .function name => decide (name ∈ ["count", "count_star", "min", "max"])
  | .other => false

/-- Whether a table reference is a subquery. -/
def isSubqueryRef : TableRef α → Bool
  | .subqueryRef _ _ => true
  | .baseTable _ _ _ => false
  | .join _ _ _ _ => false
  | .expressionList _ _ => false
  | .emptyFrom => false

/-- `SupportsStatementExpression` and `SupportsStatementQuery`. -/
def supportsStatement (cap : Capabilities α) : {k : Kind} → Syn α k → Bool
  | _, .columnRef boundIn qualifier column =>
    cap.supportsPushdown _ (.columnRef boundIn qualifier column)
  | _, .star relation => cap.supportsPushdown _ (.star relation)
  | _, .subquery type children query =>
    cap.supportsPushdown _ (.subquery type children query) &&
      decide (type = .exists ∨ type = .notExists) &&
      supportsStatement cap query && supportsStatement cap children
  | _, .operation expressionClass children =>
    cap.supportsPushdown _ (.operation expressionClass children) &&
      isTypeIndependent expressionClass && supportsStatement cap children
  | _, .dropped _ operand => supportsStatement cap operand
  | _, .row values => supportsStatement cap values
  | _, .cons head tail => supportsStatement cap head && supportsStatement cap tail
  | _, .baseTable note ref entry =>
    cap.supportsPushdown _ (.baseTable note ref entry) && ref.columnNameAlias.isEmpty
  | _, .join info left right condition =>
    cap.supportsPushdown _ (.join info left right condition) &&
      !hasColumnAliases (.join info left right condition) &&
      -- the subquery can refer to the tables before it
      !isSubqueryRef right &&
      supportsStatement cap left && supportsStatement cap right && supportsStatement cap condition
  | _, .subqueryRef query tableAlias =>
    cap.supportsPushdown _ (.subqueryRef query tableAlias) &&
      !hasColumnAliases (.subqueryRef query tableAlias) && supportsStatement cap query
  | _, .expressionList values tableAlias =>
    cap.supportsPushdown _ (.expressionList values tableAlias) &&
      !hasColumnAliases (.expressionList values tableAlias) && supportsStatement cap values
  | _, .emptyFrom => cap.supportsPushdown _ (.emptyFrom : TableRef α)
  | _, .select ctes selectList fromTable whereClause groups having qualify distinctOn orders limits =>
    cap.supportsPushdown _ (.select ctes selectList fromTable whereClause groups having qualify
        distinctOn orders limits) &&
      supportsStatement cap ctes && supportsStatement cap selectList &&
      supportsStatement cap fromTable && supportsStatement cap whereClause &&
      supportsStatement cap groups && supportsStatement cap having &&
      supportsStatement cap qualify && supportsStatement cap distinctOn &&
      supportsStatement cap orders && supportsStatement cap limits
  | _, .setOperation type all ctes children orders limits =>
    cap.supportsPushdown _ (.setOperation type all ctes children orders limits) &&
      supportsStatement cap ctes && supportsStatement cap children &&
      supportsStatement cap orders && supportsStatement cap limits
  | _, .recursiveCTE _ _ _ _ => false
  | _, .consCTE _ _ query rest => supportsStatement cap query && supportsStatement cap rest
  -- the end of a list or of a `WITH` clause, or a catalog entry, which is not part of the query
  | _, _ => true

/-! ### The statement -/

inductive OnCreateConflict where
  | errorOnConflict
  | ignoreOnConflict
  | replaceOnConflict
  | alterOnConflict
deriving DecidableEq

/-- A name with the catalog and the schema before it, which are empty if they are not given. -/
structure QualifiedName where
  catalog : Identifier
  schema : Identifier
  name : Identifier
deriving DecidableEq

/-- `CREATE TABLE name AS query`. -/
structure CreateTableInfo (α : Type) where
  qualifiedName : QualifiedName
  temporary : Bool
  onConflict : OnCreateConflict
  partitionKeys : List Identifier
  sortKeys : List Identifier
  options : List Identifier
  query : Option (QueryNode α)

/-- `SQLiteIsMainSchema`. -/
def isMainSchema (name : QualifiedName) (catalogName : Identifier) : Bool :=
  decide (name.schema = "" ∨ name.schema = "main") ||
    decide (name.catalog = "" ∧ name.schema = catalogName)

/-- `SQLiteCapabilities::SupportsPushdown` for a `CREATE TABLE`. -/
def supportsCreateTable (cap : Capabilities α) (info : CreateTableInfo α) : Bool :=
  !cap.readOnly && !info.temporary && isMainSchema info.qualifiedName cap.catalogName &&
    match info.query with
    | none => false
    | some query =>
      decide (info.onConflict = .errorOnConflict ∨ info.onConflict = .replaceOnConflict) &&
        info.partitionKeys.isEmpty && info.sortKeys.isEmpty && info.options.isEmpty &&
        -- the existing table is dropped before the query is executed
        !(decide (info.onConflict = .replaceOnConflict) &&
          decide (info.qualifiedName.name ∈ tableNames true query)) &&
        supportsStatement cap query

/-- The statements that are executed before the rows are inserted. -/
inductive PreliminaryQuery where
  | dropTableIfExists (name : Identifier)
  | createTable (name : Identifier)
deriving DecidableEq

/-- What the writer returns for a `CREATE TABLE`: the preliminary queries, and
`INSERT INTO insertInto SELECT .. FROM sql`. -/
structure WriterResult (α : Type) where
  preliminaryQueries : List PreliminaryQuery
  insertInto : Identifier
  sql : Sql α

/-- What the writer of a `CREATE TABLE` calls. -/
structure StatementContext (α : Type) where
  capabilities : Capabilities α
  inferQueryTypes : List (CTEMap α) → QueryNode α → List Identifier
  providesColumn : List (CTEMap α) → TableRef α → Identifier → Except String Bool
  supportsQuery : QueryNode α → Bool
  defaultCollation : String
  /-- `TryPrepareStrict`. -/
  tryPrepareStrict : Sql α → Bool

/-- The query is written in the mode `create_table_as`. -/
def StatementContext.context (ctx : StatementContext α) : Context α where
  inferQueryTypes := ctx.inferQueryTypes
  providesColumn := ctx.providesColumn
  supportsQuery := ctx.supportsQuery
  supportsStatementQuery := supportsStatement ctx.capabilities
  statementMode := false
  createTableAs := true

/-- `SQLiteSQLWriter::WriteCreateTable`. The rows are read as
`(WITH insert_values(..) AS (query) SELECT * FROM insert_values)`. -/
def writeCreateTable (ctx : StatementContext α) (info : CreateTableInfo α) :
    Except String (WriterResult α) :=
  match info.query with
  | none => .error "CREATE TABLE without a query should have been blocked by SupportsPushdown"
  | some query => do
    if ctx.defaultCollation ≠ "" then
      throw "default_collation is set"
    let sql ← writeQuery ctx.context query
    if !ctx.tryPrepareStrict sql then
      throw "SQLite cannot prepare the query"
    return {
      preliminaryQueries :=
        (if info.onConflict = .replaceOnConflict then [.dropTableIfExists info.qualifiedName.name]
          else []) ++ [.createTable info.qualifiedName.name]
      insertInto := info.qualifiedName.name
      sql := .rebind "insert_values" sql }

/-! ### What the statement reads -/

/-- The tables that the written SQL reads: the names in it that SQLite does not take for CTEs. -/
def tablesRead (sql : Sql α) : List Identifier :=
  taken (fun _ => true) (sql.map WrittenRef.note) []

/-- The contents of the tables of a database. -/
abbrev Database (D : Type) := Identifier → Option D

/-- The effect of a preliminary query. -/
def PreliminaryQuery.run {D : Type} (empty : D) : PreliminaryQuery → Database D → Database D
  | .dropTableIfExists name, db => Function.update db name none
  | .createTable name, db => Function.update db name (some empty)

/-- The database in which the rows of the query are read. -/
def WriterResult.database {D : Type} (empty : D) (result : WriterResult α) (db : Database D) :
    Database D :=
  result.preliminaryQueries.foldl (fun db query => query.run empty db) db

/-- The query that is written does not read the table that is replaced, and so it returns what it
would return before the statement. What a query returns is any function of the tables it reads. -/
def ReadsBeforeReplacing (result : WriterResult α) : Prop :=
  result.insertInto ∉ tablesRead result.sql ∧
    ∀ (D R : Type) (empty : D) (eval : Sql α → Database D → R),
      (∀ sql, DependsOn (eval sql) {x | x ∈ tablesRead sql}) →
        ∀ db, eval result.sql (result.database empty db) = eval result.sql db

theorem supportsCreateTable_replace {cap : Capabilities α} {info : CreateTableInfo α}
    {query : QueryNode α} (hsupports : supportsCreateTable cap info = true)
    (hreplace : info.onConflict = .replaceOnConflict) (hquery : info.query = some query) :
    info.qualifiedName.name ∉ tableNames true query := by
  simp only [supportsCreateTable, hquery, hreplace, Bool.and_eq_true, Bool.not_eq_true',
    decide_true, Bool.true_and, decide_eq_false_iff_not] at hsupports
  exact hsupports.2.1.2

/-- What `WriteCreateTable` returns. -/
theorem writeCreateTable_ok {ctx : StatementContext α} {info : CreateTableInfo α}
    {query : QueryNode α} {result : WriterResult α} (hquery : info.query = some query)
    (h : writeCreateTable ctx info = .ok result) :
    ∃ sql, Writes [] (outline query) sql ∧ result.sql = .rebind "insert_values" sql ∧
      result.insertInto = info.qualifiedName.name ∧
      ∀ query ∈ result.preliminaryQueries, query = .dropTableIfExists info.qualifiedName.name ∨
        query = .createTable info.qualifiedName.name := by
  simp only [writeCreateTable, hquery] at h
  split at h
  · cases h
  obtain ⟨sql, hsql, h⟩ := bind_eq_ok.mp h
  split at h
  · cases h
  cases h
  refine ⟨sql, writeQuery_writes hsql, rfl, rfl, ?_⟩
  split <;> simp

/-- The preliminary queries only change the table that is replaced. -/
theorem WriterResult.database_of_ne {D : Type} {empty : D} {result : WriterResult α}
    {t x : Identifier} (hx : x ≠ t)
    (h : ∀ query ∈ result.preliminaryQueries,
      query = .dropTableIfExists t ∨ query = .createTable t) (db : Database D) :
    result.database empty db x = db x := by
  obtain ⟨queries, insertInto, sql⟩ := result
  simp only [WriterResult.database] at h ⊢
  induction queries generalizing db with
  | nil => rfl
  | cons query queries ih =>
    obtain ⟨hquery, hqueries⟩ := List.forall_mem_cons.mp h
    rw [List.foldl_cons, ih _ hqueries]
    rcases hquery with rfl | rfl
    · exact Function.update_of_ne hx _ _
    · exact Function.update_of_ne hx _ _

/-- **A table is only replaced by what was read before**, exactly if no view that is put into the query
reads it. -/
theorem readsBeforeReplacing_iff {ctx : StatementContext α} {info : CreateTableInfo α}
    {query : QueryNode α} {result : WriterResult α} (hquery : info.query = some query)
    (hreplace : info.onConflict = .replaceOnConflict)
    (hsupports : supportsCreateTable ctx.capabilities info = true)
    (h : writeCreateTable ctx info = .ok result) :
    ReadsBeforeReplacing result ↔
      CallsAvoid (fun _ => true) info.qualifiedName.name (outline query)
        [.rebind "insert_values"] := by
  obtain ⟨sql, hwrites, hsql, hname, hqueries⟩ := writeCreateTable_ok hquery h
  have hread : info.qualifiedName.name ∉ tablesRead result.sql ↔
      CallsAvoid (fun _ => true) info.qualifiedName.name (outline query)
        [.rebind "insert_values"] := by
    have hne : ∀ r ∈ refs (outline query), r.name ≠ info.qualifiedName.name := fun r hr hname =>
      supportsCreateTable_replace hsupports hreplace hquery
        (hname ▸ mem_tableNames_of_mem_refs query r hr)
    rw [← not_mem_taken_expand_iff hne, tablesRead, hsql, Text.map, hwrites.expanded]
    rfl
  rw [ReadsBeforeReplacing, hname, ← hread]
  refine ⟨And.left, fun hnot => ⟨hnot, ?_⟩⟩
  intro D R empty eval heval db
  refine heval result.sql fun x hx => ?_
  have hne : x ≠ info.qualifiedName.name := by
    rintro rfl
    exact hnot hx
  exact WriterResult.database_of_ne hne hqueries db

namespace Sample

def capabilities {α : Type} : Capabilities α where
  readOnly := false
  catalogName := "db"
  supportsPushdown _ _ := true

def statementContext : StatementContext Unit where
  capabilities
  inferQueryTypes _ _ := ["a"]
  providesColumn _ _ column := .ok (column = "a")
  supportsQuery _ := true
  defaultCollation := ""
  tryPrepareStrict _ := true

/-- `CREATE OR REPLACE TABLE name AS query`. -/
def createOrReplace (name : Identifier) (query : QueryNode Unit) : CreateTableInfo Unit where
  qualifiedName := ⟨"", "", name⟩
  temporary := false
  onConflict := .replaceOnConflict
  partitionKeys := []
  sortKeys := []
  options := []
  query := some query

end Sample

/-- `CREATE OR REPLACE TABLE t AS SELECT a FROM v`, where `v` is `SELECT a FROM u`. -/
theorem readsBeforeReplacing_of_view_of_other_table :
    let v := .view [] (Sample.selectA .noCTEs (Sample.from_ "u" Sample.intTable))
    let info := Sample.createOrReplace "t" (Sample.selectA .noCTEs (Sample.from_ "v" v))
    ∃ result, writeCreateTable Sample.statementContext info = .ok result ∧
      ReadsBeforeReplacing result := by
  intro v info
  obtain ⟨result, h⟩ := exists_eq_ok_of_isOk (x := writeCreateTable Sample.statementContext info) rfl
  exact ⟨result, h, (readsBeforeReplacing_iff rfl rfl rfl h).mpr (by decide)⟩

/-- `CREATE OR REPLACE TABLE t AS SELECT a FROM v`, where `v` is `SELECT a FROM t`: the statement is
pushed down, and the view reads the new and empty table. -/
theorem not_readsBeforeReplacing_of_view_of_same_table :
    let v := .view [] (Sample.selectA .noCTEs (Sample.from_ "t" Sample.intTable))
    let info := Sample.createOrReplace "t" (Sample.selectA .noCTEs (Sample.from_ "v" v))
    supportsCreateTable Sample.capabilities info = true ∧
      ∃ result, writeCreateTable Sample.statementContext info = .ok result ∧
        ¬ReadsBeforeReplacing result := by
  intro v info
  obtain ⟨result, h⟩ := exists_eq_ok_of_isOk (x := writeCreateTable Sample.statementContext info) rfl
  refine ⟨rfl, result, h, fun hreads => hreads.1 ?_⟩
  obtain ⟨sql, hwrites, hsql, hname, -⟩ := writeCreateTable_ok rfl h
  rw [hname, hsql, tablesRead, Text.map, hwrites.expanded]
  decide

end SqliteScanner.Pushdown
