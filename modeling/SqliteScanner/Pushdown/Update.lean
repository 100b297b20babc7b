import SqliteScanner.Pushdown.CreateTable

/-!
# `UPDATE`

SQLite updates the rows of a table one after the other. A correlated subquery of the statement is
evaluated anew for each row when it is its turn, so one that reads the updated table finds some rows
updated already. Other subqueries are evaluated once, on the table before the statement. DuckDB
evaluates everything on that table. Therefore `SupportsPushdown` refuses an `UPDATE` if the name of
its table occurs in a `SET` expression or in the condition.

The expressions can also read the table through a CTE of the statement or through a view, and the
names in those are not looked at. `updatesAtOnce_iff` says that nothing else is missed.

Which references are evaluated anew is written in their notes (`mark`), which the writer passes on.

## Main definitions

* `UpdateNode`, `supportsUpdate`, `writeUpdate` — the statement, and how it is pushed down.
* `WrittenUpdate.ReadsAnew` — the tables that the written statement reads for each row.
* `updateRows` — the update of the rows, one after the other.
-/

namespace SqliteScanner.Pushdown

open Scoping Runs

variable {α : Type}

/-! ### The statement -/

/-- `WITH ctes UPDATE table SET columns = expressions FROM fromTable WHERE condition RETURNING ..`. -/
structure UpdateNode (α : Type) where
  ctes : CTEMap α
  table : TableRef α
  columns : List Identifier
  expressions : Expressions α
  fromTable : Option (TableRef α)
  condition : Expressions α
  returningList : Expressions α
  /-- Whether the statement has an `ORDER BY` or `LIMIT`. -/
  hasModifiers : Bool

namespace UpdateNode

/-- The names that `SQLiteCollectTableNames` finds in the whole statement. -/
def tableNames (allTables : Bool) (node : UpdateNode α) : List Identifier :=
  Pushdown.tableNames allTables node.ctes ++ Pushdown.tableNames allTables node.table ++
    Pushdown.tableNames allTables node.expressions ++
    (node.fromTable.map (Pushdown.tableNames allTables)).getD [] ++
    Pushdown.tableNames allTables node.condition ++
    Pushdown.tableNames allTables node.returningList

/-- The names of CTEs that `SQLiteCollectTableNames` finds in the whole statement. -/
def collectedCTENames (node : UpdateNode α) : List Identifier :=
  node.ctes.cteNames ++ Pushdown.collectedCTENames node.ctes false ++
    Pushdown.collectedCTENames node.expressions false ++
    (node.fromTable.map fun ref => Pushdown.collectedCTENames ref false).getD [] ++
    Pushdown.collectedCTENames node.condition false ++
    Pushdown.collectedCTENames node.returningList false

/-- `SQLiteHasCTETableNameConflict`. -/
def hasCTETableNameConflict (node : UpdateNode α) : Bool :=
  node.collectedCTENames.any fun name => decide (name ∈ node.tableNames false)

/-- `SQLiteCollectColumnReferences`. -/
def collectColumnReferences (node : UpdateNode α) : References :=
  (Pushdown.collectColumnReferences node.ctes true).union <|
    ((node.fromTable.map fun ref => Pushdown.collectColumnReferences ref true).getD .none).union <|
      (Pushdown.collectColumnReferences node.expressions true).union <|
        (Pushdown.collectColumnReferences node.condition true).union
          (Pushdown.collectColumnReferences node.returningList true)

end UpdateNode

/-- The name of the table that is updated, which is a base table. -/
def targetName : TableRef α → Option Identifier
  | .baseTable _ ref _ => some ref.table
  | .join _ _ _ _ => none
  | .subqueryRef _ _ => none
  | .expressionList _ _ => none
  | .emptyFrom => none

/-- `SQLiteCapabilities::SupportsPushdown` for an `UPDATE`. -/
def supportsUpdate (cap : Capabilities α) (node : UpdateNode α) : Bool :=
  cap.supportsPushdown _ node.ctes &&
    !(!node.ctes.cteNames.isEmpty && node.hasCTETableNameConflict) && !cap.readOnly &&
    match targetName node.table with
    | none => false
    | some name =>
      -- a subquery that reads the updated table can see the rows that were already updated
      !decide (name ∈ tableNames true node.expressions ++ tableNames true node.condition) &&
        !node.hasModifiers

/-- `SQLiteSQLWriter::GetTargetTable`. -/
def getTargetTable (scopes : List (CTEMap α)) : TableRef α → Except String (Identifier × TableEntry)
  | .baseTable _ ref entry =>
    if isCTEReference scopes ref then .error "unsupported DML target"
    else match entry with
      | .table table => .ok (ref.table, table)
      | .view _ _ => .error "DML target table not found"
      | .notFound => .error "DML target table not found"
  | .join _ _ _ _ => .error "unsupported DML target"
  | .subqueryRef _ _ => .error "unsupported DML target"
  | .expressionList _ _ => .error "unsupported DML target"
  | .emptyFrom => .error "unsupported DML target"

/-- The columns that are assigned exist. -/
def checkSetColumns (table : TableEntry) (columns : List Identifier) : Except String Unit :=
  if columns.all fun name => table.columns.any fun column => column.name = name then .ok ()
  else .error "column not found"

/-- A `RETURNING` cannot refer to the tables of a `FROM` clause. -/
def checkReturning (node : UpdateNode α) : Except String Unit :=
  if !node.returningList.isNil && node.fromTable.isSome then
    .error "RETURNING in an UPDATE with a FROM clause"
  else .ok ()

/-- The written statement. -/
structure WrittenUpdate (α : Type) where
  ctes : Defs Identifier (WrittenRef α)
  target : Identifier
  expressions : Sql α
  fromTable : Option (Sql α)
  condition : Sql α
  returningList : Sql α

/-- The `FROM` clause of an `UPDATE`. -/
def writeFrom (ctx : Context α) (scopes : List (CTEMap α)) :
    Option (TableRef α) → Writer (Option (Sql α))
  | none => return none
  | some ref => do
    let sql ← write ctx ref scopes false
    return some sql

/-- `SQLiteSQLWriter::WriteUpdateNode`, called through `WriteQueryNode`. -/
def writeUpdateNode (ctx : Context α) (node : UpdateNode α) : Writer (WrittenUpdate α) := do
  let scopes := pushScope node.ctes []
  let (target, table) ← getTargetTable scopes node.table
  let ctes ← write ctx node.ctes scopes false
  checkSetColumns table node.columns
  let expressions ← write ctx node.expressions scopes false
  let fromTable ← writeFrom ctx scopes node.fromTable
  let condition ← write ctx node.condition scopes false
  checkReturning node
  let returningList ← write ctx node.returningList scopes false
  return { ctes, target, expressions, fromTable, condition, returningList }

/-- `SQLiteSQLWriter::WriteQuery` for an `UPDATE`. -/
def writeUpdate (ctx : Context α) (node : UpdateNode α) : Except String (WrittenUpdate α) := do
  let (update, _) ← writeUpdateNode ctx node node.collectColumnReferences
  return update

/-! ### What is evaluated anew -/

/-- The tree with the notes of its references. What is evaluated anew for each row is what is in the
correlated subqueries of the statement, with the subqueries of its `FROM` clauses, views and CTEs, but
without the subqueries that are not correlated themselves. -/
def mark : {k : Kind} → Syn α k → (anew : Bool) → Syn Bool k
  | _, .columnRef boundIn qualifier column, _ => .columnRef boundIn qualifier column
  | _, .star relation, _ => .star relation
  | _, .subquery type children query, anew =>
    .subquery type (mark children anew) (mark query (anew && !(outerColumns query).isEmpty))
  | _, .operation expressionClass children, anew => .operation expressionClass (mark children anew)
  | _, .dropped visited operand, anew => .dropped visited (mark operand anew)
  | _, .row values, anew => .row (mark values anew)
  | _, .nil, _ => .nil
  | _, .cons head tail, anew => .cons (mark head anew) (mark tail anew)
  | _, .baseTable _ ref entry, anew => .baseTable anew ref (mark entry anew)
  | _, .join info left right condition, anew =>
    .join info (mark left anew) (mark right anew) (mark condition anew)
  | _, .subqueryRef query tableAlias, anew => .subqueryRef (mark query anew) tableAlias
  | _, .expressionList values tableAlias, anew => .expressionList (mark values anew) tableAlias
  | _, .emptyFrom, _ => .emptyFrom
  | _, .notFound, _ => .notFound
  | _, .table entry, _ => .table entry
  | _, .view aliases query, anew => .view aliases (mark query anew)
  | _, .select ctes selectList fromTable whereClause groups having qualify distinctOn orders limits,
      anew =>
    .select (mark ctes anew) (mark selectList anew) (mark fromTable anew) (mark whereClause anew)
      (mark groups anew) (mark having anew) (mark qualify anew) (mark distinctOn anew)
      (mark orders anew) (mark limits anew)
  | _, .setOperation type all ctes children orders limits, anew =>
    .setOperation type all (mark ctes anew) (mark children anew) (mark orders anew)
      (mark limits anew)
  | _, .recursiveCTE unionAll ctes left right, anew =>
    .recursiveCTE unionAll (mark ctes anew) (mark left anew) (mark right anew)
  | _, .noCTEs, _ => .noCTEs
  | _, .consCTE name aliases query rest, anew =>
    .consCTE name aliases (mark query anew) (mark rest anew)

/-- The statement with the notes of its references. A CTE is evaluated with what refers to it. -/
def UpdateNode.marked (node : UpdateNode α) : UpdateNode Bool where
  ctes := mark node.ctes true
  table := mark node.table true
  columns := node.columns
  expressions := mark node.expressions true
  fromTable := node.fromTable.map (mark · true)
  condition := mark node.condition true
  returningList := mark node.returningList true
  hasModifiers := node.hasModifiers

/-- The tables that the `SET` expressions and the condition of a written statement read anew for each
row, directly, through views or through the CTEs of the statement. -/
def WrittenUpdate.ReadsAnew (update : WrittenUpdate Bool) : Identifier → Prop :=
  let ctes := update.ctes.map WrittenRef.note
  TakesWith Ref.note ctes
    (mentions (update.expressions.map WrittenRef.note) [.binders ctes.names] ++
      mentions (update.condition.map WrittenRef.note) [.binders ctes.names])

/-- SQLite's update of the rows of a table: `done` have had their turn. What the expressions give for
a row, if it is chosen, is evaluated on the database before the statement and, as far as they are
evaluated anew, on the database as it is then. -/
def updateRows {ρ : Type} (eval : (old now : Database (List ρ)) → ρ → Option ρ) (t : Identifier)
    (db : Database (List ρ)) : (done rows : List ρ) → List ρ
  | done, [] => done
  | done, row :: rows =>
    updateRows eval t db
      (done ++ [(eval db (Function.update db t (some (done ++ row :: rows))) row).getD row]) rows

/-- The rows that are chosen and the values that they get are those on the database before the
statement. What the expressions give for a row is any function of the row, of the database before the
statement and of the tables that are read anew. -/
def UpdatesAtOnce (update : WrittenUpdate Bool) : Prop :=
  ∀ (ρ : Type) (eval : (old now : Database (List ρ)) → ρ → Option ρ),
    (∀ old row, DependsOn (fun now => eval old now row) {x | update.ReadsAnew x}) →
      ∀ db rows, db update.target = some rows →
        updateRows eval update.target db [] rows = rows.map fun row => (eval db db row).getD row

/-- If what is evaluated anew does not depend on the table that is updated, then it does not matter
whose turn it is. -/
theorem updateRows_eq_map {ρ : Type} {eval : (old now : Database (List ρ)) → ρ → Option ρ}
    {t : Identifier} {db : Database (List ρ)}
    (h : ∀ rows row, eval db (Function.update db t (some rows)) row = eval db db row)
    (rows : List ρ) :
    ∀ done, updateRows eval t db done rows =
      done ++ rows.map fun row => (eval db db row).getD row := by
  induction rows with
  | nil => simp [updateRows]
  | cons row rows ih =>
    intro done
    rw [updateRows, ih, h]
    simp

/-- A statement that reads its own table anew may count up: each row gets the first number of the
table plus one. -/
theorem updatesAtOnce_iff_not_readsAnew (update : WrittenUpdate Bool) :
    UpdatesAtOnce update ↔ ¬update.ReadsAnew update.target := by
  constructor
  · intro h hreads
    let eval (_ now : Database (List ℕ)) (_ : ℕ) : Option ℕ :=
      (now update.target).map fun rows => rows.headD 0 + 1
    have heval : ∀ old row, DependsOn (fun now => eval old now row) {x | update.ReadsAnew x} := by
      intro old row now now' hnow
      simp only [eval, hnow update.target hreads]
    have hrows := h ℕ eval heval (fun _ => some [0, 0]) [0, 0] rfl
    simp [updateRows, eval] at hrows
  · intro hnot ρ eval heval db rows _
    refine updateRows_eq_map (fun rows row => heval db row fun x hx => ?_) rows []
    refine Function.update_of_ne ?_ _ _
    rintro rfl
    exact hnot hx

namespace UpdateNode

variable (node : UpdateNode α)

/-- The scope of the expressions of the statement. -/
def scope : Scope Identifier :=
  [.binders node.ctes.cteNames]

/-- The CTEs of the statement, with the queries of views in their places. -/
def inlinedCTEs : Defs Identifier α :=
  expandDefs (outline node.ctes) node.ctes.cteNames

/-- The references of the `SET` expressions and of the condition, those of the views in them
included. -/
def references : List (Ref Identifier α × Scope Identifier) :=
  mentions (expand (outline node.expressions) node.ctes.cteNames) node.scope ++
    mentions (expand (outline node.condition) node.ctes.cteNames) node.scope

/-- Where the `SET` expressions and the condition are evaluated anew, no view in them reads a table,
and neither does a CTE of the statement that they refer to, directly or through views or other
CTEs. -/
structure Avoids (node : UpdateNode Bool) (t : Identifier) : Prop where
  expressions : CallsAvoid Ref.note t (outline node.expressions) node.scope
  condition : CallsAvoid Ref.note t (outline node.condition) node.scope
  ctes : ∀ x definition, Needs Ref.note node.inlinedCTEs node.references x →
    (x, definition) ∈ node.inlinedCTEs.entries → t ∉ taken Ref.note definition node.scope

theorem binders_scope : binders node.scope = node.ctes.cteNames := by
  simp [scope, binders]

theorem names_inlinedCTEs : node.inlinedCTEs.names = node.ctes.cteNames := by
  rw [inlinedCTEs, names_expandDefs, names_outline]

end UpdateNode

theorem getTargetTable_ok {scopes : List (CTEMap α)} {ref : TableRef α} {t : Identifier}
    {table : TableEntry} (h : getTargetTable scopes ref = .ok (t, table)) :
    targetName ref = some t := by
  cases ref with
  | baseTable note ref entry =>
    simp only [getTargetTable] at h
    split at h
    · cases h
    · cases entry <;> cases h
      rfl
  | join | subqueryRef | expressionList | emptyFrom => cases h

/-- What the parts of a written statement are. -/
structure WritesUpdate (node : UpdateNode α) (update : WrittenUpdate α) : Prop where
  target : targetName node.table = some update.target
  ctes : WritesDefs node.ctes.cteNames (outline node.ctes) update.ctes
  expressions : Writes node.ctes.cteNames (outline node.expressions) update.expressions
  condition : Writes node.ctes.cteNames (outline node.condition) update.condition

theorem writeUpdate_writes {ctx : Context α} {node : UpdateNode α} {update : WrittenUpdate α}
    (h : writeUpdate ctx node = .ok update) : WritesUpdate node update := by
  obtain ⟨⟨update', refs⟩, hwrite, hpure⟩ := bind_eq_ok.mp h
  cases hpure
  have hnames : scopeNames (pushScope node.ctes []) = node.ctes.cteNames := by
    rw [scopeNames_pushScope]
    simp [scopeNames]
  have hensures : Ensures (writeUpdateNode ctx node) node.collectColumnReferences fun update _ =>
      WritesUpdate node update := by
    refine Ensures.bind (Ensures.lift fun found htarget => ?_)
    refine (write_writes ctx node.ctes _ _ _).seq fun ctes refs hctes => ?_
    refine Ensures.bind (Ensures.lift fun _ _ => ?_)
    refine (write_writes ctx node.expressions _ _ _).seq fun set refs hset => ?_
    refine Ensures.bind fun fromTable refs _ => ?_
    refine (write_writes ctx node.condition _ _ _).seq fun cond refs hcond => ?_
    refine Ensures.bind (Ensures.lift fun _ _ => ?_)
    refine Ensures.bind fun returningList refs _ => ?_
    rw [hnames] at hctes hset hcond
    exact Ensures.pure ⟨getTargetTable_ok (t := found.1) htarget, hctes, hset, hcond⟩
  exact hensures _ _ hwrite

theorem supportsUpdate_target {cap : Capabilities α} {node : UpdateNode α} {t : Identifier}
    (hsupports : supportsUpdate cap node = true) (ht : targetName node.table = some t) :
    t ∉ tableNames true node.expressions ∧ t ∉ tableNames true node.condition := by
  simp only [supportsUpdate, ht, Bool.and_eq_true, Bool.not_eq_true', decide_eq_false_iff_not,
    List.mem_append, not_or] at hsupports
  exact hsupports.2.1

theorem WritesUpdate.readsAnew_iff {node : UpdateNode Bool} {update : WrittenUpdate Bool}
    (h : WritesUpdate node update) (x : Identifier) :
    update.ReadsAnew x ↔ TakesWith Ref.note node.inlinedCTEs node.references x := by
  have hctes : update.ctes.map WrittenRef.note = node.inlinedCTEs := h.ctes.expanded
  rw [WrittenUpdate.ReadsAnew, hctes, h.expressions.expanded, h.condition.expanded,
    node.names_inlinedCTEs]
  rfl

namespace Sample

/-- A table with the columns `a` and `k`, which has an index on `k`. -/
def keyTable : CatalogEntry Unit :=
  .table ⟨[⟨"a", .bigint, false, true, false⟩, ⟨"k", .bigint, false, true, false⟩], ["k"], false,
    false⟩

/-- `(SELECT max(x.a) + 1 FROM u, x WHERE u.k = t.k)`. -/
def lookup (x : Identifier) (entry : CatalogEntry Unit) : Expression Unit :=
  .subquery .scalar .nil
    (.select .noCTEs
      (.cons (.operation (.function "+") (.cons
        (.operation (.function "max") (.cons (.columnRef (some (0, x)) [x] "a") .nil))
        (.cons (.operation (.constant true) .nil) .nil))) .nil)
      (.join ⟨.inner, .cross, [], none⟩ (from_ "u" keyTable) (from_ x entry) .nil)
      (.cons (.operation (.comparison true)
        (.cons (.columnRef (some (0, "u")) ["u"] "k")
          (.cons (.columnRef (some (1, "t")) ["t"] "k") .nil))) .nil)
      .nil .nil .nil .nil .nil .nil)

/-- `WITH ctes UPDATE t SET a = expr`. -/
def updateA (ctes : CTEMap Unit) (expr : Expression Unit) : UpdateNode Unit where
  ctes
  table := from_ "t" keyTable
  columns := ["a"]
  expressions := .cons expr .nil
  fromTable := none
  condition := .nil
  returningList := .nil
  hasModifiers := false

/-- A query can be bound on its own if it is not correlated. -/
def correlatedContext : Context Bool where
  inferQueryTypes _ query := if (outerColumns query).isEmpty then ["a"] else []
  providesColumn _ _ column := .ok (column = "a")
  supportsQuery _ := true
  supportsStatementQuery _ := true
  statementMode := false
  createTableAs := false

end Sample

end SqliteScanner.Pushdown
