import SqliteScanner.Pushdown.Syntax

/-!
# The SQL writer

`SQLiteSQLWriter` turns a query tree into SQL text for SQLite. This module follows its functions as
far as table names, `WITH` clauses and the columns that are read from a table are concerned. What
is written is a `Sql` tree: the text reduced to the table names in it, each with what is known about
it, and to the binders around them. The text of expressions has no table names of its own, so an
expression is written as its subqueries.

Four things happen to table names on the way.

* A name that a `WITH` clause around it defines is written as it is (`isCTEReference`). This looks at
  the clauses of all enclosing query nodes, as SQLite does.
* A reference to a view is replaced by the query of the view (`writeViewRef`).
* A qualified name is written without its qualification.
* A reference or subquery with column aliases is written as
  `(WITH alias(columns) AS (SELECT * FROM relation) SELECT * FROM alias) AS alias`
  (`writeColumnAliases`), which defines the alias around the relation.

`writeCTEMap` refuses a CTE that refers to a table with the name of a later CTE, which SQLite would
take for that CTE.

DuckDB's binder, which the writer calls for the columns of a query, and the checks for constructs
that SQLite does not have are parameters (`Context`). Constructs of a single expression or `SELECT`
that the writer refuses are not refused here.

## Main definitions

* `collectColumnReferences` — the columns that a query refers to, by name.
* `write` — the writer.
-/

namespace SqliteScanner.Pushdown

open Scoping

variable {α : Type}

/-! ### Column references -/

/-- The names of the columns that are referenced, and whether all columns could be. -/
structure References where
  names : List Identifier
  all : Bool
deriving DecidableEq

namespace References

def none : References := ⟨[], false⟩

def union (a b : References) : References := ⟨a.names ++ b.names, a.all || b.all⟩

/-- Whether a column of a table could be referenced. -/
def covers (refs : References) (column : Identifier) : Bool :=
  refs.all || decide (column ∈ refs.names)

end References

open References (union)

/-- `SQLiteCollectColumnReferences`. A node that the function is called for is walked through
together with its joins (`direct`). The members of a set operation or of a recursive CTE, and what
is nested in them, are only visited by `EnumerateQueryNodeChildren`, which passes on their
expressions but does not look at the columns of a `USING` or at a `NATURAL`. -/
def collectColumnReferences : {k : Kind} → Syn α k → (direct : Bool) → References
  | _, .columnRef _ _ column, _ => ⟨[column], false⟩
  | _, .star _, _ => ⟨[], true⟩
  | _, .subquery _ children query, _ =>
    (collectColumnReferences query true).union (collectColumnReferences children true)
  | _, .operation _ children, _ => collectColumnReferences children true
  | _, .dropped _ operand, _ => collectColumnReferences operand true
  | _, .row values, _ => collectColumnReferences values true
  | _, .cons head tail, direct =>
    (collectColumnReferences head direct).union (collectColumnReferences tail direct)
  | _, .join info left right condition, direct =>
    union (if direct then ⟨info.usingColumns, info.refType = .natural⟩ else .none)
      (((collectColumnReferences left direct).union (collectColumnReferences right direct)).union
        (collectColumnReferences condition true))
  | _, .subqueryRef query _, direct => collectColumnReferences query direct
  | _, .expressionList values _, _ => collectColumnReferences values true
  | _, .select ctes selectList fromTable whereClause groups having qualify distinctOn orders limits,
      direct =>
    (collectColumnReferences ctes direct).union <|
      (collectColumnReferences distinctOn true).union <|
        (collectColumnReferences orders true).union <|
          (collectColumnReferences limits true).union <|
            (collectColumnReferences fromTable direct).union <|
              (collectColumnReferences selectList true).union <|
                (collectColumnReferences whereClause true).union <|
                  (collectColumnReferences groups true).union <|
                    (collectColumnReferences having true).union <|
                      collectColumnReferences qualify true
  | _, .setOperation _ _ ctes children orders limits, direct =>
    (collectColumnReferences ctes direct).union <|
      (collectColumnReferences orders true).union <|
        (collectColumnReferences limits true).union (collectColumnReferences children false)
  | _, .recursiveCTE _ ctes left right, direct =>
    (collectColumnReferences ctes direct).union <|
      (collectColumnReferences left false).union (collectColumnReferences right false)
  | _, .consCTE _ _ query rest, direct =>
    (collectColumnReferences query direct).union (collectColumnReferences rest direct)
  | _, _, _ => .none

/-! ### Reading the columns of a table -/

/-- How a stored value is converted when it is read. -/
inductive Conversion where
  | castReal
  | duckdbDate
  | duckdbTimestamp
  | castBlob
  | castText
  | collateBinary
  | castTextCollateBinary
deriving DecidableEq

/-- `SQLiteColumnRead`: how DuckDB reads a column, or nothing if the stored value is read as it
is. -/
def columnRead (table : TableEntry) (column : ColumnDefinition) :
    Except String (Option Conversion) :=
  match column.type with
  | .bigint => .ok none
  | .double => .ok (if column.realAffinity then none else some .castReal)
  | .date => .ok (some .duckdbDate)
  | .timestamp => .ok (some .duckdbTimestamp)
  | .blob => .ok (some .castBlob)
  | .varchar =>
    if table.allVarchar || !column.utf8TextAffinity then
      .ok (some (if column.binaryCollation then .castText else .castTextCollateBinary))
    else
      .ok (if column.binaryCollation then none else some .collateBinary)
  | .other => .error "unsupported column type"

/-- A column as it is written in a list of columns. -/
structure WrittenColumn where
  column : ColumnDefinition
  read : Option Conversion
  name : Identifier
deriving DecidableEq

/-- The columns of a table, as they are read where it is written. The table is written by its name
alone if none of them is converted or renamed. -/
structure WrittenTable where
  table : TableEntry
  columns : List WrittenColumn
  listed : Bool
  rowid : Bool
deriving DecidableEq

/-- What stands where a table name is written. -/
inductive WrittenRef (α : Type) where
  | cte (note : α)
  | table (note : α) (written : WrittenTable)

/-- The note of the reference that is written. -/
def WrittenRef.note : WrittenRef α → α
  | .cte note => note
  | .table note _ => note

/-- The written SQL: its table names, and the binders around them. -/
abbrev Sql (α : Type) := Text Identifier (WrittenRef α)

/-! ### The writer

The writer keeps the columns that are referenced as its state, since the query of a view adds to
them. The `WITH` clauses of the enclosing query nodes are an argument, innermost first. -/

/-- What the writer calls, and the modes that it runs in. -/
structure Context (α : Type) where
  /-- `InferQueryTypes`: the result columns that DuckDB's binder finds for a query below some `WITH`
  clauses, or none if it cannot be bound. -/
  inferQueryTypes : List (CTEMap α) → QueryNode α → List Identifier
  /-- `ProvidesColumn`: whether a `FROM` clause has a column, if its columns can be found. -/
  providesColumn : List (CTEMap α) → TableRef α → Identifier → Except String Bool
  /-- `SQLiteSupportsQuery`. -/
  supportsQuery : QueryNode α → Bool
  /-- `SQLiteCapabilities::SupportsStatementQuery`. -/
  supportsStatementQuery : QueryNode α → Bool
  statementMode : Bool
  createTableAs : Bool

/-- The monad of the writer, which may refuse a query. -/
abbrev Writer := StateT References (Except String)

/-- `SQLiteSQLWriter::IsCTEReference`: some enclosing `WITH` clause has the name. -/
def isCTEReference (scopes : List (CTEMap α)) (ref : BaseTableRef) : Bool :=
  !ref.isQualified && scopes.any fun ctes => decide (ref.table ∈ ctes.cteNames)

/-- How a column is read where a table is written. A column that the query does not use is not
converted, and a view that is stored cannot have conversions. -/
def readColumn (ctx : Context α) (refs : References) (table : TableEntry)
    (column : ColumnDefinition) : Except String (Option Conversion) := do
  let read ← columnRead table column
  if !refs.covers column.name then return none
  else if read.isSome && ctx.statementMode then
    throw "a view of a column that requires a conversion"
  else return read

/-- The columns of a table, converted as far as the query refers to them. -/
def writeColumns (ctx : Context α) (refs : References) (ref : BaseTableRef) (table : TableEntry) :
    List ColumnDefinition → ℕ → Except String (List WrittenColumn)
  | [], _ => .ok []
  | column :: columns, i => do
    let read ← readColumn ctx refs table column
    let rest ← writeColumns ctx refs ref table columns (i + 1)
    return ⟨column, read, (ref.columnNameAlias[i]?).getD column.name⟩ :: rest

/-- How a table is written: by its name, or as `(SELECT columns FROM table) AS binding`. -/
def writeTable (ctx : Context α) (refs : References) (ref : BaseTableRef) (table : TableEntry) :
    Except String WrittenTable := do
  let columns ← writeColumns ctx refs ref table table.columns 0
  let listed := !ref.columnNameAlias.isEmpty || table.generatedColumns ||
    columns.any fun written => written.read.isSome
  if listed && decide (columns.length < ref.columnNameAlias.length) then
    throw "too many column aliases"
  return {
    table
    columns
    listed
    rowid := listed && !refs.all && decide ("rowid" ∈ refs.names) &&
      !table.columns.any fun column => column.name = "rowid" }

/-- `SQLiteSQLWriter::WriteColumnAliases`. -/
def writeColumnAliases (relation : Sql α) (aliases names : List Identifier) (name : Identifier) :
    Except String (Sql α) :=
  if names.length < aliases.length then .error "too many column aliases"
  else .ok (.rebind name relation)

/-- A relation, with its columns renamed if there are aliases for them. The binder has to know the
columns of the relation then. -/
def writeRenamed (relation : Sql α) (aliases names : List Identifier) (name : Identifier)
    (unknown : String) : Except String (Sql α) :=
  if aliases.isEmpty then .ok relation
  else if names.isEmpty then .error unknown
  else writeColumnAliases relation aliases names name

/-- The query `SELECT * FROM ref`, which the columns of a CTE or of a `VALUES` list are found
with. -/
def probe (ref : TableRef α) : QueryNode α :=
  .select .noCTEs (.cons (.star none) .nil) ref .nil .nil .nil .nil .nil .nil .nil

/-- `SQLiteSQLWriter::WriteBaseTableRef`, where `writeEntry` writes the query of a view. -/
def writeBaseTableRef (ctx : Context α) (scopes : List (CTEMap α)) (note : α) (ref : BaseTableRef)
    (entry : CatalogEntry α) (writeEntry : Writer (Option (List Identifier × Sql α))) :
    Writer (Sql α) :=
  if isCTEReference scopes ref then
    writeRenamed (.leaf (ref.toRef (.cte note))) ref.columnNameAlias
      (ctx.inferQueryTypes scopes
        (probe (.baseTable note { ref with tableAlias := none } .notFound))) ref.binding
      "cannot determine the columns of a CTE"
  else
    match entry with
    | .notFound => throw ("table " ++ ref.table ++ " not found")
    | .table table => do
      let written ← writeTable ctx (← get) ref table
      return .leaf (ref.toRef (.table note written))
    | .view _ query => do
      match ← writeEntry with
      | none => throw ("table " ++ ref.table ++ " not found")
      | some (aliases, body) =>
        writeRenamed (.inlined body) (viewAliases ref aliases) (ctx.inferQueryTypes scopes query)
          ref.binding "cannot determine the columns of a subquery"

/-- `WriteCTEMap` refuses a CTE that refers to a table with the name of a CTE that is defined after
it: in DuckDB it does not see that CTE, but in SQLite it does. -/
def checkLaterCTEs (query : QueryNode α) (later : List Identifier) : Except String Unit :=
  if (walkBaseTables query []).any fun x =>
      !x.1.2.isQualified && decide (x.1.2.table ∈ later) && decide (x.1.2.table ∉ x.2) then
    .error "a CTE that refers to a table with the name of a later CTE"
  else .ok ()

/-- Whether a select list has a star that is not restricted to a relation. -/
def hasUnqualifiedStar : {k : Kind} → Syn α k → Bool
  | _, .cons (.star none) _ => true
  | _, .cons _ tail => hasUnqualifiedStar tail
  | _, _ => false

/-- Whether a table reference has column aliases. -/
def hasColumnAliases : TableRef α → Bool
  | .baseTable _ ref _ => !ref.columnNameAlias.isEmpty
  | .subqueryRef _ tableAlias => tableAlias.any fun a => !a.columns.isEmpty
  | .expressionList _ tableAlias => tableAlias.any fun a => !a.columns.isEmpty
  | .join info _ _ _ => info.tableAlias.any fun a => !a.columns.isEmpty
  | .emptyFrom => false

/-- The number of entries of a list. -/
def Syn.length : {k : Kind} → Syn α k → ℕ
  | _, .cons _ tail => length tail + 1
  | _, .row values => length values
  | _, _ => 0

/-- Whether all rows of a `VALUES` list have the same number of columns. -/
def rowsHaveLength (n : ℕ) : {k : Kind} → Syn α k → Bool
  | _, .cons head tail => decide (head.length = n) && rowsHaveLength n tail
  | _, _ => true

/-- What is refused about a join. `star` says that the select list of the enclosing `SELECT` has an
unqualified star. -/
def checkJoin (info : JoinInfo) (left : TableRef α) (star : Bool) : Except String Unit :=
  if info.tableAlias.isSome then .error "aliased join"
  else match info.type with
    | .semi | .anti =>
      if hasColumnAliases left then .error "SEMI / ANTI join with column aliases" else .ok ()
    | .right => if star then .error "RIGHT JOIN with an unqualified *" else .ok ()
    | .inner | .left => .ok ()
    | .other => .error "unsupported join type"

/-- What is refused about a `VALUES` list, for which the binder finds as many columns as `types`
says. -/
def checkValues (types : ℕ) : Syn α (.list .row) → Except String Unit
  | .nil => .error "unsupported table ref type"
  | .cons head tail =>
    if types ≠ head.length then .error "cannot determine the types of a VALUES list"
    else if rowsHaveLength head.length tail then .ok ()
    else .error "VALUES rows with a different number of columns"

/-- The types that the members of a set operation are converted to have to be known. -/
def requireTypes (names : List Identifier) (unknown : String) : Except String Unit :=
  if names.isEmpty then .error unknown else .ok ()

/-- `WriteQueryNode` puts the `WITH` clause of a node before those of the enclosing nodes. -/
def pushScope (ctes : CTEMap α) (scopes : List (CTEMap α)) : List (CTEMap α) :=
  if ctes.cteNames.isEmpty then scopes else ctes :: scopes

/-! #### Correlated subqueries

SQLite evaluates a correlated subquery for every row, so the writer only accepts one if its rows are
looked up through an index. -/

/-- The tables of a `FROM` clause that `CollectScopeTables` finds, with their references. -/
def scopeTables (scopes : List (CTEMap α)) : {k : Kind} → Syn α k → List (BaseTableRef × TableEntry)
  | _, .baseTable _ ref (.table entry) =>
    if isCTEReference scopes ref then [] else [(ref, entry)]
  | _, .join _ left right _ => scopeTables scopes left ++ scopeTables scopes right
  | _, _ => []

/-- `SQLiteGetBindings`: the names that a `FROM` clause is bound to. -/
def getBindings : {k : Kind} → Syn α k → List Identifier
  | _, .baseTable _ ref _ => [ref.binding]
  | _, .join info left right _ =>
    getBindings left ++
      if info.type = .semi ∨ info.type = .anti then [] else getBindings right
  | _, .subqueryRef _ tableAlias => (tableAlias.map TableAlias.name).toList
  | _, .expressionList _ tableAlias => [(tableAlias.map TableAlias.name).getD "valueslist"]
  | _, _ => []

/-- The expressions of a list. -/
def Syn.expressions : {k : Kind} → Syn α k → List (Expression α)
  | _, .cons (i := .expression) head tail => head :: expressions tail
  | _, _ => []

/-- `SQLiteGetConjuncts` of an optional condition. -/
def getConjuncts : Expressions α → List (Expression α)
  | .cons (.operation (.conjunction true) children) _ => children.expressions
  | .cons expr _ => [expr]
  | .nil => []

/-- Whether a column reference is to a column of exactly one table of a `FROM` clause, which rows can
be looked up by. -/
def isIndexedColumn (scopes : List (CTEMap α)) (fromTable : TableRef α) (qualifier : List Identifier)
    (column : Identifier) : Bool :=
  match (scopeTables scopes fromTable).filter fun x =>
    (x.2.columns.any fun c => c.name = column) &&
      qualifier.getLast?.all fun binding => binding = x.1.binding with
  | [(_, table)] => decide (column ∈ table.indexedColumns)
  | _ => false

/-- Whether an expression is a column that a `FROM` clause does not have. -/
def isOuter (ctx : Context α) (scopes : List (CTEMap α)) (fromTable : TableRef α) :
    Expression α → Except String Bool
  | .columnRef _ qualifier column =>
    match qualifier.getLast? with
    | some binding => .ok (decide (binding ∉ getBindings fromTable))
    | none => do return !(← ctx.providesColumn scopes fromTable column)
  | _ => .ok false

/-- Whether an equality with an outer column looks up rows through an index. -/
def isLookup (ctx : Context α) (scopes : List (CTEMap α)) (fromTable : TableRef α) :
    Expression α → Expression α → Except String Bool
  | .columnRef _ qualifier column, other => do
    return (← isOuter ctx scopes fromTable other) &&
      isIndexedColumn scopes fromTable qualifier column
  | _, _ => .ok false

/-- Whether a conjunct of a condition looks up rows through an index. -/
def isCorrelatedLookup (ctx : Context α) (scopes : List (CTEMap α)) (fromTable : TableRef α) :
    Expression α → Except String Bool
  | .operation (.comparison true) (.cons left (.cons right .nil)) => do
    if ← isLookup ctx scopes fromTable left right then return true
    isLookup ctx scopes fromTable right left
  | _ => .ok false

/-- `SQLiteSQLWriter::VerifyCorrelatedSubquery`. A subquery that can be bound on its own is not
correlated. -/
def verifyCorrelatedSubquery (ctx : Context α) (scopes : List (CTEMap α)) (query : QueryNode α) :
    Except String Unit :=
  if !(ctx.inferQueryTypes scopes query).isEmpty then .ok ()
  else match query with
    | .select _ _ fromTable whereClause _ _ _ _ _ _ => do
      if whereClause.isNil then throw "correlated subquery"
      if ← (getConjuncts whereClause).anyM (isCorrelatedLookup ctx scopes fromTable) then return ()
      throw "correlated subquery without an index on the correlated column"
    | _ => .error "correlated subquery"

/-- What `WriteSubquery` asks about a subquery. -/
def checkSubquery (ctx : Context α) (scopes : List (CTEMap α)) (type : SubqueryType)
    (query : QueryNode α) : Except String Unit := do
  verifyCorrelatedSubquery ctx scopes query
  if type = .any ∧ (ctx.inferQueryTypes scopes query).length ≠ 1 then
    throw "cannot determine the type of an IN subquery"

/-! #### Queries -/

/-- A part that is left out if there is nothing to write. -/
def writeIf (written : Bool) (part : Writer (Sql α)) : Writer (Sql α) :=
  if written then part else return .nil

/-- `WriteExpression`, `WriteTableRef`, `WriteQueryNode`, `WriteCTEMap` and `WriteResultModifiers`
with the functions that they call, as one recursion over the tree.

A query node is written with its `WITH` clause pushed, and that clause is written first. What is
written for a catalog entry is the query of a view, after the check and the collection of
`WriteViewRef`. The aliases that `ExpandSelectAliases` puts into the other clauses are entries of the
select list, which are written at their own place already. -/
def write (ctx : Context α) : {k : Kind} → Syn α k → List (CTEMap α) → (star : Bool) →
    Writer (Outline (WrittenRef α) k)
  | _, .columnRef _ _ _, _, _ => return .nil
  | _, .star _, _, _ => return .nil
  | _, .subquery type children query, scopes, star => do
    checkSubquery ctx scopes type query
    let operands ← write ctx children scopes star
    let body ← write ctx query scopes star
    return .both operands body
  | _, .operation _ children, scopes, star => write (k := .list .expression) ctx children scopes star
  | _, .dropped visited operand, scopes, star => do
    if visited then
      let _ ← write ctx operand scopes star
    return .nil
  | _, .row values, scopes, star => write (k := .list .expression) ctx values scopes star
  | _, .nil, _, _ => return .nil
  | _, .cons head tail, scopes, star => do
    let first ← write ctx head scopes star
    let rest ← write ctx tail scopes star
    return .both first rest
  | _, .baseTable note ref entry, scopes, star =>
    writeBaseTableRef ctx scopes note ref entry (write ctx entry scopes star)
  | _, .join info left right condition, scopes, star => do
    checkJoin info left star
    if info.type = .right then
      -- `(right LEFT JOIN left ON condition)`
      let r ← write ctx right scopes star
      let l ← write ctx left scopes star
      let on ← write ctx condition scopes star
      return .both (.both r l) on
    else
      -- a `SEMI` or `ANTI` join is an `[NOT] EXISTS (SELECT 1 FROM right WHERE condition)`
      let l ← write ctx left scopes star
      let r ← write ctx right scopes star
      let on ← write ctx condition scopes star
      return .both (.both l r) on
  | _, .subqueryRef query tableAlias, scopes, star => do
    let body ← write ctx query scopes star
    match tableAlias with
    | none => return body
    | some ⟨name, columns⟩ =>
      writeRenamed body columns (ctx.inferQueryTypes scopes query) name
        "cannot determine the columns of a subquery"
  | _, .expressionList values tableAlias, scopes, star => do
    checkValues (ctx.inferQueryTypes scopes (probe (.expressionList values tableAlias))).length
      values
    write (k := .list .row) ctx values scopes star
  | _, .emptyFrom, _, _ => return .nil
  | _, .notFound, _, _ => return none
  | _, .table _, _, _ => return none
  | _, .view aliases query, scopes, star => do
    if !ctx.supportsQuery query || (ctx.createTableAs && !ctx.supportsStatementQuery query) then
      throw "the query of a view cannot be pushed down"
    modify fun refs => refs.union (collectColumnReferences query true)
    let body ← write ctx query scopes star
    return some (aliases, body)
  | _, .select ctes selectList fromTable whereClause groups having qualify distinctOn orders limits,
      scopes, _ =>
    let scopes := pushScope ctes scopes
    let star := hasUnqualifiedStar selectList
    do
      let defs ← write ctx ctes scopes star
      let sqlList ← write ctx selectList scopes star
      let sqlDistinct ← write ctx distinctOn scopes star
      let sqlCondition ← writeIf groups.isNil (write ctx having scopes star)
      let sqlQualify ← write ctx qualify scopes star
      let sqlFrom ← write ctx fromTable scopes star
      let sqlWhere ← write ctx whereClause scopes star
      let sqlGroups ← write ctx groups scopes star
      let sqlHaving ← writeIf (!groups.isNil) (write ctx having scopes star)
      let sqlOrders ← writeIf (!isFiltered groups having qualify distinctOn)
        (write ctx orders scopes star)
      let sqlLimits ← write ctx limits scopes star
      return .block defs (.both sqlList (.both sqlDistinct (.both sqlCondition (.both sqlQualify
        (.both sqlFrom (.both sqlWhere (.both sqlGroups (.both sqlHaving
          (.both sqlOrders sqlLimits)))))))))
  | _, .setOperation type all ctes children orders limits, scopes, star => do
    let inner := pushScope ctes scopes
    requireTypes (ctx.inferQueryTypes inner (.setOperation type all ctes children orders limits))
      "cannot determine the types of a set operation"
    let defs ← write ctx ctes inner star
    let members ← write ctx children inner star
    let sqlOrders ← write ctx orders inner star
    let sqlLimits ← write ctx limits inner star
    return .block defs (.both members (.both sqlOrders sqlLimits))
  | _, .recursiveCTE _ ctes left right, scopes, star => do
    let inner := pushScope ctes scopes
    let defs ← write ctx ctes inner star
    let l ← write ctx left inner star
    requireTypes (ctx.inferQueryTypes inner left) "cannot determine the types of a recursive CTE"
    let r ← write ctx right inner star
    return .block defs (.both l r)
  | _, .noCTEs, _, _ => return .nil
  | _, .consCTE name _ query rest, scopes, star => do
    checkLaterCTEs query rest.cteNames
    let definition ← write ctx query scopes star
    let others ← write ctx rest scopes star
    return .cons name query.isRecursive definition others

/-- `SQLiteSQLWriter::WriteQuery`: the columns that the query refers to are collected first. -/
def writeQuery (ctx : Context α) (node : QueryNode α) : Except String (Sql α) := do
  let (sql, _) ← write ctx node [] false (collectColumnReferences node true)
  return sql

end SqliteScanner.Pushdown
