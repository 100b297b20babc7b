import SqliteScanner.Internal.Scoping

/-!
# Query trees

The queries that are pushed down to SQLite, as DuckDB parses them: expressions, table references,
query nodes and their `WITH` clauses. They are mutually recursive, and most of the code only walks
through them, so they are one inductive family over the `Kind` of a part. Lists are kinds of their
own.

Two things that DuckDB and the writer find out about a query are written in its tree: which table
reference a column belongs to, and which operands of an operation are left out of the text.

A reference to a table carries the entry that the catalog has for its name. For a view this is its
parsed query, which may refer to further views. So a tree is a query together with the part of the
catalog that it can reach, and no view reads itself.

What the code asks about the names in a query is here as well: which references it has and which
`WITH` clauses they see (`walkBaseTables`), and which names occur in it (`tableNames`).

## Main definitions

* `Syn` — the trees, with `QueryNode`, `TableRef`, `Expression` and `CTEMap` among its kinds.
* `walkBaseTables` — the references to tables with the CTEs that are visible where they are.
* `tableNames`, `hasCTETableNameConflict` — the names that the capability checks look at.
* `outerColumns` — the columns of outer queries that a part refers to.
* `outline` — the references and binders of what is written for a tree.
-/

namespace SqliteScanner.Pushdown

open Scoping

/-! ### Trees -/

/-- Identifiers are compared case-insensitively, so they are folded here. -/
abbrev Identifier := String

/-- The alias of a table reference. Only an alias can have a list of column names. -/
structure TableAlias where
  name : Identifier
  columns : List Identifier
deriving DecidableEq

/-- A reference to a table by name, after the name of the catalog has been stripped. -/
structure BaseTableRef where
  qualifier : List Identifier
  table : Identifier
  tableAlias : Option TableAlias
deriving DecidableEq

namespace BaseTableRef

/-- Whether the path of the name has more than one part. -/
def isQualified (ref : BaseTableRef) : Bool :=
  !ref.qualifier.isEmpty

/-- The list of column aliases. -/
def columnNameAlias (ref : BaseTableRef) : List Identifier :=
  (ref.tableAlias.map TableAlias.columns).getD []

/-- The name that the columns of the reference can be qualified with. -/
def binding (ref : BaseTableRef) : Identifier :=
  (ref.tableAlias.map TableAlias.name).getD ref.table

end BaseTableRef

/-- The types of the columns of a SQLite table that DuckDB reads. -/
inductive ColumnType where
  | bigint
  | double
  | date
  | timestamp
  | blob
  | varchar
  | other
deriving DecidableEq

/-- A column of a table, with what the pushdown knows about how SQLite stores and compares it. -/
structure ColumnDefinition where
  name : Identifier
  type : ColumnType
  utf8TextAffinity : Bool
  binaryCollation : Bool
  realAffinity : Bool
deriving DecidableEq

/-- A table of the catalog. -/
structure TableEntry where
  columns : List ColumnDefinition
  /-- The columns that rows can be looked up by through an index. -/
  indexedColumns : List Identifier
  generatedColumns : Bool
  allVarchar : Bool
deriving DecidableEq

inductive JoinType where
  | inner
  | left
  | right
  | semi
  | anti
  | other
deriving DecidableEq

inductive JoinRefType where
  | regular
  | natural
  | cross
  | other
deriving DecidableEq

/-- A join without its sides and its condition. -/
structure JoinInfo where
  type : JoinType
  refType : JoinRefType
  usingColumns : List Identifier
  tableAlias : Option TableAlias
deriving DecidableEq

inductive SetOperationType where
  | union
  | except
  | intersect
deriving DecidableEq

inductive SubqueryType where
  | scalar
  | exists
  | notExists
  | any
deriving DecidableEq

inductive OperatorType where
  | isNull
  | isNotNull
  | not
  | compareIn
  | compareNotIn
  | other
deriving DecidableEq

/-- The classes of expressions other than column references, stars and subqueries. -/
inductive OperationClass where
  /-- A constant. One of a `DECIMAL` or `FLOAT` type is not represented exactly. -/
  | constant (exact : Bool)
  | comparison (isEqual : Bool)
  | conjunction (isAnd : Bool)
  | between
  | operator (type : OperatorType)
  | function (name : Identifier)
  /-- Casts, `CASE`, window functions and the rest. -/
  | other
deriving DecidableEq

/-- What the lists in a query are lists of. -/
inductive Item where
  | expression
  | row
  | queryNode
deriving DecidableEq

/-- The parts of a query. -/
inductive Kind where
  | item (i : Item)
  | list (i : Item)
  | tableRef
  | catalogEntry
  | cteMap
deriving DecidableEq

/-- Query trees, where every reference to a table has a note of type `α`. A clause that can be left out
is a list with at most one entry. -/
inductive Syn (α : Type) : Kind → Type where
  /-- `boundIn` is where DuckDB finds the column, if it is that of a table reference: the `SELECT`, counted
  outwards from the column, and the name of the reference in its `FROM` clause. -/
  | columnRef (boundIn : Option (ℕ × Identifier)) (qualifier : List Identifier) (column : Identifier) :
      Syn α (.item .expression)
  | star (relation : Option Identifier) : Syn α (.item .expression)
  | subquery (type : SubqueryType) (children : Syn α (.list .expression))
      (query : Syn α (.item .queryNode)) : Syn α (.item .expression)
  | operation (expressionClass : OperationClass) (children : Syn α (.list .expression)) :
      Syn α (.item .expression)
  /-- An operand that is left out of the text: the argument of `typeof` if it has no aggregate, the
  `ORDER BY` of an aggregate like `sum`, what `WriteDisjunction` absorbs, and what is converted from the
  type of `NULL`. The writer may have been there before it knows (`visited`). -/
  | dropped (visited : Bool) (operand : Syn α (.item .expression)) : Syn α (.item .expression)
  | row (values : Syn α (.list .expression)) : Syn α (.item .row)
  | nil {i : Item} : Syn α (.list i)
  | cons {i : Item} (head : Syn α (.item i)) (tail : Syn α (.list i)) : Syn α (.list i)
  | baseTable (note : α) (ref : BaseTableRef) (entry : Syn α .catalogEntry) : Syn α .tableRef
  | join (info : JoinInfo) (left right : Syn α .tableRef) (condition : Syn α (.list .expression)) :
      Syn α .tableRef
  | subqueryRef (query : Syn α (.item .queryNode)) (tableAlias : Option TableAlias) : Syn α .tableRef
  | expressionList (values : Syn α (.list .row)) (tableAlias : Option TableAlias) : Syn α .tableRef
  | emptyFrom : Syn α .tableRef
  /-- Neither a table nor a view has the name, or the name has more than two parts. -/
  | notFound : Syn α .catalogEntry
  | table (entry : TableEntry) : Syn α .catalogEntry
  | view (aliases : List Identifier) (query : Syn α (.item .queryNode)) : Syn α .catalogEntry
  /-- `limits` are the `LIMIT` and the `OFFSET`. -/
  | select (ctes : Syn α .cteMap) (selectList : Syn α (.list .expression)) (fromTable : Syn α .tableRef)
      (whereClause groups having qualify distinctOn orders limits : Syn α (.list .expression)) :
      Syn α (.item .queryNode)
  | setOperation (type : SetOperationType) (all : Bool) (ctes : Syn α .cteMap)
      (children : Syn α (.list .queryNode)) (orders limits : Syn α (.list .expression)) :
      Syn α (.item .queryNode)
  | recursiveCTE (unionAll : Bool) (ctes : Syn α .cteMap) (left right : Syn α (.item .queryNode)) :
      Syn α (.item .queryNode)
  | noCTEs : Syn α .cteMap
  | consCTE (name : Identifier) (aliases : List Identifier) (query : Syn α (.item .queryNode))
      (rest : Syn α .cteMap) : Syn α .cteMap

abbrev Expression (α : Type) := Syn α (.item .expression)
abbrev Expressions (α : Type) := Syn α (.list .expression)
abbrev TableRef (α : Type) := Syn α .tableRef
abbrev CatalogEntry (α : Type) := Syn α .catalogEntry
abbrev QueryNode (α : Type) := Syn α (.item .queryNode)
abbrev CTEMap (α : Type) := Syn α .cteMap

variable {α : Type}

namespace Syn

/-- The names of the CTEs of a `WITH` clause, in their order. -/
def cteNames : {k : Kind} → Syn α k → List Identifier
  | _, .consCTE name _ _ rest => name :: cteNames rest
  | _, _ => []

/-- Whether a query node is that of a recursive CTE. -/
def isRecursive : QueryNode α → Bool
  | .recursiveCTE _ _ _ _ => true
  | .select _ _ _ _ _ _ _ _ _ _ => false
  | .setOperation _ _ _ _ _ _ => false

def isNil : {k : Kind} → Syn α k → Bool
  | _, .nil => true
  | _, _ => false

end Syn

/-! ### The names in a query -/

/-- `SQLiteWalkBaseTables`: the references to tables of a query, each with the names of the CTEs
that are visible where it is. A CTE sees the CTEs that are defined before it, and itself if it is
recursive, and the query sees all of them. Catalog entries are not part of the query. -/
def walkBaseTables : {k : Kind} → Syn α k → List Identifier → List ((α × BaseTableRef) × List Identifier)
  | _, .subquery _ children query, scope => walkBaseTables query scope ++ walkBaseTables children scope
  | _, .operation _ children, scope => walkBaseTables children scope
  | _, .dropped _ operand, scope => walkBaseTables operand scope
  | _, .row values, scope => walkBaseTables values scope
  | _, .cons head tail, scope => walkBaseTables head scope ++ walkBaseTables tail scope
  | _, .baseTable note ref _, scope => [((note, ref), scope)]
  | _, .join _ left right condition, scope =>
    walkBaseTables left scope ++ walkBaseTables right scope ++ walkBaseTables condition scope
  | _, .subqueryRef query _, scope => walkBaseTables query scope
  | _, .expressionList values _, scope => walkBaseTables values scope
  | _, .select ctes selectList fromTable whereClause groups having qualify distinctOn orders limits,
      scope =>
    let cteScope := ctes.cteNames.reverse ++ scope
    walkBaseTables ctes scope ++ walkBaseTables selectList cteScope ++
      walkBaseTables fromTable cteScope ++ walkBaseTables whereClause cteScope ++
      walkBaseTables groups cteScope ++ walkBaseTables having cteScope ++
      walkBaseTables qualify cteScope ++ walkBaseTables distinctOn cteScope ++
      walkBaseTables orders cteScope ++ walkBaseTables limits cteScope
  | _, .setOperation _ _ ctes children orders limits, scope =>
    let cteScope := ctes.cteNames.reverse ++ scope
    walkBaseTables ctes scope ++ walkBaseTables children cteScope ++
      walkBaseTables orders cteScope ++ walkBaseTables limits cteScope
  | _, .recursiveCTE _ ctes left right, scope =>
    let cteScope := ctes.cteNames.reverse ++ scope
    walkBaseTables ctes scope ++ walkBaseTables left cteScope ++ walkBaseTables right cteScope
  | _, .consCTE name _ query rest, scope =>
    walkBaseTables query (if query.isRecursive then name :: scope else scope) ++
      walkBaseTables rest (name :: scope)
  | _, _, _ => []

/-- `SQLiteCollectTableNames`: the names of the tables that a query refers to, anywhere in it, or
only those that are qualified. `EnumerateQueryNodeChildren` visits all table references, those of
the nested query nodes included. -/
def tableNames (allTables : Bool) : {k : Kind} → Syn α k → List Identifier
  | _, .subquery _ children query => tableNames allTables query ++ tableNames allTables children
  | _, .operation _ children => tableNames allTables children
  | _, .dropped _ operand => tableNames allTables operand
  | _, .row values => tableNames allTables values
  | _, .cons head tail => tableNames allTables head ++ tableNames allTables tail
  | _, .baseTable _ ref _ => if allTables || ref.isQualified then [ref.table] else []
  | _, .join _ left right condition =>
    tableNames allTables left ++ tableNames allTables right ++ tableNames allTables condition
  | _, .subqueryRef query _ => tableNames allTables query
  | _, .expressionList values _ => tableNames allTables values
  | _, .select ctes selectList fromTable whereClause groups having qualify distinctOn orders limits =>
    tableNames allTables ctes ++ tableNames allTables selectList ++
      tableNames allTables fromTable ++ tableNames allTables whereClause ++
      tableNames allTables groups ++ tableNames allTables having ++
      tableNames allTables qualify ++ tableNames allTables distinctOn ++
      tableNames allTables orders ++ tableNames allTables limits
  | _, .setOperation _ _ ctes children orders limits =>
    tableNames allTables ctes ++ tableNames allTables children ++ tableNames allTables orders ++
      tableNames allTables limits
  | _, .recursiveCTE _ ctes left right =>
    tableNames allTables ctes ++ tableNames allTables left ++ tableNames allTables right
  | _, .consCTE _ _ query rest => tableNames allTables query ++ tableNames allTables rest
  | _, _ => []

/-- The names of CTEs that `SQLiteCollectTableNames` finds: those of the `WITH` clause of the node
that it is called for (`direct`) and of the subqueries in expressions. The nodes that
`EnumerateQueryNodeChildren` goes through by itself only contribute their expressions. -/
def collectedCTENames : {k : Kind} → Syn α k → (direct : Bool) → List Identifier
  | _, .subquery _ children query, _ =>
    collectedCTENames query true ++ collectedCTENames children false
  | _, .operation _ children, _ => collectedCTENames children false
  | _, .dropped _ operand, _ => collectedCTENames operand false
  | _, .row values, _ => collectedCTENames values false
  | _, .cons head tail, _ => collectedCTENames head false ++ collectedCTENames tail false
  | _, .join _ left right condition, _ =>
    collectedCTENames left false ++ collectedCTENames right false ++
      collectedCTENames condition false
  | _, .subqueryRef query _, _ => collectedCTENames query false
  | _, .expressionList values _, _ => collectedCTENames values false
  | _, .select ctes selectList fromTable whereClause groups having qualify distinctOn orders limits,
      direct =>
    (if direct then ctes.cteNames else []) ++ collectedCTENames ctes false ++
      collectedCTENames selectList false ++ collectedCTENames fromTable false ++
      collectedCTENames whereClause false ++ collectedCTENames groups false ++
      collectedCTENames having false ++ collectedCTENames qualify false ++
      collectedCTENames distinctOn false ++ collectedCTENames orders false ++
      collectedCTENames limits false
  | _, .setOperation _ _ ctes children orders limits, direct =>
    (if direct then ctes.cteNames else []) ++ collectedCTENames ctes false ++
      collectedCTENames children false ++ collectedCTENames orders false ++
      collectedCTENames limits false
  | _, .recursiveCTE _ ctes left right, direct =>
    (if direct then ctes.cteNames else []) ++ collectedCTENames ctes false ++
      collectedCTENames left false ++ collectedCTENames right false
  | _, .consCTE _ _ query rest, _ => collectedCTENames query false ++ collectedCTENames rest false
  | _, _, _ => []

/-- `SQLiteHasCTETableNameConflict`: whether a qualified reference has the name of a CTE, which it
would refer to once it is written without its qualification. -/
def hasCTETableNameConflict (node : QueryNode α) : Bool :=
  (collectedCTENames node true).any fun name => decide (name ∈ tableNames false node)

/-- The columns that the text of a part of a query refers to and that are bound outside of it, each with
the number of the `SELECT` around the part and the table reference that has it. -/
def outerColumns : {k : Kind} → Syn α k → List (ℕ × Identifier × Identifier)
  | _, .columnRef (some (n, relation)) _ column => [(n, relation, column)]
  | _, .subquery _ children query => outerColumns children ++ outerColumns query
  | _, .operation _ children => outerColumns children
  | _, .row values => outerColumns values
  | _, .cons head tail => outerColumns head ++ outerColumns tail
  | _, .join _ left right condition =>
    outerColumns left ++ outerColumns right ++ outerColumns condition
  | _, .subqueryRef query _ => outerColumns query
  | _, .expressionList values _ => outerColumns values
  | _, .select ctes selectList fromTable whereClause groups having qualify distinctOn orders limits =>
    (outerColumns ctes ++ outerColumns selectList ++ outerColumns fromTable ++
      outerColumns whereClause ++ outerColumns groups ++ outerColumns having ++
      outerColumns qualify ++ outerColumns distinctOn ++ outerColumns orders ++
      outerColumns limits).filterMap fun
        | (0, _) => none
        | (n + 1, column) => some (n, column)
  | _, .setOperation _ _ ctes children orders limits =>
    outerColumns ctes ++ outerColumns children ++ outerColumns orders ++ outerColumns limits
  | _, .recursiveCTE _ ctes left right =>
    outerColumns ctes ++ outerColumns left ++ outerColumns right
  | _, .consCTE _ _ query rest => outerColumns query ++ outerColumns rest
  | _, _ => []

/-! ### Outlines

The references and binders of a tree, in the order in which the writer writes them. -/

/-- The outline of a `WITH` clause is a block of definitions, that of a catalog entry the text of a
view with its column aliases, and that of any other part a text. -/
@[reducible]
def Outline (α : Type) : Kind → Type
  | .cteMap => Defs Identifier α
  | .catalogEntry => Option (List Identifier × Text Identifier α)
  | _ => Text Identifier α

/-- A reference in an outline. A CTE with column aliases is renamed by a `WITH` clause around it. -/
def BaseTableRef.toRef (ref : BaseTableRef) (note : α) : Ref Identifier α where
  name := ref.table
  global := ref.isQualified
  rename := if ref.columnNameAlias.isEmpty then none else some ref.binding
  note := note

/-- The columns of a view are renamed by the aliases of the reference, or else by those of the
view. -/
def viewAliases (ref : BaseTableRef) (aliases : List Identifier) : List Identifier :=
  if ref.columnNameAlias.isEmpty then aliases else ref.columnNameAlias

/-- The outline of a reference, given that of its catalog entry. -/
def outlineRef (note : α) (ref : BaseTableRef) :
    Option (List Identifier × Text Identifier α) → Text Identifier α
  | none => .leaf (ref.toRef note)
  | some (aliases, body) =>
    .call (ref.toRef note) (if (viewAliases ref aliases).isEmpty then none else some ref.binding)
      body

/-- A subquery whose columns are renamed has a `WITH` clause around it. -/
def outlineSubquery (tableAlias : Option TableAlias) (body : Text Identifier α) :
    Text Identifier α :=
  match tableAlias with
  | none => body
  | some ⟨name, columns⟩ => if columns.isEmpty then body else .rebind name body

/-- A part that is left out if there is nothing to write. -/
def outlineIf (written : Bool) (t : Text Identifier α) : Text Identifier α :=
  if written then t else .nil

/-- `WriteExpandedSelectNode` writes a `SELECT` with a `QUALIFY`, a `DISTINCT ON` or a `HAVING` without
groups as a query over another `SELECT`. These clauses are computed in the select list then, and the
`ORDER BY` consists of names of result columns. -/
def isFiltered (groups having qualify distinctOn : Expressions α) : Bool :=
  !qualify.isNil || (!having.isNil && groups.isNil) || !distinctOn.isNil

/-- The outline of a part of a query. -/
def outline : {k : Kind} → Syn α k → Outline α k
  | _, .columnRef _ _ _ => .nil
  | _, .star _ => .nil
  | _, .subquery _ children query => .both (outline children) (outline query)
  | _, .operation _ children => outline (k := .list .expression) children
  | _, .dropped _ _ => .nil
  | _, .row values => outline (k := .list .expression) values
  | _, .nil => .nil
  | _, .cons head tail => .both (outline head) (outline tail)
  | _, .baseTable note ref entry => outlineRef note ref (outline entry)
  | _, .join info left right condition =>
    -- a RIGHT JOIN is written with its sides swapped
    if info.type = .right then .both (.both (outline right) (outline left)) (outline condition)
    else .both (.both (outline left) (outline right)) (outline condition)
  | _, .subqueryRef query tableAlias => outlineSubquery tableAlias (outline query)
  | _, .expressionList values _ => outline (k := .list .row) values
  | _, .emptyFrom => .nil
  | _, .notFound => none
  | _, .table _ => none
  | _, .view aliases query => some (aliases, outline query)
  | _, .select ctes selectList fromTable whereClause groups having qualify distinctOn orders limits =>
    .block (outline ctes)
      (.both (outline selectList) (.both (outline distinctOn)
        (.both (outlineIf groups.isNil (outline having)) (.both (outline qualify)
          (.both (outline fromTable) (.both (outline whereClause) (.both (outline groups)
            (.both (outlineIf (!groups.isNil) (outline having))
              (.both (outlineIf (!isFiltered groups having qualify distinctOn) (outline orders))
                (outline limits))))))))))
  | _, .setOperation _ _ ctes children orders limits =>
    .block (outline ctes) (.both (outline children) (.both (outline orders) (outline limits)))
  | _, .recursiveCTE _ ctes left right =>
    .block (outline ctes) (.both (outline left) (outline right))
  | _, .noCTEs => .nil
  | _, .consCTE name _ query rest => .cons name query.isRecursive (outline query) (outline rest)

theorem names_outline : ∀ ctes : CTEMap α, Defs.names (outline ctes) = ctes.cteNames
  | .noCTEs => by simp [outline, Defs.names, Syn.cteNames]
  | .consCTE _ _ _ rest => by simp [outline, Defs.names, Syn.cteNames, names_outline rest]

/-- A property of outlines, given for texts, for blocks of definitions and for views. -/
def Outline.Holds (P : Text Identifier α → Prop) (Q : Defs Identifier α → Prop)
    (R : Option (List Identifier × Text Identifier α) → Prop) : {k : Kind} → Outline α k → Prop
  | .item _, t => P t
  | .list _, t => P t
  | .tableRef, t => P t
  | .catalogEntry, entry => R entry
  | .cteMap, defs => Q defs

/-- A reference with the names of the CTEs that it sees is in a listing. -/
def Listed (walk : List ((α × BaseTableRef) × List Identifier))
    (d : Ref Identifier α × List (List Identifier)) : Prop :=
  ∃ x ∈ walk, x.1.2.toRef x.1.1 = d.1 ∧ x.2 = d.2.flatten

@[simp]
theorem listed_append {walk walk' : List ((α × BaseTableRef) × List Identifier)}
    {d : Ref Identifier α × List (List Identifier)} :
    Listed (walk ++ walk') d ↔ Listed walk d ∨ Listed walk' d := by
  simp only [Listed, List.mem_append, or_and_right, exists_or]

theorem mem_declared_outlineIf {written : Bool} {t : Text Identifier α} {S : List (List Identifier)}
    {d : Ref Identifier α × List (List Identifier)} (h : d ∈ declared (outlineIf written t) S) :
    d ∈ declared t S := by
  cases written with
  | true => exact h
  | false => exact absurd h List.not_mem_nil

/-- The walk lists the references of the outline, with the CTEs that they see in DuckDB. -/
theorem walkBaseTables_outline {k : Kind} (s : Syn α k) :
    Outline.Holds (fun t => ∀ S, ∀ d ∈ declared t S, Listed (walkBaseTables s S.flatten) d)
      (fun defs => ∀ before S, ∀ d ∈ declaredDefs defs before S,
        Listed (walkBaseTables s (before ++ S.flatten)) d)
      (fun _ => True) (outline s) := by
  have hnil : ∀ {walk : List ((α × BaseTableRef) × List Identifier)},
      ∀ d ∈ ([] : List (Ref Identifier α × List (List Identifier))), Listed walk d :=
    fun d hd => absurd hd List.not_mem_nil
  induction s with
  | columnRef | star => exact fun _ => hnil
  | subquery _ children query hchildren hquery =>
    intro S d hd
    rcases List.mem_append.mp hd with hd | hd
    · exact listed_append.mpr (.inr (hchildren S d hd))
    · exact listed_append.mpr (.inl (hquery S d hd))
  | operation _ children hchildren => exact hchildren
  | dropped => exact fun _ => hnil
  | row values hvalues => exact hvalues
  | nil => exact fun _ => hnil
  | cons head tail hhead htail =>
    intro S d hd
    exact listed_append.mpr ((List.mem_append.mp hd).imp (hhead S d) (htail S d))
  | baseTable note ref entry _ =>
    intro S d hd
    have hd : d = (ref.toRef note, S) := by
      cases entry <;> exact List.mem_singleton.mp hd
    exact ⟨_, List.mem_singleton_self _, by rw [hd], by rw [hd]⟩
  | join info left right condition hleft hright hcondition =>
    intro S d hd
    have hleft := hleft S d
    have hright := hright S d
    have hcondition := hcondition S d
    rw [outline] at hd
    simp only [walkBaseTables, listed_append]
    split at hd <;> simp only [declared, List.mem_append] at hd <;> tauto
  | subqueryRef query tableAlias hquery =>
    rcases tableAlias with _ | ⟨name, columns⟩
    · exact hquery
    · rw [outline, outlineSubquery]
      split <;> exact hquery
  | expressionList values _ hvalues => exact hvalues
  | emptyFrom => exact fun _ => hnil
  | notFound | table | view => trivial
  | select ctes selectList fromTable whereClause groups having qualify distinctOn orders limits hctes
      hselectList hfromTable hwhereClause hgroups hhaving hqualify hdistinctOn horders hlimits =>
    intro S d hd
    simp only [outline, declared, names_outline, List.mem_append] at hd
    simp only [walkBaseTables, listed_append]
    have hbody : ∀ {k : Kind} {s : Syn α k} {t : Text Identifier α},
        (∀ S, ∀ d ∈ declared t S, Listed (walkBaseTables s S.flatten) d) →
          d ∈ declared t (ctes.cteNames.reverse :: S) →
            Listed (walkBaseTables s (ctes.cteNames.reverse ++ S.flatten)) d := fun h hd => h _ d hd
    rcases hd with hd | hd | hd | hd | hd | hd | hd | hd | hd | hd | hd
    · simp [show Listed (walkBaseTables ctes S.flatten) d from hctes [] S d hd]
    · simp [hbody hselectList hd]
    · simp [hbody hdistinctOn hd]
    · simp [hbody hhaving (mem_declared_outlineIf hd)]
    · simp [hbody hqualify hd]
    · simp [hbody hfromTable hd]
    · simp [hbody hwhereClause hd]
    · simp [hbody hgroups hd]
    · simp [hbody hhaving (mem_declared_outlineIf hd)]
    · simp [hbody horders (mem_declared_outlineIf hd)]
    · simp [hbody hlimits hd]
  | setOperation _ _ ctes children orders limits hctes hchildren horders hlimits =>
    intro S d hd
    simp only [outline, declared, names_outline, List.mem_append] at hd
    simp only [walkBaseTables, listed_append]
    rcases hd with hd | hd | hd | hd
    · exact .inl (.inl (.inl (hctes [] S d hd)))
    · exact .inl (.inl (.inr (hchildren (ctes.cteNames.reverse :: S) d hd)))
    · exact .inl (.inr (horders (ctes.cteNames.reverse :: S) d hd))
    · exact .inr (hlimits (ctes.cteNames.reverse :: S) d hd)
  | recursiveCTE _ ctes left right hctes hleft hright =>
    intro S d hd
    simp only [outline, declared, names_outline, List.mem_append] at hd
    simp only [walkBaseTables, listed_append]
    rcases hd with hd | hd | hd
    · exact .inl (.inl (hctes [] S d hd))
    · exact .inl (.inr (hleft (ctes.cteNames.reverse :: S) d hd))
    · exact .inr (hright (ctes.cteNames.reverse :: S) d hd)
  | noCTEs => exact fun _ _ => hnil
  | consCTE name _ query rest hquery hrest =>
    intro before S d hd
    simp only [outline, declaredDefs, List.mem_append] at hd
    simp only [walkBaseTables, listed_append]
    refine hd.imp (fun hd => ?_) (hrest (name :: before) S d)
    have := hquery ((if query.isRecursive then name :: before else before) :: S) d hd
    split <;> simp_all

/-- The names of the references that the walk lists are collected. -/
theorem mem_tableNames_of_mem_walkBaseTables {k : Kind} (s : Syn α k) :
    ∀ scope, ∀ x ∈ walkBaseTables s scope, x.1.2.table ∈ tableNames true s := by
  induction s with
  | baseTable note ref entry =>
    intro scope x hx
    obtain rfl := List.mem_singleton.mp hx
    exact List.mem_singleton_self _
  | _ =>
    intro scope x hx
    simp only [walkBaseTables, tableNames, List.mem_append, List.not_mem_nil] at hx ⊢ <;> grind

/-- The names of the references of an outline are collected. -/
theorem mem_tableNames_of_mem_refs {k : Kind} (s : Syn α k) :
    Outline.Holds (fun t => ∀ r ∈ refs t, r.name ∈ tableNames true s) (fun _ => True)
      (fun _ => True) (outline s) := by
  have hwalk := walkBaseTables_outline s
  have hmem : ∀ {t : Text Identifier α},
      (∀ S, ∀ d ∈ declared t S, Listed (walkBaseTables s S.flatten) d) →
        ∀ r ∈ refs t, r.name ∈ tableNames true s := by
    intro t hlisted r hr
    rw [← map_fst_declared t []] at hr
    obtain ⟨d, hd, rfl⟩ := List.mem_map.mp hr
    obtain ⟨x, hx, href, -⟩ := hlisted [] d hd
    rw [← href]
    exact mem_tableNames_of_mem_walkBaseTables s _ x hx
  match k with
  | .item _ | .list _ | .tableRef => exact hmem hwalk
  | .catalogEntry => trivial
  | .cteMap => trivial

end SqliteScanner.Pushdown
