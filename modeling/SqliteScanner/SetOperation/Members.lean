import SqliteScanner.Internal.BagMap

/-!
# The members of a set operation

DuckDB converts the rows of the members of a `UNION`, `EXCEPT` or `INTERSECT` to a common type.
SQLite does not: there the integer 42 and the string '42' are different values. So the writer
converts the members itself, and `CastSetOperationChild` does it *inside* a member: it wraps the
entries of its select list into casts, and goes down into a nested set operation.

The casts then stand below everything that the member does with its rows: below its `DISTINCT`,
below an `ORDER BY` on its output columns and the `LIMIT` that cuts it, and below the nested
operators. And whatever refers to an entry of the select list sees the cast: a `GROUP BY` by
position, and an alias in another clause or in a later entry. This module has the conversion, the
meaning of a member, and the condition under which converting it from the inside is converting its
rows in the end.

## Meaning of a member

A query has *possible results*, which are bags (`Results`): SQL leaves the order of rows open that
`ORDER BY` does not tell apart, and `LIMIT` makes this visible. A `SELECT` is given by the rows of
its `FROM ... WHERE ... GROUP BY ... HAVING`, which may depend on its entries, and by what it does
with them. Types, casts, common types and the order of values are DuckDB's (`TypeSystem`).

## Main definitions

* `castSetOperationChild` — the conversion.
* `Results`, `CastsAfterwards` — the possible results of a query, and what the conversion is for.
* `CastSafe` — the condition.
-/

namespace SqliteScanner.SetOperation

open BagMap

/-! ### Types, columns and queries -/

/-- The direction of an `ORDER BY` key and where it puts `NULL`. -/
structure OrderSpec where
  descending : Bool
  nullsFirst : Bool
  deriving DecidableEq, Repr

/-- What DuckDB knows about types. -/
structure TypeSystem (Ty V : Type) where
  /-- The value of a type, cast to another one. -/
  cast : Ty → Ty → V → V
  cast_self : ∀ type value, cast type type value = value
  /-- The type to which a set operation converts two columns. -/
  commonType : Ty → Ty → Ty
  commonType_self : ∀ type, commonType type type = type
  /-- How `ORDER BY` compares two keys. -/
  compare : OrderSpec → Option V → Option V → Ordering

/-- An output column of a query over rows of type `X`. -/
structure Column (X V Ty N : Type) where
  name : N
  type : Ty
  value : X → V

/-- An entry of a select list. A star stands for one column or more. -/
inductive SelectItem (S V Ty N : Type) where
  | expr (columnAlias : Option N) (name : N) (type : Ty) (value : S → V)
  | star (first : Column S V Ty N) (rest : List (Column S V Ty N))

/-- A reference of `ORDER BY` to an output column: its position from 1 on, or its name. -/
inductive OutputKey (N : Type) where
  | position (i : ℕ)
  | name (n : N)

/-- A key of the `ORDER BY` of a `SELECT`. A name that no output column has is a column of the
`FROM` clause; any other expression is over the output columns and the `FROM` clause. -/
inductive SelectKey (S V N : Type) where
  | output (key : OutputKey N) (fromColumn : S → Option V)
  | expr (value : List V → S → V)

structure SelectNode (S V Ty N : Type) where
  /-- The node cannot be bound on its own, since it refers to an outer query. -/
  correlated : Bool
  /-- An entry may refer to those before it by alias, so it has a value for the values of the columns
  before it and a row of the source. -/
  selectList : List (SelectItem (List V × S) V Ty N)
  /-- The rows of `FROM ... WHERE ... GROUP BY ... HAVING`. A `GROUP BY` refers to entries by position, and
  all clauses refer to them by alias, so the rows depend on the values of the columns. -/
  clauses : (S → List V) → Multiset S
  distinct : Bool
  orders : List (SelectKey S V N × OrderSpec)
  limit : Option ℕ
  offset : ℕ

/-- The operators that are pushed down. -/
inductive SetOperationType where
  | unionAll
  | union
  | except
  | intersect
  deriving DecidableEq, Repr

/-- A query node. `other` stands for the nodes that are not converted, a recursive CTE among
them. -/
inductive Query (S V Ty N : Type) where
  | select (node : SelectNode S V Ty N)
  | setOperation (type : SetOperationType) (first : Query S V Ty N)
      (others : List (Query S V Ty N)) (orders : List (OutputKey N × OrderSpec))
      (limit : Option ℕ) (offset : ℕ)
  | other (columns : List (N × Ty)) (rows : Multiset (List V))

variable {S V Ty N : Type}

/-- The output columns of an entry of a select list. -/
def SelectItem.columns : SelectItem S V Ty N → List (Column S V Ty N)
  | .expr columnAlias name type value => [⟨columnAlias.getD name, type, value⟩]
  | .star first rest => first :: rest

/-- The values of columns on a row of the source, from the first to the last. -/
def rowOf (columns : List (Column (List V × S) V Ty N)) (s : S) : List V :=
  columns.foldl (fun row column => row ++ [column.value (row, s)]) []

namespace SelectNode

def columns (node : SelectNode S V Ty N) : List (Column (List V × S) V Ty N) :=
  node.selectList.flatMap SelectItem.columns

/-- The output row for a row of the source. -/
def out (node : SelectNode S V Ty N) : S → List V :=
  rowOf node.columns

def source (node : SelectNode S V Ty N) : Multiset S :=
  node.clauses node.out

end SelectNode

/-! ### What the binder infers -/

section Binding

variable (sys : TypeSystem Ty V)

/-- The common types of two members. They must have the same number of columns. -/
def commonTypes (as bs : List Ty) : Option (List Ty) :=
  if as.length = bs.length then some (List.zipWith sys.commonType as bs) else none

mutual

/-- The names and types of the columns of a query; none if it cannot be bound. A set operation has
the names of its first member. -/
def boundColumns : Query S V Ty N → Option (List (N × Ty))
  | .select node =>
    if node.correlated then none else some (node.columns.map fun column => (column.name, column.type))
  | .setOperation _ first others _ _ _ => do
    let columns ← boundColumns first
    let types ← boundTypes others (columns.map Prod.snd)
    return (columns.map Prod.fst).zip types
  | .other columns _ => some columns

/-- Go on with the common types of the members so far. -/
def boundTypes : List (Query S V Ty N) → List Ty → Option (List Ty)
  | [], types => some types
  | query :: queries, types => do
    let columns ← boundColumns query
    let types ← commonTypes sys types (columns.map Prod.snd)
    boundTypes queries types

end

/-- `InferQueryTypes`, with the names it returns. Nothing is returned if the binder fails. -/
def inferQueryTypes (query : Query S V Ty N) : List (N × Ty) :=
  (boundColumns sys query).getD []

def typesOf (query : Query S V Ty N) : List Ty :=
  (inferQueryTypes sys query).map Prod.snd

def namesOf (query : Query S V Ty N) : List N :=
  (inferQueryTypes sys query).map Prod.fst

end Binding

/-! ### `CastSetOperationChild` -/

section Conversion

variable (sys : TypeSystem Ty V) [DecidableEq Ty]

/-- Convert one entry of a select list, whose column has the given name and type. The cast keeps the
name of the column, so that it can still be referred to. -/
def castItem (item : SelectItem S V Ty N) (name : N) (childType type : Ty) :
    Except String (SelectItem S V Ty N) :=
  if childType = type then .ok item
  else match item with
    | .star _ _ => .error "set operation member with a star whose types are converted"
    | .expr columnAlias ownName ownType value =>
      .ok (.expr (some (columnAlias.getD name)) ownName type
        fun s => sys.cast ownType type (value s))

/-- The loop over the select list of a converted `SELECT`, beside the names and types of its columns
and the wanted types. -/
def castItems : List (SelectItem S V Ty N) → List (N × Ty) → List Ty →
    Except String (List (SelectItem S V Ty N))
  | item :: items, (name, childType) :: columns, type :: types => do
    let item ← castItem sys item name childType type
    let items ← castItems items columns types
    return item :: items
  | items, _, _ => .ok items

/-- Whether a node has the wanted types already. -/
def hasTypes (childTypes types : List Ty) : Except String Bool :=
  if childTypes.length ≠ types.length then .error "cannot determine the types of a set operation"
  else .ok (childTypes = types)

mutual

/-- `CastSetOperationChild`: none if the node has the wanted types already. -/
def castSetOperationChild : Query S V Ty N → List Ty → Except String (Option (Query S V Ty N))
  | .select node, types => do
    if ← hasTypes (typesOf sys (.select node)) types then return none
    else if node.selectList.length ≠ types.length then
      throw "set operation member with a star whose types are converted"
    else
      let selectList ← castItems sys node.selectList (inferQueryTypes sys (.select node)) types
      return some (.select { node with selectList := selectList })
  | .setOperation type first others orders limit offset, types => do
    if ← hasTypes (typesOf sys (.setOperation type first others orders limit offset)) types then
      return none
    else
      let castFirst ← castSetOperationChild first types
      let castOthers ← castChildren others types
      return some (.setOperation type (castFirst.getD first) castOthers orders limit offset)
  | .other columns rows, types => do
    if ← hasTypes (typesOf sys (.other (S := S) columns rows)) types then return none
    else throw "set operation member whose types are converted"

/-- The loop over the further children of a set operation. -/
def castChildren : List (Query S V Ty N) → List Ty → Except String (List (Query S V Ty N))
  | [], _ => .ok []
  | query :: queries, types => do
    let castQuery ← castSetOperationChild query types
    let castQueries ← castChildren queries types
    return castQuery.getD query :: castQueries

end

end Conversion

/-! ### Possible results -/

section Semantics

variable (sys : TypeSystem Ty V) {X : Type} [DecidableEq N] [DecidableEq V]

/-- Cast the values of a row. -/
def castRow : List Ty → List Ty → List V → List V
  | fromType :: fromTypes, type :: types, value :: values =>
    sys.cast fromType type value :: castRow fromTypes types values
  | _, _, row => row

/-- The columns with their values cast. -/
def castColumns (columns : List (Column X V Ty N)) (types : List Ty) : List (Column X V Ty N) :=
  List.zipWith (fun column type =>
    ⟨column.name, type, fun x => sys.cast column.type type (column.value x)⟩) columns types

/-- The output column that a key refers to, given the names of the columns. -/
def OutputKey.index (names : List N) : OutputKey N → Option ℕ
  | .position i => if i = 0 then none else some (i - 1)
  | .name n => names.findIdx? fun name => name = n

/-- Compare two rows by a list of keys. -/
def keysLe : List ((X → Option V) × OrderSpec) → X → X → Prop
  | [], _, _ => True
  | (key, spec) :: keys, x, y =>
    match sys.compare spec (key x) (key y) with
    | .lt => True
    | .eq => keysLe keys x y
    | .gt => False

/-- The key of a row of the source, given the output columns. -/
def SelectKey.value (columns : List (Column (List V × S) V Ty N)) : SelectKey S V N → S → Option V
  | .output key fromColumn, s =>
    match key.index (columns.map Column.name) with
    | some i => (rowOf columns s)[i]?
    | none => fromColumn s
  | .expr value, s => some (value (rowOf columns s) s)

/-- The order of the rows of the source, given the output columns. -/
def selectLe (columns : List (Column (List V × S) V Ty N)) (orders : List (SelectKey S V N × OrderSpec)) :
    S → S → Prop :=
  keysLe sys (orders.map fun order => (order.1.value columns, order.2))

/-- The order of the rows of a set operation, given the names of its columns. -/
def rowLe (names : List N) (orders : List (OutputKey N × OrderSpec)) : List V → List V → Prop :=
  keysLe sys (orders.map fun order =>
    (fun row => (order.1.index names).bind fun i => row[i]?, order.2))

/-- The rows of the source that `DISTINCT` leaves: one for each output row. -/
def Chosen (node : SelectNode S V Ty N) (D : Multiset S) : Prop :=
  if node.distinct then
    D ≤ node.source ∧ (D.map node.out).Nodup ∧ ∀ s ∈ node.source, node.out s ∈ D.map node.out
  else D = node.source

/-- The rows of a set operation, before its `ORDER BY` and `LIMIT`. -/
def combine : SetOperationType → Multiset (List V) → List (Multiset (List V)) → Multiset (List V)
  | .unionAll, A, Bs => A + Bs.sum
  | .union, A, Bs => (A + Bs.sum).dedup
  | .except, A, Bs => except A Bs.sum
  | .intersect, A, Bs => intersect A Bs

mutual

/-- The possible results of a query. The members of a set operation are converted to its types. -/
def Results : Query S V Ty N → Multiset (List V) → Prop
  | .select node, M => ∃ D W, Chosen node D ∧
      Window (selectLe sys node.columns node.orders) node.limit node.offset D W ∧
      M = W.map node.out
  | .setOperation type first others orders limit offset, M =>
    let query := Query.setOperation type first others orders limit offset
    ∃ A Bs, Results first A ∧ ResultsAs others (typesOf sys query) Bs ∧
      Window (rowLe sys (namesOf sys query) orders) limit offset
        (combine type (A.map (castRow sys (typesOf sys first) (typesOf sys query))) Bs) M
  | .other _ rows, M => M = rows

/-- Possible results of several queries, converted to the given types. -/
def ResultsAs : List (Query S V Ty N) → List Ty → List (Multiset (List V)) → Prop
  | [], _, Bs => Bs = []
  | query :: queries, types, Bs => ∃ B Bs', Results query B ∧ ResultsAs queries types Bs' ∧
      Bs = B.map (castRow sys (typesOf sys query) types) :: Bs'

end

/-- **What the conversion is for**: the possible results of the node that is used for a member are
those of the member, with their values cast afterwards. -/
def CastsAfterwards [DecidableEq Ty] (query : Query S V Ty N) (types : List Ty) : Prop :=
  ∀ cast, castSetOperationChild sys query types = .ok cast →
    ∀ M, Results sys (cast.getD query) M ↔
      ∃ M₀, Results sys query M₀ ∧ M = M₀.map (castRow sys (typesOf sys query) types)

/-! ### When the conversion may be moved inside -/

/-- The exact condition for a map under an operator. -/
def OperatorSafe (f : List V → List V) (A : Multiset (List V)) (Bs : List (Multiset (List V))) :
    SetOperationType → Prop
  | .unionAll => True
  -- no two different rows become equal
  | .union => Set.InjOn f {row | row ∈ A + Bs.sum}
  -- no two different rows that remain become equal, nor one of them and one that is taken away
  | .except => Set.InjOn f {row | row ∈ A ∧ row ∉ Bs.sum} ∧
      ∀ row ∈ A, row ∉ Bs.sum → f row ∉ Bs.sum.map f
  -- no two different common rows become equal, and rows that are not common only become equal if
  -- a common row becomes the same
  | .intersect => Set.InjOn f {row | row ∈ A ∧ ∀ B ∈ Bs, row ∈ B} ∧
      ∀ row ∈ A, (∀ B ∈ Bs, f row ∈ B.map f) →
        ∃ row' ∈ A, (∀ B ∈ Bs, row' ∈ B) ∧ f row' = f row

/-- What the conversion of a `SELECT` must not disturb: its `DISTINCT`, the rows of its clauses, whose
entries are the converted ones where they refer to them, and the order in which its `LIMIT` and `OFFSET`
count. -/
def SelectSafe (node : SelectNode S V Ty N) (types : List Ty) : Prop :=
  let f := castRow sys (typesOf sys (.select node)) types
  let columns := castColumns sys node.columns types
  let source := node.clauses (rowOf columns)
  (node.distinct = true → Set.InjOn f {row | row ∈ node.source.map node.out}) ∧
    if node.limit = none ∧ node.offset = 0 then
      if node.distinct then
        ∀ row, row ∈ source.map (rowOf columns) ↔ row ∈ (node.source.map node.out).map f
      else source.map (rowOf columns) = (node.source.map node.out).map f
    else source = node.source ∧ (∀ s ∈ source, rowOf columns s = f (node.out s)) ∧
      ∀ s ∈ source, ∀ s' ∈ source,
        selectLe sys columns node.orders s s' ↔ selectLe sys node.columns node.orders s s'

/-- Casting a value of a member to the wanted type is casting it to the type of the set operation
first. -/
def MembersCompose (queries : List (Query S V Ty N)) (via types : List Ty) : Prop :=
  ∀ query ∈ queries, ∀ M, Results sys query M → ∀ row ∈ M,
    castRow sys (typesOf sys query) types row =
      castRow sys via types (castRow sys (typesOf sys query) via row)

mutual

/-- The condition on a member. -/
def CastSafe : Query S V Ty N → List Ty → Prop
  | .select node, types => typesOf sys (.select node) = types ∨ SelectSafe sys node types
  | .setOperation type first others orders limit offset, types =>
    let query := Query.setOperation type first others orders limit offset
    let f := castRow sys (typesOf sys query) types
    typesOf sys query = types ∨
      -- the members of the member
      (CastSafe first types ∧ AllCastSafe others types ∧
        MembersCompose sys (first :: others) (typesOf sys query) types) ∧
      -- its operator, and the order in which its own `LIMIT` and `OFFSET` count
      ∀ A Bs, Results sys first A → ResultsAs sys others (typesOf sys query) Bs →
        let A' := A.map (castRow sys (typesOf sys first) (typesOf sys query))
        OperatorSafe f A' Bs type ∧
          ((limit = none ∧ offset = 0) ∨
            ∀ row ∈ combine type A' Bs, ∀ row' ∈ combine type A' Bs,
              rowLe sys (namesOf sys query) orders (f row) (f row') ↔
                rowLe sys (namesOf sys query) orders row row')
  | .other _ _, _ => True

def AllCastSafe : List (Query S V Ty N) → List Ty → Prop
  | [], _ => True
  | query :: queries, types => CastSafe query types ∧ AllCastSafe queries types

end

end Semantics

end SqliteScanner.SetOperation
