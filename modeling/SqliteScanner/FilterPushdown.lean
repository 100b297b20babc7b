import Mathlib.Data.List.Basic
import Mathlib.Data.Set.Basic

/-!
# Filter pushdown

DuckDB hands a scan a set of column filters. `SQLiteFilterPushdown::TransformFilters` turns what it
can into one SQL condition for SQLite and leaves the rest as scan filters, which
`SqliteApplyFilters` evaluates on every chunk. A conjunct may go to either side; what must not
happen is that it goes to neither, or that a row is dropped that satisfies all of them.

A filter is walked through its top-level `AND`s. Each leaf is pushed, or is *internal* (it only
prunes and may be skipped), or makes the whole filter incomplete; then the filter is evaluated
again, as a whole, in DuckDB. `transformFilter_eq` gives the walk in closed form, and everything
else follows from it.

## What is assumed

The translation of a single leaf, `FilterPushdown::TransformFilterExpression`, and the test for
internal filters are library code that is not part of this repository. They are the fields of
`FilterLibrary`; what the translation promises is `FilterLibrary.Correct`. The meaning of SQL text
is `SqlSemantics`, of which only the reading of a chain of `AND`s is used.

## Main results

* `hasNulByteConstant_iff` — the guard sees every constant it visits.
* `applyFilters_eq` — the loop over the scan filters keeps the rows that pass all of them.
* `transformFilters_sound` — no row is lost or let through, and no NUL byte reaches the SQL text.
-/

namespace SqliteScanner.FilterPushdown

/-! ### Filter expressions -/

/-- The types that a scanned column can have. -/
inductive LogicalTypeId where
  | bigint
  | varchar
  | double
  | blob
  | date
  | timestamp
  deriving DecidableEq, Repr

/-- A constant. Only strings are looked into; `other` stands for the values of all other types. -/
inductive Value where
  | null
  | bigint (n : ℤ)
  | varchar (s : String)
  | other (text : String)
  deriving DecidableEq, Repr

inductive ConjunctionType where
  | conjunctionAnd
  | conjunctionOr
  deriving DecidableEq, Repr

/-- The names of bound functions that the code distinguishes. -/
inductive FunctionName where
  | optionalFilter
  | selectivityOptionalFilter
  | other (name : String)
  deriving DecidableEq, Repr

/-- `OptionalFilterScalarFun::NAME` or `SelectivityOptionalFilterScalarFun::NAME`. -/
def FunctionName.isOptionalFilter : FunctionName → Bool
  | .optionalFilter | .selectivityOptionalFilter => true
  | .other _ => false

/-- The other classes of expressions; the code only enumerates their children. -/
inductive ExpressionClass where
  | boundReference
  | boundComparison
  | boundOperator
  | boundCast
  | boundBetween
  | boundCase
  deriving DecidableEq, Repr

mutual

/-- A bound filter expression. -/
inductive Expression where
  | constant (value : Value)
  | conjunction (type : ConjunctionType) (children : List Expression)
  | function (name : FunctionName) (bindInfo : BindInfo) (children : List Expression)
  | other (cls : ExpressionClass) (children : List Expression)

/-- The bind data of a function: absent, or the data of an optional filter, whose
`child_filter_expr` may be null. -/
inductive BindInfo where
  | null
  | noChild
  | childFilter (child : Expression)

end

def BindInfo.isNull : BindInfo → Bool
  | .null => true
  | .noChild | .childFilter _ => false

/-- The string contains a NUL byte. -/
def hasNulByte (s : String) : Bool :=
  s.toList.contains '\x00'

mutual

/-- `HasNulByteConstant`: SQLite reads a statement up to its first NUL byte, so such a string cannot
be written into the query. Of an optional filter only the wrapped filter is looked at. -/
def hasNulByteConstant : Expression → Bool
  | .constant (.varchar s) => hasNulByte s
  | .constant _ => false
  | .function name bindInfo children =>
    if name.isOptionalFilter && !bindInfo.isNull then bindHasNulByteConstant bindInfo
    else anyHasNulByteConstant children
  | .conjunction _ children | .other _ children => anyHasNulByteConstant children

def bindHasNulByteConstant : BindInfo → Bool
  | .null | .noChild => false
  | .childFilter child => hasNulByteConstant child

def anyHasNulByteConstant : List Expression → Bool
  | [] => false
  | e :: es => hasNulByteConstant e || anyHasNulByteConstant es

end

mutual

/-- The string constants that `HasNulByteConstant` visits. -/
def visitedConstants : Expression → List String
  | .constant (.varchar s) => [s]
  | .constant _ => []
  | .function name bindInfo children =>
    if name.isOptionalFilter && !bindInfo.isNull then bindVisitedConstants bindInfo
    else listVisitedConstants children
  | .conjunction _ children | .other _ children => listVisitedConstants children

def bindVisitedConstants : BindInfo → List String
  | .null | .noChild => []
  | .childFilter child => visitedConstants child

def listVisitedConstants : List Expression → List String
  | [] => []
  | e :: es => visitedConstants e ++ listVisitedConstants es

end

mutual

/-- The guard is true exactly when a visited string has a NUL byte, however deep it lies. -/
theorem hasNulByteConstant_iff : ∀ e : Expression,
    hasNulByteConstant e = true ↔ ∃ s ∈ visitedConstants e, hasNulByte s = true
  | .constant (.varchar s) => by simp [hasNulByteConstant, visitedConstants]
  | .constant .null | .constant (.bigint _) | .constant (.other _) => by
    simp [hasNulByteConstant, visitedConstants]
  | .function name bindInfo children => by
    rw [hasNulByteConstant, visitedConstants]
    by_cases hopt : (name.isOptionalFilter && !bindInfo.isNull) = true
    · rw [if_pos hopt, if_pos hopt]
      exact bindHasNulByteConstant_iff bindInfo
    · rw [if_neg hopt, if_neg hopt]
      exact anyHasNulByteConstant_iff children
  | .conjunction _ children | .other _ children => by
    rw [hasNulByteConstant, visitedConstants]
    exact anyHasNulByteConstant_iff children

theorem bindHasNulByteConstant_iff : ∀ b : BindInfo,
    bindHasNulByteConstant b = true ↔ ∃ s ∈ bindVisitedConstants b, hasNulByte s = true
  | .null | .noChild => by simp [bindHasNulByteConstant, bindVisitedConstants]
  | .childFilter child => by
    rw [bindHasNulByteConstant, bindVisitedConstants]
    exact hasNulByteConstant_iff child

theorem anyHasNulByteConstant_iff : ∀ es : List Expression,
    anyHasNulByteConstant es = true ↔ ∃ s ∈ listVisitedConstants es, hasNulByte s = true
  | [] => by simp [anyHasNulByteConstant, listVisitedConstants]
  | e :: es => by
    rw [anyHasNulByteConstant, listVisitedConstants, Bool.or_eq_true, hasNulByteConstant_iff e,
      anyHasNulByteConstant_iff es]
    simp only [List.mem_append, or_and_right, exists_or]

end

/-! ### The meaning of a filter

A filter is evaluated on the value of its column, in three-valued logic. DuckDB's evaluation of a
leaf is a parameter; the top-level `AND`s are evaluated here. -/

/-- Kleene conjunction. -/
def and3 : Option Bool → Option Bool → Option Bool
  | some false, _ => some false
  | some true, b => b
  | none, some false => some false
  | none, _ => none

theorem and3_eq_true {a b : Option Bool} :
    and3 a b = some true ↔ a = some true ∧ b = some true := by
  rcases a with _ | _ | _ <;> rcases b with _ | _ | _ <;> simp [and3]

mutual

/-- The value of a filter, given the value of each conjunct. -/
def eval (leaf : Expression → Value → Option Bool) : Expression → Value → Option Bool
  | .conjunction .conjunctionAnd children, v => evalAnd leaf children v
  | e, v => leaf e v

def evalAnd (leaf : Expression → Value → Option Bool) : List Expression → Value → Option Bool
  | [], _ => some true
  | e :: es, v => and3 (eval leaf e v) (evalAnd leaf es v)

end

mutual

/-- The conjuncts of a filter: the leaves of its tree of `AND`s. -/
def conjuncts : Expression → List Expression
  | .conjunction .conjunctionAnd children => listConjuncts children
  | e => [e]

def listConjuncts : List Expression → List Expression
  | [] => []
  | e :: es => conjuncts e ++ listConjuncts es

end

section Eval

variable (leaf : Expression → Value → Option Bool) (v : Value)

mutual

/-- A filter is true when all its conjuncts are. -/
theorem eval_eq_true : ∀ e : Expression,
    eval leaf e v = some true ↔ ∀ c ∈ conjuncts e, leaf c v = some true
  | .conjunction .conjunctionAnd children => by
    rw [eval, conjuncts]
    exact evalAnd_eq_true children
  | .conjunction .conjunctionOr _ | .constant _ | .function _ _ _ | .other _ _ => by
    simp [eval, conjuncts]

theorem evalAnd_eq_true : ∀ es : List Expression,
    evalAnd leaf es v = some true ↔ ∀ c ∈ listConjuncts es, leaf c v = some true
  | [] => by simp [evalAnd, listConjuncts]
  | e :: es => by
    rw [evalAnd, listConjuncts, and3_eq_true, eval_eq_true e, evalAnd_eq_true es,
      List.forall_mem_append]

end

end Eval

/-! ### The library and the database -/

/-- A column of the scanned table; `rowId` is `COLUMN_IDENTIFIER_ROW_ID`. -/
inductive ColumnId where
  | rowId
  | column (i : ℕ)
  deriving DecidableEq, Repr

/-- A row of the scanned table. -/
abbrev Row := ColumnId → Value

/-- The functions of `dbconnector` that the pushdown calls. The configuration of the translation is
the fixed one of `CreateSQLiteConfig` and is not an argument here. -/
structure FilterLibrary where
  /-- `FilterPushdown::TransformFilterExpression`, for a column name; empty if it has no SQL. -/
  transformFilterExpression : String → Expression → String
  /-- `FilterUtil::IsInternalExpression`. -/
  isInternalExpression : Expression → Bool

/-- What SQLite makes of the text of a condition. -/
structure SqlSemantics where
  /-- The condition is true on a row. -/
  holds : String → Row → Bool
  /-- The string constants that occur in the text. -/
  constants : String → Set String
  /-- The text is one condition that no surrounding `AND` takes apart. -/
  SelfDelimiting : String → Prop
  holds_join : ∀ cs, cs ≠ [] → (∀ c ∈ cs, SelfDelimiting c) → ∀ row,
    (holds (" AND ".intercalate cs) row = true ↔ ∀ c ∈ cs, holds c row = true)
  constants_join : ∀ cs, (∀ c ∈ cs, SelfDelimiting c) → ∀ s,
    (s ∈ constants (" AND ".intercalate cs) ↔ ∃ c ∈ cs, s ∈ constants c)

/-- The columns of the scanned table, as bound. -/
structure SqliteBindData where
  rowidName : String
  allVarchar : Bool
  types : List LogicalTypeId
  utf8TextAffinity : List Bool
  names : List String
  names_length : names.length = types.length

/-- `SQLiteUtils::SanitizeIdentifier`: a quote is doubled. -/
def sanitizeIdentifier (name : String) : String :=
  String.ofList (name.toList.flatMap fun c => if c = '"' then ['"', '"'] else [c])

/-- `CanPushColumn`: whether SQLite compares the values of a column the same way DuckDB does. -/
def canPushColumn (bindData : SqliteBindData) : ColumnId → Bool
  | .rowId => bindData.rowidName != ""
  | .column i =>
    match bindData.types[i]?, bindData.utf8TextAffinity[i]? with
    | some type, some textAffinity =>
      !bindData.allVarchar &&
        match type with
        | .bigint => true
        | .varchar => textAffinity
        | .double | .blob | .date | .timestamp => false
    | _, _ => false

/-- The name under which `TransformFilters` writes a column. DuckDB compares strings byte by byte,
whatever collation the column has in SQLite. -/
def columnName (bindData : SqliteBindData) : ColumnId → String
  | .rowId => bindData.rowidName
  | .column i =>
    let name := "\"" ++ sanitizeIdentifier (bindData.names.getD i "") ++ "\""
    if bindData.types[i]? = some .varchar then name ++ " COLLATE BINARY" else name

/-- What the translation of a leaf promises on a pushable column: one self-delimiting condition,
with the truth value of the filter, and with no string constants but those of the filter. -/
structure FilterLibrary.Correct (lib : FilterLibrary) (sql : SqlSemantics)
    (leaf : Expression → Value → Option Bool) (bindData : SqliteBindData) : Prop where
  selfDelimiting : ∀ id e, canPushColumn bindData id = true →
    lib.transformFilterExpression (columnName bindData id) e ≠ "" →
      sql.SelfDelimiting (lib.transformFilterExpression (columnName bindData id) e)
  equivalent : ∀ id e, canPushColumn bindData id = true →
    lib.transformFilterExpression (columnName bindData id) e ≠ "" → ∀ row,
      (sql.holds (lib.transformFilterExpression (columnName bindData id) e) row = true ↔
        leaf e (row id) = some true)
  constants : ∀ id e, canPushColumn bindData id = true →
    ∀ s ∈ sql.constants (lib.transformFilterExpression (columnName bindData id) e),
      s ∈ visitedConstants e

/-! ### The walk over one filter -/

section Walk

variable (lib : FilterLibrary) (name : String)

/-- The condition that is pushed for a leaf; empty if none is. -/
def leafCondition (e : Expression) : String :=
  if hasNulByteConstant e then "" else lib.transformFilterExpression name e

/-- `TransformFilter` below its test for a conjunction. -/
def transformLeaf (e : Expression) (conditions : List String) : Bool × List String :=
  let condition := leafCondition lib name e
  if condition != "" then (true, conditions ++ [condition])
  -- internal filters only prune rows, they can be skipped
  else (lib.isInternalExpression e, conditions)

mutual

/-- `TransformFilter`: adds the conditions of a filter that SQLite can evaluate, and returns false
if part of the filter must be evaluated in DuckDB. -/
def transformFilter : Expression → List String → Bool × List String
  | .conjunction .conjunctionAnd children, conditions => transformChildren children true conditions
  | e, conditions => transformLeaf lib name e conditions

def transformChildren : List Expression → Bool → List String → Bool × List String
  | [], complete, conditions => (complete, conditions)
  | e :: es, complete, conditions =>
    let (childComplete, conditions) := transformFilter e conditions
    transformChildren es (childComplete && complete) conditions

end

/-- The conditions of a list of conjuncts. -/
def pushedConditions (es : List Expression) : List String :=
  (es.map (leafCondition lib name)).filter (· != "")

/-- A conjunct needs no evaluation in DuckDB. -/
def settled (e : Expression) : Bool :=
  leafCondition lib name e != "" || lib.isInternalExpression e

theorem transformLeaf_eq (e : Expression) (conditions : List String) :
    transformLeaf lib name e conditions =
      (settled lib name e, conditions ++ pushedConditions lib name [e]) := by
  by_cases hc : leafCondition lib name e = ""
  · simp [transformLeaf, settled, pushedConditions, hc]
  · simp [transformLeaf, settled, pushedConditions, hc]

mutual

/-- **The walk in closed form**: every conjunct that has SQL is pushed, in order, and the filter is
complete when each conjunct is pushed or internal. -/
theorem transformFilter_eq : ∀ (e : Expression) (conditions : List String),
    transformFilter lib name e conditions =
      ((conjuncts e).all (settled lib name),
        conditions ++ pushedConditions lib name (conjuncts e))
  | .conjunction .conjunctionAnd children, conditions => by
    rw [transformFilter, conjuncts, transformChildren_eq children, Bool.and_true]
  | .conjunction .conjunctionOr _, conditions | .constant _, conditions
  | .function _ _ _, conditions | .other _ _, conditions => by
    simp only [transformFilter, conjuncts, transformLeaf_eq, List.all_cons, List.all_nil,
      Bool.and_true]

theorem transformChildren_eq : ∀ (es : List Expression) (complete : Bool)
    (conditions : List String),
    transformChildren lib name es complete conditions =
      ((listConjuncts es).all (settled lib name) && complete,
        conditions ++ pushedConditions lib name (listConjuncts es))
  | [], complete, conditions => by simp [transformChildren, listConjuncts, pushedConditions]
  | e :: es, complete, conditions => by
    rw [transformChildren, transformFilter_eq e, listConjuncts]
    simp only [transformChildren_eq es, List.all_append, pushedConditions, List.map_append,
      List.filter_append, List.append_assoc]
    congr 1
    ac_rfl

end

end Walk

/-! ### All filters of a scan -/

/-- An entry of the `TableFilterSet` of a scan that reads `n` columns. -/
structure TableFilter (n : ℕ) where
  columnIndex : Fin n
  filter : Expression

/-- A filter that is left to DuckDB. -/
abbrev SQLiteScanFilter := TableFilter

section Scan

variable {n : ℕ} (lib : FilterLibrary) (bindData : SqliteBindData) (columnIds : Fin n → ColumnId)

/-- The loop of `TransformFilters`, with the conditions and the scan filters it has collected. -/
def transformEntries : List (TableFilter n) → List String → List (SQLiteScanFilter n) →
    List String × List (SQLiteScanFilter n)
  | [], conditions, scanFilters => (conditions, scanFilters)
  | entry :: entries, conditions, scanFilters =>
    let columnId := columnIds entry.columnIndex
    let (complete, conditions) :=
      if canPushColumn bindData columnId then
        transformFilter lib (columnName bindData columnId) entry.filter conditions
      else (false, conditions)
    let scanFilters := if complete then scanFilters else scanFilters ++ [entry]
    transformEntries entries conditions scanFilters

/-- `SQLiteFilterPushdown::TransformFilters`: the SQL condition, empty if there is none, and the
filters that are left for the scan. -/
def transformFilters (filters : Option (List (TableFilter n))) :
    String × List (SQLiteScanFilter n) :=
  match filters with
  | none | some [] => ("", [])
  | some entries =>
    let (conditions, scanFilters) := transformEntries lib bindData columnIds entries [] []
    (" AND ".intercalate conditions, scanFilters)

variable (leaf : Expression → Value → Option Bool)

/-- A row passes a filter. -/
def passes (entry : TableFilter n) (row : Row) : Bool :=
  eval leaf entry.filter (row (columnIds entry.columnIndex)) == some true

/-- The loop of `SqliteApplyFilters`: each filter narrows the selection, up to an empty one. -/
def applyLoop : List (SQLiteScanFilter n) → List Row → List Row
  | [], approved => approved
  | filter :: filters, approved =>
    let approved := approved.filter (passes columnIds leaf filter)
    if approved.isEmpty then approved else applyLoop filters approved

/-- `SqliteApplyFilters` on the rows of a chunk. -/
def applyFilters (filters : List (SQLiteScanFilter n)) (output : List Row) : List Row :=
  if filters.isEmpty || output.isEmpty then output else applyLoop columnIds leaf filters output

theorem applyLoop_eq (filters : List (SQLiteScanFilter n)) (rows : List Row) :
    applyLoop columnIds leaf filters rows =
      rows.filter fun row => filters.all fun filter => passes columnIds leaf filter row := by
  induction filters generalizing rows with
  | nil => simp [applyLoop]
  | cons filter filters ih =>
    simp only [applyLoop, List.all_cons, ← List.filter_filter]
    split
    · rename_i hempty
      rw [List.filter_filter, List.filter_congr fun _ _ => Bool.and_comm _ _,
        ← List.filter_filter]
      simp [List.isEmpty_iff.mp hempty]
    · rw [ih, List.filter_filter, List.filter_filter]
      exact List.filter_congr fun _ _ => Bool.and_comm _ _

/-- The scan filters keep the rows that pass all of them. -/
theorem applyFilters_eq (filters : List (SQLiteScanFilter n)) (rows : List Row) :
    applyFilters columnIds leaf filters rows =
      rows.filter fun row => filters.all fun filter => passes columnIds leaf filter row := by
  rw [applyFilters]
  split
  · rename_i hempty
    rcases Bool.or_eq_true _ _ |>.mp hempty with h | h
    · simp [List.isEmpty_iff.mp h]
    · simp [List.isEmpty_iff.mp h]
  · exact applyLoop_eq columnIds leaf filters rows

/-- The rows of a chunk of `table` that reach DuckDB: SQLite drops those on which the condition is
not true, and the scan filters drop more. -/
def scanRows (sql : SqlSemantics) (filters : Option (List (TableFilter n))) (table : List Row) :
    List Row :=
  let (condition, scanFilters) := transformFilters lib bindData columnIds filters
  applyFilters columnIds leaf scanFilters
    (table.filter fun row => condition == "" || sql.holds condition row)

/-! ### Soundness -/

/-- The conditions that one entry adds. -/
def entryConditions (entry : TableFilter n) : List String :=
  if canPushColumn bindData (columnIds entry.columnIndex) then
    pushedConditions lib (columnName bindData (columnIds entry.columnIndex)) (conjuncts entry.filter)
  else []

/-- The entry is not evaluated again in DuckDB. -/
def entryComplete (entry : TableFilter n) : Bool :=
  canPushColumn bindData (columnIds entry.columnIndex) &&
    (conjuncts entry.filter).all
      (settled lib (columnName bindData (columnIds entry.columnIndex)))

theorem transformEntries_eq (entries : List (TableFilter n)) (conditions : List String)
    (scanFilters : List (SQLiteScanFilter n)) :
    transformEntries lib bindData columnIds entries conditions scanFilters =
      (conditions ++ entries.flatMap (entryConditions lib bindData columnIds),
        scanFilters ++ entries.filter fun entry => !entryComplete lib bindData columnIds entry) := by
  induction entries generalizing conditions scanFilters with
  | nil => simp [transformEntries]
  | cons entry entries ih =>
    by_cases hpush : canPushColumn bindData (columnIds entry.columnIndex) = true
    · by_cases hall : (conjuncts entry.filter).all
          (settled lib (columnName bindData (columnIds entry.columnIndex))) = true
      · simp only [transformEntries, hpush, if_true, transformFilter_eq, ih, entryConditions,
          entryComplete, hall, List.flatMap_cons, List.append_assoc, Bool.and_self, Bool.not_true,
          Bool.false_eq_true, not_false_eq_true, List.filter_cons_of_neg]
      · simp only [transformEntries, hpush, if_true, transformFilter_eq, ih, entryConditions,
          entryComplete, hall, List.flatMap_cons, List.append_assoc, Bool.true_and, Bool.not_false,
          Bool.false_eq_true, if_false, List.filter_cons_of_pos, List.singleton_append]
    · simp only [transformEntries, hpush, Bool.false_eq_true, if_false, ih, entryConditions,
        entryComplete, List.flatMap_cons, List.nil_append, Bool.false_and, Bool.not_false,
        List.filter_cons_of_pos, List.append_assoc, List.singleton_append]

theorem transformFilters_eq (filters : Option (List (TableFilter n))) :
    transformFilters lib bindData columnIds filters =
      (" AND ".intercalate ((filters.getD []).flatMap (entryConditions lib bindData columnIds)),
        (filters.getD []).filter fun entry => !entryComplete lib bindData columnIds entry) := by
  rcases filters with _ | _ | ⟨entry, entries⟩
  · rfl
  · rfl
  · simp only [transformFilters, transformEntries_eq, List.nil_append, Option.getD_some]

end Scan

theorem intercalate_ne_empty {cs : List String} (hcs : cs ≠ []) (hne : ∀ c ∈ cs, c ≠ "") :
    " AND ".intercalate cs ≠ "" := by
  intro hempty
  obtain ⟨c, cs, rfl⟩ := List.exists_cons_of_ne_nil hcs
  have hlist := congrArg String.toList hempty
  rw [String.toList_intercalate] at hlist
  have hc : c.toList = [] := by
    cases cs with
    | nil => simpa using hlist
    | cons d ds => simp_all
  exact hne c (by simp) (String.toList_eq_nil_iff.mp hc)

section Sound

variable {n : ℕ} {lib : FilterLibrary} {sql : SqlSemantics} {bindData : SqliteBindData}
variable {leaf : Expression → Value → Option Bool} {columnIds : Fin n → ColumnId}

/-- A pushed condition is the translation of a conjunct that passed the guard, on a column that can
be pushed. -/
theorem mem_entryConditions {entry : TableFilter n} {c : String} :
    c ∈ entryConditions lib bindData columnIds entry ↔
      canPushColumn bindData (columnIds entry.columnIndex) = true ∧
      ∃ e ∈ conjuncts entry.filter, hasNulByteConstant e = false ∧ c ≠ "" ∧
        lib.transformFilterExpression
          (columnName bindData (columnIds entry.columnIndex)) e = c := by
  by_cases hpush : canPushColumn bindData (columnIds entry.columnIndex) = true
  · simp only [entryConditions, hpush, if_true, pushedConditions, List.mem_filter, List.mem_map,
      bne_iff_ne, true_and]
    constructor
    · rintro ⟨⟨e, he, rfl⟩, hne⟩
      by_cases hnul : hasNulByteConstant e = true
      · simp [leafCondition, hnul] at hne
      · exact ⟨e, he, by simpa using hnul, hne, by simp [leafCondition, hnul]⟩
    · rintro ⟨e, he, hnul, hne, rfl⟩
      exact ⟨⟨e, he, by simp [leafCondition, hnul]⟩, hne⟩
  · simp [entryConditions, hpush]

/-- The conditions of an entry are true on a row when its pushed conjuncts are. -/
theorem entryConditions_hold (hlib : lib.Correct sql leaf bindData) (entry : TableFilter n)
    (row : Row) :
    (∀ c ∈ entryConditions lib bindData columnIds entry, sql.holds c row = true) ↔
      ∀ e ∈ conjuncts entry.filter, canPushColumn bindData (columnIds entry.columnIndex) = true →
        leafCondition lib (columnName bindData (columnIds entry.columnIndex)) e ≠ "" →
          leaf e (row (columnIds entry.columnIndex)) = some true := by
  constructor
  · intro hall e he hpush hne
    by_cases hnul : hasNulByteConstant e = true
    · simp [leafCondition, hnul] at hne
    · simp only [leafCondition, hnul, Bool.false_eq_true, if_false] at hne
      rw [← hlib.equivalent _ e hpush hne]
      exact hall _ (mem_entryConditions.mpr ⟨hpush, e, he, by simpa using hnul, hne, rfl⟩)
  · intro hall c hc
    obtain ⟨hpush, e, he, hnul, hne, rfl⟩ := mem_entryConditions.mp hc
    rw [hlib.equivalent _ e hpush hne]
    exact hall e he hpush (by simpa [leafCondition, hnul] using hne)

theorem mem_conditions (hlib : lib.Correct sql leaf bindData) {entries : List (TableFilter n)}
    {c : String} (hc : c ∈ entries.flatMap (entryConditions lib bindData columnIds)) :
    c ≠ "" ∧ sql.SelfDelimiting c := by
  obtain ⟨entry, _, hc⟩ := List.mem_flatMap.mp hc
  obtain ⟨hpush, e, _, _, hne, rfl⟩ := mem_entryConditions.mp hc
  exact ⟨hne, hlib.selfDelimiting _ e hpush hne⟩

/-- SQLite lets a row through when all conditions are true on it. -/
theorem where_iff (hlib : lib.Correct sql leaf bindData) (entries : List (TableFilter n))
    (row : Row) :
    (" AND ".intercalate (entries.flatMap (entryConditions lib bindData columnIds)) == "" ||
        sql.holds (" AND ".intercalate (entries.flatMap (entryConditions lib bindData columnIds)))
          row) = true ↔
      ∀ entry ∈ entries, ∀ c ∈ entryConditions lib bindData columnIds entry,
        sql.holds c row = true := by
  by_cases hnil : entries.flatMap (entryConditions lib bindData columnIds) = []
  · simp only [hnil, String.intercalate_nil, BEq.rfl, Bool.true_or, true_iff]
    intro entry hentry c hc
    rw [List.flatMap_eq_nil_iff.mp hnil entry hentry] at hc
    simp at hc
  · rw [Bool.or_eq_true, beq_iff_eq,
      or_iff_right (intercalate_ne_empty hnil fun c hc => (mem_conditions hlib hc).1),
      sql.holds_join _ hnil fun c hc => (mem_conditions hlib hc).2]
    simp only [List.mem_flatMap]
    exact ⟨fun h entry hentry c hc => h c ⟨entry, hentry, hc⟩,
      fun h c ⟨entry, hentry, hc⟩ => h entry hentry c hc⟩

variable (lib sql bindData leaf columnIds) in
/-- SQLite and the scan filters let a row through. -/
def letsThrough (filters : Option (List (TableFilter n))) (row : Row) : Bool :=
  let (condition, scanFilters) := transformFilters lib bindData columnIds filters
  (condition == "" || sql.holds condition row) &&
    scanFilters.all fun filter => passes columnIds leaf filter row

theorem scanRows_eq (filters : Option (List (TableFilter n))) (table : List Row) :
    scanRows lib bindData columnIds leaf sql filters table =
      table.filter (letsThrough lib sql bindData leaf columnIds filters) := by
  simp only [scanRows, applyFilters_eq, List.filter_filter]
  exact List.filter_congr fun row _ => Bool.and_comm _ _

theorem letsThrough_iff (hlib : lib.Correct sql leaf bindData)
    (filters : Option (List (TableFilter n))) (row : Row) :
    letsThrough lib sql bindData leaf columnIds filters row = true ↔
      (∀ entry ∈ filters.getD [], ∀ c ∈ entryConditions lib bindData columnIds entry,
        sql.holds c row = true) ∧
      ∀ entry ∈ filters.getD [], entryComplete lib bindData columnIds entry = false →
        passes columnIds leaf entry row = true := by
  rw [letsThrough, transformFilters_eq, Bool.and_eq_true, where_iff hlib, List.all_eq_true]
  simp only [List.mem_filter, Bool.not_eq_true', and_imp]

/-- What SQLite does not check is internal, or the whole entry is checked again. -/
theorem conjunct_of_letsThrough (hlib : lib.Correct sql leaf bindData)
    {filters : Option (List (TableFilter n))} {row : Row}
    (hrow : letsThrough lib sql bindData leaf columnIds filters row = true)
    {entry : TableFilter n} (hentry : entry ∈ filters.getD []) {c : Expression}
    (hc : c ∈ conjuncts entry.filter) (hinternal : lib.isInternalExpression c = false) :
    leaf c (row (columnIds entry.columnIndex)) = some true := by
  obtain ⟨hwhere, hscan⟩ := (letsThrough_iff hlib filters row).mp hrow
  cases hcomplete : entryComplete lib bindData columnIds entry with
  | true =>
    rw [entryComplete, Bool.and_eq_true, List.all_eq_true] at hcomplete
    have hsettled := hcomplete.2 c hc
    simp only [settled, hinternal, Bool.or_false, bne_iff_ne] at hsettled
    exact (entryConditions_hold hlib entry row).mp (hwhere entry hentry) c hc hcomplete.1 hsettled
  | false =>
    have hpasses := hscan entry hentry hcomplete
    rw [passes, beq_iff_eq, eval_eq_true] at hpasses
    exact hpasses c hc

theorem letsThrough_of_conjuncts (hlib : lib.Correct sql leaf bindData)
    {filters : Option (List (TableFilter n))} {row : Row}
    (hall : ∀ entry ∈ filters.getD [], ∀ c ∈ conjuncts entry.filter,
      leaf c (row (columnIds entry.columnIndex)) = some true) :
    letsThrough lib sql bindData leaf columnIds filters row = true := by
  rw [letsThrough_iff hlib]
  refine ⟨fun entry hentry => ?_, fun entry hentry _ => ?_⟩
  · exact (entryConditions_hold hlib entry row).mpr fun e he _ _ => hall entry hentry e he
  · rw [passes, beq_iff_eq, eval_eq_true]
    exact hall entry hentry

theorem constants_hasNulByte (hlib : lib.Correct sql leaf bindData)
    {filters : Option (List (TableFilter n))} {s : String}
    (hs : s ∈ sql.constants (transformFilters lib bindData columnIds filters).1) :
    hasNulByte s = false := by
  rw [transformFilters_eq, sql.constants_join _ fun c hc => (mem_conditions hlib hc).2] at hs
  obtain ⟨c, hc, hs⟩ := hs
  obtain ⟨entry, _, hc⟩ := List.mem_flatMap.mp hc
  obtain ⟨hpush, e, _, hnul, _, rfl⟩ := mem_entryConditions.mp hc
  by_contra hbad
  have htrue : hasNulByteConstant e = true := (hasNulByteConstant_iff e).mpr
    ⟨s, hlib.constants _ e hpush s hs, by simpa using hbad⟩
  simp [hnul] at htrue

/-- **Filter pushdown is sound.** A row that is let through satisfies every conjunct that is not
internal; a row that satisfies all conjuncts is let through; and no string with a NUL byte is
written into the SQL text. -/
theorem transformFilters_sound (hlib : lib.Correct sql leaf bindData)
    (columnIds : Fin n → ColumnId) (filters : Option (List (TableFilter n))) :
    (∃ pass : Row → Bool,
      (∀ table, scanRows lib bindData columnIds leaf sql filters table = table.filter pass) ∧
      ∀ row,
        (pass row = true → ∀ entry ∈ filters.getD [], ∀ c ∈ conjuncts entry.filter,
          lib.isInternalExpression c = false →
            leaf c (row (columnIds entry.columnIndex)) = some true) ∧
        ((∀ entry ∈ filters.getD [], ∀ c ∈ conjuncts entry.filter,
          leaf c (row (columnIds entry.columnIndex)) = some true) → pass row = true)) ∧
      ∀ s ∈ sql.constants (transformFilters lib bindData columnIds filters).1,
        hasNulByte s = false := by
  refine ⟨⟨letsThrough lib sql bindData leaf columnIds filters, scanRows_eq filters, ?_⟩, ?_⟩
  · intro row
    refine ⟨fun hrow entry hentry c hc => ?_, letsThrough_of_conjuncts hlib⟩
    exact conjunct_of_letsThrough hlib hrow hentry hc
  · intro s hs
    exact constants_hasNulByte hlib hs

end Sound

/-! ### A small library

A library that translates `i = 5` and nothing else, for a table with one `BIGINT` column, and a
reader of chains of such conditions. -/

namespace Small

def bindData : SqliteBindData := ⟨"", false, [.bigint], [false], ["i"], rfl⟩

/-- The filter `i = 5`. -/
def equalsFive : Expression :=
  .other .boundComparison [.other .boundReference [], .constant (.bigint 5)]

def lib : FilterLibrary where
  transformFilterExpression name
    | .other .boundComparison [.other .boundReference [], .constant (.bigint 5)] => name ++ "=5"
    | _ => ""
  isInternalExpression
    | .function name _ _ => name.isOptionalFilter
    | _ => false

def leaf : Expression → Value → Option Bool
  | .other .boundComparison [.other .boundReference [], .constant (.bigint 5)], v =>
    if v = .null then none else some (v == .bigint 5)
  -- an optional filter may always be skipped
  | .function _ _ _, _ => some true
  | _, _ => none

def atom (row : Row) (piece : List Char) : Bool :=
  piece == "\"i\"=5".toList && row (.column 0) == .bigint 5

/-- Read the pieces of a chain of conditions. -/
def readChain (row : Row) : List (List Char) → Bool
  | [] => true
  | [piece] => atom row piece
  | piece :: link :: pieces => atom row piece && link == "AND".toList && readChain row pieces

theorem intercalate_and (cs : List (List Char)) :
    " AND ".toList.intercalate cs = [' '].intercalate (cs.intersperse "AND".toList) := by
  induction cs with
  | nil => rfl
  | cons c cs ih =>
    cases cs with
    | nil => simp
    | cons d ds =>
      have hne : (d :: ds).intersperse "AND".toList ≠ [] := by cases ds <;> simp
      obtain ⟨e, es, hes⟩ := List.exists_cons_of_ne_nil hne
      rw [List.intersperse_cons_cons, hes, List.intercalate_cons_cons, List.intercalate_cons_cons,
        List.intercalate_cons_cons, ih, hes]
      simp

theorem readChain_intersperse (row : Row) (cs : List (List Char)) :
    readChain row (cs.intersperse "AND".toList) = cs.all (atom row) := by
  induction cs with
  | nil => rfl
  | cons c cs ih =>
    cases cs with
    | nil => simp [readChain]
    | cons d ds => simp_all [readChain]

theorem mem_of_mem_intersperse {l link : List Char} {cs : List (List Char)}
    (hl : l ∈ cs.intersperse link) : l = link ∨ l ∈ cs := by
  induction cs with
  | nil => simp at hl
  | cons c cs ih =>
    cases cs with
    | nil => exact .inr (by simpa using hl)
    | cons d ds =>
      rw [List.intersperse_cons_cons, List.mem_cons, List.mem_cons] at hl
      rcases hl with rfl | rfl | hl
      · exact .inr (by simp)
      · exact .inl rfl
      · exact (ih hl).imp_right (List.mem_cons_of_mem c)

def holds (text : String) (row : Row) : Bool :=
  readChain row (text.toList.splitOn ' ')

theorem holds_join (cs : List String) (hne : cs ≠ []) (hcs : ∀ c ∈ cs, c = "\"i\"=5") (row : Row) :
    holds (" AND ".intercalate cs) row = cs.all fun c => atom row c.toList := by
  have hblank : ∀ l ∈ (cs.map String.toList).intersperse "AND".toList, ' ' ∉ l := by
    intro l hl
    rcases mem_of_mem_intersperse hl with rfl | hl
    · decide
    · obtain ⟨c, hc, rfl⟩ := List.mem_map.mp hl
      rw [hcs c hc]
      decide
  have hne' : (cs.map String.toList).intersperse "AND".toList ≠ [] := by
    obtain ⟨c, cs, rfl⟩ := List.exists_cons_of_ne_nil hne
    cases cs <;> simp
  rw [holds, String.toList_intercalate, intercalate_and, List.splitOn_intercalate _ hblank hne',
    readChain_intersperse, List.all_map]
  rfl

def sql : SqlSemantics where
  holds := holds
  constants := fun _ => ∅
  SelfDelimiting := fun c => c = "\"i\"=5"
  holds_join := by
    intro cs hne hcs row
    rw [holds_join cs hne hcs row, List.all_eq_true]
    refine forall₂_congr fun c hc => ?_
    have hone := holds_join [c] (by simp) (by simpa using hcs c hc) row
    simp only [String.intercalate_singleton, List.all_cons, List.all_nil, Bool.and_true] at hone
    rw [hone]
  constants_join := by simp

theorem eq_of_transform_ne {name : String} {e : Expression}
    (h : lib.transformFilterExpression name e ≠ "") : e = equalsFive := by
  simp only [lib] at h
  split at h
  · rfl
  · exact (h rfl).elim

theorem eq_of_canPushColumn {id : ColumnId} (h : canPushColumn bindData id = true) :
    id = .column 0 := by
  match id with
  | .rowId => simp [canPushColumn, bindData] at h
  | .column 0 => rfl
  | .column (i + 1) => simp [canPushColumn, bindData] at h

theorem lib_correct : lib.Correct sql leaf bindData where
  selfDelimiting := by
    intro id e hpush hne
    rw [eq_of_transform_ne hne, eq_of_canPushColumn hpush]
    rfl
  equivalent := by
    intro id e hpush hne row
    rw [eq_of_transform_ne hne, eq_of_canPushColumn hpush]
    have hatom : holds "\"i\"=5" row = (row (.column 0) == .bigint 5) := by
      simpa [atom] using holds_join ["\"i\"=5"] (by simp) (by simp) row
    show holds "\"i\"=5" row = true ↔ _
    rw [hatom]
    cases hv : row (.column 0) <;> simp [leaf, equalsFive]
  constants := by
    intro id e _ s hs
    exact hs.elim

/-- The filter `i = 5 AND (optional: 'a\0b') AND i = 5`. -/
def filter : TableFilter 1 :=
  ⟨0, .conjunction .conjunctionAnd [equalsFive, .conjunction .conjunctionAnd
    [.function .optionalFilter (.childFilter (.constant (.varchar "a\x00b"))) [], equalsFive]]⟩

/-- The row with `i = n`. -/
def row (n : ℤ) : Row := fun _ => .bigint n

theorem pass_eq {pass : Row → Bool} (hpass : ∀ r,
    (pass r = true → ∀ entry ∈ [filter], ∀ c ∈ conjuncts entry.filter,
      lib.isInternalExpression c = false → leaf c (r (.column 0)) = some true) ∧
    ((∀ entry ∈ [filter], ∀ c ∈ conjuncts entry.filter, leaf c (r (.column 0)) = some true) →
      pass r = true)) : pass (row 4) = false ∧ pass (row 5) = true := by
  constructor
  · by_contra htrue
    have hfive := (hpass (row 4)).1 (by simpa using htrue) filter (by simp) equalsFive
      (by simp [filter, conjuncts, listConjuncts, equalsFive]) rfl
    simp [leaf, equalsFive, row] at hfive
  · refine (hpass (row 5)).2 fun entry hentry c hc => ?_
    obtain rfl : entry = filter := by simpa using hentry
    simp only [filter, conjuncts, listConjuncts, equalsFive, List.cons_append, List.nil_append,
      List.append_nil, List.mem_cons, List.not_mem_nil, or_false] at hc
    rcases hc with rfl | rfl | rfl <;> rfl

end Small

/-- Of two rows the one with `i = 5` is let through. -/
theorem transformFilters_sound_small :
    scanRows Small.lib Small.bindData (fun _ => .column 0) Small.leaf Small.sql (some [Small.filter])
      [Small.row 4, Small.row 5] = [Small.row 5] := by
  obtain ⟨⟨pass, hscan, hpass⟩, -⟩ :=
    transformFilters_sound Small.lib_correct (fun _ : Fin 1 => .column 0) (some [Small.filter])
  obtain ⟨hfour, hfive⟩ := Small.pass_eq hpass
  rw [hscan, List.filter_cons_of_neg (by simp [hfour]), List.filter_cons_of_pos hfive,
    List.filter_nil]

end SqliteScanner.FilterPushdown
