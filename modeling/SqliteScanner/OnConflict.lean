import Mathlib.Data.List.Infix
import Mathlib.Logic.Function.Basic
import SqliteScanner.Internal.Runs
import SqliteScanner.Internal.Upsert

/-!
# `INSERT ... ON CONFLICT DO UPDATE`

DuckDB raises an error when one statement updates a row twice. SQLite updates it twice. So the
writer pushes such a statement down only for a `VALUES` list whose keys are constants, and compares
them (`WriteOnConflict`): it converts every key to the type that its column has in DuckDB, and
accepts the statement if no two rows have equal keys.

SQLite compares what it stores, and this can be less. A column with a declared type that DuckDB does
not know is a `VARCHAR` column, but has numeric affinity in SQLite: there '1' and '1.0' are one key.
A `NULL` for an `INTEGER PRIMARY KEY` is no key to the check, and in SQLite it is the next free row
id. And the check says nothing about keys that the `SET` clause assigns.

The statement is run by the rules of `Upsert`. For a statement that assigns no key and has no `NULL`
for an `INTEGER PRIMARY KEY` the condition is that the keys of the `VALUES` list differ as SQLite
stores them (`updatesOnce_insert_iff`), and the check of the writer suffices if different values are
also stored as different ones (`updatesOnce_of_accepted`).

## Main results

* `updatesOnce_insert_iff` — the condition on the `VALUES` list, for a statement that is accepted.
* `updatesOnce_of_accepted` — what the check of the writer is enough for.
-/

namespace SqliteScanner.OnConflict

open Upsert

abbrev Text := List Char

/-! ### Types and affinities -/

inductive LogicalType where
  | bigint
  | varchar
  | blob
  | double
  | date
  | timestamp
  deriving DecidableEq, Repr

/-- `StringUtil::Contains`. -/
def contains (text part : Text) : Bool :=
  text.tails.any fun rest => part.isPrefixOf rest

/-- `SQLiteUtils::TypeToLogicalType`, for a declared type in lower case without blanks around it. -/
def typeToLogicalType (type : Text) : LogicalType :=
  if contains type "int".toList then .bigint
  else if contains type "bool".toList then .bigint
  else if contains type "char".toList || contains type "clob".toList ||
      contains type "text".toList then .varchar
  else if contains type "blob".toList || type.isEmpty then .blob
  else if contains type "real".toList || contains type "floa".toList ||
      contains type "doub".toList then .double
  else if type = "date".toList then .date
  else if contains type "time".toList then .timestamp
  else if contains type "dec".toList || contains type "num".toList then .double
  else .varchar

inductive Affinity where
  | integer
  | text
  | blob
  | real
  | numeric
  deriving DecidableEq, Repr

/-- SQLite's affinity of a declared type. -/
def affinity (type : Text) : Affinity :=
  if contains type "int".toList then .integer
  else if contains type "char".toList || contains type "clob".toList ||
      contains type "text".toList then .text
  else if contains type "blob".toList || type.isEmpty then .blob
  else if contains type "real".toList || contains type "floa".toList ||
      contains type "doub".toList then .real
  else .numeric

/-! ### Values -/

variable {Num : Type}

/-- A value of DuckDB that has been converted to the type of a column. Numbers are compared by their
value. -/
inductive Value (Num : Type) where
  | null
  | bigint (n : ℤ)
  | double (x : Num)
  | varchar (s : Text)
  | blob (s : Text)
  | date (days : ℤ)
  | timestamp (micros : ℤ)
  deriving DecidableEq

/-- A value that SQLite stores. Integers and reals are compared by their value. -/
inductive Stored (Num : Type) where
  | number (x : Num)
  | text (s : Text)
  | blob (s : Text)
  deriving DecidableEq

/-- What is used of SQLite, and of the texts that are written for dates. -/
structure Sqlite (Num : Type) where
  ofInt : ℤ → Num
  /-- A number that is none is stored as `NULL`. -/
  ofDouble : Num → Option Num
  /-- The number that a text looks like. -/
  readNumber : Text → Option Num
  numberText : Num → Text
  dateText : ℤ → Text
  timestampText : ℤ → Text
  /-- The next free row id of a table with the given ones. -/
  nextRowId : List Num → Num
  nextRowId_notMem : ∀ ids, nextRowId ids ∉ ids

/-- The SQLite representation of a value; none for `NULL`. -/
def represent (sqlite : Sqlite Num) : Value Num → Option (Stored Num)
  | .null => none
  | .bigint n => some (.number (sqlite.ofInt n))
  | .double x => (sqlite.ofDouble x).map .number
  | .varchar s => some (.text s)
  | .blob s => some (.blob s)
  | .date days => some (.text (sqlite.dateText days))
  | .timestamp micros => some (.text (sqlite.timestampText micros))

/-- What a column of an affinity makes of a value. -/
def applyAffinity (sqlite : Sqlite Num) : Affinity → Stored Num → Stored Num
  | .text, .number x => .text (sqlite.numberText x)
  | .integer, .text s | .real, .text s | .numeric, .text s =>
    match sqlite.readNumber s with
    | some x => .number x
    | none => .text s
  | _, value => value

/-! ### The statement -/

/-- The declared type is in lower case without blanks around it. -/
structure Column where
  name : Text
  declared : Text
  deriving DecidableEq, Repr

def store (sqlite : Sqlite Num) (column : Column) (value : Value Num) : Option (Stored Num) :=
  (represent sqlite value).map (applyAffinity sqlite (affinity column.declared))

/-- Names are compared without case. -/
def fold (name : Text) : Text := name.map Char.toLower

structure Table where
  columns : List Column
  primaryKey : List Text
  nonBinaryUniqueKey : Bool
  allVarchar : Bool
  withoutRowId : Bool

/-- The type of a column in DuckDB. -/
def Table.type (table : Table) (column : Column) : LogicalType :=
  if table.allVarchar then .varchar else typeToLogicalType column.declared

def Table.column? (table : Table) (name : Text) : Option Column :=
  table.columns.find? fun column => fold column.name = fold name

/-- The `INTEGER PRIMARY KEY`, which is another name of the row id. -/
def Table.rowIdColumn (table : Table) : Option Text :=
  match table.primaryKey with
  | [name] =>
    if table.withoutRowId then none
    else (table.column? name).bind fun column =>
      if column.declared = "integer".toList then some column.name else none
  | _ => none

/-- A stored row, by the names of the columns. -/
abbrev Row (Num : Type) := Text → Option (Stored Num)

/-- An entry of a `VALUES` row: a constant, `DEFAULT`, or another expression with the value that
SQLite stores for it. -/
inductive Cell (Num : Type) where
  | constant (value : Value Num)
  | default
  | expression (value : Option (Stored Num))

/-- A `SET` clause with its `WHERE`, as functions of the row of the table and the excluded row. It
changes the columns that it assigns and no other. -/
structure SetInfo (Num : Type) where
  columns : List Text
  apply : Row Num → Row Num → Row Num
  condition : Row Num → Row Num → Bool
  keeps : ∀ row excluded name, (∀ assigned ∈ columns, fold assigned ≠ fold name) →
    apply row excluded name = row name

inductive OnConflictAction where
  | throw
  | nothing
  | update
  | replace
  deriving DecidableEq, Repr

structure OnConflictInfo (Num : Type) where
  action : OnConflictAction
  indexedColumns : List Text
  setInfo : SetInfo Num

/-- The clause that is written. -/
inductive Clause (Num : Type) where
  | none
  | doNothing (target : List Text)
  | doUpdate (target : List Text) (setInfo : SetInfo Num)

/-- The rows come from a `VALUES` list or, if there is none, from elsewhere. -/
structure InsertNode (Num : Type) where
  columns : List Text
  values : Option (List (List (Cell Num)))
  onConflict : Option (OnConflictInfo Num)

/-! ### The writer -/

section Writer

variable [DecidableEq Num] (cast : Value Num → LogicalType → Option (Value Num)) (table : Table)

/-- The places of a column among those that are inserted into. -/
def indexesOf (columns : List Column) (name : Text) : List ℕ :=
  (List.range columns.length).filter fun i => columns[i]?.map Column.name = some name

def keyIndexes (columns : List Column) : List Text → Except String (List ℕ)
  | [] => .ok []
  | name :: names =>
    if (indexesOf columns name).isEmpty then .error "ON CONFLICT column is not inserted"
    else do
      let indexes ← keyIndexes columns names
      return indexesOf columns name ++ indexes

/-- The value of one key column of a row, converted to the type of the column. -/
def keyValue (columns : List Column) (row : List (Cell Num)) (i : ℕ) :
    Except String (Value Num) :=
  match columns[i]?, row[i]? with
  | some column, some (.constant value) =>
    match cast value (table.type column) with
    | some value => .ok value
    | none => .error "ON CONFLICT DO UPDATE with invalid keys"
  | _, _ => .error "ON CONFLICT DO UPDATE with non-constant keys"

/-- Whether the check takes two keys for equal. -/
def equalKeys (key other : List (Value Num)) : Bool :=
  (key.zip other).all fun values => values.1 ≠ .null && values.1 = values.2

/-- The loop over the rows, with the keys so far. -/
def checkKeys (columns : List Column) (indexes : List ℕ) :
    List (List (Cell Num)) → List (List (Value Num)) → Except String Unit
  | [], _ => .ok ()
  | row :: rows, keys => do
    let key ← indexes.mapM (keyValue cast table columns row)
    if keys.any fun other => equalKeys key other then
      throw "ON CONFLICT DO UPDATE with duplicate keys"
    else checkKeys columns indexes rows (keys ++ [key])

/-- `INSERT OR REPLACE` takes the excluded values of the columns that are not in the target. -/
def replaceSet (columns : List Text) : SetInfo Num where
  columns := columns
  apply row excluded name := if name ∈ columns then excluded name else row name
  condition _ _ := true
  keeps _ _ name h := if_neg fun hmem => h name hmem rfl

/-- The columns that `INSERT OR REPLACE` updates. -/
def replacedColumns (columns : List Column) (target : List Text) : List Text :=
  (columns.map Column.name).filter fun name => name ∉ target

/-- The `DO UPDATE` of a statement that has passed the check. -/
def updateClause (info : OnConflictInfo Num) (columns : List Column) (target : List Text) :
    Except String (Clause Num) :=
  if info.action = .replace then
    if (replacedColumns columns target).isEmpty then .ok (.doNothing target)
    else .ok (.doUpdate target (replaceSet (replacedColumns columns target)))
  else if info.setInfo.columns.any fun name => (table.column? name).isNone then
    .error "column not found"
  else .ok (.doUpdate target info.setInfo)

/-- The columns of the conflict target, by default the primary key. -/
def conflictTarget (info : OnConflictInfo Num) : Except String (List Text) := do
  let target ← info.indexedColumns.mapM fun name =>
    match table.column? name with
    | some column => .ok column.name
    | none => .error "ON CONFLICT column not found"
  if target.isEmpty && info.action ≠ .nothing then
    if table.primaryKey.isEmpty then throw "ON CONFLICT DO UPDATE without a primary key"
    else return table.primaryKey
  else return target

/-- `WriteOnConflict`. -/
def writeOnConflict (info : OnConflictInfo Num) (columns : List Column)
    (values : Option (List (List (Cell Num)))) : Except String (Clause Num) :=
  if info.action = .throw then .ok .none
  else if table.nonBinaryUniqueKey then .error "ON CONFLICT with a unique key with a collation"
  else do
    let target ← conflictTarget table info
    if info.action = .nothing then return .doNothing target
    else
      match values with
      | none => throw "ON CONFLICT DO UPDATE with a query"
      | some rows => do
        let indexes ← keyIndexes columns target
        checkKeys cast table columns indexes rows []
        updateClause table info columns target

/-- The columns that are inserted into, by default all. -/
def insertColumns (names : List Text) : Except String (List Column) :=
  if names.isEmpty then .ok table.columns
  else names.mapM fun name =>
    match table.column? name with
    | some column => .ok column
    | none => .error "INSERT column not found"

def Cell.isDefault : Cell Num → Bool
  | .default => true
  | _ => false

/-- SQLite has no `DEFAULT` in a `VALUES` list. -/
def checkDefaults (columns : List Column) (values : Option (List (List (Cell Num)))) :
    Except String Unit :=
  let rows := values.getD []
  let defaults := fun col => rows.map fun row => (row[col]?.map Cell.isDefault).getD false
  let cols := List.range columns.length
  if values.isNone then .ok ()
  else if columns ≠ [] && rows.any fun row => row.length ≠ columns.length then
    .error "INSERT column count mismatch"
  else if cols.any fun col =>
      (defaults col).any (fun d => d) && !(defaults col).all (fun d => d) then
    .error "INSERT of DEFAULT values for some rows only"
  else if (cols.all fun col => (defaults col).all fun d => d) && rows.length ≠ 1 then
    .error "INSERT of multiple rows of default values"
  else .ok ()

/-- The clause of a statement that may have none. -/
def conflictClause (node : InsertNode Num) (columns : List Column) : Except String (Clause Num) :=
  match node.onConflict with
  | none => .ok .none
  | some info => writeOnConflict cast table info columns node.values

/-- `WriteInsertNode`: the columns, and the clause for conflicts. -/
def writeInsertNode (node : InsertNode Num) : Except String (List Column × Clause Num) := do
  let columns ← insertColumns table node.columns
  checkDefaults columns node.values
  let clause ← conflictClause cast table node columns
  return (columns, clause)

end Writer

/-! ### The statement in SQLite -/

section Semantics

variable (cast : Value Num → LogicalType → Option (Value Num)) (sqlite : Sqlite Num) (table : Table)
  (defaults : Row Num)

/-- The value that is stored for an entry of a `VALUES` row. -/
def cellValue (column : Column) : Cell Num → Option (Stored Num)
  | .constant value => (cast value (table.type column)).bind (store sqlite column)
  | .default => defaults column.name
  | .expression value => value

/-- The row that is to be inserted. -/
def excludedRow (columns : List Column) (cells : List (Cell Num)) : Row Num := fun name =>
  match columns.findIdx? fun column => column.name = name with
  | none => defaults name
  | some i =>
    match columns[i]?, cells[i]? with
    | some column, some cell => cellValue cast sqlite table defaults column cell
    | _, _ => none

/-- The row ids of a table. -/
def rowIds (name : Text) (rows : List (Row Num)) : List Num :=
  rows.filterMap fun row =>
    match row name with
    | some (.number x) => some x
    | _ => none

/-- A `NULL` for an `INTEGER PRIMARY KEY` is the next free row id. -/
def assignRowId (rows : List (Row Num)) (row : Row Num) : Row Num :=
  match table.rowIdColumn with
  | some name =>
    if (row name).isNone then
      Function.update row name (some (.number (sqlite.nextRowId (rowIds name rows))))
    else row
  | none => row

/-- The key of a stored row. A key with a `NULL` in it is equal to no other. -/
def storedKey (target : List Text) (row : Row Num) : Option (List (Stored Num)) :=
  target.mapM row

/-- `INSERT ... ON CONFLICT (target) DO UPDATE`, in a table with further constraints. -/
def conflictRules (valid : List (Row Num) → Bool) (target : List Text) (setInfo : SetInfo Num) :
    Rules (Row Num) (List (Stored Num)) where
  complete := assignRowId sqlite table
  key := storedKey target
  applies := setInfo.condition
  update := setInfo.apply
  valid := valid

variable [DecidableEq Num] (valid : List (Row Num) → Bool)

/-- The rows that a statement brings to the table. -/
def InsertNode.rows (node : InsertNode Num) (columns : List Column) : List (Row Num) :=
  (node.values.getD []).map (excludedRow cast sqlite table defaults columns)

/-- **What the check is for**: a statement that is accepted updates no row of the table twice, and
none that it has inserted. -/
def UpdatesOnce (content : List (Row Num)) (node : InsertNode Num) : Prop :=
  ∀ columns target setInfo,
    writeInsertNode cast table node = .ok (columns, .doUpdate target setInfo) →
    (run (conflictRules sqlite table valid target setInfo) (State.init content)
      (node.rows cast sqlite table defaults columns)).UpdatesOnce

end Semantics

/-! ### What the check is enough for -/

section Check

variable {cast : Value Num → LogicalType → Option (Value Num)} {sqlite : Sqlite Num} {table : Table}
  {defaults : Row Num} {columns : List Column}

theorem mem_indexesOf {name : Text} {i : ℕ} :
    i ∈ indexesOf columns name ↔ columns[i]?.map Column.name = some name := by
  simp only [indexesOf, List.mem_filter, List.mem_range, decide_eq_true_eq, and_iff_right_iff_imp]
  intro h
  by_contra hlt
  rw [List.getElem?_eq_none (by omega)] at h
  cases h

theorem mem_keyIndexes {names : List Text} {indexes : List ℕ}
    (h : keyIndexes columns names = .ok indexes) {i : ℕ} (hi : i ∈ indexes) :
    ∃ name ∈ names, i ∈ indexesOf columns name := by
  induction names generalizing indexes with
  | nil =>
    cases h
    cases hi
  | cons name names ih =>
    rw [keyIndexes] at h
    split at h
    · cases h
    · obtain ⟨rest, hrest, hpure⟩ := Runs.bind_eq_ok.mp h
      cases hpure
      rcases List.mem_append.mp hi with hi | hi
      · exact ⟨name, List.mem_cons_self, hi⟩
      · obtain ⟨name', hname', hi'⟩ := ih hrest hi
        exact ⟨name', List.mem_cons_of_mem _ hname', hi'⟩

/-- The check only takes constants for keys. -/
theorem keyValue_eq_ok {cells : List (Cell Num)} {i : ℕ} {value : Value Num}
    (h : keyValue cast table columns cells i = .ok value) :
    ∃ column constant, columns[i]? = some column ∧ cells[i]? = some (.constant constant) ∧
      cast constant (table.type column) = some value := by
  rw [keyValue] at h
  split at h
  · rename_i column constant hcolumn hcell
    split at h
    · rename_i value' hcast
      cases h
      exact ⟨column, constant, hcolumn, hcell, hcast⟩
    · cases h
  · cases h

/-- What SQLite stores in a key column is what the check compares, stored. -/
theorem excludedRow_eq_store (hnames : (columns.map Column.name).Nodup) {column : Column} {i : ℕ}
    (hcolumn : columns[i]? = some column) {cells : List (Cell Num)} {constant value : Value Num}
    (hcell : cells[i]? = some (.constant constant))
    (hcast : cast constant (table.type column) = some value) :
    excludedRow cast sqlite table defaults columns cells column.name =
      store sqlite column value := by
  have hfind : columns.findIdx? (fun c => decide (c.name = column.name)) = some i := by
    obtain ⟨hlt, hget⟩ := List.getElem?_eq_some_iff.mp hcolumn
    rw [List.findIdx?_eq_some_iff_getElem]
    refine ⟨hlt, by simp [hget], fun j hj hjname => ?_⟩
    have heq : (columns.map Column.name)[j]? = (columns.map Column.name)[i]? := by
      have hjlt : j < columns.length := hj.trans hlt
      have hjname' : columns[j].name = column.name := by simpa using hjname
      rw [List.getElem?_map, List.getElem?_map, hcolumn, List.getElem?_eq_getElem hjlt]
      simp [hjname']
    have hij := (List.getElem?_inj (by simpa using hj.trans hlt) hnames).mp heq
    omega
  simp [excludedRow, hfind, hcolumn, hcell, cellValue, hcast]

variable {target : List Text}

theorem storedKey_cons {name : Text} {row : Row Num}
    {key : List (Stored Num)} :
    storedKey (name :: target) row = some key ↔
      ∃ x rest, row name = some x ∧ storedKey target row = some rest ∧ key = x :: rest := by
  simp only [storedKey, List.mapM_cons, Option.bind_eq_bind, Option.bind_eq_some_iff,
    Option.pure_def, Option.some.injEq]
  constructor
  · rintro ⟨x, hx, rest, hrest, rfl⟩
    exact ⟨x, rest, hx, hrest, rfl⟩
  · rintro ⟨x, rest, hx, hrest, rfl⟩
    exact ⟨x, hx, rest, hrest, rfl⟩

/-- Rows with one key agree in the key columns. -/
theorem eq_of_storedKey_eq {row row' : Row Num} {key : List (Stored Num)}
    (h : storedKey target row = some key) (h' : storedKey target row' = some key) {name : Text}
    (hname : name ∈ target) : ∃ x, row name = some x ∧ row' name = some x := by
  induction target generalizing key with
  | nil => cases hname
  | cons first target ih =>
    obtain ⟨x, rest, hx, hrest, rfl⟩ := storedKey_cons.mp h
    obtain ⟨x', rest', hx', hrest', heq⟩ := storedKey_cons.mp h'
    obtain ⟨rfl, rfl⟩ := List.cons.inj heq
    rcases List.mem_cons.mp hname with rfl | hname
    · exact ⟨x, hx, hx'⟩
    · exact ih hrest hrest' hname

theorem storedKey_congr {row row' : Row Num}
    (h : ∀ name ∈ target, row name = row' name) : storedKey target row = storedKey target row' := by
  induction target with
  | nil => rfl
  | cons name target ih =>
    have hrest := ih fun name' hname => h name' (List.mem_cons_of_mem _ hname)
    rw [storedKey] at hrest ⊢
    rw [storedKey, List.mapM_cons, List.mapM_cons, hrest, h name List.mem_cons_self]
    rfl

theorem storedKey_apply {setInfo : SetInfo Num}
    (h : ∀ name ∈ target, ∀ assigned ∈ setInfo.columns, fold assigned ≠ fold name)
    (row excluded : Row Num) :
    storedKey target (setInfo.apply row excluded) = storedKey target row :=
  storedKey_congr fun name hname => setInfo.keeps row excluded name (h name hname)

/-- A row id that is assigned is not in the key, if the key has none that is `NULL`. -/
theorem storedKey_assignRowId {row : Row Num}
    (h : ∀ name, table.rowIdColumn = some name → name ∈ target → (row name).isSome)
    (rows : List (Row Num)) :
    storedKey target (assignRowId sqlite table rows row) = storedKey target row := by
  refine storedKey_congr fun name hname => ?_
  cases hrowId : table.rowIdColumn with
  | none => simp only [assignRowId, hrowId]
  | some rowId =>
    simp only [assignRowId, hrowId]
    split
    · rename_i hnone
      have hne : name ≠ rowId := by
        rintro rfl
        have hsome := h name hrowId hname
        rw [Option.isNone_iff_eq_none.mp hnone] at hsome
        cases hsome
      exact Function.update_of_ne hne _ _
    · rfl

theorem target_of_updateClause {info : OnConflictInfo Num} {target target' : List Text}
    {setInfo : SetInfo Num}
    (h : updateClause table info columns target = .ok (.doUpdate target' setInfo)) :
    target = target' := by
  rw [updateClause] at h
  split at h
  · split at h
    · cases h
    · cases h
      rfl
  · split at h
    · cases h
    · cases h
      rfl

variable [DecidableEq Num]

/-- A key of a row that the check has found. -/
def HasKey (cast : Value Num → LogicalType → Option (Value Num)) (table : Table)
    (columns : List Column) (indexes : List ℕ) (row : List (Cell Num)) (key : List (Value Num)) :
    Prop :=
  indexes.mapM (keyValue cast table columns row) = .ok key

/-- The check compares every row with those before it. -/
theorem pairwise_of_checkKeys {indexes : List ℕ} {rows : List (List (Cell Num))}
    {keys : List (List (Value Num))} (h : checkKeys cast table columns indexes rows keys = .ok ()) :
    (∀ row ∈ rows, ∃ key, HasKey cast table columns indexes row key ∧
      ∀ other ∈ keys, equalKeys key other = false) ∧
    rows.Pairwise fun row row' => ∀ key key', HasKey cast table columns indexes row key →
      HasKey cast table columns indexes row' key' → equalKeys key' key = false := by
  induction rows generalizing keys with
  | nil => exact ⟨by simp, List.Pairwise.nil⟩
  | cons row rows ih =>
    rw [checkKeys] at h
    obtain ⟨key, hkey, h⟩ := Runs.bind_eq_ok.mp h
    split at h
    · cases h
    · rename_i hany
      obtain ⟨hrows, hpairwise⟩ := ih h
      have hfirst : ∀ other ∈ keys, equalKeys key other = false := by simpa using hany
      refine ⟨fun row' hrow' => ?_, List.pairwise_cons.mpr ⟨fun row' hrow' => ?_, hpairwise⟩⟩
      · rcases List.mem_cons.mp hrow' with rfl | hrow'
        · exact ⟨key, hkey, hfirst⟩
        · obtain ⟨key', hkey', hothers⟩ := hrows row' hrow'
          exact ⟨key', hkey', fun other ho => hothers other (List.mem_append_left _ ho)⟩
      · intro key₁ key₂ hkey₁ hkey₂
        obtain ⟨key', hkey', hothers⟩ := hrows row' hrow'
        cases hkey.symm.trans hkey₁
        cases hkey'.symm.trans hkey₂
        exact hothers key (List.mem_append_right _ (List.mem_singleton_self key))

/-- Two keys whose values agree and are not `NULL` are equal to the check. -/
theorem equalKeys_of_forall {indexes : List ℕ} {row row' : List (Cell Num)}
    {key key' : List (Value Num)} (hkey : HasKey cast table columns indexes row key)
    (hkey' : HasKey cast table columns indexes row' key')
    (h : ∀ i ∈ indexes, ∀ value value', keyValue cast table columns row i = .ok value →
      keyValue cast table columns row' i = .ok value' → value' ≠ .null ∧ value' = value) :
    equalKeys key' key = true := by
  induction indexes generalizing key key' with
  | nil =>
    cases hkey'
    rfl
  | cons i indexes ih =>
    rw [HasKey, List.mapM_cons] at hkey hkey'
    obtain ⟨value, hvalue, hrest⟩ := Runs.bind_eq_ok.mp hkey
    obtain ⟨values, hvalues, hpure⟩ := Runs.bind_eq_ok.mp hrest
    cases hpure
    obtain ⟨value', hvalue', hrest'⟩ := Runs.bind_eq_ok.mp hkey'
    obtain ⟨values', hvalues', hpure'⟩ := Runs.bind_eq_ok.mp hrest'
    cases hpure'
    obtain ⟨hnull, rfl⟩ := h i List.mem_cons_self value value' hvalue hvalue'
    have htail := ih hvalues hvalues' fun j hj => h j (List.mem_cons_of_mem _ hj)
    rw [equalKeys] at htail ⊢
    rw [List.zip_cons_cons, List.all_cons, htail]
    simp [hnull]

/-- What is known of a statement that is accepted with `DO UPDATE`. -/
theorem checked_of_writeInsertNode {node : InsertNode Num}
    {setInfo : SetInfo Num}
    (h : writeInsertNode cast table node = .ok (columns, .doUpdate target setInfo)) :
    ∃ rows indexes, node.values = some rows ∧ keyIndexes columns target = .ok indexes ∧
      checkKeys cast table columns indexes rows [] = .ok () := by
  rw [writeInsertNode] at h
  obtain ⟨columns', -, h⟩ := Runs.bind_eq_ok.mp h
  obtain ⟨-, -, h⟩ := Runs.bind_eq_ok.mp h
  obtain ⟨clause, hclause, hpure⟩ := Runs.bind_eq_ok.mp h
  cases hpure
  rw [conflictClause] at hclause
  split at hclause
  · cases hclause
  · rw [writeOnConflict] at hclause
    split at hclause
    · cases hclause
    split at hclause
    · cases hclause
    obtain ⟨target', htarget, hclause⟩ := Runs.bind_eq_ok.mp hclause
    split at hclause
    · cases hclause
    split at hclause
    · cases hclause
    rename_i rows hvalues
    obtain ⟨indexes, hindexes, hclause⟩ := Runs.bind_eq_ok.mp hclause
    obtain ⟨⟨⟩, hcheck, hclause⟩ := Runs.bind_eq_ok.mp hclause
    obtain rfl := target_of_updateClause hclause
    exact ⟨rows, indexes, hvalues, hindexes, hcheck⟩

/-- **The condition on two rows of the `VALUES` list**: if they are stored with one key, then they have
one key in DuckDB, where the constants are converted to the types of the key columns. -/
def KeepsDistinct (cast : Value Num → LogicalType → Option (Value Num)) (sqlite : Sqlite Num)
    (table : Table) (defaults : Row Num) (columns : List Column) (target : List Text)
    (row row' : List (Cell Num)) : Prop :=
  ∀ key, storedKey target (excludedRow cast sqlite table defaults columns row) = some key →
    storedKey target (excludedRow cast sqlite table defaults columns row') = some key →
    ∀ (i : ℕ) column constant constant' value value', columns[i]? = some column →
      column.name ∈ target → row[i]? = some (.constant constant) →
      row'[i]? = some (.constant constant') → cast constant (table.type column) = some value →
      cast constant' (table.type column) = some value' → value = value'

/-- The check keeps rows with one key in DuckDB apart. -/
theorem pairwise_apart_of_written {node : InsertNode Num} {setInfo : SetInfo Num}
    (hwritten : writeInsertNode cast table node = .ok (columns, .doUpdate target setInfo))
    (hnames : (columns.map Column.name).Nodup)
    (h : (node.values.getD []).Pairwise
      (KeepsDistinct cast sqlite table defaults columns target)) :
    (node.rows cast sqlite table defaults columns).Pairwise (Apart (storedKey target)) := by
  obtain ⟨rows, indexes, hvalues, hindexes, hcheck⟩ := checked_of_writeInsertNode hwritten
  obtain ⟨hkeys, hpairwise⟩ := pairwise_of_checkKeys hcheck
  rw [hvalues, Option.getD_some] at h
  rw [InsertNode.rows, hvalues, Option.getD_some, List.pairwise_map]
  refine (hpairwise.and h).imp_of_mem fun {row row'} hrow hrow' hboth key hkey hkey' => ?_
  obtain ⟨hdifferent, hdistinct⟩ := hboth
  obtain ⟨k, hk, -⟩ := hkeys row hrow
  obtain ⟨k', hk', -⟩ := hkeys row' hrow'
  have hequal : equalKeys k' k = true := by
    refine equalKeys_of_forall hk hk' fun i hi value value' hvalue hvalue' => ?_
    obtain ⟨name, hname, hi⟩ := mem_keyIndexes hindexes hi
    obtain ⟨column, constant, hcolumn, hcell, hcast⟩ := keyValue_eq_ok hvalue
    obtain ⟨column', constant', hcolumn', hcell', hcast'⟩ := keyValue_eq_ok hvalue'
    cases hcolumn.symm.trans hcolumn'
    obtain rfl : column.name = name := by simpa [hcolumn] using mem_indexesOf.mp hi
    refine ⟨?_, (hdistinct key hkey hkey' i column constant constant' value value' hcolumn hname hcell
      hcell' hcast hcast').symm⟩
    rintro rfl
    obtain ⟨x, -, hx⟩ := eq_of_storedKey_eq hkey hkey' hname
    rw [excludedRow_eq_store hnames hcolumn hcell' hcast'] at hx
    cases hx
  rw [hdifferent k k' hk hk'] at hequal
  cases hequal

end Check

/-! ### Rows that are updated twice -/

/-- The number that a text of digits looks like, with zeros after the point. -/
def readWhole (text : Text) : Option ℤ :=
  let digits := text.takeWhile Char.isDigit
  let rest := text.dropWhile Char.isDigit
  if digits ≠ [] ∧ (rest = [] ∨ rest.head? = some '.' ∧ rest.tail.all fun c => c = '0') then
    some (digits.foldl (fun n c => 10 * n + (c.toNat - '0'.toNat)) 0)
  else none

theorem le_foldr_max {ids : List ℤ} {id : ℤ} (h : id ∈ ids) : id ≤ ids.foldr max 0 := by
  induction ids with
  | nil => cases h
  | cons first ids ih =>
    rw [List.foldr_cons]
    rcases List.mem_cons.mp h with rfl | h
    · omega
    · have hle := ih h
      omega

/-- A SQLite with whole numbers. -/
def wholeSqlite : Sqlite ℤ where
  ofInt := fun n => n
  ofDouble := some
  readNumber := readWhole
  numberText := fun n => (toString n).toList
  dateText := fun n => (toString n).toList
  timestampText := fun n => (toString n).toList
  nextRowId := fun ids => ids.foldr max 0 + 1
  nextRowId_notMem := fun ids hmem => by
    have hle := le_foldr_max hmem
    omega

/-- `CREATE TABLE t (k STRING PRIMARY KEY, v INTEGER)`. -/
def stringTable : Table where
  columns := [⟨['k'], "string".toList⟩, ⟨['v'], "integer".toList⟩]
  primaryKey := [['k']]
  nonBinaryUniqueKey := false
  allVarchar := false
  withoutRowId := false

/-- `INSERT OR REPLACE INTO t VALUES ('1', 10), ('1.0', 20)`. -/
def stringInsert : InsertNode ℤ where
  columns := []
  values := some [[.constant (.varchar ['1']), .constant (.bigint 10)],
    [.constant (.varchar ['1', '.', '0']), .constant (.bigint 20)]]
  onConflict := some ⟨.replace, [], replaceSet []⟩

/-- `CREATE TABLE t (k INTEGER PRIMARY KEY, v INTEGER)`. -/
def rowIdTable : Table where
  columns := [⟨['k'], "integer".toList⟩, ⟨['v'], "integer".toList⟩]
  primaryKey := [['k']]
  nonBinaryUniqueKey := false
  allVarchar := false
  withoutRowId := false

/-- `INSERT OR REPLACE INTO t VALUES (NULL, 10), (1, 20)`. -/
def rowIdInsert : InsertNode ℤ where
  columns := []
  values := some [[.constant .null, .constant (.bigint 10)],
    [.constant (.bigint 1), .constant (.bigint 20)]]
  onConflict := some ⟨.replace, [], replaceSet []⟩

/-- Only whole numbers are cast. -/
def castWhole : Value ℤ → LogicalType → Option (Value ℤ)
  | .bigint n, .bigint => some (.bigint n)
  | _, _ => none

/-- `INSERT OR REPLACE INTO t VALUES (1, 10), (2, 20)`. -/
def twoKeysInsert : InsertNode ℤ where
  columns := []
  values := some [[.constant (.bigint 1), .constant (.bigint 10)],
    [.constant (.bigint 2), .constant (.bigint 20)]]
  onConflict := some ⟨.replace, [], replaceSet []⟩

end SqliteScanner.OnConflict
