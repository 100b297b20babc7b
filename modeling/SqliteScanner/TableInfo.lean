import Mathlib.Data.Finset.Max
import SqliteScanner.Internal.Items
import SqliteScanner.OnConflict

/-!
# Table entries and their indexes

The entry of a SQLite table is made from `PRAGMA table_xinfo` (`GetTableInfo`). Generated columns
are listed there and are left out of the entry, so a column of the entry has a position of its own:
the number of ordinary columns before it.

The indexes of the entry are read by `GetIndexInfo`. The primary key comes from
`pragma_table_info`, which does not list generated columns and does not count them. A `UNIQUE`
constraint comes from `pragma_index_info`, which gives positions among all columns. They are put
into the description as they are.

So the description of a `UNIQUE` constraint is right exactly if no generated column stands before
the last column of the constraint, and none is part of it (`getIndexInfo_describes_iff`).

## Main definitions

* `Table` — a table as SQLite has it.
* `getTableInfo`, `getIndexInfo` — the functions of the source.
* `Describes` — what the description of a key should be, with the positions found by name.

## Main results

* `logicalPosition_name` — where an ordinary column is in the entry.
* `getIndexInfo_describes_iff` — when the descriptions are right.
-/

namespace SqliteScanner.TableInfo

open Lexing Runs
open OnConflict (LogicalType contains typeToLogicalType)

/-! ### Tables of SQLite -/

/-- Names are compared without regard to the case of ASCII letters. -/
def fold (name : Text) : Text := name.map Char.toLower

/-- A column with its declared type. A generated column is hidden. -/
structure Column where
  name : Text
  type : Text
  notNull : Bool
  default : Text
  hidden : Bool

/-- Where an index comes from: `CREATE INDEX`, a `UNIQUE` constraint, or the primary key. -/
inductive Origin where
  | c
  | u
  | pk
  deriving DecidableEq

/-- An index with the positions of its columns among all columns. -/
structure Index where
  unique : Bool
  origin : Origin
  columns : List ℕ

/-- A table. The primary key is given by positions, in the order of the key. Generated columns are
not part of it, and a `UNIQUE` constraint has columns of the table. -/
structure Table where
  columns : List Column
  primaryKey : List ℕ
  indexes : List Index
  names_nodup : (columns.map fun column => fold column.name).Nodup
  primaryKey_nodup : primaryKey.Nodup
  primaryKey_ordinary : ∀ i ∈ primaryKey,
    ∃ column, columns[i]? = some column ∧ column.hidden = false
  unique_columns : ∀ index ∈ indexes, index.origin = .u →
    index.columns ≠ [] ∧ ∀ i ∈ index.columns, i < columns.length

/-! ### The pragmas -/

/-- A row of `table_info` or `table_xinfo`. -/
structure InfoRow where
  cid : ℕ
  column : Column
  /-- The position in the primary key from 1, and 0 for a column that is not part of it. -/
  pk : ℕ

namespace Table

variable (t : Table)

def keyNumber (i : ℕ) : ℕ :=
  if i ∈ t.primaryKey then t.primaryKey.idxOf i + 1 else 0

def tableXinfo : List InfoRow :=
  t.columns.mapIdx fun i column => ⟨i, column, t.keyNumber i⟩

/-- Hidden columns are neither listed nor counted. -/
def tableInfo : List InfoRow :=
  (t.tableXinfo.filter fun row => !row.column.hidden).mapIdx fun i row => { row with cid := i }

/-- The indexes of `UNIQUE` constraints. -/
def uniqueConstraints : List Index :=
  t.indexes.filter fun index => index.unique && index.origin = .u

/-- The keys that are described, by positions among all columns. -/
def keys : List (List ℕ) :=
  (if t.primaryKey = [] then [] else [t.primaryKey]) ++ t.uniqueConstraints.map Index.columns

end Table

/-! ### `GetTableInfo` -/

/-- A default as DuckDB writes it: an expression that can stand between parentheses. -/
structure Default where
  pieces : List Piece
  separated : Separated pieces (some ')')
  balanced : nesting (tokens pieces) 0 = some 0

structure ColumnDefinition where
  name : Text
  type : LogicalType
  default : Option Default

inductive ForeignKeyType where
  | primaryKeyTable
  | foreignKeyTable
  | selfReferenceTable
  deriving DecidableEq

inductive Constraint where
  | notNull (index : ℕ)
  | unique (index : Option ℕ) (names : List Text) (isPrimaryKey : Bool)
  | foreignKey (type : ForeignKeyType) (text : Text)
  | check (text : Text)

/-- What `GetTableInfo` has read so far. -/
structure Info where
  columns : List ColumnDefinition
  constraints : List Constraint
  primaryKeys : List Text
  utf8TextAffinity : List Bool
  allColumnNames : List Text

def Info.empty : Info := ⟨[], [], [], [], []⟩

/-- `SQLiteUtils::HasTextAffinity`, for a declared type in lower case. -/
def hasTextAffinity (type : Text) : Bool :=
  if contains type "int".toList then false
  else contains type "char".toList || contains type "clob".toList || contains type "text".toList

/-- `StringUtil::Trim`. -/
def trim (text : Text) : Text :=
  ((text.dropWhile Char.isWhitespace).reverse.dropWhile Char.isWhitespace).reverse

/-- `FindRowIdName`: a name of the row id that no column has, hidden columns included. -/
def findRowIdName (names : List Text) : Option Text :=
  ["rowid".toList, "_rowid_".toList, "oid".toList].find? fun candidate =>
    !names.any fun name => fold name = candidate

/-- DuckDB's parser, as far as it is used for defaults: the expressions of a text, each with the
name if it is a column reference without a qualifier, and a constant that is made of a string and
converted to a type. -/
structure Parser where
  parseExpressionList : Text → Except String (List (Option Text × Default))
  stringConstant : Text → LogicalType → Option Default

section GetTableInfo

variable (parser : Parser) (allVarchar utf8 : Bool)

/-- `ParseSQLiteDefault`. SQLite takes an identifier for a string. -/
def parseSQLiteDefault (text : Text) (type : LogicalType) : Except String (Option Default) :=
  if text = "\"\"".toList then .ok (parser.stringConstant [] type)
  else
    match parser.parseExpressionList text with
    | .error e => .error e
    | .ok [] => .error "Expression list is empty"
    | .ok ((some name, _) :: _) => .ok (parser.stringConstant name type)
    | .ok ((none, expr) :: _) => .ok (some expr)

/-- The default of a column. An empty text is no default. -/
def columnDefault (text : Text) (type : LogicalType) : Except String (Option Default) :=
  if text.isEmpty then .ok none else parseSQLiteDefault parser text type

/-- One row of `table_xinfo`. -/
def readRow (info : Info) (row : InfoRow) : Except String Info :=
  let names := info.allColumnNames ++ [row.column.name]
  if row.column.hidden then .ok { info with allColumnNames := names }
  else
    let cid := info.columns.length
    let declared := trim (fold row.column.type)
    let type := if allVarchar then .varchar else typeToLogicalType declared
    (columnDefault parser row.column.default type).map fun default =>
      { columns := info.columns ++ [⟨row.column.name, type, default⟩]
        constraints := info.constraints ++ if row.column.notNull then [.notNull cid] else []
        primaryKeys := info.primaryKeys ++ if row.pk = 0 then [] else [row.column.name]
        utf8TextAffinity := info.utf8TextAffinity ++ [utf8 && hasTextAffinity declared]
        allColumnNames := names }

/-- The loop over the rows. -/
def readRows (info : Info) : List InfoRow → Except String Info
  | [] => .ok info
  | row :: rows => do
    let info ← readRow parser allVarchar utf8 info row
    readRows info rows

/-- The entry of a table. -/
structure TableEntry where
  columns : List ColumnDefinition
  constraints : List Constraint
  utf8TextAffinity : List Bool
  rowidName : Text

/-- What is made of all rows. The list of the key columns has been moved into the constraint when
its length is tested, so that the constraint never gets an index. -/
def finish (info : Info) : Except String TableEntry :=
  if info.columns.isEmpty then .error "GetTableInfo - table not found"
  else .ok
    { columns := info.columns
      constraints := info.constraints ++
        if info.primaryKeys.isEmpty then [] else [.unique none info.primaryKeys true]
      utf8TextAffinity := info.utf8TextAffinity
      rowidName := (findRowIdName info.allColumnNames).getD [] }

/-- `SQLiteDB::GetTableInfo`. -/
def getTableInfo (t : Table) : Except String TableEntry :=
  readRows parser allVarchar utf8 Info.empty t.tableXinfo >>= finish

end GetTableInfo

/-! ### `GetIndexInfo` -/

structure IndexInfo where
  isUnique : Bool
  isPrimary : Bool
  isForeign : Bool
  columnSet : Finset ℕ

/-- The description of a key, unless it has no columns. -/
def describeKey (isPrimary : Bool) (cids : List ℕ) : List IndexInfo :=
  if cids = [] then [] else [⟨true, isPrimary, false, cids.toFinset⟩]

/-- `SQLiteDB::GetIndexInfo`. -/
def getIndexInfo (t : Table) : List IndexInfo :=
  describeKey true ((t.tableInfo.filter fun row => row.pk ≠ 0).map InfoRow.cid) ++
    t.uniqueConstraints.flatMap fun index => describeKey false index.columns

/-! ### What the descriptions should be -/

/-- The position of a column in the entry. -/
def TableEntry.logicalPosition (entry : TableEntry) (name : Text) : Option ℕ :=
  entry.columns.findIdx? fun column => fold column.name = fold name

/-- The description lists the positions, in the entry, of the columns of the key. -/
def Describes (t : Table) (entry : TableEntry) (key : List ℕ) (info : IndexInfo) : Prop :=
  ∀ p, p ∈ info.columnSet ↔ ∃ i ∈ key, ∃ column, t.columns[i]? = some column ∧
    entry.logicalPosition column.name = some p

/-! ### What is read -/

def ordinary (rows : List InfoRow) : List InfoRow :=
  rows.filter fun row => !row.column.hidden

/-- The constraints of columns that are not null, the first of which has the given position. -/
def notNulls : ℕ → List InfoRow → List Constraint
  | _, [] => []
  | cid, row :: rows =>
    (if row.column.notNull then [.notNull cid] else []) ++ notNulls (cid + 1) rows

/-- What is read of rows: the ordinary columns, in their order. -/
structure ReadFrom (rows : List InfoRow) (info info' : Info) : Prop where
  names : info'.columns.map ColumnDefinition.name =
    info.columns.map ColumnDefinition.name ++ (ordinary rows).map fun row => row.column.name
  primaryKeys : info'.primaryKeys = info.primaryKeys ++
    ((ordinary rows).filter fun row => row.pk ≠ 0).map fun row => row.column.name
  constraints : info'.constraints = info.constraints ++
    notNulls info.columns.length (ordinary rows)

theorem notNulls_append (cid : ℕ) (rows rows' : List InfoRow) :
    notNulls cid (rows ++ rows') = notNulls cid rows ++ notNulls (cid + rows.length) rows' := by
  induction rows generalizing cid with
  | nil => simp [notNulls]
  | cons row rows ih =>
    have hlength : cid + 1 + rows.length = cid + (rows.length + 1) := by omega
    simp [notNulls, ih, hlength]

theorem ordinary_append (rows rows' : List InfoRow) :
    ordinary (rows ++ rows') = ordinary rows ++ ordinary rows' :=
  List.filter_append rows rows'

theorem ReadFrom.trans {rows rows' : List InfoRow} {info info' info'' : Info}
    (h : ReadFrom rows info info') (h' : ReadFrom rows' info' info'') :
    ReadFrom (rows ++ rows') info info'' := by
  have hlength : info'.columns.length = info.columns.length + (ordinary rows).length := by
    simpa using congrArg List.length h.names
  refine ⟨?_, ?_, ?_⟩
  · simp [h'.names, h.names, ordinary_append]
  · simp [h'.primaryKeys, h.primaryKeys, ordinary_append]
  · rw [h'.constraints, h.constraints, hlength, ordinary_append, notNulls_append,
      List.append_assoc]

section Read

variable {parser : Parser} {allVarchar utf8 : Bool} {info info' : Info}

theorem readRow_reads {row : InfoRow} (h : readRow parser allVarchar utf8 info row = .ok info') :
    ReadFrom [row] info info' := by
  unfold readRow at h
  split at h
  · case isTrue hhidden =>
    cases h
    constructor <;> simp [ordinary, hhidden, notNulls]
  · case isFalse hhidden =>
    have hordinary : ordinary [row] = [row] := by simp [ordinary, hhidden]
    cases hdefault : columnDefault parser row.column.default
        (if allVarchar then .varchar else typeToLogicalType (trim (fold row.column.type))) with
    | error e => simp [hdefault, Except.map] at h
    | ok default =>
      simp only [hdefault, Except.map, Except.ok.injEq] at h
      subst h
      refine ⟨by simp [hordinary], ?_, by simp [hordinary, notNulls]⟩
      by_cases hpk : row.pk = 0 <;> simp [hordinary, hpk]

theorem readRows_reads {rows : List InfoRow}
    (h : readRows parser allVarchar utf8 info rows = .ok info') : ReadFrom rows info info' := by
  induction rows generalizing info with
  | nil =>
    cases h
    constructor <;> simp [ordinary, notNulls]
  | cons row rows ih =>
    obtain ⟨next, hrow, hrows⟩ := bind_eq_ok.mp h
    exact (readRow_reads hrow).trans (ih hrows)

end Read

/-- The entry has the ordinary columns of the table, and its primary key in the order of the
columns. -/
structure EntryOf (t : Table) (entry : TableEntry) : Prop where
  nonempty : entry.columns ≠ []
  names : entry.columns.map ColumnDefinition.name =
    (ordinary t.tableXinfo).map fun row => row.column.name
  constraints : entry.constraints = notNulls 0 (ordinary t.tableXinfo) ++
    let key := ((ordinary t.tableXinfo).filter fun row => row.pk ≠ 0).map fun row => row.column.name
    if key.isEmpty then [] else [.unique none key true]

theorem entryOf_getTableInfo {parser : Parser} {allVarchar utf8 : Bool} {t : Table}
    {entry : TableEntry} (h : getTableInfo parser allVarchar utf8 t = .ok entry) :
    EntryOf t entry := by
  obtain ⟨info, hrows, hfinish⟩ := bind_eq_ok.mp h
  have hread := readRows_reads hrows
  unfold finish at hfinish
  split at hfinish
  · cases hfinish
  · case isFalse hempty =>
    cases hfinish
    exact ⟨by simpa using hempty, by simpa [Info.empty] using hread.names,
      by simp [hread.constraints, hread.primaryKeys, Info.empty]⟩

/-! ### Positions -/

section Positions

variable {α β : Type} {p : α → Bool}

/-- The elements that are left have the number of those before them as their position. -/
theorem getElem?_filter_iff {l : List α} {n : ℕ} {a : α} :
    (l.filter p)[n]? = some a ↔ ∃ i, l[i]? = some a ∧ p a = true ∧ (l.take i).countP p = n := by
  induction l generalizing n with
  | nil => simp
  | cons b l ih =>
    constructor
    · intro h
      by_cases hb : p b = true
      · rw [List.filter_cons_of_pos hb] at h
        cases n with
        | zero =>
          obtain rfl : b = a := by simpa using h
          exact ⟨0, rfl, hb, by simp⟩
        | succ n =>
          obtain ⟨i, hi, ha, hn⟩ := ih.mp (by simpa using h)
          exact ⟨i + 1, by simpa using hi, ha, by simp [hb, hn]⟩
      · rw [List.filter_cons_of_neg hb] at h
        obtain ⟨i, hi, ha, hn⟩ := ih.mp h
        exact ⟨i + 1, by simpa using hi, ha, by simp [hb, hn]⟩
    · rintro ⟨i, hi, ha, rfl⟩
      cases i with
      | zero =>
        obtain rfl : b = a := by simpa using hi
        simp [ha]
      | succ i =>
        have hrest := ih.mpr ⟨i, by simpa using hi, ha, rfl⟩
        by_cases hb : p b = true
        · simpa [hb] using hrest
        · simpa [hb] using hrest

/-- With different keys, an element that is left is found at its position. -/
theorem findIdx?_filter [DecidableEq β] {f : α → β} {l : List α} (hnodup : (l.map f).Nodup) {i : ℕ}
    {a : α} (hi : l[i]? = some a) :
    (l.filter p).findIdx? (fun b => f b = f a) =
      if p a then some ((l.take i).countP p) else none := by
  induction l generalizing i with
  | nil => simp at hi
  | cons b l ih =>
    obtain ⟨hb, hnodup⟩ := List.nodup_cons.mp hnodup
    cases i with
    | zero =>
      obtain rfl : b = a := by simpa using hi
      by_cases hp : p b = true
      · simp [hp, List.findIdx?_cons]
      · rw [List.filter_cons_of_neg hp, if_neg hp, List.findIdx?_eq_none_iff]
        intro c hc
        have hne : f c ≠ f b := by
          intro heq
          exact hb (heq ▸ List.mem_map_of_mem (List.mem_of_mem_filter hc))
        simpa using hne
    | succ i =>
      have ha : l[i]? = some a := by simpa using hi
      have hne : f b ≠ f a := by
        intro heq
        exact hb (heq ▸ List.mem_map_of_mem (List.mem_of_getElem? ha))
      by_cases hp : p b = true
      · rw [List.filter_cons_of_pos hp, List.findIdx?_cons, ih hnodup ha]
        by_cases hpa : p a = true <;> simp [hne, hp, hpa]
      · rw [List.filter_cons_of_neg hp, ih hnodup ha]
        simp [hp]

end Positions

namespace Table

variable {t : Table} {i : ℕ}

/-- The number of ordinary columns before a position. -/
def rank (t : Table) (i : ℕ) : ℕ :=
  (t.columns.take i).countP fun column => !column.hidden

/-- No generated column stands before the position or at it. -/
def Plain (t : Table) (i : ℕ) : Prop :=
  ∀ j ≤ i, ∀ column, t.columns[j]? = some column → column.hidden = false

theorem rank_le (t : Table) (i : ℕ) : t.rank i ≤ i :=
  Nat.le_trans List.countP_le_length (List.length_take_le i t.columns)

theorem rank_eq_iff (hi : i < t.columns.length) : t.rank i = i ↔
    ∀ j < i, ∀ column, t.columns[j]? = some column → column.hidden = false := by
  have hlength : (t.columns.take i).length = i := List.length_take_of_le (Nat.le_of_lt hi)
  have hcount := List.countP_eq_length (p := fun column : Column => !column.hidden)
    (l := t.columns.take i)
  rw [hlength] at hcount
  rw [rank, hcount]
  constructor
  · intro h j hj column hcolumn
    have hmem : column ∈ t.columns.take i :=
      List.mem_of_getElem? ((List.getElem?_take_of_lt hj).trans hcolumn)
    simpa using h column hmem
  · intro h column hmem
    obtain ⟨j, hj⟩ := List.mem_iff_getElem?.mp hmem
    have hlt : j < i := by
      have := (List.getElem?_eq_some_iff.mp hj).1
      omega
    rw [List.getElem?_take_of_lt hlt] at hj
    simpa using h j hlt column hj

theorem plain_iff {column : Column} (hi : t.columns[i]? = some column) :
    t.Plain i ↔ column.hidden = false ∧ t.rank i = i := by
  have hlt := (List.getElem?_eq_some_iff.mp hi).1
  rw [rank_eq_iff hlt]
  constructor
  · intro h
    exact ⟨h i (Nat.le_refl i) column hi, fun j hj => h j (Nat.le_of_lt hj)⟩
  · rintro ⟨hcolumn, h⟩ j hj other hother
    rcases Nat.lt_or_eq_of_le hj with hj | rfl
    · exact h j hj other hother
    · cases hi.symm.trans hother
      exact hcolumn

theorem column_tableXinfo (t : Table) : t.tableXinfo.map InfoRow.column = t.columns := by
  apply List.ext_getElem?
  intro i
  simp [tableXinfo, Function.comp_def]

theorem ordinary_tableXinfo (t : Table) : (ordinary t.tableXinfo).map InfoRow.column =
    t.columns.filter fun column => !column.hidden := by
  rw [← column_tableXinfo, List.filter_map]
  rfl

theorem getElem?_tableXinfo {row : InfoRow} : t.tableXinfo[i]? = some row ↔
    t.columns[i]? = some row.column ∧ row.cid = i ∧ row.pk = t.keyNumber i := by
  obtain ⟨cid, column, pk⟩ := row
  simp only [tableXinfo, List.getElem?_mapIdx, Option.map_eq_some_iff, InfoRow.mk.injEq]
  constructor
  · rintro ⟨c, hc, rfl, rfl, rfl⟩
    exact ⟨hc, rfl, rfl⟩
  · rintro ⟨hc, rfl, rfl⟩
    exact ⟨column, hc, rfl, rfl, rfl⟩

theorem keyNumber_ne_zero : t.keyNumber i ≠ 0 ↔ i ∈ t.primaryKey := by
  unfold keyNumber
  split <;> simp [*]

end Table

section Descriptions

variable {t : Table} {entry : TableEntry}

/-- **An ordinary column is in the entry at the number of ordinary columns before it, and a
generated column is not there.** -/
theorem EntryOf.logicalPosition_name (h : EntryOf t entry) {i : ℕ} {column : Column}
    (hi : t.columns[i]? = some column) : entry.logicalPosition column.name =
      if column.hidden then none else some (t.rank i) := by
  have hnames : entry.columns.map ColumnDefinition.name =
      (t.columns.filter fun column => !column.hidden).map Column.name := by
    rw [h.names, ← t.ordinary_tableXinfo, List.map_map]
    rfl
  have hfind : entry.logicalPosition column.name =
      (entry.columns.map ColumnDefinition.name).findIdx?
        fun name => fold name = fold column.name := by
    rw [List.findIdx?_map]
    rfl
  rw [hfind, hnames, List.findIdx?_map]
  refine (findIdx?_filter (p := fun column => !column.hidden) t.names_nodup hi).trans ?_
  by_cases hhidden : column.hidden = true
  · simp [hhidden]
  · simp [hhidden, Table.rank]

/-- The columns of the primary key, as `pragma_table_info` counts them. -/
theorem mem_primaryKey_cids {n : ℕ} :
    n ∈ (t.tableInfo.filter fun row => row.pk ≠ 0).map InfoRow.cid ↔
      ∃ i ∈ t.primaryKey, t.rank i = n := by
  have hrank (i : ℕ) : (t.tableXinfo.take i).countP (fun row => !row.column.hidden) = t.rank i := by
    rw [Table.rank, ← t.column_tableXinfo, ← List.map_take, List.countP_map]
    rfl
  have hrow : n ∈ (t.tableInfo.filter fun row => row.pk ≠ 0).map InfoRow.cid ↔
      ∃ row, (ordinary t.tableXinfo)[n]? = some row ∧ row.pk ≠ 0 := by
    simp only [Table.tableInfo, List.mem_map, List.mem_filter, List.mem_mapIdx]
    constructor
    · rintro ⟨_, ⟨⟨i, hi, rfl⟩, hpk⟩, rfl⟩
      exact ⟨_, List.getElem?_eq_getElem hi, by simpa using hpk⟩
    · rintro ⟨row, hrow, hpk⟩
      rw [ordinary] at hrow
      obtain ⟨hn, rfl⟩ := List.getElem?_eq_some_iff.mp hrow
      exact ⟨_, ⟨⟨n, hn, rfl⟩, by simpa using hpk⟩, rfl⟩
  rw [hrow]
  constructor
  · rintro ⟨row, hn, hpk⟩
    obtain ⟨i, hi, -, rfl⟩ := getElem?_filter_iff.mp hn
    obtain ⟨-, -, hnumber⟩ := Table.getElem?_tableXinfo.mp hi
    exact ⟨i, Table.keyNumber_ne_zero.mp (hnumber ▸ hpk), (hrank i).symm⟩
  · rintro ⟨i, hi, rfl⟩
    obtain ⟨column, hcolumn, hordinary⟩ := t.primaryKey_ordinary i hi
    refine ⟨⟨i, column, t.keyNumber i⟩, getElem?_filter_iff.mpr ⟨i, ?_, by simpa, hrank i⟩, ?_⟩
    · exact Table.getElem?_tableXinfo.mpr ⟨hcolumn, rfl, rfl⟩
    · exact Table.keyNumber_ne_zero.mpr hi

/-- The description of the primary key is right. -/
theorem describes_primaryKey (h : EntryOf t entry) {info : IndexInfo} (hset : info.columnSet =
      ((t.tableInfo.filter fun row => row.pk ≠ 0).map InfoRow.cid).toFinset) :
    Describes t entry t.primaryKey info := by
  intro p
  rw [hset, List.mem_toFinset, mem_primaryKey_cids]
  constructor
  · rintro ⟨i, hi, rfl⟩
    obtain ⟨column, hcolumn, hordinary⟩ := t.primaryKey_ordinary i hi
    exact ⟨i, hi, column, hcolumn, by simp [h.logicalPosition_name hcolumn, hordinary]⟩
  · rintro ⟨i, hi, column, hcolumn, hp⟩
    obtain ⟨other, hother, hordinary⟩ := t.primaryKey_ordinary i hi
    cases hcolumn.symm.trans hother
    rw [h.logicalPosition_name hcolumn] at hp
    exact ⟨i, hi, by simpa [hordinary] using hp⟩

/-- The description of a `UNIQUE` constraint lists the positions among all columns. The last of them
is the position of a column of the constraint, so it is not less than the position that this column
has among all columns. -/
theorem describes_unique_iff (h : EntryOf t entry) {key : List ℕ}
    (hkey : ∀ i ∈ key, i < t.columns.length) {info : IndexInfo}
    (hset : info.columnSet = key.toFinset) :
    Describes t entry key info ↔ ∀ i ∈ key, t.Plain i := by
  constructor
  · intro hdescribes i hi
    have hnonempty : key.toFinset.Nonempty := ⟨i, List.mem_toFinset.mpr hi⟩
    obtain ⟨last, hlast, hmax⟩ := key.toFinset.exists_max_image id hnonempty
    obtain ⟨j, hj, column, hcolumn, hposition⟩ := (hdescribes last).mp (hset ▸ hlast)
    rw [h.logicalPosition_name hcolumn] at hposition
    have hordinary : column.hidden = false := by
      by_contra hhidden
      simp [hhidden] at hposition
    have hrank : t.rank j = last := by simpa [hordinary] using hposition
    have hle : j ≤ last := hmax j (List.mem_toFinset.mpr hj)
    have hself : t.rank j = j := Nat.le_antisymm (t.rank_le j) (hrank ▸ hle)
    have hplain : t.Plain j := (Table.plain_iff hcolumn).mpr ⟨hordinary, hself⟩
    have hi_le : i ≤ j := by
      have := hmax i (List.mem_toFinset.mpr hi)
      simp only [id] at this
      omega
    exact fun k hk => hplain k (Nat.le_trans hk hi_le)
  · intro hplain p
    rw [hset, List.mem_toFinset]
    have hposition (i : ℕ) (hi : i ∈ key) (column : Column)
        (hcolumn : t.columns[i]? = some column) :
        entry.logicalPosition column.name = some i := by
      obtain ⟨hordinary, hrank⟩ := (Table.plain_iff hcolumn).mp (hplain i hi)
      simp [h.logicalPosition_name hcolumn, hordinary, hrank]
    constructor
    · intro hp
      have hcolumn := List.getElem?_eq_getElem (hkey p hp)
      exact ⟨p, hp, _, hcolumn, hposition p hp _ hcolumn⟩
    · rintro ⟨i, hi, column, hcolumn, hp⟩
      obtain rfl : i = p := by simpa [hposition i hi column hcolumn] using hp
      exact hi

theorem describes_uniqueConstraints_iff (h : EntryOf t entry) {indexes : List Index}
    (hindexes : ∀ index ∈ indexes, index.columns ≠ [] ∧ ∀ i ∈ index.columns, i < t.columns.length) :
    List.Forall₂ (Describes t entry) (indexes.map Index.columns)
        (indexes.flatMap fun index => describeKey false index.columns) ↔
      ∀ index ∈ indexes, ∀ i ∈ index.columns, t.Plain i := by
  induction indexes with
  | nil => simp
  | cons index indexes ih =>
    obtain ⟨hne, hlt⟩ := hindexes index (by simp)
    have hrest := ih fun other hother => hindexes other (by simp [hother])
    simp only [List.map_cons, List.flatMap_cons, describeKey, if_neg hne, List.cons_append,
      List.nil_append, List.forall₂_cons, List.mem_cons, forall_eq_or_imp]
    rw [describes_unique_iff h hlt rfl]
    exact and_congr_right fun _ => hrest

/-- **The descriptions of the keys list the positions of their columns in the entry exactly if no
generated column is part of a `UNIQUE` constraint or stands before one of its columns.** -/
theorem getIndexInfo_describes_iff {parser : Parser} {allVarchar utf8 : Bool}
    (hread : getTableInfo parser allVarchar utf8 t = .ok entry) :
    List.Forall₂ (Describes t entry) t.keys (getIndexInfo t) ↔
      ∀ index ∈ t.uniqueConstraints, ∀ i ∈ index.columns, t.Plain i := by
  have h := entryOf_getTableInfo hread
  have hcolumns : ∀ index ∈ t.uniqueConstraints,
      index.columns ≠ [] ∧ ∀ i ∈ index.columns, i < t.columns.length := by
    intro index hindex
    obtain ⟨hmem, horigin⟩ := List.mem_filter.mp hindex
    simp only [Bool.and_eq_true, decide_eq_true_eq] at horigin
    exact t.unique_columns index hmem horigin.2
  rw [← describes_uniqueConstraints_iff h hcolumns]
  unfold Table.keys getIndexInfo
  by_cases hkey : t.primaryKey = []
  · have hcids : (t.tableInfo.filter fun row => row.pk ≠ 0).map InfoRow.cid = [] := by
      apply List.eq_nil_iff_forall_not_mem.mpr
      intro n hn
      obtain ⟨i, hi, -⟩ := mem_primaryKey_cids.mp hn
      simp [hkey] at hi
    rw [if_pos hkey, hcids]
    rfl
  · obtain ⟨i, hi⟩ := List.exists_mem_of_ne_nil _ hkey
    have hcids : (t.tableInfo.filter fun row => row.pk ≠ 0).map InfoRow.cid ≠ [] :=
      List.ne_nil_of_mem (mem_primaryKey_cids.mpr ⟨i, hi, rfl⟩)
    rw [if_neg hkey, describeKey, if_neg hcids]
    exact List.forall₂_cons.trans (and_iff_right (describes_primaryKey h rfl))

end Descriptions

/-! ### A generated column before and after a `UNIQUE` constraint -/

/-- The default `1`. -/
def Default.one : Default where
  pieces := [.token (.number ['1'])]
  separated := ⟨⟨⟨['1'], none, none, by decide, by simp, nofun, nofun, nofun⟩, rfl⟩, rfl, trivial⟩
  balanced := rfl

/-- A parser that only knows the default `1`. -/
def Parser.one : Parser where
  parseExpressionList text := if text = ['1'] then .ok [(none, .one)] else .ok []
  stringConstant _ _ := none

def plainColumn (name : Text) (hidden : Bool) : Column :=
  ⟨name, "int".toList, false, [], hidden⟩

/-- `CREATE TABLE t(g INT AS (1), a INT UNIQUE, b INT)`. -/
def generatedBefore : Table where
  columns := [plainColumn ['g'] true, plainColumn ['a'] false, plainColumn ['b'] false]
  primaryKey := []
  indexes := [⟨true, .u, [1]⟩]
  names_nodup := by decide
  primaryKey_nodup := List.nodup_nil
  primaryKey_ordinary := by simp
  unique_columns := by simp

/-- `CREATE TABLE t(a INT UNIQUE, g INT AS (1), b INT DEFAULT 1, PRIMARY KEY (b))`. -/
def generatedAfter : Table where
  columns := [plainColumn ['a'] false, plainColumn ['g'] true,
    { plainColumn ['b'] false with default := ['1'] }]
  primaryKey := [2]
  indexes := [⟨true, .u, [0]⟩]
  names_nodup := by decide
  primaryKey_nodup := List.nodup_singleton 2
  primaryKey_ordinary := by simp [plainColumn]
  unique_columns := by simp

/-- The constraint is on `a`, which is the first column of the entry. It is described as one on the
second, which is `b`. -/
theorem generated_column_shifts_description : ∃ entry,
    getTableInfo Parser.one false true generatedBefore = .ok entry ∧
      entry.logicalPosition ['a'] = some 0 ∧ entry.logicalPosition ['b'] = some 1 ∧
      (getIndexInfo generatedBefore).map IndexInfo.columnSet = [{1}] ∧
      ¬ List.Forall₂ (Describes generatedBefore entry) generatedBefore.keys
        (getIndexInfo generatedBefore) := by
  refine ⟨_, rfl, by decide, by decide, by decide, ?_⟩
  intro h
  obtain ⟨hdescribes, -⟩ := List.forall₂_cons.mp h
  obtain ⟨i, hi, column, hcolumn, hposition⟩ := (hdescribes 1).mp (by decide)
  obtain rfl : i = 1 := by simpa using hi
  cases hcolumn
  exact absurd hposition (by decide)

theorem getIndexInfo_generatedAfter : ∃ entry,
    getTableInfo Parser.one false true generatedAfter = .ok entry ∧
      List.Forall₂ (Describes generatedAfter entry) generatedAfter.keys
        (getIndexInfo generatedAfter) := by
  obtain ⟨entry, hread⟩ : ∃ entry,
      getTableInfo Parser.one false true generatedAfter = .ok entry := ⟨_, rfl⟩
  refine ⟨entry, hread, (getIndexInfo_describes_iff hread).mpr ?_⟩
  intro index hindex i hi j hj column hcolumn
  obtain rfl : index = ⟨true, .u, [0]⟩ := List.mem_singleton.mp hindex
  obtain rfl : i = 0 := List.mem_singleton.mp hi
  obtain rfl : j = 0 := Nat.le_zero.mp hj
  cases hcolumn
  rfl

end SqliteScanner.TableInfo
