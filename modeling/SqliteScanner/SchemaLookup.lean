import SqliteScanner.Internal.Lexing

/-!
# Looking up an object of the schema

`GetEntryType` finds the kind of the table, view or index with a name, and `GetViewInfo` and
`GetIndexInfo` read its definition. All three select from `sqlite_master` by the name alone, without
regard to the case of ASCII letters, and take the first row.

Tables, views and indexes share one namespace, but triggers have another. So the first row may be that
of a trigger, for which `GetEntryType` has no kind: it throws an internal exception, although there may
be a table with the name. The name is sent to SQLite in a text that ends at the first `NUL`, so a name
with a `NUL` in it leaves a string that is not closed.

`lookup_iff` says that nothing else goes wrong: otherwise the first row is that of the object.

## Main definitions

* `getEntryType`, `getIndexInfo`, `getViewInfo` — the source's functions
* `Master` — the contents of `sqlite_master`
* `LooksUp`, `Visible` — the object is found, and when it is

## Main results

* `nameLiteral_eq` — the name that SQLite reads in the query
* `eq_of_find?` — the first row that is not a trigger's is that of the object
* `lookup_iff`
-/

namespace SqliteScanner.SchemaLookup

open Lexing

/-! ### The schema table -/

inductive ObjectType where
  | table
  | view
  | index
  | trigger
deriving DecidableEq

/-- A row of `sqlite_master`. An automatic index has no SQL. -/
structure Row where
  type : ObjectType
  name : Text
  tblName : Text
  sql : Option Text
deriving DecidableEq

def nul : Char := Char.ofNat 0

/-- SQLite's `lower`. -/
def lower (text : Text) : Text := text.map Char.toLower

/-- The contents of `sqlite_master`. SQLite keeps the names of tables, views and indexes apart, and all
texts come from statements, which have no `NUL` in them. -/
structure Master where
  rows : List Row
  unique : rows.Pairwise fun a b =>
    a.type ≠ .trigger → b.type ≠ .trigger → lower a.name ≠ lower b.name
  noNul : ∀ row ∈ rows, nul ∉ row.tblName ∧ ∀ sql ∈ row.sql, nul ∉ sql

/-! ### The queries -/

inductive Exception where
  | internal (message : Text)
  /-- SQLite does not take the query. -/
  | runtime (message : Text)
deriving DecidableEq

/-- A C string ends before its first `NUL`. -/
def cString (text : Text) : Text := text.takeWhile (· ≠ nul)

/-- The name that SQLite reads in `.. lower(name)=lower('%s');`, if the string is closed. -/
def nameLiteral (name : Text) : Option Text :=
  (readQuoted '\'' (cString (escape '\'' name ++ "');".toList))).map Prod.fst

/-- `SQLiteStatement::GetValue<string>`. -/
def getValue (value : Option Text) : Text :=
  match value with
  | none => []
  | some text => cString text

/-- The rows with a name, as the queries select them. -/
def select (master : Master) (name : Text) : Except Exception (List Row) :=
  match nameLiteral name with
  | none => .error (.runtime "Failed to prepare query: unrecognized token".toList)
  | some literal => .ok (master.rows.filter fun row => lower row.name = lower literal)

inductive CatalogType where
  | tableEntry
  | viewEntry
  | indexEntry
  | invalid
deriving DecidableEq

/-- `SQLiteDB::GetEntryType`. -/
def getEntryType (master : Master) (name : Text) : Except Exception CatalogType := do
  match ← select master name with
  | [] => return .invalid
  | row :: _ =>
    match row.type with
    | .table => return .tableEntry
    | .view => return .viewEntry
    | .index => return .indexEntry
    | .trigger =>
      throw (.internal ("Unrecognized SQLite type \"".toList ++ name ++ "\"".toList))

/-- `SQLiteDB::GetIndexInfo`: the table and the SQL. -/
def getIndexInfo (master : Master) (name : Text) : Except Exception (Text × Text) := do
  match ← select master name with
  | [] => throw (.internal ("GetViewInfo - index \"".toList ++ name ++ "\" not found".toList))
  | row :: _ => return (getValue row.tblName, getValue row.sql)

/-- `SQLiteDB::GetViewInfo`: the SQL. -/
def getViewInfo (master : Master) (name : Text) : Except Exception Text := do
  match ← select master name with
  | [] => throw (.internal ("GetViewInfo - view \"".toList ++ name ++ "\" not found".toList))
  | row :: _ => return getValue row.sql

/-! ### What a lookup should find -/

def ObjectType.catalogType : ObjectType → CatalogType
  | table => .tableEntry
  | view => .viewEntry
  | index => .indexEntry
  | trigger => .invalid

/-- The row is that of the table, view or index with a name. -/
def Row.IsObject (name : Text) (row : Row) : Prop :=
  row.type ≠ .trigger ∧ lower row.name = lower name

/-- The object with a name is found, or that there is none. -/
structure LooksUp (master : Master) (name : Text) : Prop where
  entryType : ∀ row ∈ master.rows, row.IsObject name →
    getEntryType master name = .ok row.type.catalogType
  indexInfo : ∀ row ∈ master.rows, row.IsObject name →
    getIndexInfo master name = .ok (row.tblName, row.sql.getD [])
  viewInfo : ∀ row ∈ master.rows, row.IsObject name →
    getViewInfo master name = .ok (row.sql.getD [])
  invalid : (∀ row ∈ master.rows, ¬ row.IsObject name) → getEntryType master name = .ok .invalid

/-- The name has no `NUL` in it, and the first row with it is not that of a trigger. -/
def Visible (master : Master) (name : Text) : Prop :=
  nul ∉ name ∧
    ∀ row ∈ master.rows.find? (fun row => lower row.name = lower name), row.type ≠ .trigger

/-! ### The name in the query -/

theorem cString_cons {c : Char} (hc : c ≠ nul) (text : Text) :
    cString (c :: text) = c :: cString text :=
  List.takeWhile_cons_of_pos (by simpa using hc)

theorem cString_append {text : Text} (h : nul ∉ text) (rest : Text) :
    cString (text ++ rest) = text ++ cString rest := by
  refine List.takeWhile_append_of_pos fun c hc => ?_
  simpa using fun heq : c = nul => h (heq ▸ hc)

theorem cString_eq_self {text : Text} (h : nul ∉ text) : cString text = text := by
  have happend := cString_append h []
  rwa [List.append_nil, cString, cString, List.takeWhile_nil, List.append_nil] at happend

theorem escape_cons (q c : Char) (s : Text) : escape q (c :: s) = escape q [c] ++ escape q s := by
  rw [escape, escape, escape, List.flatMap_cons, List.flatMap_singleton]

variable {name : Text}

theorem nul_mem_escape : nul ∈ escape '\'' name ↔ nul ∈ name := by
  rw [escape, List.mem_flatMap]
  constructor
  · rintro ⟨c, hc, hmem⟩
    split at hmem
    case isTrue => exact absurd hmem (by decide)
    case isFalse => rwa [List.mem_singleton.mp hmem]
  · intro hmem
    refine ⟨nul, hmem, ?_⟩
    rw [if_neg (by decide)]
    exact List.mem_singleton_self _

/-- A string that is not closed is not read. -/
theorem readQuoted_escape_eq_none {q : Char} (s : Text) : readQuoted q (escape q s) = none := by
  induction s with
  | nil => rfl
  | cons c s ih =>
    rw [escape, List.flatMap_cons, ← escape]
    by_cases hc : c = q
    · rw [if_pos hc]
      simp [readQuoted, ih]
    · rw [if_neg hc, List.singleton_append]
      cases hs : escape q s with
      | nil => rw [readQuoted, if_neg hc]
      | cons d ds => rw [readQuoted, if_neg hc, ← hs, ih, Option.map_none]

/-- The text ends within the name if there is a `NUL` in it. -/
theorem cString_escape {name rest : Text} (h : nul ∈ name) :
    cString (escape '\'' name ++ rest) = escape '\'' (cString name) := by
  induction name with
  | nil => exact absurd h List.not_mem_nil
  | cons c name ih =>
    by_cases hc : c = nul
    · subst hc
      rfl
    · have hfirst : nul ∉ escape '\'' [c] := by
        rw [nul_mem_escape, List.mem_singleton]
        exact Ne.symm hc
      rw [escape_cons, List.append_assoc, cString_append hfirst,
        ih ((List.mem_cons.mp h).resolve_left (Ne.symm hc)), cString_cons hc, ← escape_cons]

/-- **The name that SQLite reads in the query.** -/
theorem nameLiteral_eq (name : Text) :
    nameLiteral name = if nul ∈ name then none else some name := by
  rw [nameLiteral]
  split
  case isTrue hnul => rw [cString_escape hnul, readQuoted_escape_eq_none, Option.map_none]
  case isFalse hnul =>
    have hclosed : nul ∉ escape '\'' name ++ "');".toList := by
      rw [List.mem_append, nul_mem_escape, not_or]
      exact ⟨hnul, by decide⟩
    rw [cString_eq_self hclosed]
    exact congrArg (Option.map Prod.fst) (readQuoted_escape name (by decide))

/-! ### The first row -/

variable {master : Master}

theorem select_eq_ok (h : nul ∉ name) :
    select master name = .ok (master.rows.filter fun row => lower row.name = lower name) := by
  rw [select, nameLiteral_eq, if_neg h]

theorem select_eq_error (master : Master) (h : nul ∈ name) :
    ∃ e, select master name = .error e := by
  rw [select, nameLiteral_eq, if_pos h]
  exact ⟨_, rfl⟩

/-- The first row with a name is that of the object, if it is not that of a trigger. -/
theorem eq_of_find? {first row : Row}
    (hfirst : master.rows.find? (fun row => lower row.name = lower name) = some first)
    (htype : first.type ≠ .trigger) (hrow : row ∈ master.rows) (hobject : row.IsObject name) :
    row = first := by
  obtain ⟨hname, before, after, hrows, hbefore⟩ := List.find?_eq_some_iff_append.mp hfirst
  rw [decide_eq_true_eq] at hname
  have hunique := master.unique
  rw [hrows] at hrow hunique
  rcases List.mem_append.mp hrow with hmem | hmem
  · simpa [hobject.2] using hbefore row hmem
  · rcases List.mem_cons.mp hmem with rfl | hafter
    · rfl
    · have hdiffer := (List.pairwise_cons.mp (List.pairwise_append.mp hunique).2.1).1 row hafter
      exact absurd (hname.trans hobject.2.symm) (hdiffer htype hobject.1)

theorem getValue_eq_getD {value : Option Text} (h : ∀ text ∈ value, nul ∉ text) :
    getValue value = value.getD [] := by
  cases value with
  | none => rfl
  | some text => exact cString_eq_self (h text rfl)

section First

variable {master : Master} {name : Text} (hnul : nul ∉ name)

include hnul

theorem getEntryType_of_find?_eq_none
    (hnone : master.rows.find? (fun row => lower row.name = lower name) = none) :
    getEntryType master name = .ok .invalid := by
  rw [← List.head?_filter, List.head?_eq_none_iff] at hnone
  rw [getEntryType, select_eq_ok hnul, hnone]
  rfl

variable {first : Row}
  (hfirst : master.rows.find? (fun row => lower row.name = lower name) = some first)

include hfirst

theorem select_of_find? : ∃ rest, select master name = .ok (first :: rest) := by
  rw [← List.head?_filter, List.head?_eq_some_iff] at hfirst
  obtain ⟨rest, hrest⟩ := hfirst
  exact ⟨rest, by rw [select_eq_ok hnul, hrest]⟩

theorem getEntryType_of_find? (htype : first.type ≠ .trigger) :
    getEntryType master name = .ok first.type.catalogType := by
  obtain ⟨rest, hselect⟩ := select_of_find? hnul hfirst
  rw [getEntryType, hselect]
  cases h : first.type with
  | trigger => exact absurd h htype
  | table | view | index => simp [h, bind, Except.bind, pure, Except.pure, ObjectType.catalogType]

/-- A trigger in the first row is an internal error. -/
theorem getEntryType_of_trigger (htype : first.type = .trigger) :
    ∃ e, getEntryType master name = .error e := by
  obtain ⟨rest, hselect⟩ := select_of_find? hnul hfirst
  rw [getEntryType, hselect]
  exact ⟨_, by simp only [htype, bind, Except.bind]; rfl⟩

end First

/-! ### When an object is found -/

/-- A lookup never throws if the object is found, or that there is none. -/
theorem LooksUp.exists_ok (h : LooksUp master name) :
    ∃ type, getEntryType master name = .ok type := by
  by_cases hnone : ∀ row ∈ master.rows, ¬ row.IsObject name
  · exact ⟨_, h.invalid hnone⟩
  · push Not at hnone
    obtain ⟨row, hrow, hobject⟩ := hnone
    exact ⟨_, h.entryType row hrow hobject⟩

theorem visible_of_looksUp (h : LooksUp master name) :
    Visible master name := by
  obtain ⟨type, hok⟩ := h.exists_ok
  have hnul : nul ∉ name := by
    intro hnul
    obtain ⟨e, hselect⟩ := select_eq_error master hnul
    rw [getEntryType, hselect] at hok
    exact Except.noConfusion rfl rfl (heq_of_eq hok)
  refine ⟨hnul, fun first hfirst htrigger => ?_⟩
  obtain ⟨e, herror⟩ := getEntryType_of_trigger hnul hfirst htrigger
  rw [herror] at hok
  exact Except.noConfusion rfl rfl (heq_of_eq hok)

theorem looksUp_of_visible (h : Visible master name) :
    LooksUp master name := by
  obtain ⟨hnul, hvisible⟩ := h
  cases hfind : master.rows.find? (fun row => lower row.name = lower name) with
  | none =>
    have hnone : ∀ row ∈ master.rows, ¬ row.IsObject name := by
      intro row hrow hobject
      have hname := List.find?_eq_none.mp hfind row hrow
      exact hname (decide_eq_true hobject.2)
    exact ⟨fun row hrow hobject => absurd hobject (hnone row hrow),
      fun row hrow hobject => absurd hobject (hnone row hrow),
      fun row hrow hobject => absurd hobject (hnone row hrow),
      fun _ => getEntryType_of_find?_eq_none hnul hfind⟩
  | some first =>
    have htype := hvisible first hfind
    have hmem := List.mem_of_find?_eq_some hfind
    have hobject : first.IsObject name := ⟨htype, by simpa using List.find?_some hfind⟩
    have hsame : ∀ row ∈ master.rows, row.IsObject name → row = first := fun row =>
      eq_of_find? hfind htype
    obtain ⟨rest, hselect⟩ := select_of_find? hnul hfind
    obtain ⟨htable, hsql⟩ := master.noNul first hmem
    refine ⟨?_, ?_, ?_, fun hnone => absurd hobject (hnone first hmem)⟩
    · rintro row hrow hrowObject
      rw [hsame row hrow hrowObject, getEntryType_of_find? hnul hfind htype]
    · rintro row hrow hrowObject
      rw [hsame row hrow hrowObject, getIndexInfo, hselect, ← getValue_eq_getD hsql,
        ← cString_eq_self htable]
      rfl
    · rintro row hrow hrowObject
      rw [hsame row hrow hrowObject, getViewInfo, hselect, ← getValue_eq_getD hsql]
      rfl

/-- **When a lookup is not confused by other objects**: exactly if the name has no `NUL` in it and the
first row with the name is not that of a trigger. -/
theorem lookup_iff (master : Master) (name : Text) :
    LooksUp master name ↔ Visible master name :=
  ⟨visible_of_looksUp, looksUp_of_visible⟩

/-- A trigger with the name of a table, written before it. -/
def auditedTable : Master where
  rows := [⟨.trigger, "Audit".toList, "t".toList, some "CREATE TRIGGER ..".toList⟩,
    ⟨.table, "audit".toList, "audit".toList, some "CREATE TABLE audit(i)".toList⟩]
  unique := by decide
  noNul := by decide

/-- The table is not found. -/
theorem trigger_before_table :
    getEntryType auditedTable "audit".toList =
        .error (.internal "Unrecognized SQLite type \"audit\"".toList) ∧
      ¬ LooksUp auditedTable "audit".toList := by
  have herror : getEntryType auditedTable "audit".toList =
      .error (.internal "Unrecognized SQLite type \"audit\"".toList) := by decide
  refine ⟨herror, fun h => ?_⟩
  obtain ⟨type, hok⟩ := h.exists_ok
  rw [herror] at hok
  exact Except.noConfusion rfl rfl (heq_of_eq hok)

end SqliteScanner.SchemaLookup
