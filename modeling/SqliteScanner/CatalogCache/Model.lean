import Mathlib.Logic.Function.Basic
import SqliteScanner.Internal.Runs

/-!
# The catalog cache of a transaction

DuckDB asks the schema entry of a SQLite database for tables, views and indexes by name. The
transaction answers from a map of the entries that it has made so far (`SQLiteCatalogMap`), and
reads SQLite's schema only for a name that is not in the map. An entry leaves the map in two ways: a
`DROP` removes the entry of the name that is dropped, and an `ALTER TABLE` that of the table that is
altered.

One statement of SQLite can change more than the object it names. Dropping a table drops its
indexes, and renaming a table or a column rewrites indexes and views. Their entries stay in the map.
So the question is when an answer is what SQLite's schema has at that moment (`Lookup.Coherent`).
Whether it is depends on when the names have been looked up before. A sequence of changes is safe if
the answers are right wherever lookups are made between them, and this can be said without the map:
SQLite runs the sequence alone, and each change leaves the objects of the other names as they are
(`Safe`).

SQLite and DuckDB's binder are parameters. Of SQLite it is assumed that it keeps its schema in order
and what its statements do to the objects that they do not name (`Sqlite`). DuckDB binds a view when
its entry is made, and looks up the tables and views in it: these are lookups like any other, made
before that of the view.

## Main definitions

* `Schema`, `Sqlite` — SQLite's schema, and what is assumed of the statements that change it.
* `getCatalogEntry`, `dropEntry`, `createTable`, `alter` — the functions of the source.
* `describe`, `Lookup.Coherent` — what the schema has under a name, and right answers.
* `Change.effect`, `Change.Disturbs`, `Safe` — changes of SQLite's schema alone, and the condition.
-/

namespace SqliteScanner.CatalogCache

open Runs

/-! ### SQLite's schema -/

abbrev Name := List Char

/-- Names are compared without regard to the case of ASCII letters, by SQLite's `lower` and by the
map. -/
def fold (name : Name) : Name := name.map Char.toLower

structure Column where
  name : Name
  type : List Char
  deriving DecidableEq, Repr

/-- The SQL that SQLite keeps for an index: none for an index that belongs to a constraint, and else
a text that DuckDB's parser may not take. -/
inductive IndexSql where
  | null
  | foreign
  | plain
  deriving DecidableEq, Repr

/-- An object of the schema. The definition of a view is of any type. -/
inductive Object (D : Type) where
  | table (columns : List Column)
  | view (definition : D)
  | index (table : Name) (columns : List Name) (sql : IndexSql)

inductive CatalogType where
  | table
  | view
  | index
  deriving DecidableEq, Repr

def Object.type {D : Type} : Object D → CatalogType
  | .table _ => .table
  | .view _ => .view
  | .index _ _ _ => .index

/-- The position of a column of a table. -/
def position (columns : List Column) (name : Name) : Option ℕ :=
  columns.findIdx? fun column => fold column.name = fold name

/-- The names that SQLite keeps for its own tables and for the indexes of constraints. -/
def reserved (k : Name) : Bool := "sqlite_".toList.isPrefixOf k

/-- SQLite's schema by names without case. Triggers have names of their own: `trigger` says of a
name that the first row of `sqlite_master` with it is that of a trigger. An index is one of columns
of a table. -/
structure Schema (D : Type) where
  objects : Name → Option (Object D)
  trigger : Name → Bool
  owned : ∀ k table names sql, objects k = some (.index table names sql) →
    ∃ columns, objects (fold table) = some (.table columns) ∧
      ∀ name ∈ names, (position columns name).isSome
  of_reserved : ∀ k object, reserved k = true → objects k = some object →
    object.type = .table ∨ ∃ table names, object = .index table names .null

/-- The statements that are sent to SQLite. -/
inductive Statement (D : Type) where
  | createTable (name : Name) (columns : List Column) (ifNotExists : Bool)
  | createView (name : Name) (definition : D) (ifNotExists : Bool)
  | createIndex (name table : Name) (columns : List Name) (ifNotExists : Bool)
  | drop (type : CatalogType) (name : Name)
  | renameTable (table newName : Name)
  | renameColumn (table oldName newName : Name)
  | addColumn (table : Name) (column : Column)
  | dropColumn (table column : Name)

/-- The name whose object a statement drops or alters. -/
def Statement.target {D : Type} : Statement D → Option Name
  | .createTable _ _ _ | .createView _ _ _ | .createIndex _ _ _ _ => none
  | .drop _ name => some (fold name)
  | .renameTable table _ | .renameColumn table _ _ | .addColumn table _ | .dropColumn table _ =>
    some (fold table)

/-- The name under which a statement puts an object. -/
def Statement.creates {D : Type} : Statement D → Option Name
  | .createTable name _ _ | .createView name _ _ | .createIndex name _ _ _ => some (fold name)
  | .renameTable _ newName => some (fold newName)
  | .drop _ _ | .renameColumn _ _ _ | .addColumn _ _ | .dropColumn _ _ => none

/-- A column of an index after `RENAME COLUMN`. -/
def renamed (oldName newName name : Name) : Name :=
  if fold name = fold oldName then newName else name

/-- SQLite. A statement fails, or leaves a new schema. Virtual tables, which take other tables along,
are left out. -/
structure Sqlite (D : Type) where
  execute : Statement D → Schema D → Option (Schema D)
  /-- A table is only changed by a statement that drops or alters it. -/
  keeps_tables : ∀ statement s s' k columns, execute statement s = some s' →
    s.objects k = some (.table columns) → statement.target ≠ some k →
    s'.objects k = some (.table columns)
  /-- The row of an object stays where it is in `sqlite_master`. -/
  keeps_rows : ∀ statement s s' k, execute statement s = some s' → (s.objects k).isSome →
    (s'.objects k).isSome → s.trigger k = false → s'.trigger k = false
  /-- A statement on another object does not change whether there is SQL for an index. -/
  keeps_indexes : ∀ statement s s' k table names sql object, execute statement s = some s' →
    s.objects k = some (.index table names sql) → s'.objects k = some object →
    statement.target ≠ some k → ∃ table' names', object = .index table' names' sql
  /-- An object gets a name by the statement that creates it, or it is one of SQLite's own. -/
  creates : ∀ statement s s' k, execute statement s = some s' → s.objects k = none →
    (s'.objects k).isSome → statement.creates = some k ∨ reserved k = true
  /-- An object is dropped by its type. -/
  drop_type : ∀ type name s s', execute (.drop type name) s = some s' →
    ∃ object, s.objects (fold name) = some object ∧ object.type = type
  /-- Dropping a table drops its indexes. -/
  drop_table : ∀ name s s' k table names sql, execute (.drop .table name) s = some s' →
    s.objects k = some (.index table names sql) → fold table = fold name → s'.objects k = none
  /-- A table is renamed to a free name, and its indexes are rewritten. One that belongs to a
  constraint gets a new name. -/
  rename_table : ∀ name newName s s' k table names sql,
    execute (.renameTable name newName) s = some s' →
    s.objects k = some (.index table names sql) → fold table = fold name →
    s.objects (fold newName) = none ∧ ∀ object, s'.objects k = some object →
      object = .index newName names sql
  /-- Renaming a column rewrites the indexes on it. -/
  rename_column : ∀ name oldName newName s s' k table names sql,
    execute (.renameColumn name oldName newName) s = some s' →
    s.objects k = some (.index table names sql) → fold table = fold name →
    s'.objects k = some (.index table (names.map (renamed oldName newName)) sql)

/-! ### Catalog entries -/

/-- An entry of the catalog. A view has no columns if it cannot be bound, and the columns of an
index are also given by their positions. -/
inductive Entry where
  | table (columns : List Column)
  | view (columns : Option (List Column))
  | index (table : Name) (columns : List Name) (columnIds : List ℕ)
  deriving DecidableEq, Repr

/-- `ExtractColumnIds` for the columns of an index, after those so far. -/
def extractColumnIds (columns : List Column) : List Name → List ℕ → Option (List ℕ)
  | [], ids => some ids
  | name :: names, ids =>
    match position columns name with
    | none => none
    | some i => extractColumnIds columns names (if i ∈ ids then ids else ids ++ [i])

section Describe

variable {D : Type}

/-- The columns of a table of the schema. -/
def Schema.columns (s : Schema D) (table : Name) : List Column :=
  match s.objects (fold table) with
  | some (.table columns) => columns
  | _ => []

variable (bindView : Schema D → D → Option (List Column))

/-- **What the schema has under a name**: the kind of the object, its columns and its table. -/
def describe (s : Schema D) (k : Name) : Option Entry :=
  match s.objects k with
  | none => none
  | some (.table columns) => some (.table columns)
  | some (.view definition) => some (.view (bindView s definition))
  | some (.index table names _) =>
    some (.index table names ((extractColumnIds (s.columns table) names []).getD []))

end Describe

/-! ### The transaction -/

inductive Exception where
  | internal (text : String)
  | binder (text : String)
  /-- DuckDB's parser or binder does not take a view or an index. -/
  | definition
  /-- SQLite reports an error. -/
  | sqlite
  /-- A null pointer is followed, or an entry is cast to a type that it does not have. -/
  | undefined
  deriving DecidableEq, Repr

/-- A lookup with the schema at that moment. -/
structure Lookup (D : Type) where
  schema : Schema D
  name : Name
  result : Except Exception (Option Entry)

/-- SQLite's schema and the map of the transaction. The lookups are history. -/
structure State (D : Type) where
  schema : Schema D
  cache : Name → Option Entry
  lookups : List (Lookup D)

/-- The map is empty when a transaction begins. -/
def State.init {D : Type} (schema : Schema D) : State D where
  schema := schema
  cache := fun _ => none
  lookups := []

abbrev Proc (D α : Type) := Runs.Proc Empty (State D) Exception α

section Source

variable {D : Type}

/-- `SQLiteCatalogMap::InsertEntry`, which returns an entry that is there already. -/
def insertEntry (name : Name) (entry : Entry) : Proc D (Option Entry) := do
  let s ← get
  match s.cache (fold name) with
  | some existing => return some existing
  | none =>
    modify fun s => { s with cache := Function.update s.cache (fold name) (some entry) }
    return some entry

/-- `SQLiteCatalogMap::EraseEntry`. -/
def eraseEntry (name : Name) : Proc D Unit :=
  modify fun s => { s with cache := Function.update s.cache (fold name) none }

variable (bindView : Schema D → D → Option (List Column))

/-- `SQLiteTransaction::GetCatalogEntry`. For an index it calls itself for the table. -/
def getCatalogEntry : ℕ → Name → Proc D (Option Entry)
  | 0, _ => throw .undefined
  | depth + 1, name => do
    let s ← get
    match s.cache (fold name) with
    | some entry => return some entry
    | none =>
      if s.schema.trigger (fold name) then
        throw (.internal ("Unrecognized SQLite type \"" ++ String.ofList name ++ "\""))
      else
        match s.schema.objects (fold name) with
        | none => return none
        | some (.table columns) => insertEntry name (.table columns)
        | some (.view definition) =>
          match bindView s.schema definition with
          | none => throw .definition
          | some columns => insertEntry name (.view (some columns))
        | some (.index table names sql) =>
          if sql = .null then throw (.internal "SQL is empty")
          else do
            match ← getCatalogEntry depth table with
            | some (.table columns) =>
              if sql = .foreign then throw .definition
              else
                match extractColumnIds columns names [] with
                | none => throw .definition
                | some ids => insertEntry name (.index table names ids)
            | _ => throw .undefined

/-- `SQLiteSchemaEntry::LookupEntry`, which is the same for tables, views and indexes. -/
def lookupEntry (name : Name) : Proc D (Option Entry) := do
  let s ← get
  tryCatch
    (do
      let entry ← getCatalogEntry bindView 2 name
      modify fun s' => { s' with lookups := ⟨s.schema, name, .ok entry⟩ :: s'.lookups }
      return entry)
    fun e => do
      modify fun s' => { s' with lookups := ⟨s.schema, name, .error e⟩ :: s'.lookups }
      throw e

variable (sqlite : Sqlite D)

def execute (statement : Statement D) : Proc D Unit := do
  let s ← get
  match sqlite.execute statement s.schema with
  | none => throw .sqlite
  | some schema => modify fun s => { s with schema := schema }

/-- `SQLiteSchemaEntry::DropEntry`, with `SQLiteTransaction::DropEntry`. -/
def dropEntry (type : CatalogType) (name : Name) (ifExists : Bool) : Proc D Unit := do
  match ← lookupEntry bindView name with
  | none =>
    if ifExists then return ()
    else throw (.internal
      ("Failed to drop entry \"" ++ String.ofList name ++ "\" - could not find entry"))
  | some _ =>
    eraseEntry name
    execute sqlite (.drop type name)

/-- What `CREATE` does if the name is taken. -/
inductive OnConflict where
  | error
  | ignore
  | replace
  deriving DecidableEq, Repr

def createTable (name : Name) (columns : List Column) (onConflict : OnConflict) :
    Proc D (Option Entry) := do
  if onConflict = .replace then
    dropEntry bindView sqlite .table name true
  execute sqlite (.createTable name columns (onConflict = .ignore))
  lookupEntry bindView name

def createView (name : Name) (definition : D) (sqlEmpty : Bool) (onConflict : OnConflict) :
    Proc D (Option Entry) := do
  if sqlEmpty then
    throw (.binder "Cannot create view in SQLite that originated from an empty SQL statement")
  if onConflict = .replace then
    dropEntry bindView sqlite .view name true
  execute sqlite (.createView name definition (onConflict = .ignore))
  lookupEntry bindView name

/-- `SQLiteSchemaEntry::CreateIndex`, which returns no entry. -/
def createIndex (name table : Name) (columns : List Name) (onConflict : OnConflict) :
    Proc D (Option Entry) := do
  execute sqlite (.createIndex name table columns (onConflict = .ignore))
  return none

/-- The ways to alter a table. -/
inductive AlterTableInfo where
  | renameTable (newName : Name)
  | renameColumn (oldName newName : Name)
  | addColumn (column : Column) (ifColumnNotExists : Bool)
  | removeColumn (column : Name) (ifColumnExists : Bool)
  | unsupported

/-- `SQLiteDB::ColumnExists`, which compares with case. -/
def columnExists (s : Schema D) (table column : Name) : Bool :=
  (s.columns table).any fun c => c.name = column

/-- `SQLiteSchemaEntry::AlterTable`. -/
def alterTable (table : Name) : AlterTableInfo → Proc D Unit
  | .renameTable newName => execute sqlite (.renameTable table newName)
  | .renameColumn oldName newName => execute sqlite (.renameColumn table oldName newName)
  | .addColumn column ifColumnNotExists => do
    let s ← get
    if ifColumnNotExists && columnExists s.schema table column.name then return ()
    else execute sqlite (.addColumn table column)
  | .removeColumn column ifColumnExists => do
    let s ← get
    if ifColumnExists && !columnExists s.schema table column then return ()
    else execute sqlite (.dropColumn table column)
  | .unsupported => throw (.binder ("Unsupported ALTER TABLE type - SQLite tables only " ++
      "support RENAME TABLE, RENAME COLUMN, ADD COLUMN and DROP COLUMN"))

/-- `SQLiteSchemaEntry::Alter`. -/
def alter (isTable : Bool) (name : Name) (info : AlterTableInfo) : Proc D Unit :=
  if isTable then do
    alterTable sqlite name info
    eraseEntry name
  else throw (.binder "Only altering tables is supported for now")

/-- The calls of a transaction that change the schema. -/
inductive Change (D : Type) where
  | createTable (name : Name) (columns : List Column) (onConflict : OnConflict)
  | createView (name : Name) (definition : D) (sqlEmpty : Bool) (onConflict : OnConflict)
  | createIndex (name table : Name) (columns : List Name) (onConflict : OnConflict)
  | drop (type : CatalogType) (name : Name) (ifExists : Bool)
  | alter (isTable : Bool) (name : Name) (info : AlterTableInfo)

def change : Change D → Proc D (Option Entry)
  | .createTable name columns onConflict => createTable bindView sqlite name columns onConflict
  | .createView name definition sqlEmpty onConflict =>
    createView bindView sqlite name definition sqlEmpty onConflict
  | .createIndex name table columns onConflict => createIndex sqlite name table columns onConflict
  | .drop type name ifExists => do
    dropEntry bindView sqlite type name ifExists
    return none
  | .alter isTable name info => do
    alter sqlite isTable name info
    return none

/-- The calls of a transaction. -/
inductive Call (D : Type) where
  | lookup (name : Name)
  | change (c : Change D)

/-- The change that a call makes. -/
def Call.change? : Call D → Option (Change D)
  | .lookup _ => none
  | .change c => some c

def call : Call D → Proc D (Option Entry)
  | .lookup name => lookupEntry bindView name
  | .change c => change bindView sqlite c

/-- A call that throws leaves what it has done until then. -/
def step (s : State D) (c : Call D) : Except Empty (State D) := do
  let (_, s') ← call bindView sqlite c s
  return s'

end Source

/-! ### Right answers -/

/-- A lookup returns an entry if the schema has an object of the name at that moment, and then the
entry is as the object. -/
def Lookup.Coherent {D : Type} (bindView : Schema D → D → Option (List Column)) (l : Lookup D) :
    Prop :=
  match describe bindView l.schema (fold l.name) with
  | none => ∀ entry, l.result ≠ .ok (some entry)
  | some entry => l.result = .ok (some entry)

/-! ### Changes of SQLite's schema alone -/

section Safe

variable {D : Type}

/-- The name that a change is for. -/
def Change.name : Change D → Name
  | .createTable name _ _ | .createView name _ _ _ | .createIndex name _ _ _ | .drop _ name _
  | .alter _ name _ => name

/-- The name whose object a change drops or alters. -/
def Change.target : Change D → Option Name
  | .createTable name _ onConflict | .createView name _ _ onConflict =>
    if onConflict = .replace then some (fold name) else none
  | .createIndex _ _ _ _ => none
  | .drop _ name _ | .alter _ name _ => some (fold name)

/-- `OR REPLACE` drops what has the name. A trigger of the name makes it fail. -/
def replacing (s : Schema D) (type : CatalogType) (name : Name) (onConflict : OnConflict)
    (statement : Statement D) : List (Statement D) :=
  if onConflict = .replace then
    if (s.objects (fold name)).isSome then [.drop type name, statement]
    else if s.trigger (fold name) then []
    else [statement]
  else [statement]

/-- The statements that a change is. -/
def Change.statements (s : Schema D) : Change D → List (Statement D)
  | .createTable name columns onConflict =>
    replacing s .table name onConflict (.createTable name columns (onConflict = .ignore))
  | .createView name definition sqlEmpty onConflict =>
    if sqlEmpty then []
    else replacing s .view name onConflict (.createView name definition (onConflict = .ignore))
  | .createIndex name table columns onConflict =>
    [.createIndex name table columns (onConflict = .ignore)]
  | .drop type name _ => if (s.objects (fold name)).isSome then [.drop type name] else []
  | .alter false _ _ => []
  | .alter true name (.renameTable newName) => [.renameTable name newName]
  | .alter true name (.renameColumn oldName newName) => [.renameColumn name oldName newName]
  | .alter true name (.addColumn column ifColumnNotExists) =>
    if ifColumnNotExists && columnExists s name column.name then [] else [.addColumn name column]
  | .alter true name (.removeColumn column ifColumnExists) =>
    if ifColumnExists && !columnExists s name column then [] else [.dropColumn name column]
  | .alter true _ .unsupported => []

/-- Statements up to the first that SQLite refuses. -/
def Sqlite.executeAll (sqlite : Sqlite D) (s : Schema D) : List (Statement D) → Schema D
  | [] => s
  | statement :: statements =>
    match sqlite.execute statement s with
    | none => s
    | some s' => sqlite.executeAll s' statements

def Change.effect (sqlite : Sqlite D) (s : Schema D) (c : Change D) : Schema D :=
  sqlite.executeAll s (c.statements s)

variable (bindView : Schema D → D → Option (List Column)) (sqlite : Sqlite D)

/-- **A change disturbs an object** that it does not name, if SQLite drops the object with it or
rewrites it, or if a view has other columns afterwards. -/
def Change.Disturbs (s : Schema D) (c : Change D) (k : Name) : Prop :=
  c.target ≠ some k ∧ s.objects k ≠ none ∧
    describe bindView (c.effect sqlite s) k ≠ describe bindView s k

/-- DuckDB can read what the schema has under a name: no trigger comes before it, a view can be
bound, and an index has SQL that DuckDB's parser takes and a table that can be read. -/
def Readable (s : Schema D) (k : Name) : Prop :=
  match s.objects k with
  | none => True
  | some (.table _) => s.trigger k = false
  | some (.view definition) => s.trigger k = false ∧ (bindView s definition).isSome
  | some (.index table _ sql) =>
    s.trigger k = false ∧ sql = .plain ∧ s.trigger (fold table) = false

/-- **The condition**, for changes of SQLite's schema one after the other: what the schema has under
the names can be read at every moment, and no change disturbs it. -/
def Safe (names : List Name) : Schema D → List (Change D) → Prop
  | s, [] => ∀ name ∈ names, Readable bindView s (fold name)
  | s, c :: changes =>
    (∀ name ∈ names, Readable bindView s (fold name)) ∧
    (∀ name ∈ names, ¬ c.Disturbs bindView sqlite s (fold name)) ∧
    Safe names (c.effect sqlite s) changes

end Safe

end SqliteScanner.CatalogCache
