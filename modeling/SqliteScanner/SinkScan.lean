import Mathlib.Data.Int.Order.Basic
import SqliteScanner.Internal.RowCursor
import SqliteScanner.Internal.Runs

/-!
# Statements that read the table they write

`INSERT INTO t SELECT ... FROM t`, `UPDATE t` and `CREATE OR REPLACE TABLE t AS SELECT ... FROM t`
run, without pushdown, as a pipeline: the scan of `t` fills a chunk of up to
`STANDARD_VECTOR_SIZE` rows, the sink writes it into `t`, and the scan goes on. When the scan runs
on the transaction's own connection its cursor sees these writes.

`SQLiteDelete` keeps the row ids and deletes at the end. `SQLiteInsert` and `SQLiteUpdate` write
every chunk at once, so the scan reads what the statement itself has written, as soon as that lies
past the last row of a *full* chunk: after a chunk that is not full the scan is over.

## Model

The table is a `RowCursor.Table` under row ids. The scan selects by a condition that SQLite checks
and by filters that `SqliteApplyFilters` checks on a chunk. The two loops of the pipeline, over the
calls of `SqliteScan` and inside it over chunks of which the filters leave nothing, are one loop
here: a chunk without rows is not given to the sink.

Which row id SQLite gives a new row, and which rows the other constraints of the table refuse, are
parameters.

## Main results

* `sinkChunk_filter`, `sinkChunk_countP` — what the sink changes ahead of the cursor.
* `step_spec` — one chunk.
* `delivers_iff` — the rows that reach the sink are those that the table had, if and only if no full
  chunk makes the sink write a selected row past the end of that chunk.
-/

namespace SqliteScanner.SinkScan

open RowCursor

variable {R : Type}

/-- A row with its row id. -/
abbrev Entry (R : Type) := ℤ × R

/-- What the statement writes for a row that reaches its sink. -/
inductive Statement (R : Type) where
  /-- The row to insert, with its row id if the statement gives one. -/
  | insert (values : Entry R → Option ℤ × R)
  /-- The new row, from the row that was scanned and the one that is stored under its row id. -/
  | update (assign : Entry R → Entry R → Entry R)
  | createOrReplaceAs (values : Entry R → Option ℤ × R)

/-- What DuckDB and SQLite fix. -/
structure Setting (R : Type) where
  /-- `STANDARD_VECTOR_SIZE`. -/
  vectorSize : ℕ
  vectorSize_pos : 0 < vectorSize
  /-- The row id of a row that is inserted without one. -/
  newRowid : Table ℤ R → ℤ
  /-- The constraints of the table apart from its row ids. -/
  accepts : Table ℤ R → Entry R → Bool

/-- What the scan selects: the condition of its SQL, and the filters left to DuckDB. -/
structure Selection (R : Type) where
  condition : Entry R → Bool
  filters : Entry R → Bool

/-- A row that the statement reads if it is there. -/
def Selection.selects (sel : Selection R) (e : Entry R) : Bool :=
  sel.condition e && sel.filters e

/-- SQLite refuses a write, and the statement fails. -/
inductive Failure where
  | constraint
  deriving DecidableEq, Repr

/-! ### The sinks -/

section Sinks

variable (env : Setting R)

/-- One row of `SQLiteInsert::Sink`: bind, step, reset. The result is the table and what was
written. -/
def insertRow (values : Entry R → Option ℤ × R) (t : Table ℤ R) (e : Entry R) :
    Except Failure (Table ℤ R × List (Entry R)) :=
  let (key, row) := values e
  let new := (key.getD (env.newRowid t), row)
  if (t.find? new.1).isSome || !env.accepts t new then .error .constraint
  else .ok (t.place new, [new])

/-- One row of `SQLiteUpdate::Sink`, `UPDATE t SET ... WHERE rowid = ?`. -/
def updateRow (assign : Entry R → Entry R → Entry R) (t : Table ℤ R) (e : Entry R) :
    Except Failure (Table ℤ R × List (Entry R)) :=
  match t.find? e.1 with
  | none => .ok (t, [])
  | some stored =>
    let new := assign e stored
    if (new.1 != e.1 && (t.find? new.1).isSome) || !env.accepts t new then .error .constraint
    else .ok ((t.remove e.1).place new, [new])

/-- `CREATE OR REPLACE TABLE ... AS` has the sink of `INSERT`. -/
def sinkRow : Statement R → Table ℤ R → Entry R → Except Failure (Table ℤ R × List (Entry R))
  | .insert values | .createOrReplaceAs values => insertRow env values
  | .update assign => updateRow env assign

/-- The loop of `Sink` over a chunk. -/
def sinkChunk (stmt : Statement R) (t : Table ℤ R) :
    List (Entry R) → Except Failure (Table ℤ R × List (Entry R))
  | [] => .ok (t, [])
  | e :: es => do
    let (t, new) ← sinkRow env stmt t e
    let (t, news) ← sinkChunk stmt t es
    return (t, new ++ news)

end Sinks

/-! ### The pipeline -/

/-- The table, the cursor of the scan, whether it has ended, and the rows that reached the sink. -/
structure State (R : Type) where
  table : Table ℤ R
  pos : Option ℤ
  done : Bool
  delivered : List (Entry R)

section Pipeline

variable (env : Setting R) (sel : Selection R) (stmt : Statement R)

/-- `GetGlobalSinkState` comes before the first row is read: for `CREATE OR REPLACE` it drops the
table and creates it anew. -/
def start (t : Table ℤ R) : State R where
  table :=
    match stmt with
    | .createOrReplaceAs _ => .empty
    | .insert _ | .update _ => t
  pos := none
  done := false
  delivered := []

/-- One chunk: `SqliteScan`, then `Sink`. Once the statement of the scan has no more rows,
`SqliteParallelStateNext` has no further slice and the pipeline is at its end. -/
def step (s : State R) : Except Failure (State R) :=
  if s.done then .ok s
  else do
    let (rows, pos, done) := fetch s.table sel.condition env.vectorSize s.pos
    let output := rows.filter sel.filters
    let (table, _) ← sinkChunk env stmt s.table output
    return ⟨table, pos, done, s.delivered ++ output⟩

def run : ℕ → State R → Except Failure (State R)
  | 0, s => .ok s
  | n + 1, s => step env sel stmt s >>= run n

/-- **What the statement should do**: it ends without an error, and the rows that reach its sink are
those that it selects from the table as it was, in order and each once. -/
def Delivers (t : Table ℤ R) : Prop :=
  ∃ n s, run env sel stmt n (start stmt t) = .ok s ∧ s.done = true ∧
    s.delivered = t.entries.filter sel.selects

/-- The next chunk is full, and the sink writes a selected row past its end. -/
def Disturbs (s : State R) : Prop :=
  s.done = false ∧
    let (rows, pos, done) := fetch s.table sel.condition env.vectorSize s.pos
    done = false ∧ ∃ t new, sinkChunk env stmt s.table (rows.filter sel.filters) = .ok (t, new) ∧
      ∃ e ∈ new, ahead pos e.1 = true ∧ sel.selects e = true

/-- No chunk of the statement disturbs the scan, and no write fails. -/
def Undisturbed (s : State R) : Prop :=
  ∀ n s', run env sel stmt n s = .ok s' →
    ¬ Disturbs env sel stmt s' ∧ ∃ s'', step env sel stmt s' = .ok s''

end Pipeline

/-! ### What the sink changes ahead of the cursor

Let `q` be a part of the table in which the rows that reach the sink are not. The sink takes nothing
out of it, and what it adds is what it writes there. -/

section Writes

variable {env : Setting R} {stmt : Statement R} {q : Entry R → Bool} {t t' : Table ℤ R}

/-- The form of every write of a sink: at most one row, under a row id that is free once the row
that is replaced is gone. -/
theorem sinkRow_spec {e : Entry R} {new : List (Entry R)}
    (h : sinkRow env stmt t e = .ok (t', new)) :
    (t' = t ∧ new = []) ∨
      ∃ w, new = [w] ∧
        ((t.find? w.1 = none ∧ t' = t.place w) ∨
          ((t.remove e.1).find? w.1 = none ∧ t' = (t.remove e.1).place w)) := by
  have hinsert : ∀ values, insertRow env values t e = .ok (t', new) →
      ∃ w, new = [w] ∧ t.find? w.1 = none ∧ t' = t.place w := by
    intro values hok
    simp only [insertRow] at hok
    split at hok
    · cases hok
    · rename_i hfree
      obtain ⟨rfl, rfl⟩ := Prod.mk.injEq .. ▸ Except.ok.inj hok
      exact ⟨_, rfl, by simp_all, rfl⟩
  cases stmt with
  | insert values | createOrReplaceAs values =>
    obtain ⟨w, hnew, hfree, ht⟩ := hinsert values h
    exact .inr ⟨w, hnew, .inl ⟨hfree, ht⟩⟩
  | update assign =>
    simp only [sinkRow, updateRow] at h
    split at h
    · obtain ⟨rfl, rfl⟩ := Prod.mk.injEq .. ▸ Except.ok.inj h
      exact .inl ⟨rfl, rfl⟩
    · rename_i stored _
      split at h
      · cases h
      · rename_i hfree
        obtain ⟨rfl, rfl⟩ := Prod.mk.injEq .. ▸ Except.ok.inj h
        refine .inr ⟨_, rfl, .inr ⟨?_, rfl⟩⟩
        by_cases hkey : (assign e stored).1 = e.1
        · rw [hkey, Table.find?_remove]
        · rw [Table.find?_remove_of_ne hkey]
          simp_all

theorem sinkRow_countP {e : Entry R} {new : List (Entry R)}
    (h : sinkRow env stmt t e = .ok (t', new)) (he : ∀ a : Entry R, a.1 = e.1 → q a = false) :
    t'.entries.countP q = t.entries.countP q + new.countP q := by
  rcases sinkRow_spec h with ⟨rfl, rfl⟩ | ⟨w, rfl, ⟨hfree, rfl⟩ | ⟨hfree, rfl⟩⟩
  · simp
  · rw [countP_place hfree, List.countP_singleton]
  · rw [countP_place hfree, List.countP_singleton, List.countP_eq_length_filter,
      List.countP_eq_length_filter, filter_remove fun a _ ha => he a ha]

theorem sinkRow_filter {e : Entry R} {new : List (Entry R)}
    (h : sinkRow env stmt t e = .ok (t', new)) (he : ∀ a : Entry R, a.1 = e.1 → q a = false)
    (hnew : ∀ w ∈ new, q w = false) : t'.entries.filter q = t.entries.filter q := by
  rcases sinkRow_spec h with ⟨rfl, rfl⟩ | ⟨w, rfl, ⟨hfree, rfl⟩ | ⟨hfree, rfl⟩⟩
  · rfl
  · exact filter_place_of_not hfree (hnew w (by simp))
  · rw [filter_place_of_not hfree (hnew w (by simp)), filter_remove fun a _ ha => he a ha]

theorem sinkRow_length {e : Entry R} {new : List (Entry R)}
    (h : sinkRow env stmt t e = .ok (t', new)) : new.length ≤ 1 := by
  rcases sinkRow_spec h with ⟨_, rfl⟩ | ⟨w, rfl, _⟩ <;> simp

variable {es new : List (Entry R)}

theorem sinkChunk_cons {e : Entry R}
    (h : sinkChunk env stmt t (e :: es) = .ok (t', new)) :
    ∃ t₁ new₁ new₂, sinkRow env stmt t e = .ok (t₁, new₁) ∧
      sinkChunk env stmt t₁ es = .ok (t', new₂) ∧ new = new₁ ++ new₂ := by
  rw [sinkChunk] at h
  obtain ⟨⟨t₁, new₁⟩, hrow, h⟩ := Runs.bind_eq_ok.mp h
  obtain ⟨⟨t₂, new₂⟩, hrest, h⟩ := Runs.bind_eq_ok.mp h
  obtain ⟨rfl, rfl⟩ := Prod.mk.injEq .. ▸ Except.ok.inj h
  exact ⟨t₁, new₁, new₂, hrow, hrest, rfl⟩

/-- **A chunk of writes**, counted in a part of the table that the chunk was not read from. -/
theorem sinkChunk_countP
    (h : sinkChunk env stmt t es = .ok (t', new))
    (hes : ∀ e ∈ es, ∀ a : Entry R, a.1 = e.1 → q a = false) :
    t'.entries.countP q = t.entries.countP q + new.countP q := by
  induction es generalizing t new with
  | nil =>
    obtain ⟨rfl, rfl⟩ := Prod.mk.injEq .. ▸ Except.ok.inj h
    simp
  | cons e es ih =>
    obtain ⟨t₁, new₁, new₂, hrow, hrest, rfl⟩ := sinkChunk_cons h
    rw [ih hrest fun e' he' => hes e' (List.mem_cons_of_mem e he'),
      sinkRow_countP hrow (hes e List.mem_cons_self), List.countP_append, Nat.add_assoc]

/-- A chunk of writes that writes nothing in a part of the table leaves it as it is. -/
theorem sinkChunk_filter
    (h : sinkChunk env stmt t es = .ok (t', new))
    (hes : ∀ e ∈ es, ∀ a : Entry R, a.1 = e.1 → q a = false) (hnew : ∀ w ∈ new, q w = false) :
    t'.entries.filter q = t.entries.filter q := by
  induction es generalizing t new with
  | nil =>
    obtain ⟨rfl, rfl⟩ := Prod.mk.injEq .. ▸ Except.ok.inj h
    rfl
  | cons e es ih =>
    obtain ⟨t₁, new₁, new₂, hrow, hrest, rfl⟩ := sinkChunk_cons h
    rw [List.forall_mem_append] at hnew
    rw [ih hrest (fun e' he' => hes e' (List.mem_cons_of_mem e he')) hnew.2,
      sinkRow_filter hrow (hes e List.mem_cons_self) hnew.1]

theorem sinkChunk_length
    (h : sinkChunk env stmt t es = .ok (t', new)) : new.length ≤ es.length := by
  induction es generalizing t new with
  | nil =>
    obtain ⟨rfl, rfl⟩ := Prod.mk.injEq .. ▸ Except.ok.inj h
    simp
  | cons e es ih =>
    obtain ⟨t₁, new₁, new₂, hrow, hrest, rfl⟩ := sinkChunk_cons h
    have hone := sinkRow_length hrow
    have hmore := ih hrest
    rw [List.length_append, List.length_cons]
    omega

end Writes

/-! ### One chunk -/

section Chunks

variable {env : Setting R} {sel : Selection R} {stmt : Statement R} {s s' sf : State R}

variable (sel) in
/-- The rows that the scan has still to read, as the table is now. -/
def unread (s : State R) : List (Entry R) :=
  rest s.table sel.condition s.pos

variable (sel) in
/-- Those of them that will reach the sink. -/
def pending (s : State R) : List (Entry R) :=
  (unread sel s).filter sel.filters

theorem pending_eq (s : State R) :
    pending sel s = s.table.entries.filter fun a => ahead s.pos a.1 && sel.selects a := by
  rw [pending, unread, rest, List.filter_filter]
  refine List.filter_congr fun a _ => ?_
  rw [Selection.selects, Bool.and_comm, Bool.and_assoc]

theorem step_of_done (hs : s.done = true) : step env sel stmt s = .ok s := by
  simp [step, hs]

theorem run_of_done (hs : s.done = true) (n : ℕ) : run env sel stmt n s = .ok s := by
  induction n with
  | zero => rfl
  | succ n ih => rw [run, step_of_done hs]; exact ih

/-- **One chunk.** A chunk that is not full is all that is left. After a full one, what is left is
the old remainder and the selected rows that the sink has written past the end of the chunk; and the
work that is left, read and delivered, has become less unless there are such rows. -/
theorem step_spec (hs : s.done = false) (h : step env sel stmt s = .ok s') :
    (s'.done = true ∧ s'.delivered = s.delivered ++ pending sel s ∧ ¬ Disturbs env sel stmt s) ∨
    (s'.done = false ∧ ∃ extra old,
      s'.delivered ++ old = s.delivered ++ pending sel s ∧
      (pending sel s').length = old.length + extra ∧
      (extra = 0 → pending sel s' = old) ∧
      (Disturbs env sel stmt s ↔ extra ≠ 0) ∧
      (unread sel s').length + old.length < (unread sel s).length + (pending sel s).length) := by
  obtain ⟨pos, hfetch, hrest, hpos⟩ :=
    fetch_eq (t := s.table) (p := sel.condition) env.vectorSize s.pos
  simp only [step, hs, Bool.false_eq_true, if_false, hfetch] at h
  obtain ⟨⟨t, new⟩, hsink, h⟩ := Runs.bind_eq_ok.mp h
  obtain rfl := Except.ok.inj h
  have hdist : Disturbs env sel stmt s ↔
      env.vectorSize ≤ (unread sel s).length ∧
        ∃ e ∈ new, ahead pos e.1 = true ∧ sel.selects e = true := by
    simp only [Disturbs, hs, hfetch, decide_eq_false_iff_not, Nat.not_lt, true_and, hsink,
      Except.ok.injEq, Prod.mk.injEq, unread]
    refine and_congr_right fun _ => ⟨?_, fun hnew => ⟨t, new, ⟨rfl, rfl⟩, hnew⟩⟩
    rintro ⟨_, _, ⟨rfl, rfl⟩, hnew⟩
    exact hnew
  by_cases hfull : (unread sel s).length < env.vectorSize
  · refine .inl ⟨by simpa [unread] using hfull, ?_, fun hd => ?_⟩
    · show s.delivered ++ ((unread sel s).take env.vectorSize).filter sel.filters = _
      rw [List.take_of_length_le hfull.le, pending]
    · exact absurd (hdist.mp hd).1 (Nat.not_le.mpr hfull)
  · -- nothing that reached the sink is ahead of the cursor
    have hbehind : ∀ e ∈ ((unread sel s).take env.vectorSize).filter sel.filters,
        ∀ a : Entry R, a.1 = e.1 → ahead pos a.1 = false := by
      intro e he a hae
      by_contra hnot
      have hlt := ((hpos a.1).mp (by simpa using hnot)).2 e (List.mem_of_mem_filter he)
      exact absurd hlt (by rw [hae]; exact lt_irrefl _)
    have hmoved : unread sel { s with pos := pos } = (unread sel s).drop env.vectorSize := hrest
    have hpend : pending sel s = ((unread sel s).take env.vectorSize).filter sel.filters ++
        pending sel { s with pos := pos } := by
      rw [pending, pending, hmoved, ← List.filter_append, List.take_append_drop]
    refine .inr ⟨by simpa [unread] using hfull,
      new.countP fun a => ahead pos a.1 && sel.selects a, pending sel { s with pos := pos },
      ?_, ?_, ?_, ?_, ?_⟩
    · rw [hpend, ← List.append_assoc]
      rfl
    · rw [pending_eq, pending_eq, ← List.countP_eq_length_filter, ← List.countP_eq_length_filter]
      exact sinkChunk_countP hsink fun e he a hae => by simp [hbehind e he a hae]
    · intro hzero
      rw [pending_eq, pending_eq]
      exact sinkChunk_filter hsink (fun e he a hae => by simp [hbehind e he a hae])
        fun w hw => by simpa using List.countP_eq_zero.mp hzero w hw
    · rw [hdist, ← Nat.pos_iff_ne_zero, List.countP_pos_iff]
      simp [Nat.le_of_not_lt hfull]
    · have hread : (rest t sel.condition pos).length = (rest s.table sel.condition pos).length +
          new.countP fun a => ahead pos a.1 && sel.condition a := by
        rw [rest, rest, ← List.countP_eq_length_filter, ← List.countP_eq_length_filter]
        exact sinkChunk_countP hsink fun e he a hae => by simp [hbehind e he a hae]
      have hcount : (new.countP fun a => ahead pos a.1 && sel.condition a) ≤ new.length :=
        List.countP_le_length
      have hnew := sinkChunk_length hsink
      have hlen := congrArg List.length hpend
      rw [List.length_append] at hlen
      rw [hrest, List.length_drop] at hread
      have hpos := env.vectorSize_pos
      show (rest t sel.condition pos).length + _ < _
      simp only [unread] at hfull hlen ⊢
      omega

/-! ### Whole runs -/

theorem run_succ {n : ℕ} (h : run env sel stmt (n + 1) s = .ok sf) :
    ∃ s₁, step env sel stmt s = .ok s₁ ∧ run env sel stmt n s₁ = .ok sf :=
  Runs.bind_eq_ok.mp h

theorem run_succ_of_ok {n : ℕ} {s₁ : State R} (h : step env sel stmt s = .ok s₁) :
    run env sel stmt (n + 1) s = run env sel stmt n s₁ := by
  rw [run, h]
  rfl

/-- A run that ends has delivered at least what was pending in any of its states. -/
theorem length_le_of_run {n : ℕ} (hs : s.done = false) (hsf : sf.done = true)
    (h : run env sel stmt n s = .ok sf) :
    s.delivered.length + (pending sel s).length ≤ sf.delivered.length := by
  induction n generalizing s with
  | zero =>
    obtain rfl := Except.ok.inj h
    simp [hs] at hsf
  | succ n ih =>
    obtain ⟨s₁, hstep, hrun⟩ := run_succ h
    rcases step_spec hs hstep with ⟨hdone, hdel, _⟩ | ⟨hdone, extra, old, hdel, hpend, _⟩
    · rw [run_of_done hdone] at hrun
      obtain rfl := Except.ok.inj hrun
      rw [hdel, List.length_append]
    · have hle := ih hdone hrun
      have hlen := congrArg List.length hdel
      simp only [List.length_append] at hlen
      omega

/-- A run that ends and has delivered no more than what was pending was never disturbed. -/
theorem undisturbed_of_run {n : ℕ} (hs : s.done = false) (hsf : sf.done = true)
    (h : run env sel stmt n s = .ok sf)
    (hle : sf.delivered.length ≤ s.delivered.length + (pending sel s).length) :
    Undisturbed env sel stmt s := by
  induction n generalizing s with
  | zero =>
    obtain rfl := Except.ok.inj h
    simp [hs] at hsf
  | succ n ih =>
    obtain ⟨s₁, hstep, hrun⟩ := run_succ h
    -- the state itself is not disturbed, and neither is any state after the first chunk
    suffices hrest : ¬ Disturbs env sel stmt s ∧ Undisturbed env sel stmt s₁ by
      intro m s' hm
      cases m with
      | zero =>
        obtain rfl := Except.ok.inj hm
        exact ⟨hrest.1, s₁, hstep⟩
      | succ m =>
        rw [run_succ_of_ok hstep] at hm
        exact hrest.2 m s' hm
    rcases step_spec hs hstep with ⟨hdone, _, hdist⟩ | ⟨hdone, extra, old, hdel, hpend, _, hdist, _⟩
    · refine ⟨hdist, fun m s' hm => ?_⟩
      rw [run_of_done hdone] at hm
      obtain rfl := Except.ok.inj hm
      exact ⟨fun hd => by simp [hd.1] at hdone, s₁, step_of_done hdone⟩
    · have hge := length_le_of_run hdone hsf hrun
      have hlen := congrArg List.length hdel
      simp only [List.length_append] at hlen
      exact ⟨fun hd => hdist.mp hd (by omega), ih hdone hrun (by omega)⟩

/-- An undisturbed run ends, and delivers what was pending. -/
theorem run_of_undisturbed (hs : s.done = false) (h : Undisturbed env sel stmt s) :
    ∃ n sf, run env sel stmt n s = .ok sf ∧ sf.done = true ∧
      sf.delivered = s.delivered ++ pending sel s := by
  -- the rows left to read and those left to deliver, together, become fewer with every chunk
  induction hm : (unread sel s).length + (pending sel s).length using Nat.strong_induction_on
    generalizing s with
  | _ m ih =>
    obtain ⟨hdist, s₁, hstep⟩ := h 0 s rfl
    rcases step_spec hs hstep with
      ⟨hdone, hdel, _⟩ | ⟨hdone, extra, old, hdel, _, hsame, hiff, hless⟩
    · exact ⟨1, s₁, run_succ_of_ok hstep, hdone, hdel⟩
    · have hpend : pending sel s₁ = old := hsame (by_contra fun hne => hdist (hiff.mpr hne))
      have hnext : Undisturbed env sel stmt s₁ := fun n s' hn =>
        h (n + 1) s' (by rw [run_succ_of_ok hstep, hn])
      obtain ⟨n, sf, hrun, hsf, hfinal⟩ := ih _ (by rw [hpend]; omega) hdone hnext rfl
      exact ⟨n + 1, sf, by rw [run_succ_of_ok hstep, hrun], hsf, by rw [hfinal, hpend, hdel]⟩

end Chunks

/-! ### When the statement reads what it should -/

/-- `INSERT` and `UPDATE` must not be disturbed; `CREATE OR REPLACE` has dropped what it should
read, so there must be nothing to read. -/
def ReadsSafely (env : Setting R) (sel : Selection R) (stmt : Statement R) (t : Table ℤ R) :
    Prop :=
  match stmt with
  | .createOrReplaceAs _ => ∀ e ∈ t.entries, sel.selects e = false
  | .insert _ | .update _ => Undisturbed env sel stmt (start stmt t)

theorem pending_start (sel : Selection R) (stmt : Statement R) (t : Table ℤ R) :
    pending sel (start stmt t) = (start stmt t).table.entries.filter sel.selects := by
  rw [pending_eq]
  rfl

theorem delivers_iff_undisturbed {env : Setting R} {sel : Selection R} {stmt : Statement R}
    {t : Table ℤ R} (h : (start stmt t).table = t) :
    Delivers env sel stmt t ↔ Undisturbed env sel stmt (start stmt t) := by
  have hpend : pending sel (start stmt t) = t.entries.filter sel.selects := by
    rw [pending_start, h]
  constructor
  · rintro ⟨n, s, hrun, hdone, hdel⟩
    refine undisturbed_of_run rfl hdone hrun ?_
    rw [hpend, hdel]
    exact Nat.le_add_left _ _
  · intro hund
    obtain ⟨n, s, hrun, hdone, hdel⟩ := run_of_undisturbed rfl hund
    refine ⟨n, s, hrun, hdone, ?_⟩
    rw [hdel, hpend]
    rfl

/-- The scan of the table that was just created finds nothing. -/
theorem step_start_createOrReplaceAs (env : Setting R) (sel : Selection R)
    (values : Entry R → Option ℤ × R) (t : Table ℤ R) :
    step env sel (.createOrReplaceAs values) (start (.createOrReplaceAs values) t) =
      .ok ⟨.empty, none, true, []⟩ := by
  obtain ⟨v, hv⟩ := Nat.exists_eq_add_one_of_ne_zero env.vectorSize_pos.ne'
  simp [step, start, hv, fetch, next, Table.empty, sinkChunk, pure, Except.pure, bind, Except.bind]

theorem delivers_createOrReplaceAs_iff {env : Setting R} {sel : Selection R}
    {values : Entry R → Option ℤ × R} {t : Table ℤ R} :
    Delivers env sel (.createOrReplaceAs values) t ↔ ∀ e ∈ t.entries, sel.selects e = false := by
  have hstep := step_start_createOrReplaceAs env sel values t
  simp only [← Bool.not_eq_true, ← List.filter_eq_nil_iff]
  constructor
  · rintro ⟨n, s, hrun, hdone, hdel⟩
    cases n with
    | zero =>
      obtain rfl := Except.ok.inj hrun
      simp [start] at hdone
    | succ n =>
      rw [run_succ_of_ok hstep, run_of_done rfl] at hrun
      obtain rfl := Except.ok.inj hrun
      exact hdel.symm
  · intro hnil
    exact ⟨1, _, run_succ_of_ok hstep, rfl, hnil.symm⟩

/-- A scan without a condition. -/
def everything : Selection R := ⟨fun _ => true, fun _ => true⟩

/-- If the first row of a full chunk is written past all rows of the table, the scan is disturbed. -/
theorem not_undisturbed_of_head {env : Setting R} {stmt : Statement R} {t t₁ : Table ℤ R}
    {e w : Entry R} {es : List (Entry R)} (hstart : (start stmt t).table = t)
    (hentries : t.entries = e :: es) (hfull : env.vectorSize ≤ t.entries.length)
    (hrow : sinkRow env stmt t e = .ok (t₁, [w])) (hw : ∀ a ∈ t.entries, a.1 < w.1) :
    ¬ Undisturbed env everything stmt (start stmt t) := by
  intro hund
  obtain ⟨hdist, s', hstep⟩ := hund 0 _ rfl
  have hrest : rest t everything.condition none = t.entries := by
    simp [rest, everything]
  obtain ⟨pos, hfetch, -, hpos⟩ :=
    fetch_eq (t := t) (p := everything.condition) env.vectorSize none
  rw [hrest] at hfetch hpos
  refine hdist ⟨rfl, ?_⟩
  simp only [step, start, Bool.false_eq_true, if_false] at hstep
  simp only [start] at hstart ⊢
  rw [hstart, hfetch] at hstep ⊢
  refine ⟨by simpa using hfull, ?_⟩
  obtain ⟨⟨t', new⟩, hsink, -⟩ := Runs.bind_eq_ok.mp hstep
  refine ⟨t', new, hsink, w, ?_, ?_, rfl⟩
  · obtain ⟨v, hv⟩ := Nat.exists_eq_add_one_of_ne_zero env.vectorSize_pos.ne'
    rw [hentries, hv, List.take_succ_cons, List.filter_cons_of_pos rfl] at hsink
    obtain ⟨t₂, new₁, new₂, hrow', _, rfl⟩ := sinkChunk_cons hsink
    obtain ⟨rfl, rfl⟩ := Prod.mk.injEq .. ▸ Except.ok.inj (hrow.symm.trans hrow')
    simp
  · exact (hpos w.1).mpr ⟨rfl, fun a ha => hw a (List.mem_of_mem_take ha)⟩

/-- DuckDB's vector size, and SQLite's choice of row ids: one more than the greatest one. -/
def sqliteSetting : Setting R where
  vectorSize := 2048
  vectorSize_pos := by decide
  newRowid t := t.entries.getLast?.elim 1 fun e => e.1 + 1
  accepts _ _ := true

theorem lt_newRowid {t : Table ℤ R} {e : Entry R} (he : e ∈ t.entries) :
    e.1 < sqliteSetting.newRowid t := by
  have hne : t.entries ≠ [] := List.ne_nil_of_mem he
  have hlast : sqliteSetting.newRowid t = (t.entries.getLast hne).1 + 1 := by
    simp [sqliteSetting, List.getLast?_eq_some_getLast hne]
  have hle : e.1 ≤ (t.entries.getLast hne).1 := by
    by_cases heq : e = t.entries.getLast hne
    · rw [← heq]
    · have hsorted := t.sorted
      rw [← List.dropLast_append_getLast hne, List.pairwise_append] at hsorted
      rw [← List.dropLast_append_getLast hne, List.mem_append] at he
      rcases he with he | he
      · exact (hsorted.2.2 e he _ (by simp)).le
      · exact absurd (by simpa using he) heq
  omega

/-- The table with the row ids `1` to `n`. -/
def numbered (n : ℕ) : Table ℤ Unit where
  entries := (List.range' 1 n).map fun i : ℕ => ((i : ℤ), ())
  sorted := by
    rw [List.pairwise_map]
    exact (List.pairwise_lt_range' 1).imp fun h => Int.ofNat_lt.mpr h

theorem mem_numbered {n : ℕ} {e : Entry Unit} (he : e ∈ (numbered n).entries) :
    1 ≤ e.1 ∧ e.1 ≤ n := by
  obtain ⟨i, hi, rfl⟩ := List.mem_map.mp he
  rw [List.mem_range'_1] at hi
  exact ⟨Int.ofNat_le.mpr hi.1, Int.ofNat_le.mpr (by omega)⟩

theorem length_numbered (n : ℕ) : (numbered n).entries.length = n := by
  simp [numbered]

theorem numbered_eq_cons {n : ℕ} (hn : 0 < n) :
    ∃ es, (numbered n).entries = (1, ()) :: es := by
  obtain ⟨m, rfl⟩ := Nat.exists_eq_add_one_of_ne_zero hn.ne'
  exact ⟨_, rfl⟩

/-- `INSERT INTO t SELECT * FROM t` goes wrong as soon as the table fills one chunk. -/
theorem not_delivers_insert {n : ℕ} (hn : 2048 ≤ n) :
    ¬ Delivers sqliteSetting everything (.insert fun e => (none, e.2)) (numbered n) := by
  rw [delivers_iff_undisturbed rfl]
  obtain ⟨es, hes⟩ := numbered_eq_cons (Nat.lt_of_lt_of_le (by decide) hn)
  have hfree : (numbered n).find? (sqliteSetting.newRowid (numbered n)) = none :=
    Table.find?_eq_none.mpr fun a ha => (lt_newRowid ha).ne
  have hrow : sinkRow sqliteSetting (.insert fun e => (none, e.2)) (numbered n) (1, ()) =
      .ok ((numbered n).place (sqliteSetting.newRowid (numbered n), ()),
        [(sqliteSetting.newRowid (numbered n), ())]) := by
    simp only [sinkRow, insertRow, Option.getD_none, hfree]
    rfl
  exact not_undisturbed_of_head rfl hes (hn.trans (length_numbered n).ge) hrow
    fun a ha => lt_newRowid ha

/-- So does `UPDATE t SET id = id + n`, which moves every row past the last one. -/
theorem not_delivers_update {n : ℕ} (hn : 2048 ≤ n) :
    ¬ Delivers sqliteSetting everything (.update fun e _ => (e.1 + n, e.2)) (numbered n) := by
  rw [delivers_iff_undisturbed rfl]
  obtain ⟨es, hes⟩ := numbered_eq_cons (Nat.lt_of_lt_of_le (by decide) hn)
  have hlt : ∀ a ∈ (numbered n).entries, a.1 < 1 + n := fun a ha => by
    have := (mem_numbered ha).2
    omega
  have hfound : (numbered n).find? 1 = some (1, ()) := by
    rw [Table.find?, hes, List.find?_cons_of_pos (by simp)]
  have hfree : (numbered n).find? (1 + n) = none :=
    Table.find?_eq_none.mpr fun a ha => (hlt a ha).ne
  have hrow : sinkRow sqliteSetting (.update fun e _ => (e.1 + n, e.2)) (numbered n) (1, ()) =
      .ok (((numbered n).remove 1).place (1 + n, ()), [(1 + n, ())]) := by
    simp [sinkRow, updateRow, hfound, hfree, sqliteSetting]
  exact not_undisturbed_of_head rfl hes (hn.trans (length_numbered n).ge) hrow hlt

end SqliteScanner.SinkScan
