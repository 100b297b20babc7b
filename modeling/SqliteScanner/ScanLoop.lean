import Mathlib.Algebra.Ring.Nat
import SqliteScanner.ParallelScan

/-!
# The scan loop

A thread asks for chunk after chunk until it gets one without rows. A call of `SqliteScan` fills the
vectors from the statement of the thread's slice, drops the rows that do not pass the filters, and
goes on while no row is left: with the next batch of the slice, or with the next slice when the
statement has no more rows. So `done`, the position of the statement and the vectors outlive a round
of the loop, and those of a thread outlive a call. A statement that is stepped again after its last
row starts from its first one, and a null that is not reset stays in the vectors: both would show in
the rows that are returned.

What the threads share is left open here, except that once there is no slice there is none later. The
claims of `ParallelScan` are of this kind, whatever the other threads do between two of them.

## Main definitions

* `fillVectors`, `applyFilters`, `parallelStateNext`, `scan` — the source's functions
* `Yields` — the slices that a thread claims, up to the refusal
* `Calls` — calls one after the other
* `threadClaims` — the claims of one thread of a parallel scan

## Main results

* `fillVectors_spec`, `values_applyFilters` — what one round does
* `scan_ends` — what one call does, and that it returns
* `exists_yields` — the claims of a thread come to an end
* `scan_complete` — the chunks of a thread are the rows of its slices that pass the filters
-/

namespace SqliteScanner

namespace ScanLoop

open ParallelScan Runs

variable {Raw V E W : Type}

/-! ### Statements -/

/-- A prepared statement: the rows that it returns, and those that are left of them. None are left
after it has returned `SQLITE_DONE`; another step then starts it again. -/
structure Statement (Raw : Type) where
  rows : List Raw
  left : Option (List Raw)

def Statement.start (rows : List Raw) : Statement Raw := ⟨rows, some rows⟩

/-- `SQLiteStatement::Step`. -/
def Statement.step (stmt : Statement Raw) : Option Raw × Statement Raw :=
  match stmt.left.getD stmt.rows with
  | [] => (none, { stmt with left := none })
  | row :: left => (some row, { stmt with left := some left })

/-! ### Chunks -/

/-- The vectors of a chunk, by column and row. A value is null if its bit in the validity mask is not
set. -/
structure Vectors (V : Type) where
  data : ℕ → ℕ → V
  valid : ℕ → ℕ → Bool

/-- The vectors of a chunk and the rows of them that it has. -/
structure Output (V : Type) where
  vectors : Vectors V
  rows : List ℕ

def Vectors.cell (vectors : Vectors V) (col row : ℕ) : Option V :=
  if vectors.valid col row then some (vectors.data col row) else none

/-- `DataChunk::Reset`: nothing is null. -/
def Vectors.reset (vectors : Vectors V) : Vectors V := { vectors with valid := fun _ _ => true }

def Vectors.setNull (vectors : Vectors V) (col row : ℕ) : Vectors V :=
  { vectors with
    valid := Function.update vectors.valid col (Function.update (vectors.valid col) row false) }

/-- A value that is not null: the validity mask is left as it is. -/
def Vectors.setValue (vectors : Vectors V) (col row : ℕ) (value : V) : Vectors V :=
  { vectors with
    data := Function.update vectors.data col (Function.update (vectors.data col) row value) }

/-! ### One batch -/

/-- What a scan is given: how a value of each column is read, the filters that are left to it, by the
column that they are for, and the size of a vector. -/
structure Config (Raw V E : Type) where
  vectorSize : ℕ
  vectorSize_pos : 0 < vectorSize
  columns : List (Raw → Except E (Option V))
  filters : List (ℕ × (Option V → Bool))
  filter_column : ∀ f ∈ filters, f.1 < columns.length

structure SqliteLocalState (Raw : Type) where
  done : Bool
  stmt : Statement Raw
  scanCount : UInt64

/-- The values of one row, from column `col` on. -/
def writeRow (outIdx : ℕ) (row : Raw) :
    ℕ → List (Raw → Except E (Option V)) → Vectors V → Except E (Vectors V)
  | _, [], vectors => .ok vectors
  | col, read :: columns, vectors => do
    match ← read row with
    | none => writeRow outIdx row (col + 1) columns (vectors.setNull col outIdx)
    | some value => writeRow outIdx row (col + 1) columns (vectors.setValue col outIdx value)

/-- The loop that fills the vectors, with room for that many more rows. -/
def fillVectors (columns : List (Raw → Except E (Option V))) :
    ℕ → ℕ → SqliteLocalState Raw → Vectors V → Except E (ℕ × SqliteLocalState Raw × Vectors V)
  | 0, outIdx, state, vectors => .ok (outIdx, state, vectors)
  | room + 1, outIdx, state, vectors =>
    match state.stmt.step with
    | (none, stmt) => .ok (outIdx, { state with stmt := stmt, done := true }, vectors)
    | (some row, stmt) => do
      let vectors ← writeRow outIdx row 0 columns vectors
      fillVectors columns room (outIdx + 1)
        { state with stmt := stmt, scanCount := state.scanCount + 1 } vectors

/-- The loop of `SqliteApplyFilters` over a selection. -/
def filterLoop (vectors : Vectors V) : List (ℕ × (Option V → Bool)) → List ℕ → List ℕ
  | [], sel => sel
  | (column, filter) :: filters, sel =>
    let sel := sel.filter fun row => filter (vectors.cell column row)
    if sel = [] then sel else filterLoop vectors filters sel

/-- `SqliteApplyFilters`. -/
def applyFilters (filters : List (ℕ × (Option V → Bool))) (count : ℕ) (vectors : Vectors V) :
    Output V :=
  if filters = [] ∨ count = 0 then ⟨vectors, List.range count⟩
  else
    let sel := filterLoop vectors filters (List.range count)
    if sel = [] then ⟨vectors.reset, []⟩ else ⟨vectors, sel⟩

/-! ### The loop -/

/-- What `SqliteClaimNextSlice` answers to a thread, by its row count and the state that the threads
share: the rows of the next slice, or none. -/
abbrev Claim (Raw E W : Type) := UInt64 → W → Except E (Option (List Raw) × W)

/-- `SqliteParallelStateNext`: the statement is started for the slice. -/
def parallelStateNext (claim : Claim Raw E W) (state : SqliteLocalState Raw) (shared : W) :
    Except E (Option (SqliteLocalState Raw) × W) := do
  let (slice, shared) ← claim state.scanCount shared
  .ok (slice.map fun rows => ⟨false, .start rows, 0⟩, shared)

/-- The state of a new thread. -/
def initLocalState (claim : Claim Raw E W) (shared : W) : Except E (SqliteLocalState Raw × W) := do
  let (next, shared) ← parallelStateNext claim ⟨false, .start [], 1⟩ shared
  .ok (next.getD ⟨true, .start [], 1⟩, shared)

/-- `SqliteScan`, for at most the given number of rounds. -/
def scan (config : Config Raw V E) (claim : Claim Raw E W) :
    ℕ → SqliteLocalState Raw → W → Output V →
      Option (Except E (Output V × SqliteLocalState Raw × W))
  | 0, _, _, _ => none
  | n + 1, state, shared, output =>
    if output.rows ≠ [] then some (.ok (output, state, shared))
    else
      match (if state.done then parallelStateNext claim state shared
        else .ok (some state, shared)) with
      | .error e => some (.error e)
      | .ok (none, shared) => some (.ok (output, state, shared))
      | .ok (some state, shared) =>
        match fillVectors config.columns config.vectorSize 0 state output.vectors with
        | .error e => some (.error e)
        | .ok (count, state, vectors) =>
          scan config claim n state shared (applyFilters config.filters count vectors)

/-! ### Rows -/

section Rows

variable {vectors vectors' : Vectors V} {columns : List (Raw → Except E (Option V))}

/-- The values of a row, or the exception for one of them. -/
def readRow (columns : List (Raw → Except E (Option V))) (row : Raw) : Except E (List (Option V)) :=
  columns.mapM fun read => read row

/-- A row of the vectors. -/
def Vectors.row (vectors : Vectors V) (columnCount i : ℕ) : List (Option V) :=
  (List.range columnCount).map fun col => vectors.cell col i

/-- The rows of a chunk. -/
def Output.values (output : Output V) (columnCount : ℕ) : List (List (Option V)) :=
  output.rows.map (output.vectors.row columnCount)

@[simp] theorem cell_setNull (col row col' row' : ℕ) : (vectors.setNull col row).cell col' row' =
    if col' = col ∧ row' = row then none else vectors.cell col' row' := by
  by_cases hcol : col' = col
  · subst hcol
    by_cases hrow : row' = row
    · simp [Vectors.cell, Vectors.setNull, hrow]
    · simp [Vectors.cell, Vectors.setNull, hrow]
  · simp [Vectors.cell, Vectors.setNull, hcol]

@[simp] theorem valid_setNull (col row col' row' : ℕ) :
    (vectors.setNull col row).valid col' row' =
      if col' = col ∧ row' = row then false else vectors.valid col' row' := by
  by_cases hcol : col' = col
  · subst hcol
    by_cases hrow : row' = row
    · simp [Vectors.setNull, hrow]
    · simp [Vectors.setNull, hrow]
  · simp [Vectors.setNull, hcol]

theorem cell_setValue (col row col' row' : ℕ) (value : V) (h : vectors.valid col row = true) :
    (vectors.setValue col row value).cell col' row' =
      if col' = col ∧ row' = row then some value else vectors.cell col' row' := by
  by_cases hcol : col' = col
  · subst hcol
    by_cases hrow : row' = row
    · subst hrow
      simp [Vectors.cell, Vectors.setValue, h]
    · simp [Vectors.cell, Vectors.setValue, hrow]
  · simp [Vectors.cell, Vectors.setValue, hcol]

/-- A row is written from column `col` on, and all else is left as it is. -/
structure Writes (outIdx col : ℕ) (values : List (Option V)) (vectors vectors' : Vectors V) :
    Prop where
  values : ∀ i value, values[i]? = some value → vectors'.cell (col + i) outIdx = value
  before : ∀ c < col, vectors'.cell c outIdx = vectors.cell c outIdx
  rows : ∀ c row, row ≠ outIdx → vectors'.cell c row = vectors.cell c row
  valid : ∀ c row, row ≠ outIdx → vectors'.valid c row = vectors.valid c row

variable {values : List (Option V)}

theorem Writes.cons {outIdx col : ℕ} {value : Option V}
    {vectors mid vectors' : Vectors V} (h : Writes outIdx (col + 1) values mid vectors')
    (hcell : ∀ c row, mid.cell c row =
      if c = col ∧ row = outIdx then value else vectors.cell c row)
    (hvalid : ∀ c row, row ≠ outIdx → mid.valid c row = vectors.valid c row) :
    Writes outIdx col (value :: values) vectors vectors' where
  values i v hv := by
    cases i with
    | zero =>
      rw [Nat.add_zero, h.before col (Nat.lt_succ_self col), hcell, if_pos ⟨rfl, rfl⟩]
      exact Option.some.inj hv
    | succ i =>
      rw [← Nat.add_assoc, Nat.add_right_comm]
      exact h.values i v hv
  before c hc := by
    rw [h.before c (Nat.lt_succ_of_lt hc), hcell, if_neg (by omega)]
  rows c row hrow := by
    rw [h.rows c row hrow, hcell, if_neg (by tauto)]
  valid c row hrow := by
    rw [h.valid c row hrow, hvalid c row hrow]

/-- A row that can be read is written. -/
theorem exists_writeRow {outIdx : ℕ} {row : Raw} (vectors : Vectors V) (col : ℕ)
    (h : readRow columns row = .ok values)
    (hvalid : ∀ c, col ≤ c → vectors.valid c outIdx = true) :
    ∃ vectors', writeRow outIdx row col columns vectors = .ok vectors' ∧
      Writes outIdx col values vectors vectors' := by
  induction columns generalizing col values vectors with
  | nil =>
    cases h
    exact ⟨vectors, rfl, by simp, fun _ _ => rfl, fun _ _ _ => rfl, fun _ _ _ => rfl⟩
  | cons read columns ih =>
    rw [readRow, List.mapM_cons] at h
    obtain ⟨value, hvalue, h⟩ := bind_eq_ok.mp h
    obtain ⟨rest, hrest, h⟩ := bind_eq_ok.mp h
    cases h
    rw [writeRow, hvalue]
    cases value with
    | none =>
      obtain ⟨vectors', hwrite, hwrites⟩ := ih (vectors.setNull col outIdx) (col + 1) hrest
        fun c hc => by rw [valid_setNull, if_neg (by omega), hvalid c (by omega)]
      exact ⟨vectors', hwrite, hwrites.cons (fun c row => cell_setNull col outIdx c row)
        fun c row hrow => by rw [valid_setNull, if_neg (by tauto)]⟩
    | some value =>
      obtain ⟨vectors', hwrite, hwrites⟩ := ih (vectors.setValue col outIdx value) (col + 1) hrest
        fun c hc => hvalid c (by omega)
      exact ⟨vectors', hwrite,
        hwrites.cons (fun c row => cell_setValue col outIdx c row value (hvalid col le_rfl))
          fun c row hrow => rfl⟩

theorem writeRow_of_error {outIdx : ℕ} {row : Raw} (vectors : Vectors V) (col : ℕ) {e : E}
    (h : readRow columns row = .error e) : writeRow outIdx row col columns vectors = .error e := by
  induction columns generalizing col vectors with
  | nil => cases h
  | cons read columns ih =>
    rw [readRow, List.mapM_cons] at h
    rw [writeRow]
    cases hvalue : read row with
    | error e' =>
      rw [hvalue] at h
      cases h
      rfl
    | ok value =>
      have hrest : readRow columns row = .error e := by
        rw [hvalue] at h
        cases hrest : readRow columns row with
        | error e' =>
          rw [readRow] at hrest
          rw [hrest] at h
          cases h
          rfl
        | ok rest =>
          rw [readRow] at hrest
          rw [hrest] at h
          cases h
      cases value with
      | none | some value => exact ih _ _ hrest

theorem length_readRow {row : Raw} (h : readRow columns row = .ok values) :
    values.length = columns.length := by
  induction columns generalizing values with
  | nil =>
    cases h
    rfl
  | cons read columns ih =>
    rw [readRow, List.mapM_cons] at h
    obtain ⟨value, -, h⟩ := bind_eq_ok.mp h
    obtain ⟨rest, hrest, h⟩ := bind_eq_ok.mp h
    cases h
    rw [List.length_cons, List.length_cons, ih hrest]

theorem Writes.row {outIdx columnCount : ℕ}
    (h : Writes outIdx 0 values vectors vectors') (hlength : values.length = columnCount) :
    vectors'.row columnCount outIdx = values := by
  refine List.ext_getElem (by simp [Vectors.row, hlength]) fun i hi hi' => ?_
  have hcell := h.values i values[i] (List.getElem?_eq_getElem hi')
  rw [Nat.zero_add] at hcell
  simp [Vectors.row, hcell]

theorem row_congr {columnCount i : ℕ} (h : ∀ c, vectors'.cell c i = vectors.cell c i) :
    vectors'.row columnCount i = vectors.row columnCount i := by
  simp only [Vectors.row, h]

end Rows

/-! ### Batches -/

section Batch

variable {columns : List (Raw → Except E (Option V))} {left : List Raw}

/-- The values of a row that can be read. -/
def rowValues (columns : List (Raw → Except E (Option V))) (row : Raw) : List (Option V) :=
  (readRow columns row).toOption.getD []

theorem rowValues_of_ok {row : Raw} {values : List (Option V)}
    (h : readRow columns row = .ok values) : rowValues columns row = values := by
  rw [rowValues, h]
  rfl

/-- What filling the vectors with the rows of a batch comes to. -/
structure Filled (columns : List (Raw → Except E (Option V))) (outIdx : ℕ) (batch : List Raw)
    (vectors vectors' : Vectors V) : Prop where
  rows : ∀ i row, batch[i]? = some row →
    vectors'.row columns.length (outIdx + i) = rowValues columns row
  before : ∀ c row, row < outIdx → vectors'.cell c row = vectors.cell c row
  nil : batch = [] → vectors' = vectors

theorem filled_nil (outIdx : ℕ) (vectors : Vectors V) : Filled columns outIdx [] vectors vectors where
  rows := by simp
  before _ _ _ := rfl
  nil _ := rfl

theorem Filled.cons {outIdx : ℕ} {row : Raw} {batch : List Raw} {values : List (Option V)}
    {vectors mid vectors' : Vectors V} (h : Filled columns (outIdx + 1) batch mid vectors')
    (hread : readRow columns row = .ok values) (hwrites : Writes outIdx 0 values vectors mid) :
    Filled columns outIdx (row :: batch) vectors vectors' where
  rows i r hr := by
    cases i with
    | zero =>
      have hbefore : ∀ c, vectors'.cell c outIdx = mid.cell c outIdx :=
        fun c => h.before c outIdx (Nat.lt_succ_self outIdx)
      cases hr
      rw [Nat.add_zero, row_congr hbefore, hwrites.row (length_readRow hread),
        rowValues_of_ok hread]
    | succ i =>
      rw [← Nat.add_assoc, Nat.add_right_comm]
      exact h.rows i r hr
  before c r hr := by
    rw [h.before c r (Nat.lt_succ_of_lt hr), hwrites.rows c r (Nat.ne_of_lt hr)]
  nil h := by cases h

/-- The rows of the vectors are the rows of the batch. -/
theorem Filled.map_row {batch : List Raw} {vectors vectors' : Vectors V}
    (h : Filled columns 0 batch vectors vectors') :
    (List.range batch.length).map (vectors'.row columns.length) =
      batch.map (rowValues columns) := by
  refine List.ext_getElem (by simp) fun i hi hi' => ?_
  have hbatch : i < batch.length := by simpa using hi'
  have hrow := h.rows i batch[i] (List.getElem?_eq_getElem hbatch)
  rw [Nat.zero_add] at hrow
  simp [hrow]

/-- The state after that many rows of the statement. -/
structure Advanced (room : ℕ) (left : List Raw) (state state' : SqliteLocalState Raw) : Prop where
  scanCount : state'.scanCount = state.scanCount + UInt64.ofNat (left.take room).length
  done : left.length < room → state'.done = true
  going : room ≤ left.length → state'.done = false ∧ state'.stmt.left = some (left.drop room)

/-- Vectors are filled with as many rows as they have room for, or all that are left. -/
theorem fillVectors_spec (columns : List (Raw → Except E (Option V))) (room : ℕ) {outIdx : ℕ}
    {state : SqliteLocalState Raw} {vectors : Vectors V} (hdone : state.done = false) (hleft : state.stmt.left = some left)
    (hvalid : ∀ c row, outIdx ≤ row → vectors.valid c row = true) :
    (∃ row ∈ left, ∃ e, readRow columns row = .error e ∧
      fillVectors columns room outIdx state vectors = .error e) ∨
    ∃ state' vectors', fillVectors columns room outIdx state vectors =
        .ok (outIdx + (left.take room).length, state', vectors') ∧
      Advanced room left state state' ∧ Filled columns outIdx (left.take room) vectors vectors' := by
  induction room generalizing outIdx state vectors left with
  | zero =>
    refine .inr ⟨state, vectors, rfl, ⟨by simp, fun h => absurd h (Nat.not_lt_zero _), fun _ => ?_⟩,
      filled_nil outIdx vectors⟩
    exact ⟨hdone, hleft⟩
  | succ room ih =>
    rw [fillVectors]
    cases left with
    | nil =>
      have hstep : state.stmt.step = (none, { state.stmt with left := none }) := by
        rw [Statement.step, hleft]
        rfl
      rw [hstep]
      exact .inr ⟨_, vectors, rfl, ⟨by simp, fun _ => rfl, by simp⟩, filled_nil outIdx vectors⟩
    | cons row left =>
      have hstep : state.stmt.step = (some row, { state.stmt with left := some left }) := by
        rw [Statement.step, hleft]
        rfl
      rw [hstep]
      dsimp only
      cases hread : readRow columns row with
      | error e =>
        rw [writeRow_of_error vectors 0 hread]
        exact .inl ⟨row, List.mem_cons_self, e, hread, rfl⟩
      | ok values =>
        obtain ⟨mid, hwrite, hwrites⟩ := exists_writeRow vectors 0 hread
          fun c _ => hvalid c outIdx le_rfl
        have hmid : ∀ c r, outIdx + 1 ≤ r → mid.valid c r = true := by
          intro c r hr
          rw [hwrites.valid c r (by omega)]
          exact hvalid c r (by omega)
        rw [hwrite]
        rcases @ih left (outIdx + 1) { state with
            stmt := { state.stmt with left := some left }, scanCount := state.scanCount + 1 }
            mid hdone rfl hmid with
          ⟨r, hr, e, herror, hfill⟩ | ⟨state', vectors', hfill, hadvanced, hfilled⟩
        · exact .inl ⟨r, List.mem_cons_of_mem row hr, e, herror, hfill⟩
        · refine .inr ⟨state', vectors', ?_, ⟨?_, ?_, ?_⟩, hfilled.cons hread hwrites⟩
          · refine hfill.trans ?_
            rw [List.take_succ_cons, List.length_cons, Nat.add_right_comm, Nat.add_assoc]
          · rw [hadvanced.scanCount, List.take_succ_cons, List.length_cons, Nat.add_comm,
              UInt64.ofNat_add, UInt64.add_assoc]
            rfl
          · intro hlt
            exact hadvanced.done (Nat.lt_of_succ_lt_succ hlt)
          · intro hle
            exact hadvanced.going (Nat.le_of_succ_le_succ hle)

/-- Nothing is null before anything is written. -/
def Vectors.Clean (vectors : Vectors V) : Prop := ∀ c row, vectors.valid c row = true

/-- A row passes all filters. -/
def passes (filters : List (ℕ × (Option V → Bool))) (row : List (Option V)) : Bool :=
  filters.all fun f => f.2 (row.getD f.1 none)

theorem getD_row {columnCount c : ℕ} (vectors : Vectors V) (h : c < columnCount) (i : ℕ) :
    (vectors.row columnCount i).getD c none = vectors.cell c i := by
  simp [Vectors.row, List.getD_eq_getElem?_getD, h]

theorem filterLoop_eq {columnCount : ℕ} {filters : List (ℕ × (Option V → Bool))}
    (hcolumn : ∀ f ∈ filters, f.1 < columnCount) (vectors : Vectors V) (sel : List ℕ) :
    filterLoop vectors filters sel =
      sel.filter fun i => passes filters (vectors.row columnCount i) := by
  induction filters generalizing sel with
  | nil => simp [filterLoop, passes]
  | cons f filters ih =>
    obtain ⟨column, filter⟩ := f
    have hhead : (sel.filter fun row => filter (vectors.cell column row)) =
        sel.filter fun i => filter ((vectors.row columnCount i).getD column none) := by
      simp only [getD_row vectors (hcolumn _ List.mem_cons_self)]
    have htail := ih (fun f hf => hcolumn f (List.mem_cons_of_mem _ hf))
    have hboth : (sel.filter fun i => passes ((column, filter) :: filters)
        (vectors.row columnCount i)) =
        (sel.filter fun i => filter ((vectors.row columnCount i).getD column none)).filter
          fun i => passes filters (vectors.row columnCount i) := by
      rw [List.filter_filter]
      exact List.filter_congr fun i _ => Bool.and_comm _ _
    rw [filterLoop, hboth, hhead]
    split
    · case isTrue hnil => rw [hnil, List.filter_nil]
    · exact htail _

/-- **The filters keep the rows that pass all of them.** -/
theorem values_applyFilters {columnCount : ℕ} {filters : List (ℕ × (Option V → Bool))}
    (hcolumn : ∀ f ∈ filters, f.1 < columnCount) (count : ℕ) (vectors : Vectors V) :
    (applyFilters filters count vectors).values columnCount =
      ((List.range count).map (vectors.row columnCount)).filter (passes filters) := by
  rw [applyFilters, List.filter_map]
  split
  · case isTrue h =>
    rcases h with rfl | rfl
    · simp [Output.values, passes, Function.comp_def]
    · rfl
  · dsimp only
    rw [filterLoop_eq hcolumn]
    split
    · case isTrue hnil =>
      rw [Function.comp_def, hnil]
      rfl
    · rfl

/-- A chunk without rows is as good as a new one. -/
theorem clean_applyFilters {filters : List (ℕ × (Option V → Bool))} {count : ℕ}
    {vectors : Vectors V} (hzero : count = 0 → vectors.Clean)
    (hrows : (applyFilters filters count vectors).rows = []) :
    (applyFilters filters count vectors).vectors.Clean := by
  rw [applyFilters] at hrows ⊢
  split
  · case isTrue h =>
    rw [if_pos h] at hrows
    exact hzero (List.range_eq_nil.mp hrows)
  · case isFalse h =>
    rw [if_neg h] at hrows
    dsimp only at hrows ⊢
    split
    · exact fun _ _ => rfl
    · case isFalse hne =>
      rw [if_neg hne] at hrows
      exact absurd hrows hne

end Batch

/-! ### Calls -/

section Loop

variable {config : Config Raw V E} {claim : Claim Raw E W} {state state' : SqliteLocalState Raw}
  {shared shared' : W} {left : List Raw} {rest : List (List Raw)}

/-- The rows of the slices that a thread claims one after the other, up to the refusal. All rows of a
slice have been read when the next one is claimed. -/
inductive Yields (claim : Claim Raw E W) : UInt64 → W → List (List Raw) → Prop where
  | refused {k : UInt64} {shared shared' : W} : claim k shared = .ok (none, shared') →
      Yields claim k shared []
  | claimed {k : UInt64} {shared shared' : W} {rows : List Raw} {rest : List (List Raw)} :
      claim k shared = .ok (some rows, shared') →
      Yields claim (UInt64.ofNat rows.length) shared' rest → Yields claim k shared (rows :: rest)

/-- The rows of the current slice that are left, and the slices after it. -/
structure Ready (claim : Claim Raw E W) (state : SqliteLocalState Raw) (shared : W)
    (left : List Raw) (rest : List (List Raw)) : Prop where
  going : state.done = false → state.stmt.left = some left
  done : state.done = true → left = []
  claims : Yields claim (state.scanCount + UInt64.ofNat left.length) shared rest

/-- The rows that pass the filters. -/
def wanted (config : Config Raw V E) (rows : List Raw) : List (List (Option V)) :=
  (rows.map (rowValues config.columns)).filter (passes config.filters)

theorem wanted_append (rows rows' : List Raw) :
    wanted config (rows ++ rows') = wanted config rows ++ wanted config rows' := by
  simp [wanted]

/-- A chunk as it is handed to a call. -/
structure Output.Fresh (output : Output V) : Prop where
  rows : output.rows = []
  clean : output.vectors.Clean

/-- What a call comes to: an exception for a row, some of the rows, or none of them because there are
no more. -/
inductive Returned (config : Config Raw V E) (claim : Claim Raw E W) (left : List Raw)
    (rest : List (List Raw)) :
    Except E (Output V × SqliteLocalState Raw × W) → Prop where
  | error {row : Raw} {e : E} : row ∈ left ++ rest.flatten → readRow config.columns row = .error e →
      Returned config claim left rest (.error e)
  | chunk {output : Output V} {state : SqliteLocalState Raw} {shared : W} {left' : List Raw}
      {rest' : List (List Raw)} : output.rows ≠ [] → output.rows.length ≤ config.vectorSize →
      Ready claim state shared left' rest' →
      (∃ read, left ++ rest.flatten = read ++ (left' ++ rest'.flatten) ∧ read ≠ [] ∧
        output.values config.columns.length = wanted config read) →
      Returned config claim left rest (.ok (output, state, shared))
  | empty {output : Output V} {state : SqliteLocalState Raw} {k : UInt64} {shared shared' : W} :
      output.rows = [] → state.done = true → claim k shared = .ok (none, shared') →
      wanted config (left ++ rest.flatten) = [] →
      Returned config claim left rest (.ok (output, state, shared'))

/-- Rounds that are left, at most. -/
def work (state : SqliteLocalState Raw) (left : List Raw) (rest : List (List Raw)) : ℕ :=
  left.length + (if state.done then 0 else 1) + (rest.map fun rows => rows.length + 1).sum

/-- A call with that many rounds returns, or there were too few of them. -/
def Ends (config : Config Raw V E) (claim : Claim Raw E W) (n : ℕ) (state : SqliteLocalState Raw)
    (left : List Raw) (rest : List (List Raw)) :
    Option (Except E (Output V × SqliteLocalState Raw × W)) → Prop
  | none => n ≤ work state left rest + 1
  | some r => Returned config claim left rest r

theorem Ready.advance (h : Ready claim state shared left rest)
    (hadvanced : Advanced config.vectorSize left state state') :
    Ready claim state' shared (left.drop config.vectorSize) rest where
  going hdone := by
    have hle : config.vectorSize ≤ left.length := by
      by_contra hlt
      rw [hadvanced.done (by omega)] at hdone
      cases hdone
    exact (hadvanced.going hle).2
  done hdone := by
    refine List.drop_eq_nil_of_le ?_
    by_contra hlt
    rw [(hadvanced.going (by omega)).1] at hdone
    cases hdone
  claims := by
    rw [hadvanced.scanCount, UInt64.add_assoc, ← UInt64.ofNat_add, ← List.length_append,
      List.take_append_drop]
    exact h.claims

theorem work_advance (hdone : state.done = false)
    (hadvanced : Advanced config.vectorSize left state state') :
    work state' (left.drop config.vectorSize) rest < work state left rest := by
  have hpos := config.vectorSize_pos
  rw [work, work, hdone, List.length_drop]
  by_cases hle : config.vectorSize ≤ left.length
  · rw [(hadvanced.going hle).1]
    omega
  · rw [hadvanced.done (by omega), if_neg Bool.false_ne_true, if_pos rfl]
    omega

/-- Rows that are dropped are not missed. -/
theorem Returned.skip {read left' : List Raw} {r : Except E (Output V × SqliteLocalState Raw × W)}
    (h : Returned config claim left' rest r) (hleft : left = read ++ left')
    (hread : wanted config read = []) : Returned config claim left rest r := by
  subst hleft
  cases h with
  | error hmem herror =>
    refine .error ?_ herror
    rw [List.append_assoc]
    exact List.mem_append_right read hmem
  | chunk hne hle hready hrows =>
    obtain ⟨more, hmore, hmorene, hvalues⟩ := hrows
    refine .chunk hne hle hready ⟨read ++ more, ?_, by simp [hmorene], ?_⟩
    · rw [List.append_assoc, hmore, List.append_assoc]
    · rw [wanted_append, hread, List.nil_append, hvalues]
  | empty hrows hdone hrefused hwanted =>
    refine .empty hrows hdone hrefused ?_
    rw [List.append_assoc, wanted_append, hread, hwanted, List.nil_append]

/-- One batch, and the rounds after it. -/
theorem ends_batch {n : ℕ} {output : Output V}
    (ih : ∀ {state : SqliteLocalState Raw} {shared : W} {left : List Raw} {output : Output V},
      Ready claim state shared left rest → output.Fresh →
        Ends config claim n state left rest (scan config claim n state shared output))
    (hdone : state.done = false) (h : Ready claim state shared left rest)
    (hclean : output.vectors.Clean) :
    Ends config claim (n + 1) state left rest
      (match fillVectors config.columns config.vectorSize 0 state output.vectors with
      | .error e => some (.error e)
      | .ok (count, state, vectors) =>
        scan config claim n state shared (applyFilters config.filters count vectors)) := by
  rcases fillVectors_spec config.columns config.vectorSize hdone (h.going hdone)
      (fun c row (_ : 0 ≤ row) => hclean c row) with
    ⟨row, hrow, e, herror, hfill⟩ | ⟨state', vectors', hfill, hadvanced, hfilled⟩
  · rw [hfill]
    exact Returned.error (List.mem_append_left _ hrow) herror
  · rw [hfill]
    dsimp only
    have hready := h.advance hadvanced
    have hwork : work state' (left.drop config.vectorSize) rest < work state left rest :=
      work_advance hdone hadvanced
    have hvalues : (applyFilters config.filters (0 + (left.take config.vectorSize).length)
        vectors').values config.columns.length = wanted config (left.take config.vectorSize) := by
      rw [values_applyFilters config.filter_column, Nat.zero_add, hfilled.map_row]
      rfl
    by_cases hrows : (applyFilters config.filters (0 + (left.take config.vectorSize).length)
        vectors').rows = []
    · have hfresh : Output.Fresh _ := ⟨hrows, clean_applyFilters (fun hzero => ?_) hrows⟩
      · have hends := ih hready hfresh
        have hdropped : wanted config (left.take config.vectorSize) = [] := by
          rw [← hvalues, Output.values, hrows, List.map_nil]
        cases hscan : scan config claim n state' shared (applyFilters config.filters
            (0 + (left.take config.vectorSize).length) vectors') with
        | none =>
          rw [hscan] at hends
          have hn : n ≤ work state' (left.drop config.vectorSize) rest + 1 := hends
          change n + 1 ≤ work state left rest + 1
          omega
        | some r =>
          rw [hscan] at hends
          exact Returned.skip hends (List.take_append_drop _ left).symm hdropped
      · rw [hfilled.nil (List.length_eq_zero_iff.mp (by omega))]
        exact hclean
    · cases n with
      | zero =>
        change 0 + 1 ≤ work state left rest + 1
        omega
      | succ n =>
        rw [scan, if_pos hrows]
        refine Returned.chunk hrows ?_ hready ⟨left.take config.vectorSize, ?_, ?_, hvalues⟩
        · have hlength := congrArg List.length hvalues
          have hfilter := List.length_filter_le (passes config.filters)
            ((left.take config.vectorSize).map (rowValues config.columns))
          have htake := List.length_take_le config.vectorSize left
          rw [Output.values, List.length_map] at hlength
          rw [List.length_map] at hfilter
          rw [hlength, wanted]
          omega
        · rw [← List.append_assoc, List.take_append_drop]
        · intro hnil
          refine hrows (List.map_eq_nil_iff.mp (hvalues.trans ?_))
          rw [hnil]
          rfl

theorem parallelStateNext_of_refused (h : claim state.scanCount shared = .ok (none, shared')) :
    parallelStateNext claim state shared = .ok (none, shared') := by
  rw [parallelStateNext, h]
  rfl

theorem parallelStateNext_of_claimed {rows : List Raw}
    (h : claim state.scanCount shared = .ok (some rows, shared')) :
    parallelStateNext claim state shared = .ok (some ⟨false, .start rows, 0⟩, shared') := by
  rw [parallelStateNext, h]
  rfl

theorem ready_start {rows : List Raw}
    (h : Yields claim (UInt64.ofNat rows.length) shared rest) :
    Ready claim ⟨false, .start rows, 0⟩ shared rows rest where
  going _ := rfl
  done h := by cases h
  claims := by
    rw [UInt64.zero_add]
    exact h

/-- It makes no difference whether the rows are of the current slice. -/
theorem Returned.congr {left' : List Raw} {rest' : List (List Raw)}
    {r : Except E (Output V × SqliteLocalState Raw × W)}
    (h : Returned config claim left' rest' r)
    (heq : left ++ rest.flatten = left' ++ rest'.flatten) :
    Returned config claim left rest r := by
  cases h with
  | error hmem herror => exact .error (heq ▸ hmem) herror
  | chunk hne hle hready hrows => exact .chunk hne hle hready (heq ▸ hrows)
  | empty hrows hdone hrefused hwanted => exact .empty hrows hdone hrefused (heq ▸ hwanted)

theorem Ends.of_claimed {n : ℕ} {rows : List Raw} {k : UInt64}
    {x : Option (Except E (Output V × SqliteLocalState Raw × W))} (hdone : state.done = true)
    (h : Ends config claim n ⟨false, .start rows, k⟩ rows rest x) :
    Ends config claim n state [] (rows :: rest) x := by
  cases x with
  | none =>
    have hn : n ≤ rows.length + 1 + (rest.map fun rows => rows.length + 1).sum + 1 := h
    change n ≤ work state [] (rows :: rest) + 1
    simp only [work, hdone, if_true, List.length_nil, List.map_cons, List.sum_cons]
    omega
  | some r => exact Returned.congr h (by simp)

/-- **A call returns the next rows**, or none if there are no more. -/
theorem scan_ends (n : ℕ) {output : Output V} (h : Ready claim state shared left rest)
    (hfresh : output.Fresh) :
    Ends config claim n state left rest (scan config claim n state shared output) := by
  induction n generalizing state shared left rest output with
  | zero =>
    change 0 ≤ _
    omega
  | succ n ih =>
    rw [scan, if_neg (by simp [hfresh.rows])]
    cases hdone : state.done with
    | false =>
      rw [if_neg (by simp)]
      exact ends_batch (fun hready hfresh => ih hready hfresh) hdone h hfresh.clean
    | true =>
      have hleft := h.done hdone
      subst hleft
      have hclaims : Yields claim state.scanCount shared rest := by
        simpa using h.claims
      rw [if_pos rfl]
      cases hclaims with
      | refused hrefused =>
        rw [parallelStateNext_of_refused hrefused]
        exact Returned.empty hfresh.rows hdone hrefused rfl
      | @claimed _ _ shared' rows rest hclaimed hyields =>
        rw [parallelStateNext_of_claimed hclaimed]
        exact Ends.of_claimed hdone (ends_batch (fun hready hfresh => ih hready hfresh) rfl
          (ready_start hyields) hfresh.clean)

/-- A call returns a chunk with these rows. -/
def Returns (config : Config Raw V E) (claim : Claim Raw E W) (state : SqliteLocalState Raw)
    (shared : W) (chunk : List (List (Option V))) (state' : SqliteLocalState Raw) (shared' : W) :
    Prop :=
  ∃ (n : ℕ) (output output' : Output V), output.Fresh ∧
    scan config claim n state shared output = some (.ok (output', state', shared')) ∧
    output'.values config.columns.length = chunk

/-- Calls one after the other, each with some rows. -/
inductive Calls (config : Config Raw V E) (claim : Claim Raw E W) :
    SqliteLocalState Raw → W → List (List (List (Option V))) → SqliteLocalState Raw → W → Prop where
  | nil {state : SqliteLocalState Raw} {shared : W} : Calls config claim state shared [] state shared
  | cons {state state' state'' : SqliteLocalState Raw} {shared shared' shared'' : W}
      {chunk : List (List (Option V))} {chunks : List (List (List (Option V)))} :
      Returns config claim state shared chunk state' shared' → chunk ≠ [] →
      Calls config claim state' shared' chunks state'' shared'' →
      Calls config claim state shared (chunk :: chunks) state'' shared''

/-- One call that returns rows. -/
theorem Returns.ready {chunk : List (List (Option V))}
    (hreturns : Returns config claim state shared chunk state' shared')
    (h : Ready claim state shared left rest) (hne : chunk ≠ []) :
    chunk.length ≤ config.vectorSize ∧ ∃ left' rest' read,
      Ready claim state' shared' left' rest' ∧ read ≠ [] ∧
      left ++ rest.flatten = read ++ (left' ++ rest'.flatten) ∧ chunk = wanted config read := by
  obtain ⟨n, output, output', hfresh, hscan, hvalues⟩ := hreturns
  have hends : Ends config claim n state left rest _ := scan_ends n h hfresh
  rw [hscan] at hends
  cases hends with
  | chunk hrows hle hready hread =>
    obtain ⟨read, heq, hreadne, hwanted⟩ := hread
    refine ⟨?_, _, _, read, hready, hreadne, heq, hvalues.symm.trans hwanted⟩
    rw [← hvalues, Output.values, List.length_map]
    exact hle
  | empty hrows =>
    rw [Output.values, hrows] at hvalues
    exact absurd hvalues.symm hne

/-- One call that returns no rows. -/
theorem Returns.exhausted (hreturns : Returns config claim state shared [] state' shared')
    (h : Ready claim state shared left rest) :
    wanted config (left ++ rest.flatten) = [] ∧ state'.done = true ∧
      ∃ k before, claim k before = .ok (none, shared') := by
  obtain ⟨n, output, output', hfresh, hscan, hvalues⟩ := hreturns
  have hends : Ends config claim n state left rest _ := scan_ends n h hfresh
  rw [hscan] at hends
  cases hends with
  | chunk hrows hle hready hread => exact absurd (List.map_eq_nil_iff.mp hvalues) hrows
  | empty hrows hdone hrefused hwanted => exact ⟨hwanted, hdone, _, _, hrefused⟩

theorem Calls.ready {chunks : List (List (List (Option V)))}
    (hcalls : Calls config claim state shared chunks state' shared')
    (h : Ready claim state shared left rest) :
    (∀ chunk ∈ chunks, chunk.length ≤ config.vectorSize) ∧ ∃ left' rest' read,
      Ready claim state' shared' left' rest' ∧
      left ++ rest.flatten = read ++ (left' ++ rest'.flatten) ∧
      chunks.flatten = wanted config read := by
  induction hcalls generalizing left rest with
  | nil => exact ⟨by simp, left, rest, [], h, rfl, rfl⟩
  | cons hreturns hne _ ih =>
    obtain ⟨hle, left', rest', read, hready, -, heq, rfl⟩ := hreturns.ready h hne
    obtain ⟨hles, left'', rest'', more, hready', heq', hmore⟩ := ih hready
    refine ⟨?_, left'', rest'', read ++ more, hready', ?_, ?_⟩
    · simpa [hle] using hles
    · rw [heq, heq', List.append_assoc]
    · rw [List.flatten_cons, hmore, wanted_append]

/-- With enough rounds a call returns. -/
theorem exists_scan (config : Config Raw V E) {output : Output V}
    (h : Ready claim state shared left rest)
    (hfresh : output.Fresh) {n : ℕ} (hn : work state left rest + 2 ≤ n) :
    ∃ r, scan config claim n state shared output = some r ∧ Returned config claim left rest r := by
  have hends : Ends config claim n state left rest _ := scan_ends n h hfresh
  cases hscan : scan config claim n state shared output with
  | none =>
    rw [hscan] at hends
    have hle : n ≤ work state left rest + 1 := hends
    omega
  | some r =>
    rw [hscan] at hends
    exact ⟨r, rfl, hends⟩

/-- If all rows can be read the calls come to an end. -/
theorem exists_calls [Inhabited V] (h : Ready claim state shared left rest)
    (hread : ∀ row ∈ left ++ rest.flatten, ∃ values, readRow config.columns row = .ok values) :
    ∃ chunks state' shared' state'' shared'',
      Calls config claim state shared chunks state' shared' ∧
      Returns config claim state' shared' [] state'' shared'' := by
  induction hlength : (left ++ rest.flatten).length using Nat.strong_induction_on
    generalizing state shared left rest with
  | _ k ih =>
    have hfresh : (⟨⟨fun _ _ => default, fun _ _ => true⟩, []⟩ : Output V).Fresh :=
      ⟨rfl, fun _ _ => rfl⟩
    obtain ⟨r, hscan, hreturned⟩ := exists_scan config h hfresh le_rfl
    cases hreturned with
    | @error row e hmem herror =>
      obtain ⟨values, hvalues⟩ := hread row hmem
      rw [herror] at hvalues
      cases hvalues
    | @chunk output state' shared' left' rest' hrows hle hready hrest =>
      obtain ⟨read, heq, hne, hvalues⟩ := hrest
      have hshorter : (left' ++ rest'.flatten).length < k := by
        have := List.length_pos_iff.mpr hne
        rw [heq, List.length_append] at hlength
        omega
      obtain ⟨chunks, s1, w1, s2, w2, hcalls, hempty⟩ := ih _ hshorter hready
        (fun row hrow => hread row (heq ▸ List.mem_append_right read hrow)) rfl
      refine ⟨_ :: chunks, s1, w1, s2, w2, .cons ⟨_, _, output, hfresh, hscan, rfl⟩ ?_ hcalls, hempty⟩
      exact fun hnil => hrows (List.map_eq_nil_iff.mp hnil)
    | @empty output state' _ _ shared' hrows hdone hrefused hwanted =>
      refine ⟨[], state, shared, state', shared', .nil, _, _, output, hfresh, hscan, ?_⟩
      rw [Output.values, hrows, List.map_nil]

end Loop

/-! ### All calls of a thread -/

/-- What the threads share. Once there is no slice left there is none later. -/
structure Claims (Raw E W : Type) where
  claim : Claim Raw E W
  refused : ∀ {k shared shared'}, claim k shared = .ok (none, shared') →
    ∀ k', ∃ shared'', claim k' shared' = .ok (none, shared'')

/-- A new thread has claimed its first slice. -/
theorem exists_initLocalState (claims : Claims Raw E W) {slices : List (List Raw)} {shared₀ : W}
    (h : Yields claims.claim 1 shared₀ slices) :
    ∃ state shared left rest, initLocalState claims.claim shared₀ = .ok (state, shared) ∧
      Ready claims.claim state shared left rest ∧ slices.flatten = left ++ rest.flatten := by
  cases h with
  | @refused _ _ shared hrefused =>
    obtain ⟨shared', hagain⟩ := claims.refused hrefused 1
    refine ⟨⟨true, .start [], 1⟩, shared, [], [], ?_, ⟨nofun, fun _ => rfl, .refused hagain⟩, rfl⟩
    rw [initLocalState, parallelStateNext_of_refused hrefused]
    rfl
  | @claimed _ _ shared rows rest hclaimed hyields =>
    refine ⟨⟨false, .start rows, 0⟩, shared, rows, rest, ?_, ready_start hyields, rfl⟩
    rw [initLocalState, parallelStateNext_of_claimed hclaimed]
    rfl

/-! ### Threads that share a scan -/

section Shared

variable {T : Type} [DecidableEq T] {bindData : SqliteBindData} {t : T}

/-- No thread can claim a slice any more. -/
def Refuses (bindData : SqliteBindData) (gstate : SqliteGlobalState) : Prop :=
  ∀ lstate, claimNextSlice bindData lstate gstate = .ok (none, lstate, gstate)

theorem refuses_of_claimNextSlice {lstate lstate' : ParallelScan.SqliteLocalState}
    {gstate gstate' : SqliteGlobalState}
    (h : claimNextSlice bindData lstate gstate = .ok (none, lstate', gstate')) :
    gstate' = gstate ∧ Refuses bindData gstate := by
  rw [claimNextSlice] at h
  cases hgroup : bindData.rowsPerGroup with
  | none =>
    rw [hgroup] at h
    dsimp only at h
    split at h
    · case isTrue hpos =>
      cases h
      refine ⟨rfl, fun lstate => ?_⟩
      simp [claimNextSlice, hgroup, hpos]
    · cases h
  | some g =>
    rw [hgroup] at h
    obtain ⟨maxRowId, hmax, h⟩ := bind_eq_ok.mp h
    split at h
    · case isTrue hpos =>
      cases h
      refine ⟨rfl, fun lstate => ?_⟩
      simp only [claimNextSlice, hgroup, hmax, bind, Except.bind, if_pos hpos]
    · dsimp only at h
      split at h
      · cases h
      · cases h

/-- The thread has read that many rows of its slice. -/
def withCount (s : ScanState T) (t : T) (scanCount : UInt64) : ScanState T :=
  { s with lstate := Function.update s.lstate t ⟨scanCount⟩ }

theorem lstate_withCount (s : ScanState T) (k : UInt64) : (withCount s t k).lstate t = ⟨k⟩ :=
  Function.update_self t _ _

theorem step_withCount {s : ScanState T} {k : UInt64} {slice : Option Slice}
    {lstate : ParallelScan.SqliteLocalState} {gstate : SqliteGlobalState}
    (h : claimNextSlice bindData ⟨k⟩ s.gstate = .ok (slice, lstate, gstate)) :
    ∃ s', step bindData (withCount s t k) (.claim t) = .ok s' ∧ s'.gstate = gstate ∧
      s'.claimed = s.claimed ++ slice.toList := by
  rw [← lstate_withCount s k] at h
  exact ⟨_, step_claim h, rfl, rfl⟩

/-- The claims of thread `t`. Before each of them the other threads do what they do. -/
def threadClaim (bindData : SqliteBindData) (rowsOf : Slice → List Raw) (t : T) :
    Claim Raw ScanError (ScanState T × List (List (Action T))) := fun scanCount shared => do
  let s ← run (step bindData) shared.1 (shared.2.headD [])
  let (slice, _, _) ← claimNextSlice bindData ⟨scanCount⟩ s.gstate
  let s ← step bindData (withCount s t scanCount) (.claim t)
  .ok (slice.map rowsOf, s, shared.2.tail)

theorem run_of_refuses {s : ScanState T} (h : Refuses bindData s.gstate)
    (actions : List (Action T)) :
    ∃ s', run (step bindData) s actions = .ok s' ∧ s'.gstate = s.gstate := by
  have hstep : ∀ (mid : ScanState T) (a : Action T), mid.gstate = s.gstate →
      ∃ s', step bindData mid a = .ok s' ∧ s'.gstate = s.gstate := by
    intro mid a hmid
    cases a with
    | claim u =>
      rw [← hmid] at h
      exact ⟨_, step_claim (h (mid.lstate u)), hmid⟩
    | scanRow u => exact ⟨_, rfl, hmid⟩
  exact run_ok_of_forall hstep rfl actions

/-- What a claim of thread `t` comes to. -/
theorem threadClaim_eq_ok {rowsOf : Slice → List Raw} {k : UInt64}
    {shared shared' : ScanState T × List (List (Action T))} {rows : Option (List Raw)}
    (h : threadClaim bindData rowsOf t k shared = .ok (rows, shared')) :
    ∃ s slice lstate gstate, run (step bindData) shared.1 (shared.2.headD []) = .ok s ∧
      claimNextSlice bindData ⟨k⟩ s.gstate = .ok (slice, lstate, gstate) ∧
      rows = slice.map rowsOf ∧ shared'.1.gstate = gstate := by
  obtain ⟨s, hrun, h⟩ := bind_eq_ok.mp h
  obtain ⟨⟨slice, lstate, gstate⟩, hclaim, h⟩ := bind_eq_ok.mp h
  obtain ⟨s', hstep, h⟩ := bind_eq_ok.mp h
  cases h
  obtain ⟨s'', hstep', hgstate, -⟩ := step_withCount (t := t) hclaim
  rw [hstep'] at hstep
  cases hstep
  exact ⟨s, slice, lstate, gstate, hrun, hclaim, rfl, hgstate⟩

theorem threadClaim_of_refuses {rowsOf : Slice → List Raw}
    {shared : ScanState T × List (List (Action T))} (h : Refuses bindData shared.1.gstate)
    (k : UInt64) : ∃ shared', threadClaim bindData rowsOf t k shared = .ok (none, shared') := by
  obtain ⟨s, hrun, hs⟩ := run_of_refuses h (shared.2.headD [])
  rw [← hs] at h
  obtain ⟨s', hstep, -⟩ := step_withCount (t := t) (h ⟨k⟩)
  rw [threadClaim, hrun]
  simp only [bind, Except.bind, h ⟨k⟩, hstep]
  exact ⟨_, rfl⟩

/-- The claims of a thread of a parallel scan. -/
def threadClaims (bindData : SqliteBindData) (rowsOf : Slice → List Raw) (t : T) :
    Claims Raw ScanError (ScanState T × List (List (Action T))) where
  claim := threadClaim bindData rowsOf t
  refused h := by
    obtain ⟨s, slice, lstate, gstate, -, hclaim, hrows, hgstate⟩ := threadClaim_eq_ok h
    cases slice with
    | some slice => cases hrows
    | none =>
      obtain ⟨rfl, hrefuses⟩ := refuses_of_claimNextSlice hclaim
      rw [← hgstate] at hrefuses
      exact threadClaim_of_refuses hrefuses

theorem length_claimed_step {s s' : ScanState T} {a : Action T} (h : step bindData s a = .ok s') :
    s.claimed.length ≤ s'.claimed.length := by
  cases a with
  | claim u =>
    obtain ⟨⟨slice, lstate, gstate⟩, -, h⟩ := bind_eq_ok.mp h
    cases h
    simp
  | scanRow u =>
    cases h
    exact le_rfl

theorem length_claimed_run {s s' : ScanState T} {actions : List (Action T)}
    (h : run (step bindData) s actions = .ok s') : s.claimed.length ≤ s'.claimed.length := by
  induction actions generalizing s with
  | nil =>
    cases h
    exact le_rfl
  | cons a actions ih =>
    obtain ⟨mid, hmid, h⟩ := bind_eq_ok.mp h
    exact (length_claimed_step hmid).trans (ih h)

/-- **A thread's claims come to an end**, whatever the other threads do between them: there are no
more slices than row ids. -/
theorem exists_yields {g maxRowId : UInt64} {start : ℕ} (hg : bindData.rowsPerGroup = some g)
    (hmaxRowid : bindData.rowIdInfo.maxRowid = some maxRowId) (hmax : maxRowId.toNat < 2 ^ 63)
    (hrange : maxRowId.toNat < start + 2 ^ 62) (rowsOf : Slice → List Raw) (k : UInt64)
    {s : ScanState T} (hs : Inv start maxRowId s) (others : List (List (Action T))) :
    ∃ slices, Yields (threadClaims bindData rowsOf t).claim k (s, others) slices := by
  have hstep : ∀ (s : ScanState T) (a : Action T), Inv start maxRowId s →
      ∃ s', step bindData s a = .ok s' ∧ Inv start maxRowId s' :=
    fun s a hs => hs.step hg hmaxRowid hmax hrange a
  have hbound : ∀ s : ScanState T, Inv start maxRowId s →
      s.claimed.length ≤ maxRowId.toNat + 1 := by
    intro s hs
    have hlength := hs.tiles.length_le
    have hposition := hs.position_le
    rw [List.length_map] at hlength
    omega
  induction hn : maxRowId.toNat + 1 - s.claimed.length using Nat.strong_induction_on
    generalizing k s others with
  | _ n ih =>
    obtain ⟨mid, hmid, hinv⟩ := run_ok_of_forall hstep hs (others.headD [])
    have hmidLe := length_claimed_run hmid
    have hcount : Inv start maxRowId (withCount mid t k) :=
      ⟨hinv.tiles, hinv.position_le, hinv.size_pos, hinv.size_le, hinv.refused⟩
    obtain ⟨s', hs', hinv'⟩ := hstep (withCount mid t k) (.claim t) hcount
    have hcall := hs'
    rw [step, lstate_withCount] at hcall
    obtain ⟨⟨slice, lstate, gstate⟩, hclaim, -⟩ := bind_eq_ok.mp hcall
    obtain ⟨s'', hs'', -, hclaimed⟩ := step_withCount (s := mid) (t := t) hclaim
    rw [hs'] at hs''
    cases hs''
    have hthread : threadClaim bindData rowsOf t k (s, others) =
        .ok (slice.map rowsOf, s', others.tail) := by
      rw [threadClaim, hmid]
      simp only [bind, Except.bind, show claimNextSlice bindData ⟨k⟩ mid.gstate = _ from hclaim, hs']
    cases slice with
    | none => exact ⟨[], .refused hthread⟩
    | some slice =>
      have hlonger : s'.claimed.length = mid.claimed.length + 1 := by
        rw [hclaimed]
        simp
      have hle := hbound s' hinv'
      obtain ⟨slices, hyields⟩ := ih (maxRowId.toNat + 1 - s'.claimed.length) (by omega)
        (UInt64.ofNat (rowsOf slice).length) hinv' others.tail rfl
      exact ⟨rowsOf slice :: slices, .claimed hthread hyields⟩

end Shared

/-- **The scan is complete.** The calls of a thread return the rows of its slices that pass the
filters, in their order and in chunks that are not too large. A call always returns, or throws what
reading a row has thrown. If it returns no rows, all of them have been returned and there is no
further slice; and if all rows can be read, this happens. -/
theorem scan_complete [Inhabited V] (config : Config Raw V E) (claims : Claims Raw E W) (shared₀ : W)
    (slices : List (List Raw)) (hslices : Yields claims.claim 1 shared₀ slices) :
    ∃ state shared, initLocalState claims.claim shared₀ = .ok (state, shared) ∧
      (∀ chunks state' shared', Calls config claims.claim state shared chunks state' shared' →
        (∀ chunk ∈ chunks, chunk.length ≤ config.vectorSize) ∧
        chunks.flatten <+: wanted config slices.flatten ∧
        (∀ output : Output V, output.Fresh → ∃ rounds, ∀ n, rounds ≤ n → ∃ r,
          scan config claims.claim n state' shared' output = some r ∧
          ∀ e, r = .error e → ∃ row ∈ slices.flatten, readRow config.columns row = .error e) ∧
        ∀ state'' shared'', Returns config claims.claim state' shared' [] state'' shared'' →
          chunks.flatten = wanted config slices.flatten ∧ state''.done = true ∧
          ∀ k, ∃ after, claims.claim k shared'' = .ok (none, after)) ∧
      ((∀ row ∈ slices.flatten, ∃ values, readRow config.columns row = .ok values) →
        ∃ chunks state' shared' state'' shared'',
          Calls config claims.claim state shared chunks state' shared' ∧
          Returns config claims.claim state' shared' [] state'' shared'') := by
  obtain ⟨state, shared, left, rest, hinit, hready, hflatten⟩ := exists_initLocalState claims hslices
  refine ⟨state, shared, hinit, fun chunks state' shared' hcalls => ?_, fun hread => ?_⟩
  · obtain ⟨hle, left', rest', read, hready', heq, hchunks⟩ := hcalls.ready hready
    rw [hflatten, heq, wanted_append, ← hchunks]
    refine ⟨hle, List.prefix_append _ _, fun output hfresh => ?_, fun state'' shared'' hempty => ?_⟩
    · refine ⟨work state' left' rest' + 2, fun n hn => ?_⟩
      obtain ⟨r, hscan, hreturned⟩ := exists_scan config hready' hfresh hn
      refine ⟨r, hscan, fun e he => ?_⟩
      subst he
      cases hreturned with
      | error hmem herror => exact ⟨_, List.mem_append_right read hmem, herror⟩
    · obtain ⟨hnone, hdone, k, before, hrefused⟩ := hempty.exhausted hready'
      rw [hnone, List.append_nil]
      exact ⟨rfl, hdone, claims.refused hrefused⟩
  · exact exists_calls hready (hflatten ▸ hread)

/-- Row ids that are their own values, of which the even ones are wanted, two at a time. -/
def evenRows : Config ℕ ℕ ScanError where
  vectorSize := 2
  vectorSize_pos := by decide
  columns := [fun row => .ok (some row)]
  filters := [(0, fun value => value.any fun n => n % 2 == 0)]
  filter_column := by decide

/-- The row ids of a slice. -/
def Slice.rowids (slice : Slice) : List ℕ :=
  List.range' slice.rowidMin.toNat (slice.rowidMax.toNat + 1 - slice.rowidMin.toNat)

/-- Two slices of three row ids each. -/
def twoSlices : SqliteBindData := ⟨⟨some 1, some 5⟩, some 3⟩

/-- The scan of two slices by the only thread. -/
theorem scan_complete_two_slices :
    wanted evenRows [[0, 1, 2], [3, 4, 5]].flatten = [[some 0], [some 2], [some 4]] ∧
      ∃ state shared,
        initLocalState (threadClaims twoSlices Slice.rowids ()).claim
            (⟨⟨0, 3⟩, fun _ => ⟨1⟩, [], fun _ => false⟩, []) = .ok (state, shared) ∧
        ∃ chunks state' shared' state'' shared'',
          Calls evenRows (threadClaims twoSlices Slice.rowids ()).claim state shared chunks state'
            shared' ∧
          Returns evenRows (threadClaims twoSlices Slice.rowids ()).claim state' shared' [] state''
            shared'' ∧
          chunks.flatten = [[some 0], [some 2], [some 4]] := by
  have hslices : Yields (threadClaims twoSlices Slice.rowids ()).claim 1
      (⟨⟨0, 3⟩, fun _ => ⟨1⟩, [], fun _ => false⟩, []) [[0, 1, 2], [3, 4, 5]] :=
    .claimed rfl (.claimed rfl (.refused rfl))
  have hwanted : wanted evenRows [[0, 1, 2], [3, 4, 5]].flatten =
      [[some 0], [some 2], [some 4]] := by decide
  obtain ⟨state, shared, hinit, hcalls, hends⟩ := scan_complete evenRows _ _ _ hslices
  obtain ⟨chunks, state', shared', state'', shared'', hchunks, hempty⟩ :=
    hends fun row _ => ⟨[some row], rfl⟩
  obtain ⟨-, -, -, hlast⟩ := hcalls chunks state' shared' hchunks
  exact ⟨hwanted, state, shared, hinit, chunks, state', shared', state'', shared'', hchunks, hempty,
    (hlast state'' shared'' hempty).1.trans hwanted⟩

/-- The claims of one of two threads, when the other one has made one before. -/
theorem exists_yields_two_threads :
    ∃ slices, Yields (threadClaims twoSlices Slice.rowids true).claim 1
      (⟨⟨0, 3⟩, fun _ => ⟨1⟩, [], fun _ => false⟩, [[.claim false]]) slices := by
  have hinv : Inv 0 5 (⟨⟨0, 3⟩, fun _ => ⟨1⟩, [], fun _ => false⟩ : ScanState Bool) :=
    ⟨rfl, by decide, by decide, fun _ => by decide, nofun⟩
  exact exists_yields rfl rfl (by decide) (by decide) Slice.rowids 1 hinv [[.claim false]]

end ScanLoop

end SqliteScanner
