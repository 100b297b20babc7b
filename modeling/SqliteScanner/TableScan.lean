import Mathlib.Algebra.BigOperators.Group.Finset.Piecewise
import Mathlib.Algebra.Order.Group.Multiset
import Mathlib.Data.Multiset.Bind
import SqliteScanner.FilterPushdown
import SqliteScanner.ScanLoop

/-!
# The scan of a table by several threads

The threads divide the row ids among them (`ParallelScan`), each thread turns the rows of its slices
into chunks (`ScanLoop`), and the filters are divided between SQLite and DuckDB (`FilterPushdown`).
Together the threads return the rows of the table that pass the filters, each as often as it is in
the table: for every order of their claims, and also if the row ids cannot be divided and one thread
reads everything.

A thread claims a slice when it has read all rows of the last one. So a run is the order of the claims,
and what a thread does between two of them depends on the slices that it has.

## Main definitions

* `claim` — a thread claims its next slice
* `Delivers` — the rows that a thread returns for its slices, up to its last call
* `scanConfig` — the scan of a table with the filters that are left to it

## Main results

* `exists_run` — no claim throws, and the threads own the slices that were handed out
* `tableScan_complete` — what all threads return together
-/

namespace SqliteScanner.TableScan

open ParallelScan ScanLoop Runs

variable {Raw V E T : Type}

/-! ### The claims -/

/-- A scan, and the slices that each thread has claimed. -/
structure Progress (T : Type) where
  scan : ScanState T
  owned : T → List Slice

def Progress.init (s : ScanState T) : Progress T := ⟨s, fun _ => []⟩

/-- `scan_count` of a thread that has read all rows of its slices. -/
def scanCount (rowsOf : Slice → List Raw) (slices : List Slice) : UInt64 :=
  (slices.getLast?.map fun slice => UInt64.ofNat (rowsOf slice).length).getD 1

section Claims

variable [DecidableEq T] {bindData : SqliteBindData} {rowsOf : Slice → List Raw} {rows : List Raw}
  {I : ScanState T → Prop}

/-- A thread claims its next slice. -/
def claim (bindData : SqliteBindData) (rowsOf : Slice → List Raw) (p : Progress T) (t : T) :
    Except ScanError (Progress T) := do
  let s ← step bindData (withCount p.scan t (scanCount rowsOf (p.owned t))) (.claim t)
  .ok ⟨s, Function.update p.owned t (p.owned t ++ s.claimed.drop p.scan.claimed.length)⟩

/-- The threads own the slices that were handed out. -/
def Progress.Owned [Fintype T] (p : Progress T) : Prop :=
  ∑ t, (p.owned t : Multiset Slice) = p.scan.claimed

theorem Progress.Owned.claim [Fintype T] {p p' : Progress T} {t : T} (hp : p.Owned)
    (h : claim bindData rowsOf p t = .ok p') : p'.Owned := by
  obtain ⟨s, hstep, h⟩ := bind_eq_ok.mp h
  obtain ⟨⟨slice, lstate, gstate⟩, -, hs⟩ := bind_eq_ok.mp hstep
  cases h
  cases hs
  have hupdate : ∀ slices : List Slice,
      (fun u => ((Function.update p.owned t slices u : List Slice) : Multiset Slice)) =
        Function.update (fun u => (p.owned u : Multiset Slice)) t (slices : Multiset Slice) := by
    intro slices
    funext u
    exact Function.apply_update (fun _ (l : List Slice) => (l : Multiset Slice)) p.owned t slices u
  rw [Owned, ← Function.update_eq_self t fun u => (p.owned u : Multiset Slice),
    Finset.sum_update_of_mem (Finset.mem_univ t)] at hp
  simp only [Owned, withCount, hupdate, Finset.sum_update_of_mem (Finset.mem_univ t),
    List.drop_left, ← Multiset.coe_add, ← hp]
  rw [add_right_comm]

/-- No claim throws, and once a thread is refused the slices that were handed out have all rows. -/
structure Divides (bindData : SqliteBindData) (rowsOf : Slice → List Raw) (rows : List Raw)
    (I : ScanState T → Prop) : Prop where
  step : ∀ (s : ScanState T) (k : UInt64) (t : T), I s →
    ∃ s', step bindData (withCount s t k) (.claim t) = .ok s' ∧ I s'
  covers : ∀ s : ScanState T, I s → (∃ t, s.refused t = true) →
    List.Perm (s.claimed.flatMap rowsOf) rows

/-- **Every order of claims is a run**, and the threads own the slices that were handed out. -/
theorem exists_run [Fintype T] (h : Divides bindData rowsOf rows I) {s₀ : ScanState T} (h₀ : I s₀)
    (hclaimed : s₀.claimed = []) (order : List T) :
    ∃ p, run (claim bindData rowsOf) (.init s₀) order = .ok p ∧ I p.scan ∧ p.Owned := by
  have hstep : ∀ (p : Progress T) (t : T), I p.scan ∧ p.Owned →
      ∃ p', claim bindData rowsOf p t = .ok p' ∧ I p'.scan ∧ p'.Owned := by
    rintro p t ⟨hscan, howned⟩
    obtain ⟨s, hs, hI⟩ := h.step p.scan (scanCount rowsOf (p.owned t)) t hscan
    have hclaim : claim bindData rowsOf p t = .ok ⟨s, Function.update p.owned t
        (p.owned t ++ s.claimed.drop p.scan.claimed.length)⟩ := by
      rw [claim, hs]
      rfl
    exact ⟨_, hclaim, hI, howned.claim hclaim⟩
  refine run_ok_of_forall hstep ⟨h₀, ?_⟩ order
  simp [Progress.Owned, Progress.init, hclaimed]

end Claims

/-! ### The rows of a slice -/

section Slices

variable {rowId : Raw → ℤ} {condition : Raw → Bool} {table : List Raw}

/-- `SqliteBind`: a scan whose row ids cannot be divided has no slice size. -/
def bindRowIds (name : String) (minMax : Option (Int64 × Int64)) (rowsPerGroup : UInt64) :
    SqliteBindData :=
  match getRowIdInfo name minMax with
  | some info => ⟨info, some rowsPerGroup⟩
  | none => ⟨{}, none⟩

/-- The rows that the statement of a slice returns: those of a condition and, if there is a slice size,
of `rowid BETWEEN ? AND ?`. -/
def sliceRows (bindData : SqliteBindData) (rowId : Raw → ℤ) (condition : Raw → Bool)
    (table : List Raw) (slice : Slice) : List Raw :=
  table.filter fun row => condition row && (bindData.rowsPerGroup.isNone ||
    (slice.rowidMin.toInt64.toInt ≤ rowId row && rowId row ≤ slice.rowidMax.toInt64.toInt))

theorem toInt_toInt64 {x : UInt64} (h : x.toNat < 2 ^ 63) : x.toInt64.toInt = x.toNat :=
  BitVec.toInt_eq_toNat_of_lt (x := x.toBitVec) (by rw [UInt64.toNat_toBitVec]; omega)

variable [DecidableEq T]

/-- Slices of row ids. -/
theorem divides_slices {g maxRowId : UInt64} {info : RowIdInfo} {start : ℕ}
    (hmaxRowid : info.maxRowid = some maxRowId) (hmax : maxRowId.toNat < 2 ^ 63)
    (hrange : maxRowId.toNat < start + 2 ^ 62)
    (htable : ∀ row ∈ table, (start : ℤ) ≤ rowId row ∧ rowId row ≤ maxRowId.toNat) :
    Divides ⟨info, some g⟩ (sliceRows ⟨info, some g⟩ rowId condition table)
      (table.filter condition) (Inv (T := T) start maxRowId) where
  step s k t hs := by
    have hcount : Inv start maxRowId (withCount s t k) :=
      ⟨hs.tiles, hs.position_le, hs.size_pos, hs.size_le, hs.refused⟩
    exact hcount.step rfl hmaxRowid hmax hrange (.claim t)
  covers s hs := by
    rintro ⟨t, ht⟩
    have hend := UInt64.lt_iff_toNat_lt.mp (hs.refused t ht)
    have hids : ∀ row ∈ table.filter condition,
        start ≤ (rowId row).toNat ∧ (rowId row).toNat < s.gstate.position.toNat := by
      intro row hrow
      have := htable row (List.mem_of_mem_filter hrow)
      omega
    have hperm := hs.tiles.flatMap_filter_perm (fun row => (rowId row).toNat) hids
    rw [List.flatMap_map] at hperm
    refine (List.Perm.of_eq (List.flatMap_congr fun slice hslice => ?_)).trans hperm
    obtain ⟨-, hle, hlt⟩ : _ ∧ slice.rowidMin.toNat ≤ slice.rowidMax.toNat ∧
        slice.rowidMax.toNat < s.gstate.position.toNat :=
      hs.tiles.bounds slice.toNats (List.mem_map_of_mem hslice)
    have hposition := hs.position_le
    rw [List.filter_filter]
    refine List.filter_congr fun row hrow => ?_
    have hid := htable row hrow
    have hbetween : (decide ((slice.rowidMin.toNat : ℤ) ≤ rowId row) &&
        decide (rowId row ≤ slice.rowidMax.toNat)) = decide (slice.toNats.1 ≤ (rowId row).toNat ∧
          (rowId row).toNat ≤ slice.toNats.2) := by
      rw [← Bool.decide_and, decide_eq_decide]
      simp only [Slice.toNats]
      omega
    rw [toInt_toInt64 (by omega), toInt_toInt64 (by omega), hbetween, Option.isNone_some,
      Bool.false_or, Bool.and_comm]

/-- One slice with everything in it. -/
theorem divides_whole : Divides ⟨{}, none⟩ (sliceRows ⟨{}, none⟩ rowId condition table)
    (table.filter condition) fun s : ScanState T =>
      s.gstate.position = 0 ∧ s.claimed = [] ∧ (∀ t, s.refused t = false) ∨
        0 < s.gstate.position ∧ s.claimed = [⟨0, 0⟩] where
  step s k t hs := by
    rcases hs with ⟨hpos, hclaimed, -⟩ | ⟨hpos, hclaimed⟩
    · have hfirst : claimNextSlice ⟨{}, none⟩ ((withCount s t k).lstate t) s.gstate =
          .ok (some ⟨0, 0⟩, { scanCount := 0 }, { s.gstate with position := -1 }) :=
        if_neg (by rw [hpos]; decide)
      refine ⟨_, step_claim hfirst, .inr ⟨show (0 : UInt64) < -1 by decide, ?_⟩⟩
      simp [withCount, hclaimed]
    · have hlater : claimNextSlice ⟨{}, none⟩ ((withCount s t k).lstate t) s.gstate =
          .ok (none, (withCount s t k).lstate t, s.gstate) := if_pos hpos
      refine ⟨_, step_claim hlater, .inr ⟨hpos, ?_⟩⟩
      simp [withCount, hclaimed]
  covers s hs := by
    rintro ⟨t, ht⟩
    rcases hs with ⟨-, -, hrefused⟩ | ⟨-, hclaimed⟩
    · rw [hrefused t] at ht
      cases ht
    · simp [hclaimed, sliceRows]

end Slices
/-! ### The calls of the threads -/

section Calls

/-- The claims of a thread that gets these slices. -/
def scripted (Raw E : Type) : Claims Raw E (List (List Raw)) where
  claim _ slices := .ok (slices.head?, slices.tail)
  refused {k shared shared'} h := by
    cases shared with
    | nil =>
      cases h
      exact fun _ => ⟨_, rfl⟩
    | cons rows slices => cases h

theorem yields_scripted (k : UInt64) (slices : List (List Raw)) :
    Yields (scripted Raw E).claim k slices slices := by
  induction slices generalizing k with
  | nil => exact .refused rfl
  | cons rows slices ih => exact .claimed rfl (ih _)

/-- The rows that a thread returns for its slices, up to its first call without rows. -/
def Delivers (config : Config Raw V E) (slices : List (List Raw)) (rows : List (List (Option V))) :
    Prop :=
  ∃ state shared chunks state' shared' state'' shared'',
    initLocalState (scripted Raw E).claim slices = .ok (state, shared) ∧
    Calls config (scripted Raw E).claim state shared chunks state' shared' ∧
    Returns config (scripted Raw E).claim state' shared' [] state'' shared'' ∧ rows = chunks.flatten

variable {config : Config Raw V E} {slices : List (List Raw)} {rows : List (List (Option V))}

/-- A thread returns what is wanted of its slices, and it comes to an end if it can read them. -/
theorem delivers_iff_eq [Inhabited V]
    (hread : ∀ row ∈ slices.flatten, ∃ values, readRow config.columns row = .ok values) :
    Delivers config slices rows ↔ rows = wanted config slices.flatten := by
  obtain ⟨state, shared, left, rest, hinit, hready, hflatten⟩ :=
    exists_initLocalState (scripted Raw E) (yields_scripted 1 slices)
  have hall : ∀ {chunks state' shared' state'' shared''},
      Calls config (scripted Raw E).claim state shared chunks state' shared' →
      Returns config (scripted Raw E).claim state' shared' [] state'' shared'' →
      chunks.flatten = wanted config slices.flatten := by
    intro chunks state' shared' state'' shared'' hcalls hlast
    obtain ⟨-, left', rest', read, hready', heq, hchunks⟩ := hcalls.ready hready
    rw [hflatten, heq, wanted_append, (hlast.exhausted hready').1, List.append_nil, hchunks]
  constructor
  · rintro ⟨state₁, shared₁, chunks, state', shared', state'', shared'', hinit', hcalls, hlast, rfl⟩
    rw [hinit] at hinit'
    cases hinit'
    exact hall hcalls hlast
  · rintro rfl
    obtain ⟨chunks, state', shared', state'', shared'', hcalls, hlast⟩ :=
      exists_calls hready (hflatten ▸ hread)
    exact ⟨state, shared, chunks, state', shared', state'', shared'', hinit, hcalls, hlast,
      (hall hcalls hlast).symm⟩

/-- What is wanted of some slices. -/
def wantedHom (config : Config Raw V E) (rowsOf : Slice → List Raw) :
    Multiset Slice →+ Multiset (List (Option V)) :=
  Multiset.sumAddMonoidHom.comp
    (Multiset.mapAddMonoidHom fun slice => (wanted config (rowsOf slice) : Multiset _))

theorem wantedHom_coe (config : Config Raw V E) (rowsOf : Slice → List Raw) (slices : List Slice) :
    wantedHom config rowsOf slices = wanted config (slices.map rowsOf).flatten := by
  have hflatMap : wanted config (slices.map rowsOf).flatten =
      slices.flatMap fun slice => wanted config (rowsOf slice) := by
    induction slices with
    | nil => rfl
    | cons slice slices ih =>
      rw [List.map_cons, List.flatten_cons, wanted_append, ih, List.flatMap_cons]
  rw [hflatMap]
  exact Multiset.coe_bind _ _

/-- **Together the threads return what is wanted of the slices that were handed out.** -/
theorem sum_wanted [Fintype T] (config : Config Raw V E) (rowsOf : Slice → List Raw) {p : Progress T}
    (hp : p.Owned) {all : List Raw} (hall : List.Perm (p.scan.claimed.flatMap rowsOf) all) :
    ∑ t, (wanted config ((p.owned t).map rowsOf).flatten : Multiset (List (Option V))) =
      wanted config all := by
  have hperm : List.Perm (wanted config (p.scan.claimed.map rowsOf).flatten) (wanted config all) := by
    rw [← List.flatMap_def]
    exact (hall.map _).filter _
  rw [← Multiset.coe_eq_coe.mpr hperm, ← wantedHom_coe, ← hp, map_sum]
  exact Finset.sum_congr rfl fun t _ => (wantedHom_coe config rowsOf (p.owned t)).symm

end Calls

/-! ### The scan with its filters -/

section Filters

open FilterPushdown (ColumnId Value Row Expression FilterLibrary SqlSemantics TableFilter
  SQLiteScanFilter eval conjuncts transformFilters letsThrough)

variable {n : ℕ}

/-- A vector marks the places of its nulls. -/
def notNull : Value → Option Value
  | .null => none
  | value => some value

def rowId (row : Row) : ℤ :=
  match row .rowId with
  | .bigint id => id
  | _ => 0

/-- A row as it is returned. -/
def output (columnIds : Fin n → ColumnId) (row : Row) : List (Option Value) :=
  (List.ofFn columnIds).map fun id => notNull (row id)

/-- The scan of some columns with the filters that are left to it. A value that does not have the type
of its column cannot be read. -/
def scanConfig {vectorSize : ℕ} (hsize : 0 < vectorSize) (columnIds : Fin n → ColumnId)
    (read : ColumnId → Row → Except E (Option Value)) (leaf : Expression → Value → Option Bool)
    (scanFilters : List (SQLiteScanFilter n)) : Config Row Value E where
  vectorSize := vectorSize
  vectorSize_pos := hsize
  columns := (List.ofFn columnIds).map read
  filters := scanFilters.map fun entry =>
    (entry.columnIndex, fun value => eval leaf entry.filter (value.getD .null) == some true)
  filter_column := by simp

variable {vectorSize : ℕ} {hsize : 0 < vectorSize} {columnIds : Fin n → ColumnId}
  {read : ColumnId → Row → Except E (Option Value)} {leaf : Expression → Value → Option Bool}
  {scanFilters : List (SQLiteScanFilter n)}

theorem readRow_scanConfig {row : Row}
    (hread : ∀ i, read (columnIds i) row = .ok (notNull (row (columnIds i)))) :
    readRow (scanConfig hsize columnIds read leaf scanFilters).columns row =
      .ok (output columnIds row) := by
  rw [readRow, scanConfig, List.mapM_map, output]
  have hmem : ∀ id ∈ List.ofFn columnIds, read id row = .ok (notNull (row id)) := by
    simpa using hread
  generalize List.ofFn columnIds = ids at hmem ⊢
  induction ids with
  | nil => rfl
  | cons id ids ih =>
    obtain ⟨hid, hids⟩ := List.forall_mem_cons.mp hmem
    rw [List.mapM_cons, ih hids, Function.comp_apply, hid]
    rfl

theorem getD_notNull (value : Value) : (notNull value).getD .null = value := by
  cases value <;> rfl

theorem wanted_scanConfig {rows : List Row}
    (hread : ∀ row ∈ rows, ∀ i, read (columnIds i) row = .ok (notNull (row (columnIds i)))) :
    wanted (scanConfig hsize columnIds read leaf scanFilters) rows =
      (rows.filter fun row => scanFilters.all fun entry =>
        FilterPushdown.passes columnIds leaf entry row).map (output columnIds) := by
  have hvalues : rows.map (rowValues (scanConfig hsize columnIds read leaf scanFilters).columns) =
      rows.map (output columnIds) :=
    List.map_congr_left fun row hrow => rowValues_of_ok (readRow_scanConfig (hread row hrow))
  rw [wanted, hvalues, List.filter_map]
  congr 1
  refine List.filter_congr fun row _ => ?_
  simp [ScanLoop.passes, scanConfig, output, FilterPushdown.passes, Function.comp_def, List.all_map,
    getD_notNull]

variable [DecidableEq T] {lib : FilterLibrary} {sql : SqlSemantics}
  {bindData : FilterPushdown.SqliteBindData}

/-- A scan of a table is divided, or is not. -/
theorem exists_divides (name : String) (minMax : Option (Int64 × Int64)) {rowsPerGroup : UInt64}
    (hpos : 1 ≤ rowsPerGroup.toNat) (hle : rowsPerGroup.toNat ≤ 2 ^ 62) (condition : Row → Bool)
    {table : List Row} (hrange : ∀ lo hi, minMax = some (lo, hi) → ∀ row ∈ table,
      lo.toInt ≤ rowId row ∧ rowId row ≤ hi.toInt) :
    ∃ (s₀ : ScanState T) (I : ScanState T → Prop),
      initState T (bindRowIds name minMax rowsPerGroup) = .ok s₀ ∧ s₀.claimed = [] ∧ I s₀ ∧
      Divides (bindRowIds name minMax rowsPerGroup)
        (sliceRows (bindRowIds name minMax rowsPerGroup) rowId condition table)
        (table.filter condition) I := by
  cases hinfo : getRowIdInfo name minMax with
  | none =>
    rw [bindRowIds, hinfo]
    exact ⟨_, _, rfl, rfl, .inl ⟨rfl, rfl, fun _ => rfl⟩, divides_whole⟩
  | some info =>
    obtain ⟨lo, hi, rfl⟩ : ∃ lo hi, minMax = some (lo, hi) := by
      cases minMax with
      | none => simp [getRowIdInfo] at hinfo
      | some minMax => exact ⟨_, _, rfl⟩
    obtain ⟨rfl, hlt, hmax, hrows⟩ := getRowIdInfo_eq_some hinfo
    obtain ⟨s₀, hinit, hposition, hsize, hclaimed, hrefused⟩ :=
      initState_eq T lo.toUInt64 hi.toUInt64 rowsPerGroup
    rw [bindRowIds, hinfo]
    refine ⟨s₀, Inv (lo.toUInt64.toNat - 1) hi.toUInt64, hinit, hclaimed, ?_,
      divides_slices rfl hmax (by omega) fun row hrow => ?_⟩
    · refine ⟨?_, by omega, by rw [hsize]; exact hpos, fun _ => by rw [hsize]; exact hle, ?_⟩
      · rw [hclaimed]
        exact hposition.symm
      · intro t ht
        simp [hrefused] at ht
    · have hid := hrange lo hi rfl row hrow
      have hlo : lo.toInt = lo.toUInt64.toNat := toInt_toInt64 (x := lo.toUInt64) (by omega)
      have hhi : hi.toInt = hi.toUInt64.toNat := toInt_toInt64 (x := hi.toUInt64) hmax
      omega

/-- **The scan of a table is complete**, if the rows that SQLite returns can be read. Whatever the order
in which the threads claim their slices, no claim throws and every thread comes to an end; and when one
of them has been refused, what all threads return are the rows of the table that the filters let through.
These satisfy every conjunct of a filter that is not internal, and every row that satisfies all conjuncts
is among them. -/
theorem tableScan_complete [Fintype T] (hlib : lib.Correct sql leaf bindData)
    {vectorSize : ℕ} (hsize : 0 < vectorSize) (columnIds : Fin n → ColumnId)
    (read : ColumnId → Row → Except E (Option Value)) (filters : Option (List (TableFilter n)))
    (table : List Row) (name : String)
    (minMax : Option (Int64 × Int64)) (hrange : ∀ lo hi, minMax = some (lo, hi) → ∀ row ∈ table,
      lo.toInt ≤ rowId row ∧ rowId row ≤ hi.toInt) (rowsPerGroup : UInt64)
    (hpos : 1 ≤ rowsPerGroup.toNat) (hle : rowsPerGroup.toNat ≤ 2 ^ 62) :
    let bind := bindRowIds name minMax rowsPerGroup
    let pushed := transformFilters lib bindData columnIds filters
    let condition := fun row => pushed.1 == "" || sql.holds pushed.1 row
    let rowsOf := sliceRows bind rowId condition table
    let config := scanConfig hsize columnIds read leaf pushed.2
    (∀ row ∈ table, condition row = true →
      ∀ i, read (columnIds i) row = .ok (notNull (row (columnIds i)))) →
    ∃ (s₀ : ScanState T) (pass : Row → Bool), initState T bind = .ok s₀ ∧
      (∀ row, (pass row = true → ∀ entry ∈ filters.getD [], ∀ c ∈ conjuncts entry.filter,
          lib.isInternalExpression c = false → leaf c (row (columnIds entry.columnIndex)) = some true) ∧
        ((∀ entry ∈ filters.getD [], ∀ c ∈ conjuncts entry.filter,
          leaf c (row (columnIds entry.columnIndex)) = some true) → pass row = true)) ∧
      ∀ order : List T, ∃ p, run (claim bind rowsOf) (.init s₀) order = .ok p ∧
        (∀ t, ∃ rows, Delivers config ((p.owned t).map rowsOf) rows) ∧
        ((∃ t, p.scan.refused t = true) → ∀ rows : T → List (List (Option Value)),
          (∀ t, Delivers config ((p.owned t).map rowsOf) (rows t)) →
          ∑ t, (rows t : Multiset (List (Option Value))) =
            (table.filter pass).map (output columnIds)) := by
  intro bind pushed condition rowsOf config hread
  obtain ⟨s₀, I, hinit, hclaimed, hI, hdivides⟩ := exists_divides (T := T) name minMax hpos hle
    condition hrange
  refine ⟨s₀, letsThrough lib sql bindData leaf columnIds filters, hinit, fun row => ⟨?_, ?_⟩,
    fun order => ?_⟩
  · intro hrow entry hentry c hc
    exact FilterPushdown.conjunct_of_letsThrough hlib hrow hentry hc
  · exact FilterPushdown.letsThrough_of_conjuncts hlib
  have hdelivers : ∀ {slices : List Slice} {rows}, Delivers config (slices.map rowsOf) rows ↔
      rows = wanted config (slices.map rowsOf).flatten := by
    intro slices rows
    have : Inhabited Value := ⟨.null⟩
    refine delivers_iff_eq fun row hrow => ?_
    obtain ⟨_, hslice, hrow⟩ := List.mem_flatten.mp hrow
    obtain ⟨slice, -, rfl⟩ := List.mem_map.mp hslice
    obtain ⟨htable, hrow⟩ := List.mem_filter.mp hrow
    exact ⟨_, readRow_scanConfig (hread row htable (Bool.and_eq_true_iff.mp hrow).1)⟩
  obtain ⟨p, hrun, hp, howned⟩ := exists_run hdivides hI hclaimed order
  refine ⟨p, hrun, fun t => ⟨_, hdelivers.mpr rfl⟩, fun hrefused rows hrows => ?_⟩
  have hwanted : wanted config (table.filter condition) =
      (table.filter (letsThrough lib sql bindData leaf columnIds filters)).map
        (output columnIds) := by
    rw [wanted_scanConfig fun row hrow => hread row (List.mem_of_mem_filter hrow)
      (List.mem_filter.mp hrow).2, List.filter_filter]
    congr 1
    exact List.filter_congr fun row _ => Bool.and_comm _ _
  rw [← hwanted, ← sum_wanted config rowsOf howned (hdivides.covers p.scan hp hrefused)]
  exact Finset.sum_congr rfl fun t _ => congrArg _ (hdelivers.mp (hrows t))

open FilterPushdown

/-- Two threads, a table with the row ids 4 and 5, and the filter `i = 5`. The row that SQLite does not
return cannot be read. -/
theorem tableScan_two_threads :
    let table := [Small.row 4, Small.row 5]
    let bind := bindRowIds "rowid" (some (4, 5)) 1
    let pushed := transformFilters Small.lib Small.bindData
      (fun _ => .column 0) (some [Small.filter])
    let rowsOf := sliceRows bind rowId (fun row => pushed.1 == "" ||
      Small.sql.holds pushed.1 row) table
    let read := fun id row => if row id = .bigint 4 then .error () else .ok (notNull (row id))
    let config := scanConfig (show 0 < 2 by decide) (fun _ => .column 0) read
      Small.leaf pushed.2
    ∃ s₀ : ScanState Bool, initState Bool bind = .ok s₀ ∧ ∀ order, ∃ p,
      run (claim bind rowsOf) (.init s₀) order = .ok p ∧
        ((∃ t, p.scan.refused t = true) → ∀ rows : Bool → List (List (Option Value)),
          (∀ t, Delivers config ((p.owned t).map rowsOf) (rows t)) →
            ∑ t, (rows t : Multiset (List (Option Value))) = {[some (.bigint 5)]}) := by
  intro table bind pushed rowsOf read config
  have hcondition : (pushed.1 == "" || Small.sql.holds pushed.1
      (Small.row 4)) = false := by decide +kernel
  obtain ⟨s₀, pass, hinit, hpass, hruns⟩ := tableScan_complete (T := Bool)
    Small.lib_correct (show 0 < 2 by decide) (fun _ : Fin 1 => .column 0) read
    (some [Small.filter]) table "rowid" (some (4, 5)) (by rintro _ _ ⟨⟩; decide) 1
    (by decide) (by decide) (by
      intro row hrow hholds
      rcases List.mem_pair.mp hrow with rfl | rfl
      · exact (Bool.false_ne_true (hcondition.symm.trans hholds)).elim
      · intro i
        rfl)
  obtain ⟨hfour, hfive⟩ := Small.pass_eq hpass
  refine ⟨s₀, hinit, fun order => (hruns order).imp fun p h => ⟨h.1, fun hrefused rows hrows => ?_⟩⟩
  rw [h.2.2 hrefused rows hrows, List.filter_cons_of_neg (by simp [hfour]),
    List.filter_cons_of_pos hfive]
  rfl

end Filters

end SqliteScanner.TableScan
