import SqliteScanner.Internal.Runs
import SqliteScanner.Internal.Tiling
import Mathlib.Algebra.Group.Nat.Defs
import Mathlib.Logic.Function.Basic

/-!
# The slices of a parallel scan

A parallel scan of a table divides the row ids into slices. The threads share a position and a
slice size; a thread that wants more work takes the rows from the position on and moves it past
them, under a lock. A thread that found no row in its previous slice doubles the size first, so
that a sparse table does not take one call for every 122880 row ids.

All of this is arithmetic on `idx_t`, which is `UInt64` here and wraps around. That it never does
is part of what is proved: the size is only doubled while it is smaller than the part of the range
that was already handed out, which `GetRowIdInfo` bounds.

## Main definitions

* `getRowIdInfo`, `initGlobalState`, `claimNextSlice` — the source's functions
* `step` — one call of `claimNextSlice` by a thread, or one row read by it

## Main results

* `claimNextSlice_spec` — what one call does in a state that satisfies the invariant
* `slices_partition` — every run of every number of threads divides the range into slices
-/

namespace SqliteScanner

namespace ParallelScan

open Tiling Runs

/-! ### The row ids of a table -/

/-- The smallest and the largest row id, unset when they are not usable for slices. -/
structure RowIdInfo where
  minRowid : Option UInt64 := none
  maxRowid : Option UInt64 := none
  deriving DecidableEq, Repr

/-- A range with more row ids than this is not dense enough to be divided. -/
def maxRows : Int64 := 20000000000000

/-- `rowidName` is empty when columns hide the row id. `row` is the result of
`SELECT (SELECT MIN(..)), (SELECT MAX(..))`, absent when it cannot be prepared or has no row. -/
def getRowIdInfo (rowidName : String) (row : Option (Int64 × Int64)) : Option RowIdInfo :=
  if rowidName.isEmpty then none
  else
    match row with
    | none => none
    | some (minVal, maxVal) =>
      if minVal < 0 || maxVal ≤ minVal then none
      else if maxVal - minVal ≥ maxRows then none
      else some ⟨some minVal.toUInt64, some maxVal.toUInt64⟩

/-- What `getRowIdInfo` checked, as facts about numbers. -/
theorem getRowIdInfo_eq_some {name : String} {minVal maxVal : Int64} {info : RowIdInfo}
    (h : getRowIdInfo name (some (minVal, maxVal)) = some info) :
    info = ⟨some minVal.toUInt64, some maxVal.toUInt64⟩ ∧
      minVal.toUInt64.toNat < maxVal.toUInt64.toNat ∧
      maxVal.toUInt64.toNat < 2 ^ 63 ∧
      maxVal.toUInt64.toNat - minVal.toUInt64.toNat < 20000000000000 := by
  simp only [getRowIdInfo] at h
  split_ifs at h with hname hrange hrows
  simp only [Bool.or_eq_true, decide_eq_true_eq, not_or, Int64.not_lt, Int64.not_le] at hrange
  obtain ⟨hmin, hlt⟩ := hrange
  have hmax : 0 ≤ maxVal := Int64.le_trans hmin (Int64.le_of_lt hlt)
  simp only [ge_iff_le, Int64.not_le, Int64.lt_iff_toInt_lt, Int64.toInt_sub] at hrows
  rw [Int64.toNat_toUInt64_of_le hmin, Int64.toNat_toUInt64_of_le hmax]
  simp only [Int64.lt_iff_toInt_lt, Int64.le_iff_toInt_le, Int64.toInt_zero] at hmin hlt hmax
  have hbound : maxVal.toInt < 2 ^ 63 := Int64.toInt_lt maxVal
  -- both row ids are in `[0, 2 ^ 63)`, so their signed difference does not wrap around
  rw [Int.bmod_eq_of_le (by omega) (by omega)] at hrows
  have hrows' : maxVal.toInt - minVal.toInt < 20000000000000 := hrows
  refine ⟨(Option.some.inj h).symm, ?_, ?_, ?_⟩ <;> simp only [Int64.toNatClampNeg] <;> omega

/-! ### The states -/

/-- The part of the bind data that the division into slices reads. -/
structure SqliteBindData where
  rowIdInfo : RowIdInfo
  rowsPerGroup : Option UInt64 := some 122880
  deriving DecidableEq, Repr

/-- The part of a thread's state that the division into slices reads. A new thread has not had an
empty slice. -/
structure SqliteLocalState where
  scanCount : UInt64 := 1
  deriving DecidableEq, Repr

structure SqliteGlobalState where
  position : UInt64 := 0
  rowsPerGroup : UInt64 := 0
  deriving DecidableEq, Repr

/-- A claimed slice: the row ids from `rowidMin` to `rowidMax`, both included. -/
structure Slice where
  rowidMin : UInt64
  rowidMax : UInt64
  deriving DecidableEq, Repr

/-- The two exceptions: an `optional_idx` that is not set, and a slice size of zero. -/
inductive ScanError
  | invalidIndex
  | rowsPerGroupNotSet
  deriving DecidableEq, Repr

def getIndex : Option UInt64 → Except ScanError UInt64
  | some i => .ok i
  | none => .error .invalidIndex

/-- The scan starts one row id before the smallest one. -/
def initGlobalState (bindData : SqliteBindData) : Except ScanError SqliteGlobalState :=
  match bindData.rowsPerGroup with
  | none => .ok {}
  | some rowsPerGroup => do
    let minRowId ← getIndex bindData.rowIdInfo.minRowid
    .ok { position := if minRowId > 0 then minRowId - 1 else 0, rowsPerGroup := rowsPerGroup }

/-- `MinValue<idx_t>` -/
def minValue (a b : UInt64) : UInt64 := if a < b then a else b

theorem toNat_minValue (a b : UInt64) : (minValue a b).toNat = min a.toNat b.toNat := by
  rw [minValue]
  split_ifs with h <;> rw [UInt64.lt_iff_toNat_lt] at h <;> omega

/-- The slice size of the next slice: doubled after an empty slice. -/
def nextRowsPerGroup (maxRowId : UInt64) (lstate : SqliteLocalState)
    (gstate : SqliteGlobalState) : UInt64 :=
  if lstate.scanCount == 0 && gstate.rowsPerGroup < maxRowId then gstate.rowsPerGroup * 2
  else gstate.rowsPerGroup

/-- Claim the next slice, `none` when there is none left. The whole call holds the lock. Without a
slice size everything is one slice, whose bounds are not used. -/
def claimNextSlice (bindData : SqliteBindData) (lstate : SqliteLocalState)
    (gstate : SqliteGlobalState) :
    Except ScanError (Option Slice × SqliteLocalState × SqliteGlobalState) :=
  match bindData.rowsPerGroup with
  | none =>
    if gstate.position > 0 then .ok (none, lstate, gstate)
    else .ok (some ⟨0, 0⟩, { scanCount := 0 }, { gstate with position := -1 })
  | some _ => do
    let maxRowId ← getIndex bindData.rowIdInfo.maxRowid
    if gstate.position > maxRowId then .ok (none, lstate, gstate)
    else
      let rowsPerGroup := nextRowsPerGroup maxRowId lstate gstate
      if rowsPerGroup == 0 then .error .rowsPerGroupNotSet
      else
        let rowidMin := gstate.position
        let rowidMax := minValue maxRowId (rowidMin + rowsPerGroup - 1)
        .ok (some ⟨rowidMin, rowidMax⟩, { scanCount := 0 },
          { position := rowidMax + 1, rowsPerGroup := rowsPerGroup })

/-! ### One call

`NoWrap` collects the conditions under which each operation of a call is the exact one. They are
the hypotheses of `claimNextSlice_spec` and, in `slices_partition`, part of the conclusion. -/

/-- No operation of the next call wraps around. -/
structure NoWrap (maxRowId : UInt64) (lstate : SqliteLocalState) (gstate : SqliteGlobalState) :
    Prop where
  /-- `gstate.rows_per_group *= 2` -/
  double : lstate.scanCount = 0 → gstate.rowsPerGroup < maxRowId →
    gstate.rowsPerGroup.toNat * 2 < 2 ^ 64
  /-- `rowid_min + gstate.rows_per_group` -/
  add : gstate.position.toNat + (nextRowsPerGroup maxRowId lstate gstate).toNat < 2 ^ 64
  /-- `.. - 1` -/
  sub : 0 < (nextRowsPerGroup maxRowId lstate gstate).toNat
  /-- `rowid_max + 1` -/
  next : maxRowId.toNat + 1 < 2 ^ 64

def Slice.toNats (slice : Slice) : ℕ × ℕ := (slice.rowidMin.toNat, slice.rowidMax.toNat)

/-- The slice `claimNextSlice` hands out. -/
def nextSlice (maxRowId : UInt64) (lstate : SqliteLocalState) (gstate : SqliteGlobalState) :
    Slice :=
  ⟨gstate.position,
    minValue maxRowId (gstate.position + nextRowsPerGroup maxRowId lstate gstate - 1)⟩

section Call

variable {bindData : SqliteBindData} {g maxRowId : UInt64} {lstate : SqliteLocalState}
  {gstate : SqliteGlobalState}

theorem claimNextSlice_of_gt (hg : bindData.rowsPerGroup = some g)
    (hmax : bindData.rowIdInfo.maxRowid = some maxRowId) (hpos : maxRowId < gstate.position) :
    claimNextSlice bindData lstate gstate = .ok (none, lstate, gstate) := by
  simp [claimNextSlice, hg, hmax, getIndex, hpos, bind, Except.bind]

theorem claimNextSlice_of_le (hg : bindData.rowsPerGroup = some g)
    (hmax : bindData.rowIdInfo.maxRowid = some maxRowId) (hpos : gstate.position ≤ maxRowId)
    (hsize : 0 < (nextRowsPerGroup maxRowId lstate gstate).toNat) :
    claimNextSlice bindData lstate gstate =
      .ok (some (nextSlice maxRowId lstate gstate), { scanCount := 0 },
        { position := (nextSlice maxRowId lstate gstate).rowidMax + 1,
          rowsPerGroup := nextRowsPerGroup maxRowId lstate gstate }) := by
  have hne : nextRowsPerGroup maxRowId lstate gstate ≠ 0 := by
    intro h
    simp [h] at hsize
  simp [claimNextSlice, hg, hmax, getIndex, UInt64.not_lt.mpr hpos, hne, bind, Except.bind,
    nextSlice]

/-- Without a wrap-around the slice ends where it should. -/
theorem toNat_rowidMax_nextSlice (h : NoWrap maxRowId lstate gstate) :
    (nextSlice maxRowId lstate gstate).rowidMax.toNat =
      min maxRowId.toNat
        (gstate.position.toNat + (nextRowsPerGroup maxRowId lstate gstate).toNat - 1) := by
  have hadd := h.add
  have hsub := h.sub
  have hsum : (gstate.position + nextRowsPerGroup maxRowId lstate gstate - 1).toNat =
      gstate.position.toNat + (nextRowsPerGroup maxRowId lstate gstate).toNat - 1 := by
    rw [UInt64.toNat_sub_of_le, UInt64.toNat_add, Nat.mod_eq_of_lt hadd]
    · rfl
    · rw [UInt64.le_iff_toNat_le, UInt64.toNat_add, Nat.mod_eq_of_lt hadd]
      exact Nat.le_trans hsub (Nat.le_add_left _ _)
  rw [nextSlice, toNat_minValue, hsum]

/-- A size that is at most `2 ^ 62` can be doubled, and the doubled size added to any row id. -/
theorem noWrap_of_le (hsize : 0 < gstate.rowsPerGroup.toNat)
    (hle : gstate.rowsPerGroup.toNat ≤ 2 ^ 62) (hpos : gstate.position ≤ maxRowId)
    (hmax : maxRowId.toNat < 2 ^ 63) : NoWrap maxRowId lstate gstate := by
  have hdouble : (gstate.rowsPerGroup * 2).toNat = gstate.rowsPerGroup.toNat * 2 := by
    rw [UInt64.toNat_mul, Nat.mod_eq_of_lt]
    · rfl
    · rw [show (2 : UInt64).toNat = 2 from rfl]
      omega
  rw [UInt64.le_iff_toNat_le] at hpos
  have hnext : 0 < (nextRowsPerGroup maxRowId lstate gstate).toNat ∧
      (nextRowsPerGroup maxRowId lstate gstate).toNat ≤ 2 ^ 63 := by
    rw [nextRowsPerGroup]
    split <;> omega
  exact ⟨fun _ _ => by omega, by omega, hnext.1, by omega⟩

end Call

/-! ### Runs

The state of the scan has the shared state and one local state for every thread. The slices that
were handed out and the threads that were refused are recorded; the code does not read them. -/

variable {T : Type}

structure ScanState (T : Type) where
  gstate : SqliteGlobalState
  lstate : T → SqliteLocalState
  claimed : List Slice
  refused : T → Bool

/-- A thread calls `claimNextSlice`, or it reads a row of its slice. -/
inductive Action (T : Type)
  | claim (t : T)
  | scanRow (t : T)
  deriving DecidableEq, Repr

def initState (T : Type) (bindData : SqliteBindData) : Except ScanError (ScanState T) := do
  let gstate ← initGlobalState bindData
  .ok { gstate := gstate, lstate := fun _ => {}, claimed := [], refused := fun _ => false }

def step [DecidableEq T] (bindData : SqliteBindData) (s : ScanState T) :
    Action T → Except ScanError (ScanState T)
  | .claim t => do
    let (slice, lstate, gstate) ← claimNextSlice bindData (s.lstate t) s.gstate
    .ok { gstate := gstate
          lstate := Function.update s.lstate t lstate
          claimed := s.claimed ++ slice.toList
          refused := Function.update s.refused t slice.isNone }
  | .scanRow t =>
    .ok { s with lstate := Function.update s.lstate t ⟨(s.lstate t).scanCount + 1⟩ }

theorem step_claim [DecidableEq T] {bindData : SqliteBindData} {s : ScanState T} {t : T}
    {slice : Option Slice} {lstate : SqliteLocalState} {gstate : SqliteGlobalState}
    (h : claimNextSlice bindData (s.lstate t) s.gstate = .ok (slice, lstate, gstate)) :
    step bindData s (.claim t) =
      .ok { gstate := gstate
            lstate := Function.update s.lstate t lstate
            claimed := s.claimed ++ slice.toList
            refused := Function.update s.refused t slice.isNone } := by
  rw [step, h]
  rfl

/-- The invariant of the scan of the row ids up to `maxRowId`, which started at `start`. -/
structure Inv (start : ℕ) (maxRowId : UInt64) (s : ScanState T) : Prop where
  /-- The slices so far tile the row ids below the position. -/
  tiles : Tiles start s.gstate.position.toNat (s.claimed.map Slice.toNats)
  position_le : s.gstate.position.toNat ≤ maxRowId.toNat + 1
  size_pos : 0 < s.gstate.rowsPerGroup.toNat
  /-- While there is work left, the size can be doubled once more. -/
  size_le : s.gstate.position ≤ maxRowId → s.gstate.rowsPerGroup.toNat ≤ 2 ^ 62
  refused : ∀ t, s.refused t = true → maxRowId < s.gstate.position

section Invariant

variable {bindData : SqliteBindData} {g maxRowId : UInt64} {start : ℕ} {s : ScanState T}

/-- **No wrap-around** in any state of the scan. -/
theorem Inv.noWrap (h : Inv start maxRowId s) (hmax : maxRowId.toNat < 2 ^ 63)
    (hpos : s.gstate.position ≤ maxRowId) (t : T) :
    NoWrap maxRowId (s.lstate t) s.gstate :=
  noWrap_of_le h.size_pos (h.size_le hpos) hpos hmax

variable [DecidableEq T]

/-- A call that is refused changes nothing but the record of it. -/
theorem Inv.step_refused (h : Inv start maxRowId s) (hg : bindData.rowsPerGroup = some g)
    (hmaxRowid : bindData.rowIdInfo.maxRowid = some maxRowId)
    (hpos : maxRowId < s.gstate.position) (t : T) :
    ∃ s', step bindData s (.claim t) = .ok s' ∧ Inv start maxRowId s' := by
  refine ⟨_, step_claim (claimNextSlice_of_gt hg hmaxRowid hpos), ?_⟩
  exact ⟨by simpa using h.tiles, h.position_le, h.size_pos, h.size_le, fun _ _ => hpos⟩

/-- A call that succeeds adds one slice at the end. The slice size is no larger than the part of
the range that was handed out, unless the range is used up; this keeps `size_le`. -/
theorem Inv.step_claimed (h : Inv start maxRowId s) (hg : bindData.rowsPerGroup = some g)
    (hmaxRowid : bindData.rowIdInfo.maxRowid = some maxRowId) (hmax : maxRowId.toNat < 2 ^ 63)
    (hrange : maxRowId.toNat < start + 2 ^ 62) (hpos : s.gstate.position ≤ maxRowId) (t : T) :
    ∃ s', step bindData s (.claim t) = .ok s' ∧ Inv start maxRowId s' := by
  have hno := h.noWrap hmax hpos t
  have hle := h.tiles.le
  have hend := toNat_rowidMax_nextSlice hno
  have hsub := hno.sub
  have hnext : ((nextSlice maxRowId (s.lstate t) s.gstate).rowidMax + 1).toNat =
      (nextSlice maxRowId (s.lstate t) s.gstate).rowidMax.toNat + 1 := by
    rw [UInt64.toNat_add, Nat.mod_eq_of_lt]
    · rfl
    · rw [show (1 : UInt64).toNat = 1 from rfl]
      omega
  have hpos' := UInt64.le_iff_toNat_le.mp hpos
  refine ⟨_, step_claim (claimNextSlice_of_le hg hmaxRowid hpos hsub), ?_⟩
  refine ⟨?_, ?_, hsub, ?_, ?_⟩
  · simp only [Option.toList_some, List.map_append, List.map_cons, List.map_nil, hnext]
    exact h.tiles.concat (by rw [hend]; omega)
  · simp only [hnext, hend]
    omega
  · simp only [UInt64.le_iff_toNat_le, hnext, hend]
    omega
  · intro u hu
    by_cases hut : u = t
    · subst hut
      simp at hu
    · simp only [Function.update_of_ne hut] at hu
      exact absurd (h.refused u hu) (UInt64.not_lt.mpr hpos)

/-- **Step lemma.** -/
theorem Inv.step (h : Inv start maxRowId s) (hg : bindData.rowsPerGroup = some g)
    (hmaxRowid : bindData.rowIdInfo.maxRowid = some maxRowId) (hmax : maxRowId.toNat < 2 ^ 63)
    (hrange : maxRowId.toNat < start + 2 ^ 62) (a : Action T) :
    ∃ s', ParallelScan.step bindData s a = .ok s' ∧ Inv start maxRowId s' := by
  cases a with
  | claim t =>
    rcases UInt64.lt_or_le maxRowId s.gstate.position with hpos | hpos
    · exact h.step_refused hg hmaxRowid hpos t
    · exact h.step_claimed hg hmaxRowid hmax hrange hpos t
  | scanRow t => exact ⟨_, rfl, h.tiles, h.position_le, h.size_pos, h.size_le, h.refused⟩

end Invariant

/-! ### The division of the range -/

/-- The slices of a state divide the row ids from `lo` to `hi`, as far as they were claimed. -/
structure Partitioned (lo hi : ℕ) (maxRowId : UInt64) (s : ScanState T) : Prop where
  nonempty : ∀ slice ∈ s.claimed, slice.rowidMin ≤ slice.rowidMax
  /-- Each slice ends before the next ones start: they are disjoint and increasing. -/
  increasing : s.claimed.Pairwise fun a b => a.rowidMax < b.rowidMin
  /-- As soon as a thread has been refused, and so in particular when all of them have, every row
  id lies in exactly one slice. -/
  covered : (∃ t, s.refused t = true) → ∀ id, lo ≤ id → id ≤ hi →
    s.claimed.countP (fun slice => slice.rowidMin.toNat ≤ id ∧ id ≤ slice.rowidMax.toNat) = 1
  noWrap : s.gstate.position ≤ maxRowId → ∀ t, NoWrap maxRowId (s.lstate t) s.gstate
  signed : ∀ slice ∈ s.claimed, slice.rowidMin.toNat < 2 ^ 63 ∧ slice.rowidMax.toNat < 2 ^ 63
  /-- The bound does not depend on the run: only finitely many slices can be claimed. -/
  finite : s.claimed.length ≤ hi + 2 - lo

theorem Inv.partitioned {start lo : ℕ} {maxRowId : UInt64} {s : ScanState T}
    (h : Inv start maxRowId s) (hmax : maxRowId.toNat < 2 ^ 63) (hstart : start = lo - 1)
    (hlo : lo ≤ maxRowId.toNat) : Partitioned lo maxRowId.toNat maxRowId s := by
  have hbounds : ∀ slice ∈ s.claimed, start ≤ slice.rowidMin.toNat ∧
      slice.rowidMin.toNat ≤ slice.rowidMax.toNat ∧
      slice.rowidMax.toNat < s.gstate.position.toNat :=
    fun slice hs => h.tiles.bounds slice.toNats (List.mem_map_of_mem hs)
  have hle := h.position_le
  refine ⟨fun slice hs => (hbounds slice hs).2.1, ?_, ?_, h.noWrap hmax, ?_, ?_⟩
  · exact List.pairwise_map.mp h.tiles.pairwise
  · rintro ⟨t, ht⟩ id hid hid'
    have hend := UInt64.lt_iff_toNat_lt.mp (h.refused t ht)
    have hone := h.tiles.countP_eq_one (x := id) (by omega) (by omega)
    rwa [List.countP_map] at hone
  · intro slice hs
    have := hbounds slice hs
    omega
  · have hlen := h.tiles.length_le
    rw [List.length_map] at hlen
    omega

/-- The initial state of a scan of an accepted range. The subtraction does not wrap around. -/
theorem initState_eq (T : Type) (minRowId maxRowId rowsPerGroup : UInt64) :
    ∃ s₀, initState T ⟨⟨some minRowId, some maxRowId⟩, some rowsPerGroup⟩ = .ok s₀ ∧
      s₀.gstate.position.toNat = minRowId.toNat - 1 ∧ s₀.gstate.rowsPerGroup = rowsPerGroup ∧
      s₀.claimed = [] ∧ s₀.refused = fun _ => false := by
  refine ⟨_, rfl, ?_, rfl, rfl, rfl⟩
  simp only
  split_ifs with h
  · rw [UInt64.toNat_sub_of_le]
    · rfl
    · exact UInt64.le_iff_toNat_le.mpr (UInt64.lt_iff_toNat_lt.mp h)
  · have : minRowId.toNat = 0 := by simpa [UInt64.lt_iff_toNat_lt] using h
    simp [this]

/-- **Every run divides the range into slices.** For every range that `getRowIdInfo` accepts, every
initial slice size up to `2 ^ 62`, every set of threads and every order of their calls, whatever
number of rows each slice has: no call throws, and the slices are a division of the range. -/
theorem slices_partition [DecidableEq T] (name : String) (minVal maxVal : Int64) (info : RowIdInfo)
    (hinfo : getRowIdInfo name (some (minVal, maxVal)) = some info) (rowsPerGroup : UInt64)
    (hpos : 1 ≤ rowsPerGroup.toNat) (hle : rowsPerGroup.toNat ≤ 2 ^ 62) :
    ∃ s₀, initState T ⟨info, some rowsPerGroup⟩ = .ok s₀ ∧
      s₀.gstate.position.toNat = minVal.toUInt64.toNat - 1 ∧
      ∀ actions : List (Action T), ∃ s,
        run (step ⟨info, some rowsPerGroup⟩) s₀ actions = .ok s ∧
          Partitioned minVal.toUInt64.toNat maxVal.toUInt64.toNat maxVal.toUInt64 s := by
  obtain ⟨rfl, hlt, hmax, hrange⟩ := getRowIdInfo_eq_some hinfo
  obtain ⟨s₀, hinit, hposition, hsize, hclaimed, hrefused⟩ :=
    initState_eq T minVal.toUInt64 maxVal.toUInt64 rowsPerGroup
  have hinv : Inv (minVal.toUInt64.toNat - 1) maxVal.toUInt64 s₀ := by
    refine ⟨?_, by omega, by rw [hsize]; exact hpos, fun _ => by rw [hsize]; exact hle, ?_⟩
    · rw [hclaimed]
      exact hposition.symm
    · intro t ht
      simp [hrefused] at ht
  refine ⟨s₀, hinit, hposition, fun actions => ?_⟩
  have hstep : ∀ (s : ScanState T) (a : Action T),
      Inv (minVal.toUInt64.toNat - 1) maxVal.toUInt64 s →
      ∃ s', step ⟨⟨some minVal.toUInt64, some maxVal.toUInt64⟩, some rowsPerGroup⟩ s a = .ok s' ∧
        Inv (minVal.toUInt64.toNat - 1) maxVal.toUInt64 s' :=
    fun s a hs => hs.step rfl rfl hmax (by omega) a
  obtain ⟨s, hrun, hs⟩ := run_ok_of_forall hstep hinv actions
  exact ⟨s, hrun, hs.partitioned hmax rfl (Nat.le_of_lt hlt)⟩

/-- Two threads on the row ids `1` to `122881`, with the slice size of the source. -/
theorem slices_partition_two_threads :
    ∃ s₀, initState Bool ⟨⟨some 1, some 122881⟩, some 122880⟩ = .ok s₀ ∧
      s₀.gstate.position.toNat = 0 ∧
      ∀ actions : List (Action Bool), ∃ s,
        run (step ⟨⟨some 1, some 122881⟩, some 122880⟩) s₀ actions = .ok s ∧
          Partitioned 1 122881 122881 s :=
  slices_partition "rowid" 1 122881 ⟨some 1, some 122881⟩ rfl 122880 (by decide) (by decide)

end ParallelScan

end SqliteScanner
