import Mathlib.Data.Set.Card
import Mathlib.Logic.Function.Basic
import SqliteScanner.Internal.Runs

/-!
# The registry of VFS wrappers

SQLite reads remote files through a VFS that DuckDB registers once per client context. The VFS is
embedded in a heap-allocated `DuckDBVFSWrapper`, and SQLite keeps raw pointers to it: a name lookup
of `sqlite3_open_v2` gives one to `xOpen`, and every open `sqlite3_file` holds one until `xClose`.
So the wrapper must outlive its handles, whatever the order in which contexts are torn down and
handles are closed.

The registry owns the wrappers of registered contexts; a torn-down one moves to the list `retired`
with `pending_unregister` set. There are three places that free: the last `Close` of a retired
wrapper, and the sweep `ReapIdleRetiredWrappers` at the head of `Register` and of `Unregister`.

Addresses are numbers handed out in order and never reused, so *freed twice* and *used after free*
are observable: both are faults of the model, as is a decrement of `open_file_count` at zero, which
the source only asserts in debug builds.

## What the environment promises

The comment over `ReapIdleRetiredWrappers` gives the contract with DuckDB: an open starts only while
its context is registered, and none is in flight when the context is unregistered. This is the
relation `Env`; without it the model does fault, since `starting` holds a pointer without a count.

## Main results

* `Inv.step` — one step of any thread keeps the invariant and does not fault.
* `wrapper_lifetime` — the lifetime discipline in every reachable state, and what is left in
  `retired` by the next `Register` or `Unregister`.
-/

namespace SqliteScanner.VfsRegistry

/-! ### Wrappers, files and the global state -/

/-- The address of a `DuckDBVFSWrapper`. -/
abbrev WrapperPtr := ℕ

/-- The fields of `DuckDBVFSWrapper` that decide its lifetime. -/
structure DuckDBVFSWrapper (C : Type) where
  context : C
  openFileCount : ℕ
  pendingUnregister : Bool
  deriving DecidableEq, Repr

/-- Where a `sqlite3_file` stands. Between the steps of `Open` other threads may run:
`starting` is an `xOpen` that has resolved the VFS and has not reserved a count yet, and `reserved`
is one that has, and is constructing its `DuckDBCachedFile`. -/
inductive FileState where
  | closed
  | starting (wrapper : WrapperPtr)
  | reserved (wrapper : WrapperPtr)
  | opened (wrapper : WrapperPtr)
  deriving DecidableEq, Repr

/-- The file is a handle on `w`: its `wrapper` field is set, and it owns one count. -/
def FileState.Holds (w : WrapperPtr) : FileState → Prop
  | .reserved w' | .opened w' => w' = w
  | .closed | .starting _ => False

instance (w : WrapperPtr) : DecidablePred (FileState.Holds w)
  | .reserved w' | .opened w' => inferInstanceAs (Decidable (w' = w))
  | .closed | .starting _ => inferInstanceAs (Decidable False)

theorem FileState.Holds.unique {w w' : WrapperPtr} {f : FileState} (hw : f.Holds w)
    (hw' : f.Holds w') : w = w' := by
  cases f with
  | closed | starting _ => exact hw.elim
  | reserved _ | opened _ => exact Eq.trans (Eq.symm hw) hw'

/-- An `xOpen` on `w` is running. -/
def FileState.InFlight (w : WrapperPtr) : FileState → Prop
  | .starting w' | .reserved w' => w' = w
  | .closed | .opened _ => False

instance (w : WrapperPtr) : DecidablePred (FileState.InFlight w)
  | .starting w' | .reserved w' => inferInstanceAs (Decidable (w' = w))
  | .closed | .opened _ => inferInstanceAs (Decidable False)

/-- `VFSRegistryData`, the heap it points into, and the files of SQLite. -/
structure State (C H : Type) where
  heap : WrapperPtr → Option (DuckDBVFSWrapper C)
  next : WrapperPtr
  registry : C → Option WrapperPtr
  retired : List WrapperPtr
  files : H → FileState

/-- What must not happen. -/
inductive Fault where
  | useAfterFree (w : WrapperPtr)
  | doubleFree (w : WrapperPtr)
  | decrementAtZero (w : WrapperPtr)
  deriving DecidableEq, Repr

variable {C H : Type}

/-- The process starts with nothing registered and nothing open. -/
def init : State C H where
  heap := fun _ => none
  next := 0
  registry := fun _ => none
  retired := []
  files := fun _ => .closed

/-- Read through a wrapper pointer. -/
def deref (heap : WrapperPtr → Option (DuckDBVFSWrapper C)) (w : WrapperPtr) :
    Except Fault (DuckDBVFSWrapper C) :=
  match heap w with
  | some x => .ok x
  | none => .error (.useAfterFree w)

/-- Destroy a wrapper: what the end of its `unique_ptr` does. -/
def free (heap : WrapperPtr → Option (DuckDBVFSWrapper C)) (w : WrapperPtr) :
    Except Fault (WrapperPtr → Option (DuckDBVFSWrapper C)) :=
  match heap w with
  | some _ => .ok (Function.update heap w none)
  | none => .error (.doubleFree w)

/-! ### The operations -/

/-- The loop of `ReapIdleRetiredWrappers` over `retired`. -/
def reapLoop : List WrapperPtr → (WrapperPtr → Option (DuckDBVFSWrapper C)) →
    Except Fault (List WrapperPtr × (WrapperPtr → Option (DuckDBVFSWrapper C)))
  | [], heap => .ok ([], heap)
  | w :: ws, heap => do
    let x ← deref heap w
    if x.openFileCount == 0 then
      let heap ← free heap w
      reapLoop ws heap
    else
      let (kept, heap) ← reapLoop ws heap
      return (w :: kept, heap)

/-- Free the retired wrappers that have no handle. -/
def reapIdleRetiredWrappers (s : State C H) : Except Fault (State C H) := do
  let (kept, heap) ← reapLoop s.retired s.heap
  return { s with retired := kept, heap := heap }

/-- What the libraries answer to `Register`: whether SQLite has a default VFS, whether
`sqlite3_malloc64` finds room for the name, and whether `sqlite3_vfs_register` returns
`SQLITE_OK`. Each failure is thrown to the caller. -/
inductive RegisterOutcome where
  | noDefaultVfs
  | noNameMemory
  | vfsRegisterFailed
  | registered
  deriving DecidableEq, Repr

variable [DecidableEq C]

/-- `make_uniq<DuckDBVFSWrapper>()` with its context set. -/
def alloc (c : C) (s : State C H) : State C H :=
  { s with
    heap := Function.update s.heap s.next (some ⟨c, 0, false⟩)
    next := s.next + 1 }

/-- `SQLiteDuckDBCacheVFS::Register`. The failures after the allocation destroy the wrapper: the
local `unique_ptr` on the way out, or the entry of the registry that is erased again. -/
def register (c : C) (outcome : RegisterOutcome) (s : State C H) : Except Fault (State C H) := do
  let s ← reapIdleRetiredWrappers s
  match s.registry c with
  | some _ => return s
  | none =>
    match outcome with
    | .noDefaultVfs => return s
    | .noNameMemory =>
      let heap ← free (alloc c s).heap s.next
      return { alloc c s with heap := heap }
    | .vfsRegisterFailed =>
      let t := { alloc c s with registry := Function.update s.registry c (some s.next) }
      let heap ← free t.heap s.next
      return { t with registry := Function.update t.registry c none, heap := heap }
    | .registered =>
      return { alloc c s with registry := Function.update s.registry c (some s.next) }

/-- `SQLiteDuckDBCacheVFS::Unregister`: the wrapper is retired, never freed here. -/
def unregister (c : C) (s : State C H) : Except Fault (State C H) := do
  let s ← reapIdleRetiredWrappers s
  match s.registry c with
  | none => return s
  | some w =>
    let x ← deref s.heap w
    return { s with
      heap := Function.update s.heap w (some { x with pendingUnregister := true })
      retired := s.retired ++ [w]
      registry := Function.update s.registry c none }

/-- `ReleaseWrapperHandle`: drop one count, and free the wrapper if it was the last one and the
wrapper is found in `retired`. -/
def releaseWrapperHandle (w : WrapperPtr) (s : State C H) : Except Fault (State C H) := do
  let x ← deref s.heap w
  if x.openFileCount == 0 then
    throw (.decrementAtZero w)
  let count := x.openFileCount - 1
  let heap := Function.update s.heap w (some { x with openFileCount := count })
  if count == 0 && x.pendingUnregister && s.retired.contains w then
    let heap ← free heap w
    return { s with heap := heap, retired := s.retired.erase w }
  else
    return { s with heap := heap }

variable [DecidableEq H]

/-- Set the state of one file. -/
def setFile (h : H) (f : FileState) (s : State C H) : State C H :=
  { s with files := Function.update s.files h f }

/-! ### Steps

`Open` is four steps, since only its middle is under `registry_mutex`: the name lookup of
`sqlite3_open_v2`, then either an early `SQLITE_CANTOPEN` or the reservation, and after a
reservation either the construction of the file or its failure. -/

/-- The steps of the threads. -/
inductive Action (C H : Type) where
  | register (c : C) (outcome : RegisterOutcome)
  | unregister (c : C)
  | openStart (h : H) (c : C)
  | openRefuse (h : H)
  | openReserve (h : H)
  | openPublish (h : H)
  | openAbort (h : H)
  | close (h : H)
  deriving DecidableEq, Repr

/-- One step. A step of an `Open` that is not at that point of its body is no step at all, and
`Close` of a file whose `wrapper` is null does nothing. -/
def step (s : State C H) : Action C H → Except Fault (State C H)
  | .register c outcome => register c outcome s
  | .unregister c => unregister c s
  | .openStart h c =>
    match s.files h, s.registry c with
    | .closed, some w => .ok (setFile h (.starting w) s)
    | _, _ => .ok s
  | .openRefuse h =>
    match s.files h with
    | .starting w => do
      -- `wrapper->context` is read, and `SafeVFSCall` may write the error text
      let _ ← deref s.heap w
      return setFile h .closed s
    | _ => .ok s
  | .openReserve h =>
    match s.files h with
    | .starting w => do
      let x ← deref s.heap w
      return setFile h (.reserved w)
        { s with
          heap := Function.update s.heap w (some { x with openFileCount := x.openFileCount + 1 }) }
    | _ => .ok s
  | .openPublish h =>
    match s.files h with
    | .reserved w => .ok (setFile h (.opened w) s)
    | _ => .ok s
  | .openAbort h =>
    match s.files h with
    | .reserved w => releaseWrapperHandle w (setFile h .closed s)
    | _ => .ok s
  | .close h =>
    match s.files h with
    | .opened w => releaseWrapperHandle w (setFile h .closed s)
    | _ => .ok s

/-- The contract with DuckDB: opens on a context start only while it is registered, and none is in
flight when it is unregistered. -/
def Env (s : State C H) : Action C H → Prop
  | .openStart _ c => s.registry c ≠ none
  | .unregister c => ∀ w, s.registry c = some w → ∀ h, ¬ (s.files h).InFlight w
  | _ => True

/-! ### The invariant -/

/-- The handles on a wrapper. -/
def handles (s : State C H) (w : WrapperPtr) : Set H :=
  {h | (s.files h).Holds w}

/-- The invariant of the protocol. A pointer that is held without a count (`starting`) is on a
wrapper that is still registered; every other pointer is counted. -/
structure Inv (s : State C H) : Prop where
  finite : {h | s.files h ≠ .closed}.Finite
  fresh : ∀ w, s.next ≤ w → s.heap w = none
  registered : ∀ c w, s.registry c = some w →
    ∃ x, s.heap w = some x ∧ x.context = c ∧ x.pendingUnregister = false
  retired : ∀ w ∈ s.retired, ∃ x, s.heap w = some x ∧ x.pendingUnregister = true
  nodup : s.retired.Nodup
  owned : ∀ w x, s.heap w = some x →
    if x.pendingUnregister then w ∈ s.retired else s.registry x.context = some w
  counted : ∀ w x, s.heap w = some x → x.openFileCount = (handles s w).ncard
  held : ∀ h w, (s.files h).Holds w → s.heap w ≠ none
  starting : ∀ h w, s.files h = .starting w →
    ∃ x, s.heap w = some x ∧ x.pendingUnregister = false

/-- What the invariant says to a user of the registry. -/
structure Lifetime (s : State C H) : Prop where
  /-- A live wrapper is in exactly one of `registry` and `retired`, and there only once. -/
  owned : ∀ w x, s.heap w = some x →
    ((∃! c, s.registry c = some w) ∧ s.retired.count w = 0) ∨
      ((∀ c, s.registry c ≠ some w) ∧ s.retired.count w = 1)
  retired_iff : ∀ w x, s.heap w = some x → (w ∈ s.retired ↔ x.pendingUnregister = true)
  counted : ∀ w x, s.heap w = some x → x.openFileCount = (handles s w).ncard
  held : ∀ w, (handles s w).Nonempty → s.heap w ≠ none

section Lemmas

omit [DecidableEq C] [DecidableEq H]

variable {x : DuckDBVFSWrapper C} {w : WrapperPtr}

theorem deref_of_some {heap : WrapperPtr → Option (DuckDBVFSWrapper C)}
    (h : heap w = some x) : deref heap w = .ok x := by
  simp [deref, h]

theorem free_of_some {heap : WrapperPtr → Option (DuckDBVFSWrapper C)}
    (h : heap w = some x) :
    free heap w = .ok (Function.update heap w none) := by
  simp [free, h]

variable {s : State C H}

theorem Inv.finite_handles (hs : Inv s) (w : WrapperPtr) : (handles s w).Finite := by
  refine hs.finite.subset fun h hh => ?_
  rintro hclosed
  simp [handles, hclosed, FileState.Holds] at hh

/-- Nobody points to a live wrapper whose count is zero. -/
theorem Inv.handles_eq_empty (hs : Inv s)
    (hw : s.heap w = some x) (hx : x.openFileCount = 0) : handles s w = ∅ := by
  rw [← Set.ncard_eq_zero (hs.finite_handles w), ← hs.counted w x hw, hx]

theorem Inv.handles_nonempty (hs : Inv s)
    (hw : s.heap w = some x) (hx : x.openFileCount ≠ 0) : (handles s w).Nonempty := by
  rw [← Set.ncard_pos (hs.finite_handles w), ← hs.counted w x hw]
  exact Nat.pos_of_ne_zero hx

theorem Inv.registry_injective (hs : Inv s) {c c' : C}
    (hc : s.registry c = some w) (hc' : s.registry c' = some w) : c = c' := by
  obtain ⟨x, hx, rfl, _⟩ := hs.registered c w hc
  obtain ⟨y, hy, rfl, _⟩ := hs.registered c' w hc'
  rw [Option.some.inj (hx.symm.trans hy)]

theorem Inv.lifetime (hs : Inv s) : Lifetime s where
  owned := by
    intro w x hw
    have hown := hs.owned w x hw
    cases hx : x.pendingUnregister with
    | true =>
      rw [hx, if_pos rfl] at hown
      refine .inr ⟨fun c hc => ?_, List.count_eq_one_of_mem hs.nodup hown⟩
      obtain ⟨y, hy, _, hpending⟩ := hs.registered c w hc
      obtain rfl := Option.some.inj (hw.symm.trans hy)
      simp [hx] at hpending
    | false =>
      rw [hx, if_neg Bool.false_ne_true] at hown
      refine .inl ⟨⟨x.context, hown, fun c hc => hs.registry_injective hc hown⟩, ?_⟩
      refine List.count_eq_zero_of_not_mem fun hmem => ?_
      obtain ⟨y, hy, hpending⟩ := hs.retired w hmem
      obtain rfl := Option.some.inj (hw.symm.trans hy)
      simp [hx] at hpending
  retired_iff := by
    intro w x hw
    refine ⟨fun hmem => ?_, fun hx => by simpa [hx] using hs.owned w x hw⟩
    obtain ⟨y, hy, hpending⟩ := hs.retired w hmem
    rwa [Option.some.inj (hw.symm.trans hy)]
  counted := hs.counted
  held := fun w ⟨h, hh⟩ => hs.held h w hh

theorem inv_init : Inv (init : State C H) where
  finite := by simp [init]
  fresh := fun _ _ => rfl
  registered := by simp [init]
  retired := by simp [init]
  nodup := List.nodup_nil
  owned := by simp [init]
  counted := by simp [init]
  held := by simp [init, FileState.Holds]
  starting := by simp [init]

/-! ### Freeing

All three freeing paths take a wrapper without handles out of `retired` and destroy it. -/

/-- **The freeing step.** -/
theorem Inv.free_retired (hs : Inv s)
    (hmem : w ∈ s.retired) (hw : s.heap w = some x) (hx : x.openFileCount = 0) :
    Inv { s with heap := Function.update s.heap w none, retired := s.retired.erase w } := by
  have hpending : x.pendingUnregister = true := ((hs.lifetime).retired_iff w x hw).mp hmem
  have hempty := hs.handles_eq_empty hw hx
  -- a pointer other than the freed one sees the old heap
  have hne : ∀ w' y, Function.update s.heap w none w' = some y → w' ≠ w ∧ s.heap w' = some y := by
    intro w' y hy
    by_cases hww : w' = w
    · simp [hww] at hy
    · exact ⟨hww, by simpa [hww] using hy⟩
  have hlive : ∀ {w' y}, s.heap w' = some y → y.pendingUnregister = false →
      Function.update s.heap w none w' = some y := by
    intro w' y hy hyp
    have hww : w' ≠ w := by
      rintro rfl
      rw [Option.some.inj (hw.symm.trans hy), hyp] at hpending
      exact Bool.false_ne_true hpending
    simpa [hww] using hy
  constructor
  case finite => exact hs.finite
  case fresh =>
    intro w' hw'
    by_cases hww : w' = w
    · simp [hww]
    · simpa [hww] using hs.fresh w' hw'
  case registered =>
    intro c w' hc
    obtain ⟨y, hy, hcy, hyp⟩ := hs.registered c w' hc
    exact ⟨y, hlive hy hyp, hcy, hyp⟩
  case retired =>
    intro w' hw'
    obtain ⟨hww, hmem'⟩ := (hs.nodup.mem_erase_iff).mp hw'
    obtain ⟨y, hy, hyp⟩ := hs.retired w' hmem'
    exact ⟨y, by simpa [hww] using hy, hyp⟩
  case nodup => exact hs.nodup.erase w
  case owned =>
    intro w' y hy
    obtain ⟨hww, hy⟩ := hne w' y hy
    have hown := hs.owned w' y hy
    by_cases hyp : y.pendingUnregister = true
    · simpa [hyp, hs.nodup.mem_erase_iff, hww] using hown
    · simpa [hyp] using hown
  case counted =>
    intro w' y hy
    exact hs.counted w' y (hne w' y hy).2
  case held =>
    intro h w' hh
    have hww : w' ≠ w := by
      rintro rfl
      exact (Set.eq_empty_iff_forall_notMem.mp hempty) h hh
    simpa [hww] using hs.held h w' hh
  case starting =>
    intro h w' hh
    obtain ⟨y, hy, hyp⟩ := hs.starting h w' hh
    exact ⟨y, hlive hy hyp, hyp⟩

/-- The sweep from a point of its loop: `done` is the part of `retired` that it has kept. -/
theorem Inv.reapLoop {ws done : List WrapperPtr}
    {heap : WrapperPtr → Option (DuckDBVFSWrapper C)}
    (hs : Inv { s with heap := heap, retired := done ++ ws }) :
    ∃ kept heap', VfsRegistry.reapLoop ws heap = .ok (kept, heap') ∧
      Inv { s with heap := heap', retired := done ++ kept } ∧
      (∀ w, w ∉ ws → heap' w = heap w) ∧
      ∀ w ∈ kept, ∃ x, heap' w = some x ∧ x.openFileCount ≠ 0 := by
  induction ws generalizing done heap with
  | nil => exact ⟨[], heap, rfl, hs, fun _ _ => rfl, by simp⟩
  | cons w ws ih =>
    obtain ⟨x, hw, _⟩ := hs.retired w (by simp)
    have hnotin : w ∉ done ∧ w ∉ ws := by
      have hnodup := hs.nodup
      simp only [List.nodup_append, List.nodup_cons] at hnodup
      exact ⟨fun hd => hnodup.2.2 w hd w (by simp) rfl, hnodup.2.1.1⟩
    by_cases hx : x.openFileCount = 0
    · -- an idle wrapper is freed and the loop goes on without it
      have hfree := hs.free_retired (by simp) hw hx
      simp only [List.erase_append_right _ hnotin.1, List.erase_cons_head] at hfree
      obtain ⟨kept, heap', hloop, hinv, hframe, hkept⟩ := ih hfree
      refine ⟨kept, heap', ?_, hinv, fun w' hw' => ?_, hkept⟩
      · simp [VfsRegistry.reapLoop, deref_of_some hw, free_of_some hw, hx, hloop, bind, Except.bind]
      · rw [List.mem_cons, not_or] at hw'
        rw [hframe w' hw'.2, Function.update_of_ne hw'.1]
    · have hkeep : Inv { s with heap := heap, retired := (done ++ [w]) ++ ws } := by simpa using hs
      obtain ⟨kept, heap', hloop, hinv, hframe, hkept⟩ := ih hkeep
      refine ⟨w :: kept, heap', ?_, by simpa using hinv, fun w' hw' => ?_, ?_⟩
      · simp [VfsRegistry.reapLoop, deref_of_some hw, hx, hloop, bind, Except.bind, pure,
          Except.pure]
      · exact hframe w' fun hmem => hw' (List.mem_cons_of_mem w hmem)
      · intro w' hw'
        rcases List.mem_cons.mp hw' with rfl | hw'
        · exact ⟨x, (hframe w' hnotin.2).trans hw, hx⟩
        · exact hkept w' hw'

/-- What the sweep leaves: the same registry and files, and in `retired` only wrappers with a
handle. -/
structure Swept (s s' : State C H) : Prop where
  inv : Inv s'
  registry : s'.registry = s.registry
  files : s'.files = s.files
  nonempty : ∀ w ∈ s'.retired, (handles s' w).Nonempty

theorem Inv.reap (hs : Inv s) :
    ∃ s', reapIdleRetiredWrappers s = .ok s' ∧ Swept s s' := by
  have hstart : Inv { s with heap := s.heap, retired := [] ++ s.retired } := hs
  obtain ⟨kept, heap, hloop, hinv, -, hkept⟩ := hstart.reapLoop
  refine ⟨{ s with retired := kept, heap := heap }, ?_, hinv, rfl, rfl, fun w hw => ?_⟩
  · simp [reapIdleRetiredWrappers, hloop, bind, Except.bind, pure, Except.pure]
  · obtain ⟨x, hx, hcount⟩ := hkept w hw
    exact hinv.handles_nonempty hx hcount

theorem Inv.free_alloc (hs : Inv s) (c : C) : free (alloc c s).heap s.next = .ok s.heap := by
  have hnew : (VfsRegistry.alloc c s).heap s.next = some ⟨c, 0, false⟩ := by
    simp [VfsRegistry.alloc]
  have hundo : Function.update (VfsRegistry.alloc c s).heap s.next none = s.heap := by
    simp [VfsRegistry.alloc, hs.fresh s.next le_rfl]
  rw [free_of_some hnew, hundo]

/-- An allocation that is undone only uses up an address. -/
theorem Inv.skip (hs : Inv s) : Inv { s with next := s.next + 1 } :=
  { hs with fresh := fun w hw => hs.fresh w (Nat.le_of_succ_le hw) }

end Lemmas

/-! ### Registering and retiring -/

section Registration

variable {s : State C H}

omit [DecidableEq H]

theorem Inv.alloc (hs : Inv s) {c : C} (hc : s.registry c = none) :
    Inv { alloc c s with registry := Function.update s.registry c (some s.next) } := by
  have hnext : ∀ {w x}, s.heap w = some x → w < s.next := by
    intro w x hx
    by_contra hle
    simp [hs.fresh w (Nat.le_of_not_lt hle)] at hx
  have hold : ∀ {w x}, s.heap w = some x → (VfsRegistry.alloc c s).heap w = some x := by
    intro w x hx
    exact (Function.update_of_ne (Nat.ne_of_lt (hnext hx)) _ _).trans hx
  constructor
  case finite => exact hs.finite
  case fresh =>
    intro w hw
    exact (Function.update_of_ne (Nat.ne_of_gt hw) _ _).trans (hs.fresh w (Nat.le_of_lt hw))
  case registered =>
    intro c' w hw
    by_cases hcc : c' = c
    · obtain rfl : s.next = w := by simpa [hcc] using hw
      exact ⟨⟨c, 0, false⟩, by simp [VfsRegistry.alloc], hcc.symm, rfl⟩
    · obtain ⟨x, hx, hctx, hpending⟩ := hs.registered c' w (by simpa [hcc] using hw)
      exact ⟨x, hold hx, hctx, hpending⟩
  case retired =>
    intro w hw
    obtain ⟨x, hx, hpending⟩ := hs.retired w hw
    exact ⟨x, hold hx, hpending⟩
  case nodup => exact hs.nodup
  case owned =>
    intro w x hx
    by_cases hw : w = s.next
    · obtain rfl : ⟨c, 0, false⟩ = x := by simpa [VfsRegistry.alloc, hw] using hx
      simp [hw]
    · have hx' : s.heap w = some x := by simpa [VfsRegistry.alloc, hw] using hx
      have hown := hs.owned w x hx'
      by_cases hpending : x.pendingUnregister = true
      · simpa [hpending, VfsRegistry.alloc] using hown
      · have hreg : s.registry x.context = some w := by simpa [hpending] using hown
        have hctx : x.context ≠ c := by
          rintro rfl
          simp [hc] at hreg
        simpa [hpending, hctx] using hreg
  case counted =>
    intro w x hx
    by_cases hw : w = s.next
    · -- nothing can point to an address that was not handed out yet
      obtain rfl : ⟨c, 0, false⟩ = x := by simpa [VfsRegistry.alloc, hw] using hx
      have hempty : handles s w = ∅ := by
        rw [Set.eq_empty_iff_forall_notMem]
        exact fun h hh => hs.held h w hh (hs.fresh w hw.ge)
      exact (Set.ncard_eq_zero (hs.finite_handles w)).mpr hempty |>.symm
    · exact hs.counted w x (by simpa [VfsRegistry.alloc, hw] using hx)
  case held =>
    intro h w hh
    obtain ⟨x, hx⟩ := Option.ne_none_iff_exists'.mp (hs.held h w hh)
    simp [hold hx]
  case starting =>
    intro h w hh
    obtain ⟨x, hx, hpending⟩ := hs.starting h w hh
    exact ⟨x, hold hx, hpending⟩

/-- **`Register`** keeps the invariant whatever the libraries answer, and adds nothing to what the
sweep left in `retired`. -/
theorem Inv.register (hs : Inv s) (c : C) (outcome : RegisterOutcome) :
    ∃ s', register c outcome s = .ok s' ∧ Inv s' ∧
      ∀ w ∈ s'.retired, (handles s' w).Nonempty := by
  obtain ⟨t, ht, hswept⟩ := hs.reap
  simp only [VfsRegistry.register, ht, bind, Except.bind]
  cases hc : t.registry c with
  | some w => exact ⟨t, rfl, hswept.inv, hswept.nonempty⟩
  | none =>
    have hundo := hswept.inv.free_alloc c
    cases outcome with
    | noDefaultVfs => exact ⟨t, rfl, hswept.inv, hswept.nonempty⟩
    | noNameMemory =>
      refine ⟨{ t with next := t.next + 1 }, ?_, hswept.inv.skip, hswept.nonempty⟩
      simp only [hundo]
      rfl
    | vfsRegisterFailed =>
      refine ⟨{ t with next := t.next + 1 }, ?_, hswept.inv.skip, hswept.nonempty⟩
      have hreg : Function.update t.registry c none = t.registry := by simp [← hc]
      simp only [hundo, Function.update_idem, hreg]
      rfl
    | registered => exact ⟨_, rfl, hswept.inv.alloc hc, hswept.nonempty⟩

/-- Retiring the wrapper of a context on which no `xOpen` holds an uncounted pointer. -/
theorem Inv.retire (hs : Inv s) {c : C} {w : WrapperPtr} {x : DuckDBVFSWrapper C}
    (hc : s.registry c = some w) (hw : s.heap w = some x)
    (hflight : ∀ h, s.files h ≠ .starting w) :
    Inv { s with
      heap := Function.update s.heap w (some { x with pendingUnregister := true })
      retired := s.retired ++ [w]
      registry := Function.update s.registry c none } := by
  obtain ⟨y, hy, rfl, hpending⟩ := hs.registered c w hc
  obtain rfl := Option.some.inj (hw.symm.trans hy)
  have hnotin : w ∉ s.retired := by
    intro hmem
    rw [((hs.lifetime).retired_iff w x hw).mp hmem] at hpending
    exact Bool.false_ne_true hpending.symm
  constructor
  case finite => exact hs.finite
  case fresh =>
    intro w' hw'
    have hww : w' ≠ w := by
      rintro rfl
      simp [hs.fresh w' hw'] at hw
    simpa [hww] using hs.fresh w' hw'
  case registered =>
    intro c' w' hc'
    have hcc : c' ≠ x.context := by
      rintro rfl
      simp at hc'
    have hreg : s.registry c' = some w' := by simpa [hcc] using hc'
    have hww : w' ≠ w := by
      rintro rfl
      exact hcc (hs.registry_injective hreg hc)
    simpa [hww] using hs.registered c' w' hreg
  case retired =>
    intro w' hw'
    by_cases hww : w' = w
    · exact ⟨{ x with pendingUnregister := true }, by simp [hww], rfl⟩
    · simpa [hww] using hs.retired w' (by simpa [hww] using hw')
  case nodup =>
    exact List.nodup_append.mpr ⟨hs.nodup, by simp, fun a ha b hb => by
      rintro rfl
      exact hnotin ((List.mem_singleton.mp hb) ▸ ha)⟩
  case owned =>
    intro w' y hy
    by_cases hww : w' = w
    · obtain rfl : { x with pendingUnregister := true } = y := by simpa [hww] using hy
      simp [hww]
    · have hy' : s.heap w' = some y := by simpa [hww] using hy
      have hown := hs.owned w' y hy'
      by_cases hyp : y.pendingUnregister = true
      · simp only [hyp, if_true] at hown ⊢
        exact List.mem_append_left _ hown
      · have hreg : s.registry y.context = some w' := by simpa [hyp] using hown
        have hctx : y.context ≠ x.context := by
          intro heq
          rw [heq, hc] at hreg
          exact hww (Option.some.inj hreg).symm
        simpa [hyp, hctx] using hreg
  case counted =>
    intro w' y hy
    by_cases hww : w' = w
    · obtain rfl : { x with pendingUnregister := true } = y := by simpa [hww] using hy
      exact hww ▸ hs.counted w x hw
    · exact hs.counted w' y (by simpa [hww] using hy)
  case held =>
    intro h w' hh
    by_cases hww : w' = w
    · simp [hww]
    · simpa [hww] using hs.held h w' hh
  case starting =>
    intro h w' hh
    have hww : w' ≠ w := by
      rintro rfl
      exact hflight h hh
    simpa [hww] using hs.starting h w' hh

/-- **`Unregister`** keeps the invariant when no open is in flight, and leaves in `retired`
wrappers with a handle and the one it retires itself. -/
theorem Inv.unregister (hs : Inv s) {c : C}
    (henv : ∀ w, s.registry c = some w → ∀ h, ¬ (s.files h).InFlight w) :
    ∃ s', unregister c s = .ok s' ∧ Inv s' ∧
      ∀ w ∈ s'.retired, (handles s' w).Nonempty ∨ s.registry c = some w := by
  obtain ⟨t, ht, hswept⟩ := hs.reap
  simp only [VfsRegistry.unregister, ht, bind, Except.bind]
  cases hc : t.registry c with
  | none => exact ⟨t, rfl, hswept.inv, fun w hw => .inl (hswept.nonempty w hw)⟩
  | some w =>
    obtain ⟨x, hx, _⟩ := hswept.inv.registered c w hc
    rw [hswept.registry] at hc
    simp only [deref_of_some hx]
    refine ⟨_, rfl, hswept.inv.retire (by rw [hswept.registry, hc]) hx fun h hh => ?_, ?_⟩
    · rw [hswept.files] at hh
      exact henv w hc h (by simp [hh, FileState.InFlight])
    · intro w' hw'
      rcases List.mem_append.mp hw' with hw' | hw'
      · exact .inl (hswept.nonempty w' hw')
      · exact .inr (by rw [hc, List.mem_singleton.mp hw'])

end Registration

/-! ### Opening and closing

Every step of a file changes that file and the count of one wrapper. -/

section Files

variable {s : State C H}

omit [DecidableEq C]

theorem handles_setFile (h : H) (f : FileState) (w : WrapperPtr) :
    handles (setFile h f s) w =
      if f.Holds w then insert h (handles s w) else handles s w \ {h} := by
  ext h'
  by_cases hh : h' = h
  · by_cases hf : f.Holds w <;> simp [handles, setFile, hh, hf]
  · by_cases hf : f.Holds w <;> simp [handles, setFile, hh, hf]

/-- A file that is a handle on `w` before and after the step changes no count. -/
theorem handles_setFile_of_iff {h : H} {f : FileState} {w : WrapperPtr}
    (hf : f.Holds w ↔ (s.files h).Holds w) : handles (setFile h f s) w = handles s w := by
  rw [handles_setFile]
  by_cases hw : f.Holds w
  · rw [if_pos hw, Set.insert_eq_of_mem (show h ∈ handles s w from hf.mp hw)]
  · rw [if_neg hw, Set.sdiff_singleton_eq_self (show h ∉ handles s w from fun hh => hw (hf.mpr hh))]

/-- **The file step.** File `h` moves to `f`, and the count of `w` is set to the number of handles
that `w` then has; no other wrapper gains or loses a handle. -/
theorem Inv.setFile (hs : Inv s) {w : WrapperPtr} {x : DuckDBVFSWrapper C}
    (hw : s.heap w = some x) {h : H} {f : FileState} {n : ℕ}
    (hn : n = (handles (setFile h f s) w).ncard)
    (hother : ∀ w', w' ≠ w → (f.Holds w' ↔ (s.files h).Holds w'))
    (hstart : ∀ w', f = .starting w' →
      ∃ y, s.heap w' = some y ∧ y.pendingUnregister = false) :
    Inv (setFile h f
      { s with heap := Function.update s.heap w (some { x with openFileCount := n }) }) := by
  -- apart from its count a wrapper is as before
  have hlift : ∀ {w' y}, s.heap w' = some y → ∃ m,
      Function.update s.heap w (some { x with openFileCount := n }) w' =
        some { y with openFileCount := m } := by
    intro w' y hy
    by_cases hww : w' = w
    · subst hww
      obtain rfl := Option.some.inj (hw.symm.trans hy)
      exact ⟨n, by simp⟩
    · exact ⟨y.openFileCount, by simpa [hww] using hy⟩
  have hback : ∀ {w' z},
      Function.update s.heap w (some { x with openFileCount := n }) w' = some z →
        ∃ y, s.heap w' = some y ∧ z = { y with openFileCount := z.openFileCount } ∧
          (w' = w ∧ z.openFileCount = n ∨ w' ≠ w ∧ z = y) := by
    intro w' z hz
    by_cases hww : w' = w
    · obtain rfl : { x with openFileCount := n } = z := by simpa [hww] using hz
      exact ⟨x, hww ▸ hw, rfl, .inl ⟨hww, rfl⟩⟩
    · exact ⟨z, by simpa [hww] using hz, rfl, .inr ⟨hww, rfl⟩⟩
  constructor
  case finite =>
    refine (hs.finite.insert h).subset fun h' hh' => ?_
    by_cases hh : h' = h
    · exact .inl hh
    · exact .inr (by simpa [VfsRegistry.setFile, hh] using hh')
  case fresh =>
    intro w' hw'
    have hww : w' ≠ w := by
      rintro rfl
      simp [hs.fresh w' hw'] at hw
    exact (Function.update_of_ne hww _ _).trans (hs.fresh w' hw')
  case registered =>
    intro c w' hc
    obtain ⟨y, hy, hctx, hpending⟩ := hs.registered c w' hc
    obtain ⟨m, hm⟩ := hlift hy
    exact ⟨_, hm, hctx, hpending⟩
  case retired =>
    intro w' hw'
    obtain ⟨y, hy, hpending⟩ := hs.retired w' hw'
    obtain ⟨m, hm⟩ := hlift hy
    exact ⟨_, hm, hpending⟩
  case nodup => exact hs.nodup
  case owned =>
    intro w' z hz
    obtain ⟨y, hy, hzy, -⟩ := hback hz
    rw [hzy]
    exact hs.owned w' y hy
  case counted =>
    intro w' z hz
    obtain ⟨y, hy, -, ⟨rfl, hcount⟩ | ⟨hww, rfl⟩⟩ := hback hz
    · exact hcount.trans hn
    · exact (hs.counted w' z hy).trans
        (congrArg Set.ncard (handles_setFile_of_iff (hother w' hww)).symm)
  case held =>
    intro h' w' hh'
    by_cases hww : w' = w
    · simp [VfsRegistry.setFile, hww]
    · have hmem : h' ∈ handles s w' := by
        rw [← handles_setFile_of_iff (hother w' hww)]
        exact hh'
      simpa [VfsRegistry.setFile, hww] using hs.held h' w' hmem
  case starting =>
    intro h' w' hh'
    have hold : ∃ y, s.heap w' = some y ∧ y.pendingUnregister = false := by
      by_cases hh : h' = h
      · exact hstart w' (by simpa [VfsRegistry.setFile, hh] using hh')
      · exact hs.starting h' w' (by simpa [VfsRegistry.setFile, hh] using hh')
    obtain ⟨y, hy, hpending⟩ := hold
    obtain ⟨m, hm⟩ := hlift hy
    exact ⟨_, hm, hpending⟩

/-- A step of a file that changes no handle changes no count. -/
theorem Inv.setFile_of_iff (hs : Inv s) {w : WrapperPtr} {x : DuckDBVFSWrapper C}
    (hw : s.heap w = some x) {h : H} {f : FileState}
    (hf : ∀ w', f.Holds w' ↔ (s.files h).Holds w')
    (hstart : ∀ w', f = .starting w' →
      ∃ y, s.heap w' = some y ∧ y.pendingUnregister = false) :
    Inv (VfsRegistry.setFile h f s) := by
  have hcount : x.openFileCount = (handles (VfsRegistry.setFile h f s) w).ncard := by
    rw [handles_setFile_of_iff (hf w), hs.counted w x hw]
  have hinv := hs.setFile hw hcount (fun w' _ => hf w') hstart
  have hheap : Function.update s.heap w (some x) = s.heap := by simp [← hw]
  rwa [hheap] at hinv

/-- **`ReleaseWrapperHandle`**, called for a file that gives up its handle on `w`: the count is
positive, and if it drops to zero nobody points to `w` any more. -/
theorem Inv.release (hs : Inv s) {h : H} {w : WrapperPtr} (hh : (s.files h).Holds w) :
    ∃ s', releaseWrapperHandle w (VfsRegistry.setFile h .closed s) = .ok s' ∧ Inv s' := by
  obtain ⟨x, hx⟩ := Option.ne_none_iff_exists'.mp (hs.held h w hh)
  have hmem : h ∈ handles s w := hh
  have hcount : x.openFileCount - 1 = (handles (VfsRegistry.setFile h .closed s) w).ncard := by
    rw [handles_setFile, if_neg (by simp [FileState.Holds]), hs.counted w x hx,
      Set.ncard_sdiff_singleton_of_mem hmem]
  have hpos : x.openFileCount ≠ 0 := by
    rw [hs.counted w x hx]
    exact ((Set.ncard_pos (hs.finite_handles w)).mpr ⟨h, hmem⟩).ne'
  have hinv := hs.setFile hx hcount
    (fun w' hww => iff_of_false (by simp [FileState.Holds]) fun hh' => hww (hh'.unique hh))
    (by simp)
  have hderef : deref (VfsRegistry.setFile h .closed s).heap w = .ok x := deref_of_some hx
  simp only [releaseWrapperHandle, hderef, bind, Except.bind, beq_iff_eq, hpos, if_false, pure,
    Except.pure]
  by_cases hlast : (x.openFileCount - 1 == 0 && x.pendingUnregister &&
      (VfsRegistry.setFile h .closed s).retired.contains w) = true
  · rw [if_pos hlast]
    simp only [Bool.and_eq_true, beq_iff_eq, List.contains_iff_mem] at hlast
    have hnew : Function.update s.heap w (some { x with openFileCount := x.openFileCount - 1 }) w =
        some { x with openFileCount := x.openFileCount - 1 } := by simp
    refine ⟨_, ?_, hinv.free_retired hlast.2 hnew hlast.1.1⟩
    simp [free, VfsRegistry.setFile]
  · rw [if_neg hlast]
    exact ⟨_, rfl, hinv⟩

end Files

/-! ### Runs -/

/-- **One step** of any thread keeps the invariant, and is no fault. -/
theorem Inv.step {s : State C H} {a : Action C H} (hs : Inv s) (henv : Env s a) :
    ∃ s', step s a = .ok s' ∧ Inv s' := by
  cases a with
  | register c outcome =>
    obtain ⟨s', hs', hinv, _⟩ := hs.register c outcome
    exact ⟨s', hs', hinv⟩
  | unregister c =>
    obtain ⟨s', hs', hinv, _⟩ := hs.unregister henv
    exact ⟨s', hs', hinv⟩
  | openStart h c =>
    cases hf : s.files h <;> cases hc : s.registry c <;>
      simp only [VfsRegistry.step, hf, hc] <;> try exact ⟨s, rfl, hs⟩
    rename_i w
    obtain ⟨x, hx, _, hpending⟩ := hs.registered c w hc
    refine ⟨_, rfl, hs.setFile_of_iff hx (by simp [hf, FileState.Holds]) ?_⟩
    rintro w' ⟨⟩
    exact ⟨x, hx, hpending⟩
  | openRefuse h =>
    cases hf : s.files h <;> simp only [VfsRegistry.step, hf] <;> try exact ⟨s, rfl, hs⟩
    rename_i w
    obtain ⟨x, hx, _⟩ := hs.starting h w hf
    simp only [deref_of_some hx]
    exact ⟨_, rfl, hs.setFile_of_iff hx (by simp [hf, FileState.Holds]) (by simp)⟩
  | openReserve h =>
    cases hf : s.files h <;> simp only [VfsRegistry.step, hf] <;> try exact ⟨s, rfl, hs⟩
    rename_i w
    obtain ⟨x, hx, _⟩ := hs.starting h w hf
    have hnot : h ∉ handles s w := by simp [handles, hf, FileState.Holds]
    have hcount :
        x.openFileCount + 1 = (handles (VfsRegistry.setFile h (.reserved w) s) w).ncard := by
      rw [handles_setFile, if_pos (by simp [FileState.Holds]), hs.counted w x hx,
        Set.ncard_insert_of_notMem hnot (hs.finite_handles w)]
    simp only [deref_of_some hx]
    refine ⟨_, rfl, hs.setFile hx hcount (fun w' hww => ?_) (by simp)⟩
    simpa [hf, FileState.Holds] using hww.symm
  | openPublish h =>
    cases hf : s.files h <;> simp only [VfsRegistry.step, hf] <;> try exact ⟨s, rfl, hs⟩
    rename_i w
    obtain ⟨x, hx⟩ := Option.ne_none_iff_exists'.mp
      (hs.held h w (by simp [hf, FileState.Holds]))
    exact ⟨_, rfl, hs.setFile_of_iff hx (by simp [hf, FileState.Holds]) (by simp)⟩
  | openAbort h | close h =>
    cases hf : s.files h <;> simp only [VfsRegistry.step, hf] <;> try exact ⟨s, rfl, hs⟩
    exact hs.release (by simp [hf, FileState.Holds])

/-- The wrapper that an action retires. -/
def RetiredBy (s : State C H) (w : WrapperPtr) : Action C H → Prop
  | .unregister c => s.registry c = some w
  | _ => False

/-- The actions that sweep `retired`. -/
def Action.Sweeps : Action C H → Prop
  | .register _ _ | .unregister _ => True
  | _ => False

/-- The next sweep leaves no idle wrapper behind but the one it retires itself: it is never lost,
and the list does not grow with the number of contexts. -/
def NextSweep (s : State C H) : Prop :=
  ∀ a : Action C H, a.Sweeps → Env s a → ∃ s', step s a = .ok s' ∧
    ∀ w ∈ s'.retired, (handles s' w).Nonempty ∨ RetiredBy s w a

theorem Inv.nextSweep {s : State C H} (hs : Inv s) : NextSweep s := by
  intro a hsweeps henv
  cases a with
  | register c outcome =>
    obtain ⟨s', hs', _, hleft⟩ := hs.register c outcome
    exact ⟨s', hs', fun w hw => .inl (hleft w hw)⟩
  | unregister c =>
    obtain ⟨s', hs', _, hleft⟩ := hs.unregister henv
    exact ⟨s', hs', hleft⟩
  | _ => exact hsweeps.elim

/-- **Wrapper lifetime.** No interleaving of the threads faults: nothing is used after it is freed
or freed twice, and no count is decremented at zero. In every state reached, a live wrapper is in
exactly one of `registry` and `retired`, its flag says in which, its count is the number of its
handles, and a wrapper with a handle is live. -/
theorem wrapper_lifetime (as : List (Action C H)) (henv : Runs.Allowed Env step init as) :
    ∃ s, Runs.run step init as = .ok s ∧ Lifetime s ∧ NextSweep s := by
  obtain ⟨s, hrun, hinv⟩ := Runs.run_ok (fun _ _ hs ha => Inv.step hs ha) inv_init henv
  exact ⟨s, hrun, hinv.lifetime, hinv.nextSweep⟩

/-- A context is torn down with a handle open, another one comes and goes, and the handle is closed
last. -/
theorem wrapper_lifetime_late_close :
    ∃ s : State (Fin 2) (Fin 2), Runs.run step init
      [.register 0 .registered, .openStart 0 0, .openReserve 0, .openPublish 0, .unregister 0,
        .register 1 .registered, .unregister 1, .close 0] = .ok s ∧ Lifetime s ∧ NextSweep s := by
  refine wrapper_lifetime _ ⟨trivial, ?_⟩
  rintro _ ⟨⟩
  refine ⟨Option.some_ne_none 0, ?_⟩
  rintro _ ⟨⟩
  refine ⟨trivial, ?_⟩
  rintro _ ⟨⟩
  refine ⟨trivial, ?_⟩
  rintro _ ⟨⟩
  refine ⟨?_, ?_⟩
  · rintro _ ⟨⟩
    decide
  rintro _ ⟨⟩
  refine ⟨trivial, ?_⟩
  rintro _ ⟨⟩
  refine ⟨?_, ?_⟩
  · rintro _ ⟨⟩
    decide
  rintro _ ⟨⟩
  exact ⟨trivial, fun _ _ => trivial⟩

/-- An open that is in flight when its context is unregistered loses its wrapper to the sweep. -/
example : Runs.run step (init : State (Fin 1) (Fin 1))
    [.register 0 .registered, .openStart 0 0, .unregister 0, .unregister 0, .openReserve 0] =
      .error (.useAfterFree 0) := rfl

end SqliteScanner.VfsRegistry
