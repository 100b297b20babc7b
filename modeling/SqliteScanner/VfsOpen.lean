import SqliteScanner.VfsRegistry

/-!
# Opening a remote file

SQLite calls `xOpen` with memory for a `sqlite3_file` that holds anything. If the call fails, then
`pMethods` must be null afterwards: SQLite calls `xClose` exactly for the files whose `pMethods` is not.
And since every `xClose` drops a count of the wrapper, the call must have counted the handle exactly if
it succeeds.

`Open` sets `pMethods` to null, but only after a first check of its arguments. A call that fails this
check leaves what was there. `open_iff` says that this is the only way in which the contract is broken:
whatever the later exits find, the handle is counted exactly if the file is open.

`openFile_run` says that `openFile` is what the registry's model makes of a call, when no other thread
comes between its steps. So what has been proved of the wrappers holds of it.

## Main definitions

* `openFile`, `closeFile` — the source's `Open` and `Close`
* `LeavesNoHalfOpenHandle`, `Checked` — the contract, and the first check

## Main results

* `openFile_cases` — the exits of `Open`
* `openFile_run` — a call as steps of the registry
* `open_iff`
-/

namespace SqliteScanner.VfsOpen

open VfsRegistry

variable {C H F : Type}

/-! ### Calls -/

/-- The fields of `sqlite3_vfs` that are read. -/
structure SqliteVfs where
  szOsFile : ℤ
  pAppData : Option WrapperPtr

/-- The memory of a `SQLiteDuckDBCachedFile`; `none` is a null pointer. The methods of a wrapper are
named by the wrapper that they are part of. -/
structure CachedFile where
  pMethods : Option WrapperPtr
  duckdbFile : Option ℕ
  wrapper : Option WrapperPtr
deriving DecidableEq

/-- What is used of DuckDB. -/
structure Runtime (C F : Type) where
  /-- `sizeof(SQLiteDuckDBCachedFile)`. -/
  fileSize : ℤ
  /-- The context and its database are there. -/
  connected : C → Bool
  /-- The new `DuckDBCachedFile`, unless its constructor throws. -/
  construct : C → F → Option ℕ

/-- The arguments of `Open`, with memory for the file and, unless null, for the flags. The wrapper of a
VFS has not been freed. -/
structure Call (F : Type) (s : State C H) where
  vfs : Option SqliteVfs
  filename : Option F
  file : CachedFile
  flags : UInt32
  outFlags : Option UInt32
  live : ∀ v ∈ vfs, ∀ w ∈ v.pAppData, s.heap w ≠ none

inductive ResultCode where
  | ok
  | cantOpen
deriving DecidableEq

/-- What a call returns and leaves. -/
structure Opened (C H : Type) where
  code : ResultCode
  file : CachedFile
  outFlags : Option UInt32
  state : State C H

/-- `SQLITE_OPEN_READONLY`. -/
def openReadonly : UInt32 := 1

/-- Count a handle. -/
def reserve (w : WrapperPtr) (x : DuckDBVFSWrapper C) (s : State C H) : State C H :=
  { s with
    heap := Function.update s.heap w (some { x with openFileCount := x.openFileCount + 1 }) }

/-- `SQLiteDuckDBCacheVFS::Open`. -/
def openFile (runtime : Runtime C F) (s : State C H) (call : Call F s) :
    Except Fault (Opened C H) :=
  match call.vfs, call.filename with
  | some vfs, some filename =>
    if call.flags &&& openReadonly = 0 then .ok ⟨.cantOpen, call.file, call.outFlags, s⟩
    else
      let file := { call.file with pMethods := none }
      if vfs.szOsFile < runtime.fileSize then .ok ⟨.cantOpen, file, call.outFlags, s⟩
      else
        match vfs.pAppData with
        | none => .ok ⟨.cantOpen, file, call.outFlags, s⟩
        | some w => do
          let x ← deref s.heap w
          if !runtime.connected x.context then return ⟨.cantOpen, file, call.outFlags, s⟩
          let s := reserve w x s
          match runtime.construct x.context filename with
          | some opened =>
            return ⟨.ok, ⟨some w, some opened, some w⟩, call.outFlags.map fun _ => call.flags, s⟩
          | none =>
            let s ← releaseWrapperHandle w s
            return ⟨.cantOpen, ⟨none, none, none⟩, call.outFlags, s⟩
  | _, _ => .ok ⟨.cantOpen, call.file, call.outFlags, s⟩

/-- `SQLiteDuckDBCacheVFS::Close`. -/
def closeFile (file : CachedFile) (s : State C H) : Except Fault (CachedFile × State C H) :=
  match file.wrapper with
  | none => .ok (⟨file.pMethods, none, none⟩, s)
  | some w => do
    let s ← releaseWrapperHandle w s
    return (⟨file.pMethods, none, none⟩, s)

/-! ### Counts -/

section Counts

/-- The handles that a wrapper has counted. One that has been freed has none. -/
def countOf (s : State C H) (w : WrapperPtr) : ℕ := (s.heap w).elim 0 (·.openFileCount)

variable {s : State C H} {w : WrapperPtr} {x : DuckDBVFSWrapper C}

theorem heap_reserve :
    (reserve w x s).heap w = some { x with openFileCount := x.openFileCount + 1 } :=
  Function.update_self _ _ _

theorem countOf_reserve (hx : s.heap w = some x) :
    countOf (reserve w x s) w = countOf s w + 1 := by
  rw [countOf, countOf, heap_reserve, hx]
  rfl

/-- What becomes of a wrapper changes no other count. -/
theorem countOf_update {y : Option (DuckDBVFSWrapper C)}
    (hx : s.heap w = some x) (hy : y.elim 0 (·.openFileCount) = x.openFileCount) {s' : State C H}
    (hheap : s'.heap = Function.update s.heap w y) (w' : WrapperPtr) :
    countOf s' w' = countOf s w' := by
  rw [countOf, countOf, hheap]
  by_cases hw : w' = w
  · rw [hw, Function.update_self, hx, hy, Option.elim_some]
  · rw [Function.update_of_ne hw]

/-- Releasing a handle that has just been counted. The wrapper is freed if it was retired without a
handle. -/
theorem release_reserve
    (hx : s.heap w = some x) :
    ∃ s', releaseWrapperHandle w (reserve w x s) = .ok s' ∧ ∀ w', countOf s' w' = countOf s w' := by
  rw [releaseWrapperHandle, deref_of_some heap_reserve]
  simp only [bind, Except.bind, reserve, Nat.add_sub_cancel, Function.update_idem,
    beq_iff_eq, Nat.add_one_ne_zero, if_false]
  split
  case isTrue hfree =>
    rw [Bool.and_eq_true, Bool.and_eq_true, beq_iff_eq] at hfree
    rw [free, Function.update_self]
    simp only [Function.update_idem]
    exact ⟨_, rfl, countOf_update hx (by rw [hfree.1.1]; rfl) rfl⟩
  case isFalse => exact ⟨_, rfl, countOf_update hx rfl rfl⟩

theorem countOf_of_release (hx : s.heap w = some x) {s' : State C H}
    (hrelease : releaseWrapperHandle w (reserve w x s) = .ok s') (w' : WrapperPtr) :
    countOf s' w' = countOf s w' := by
  obtain ⟨s'', hrelease', hcount⟩ := release_reserve hx
  obtain rfl := Except.ok.inj (hrelease.symm.trans hrelease')
  exact hcount w'

theorem closeFile_of_wrapper {file : CachedFile} {s' : State C H} (hwrapper : file.wrapper = some w)
    (hrelease : releaseWrapperHandle w s = .ok s') :
    closeFile file s = .ok (⟨file.pMethods, none, none⟩, s') := by
  rw [closeFile, hwrapper]
  dsimp only
  rw [hrelease]
  rfl

end Counts

/-! ### The exits of `Open` -/

/-- The first check of `Open` succeeds. -/
def Checked {s : State C H} (call : Call F s) : Prop :=
  call.vfs ≠ none ∧ call.filename ≠ none ∧ call.flags &&& openReadonly ≠ 0

/-- **The exits of `Open`.** -/
theorem openFile_cases (runtime : Runtime C F) (s : State C H) (call : Call F s) :
    (¬ Checked call ∧
        openFile runtime s call = .ok ⟨.cantOpen, call.file, call.outFlags, s⟩) ∨
      (Checked call ∧ openFile runtime s call =
        .ok ⟨.cantOpen, { call.file with pMethods := none }, call.outFlags, s⟩) ∨
      (Checked call ∧ ∃ w x s', (∃ v ∈ call.vfs, v.pAppData = some w) ∧ s.heap w = some x ∧
        releaseWrapperHandle w (reserve w x s) = .ok s' ∧
        openFile runtime s call = .ok ⟨.cantOpen, ⟨none, none, none⟩, call.outFlags, s'⟩) ∨
      Checked call ∧ ∃ w x opened, (∃ v ∈ call.vfs, v.pAppData = some w) ∧ s.heap w = some x ∧
        openFile runtime s call =
          .ok ⟨.ok, ⟨some w, some opened, some w⟩, call.outFlags.map fun _ => call.flags,
            reserve w x s⟩ := by
  obtain ⟨vfs, filename, file, flags, outFlags, live⟩ := call
  rcases vfs with _ | vfs
  · exact .inl ⟨fun h => h.1 rfl, rfl⟩
  rcases filename with _ | filename
  · exact .inl ⟨fun h => h.2.1 rfl, rfl⟩
  simp only [openFile, Checked, ne_eq, reduceCtorEq, not_false_eq_true, true_and]
  by_cases hflags : flags &&& openReadonly = 0
  · exact .inl ⟨fun h => h hflags, by rw [if_pos hflags]⟩
  refine .inr ?_
  rw [if_neg hflags]
  simp only [hflags, not_false_eq_true, true_and]
  by_cases hsize : vfs.szOsFile < runtime.fileSize
  · exact .inl (by rw [if_pos hsize])
  rw [if_neg hsize]
  cases hdata : vfs.pAppData with
  | none => exact .inl rfl
  | some w =>
    obtain ⟨x, hx⟩ := Option.ne_none_iff_exists'.mp (live vfs rfl w hdata)
    dsimp only
    rw [deref_of_some hx]
    by_cases hconnected : runtime.connected x.context = true
    · refine .inr ?_
      simp only [bind, Except.bind, hconnected, Bool.not_true, Bool.false_eq_true, if_false]
      cases runtime.construct x.context filename with
      | none =>
        obtain ⟨s', hrelease, -⟩ := release_reserve hx
        refine .inl ⟨w, x, s', ⟨vfs, rfl, hdata⟩, hx, hrelease, ?_⟩
        simp only [hrelease]
        rfl
      | some opened => exact .inr ⟨w, x, opened, ⟨vfs, rfl, hdata⟩, hx, rfl⟩
    · refine .inl ?_
      rw [Bool.not_eq_true] at hconnected
      simp only [bind, Except.bind, hconnected, Bool.not_false, if_true]
      rfl

/-! ### The contract -/

/-- A call that fails leaves no methods and no count. One that succeeds has counted its handle, and
closing the file gives the count back. -/
structure LeavesNoHalfOpenHandle (runtime : Runtime C F) (s : State C H) (call : Call F s) :
    Prop where
  failed : ∀ opened, openFile runtime s call = .ok opened → opened.code ≠ .ok →
    opened.file.pMethods = none ∧ ∀ w, countOf opened.state w = countOf s w
  succeeded : ∀ opened, openFile runtime s call = .ok opened → opened.code = .ok →
    ∃ w, opened.file.pMethods = some w ∧ countOf opened.state w = countOf s w + 1 ∧
      ∃ file s', closeFile opened.file opened.state = .ok (file, s') ∧
        ∀ w', countOf s' w' = countOf s w'
  returns : ∃ opened, openFile runtime s call = .ok opened

theorem leavesNoHalfOpenHandle_of_ok {runtime : Runtime C F} {s : State C H} {call : Call F s}
    {opened : Opened C H} (hopen : openFile runtime s call = .ok opened)
    (hfailed : opened.code ≠ .ok →
      opened.file.pMethods = none ∧ ∀ w, countOf opened.state w = countOf s w)
    (hsucceeded : opened.code = .ok →
      ∃ w, opened.file.pMethods = some w ∧ countOf opened.state w = countOf s w + 1 ∧
        ∃ file s', closeFile opened.file opened.state = .ok (file, s') ∧
          ∀ w', countOf s' w' = countOf s w') :
    LeavesNoHalfOpenHandle runtime s call := by
  refine ⟨?_, ?_, opened, hopen⟩
  · intro opened' hopen'
    obtain rfl := Except.ok.inj (hopen.symm.trans hopen')
    exact hfailed
  · intro opened' hopen'
    obtain rfl := Except.ok.inj (hopen.symm.trans hopen')
    exact hsucceeded

/-- **When a failed open leaves no half-open handle**: exactly if the call passes the first check, or
there were no methods before. -/
theorem open_iff (runtime : Runtime C F) (s : State C H) (call : Call F s) :
    LeavesNoHalfOpenHandle runtime s call ↔ Checked call ∨ call.file.pMethods = none := by
  have hne : ResultCode.cantOpen ≠ .ok := by decide
  rcases openFile_cases runtime s call with ⟨hcheck, hopen⟩ | ⟨hcheck, hopen⟩ |
    ⟨hcheck, w, x, s', -, hx, hrelease, hopen⟩ | ⟨hcheck, w, x, opened, -, hx, hopen⟩
  · refine ⟨fun h => .inr (h.failed _ hopen hne).1, fun h => ?_⟩
    have hmethods := h.resolve_left hcheck
    exact leavesNoHalfOpenHandle_of_ok hopen (fun _ => ⟨hmethods, fun _ => rfl⟩)
      fun hok => absurd hok hne
  · exact ⟨fun _ => .inl hcheck, fun _ => leavesNoHalfOpenHandle_of_ok hopen
      (fun _ => ⟨rfl, fun _ => rfl⟩) fun hok => absurd hok hne⟩
  · exact ⟨fun _ => .inl hcheck, fun _ => leavesNoHalfOpenHandle_of_ok hopen
      (fun _ => ⟨rfl, countOf_of_release hx hrelease⟩) fun hok => absurd hok hne⟩
  · refine ⟨fun _ => .inl hcheck, fun _ => leavesNoHalfOpenHandle_of_ok hopen
      (fun hfailed => absurd rfl hfailed) fun _ => ?_⟩
    obtain ⟨s', hrelease, hcount⟩ := release_reserve hx
    exact ⟨w, rfl, countOf_reserve hx, _, s', closeFile_of_wrapper rfl hrelease, hcount⟩

/-- A call without `SQLITE_OPEN_READONLY`, on memory in which there is something. -/
def writableCall : Call Unit (init : State Unit Unit) where
  vfs := some ⟨24, none⟩
  filename := some ()
  file := ⟨some 7, none, none⟩
  flags := 2
  outFlags := none
  live := by simp

def plainRuntime : Runtime Unit Unit where
  fileSize := 24
  connected := fun _ => true
  construct := fun _ _ => some 1

/-- What was in the memory stays there. -/
theorem writable_open_keeps_methods :
    openFile plainRuntime init writableCall = .ok ⟨.cantOpen, ⟨some 7, none, none⟩, none, init⟩ ∧
      ¬ LeavesNoHalfOpenHandle plainRuntime init writableCall := by
  have hopen : openFile plainRuntime init writableCall =
      .ok ⟨.cantOpen, ⟨some 7, none, none⟩, none, init⟩ := rfl
  refine ⟨hopen, fun h => ?_⟩
  exact absurd (h.failed _ hopen (by decide)).1 (by decide)

/-! ### A call in the model of the registry -/

section Registry

variable [DecidableEq C] [DecidableEq H] {s : State C H} {h : H} {c : C} {w : WrapperPtr}
  {x : DuckDBVFSWrapper C}

omit [DecidableEq C] in
theorem releaseWrapperHandle_setFile (f : FileState) :
    releaseWrapperHandle w (setFile h f s) = (releaseWrapperHandle w s).map (setFile h f) := by
  rw [releaseWrapperHandle, releaseWrapperHandle]
  cases hderef : deref s.heap w with
  | error fault => simp [setFile, hderef, bind, Except.bind, Except.map]
  | ok x =>
    simp only [setFile, hderef, bind, Except.bind]
    by_cases hzero : (x.openFileCount == 0) = true
    · rw [if_pos hzero, if_pos hzero]
      rfl
    rw [if_neg hzero, if_neg hzero]
    by_cases hlast : (x.openFileCount - 1 == 0 && x.pendingUnregister && s.retired.contains w) = true
    · simp only [hlast, if_true]
      cases free (Function.update s.heap w
        (some { x with openFileCount := x.openFileCount - 1 })) w with
      | error fault => rfl
      | ok heap => rfl
    · simp only [hlast]
      rfl

omit [DecidableEq C] in
theorem setFile_setFile (f g : FileState) : setFile h g (setFile h f s) = setFile h g s := by
  rw [setFile, setFile, setFile, Function.update_idem]

omit [DecidableEq C] in
@[simp] theorem files_setFile (f : FileState) : (setFile h f s).files h = f :=
  Function.update_self _ _ _

theorem step_openStart (hclosed : s.files h = .closed) (hregistry : s.registry c = some w) :
    step s (.openStart h c) = .ok (setFile h (.starting w) s) := by
  simp only [step, hclosed, hregistry]

theorem step_openRefuse (hx : s.heap w = some x) :
    step (setFile h (.starting w) s) (.openRefuse h) = .ok (setFile h .closed s) := by
  simp only [step, files_setFile]
  rw [deref_of_some (show (setFile h (.starting w) s).heap w = some x from hx)]
  exact congrArg Except.ok (setFile_setFile _ _)

theorem step_openReserve (hx : s.heap w = some x) :
    step (setFile h (.starting w) s) (.openReserve h) =
      .ok (setFile h (.reserved w) (reserve w x s)) := by
  simp only [step, files_setFile]
  rw [deref_of_some (show (setFile h (.starting w) s).heap w = some x from hx)]
  exact congrArg Except.ok (setFile_setFile (.starting w) (.reserved w) (s := reserve w x s))

theorem step_openAbort {s' : State C H} (hrelease : releaseWrapperHandle w s = .ok s') :
    step (setFile h (.reserved w) s) (.openAbort h) = .ok (setFile h .closed s') := by
  simp only [step, files_setFile]
  rw [setFile_setFile, releaseWrapperHandle_setFile, hrelease]
  rfl

theorem step_openPublish :
    step (setFile h (.reserved w) s) (.openPublish h) = .ok (setFile h (.opened w) s) := by
  simp only [step, files_setFile, setFile_setFile]

/-- **A call is a run of the registry's steps**: the file is refused, or its handle is counted and the
file is then opened or given up. -/
theorem openFile_run (runtime : Runtime C F) (call : Call F s) (hclosed : s.files h = .closed)
    (hregistry : s.registry c = some w) (hvfs : ∃ v ∈ call.vfs, v.pAppData = some w) :
    ∃ as opened, as ∈ [[.openStart h c, .openRefuse h],
        [.openStart h c, .openReserve h, .openAbort h],
        [.openStart h c, .openReserve h, Action.openPublish h]] ∧
      openFile runtime s call = .ok opened ∧
      Runs.run step s as =
        .ok (setFile h (if opened.code = .ok then .opened w else .closed) opened.state) := by
  obtain ⟨v, hv, hdata⟩ := hvfs
  obtain ⟨x, hx⟩ := Option.ne_none_iff_exists'.mp (call.live v hv w hdata)
  have hsame : ∀ {w'}, (∃ v' ∈ call.vfs, v'.pAppData = some w') → w' = w := by
    rintro w' ⟨v', hv', hdata'⟩
    rw [Option.mem_unique hv' hv, hdata] at hdata'
    exact (Option.some.inj hdata').symm
  have hstart := step_openStart hclosed hregistry
  have hrefused : Runs.run step s [.openStart h c, .openRefuse h] = .ok (setFile h .closed s) := by
    simp only [Runs.run, hstart, step_openRefuse hx, bind, Except.bind]
  rcases openFile_cases runtime s call with ⟨-, hopen⟩ | ⟨-, hopen⟩ |
    ⟨-, w', y, s', hw, hy, hrelease, hopen⟩ | ⟨-, w', y, opened, hw, hy, hopen⟩
  · exact ⟨_, _, by simp, hopen, hrefused⟩
  · exact ⟨_, _, by simp, hopen, hrefused⟩
  · obtain rfl := hsame hw
    refine ⟨[.openStart h c, .openReserve h, .openAbort h], _, by simp, hopen, ?_⟩
    simp only [Runs.run, hstart, step_openReserve hy, step_openAbort hrelease, bind, Except.bind]
    rfl
  · obtain rfl := hsame hw
    refine ⟨[.openStart h c, .openReserve h, .openPublish h], _, by simp, hopen, ?_⟩
    simp only [Runs.run, hstart, step_openReserve hy, step_openPublish, bind, Except.bind]
    rfl

end Registry

/-- A registered context. -/
def registered : State Unit Unit :=
  { (init : State Unit Unit) with
    heap := fun _ => some ⟨(), 0, false⟩
    registry := fun _ => some 0 }

def readCall : Call Unit registered where
  vfs := some ⟨24, some 0⟩
  filename := some ()
  file := ⟨none, none, none⟩
  flags := 1
  outFlags := none
  live := fun _ _ _ _ => Option.some_ne_none _

theorem openFile_run_registered :
    ∃ as opened, openFile plainRuntime registered readCall = .ok opened ∧ opened.code = .ok ∧
      Runs.run step registered as = .ok (setFile () (.opened 0) opened.state) := by
  obtain ⟨as, opened, -, hopen, hrun⟩ := openFile_run (h := ()) (c := ()) (w := 0) plainRuntime
    readCall rfl rfl ⟨_, rfl, rfl⟩
  cases hopen
  exact ⟨as, _, rfl, rfl, hrun⟩

end SqliteScanner.VfsOpen
