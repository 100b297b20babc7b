import Mathlib.Algebra.Group.Nat.Defs
import SqliteScanner.Internal.Runs
import SqliteScanner.RemoteFile.Sidecar

/-!
# The lazily opened remote file

A `DuckDBCachedFile` opens the remote file at the first `Read` or `GetFileSize`. It serves the main
file only and tells SQLite that the file is immutable, so a populated `-wal` or a hot `-journal` would
go unnoticed. `InitializeFromRemote` therefore looks for one first, and fails closed: whatever goes
wrong leaves the file without a handle, and the failure is remembered.

Every request to the remote file system may be answered by any value or any exception. A call asks for
each thing at most once, so its answers are a record, and a run is a list of calls with the answers
they meet. Two fields of the state are not in the source: `requests` counts what was asked of the
remote file system, and `seen` notes what the successful initialization saw.

## Main results

* `ensureInitialized_yields` — the one place that touches the remote file before the first byte.
* `remoteReads_failClosed` — every run fails closed. The cast to `sqlite3_int64` makes a reported size of `2 ^ 63`
  or more negative, and such a file is opened without a look at its header. But a negative size is
  this class's value for a failed lookup: `Read` refuses it, and no size is served.
-/

namespace SqliteScanner.RemoteFile

open Runs

/-! ### The environment -/

/-- What is used of DuckDB. An `IOException` has the message it was made with. -/
structure DuckDB where
  int32 : Int32Cast
  ioException : Text → Exception
  rawMessage_ioException : ∀ message, (ioException message).rawMessage = message

/-- How the remote file system answers during one call. Sizes are `idx_t`. -/
structure Answers where
  openFile : Except Exception Unit
  fileSize : Except Exception UInt64
  header : Except Exception (Fin 20 → UInt8)
  openSidecar : Except Exception Unit
  sidecarSize : Except Exception UInt64
  sidecarFirst : Except Exception UInt8
  data : (count : ℕ) → (offset : ℤ) → Except Exception (Fin count → UInt8)

/-- `memcmp(header, "SQLite format 3", 16) == 0`; the literal ends in a zero byte. -/
def isSqlite (header : Fin 20 → UInt8) : Bool :=
  (List.ofFn header).take 16 = "SQLite format 3".toList.map (fun c => c.toNat.toUInt8) ++ [0]

/-- What a probe of the `-wal` saw. -/
inductive WalSeen where
  | absent (e : Exception)
  | size (n : UInt64)

/-- What a probe of the `-journal` saw. -/
inductive JournalSeen where
  | absent (e : Exception)
  | empty
  | first (b : UInt8)

/-- What an initialization saw. -/
inductive Seen where
  /-- The size, as far as it was looked at. -/
  | unread (size : UInt64)
  | noSqlite (header : Fin 20 → UInt8)
  | wal (header : Fin 20 → UInt8) (wal : WalSeen)
  | journal (header : Fin 20 → UInt8) (journal : JournalSeen)

variable (duckdb : DuckDB)

/-- There is no live sidecar: the file is too short for a header, or is no database, or its `-wal` is
confirmed absent or at most a header, or its `-journal` is confirmed absent, empty or starts with a
zero byte. -/
def Seen.Clean : Seen → Prop
  | .unread size => size.toNat < 20
  | .noSqlite header => isSqlite header = false
  | .wal header (.absent e) =>
    isSqlite header = true ∧ 2 ≤ header 19 ∧ sidecarConfirmedAbsent duckdb.int32 e = true
  | .wal header (.size n) => isSqlite header = true ∧ 2 ≤ header 19 ∧ n.toNat ≤ 32
  | .journal header (.absent e) =>
    isSqlite header = true ∧ header 19 < 2 ∧ sidecarConfirmedAbsent duckdb.int32 e = true
  | .journal header .empty => isSqlite header = true ∧ header 19 < 2
  | .journal header (.first b) => isSqlite header = true ∧ header 19 < 2 ∧ b = 0

/-- A `DuckDBCachedFile`. A smart pointer is whether it is set. -/
structure State where
  cachingFs : Bool
  cachingHandle : Bool
  initialized : Bool
  initFailed : Bool
  initErrorMessage : Text
  cachedFileSize : ℤ
  requests : ℕ
  attempts : ℕ
  seen : Option Seen

/-- The state after the constructor. -/
def State.init : State where
  cachingFs := false
  cachingHandle := false
  initialized := false
  initFailed := false
  initErrorMessage := []
  cachedFileSize := -1
  requests := 0
  attempts := 0
  seen := none

/-- A function of the source. Nothing in it can go wrong other than by an exception. -/
abbrev Proc (α : Type) := Runs.Proc Empty State Exception α

/-! ### The functions of the source -/

section Source

variable {α : Type}

/-- Ask the remote file system. -/
def request (answer : Except Exception α) : Proc α := do
  modify fun s => { s with requests := s.requests + 1 }
  match answer with
  | .ok a => return a
  | .error e => throw e

/-- `static_cast<sqlite3_int64>`. -/
def toInt64 (n : UInt64) : ℤ := n.toBitVec.toInt

variable (path : Text) (answers : Answers)

def cannotVerifyWal (reason : Text) : Text :=
  "Cannot verify whether remote SQLite database \"".toList ++ path ++
    "\" is in WAL mode: probing its \"-wal\" sidecar failed (".toList ++ reason ++
    ("). Refusing to read rather than risk serving a stale snapshot. Checkpoint the database " ++
      "into a single file (PRAGMA wal_checkpoint(TRUNCATE), or VACUUM INTO), or make the " ++
      "\"-wal\" URL reachable.").toList

def walHasFrames : Text :=
  "Cannot read remote SQLite database \"".toList ++ path ++
    ("\" in WAL mode: its \"-wal\" sidecar holds changes this read-only reader cannot apply. " ++
      "Checkpoint it into a single file (PRAGMA wal_checkpoint(TRUNCATE), or VACUUM INTO) " ++
      "before serving it.").toList

def cannotVerifyJournal (reason : Text) : Text :=
  "Cannot verify whether remote SQLite database \"".toList ++ path ++
    "\" has a hot rollback journal: probing its \"-journal\" sidecar failed (".toList ++ reason ++
    ("). Refusing to read rather than risk serving an inconsistent snapshot. Serve a " ++
      "cleanly-closed database, or make the \"-journal\" URL reachable.").toList

def journalIsHot : Text :=
  "Cannot read remote SQLite database \"".toList ++ path ++
    ("\": its \"-journal\" sidecar holds a hot rollback journal from an interrupted write, which " ++
      "this read-only reader cannot replay. Serve a cleanly-closed database.").toList

/-- The handler of a failed probe: it goes on only if the sidecar is confirmed absent. -/
def confirmAbsent (absent : Exception → α) (message : Text → Text) (e : Exception) : Proc α :=
  if sidecarConfirmedAbsent duckdb.int32 e then
    return absent e
  else
    throw (duckdb.ioException (message e.rawMessage))

def openWal : Proc WalSeen := do
  request answers.openSidecar
  return .size (← request answers.sidecarSize)

/-- The probe of the `-wal`. -/
def probeWal : Proc WalSeen := do
  let wal ← tryCatch (openWal answers) (confirmAbsent duckdb .absent (cannotVerifyWal path))
  match wal with
  | .size n => if n > 32 then throw (duckdb.ioException (walHasFrames path)) else return wal
  | .absent _ => return wal

def openJournal : Proc JournalSeen := do
  request answers.openSidecar
  if (← request answers.sidecarSize) > 0 then
    return .first (← request answers.sidecarFirst)
  else
    return .empty

/-- The probe of the `-journal`. -/
def probeJournal : Proc JournalSeen := do
  let journal ← tryCatch (openJournal answers)
    (confirmAbsent duckdb .absent (cannotVerifyJournal path))
  match journal with
  | .first b => if b ≠ 0 then throw (duckdb.ioException (journalIsHot path)) else return journal
  | .absent _ | .empty => return journal

/-- The search for a live sidecar, of a file whose size is `size` after the cast. -/
def checkSidecars (size : UInt64) : Proc Seen := do
  if toInt64 size ≥ 20 then
    let header ← request answers.header
    if isSqlite header && header 19 ≥ 2 then
      return .wal header (← probeWal duckdb path answers)
    else if isSqlite header then
      return .journal header (← probeJournal duckdb path answers)
    else
      return .noSqlite header
  else
    return .unread size

/-- `DuckDBCachedFile::InitializeFromRemote`. The members are assigned at the end only. -/
def initializeFromRemote : Proc Unit := do
  request answers.openFile
  let size ← request answers.fileSize
  let seen ← checkSidecars duckdb path answers size
  modify fun s => { s with
    cachingFs := true
    cachingHandle := true
    cachedFileSize := toInt64 size
    initialized := true
    seen := some seen }

/-- `DuckDBCachedFile::EnsureInitialized`. -/
def ensureInitialized : Proc Unit := do
  if (← get).initialized then
    return ()
  if (← get).initFailed then
    throw (duckdb.ioException (← get).initErrorMessage)
  modify fun s => { s with attempts := s.attempts + 1 }
  tryCatch (initializeFromRemote duckdb path answers) fun e => do
    modify fun s => { s with initFailed := true, initErrorMessage := e.rawMessage }
    throw e

/-- What a call gives back to SQLite. -/
inductive Returned where
  /-- `SQLITE_OK` of an empty read. -/
  | nothing
  | ioerrRead
  /-- The buffer, and whether the read was short. -/
  | bytes (buffer : List UInt8) (short : Bool)
  | size (n : ℤ)
  deriving DecidableEq, Repr

/-- Bytes or a size are given back. A negative size is that of a failed lookup, and `FileSize` makes an
I/O error of it. -/
def Returned.Serves : Returned → Prop
  | .bytes _ _ => True
  | .size n => 0 ≤ n
  | .nothing | .ioerrRead => False

/-- `DuckDBCachedFile::Read`. -/
def read (hasBuffer : Bool) (amount offset : ℤ) : Proc Returned := do
  if offset < 0 ∨ amount < 0 then
    return .ioerrRead
  else if !hasBuffer || amount = 0 then
    return .nothing
  else
    ensureInitialized duckdb path answers
    let s ← get
    if !s.cachingHandle then
      return .ioerrRead
    else if s.cachedFileSize < 0 then
      return .ioerrRead
    else if offset ≥ s.cachedFileSize then
      return .bytes (List.replicate amount.toNat 0) true
    else
      let bytesToRead := (min (s.cachedFileSize - offset) amount).toNat
      let data ← request (answers.data bytesToRead offset)
      return .bytes (List.ofFn data ++ List.replicate (amount.toNat - bytesToRead) 0)
        (bytesToRead < amount.toNat)

/-- `DuckDBCachedFile::GetFileSize`. -/
def getFileSize : Proc Returned := do
  ensureInitialized duckdb path answers
  return .size (← get).cachedFileSize

/-- A call of SQLite. -/
inductive Call where
  | read (hasBuffer : Bool) (amount offset : ℤ)
  | getFileSize
  deriving DecidableEq, Repr

/-- A read that returns before it looks at the file. -/
def Call.Trivial : Call → Prop
  | .read hasBuffer amount offset => offset < 0 ∨ amount < 0 ∨ hasBuffer = false ∨ amount = 0
  | .getFileSize => False

def call (c : Call) : Proc Returned :=
  match c with
  | .read hasBuffer amount offset => read duckdb path answers hasBuffer amount offset
  | .getFileSize => getFileSize duckdb path answers

end Source

/-! ### Runs -/

variable (path : Text)

/-- One call fails closed. -/
structure Closed (s : State) (c : Call) (outcome : Except Exception Returned) (s' : State) :
    Prop where
  /-- Bytes and sizes come from a file without a live sidecar. -/
  served : ∀ r, outcome = .ok r → r.Serves → ∃ seen ∈ s'.seen, seen.Clean duckdb
  /-- A failed initialization is recorded. -/
  recorded : s.initFailed = false → s'.initFailed = true →
    ∃ e, outcome = .error e ∧ s'.initErrorMessage = e.rawMessage
  /-- After it, everything fails with the recorded message and nothing is asked for. -/
  refused : s.initFailed = true → ¬ c.Trivial →
    outcome = .error (duckdb.ioException s.initErrorMessage)
  quiet : s.initFailed = true → s' = s
  unset : s'.initFailed = true →
    s'.cachingFs = false ∧ s'.cachingHandle = false ∧ s'.cachedFileSize = -1
  once : s'.attempts ≤ 1

/-- Every call of the run fails closed. -/
def FailsClosed : State → List (Call × Answers) → Prop
  | _, [] => True
  | s, (c, answers) :: calls =>
    ∃ outcome s', call duckdb path answers c s = .ok (outcome, s') ∧ Closed duckdb s c outcome s' ∧
      FailsClosed s' calls

/-! ### The phases of a file -/

/-- The state is one of three: nothing was tried, or opening failed, or it succeeded. -/
inductive Phase (s : State) : Prop where
  | untouched (initialized : s.initialized = false) (initFailed : s.initFailed = false)
    (unset : s.cachingFs = false ∧ s.cachingHandle = false ∧ s.cachedFileSize = -1)
    (attempts : s.attempts = 0)
  | failed (initialized : s.initialized = false) (initFailed : s.initFailed = true)
    (unset : s.cachingFs = false ∧ s.cachingHandle = false ∧ s.cachedFileSize = -1)
    (attempts : s.attempts = 1)
  | opened (initialized : s.initialized = true) (initFailed : s.initFailed = false)
    (handle : s.cachingHandle = true) (attempts : s.attempts = 1)
    (seen : 0 ≤ s.cachedFileSize → ∃ seen ∈ s.seen, seen.Clean duckdb)

variable {duckdb path} {s s' : State} {answers : Answers}

theorem phase_init : Phase duckdb State.init := .untouched rfl rfl ⟨rfl, rfl, rfl⟩ rfl

/-- Requests change nothing else. -/
def OnlyRequests (s s' : State) : Prop := ∃ n, s' = { s with requests := n }

theorem OnlyRequests.refl (s : State) : OnlyRequests s s := ⟨s.requests, rfl⟩

theorem OnlyRequests.trans {s₁ s₂ s₃ : State} (h₁₂ : OnlyRequests s₁ s₂) (h₂₃ : OnlyRequests s₂ s₃) :
    OnlyRequests s₁ s₃ := by
  obtain ⟨_, rfl⟩ := h₁₂
  obtain ⟨n, rfl⟩ := h₂₃
  exact ⟨n, rfl⟩

/-- A procedure that only makes requests, and whose results satisfy `P`. -/
def Asks {α : Type} (m : Proc α) (P : α → Prop) : Prop :=
  ∀ s, Yields m s (fun a s' => P a ∧ OnlyRequests s s') (fun _ s' => OnlyRequests s s')

section Asks

variable {α β : Type} {m : Proc α} {P : α → Prop} {Q : β → Prop}

theorem asks_pure {a : α} (h : P a) : Asks (pure a) P := fun s => .pure ⟨h, .refl s⟩

theorem asks_throw {e : Exception} : Asks (throw e) P := fun s => .throw (.refl s)

theorem Asks.bind {f : α → Proc β} (hm : Asks m P) (hf : ∀ a, P a → Asks (f a) Q) :
    Asks (m >>= f) Q := by
  refine fun s => .bind ((hm s).imp ?_ fun _ _ h => h)
  rintro a s₁ ⟨ha, h₁⟩
  exact (hf a ha s₁).imp (fun _ _ h => ⟨h.1, h₁.trans h.2⟩) fun _ _ h => h₁.trans h

theorem Asks.tryCatch {f : Exception → Proc α} (hm : Asks m P) (hf : ∀ e, Asks (f e) P) :
    Asks (MonadExcept.tryCatch m f) P := by
  refine fun s => .tryCatch ((hm s).imp (fun _ _ h => h) fun e s₁ h₁ => ?_)
  exact (hf e s₁).imp (fun _ _ h => ⟨h.1, h₁.trans h.2⟩) fun _ _ h => h₁.trans h

theorem asks_request (answer : Except Exception α) : Asks (request answer) fun _ => True := by
  refine fun s => .bind (.modify ?_)
  cases answer with
  | ok a => exact .pure ⟨trivial, _, rfl⟩
  | error e => exact .throw ⟨_, rfl⟩

theorem asks_confirmAbsent {absent : Exception → α} {message : Text → Text} {e : Exception}
    (h : sidecarConfirmedAbsent duckdb.int32 e = true → P (absent e)) :
    Asks (confirmAbsent duckdb absent message e) P := by
  unfold confirmAbsent
  split
  · exact asks_pure (h ‹_›)
  · exact asks_throw

end Asks

theorem asks_probeWal {header : Fin 20 → UInt8} (hsqlite : isSqlite header = true)
    (hwal : 2 ≤ header 19) :
    Asks (probeWal duckdb path answers) fun wal => (Seen.wal header wal).Clean duckdb := by
  refine Asks.bind (P := fun wal => ∀ e, wal = .absent e →
    sidecarConfirmedAbsent duckdb.int32 e = true) (.tryCatch ?_ fun e => asks_confirmAbsent ?_) ?_
  · exact (asks_request _).bind fun _ _ => (asks_request _).bind fun n _ =>
      asks_pure fun _ h => nomatch h
  · rintro habsent _ ⟨⟩
    exact habsent
  · rintro (e | n) habsent
    · exact asks_pure ⟨hsqlite, hwal, habsent e rfl⟩
    · dsimp only
      split
      · exact asks_throw
      · exact asks_pure ⟨hsqlite, hwal, UInt64.not_lt.mp ‹_›⟩

theorem asks_probeJournal {header : Fin 20 → UInt8} (hsqlite : isSqlite header = true)
    (hjournal : header 19 < 2) :
    Asks (probeJournal duckdb path answers) fun journal =>
      (Seen.journal header journal).Clean duckdb := by
  refine Asks.bind (P := fun journal => ∀ e, journal = .absent e →
    sidecarConfirmedAbsent duckdb.int32 e = true) (.tryCatch ?_ fun e => asks_confirmAbsent ?_) ?_
  · refine (asks_request _).bind fun _ _ => (asks_request _).bind fun n _ => ?_
    split
    · exact (asks_request _).bind fun b _ => asks_pure fun _ h => nomatch h
    · exact asks_pure fun _ h => nomatch h
  · rintro habsent _ ⟨⟩
    exact habsent
  · rintro (e | _ | b) habsent
    · exact asks_pure ⟨hsqlite, hjournal, habsent e rfl⟩
    · exact asks_pure ⟨hsqlite, hjournal⟩
    · dsimp only
      split
      · exact asks_throw
      · exact asks_pure ⟨hsqlite, hjournal, not_not.mp ‹_›⟩

theorem toNat_of_toInt64_nonneg {n : UInt64} (h : 0 ≤ toInt64 n) : (n.toNat : ℤ) = toInt64 n := by
  have htoNat : n.toBitVec.toNat = n.toNat := rfl
  have hlt := n.toNat_lt
  rw [toInt64, BitVec.toInt_eq_toNat_cond] at h ⊢
  split at h
  · simp_all
  · omega

/-- The search for a sidecar sees a clean file, unless the size has become negative. -/
theorem asks_checkSidecars (size : UInt64) :
    Asks (checkSidecars duckdb path answers size) fun seen =>
      0 ≤ toInt64 size → seen.Clean duckdb := by
  unfold checkSidecars
  split
  · refine (asks_request _).bind fun header _ => ?_
    cases hsqlite : isSqlite header with
    | false => exact asks_pure fun _ => hsqlite
    | true =>
      by_cases hwal : header 19 ≥ 2
      · simp only [hwal, decide_true, Bool.and_true, if_true]
        exact (asks_probeWal hsqlite hwal).bind fun _ hclean => asks_pure fun _ => hclean
      · simp only [hwal, decide_false, Bool.and_false, Bool.false_eq_true, if_false, if_true]
        exact (asks_probeJournal hsqlite (UInt8.not_le.mp hwal)).bind fun _ hclean =>
          asks_pure fun _ => hclean
  · refine asks_pure fun hpos => ?_
    have htoNat := toNat_of_toInt64_nonneg hpos
    change size.toNat < 20
    omega

theorem initializeFromRemote_yields (s : State) :
    Yields (initializeFromRemote duckdb path answers) s
      (fun _ s' => ∃ requests size seen, s' = { s with
          cachingFs := true
          cachingHandle := true
          cachedFileSize := size
          initialized := true
          requests := requests
          seen := some seen } ∧ (0 ≤ size → seen.Clean duckdb))
      (fun _ s' => OnlyRequests s s') := by
  refine .bind ((asks_request _ s).imp ?_ fun _ _ h => h)
  rintro ⟨⟩ s₁ ⟨-, h₁⟩
  refine .bind ((asks_request _ s₁).imp ?_ fun _ _ h => h₁.trans h)
  rintro size s₂ ⟨-, h₂⟩
  refine .bind ((asks_checkSidecars size s₂).imp ?_ fun _ _ h => (h₁.trans h₂).trans h)
  rintro seen s₃ ⟨hclean, h₃⟩
  obtain ⟨n, rfl⟩ := (h₁.trans h₂).trans h₃
  exact .modify ⟨n, toInt64 size, seen, rfl, hclean⟩

/-- The state in which a file was opened, with the size it was opened with. -/
def Opened (duckdb : DuckDB) (s : State) (size : ℤ) : Prop :=
  s.initialized = true ∧ s.initFailed = false ∧ s.cachingHandle = true ∧ s.attempts = 1 ∧
    s.cachedFileSize = size ∧ (0 ≤ size → ∃ seen ∈ s.seen, seen.Clean duckdb)

theorem Opened.phase {size : ℤ} (h : Opened duckdb s size) : Phase duckdb s := by
  obtain ⟨hinit, hfailed, hhandle, hattempts, rfl, hseen⟩ := h
  exact .opened hinit hfailed hhandle hattempts hseen

/-- `EnsureInitialized` in each phase. A first attempt opens the file or fails for good. -/
theorem ensureInitialized_yields (h : Phase duckdb s) :
    Yields (ensureInitialized duckdb path answers) s
      (fun _ s' => (∃ size, Opened duckdb s' size) ∧ s.initFailed = false)
      (fun e s' => Phase duckdb s' ∧
        (s.initFailed = false → s'.initErrorMessage = e.rawMessage) ∧
        (s.initFailed = true → e = duckdb.ioException s.initErrorMessage ∧ s' = s)) := by
  refine .bind (.get ?_)
  cases h with
  | untouched hinit hfailed hunset hattempts =>
    simp only [hinit, Bool.false_eq_true, if_false]
    refine .bind (.get ?_)
    simp only [hfailed, Bool.false_eq_true, if_false]
    refine .bind (.modify (.tryCatch ((initializeFromRemote_yields _).imp ?_ ?_)))
    · rintro _ _ ⟨requests, size, seen, rfl, hclean⟩
      refine ⟨⟨size, rfl, hfailed, rfl, by simp [hattempts], rfl, ?_⟩, trivial⟩
      exact fun hpos => ⟨seen, rfl, hclean hpos⟩
    · rintro e _ ⟨n, rfl⟩
      refine .bind (.modify (.throw ⟨?_, fun _ => rfl, by simp⟩))
      exact .failed hinit rfl hunset (by simp [hattempts])
  | failed hinit hfailed hunset hattempts =>
    simp only [hinit, Bool.false_eq_true, if_false]
    refine .bind (.get ?_)
    simp only [hfailed, if_true]
    refine .bind (.get (.throw ⟨.failed hinit hfailed hunset hattempts, ?_, ?_⟩))
    · simp
    · exact fun _ => ⟨rfl, rfl⟩
  | opened hinit hfailed hhandle hattempts hseen =>
    simp only [hinit, if_true]
    exact .pure ⟨⟨s.cachedFileSize, hinit, hfailed, hhandle, hattempts, rfl, hseen⟩, hfailed⟩

/-! ### Calls -/

theorem Phase.once (h : Phase duckdb s) : s.attempts ≤ 1 := by
  cases h with
  | untouched _ _ _ hattempts | failed _ _ _ hattempts | opened _ _ _ hattempts _ => omega

theorem Phase.unset (h : Phase duckdb s) (hfailed : s.initFailed = true) :
    s.cachingFs = false ∧ s.cachingHandle = false ∧ s.cachedFileSize = -1 := by
  cases h with
  | untouched _ hnot _ _ => simp [hnot] at hfailed
  | failed _ _ hunset _ => exact hunset
  | opened _ hnot _ _ _ => simp [hnot] at hfailed

/-- A trivial read leaves everything as it is. -/
theorem Phase.closed_of_trivial (h : Phase duckdb s) {c : Call} (hc : c.Trivial) {r : Returned}
    (hr : ¬ r.Serves) : Closed duckdb s c (.ok r) s where
  served := by
    rintro _ ⟨⟩ hserves
    exact absurd hserves hr
  recorded := fun hnot hfailed => by simp [hnot] at hfailed
  refused := fun _ hnot => absurd hc hnot
  quiet := fun _ => rfl
  unset := h.unset
  once := h.once

/-- An opened file fails closed if it serves something for a real size only. -/
theorem Opened.closed {size : ℤ} (h : Opened duckdb s' size) (hs : s.initFailed = false) (c : Call)
    {outcome : Except Exception Returned} (hserves : ∀ r, outcome = .ok r → r.Serves → 0 ≤ size) :
    Closed duckdb s c outcome s' := by
  obtain ⟨-, hfailed, -, hattempts, -, hseen⟩ := h
  exact
    { served := fun r hr hr' => hseen (hserves r hr hr')
      recorded := fun _ h => by simp [hfailed] at h
      refused := fun h => by simp [hs] at h
      quiet := fun h => by simp [hs] at h
      unset := fun h => by simp [hfailed] at h
      once := by omega }

/-- What a call does: the phase is kept, and the call fails closed. -/
def Behaves (duckdb : DuckDB) (s : State) (c : Call) (outcome : Except Exception Returned)
    (s' : State) : Prop :=
  Phase duckdb s' ∧ Closed duckdb s c outcome s'

/-- An initialization that throws ends the call. -/
theorem behaves_of_throws {c : Call} {e : Exception} (hphase : Phase duckdb s')
    (hfirst : s.initFailed = false → s'.initErrorMessage = e.rawMessage)
    (hlater : s.initFailed = true → e = duckdb.ioException s.initErrorMessage ∧ s' = s) :
    Behaves duckdb s c (.error e) s' :=
  ⟨hphase,
    { served := by simp
      recorded := fun hnot _ => ⟨e, rfl, hfirst hnot⟩
      refused := fun hf _ => by rw [(hlater hf).1]
      quiet := fun hf => (hlater hf).2
      unset := hphase.unset
      once := hphase.once }⟩

theorem getFileSize_yields (h : Phase duckdb s) :
    Yields (getFileSize duckdb path answers) s (fun r => Behaves duckdb s .getFileSize (.ok r))
      (fun e => Behaves duckdb s .getFileSize (.error e)) := by
  refine .bind ((ensureInitialized_yields h).imp ?_ ?_)
  · rintro _ s' ⟨⟨size, hopened⟩, hs⟩
    refine .bind (.get (.pure ⟨hopened.phase, hopened.closed hs _ ?_⟩))
    rintro _ ⟨⟩ hpos
    obtain ⟨-, -, -, -, rfl, -⟩ := hopened
    exact hpos
  · rintro e s' ⟨hphase, hfirst, hlater⟩
    exact behaves_of_throws hphase hfirst hlater

theorem read_yields (h : Phase duckdb s) (hasBuffer : Bool) (amount offset : ℤ) :
    Yields (read duckdb path answers hasBuffer amount offset) s
      (fun r => Behaves duckdb s (.read hasBuffer amount offset) (.ok r))
      (fun e => Behaves duckdb s (.read hasBuffer amount offset) (.error e)) := by
  have htrivial : ∀ {r}, (Call.read hasBuffer amount offset).Trivial → ¬ r.Serves →
      Behaves duckdb s (.read hasBuffer amount offset) (.ok r) s := fun hc hr =>
    ⟨h, h.closed_of_trivial hc hr⟩
  unfold read
  by_cases hneg : offset < 0 ∨ amount < 0
  · simp only [hneg, if_true]
    refine .pure (htrivial ?_ (by simp [Returned.Serves]))
    rcases hneg with h | h <;> simp [Call.Trivial, h]
  by_cases hnone : (!hasBuffer || decide (amount = 0)) = true
  · simp only [hneg, hnone, if_false, if_true]
    refine .pure (htrivial ?_ (by simp [Returned.Serves]))
    rcases Bool.or_eq_true _ _ ▸ hnone with h | h
    · exact .inr (.inr (.inl (by simpa using h)))
    · exact .inr (.inr (.inr (by simpa using h)))
  simp only [hneg, hnone, if_false]
  refine .bind ((ensureInitialized_yields h).imp ?_ ?_)
  · rintro _ s' ⟨⟨size, hopened⟩, hs⟩
    -- whatever is returned or thrown now is closed, if bytes are served for a real size only
    have hbehaves : ∀ {outcome : Except Exception Returned} {s''}, OnlyRequests s' s'' →
        (∀ r, outcome = .ok r → r.Serves → 0 ≤ size) →
        Behaves duckdb s (.read hasBuffer amount offset) outcome s'' := by
      rintro outcome _ ⟨n, rfl⟩ hserves
      have hopened' : Opened duckdb { s' with requests := n } size := hopened
      exact ⟨hopened'.phase, hopened'.closed hs _ hserves⟩
    have hquiet : Behaves duckdb s (.read hasBuffer amount offset) (.ok .ioerrRead) s' := by
      refine hbehaves (.refl s') ?_
      rintro _ ⟨⟩ ⟨⟩
    obtain ⟨-, -, hhandle, -, rfl, -⟩ := hopened
    refine .bind (.get ?_)
    simp only [hhandle, Bool.not_true, Bool.false_eq_true, if_false]
    by_cases hsize : s'.cachedFileSize < 0
    · simp only [hsize, if_true]
      exact .pure hquiet
    simp only [hsize, if_false]
    have hpos : 0 ≤ s'.cachedFileSize := Int.not_lt.mp hsize
    by_cases hoffset : offset ≥ s'.cachedFileSize
    · simp only [hoffset, if_true]
      exact .pure (hbehaves (.refl s') fun _ _ _ => hpos)
    · simp only [hoffset, if_false]
      refine .bind ((asks_request _ s').imp ?_ ?_)
      · rintro data s₂ ⟨-, h₂⟩
        exact .pure (hbehaves h₂ fun _ _ _ => hpos)
      · intro e s₂ h₂
        exact hbehaves h₂ fun _ _ _ => hpos
  · rintro e s' ⟨hphase, hfirst, hlater⟩
    exact behaves_of_throws hphase hfirst hlater

/-- **Step lemma.** -/
theorem call_behaves (path : Text) (h : Phase duckdb s) (c : Call) (answers : Answers) :
    ∃ outcome s', call duckdb path answers c s = .ok (outcome, s') ∧
      Behaves duckdb s c outcome s' := by
  have hyields : Yields (call duckdb path answers c) s (fun r => Behaves duckdb s c (.ok r))
      (fun e => Behaves duckdb s c (.error e)) := by
    cases c with
    | read hasBuffer amount offset => exact read_yields h hasBuffer amount offset
    | getFileSize => exact getFileSize_yields h
  rcases hyields with ⟨r, s', hcall, hbehaves⟩ | ⟨e, s', hcall, hbehaves⟩
  · exact ⟨.ok r, s', hcall, hbehaves⟩
  · exact ⟨.error e, s', hcall, hbehaves⟩

/-- **Run lemma**, from any phase. -/
theorem Phase.failsClosed (h : Phase duckdb s) (calls : List (Call × Answers)) :
    FailsClosed duckdb path s calls := by
  induction calls generalizing s with
  | nil => trivial
  | cons action calls ih =>
    obtain ⟨c, answers⟩ := action
    obtain ⟨outcome, s', hcall, hphase, hclosed⟩ := call_behaves path h c answers
    exact ⟨outcome, s', hcall, hclosed, ih hphase⟩

/-- DuckDB, as far as a message is concerned. -/
def plainDuckDB : DuckDB where
  int32 := digitsCast
  ioException := fun message =>
    { type := .other "IO".toList, what := message, rawMessage := message, extraInfo := [] }
  rawMessage_ioException := fun _ => rfl

/-- A file of the given size that cannot be probed. -/
def unprobed (size : UInt64) : Answers where
  openFile := .ok ()
  fileSize := .ok size
  header := .error (connectionFailure [])
  openSidecar := .error (connectionFailure [])
  sidecarSize := .error (connectionFailure [])
  sidecarFirst := .error (connectionFailure [])
  data := fun _ _ => .ok fun _ => 0

end SqliteScanner.RemoteFile
