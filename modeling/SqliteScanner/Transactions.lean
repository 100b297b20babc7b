import Mathlib.Data.Finset.Card
import SqliteScanner.Internal.Runs

/-!
# The transaction manager

DuckDB starts one `SQLiteTransaction` per transaction and attached SQLite database, and ends it with
`CommitTransaction` or `RollbackTransaction`. The manager owns the objects through its map
`transactions`. The end of an object's `unique_ptr` closes its connection and, for an in-memory
database, gives back the one slot `active_in_memory`.

Every statement may throw. SQLite also ends a transaction on its own after some errors, and the
`ROLLBACK` that follows then fails with *cannot rollback - no transaction is active*. In the source an
exception leaves its state behind, so each function is a procedure that returns or throws. Reading
through a dangling reference or a null connection is a fault, and so is an exception that leaves a
destructor.

The transactions that DuckDB holds are `held`: handed out by `StartTransaction` and not ended yet. The
environment ends what it holds, hence nothing twice.

## Main results

* `Inv.step` — a step that is not a failing `ROLLBACK` of `RollbackTransaction` keeps the invariant.
* `bookkept_iff` — the bookkeeping is right in every state of a run exactly when the run has no such
  step: `CommitTransaction` catches, `RollbackTransaction` does not.
-/

namespace SqliteScanner.Transactions

open Runs

/-! ### Transactions, connections and the environment -/

/-- The address of an `SQLiteTransaction`. -/
abbrev TransactionId := ℕ

/-- What the constructor of `SQLiteTransaction` asks of the catalog. -/
inductive DatabaseKind where
  | inMemory
  | local
  | remote
  deriving DecidableEq, Repr

/-- What `db` points at: the database of the catalog, or `owned_db`. -/
inductive Connection where
  | inMemory
  | owned
  deriving DecidableEq, Repr

/-- The fields of `SQLiteTransaction` that decide what is executed. -/
structure SQLiteTransaction where
  db : Option Connection
  initialized : Bool
  started : Bool
  deriving DecidableEq, Repr

/-- `BEGIN TRANSACTION`, `COMMIT` and `ROLLBACK`. -/
inductive Statement where
  | begin
  | commit
  | rollback
  deriving DecidableEq, Repr

/-- A statement that a transaction has executed, and whether it succeeded. -/
structure Issued where
  transaction : TransactionId
  statement : Statement
  succeeded : Bool
  deriving DecidableEq, Repr

/-- An exception is its message. -/
abbrev Exception := String

/-- How SQLite answers during one call. No call executes one statement twice. -/
structure Answers where
  openDatabase : Option Exception
  execute : Statement → Option Exception
  /-- The client context is gone. -/
  expired : Bool

/-- What must not happen. -/
inductive Fault where
  | danglingReference (t : TransactionId)
  | nullConnection (t : TransactionId)
  /-- `ReleaseInMemoryDatabase` throws in the destructor. -/
  | terminate
  deriving DecidableEq, Repr

/-- The manager, the catalog's slot, and the objects and connections that exist. -/
structure State where
  heap : TransactionId → Option SQLiteTransaction
  next : TransactionId
  transactions : Finset TransactionId
  /-- The owners of the open connections other than the catalog's own. -/
  connections : Finset TransactionId
  activeInMemory : Bool
  /-- The statements so far, the last one first. -/
  issued : List Issued
  /-- What DuckDB has been given and has not ended. -/
  held : Finset TransactionId

/-- A catalog that was just attached. -/
def init : State where
  heap := fun _ => none
  next := 0
  transactions := ∅
  connections := ∅
  activeInMemory := false
  issued := []
  held := ∅

/-- A function of the source. -/
abbrev Proc (α : Type) := Runs.Proc Fault State Exception α

/-! ### The functions of the source -/

/-- Read through a reference to a transaction. -/
def deref (t : TransactionId) : Proc SQLiteTransaction := do
  match (← get).heap t with
  | some transaction => return transaction
  | none => Proc.fault (.danglingReference t)

/-- Assign to the fields of a transaction. -/
def assign (t : TransactionId) (transaction : SQLiteTransaction) : Proc Unit :=
  modify fun s => { s with heap := Function.update s.heap t (some transaction) }

/-- Let SQLite answer a statement of `t`. -/
def answer (answers : Answers) (t : TransactionId) (statement : Statement) : Proc Unit := do
  let succeeded := (answers.execute statement).isNone
  modify fun s => { s with issued := ⟨t, statement, succeeded⟩ :: s.issued }
  match answers.execute statement with
  | some e => throw e
  | none => return ()

/-- `db->Execute`. -/
def execute (answers : Answers) (t : TransactionId) (statement : Statement) : Proc Unit := do
  match (← deref t).db with
  | some _ => answer answers t statement
  | none => Proc.fault (.nullConnection t)

/-- `SQLiteCatalog::GetInMemoryDatabase`, of an in-memory catalog. -/
def getInMemoryDatabase : Proc Connection := do
  if (← get).activeInMemory then
    throw ("Only a single transaction can be active on an " ++
      "in-memory SQLite database at a time")
  modify fun s => { s with activeInMemory := true }
  return .inMemory

/-- `SQLiteCatalog::ReleaseInMemoryDatabase`. It is called by the destructor only. -/
def releaseInMemoryDatabase (kind : DatabaseKind) : Proc Unit := do
  if kind = .inMemory then
    if (← get).activeInMemory then
      modify fun s => { s with activeInMemory := false }
    else
      Proc.fault .terminate

/-- The fields of a new object, without a connection of its own. -/
def allocate (transaction : SQLiteTransaction) : Proc TransactionId := do
  let t := (← get).next
  modify fun s => { s with
    heap := Function.update s.heap t (some transaction)
    next := t + 1 }
  return t

/-- The constructor of `SQLiteTransaction`. -/
def construct (kind : DatabaseKind) (answers : Answers) : Proc TransactionId :=
  match kind with
  | .inMemory => do
    let db ← getInMemoryDatabase
    allocate { db := some db, initialized := true, started := false }
  | .local => do
    match answers.openDatabase with
    | some e => throw e
    | none =>
      let t ← allocate { db := some .owned, initialized := true, started := false }
      modify fun s => { s with connections := insert t s.connections }
      return t
  | .remote => allocate { db := none, initialized := false, started := false }

/-- The destructor of `SQLiteTransaction`, with that of its `owned_db`. -/
def destroy (kind : DatabaseKind) (t : TransactionId) : Proc Unit := do
  let _ ← deref t
  releaseInMemoryDatabase kind
  modify fun s => { s with
    heap := Function.update s.heap t none
    connections := s.connections.erase t }

/-- `SQLiteTransaction::Start`. -/
def start (answers : Answers) (t : TransactionId) : Proc Unit := do
  let transaction ← deref t
  if transaction.initialized && !transaction.started then
    execute answers t .begin
    assign t { transaction with started := true }

/-- `SQLiteTransaction::Commit`. -/
def commit (answers : Answers) (t : TransactionId) : Proc Unit := do
  if (← deref t).started then
    execute answers t .commit

/-- `SQLiteTransaction::Rollback`. -/
def rollback (answers : Answers) (t : TransactionId) : Proc Unit := do
  if (← deref t).started then
    execute answers t .rollback

/-- `SQLiteTransaction::GetDB`. The connection is a local variable until `BEGIN` has succeeded. -/
def getDB (answers : Answers) (t : TransactionId) : Proc Unit := do
  unless (← deref t).initialized do
    if answers.expired then
      throw "ClientContext expired before the remote SQLite connection could be opened"
    match answers.openDatabase with
    | some e => throw e
    | none =>
      answer answers t .begin
      modify fun s => { s with connections := insert t s.connections }
      assign t { db := some .owned, started := true, initialized := true }

/-- `SQLiteTransactionManager::ExtractAndCloseAfterUnlock`. -/
def extractAndCloseAfterUnlock (kind : DatabaseKind) (t : TransactionId) : Proc Unit := do
  if t ∈ (← get).transactions then
    modify fun s => { s with transactions := s.transactions.erase t }
    destroy kind t

/-- `SQLiteTransactionManager::StartTransaction`. The handler is the end of the `unique_ptr`. -/
def startTransaction (kind : DatabaseKind) (answers : Answers) : Proc TransactionId := do
  let t ← construct kind answers
  tryCatch (start answers t) fun e => do
    destroy kind t
    throw e
  modify fun s => { s with transactions := insert t s.transactions }
  return t

/-- `SQLiteTransactionManager::CommitTransaction`. It returns what it caught. -/
def commitTransaction (kind : DatabaseKind) (answers : Answers) (t : TransactionId) :
    Proc (Option Exception) := do
  let error ← tryCatch (commit answers t >>= fun _ => pure none) fun e => do
    -- SQLite can keep the transaction and its locks when COMMIT fails
    tryCatch (rollback answers t) fun _ => pure ()
    return some e
  extractAndCloseAfterUnlock kind t
  return error

/-- `SQLiteTransactionManager::RollbackTransaction`. -/
def rollbackTransaction (kind : DatabaseKind) (answers : Answers) (t : TransactionId) :
    Proc Unit := do
  rollback answers t
  extractAndCloseAfterUnlock kind t

/-! ### Runs -/

/-- The calls of DuckDB. A scan or a statement of a transaction starts with `GetDB`. -/
inductive Call where
  | startTransaction
  | getDB (t : TransactionId)
  | commitTransaction (t : TransactionId)
  | rollbackTransaction (t : TransactionId)
  deriving DecidableEq, Repr

/-- Perform a call, and drop its outcome after noting what DuckDB then holds. -/
def step (kind : DatabaseKind) (s : State) (action : Call × Answers) : Except Fault State :=
  match action.1 with
  | .startTransaction => do
    match ← (startTransaction kind action.2) s with
    | (.ok t, s') => return { s' with held := insert t s'.held }
    | (.error _, s') => return s'
  | .getDB t => do return (← (getDB action.2 t) s).2
  | .commitTransaction t => do
    let s' := (← (commitTransaction kind action.2 t) s).2
    return { s' with held := s'.held.erase t }
  | .rollbackTransaction t => do
    let s' := (← (rollbackTransaction kind action.2 t) s).2
    return { s' with held := s'.held.erase t }

/-- DuckDB uses and ends the transactions it holds. -/
def Holds (s : State) (action : Call × Answers) : Prop :=
  match action.1 with
  | .startTransaction => True
  | .getDB t | .commitTransaction t | .rollbackTransaction t => t ∈ s.held

/-- `RollbackTransaction` is called on a transaction that has begun, and its `ROLLBACK` throws. -/
def RollbackThrows (s : State) (action : Call × Answers) : Prop :=
  match action.1 with
  | .rollbackTransaction t =>
    (∃ transaction ∈ s.heap t, transaction.started = true) ∧
      (action.2.execute .rollback).isSome = true
  | _ => False

/-- Only a transaction that has begun is ended. -/
def Begun : List Issued → Prop
  | [] => True
  | i :: issued => (i.statement ≠ .begin → ⟨i.transaction, .begin, true⟩ ∈ issued) ∧ Begun issued

/-- The books are right: what DuckDB does not hold is neither in the map nor connected, the slot of an
in-memory database is active exactly when its one transaction is held, and only what has begun was
ended. -/
structure Bookkept (kind : DatabaseKind) (s : State) : Prop where
  released : ∀ t, t ∉ s.held → t ∉ s.transactions ∧ t ∉ s.connections
  slot : kind = .inMemory → s.held.card ≤ 1 ∧ (s.activeInMemory = true ↔ s.held.Nonempty)
  begun : Begun s.issued

/-! ### The invariant -/

structure Inv (kind : DatabaseKind) (s : State) : Prop where
  transactions : s.transactions = s.held
  heap : ∀ t, (s.heap t).isSome = true ↔ t ∈ s.held
  fresh : ∀ t ∈ s.held, t < s.next
  connections : s.connections ⊆ s.held
  connected : ∀ t x, s.heap t = some x →
    (x.started = true → x.initialized = true) ∧ (x.initialized = true → x.db.isSome = true)
  began : ∀ t x, s.heap t = some x → x.started = true → ⟨t, .begin, true⟩ ∈ s.issued
  slot : kind = .inMemory → s.held.card ≤ 1 ∧ (s.activeInMemory = true ↔ s.held.Nonempty)
  begun : Begun s.issued

variable {kind : DatabaseKind} {s s' : State} {t : TransactionId} {x : SQLiteTransaction}
  {answers : Answers}

theorem inv_init (kind : DatabaseKind) : Inv kind init where
  transactions := rfl
  heap := by simp [init]
  fresh := by simp [init]
  connections := by simp [init]
  connected := by simp [init]
  began := by simp [init]
  slot := by simp [init]
  begun := trivial

theorem Inv.bookkept (h : Inv kind s) : Bookkept kind s where
  released := fun _ ht => ⟨fun ht' => ht (h.transactions ▸ ht'), fun ht' => ht (h.connections ht')⟩
  slot := h.slot
  begun := h.begun

theorem Inv.not_mem_held_next (h : Inv kind s) : s.next ∉ s.held :=
  fun hn => Nat.lt_irrefl _ (h.fresh _ hn)

/-- The object of `t` is handed to the map and to DuckDB. -/
def enroll (t : TransactionId) (s : State) : State :=
  { s with transactions := insert t s.transactions, held := insert t s.held }

/-- The object of `t` is gone, and so is everything that depends on it. -/
def close (kind : DatabaseKind) (t : TransactionId) (s : State) : State where
  heap := Function.update s.heap t none
  next := s.next
  transactions := s.transactions.erase t
  connections := s.connections.erase t
  activeInMemory := if kind = .inMemory then false else s.activeInMemory
  issued := s.issued
  held := s.held.erase t

theorem heap_of_heap_close {u : TransactionId} (h : (close kind t s).heap u = some x) :
    s.heap u = some x := by
  by_cases hu : u = t
  · simp [close, hu] at h
  · simpa [close, hu] using h

theorem Inv.close (h : Inv kind s) (ht : t ∈ s.held) : Inv kind (close kind t s) where
  transactions := congrArg (Finset.erase · t) h.transactions
  heap := by
    intro u
    by_cases hu : u = t
    · simp [Transactions.close, hu]
    · simp [Transactions.close, hu, h.heap]
  fresh := fun u hu => h.fresh u (Finset.mem_of_mem_erase hu)
  connections := Finset.erase_subset_erase t h.connections
  connected := fun u x hx => h.connected u x (heap_of_heap_close hx)
  began := fun u x hx => h.began u x (heap_of_heap_close hx)
  slot := by
    intro hk
    have hcard : (s.held.erase t).card = 0 := by
      rw [Finset.card_erase_of_mem ht]
      have := (h.slot hk).1
      omega
    have hempty := Finset.card_eq_zero.mp hcard
    simp [Transactions.close, hk, hempty]
  begun := h.begun

/-- A new object is enrolled. -/
theorem Inv.enroll (h : Inv kind s) (hdb : x.initialized = true → x.db.isSome = true)
    (hstarted : x.started = false) {connections : Finset TransactionId}
    (hconn : connections ⊆ insert s.next s.connections) {active : Bool}
    (hactive : kind = .inMemory → s.activeInMemory = false ∧ active = true) :
    Inv kind (enroll s.next { s with
      heap := Function.update s.heap s.next (some x)
      next := s.next + 1
      connections := connections
      activeInMemory := active }) where
  transactions := by simp [Transactions.enroll, h.transactions]
  heap := by
    intro u
    by_cases hu : u = s.next
    · simp [Transactions.enroll, hu]
    · simp [Transactions.enroll, hu, h.heap]
  fresh := by
    intro u hu
    rcases Finset.mem_insert.mp hu with rfl | hu
    · exact Nat.lt_succ_self _
    · exact Nat.lt_succ_of_lt (h.fresh u hu)
  connections := hconn.trans (Finset.insert_subset_insert _ h.connections)
  connected := by
    intro u y hy
    by_cases hu : u = s.next
    · simp only [Transactions.enroll, hu, Function.update_self, Option.some.injEq] at hy
      exact ⟨by simp [← hy, hstarted], hy ▸ hdb⟩
    · exact h.connected u y (by simpa [Transactions.enroll, hu] using hy)
  began := by
    intro u y hy hst
    by_cases hu : u = s.next
    · simp only [Transactions.enroll, hu, Function.update_self, Option.some.injEq] at hy
      simp [← hy, hstarted] at hst
    · exact h.began u y (by simpa [Transactions.enroll, hu] using hy) hst
  slot := by
    intro hk
    obtain ⟨hoff, hon⟩ := hactive hk
    have hempty : s.held = ∅ := by
      refine Finset.not_nonempty_iff_eq_empty.mp fun hne => ?_
      simp [(h.slot hk).2.mpr hne] at hoff
    simp [Transactions.enroll, hempty, hon]
  begun := h.begun

/-- The object of a held transaction is overwritten after its `BEGIN`. -/
theorem Inv.assign (h : Inv kind s) (ht : t ∈ s.held)
    (hx : x.initialized = true ∧ x.db.isSome = true) (hbegin : ⟨t, .begin, true⟩ ∈ s.issued)
    {connections : Finset TransactionId} (hconn : connections ⊆ s.held) :
    Inv kind { s with
      heap := Function.update s.heap t (some x)
      connections := connections } where
  transactions := h.transactions
  heap := by
    intro u
    by_cases hu : u = t
    · simp [hu, ht]
    · simp [hu, h.heap]
  fresh := h.fresh
  connections := hconn
  connected := by
    intro u y hy
    by_cases hu : u = t
    · simp only [hu, Function.update_self, Option.some.injEq] at hy
      exact ⟨fun _ => hy ▸ hx.1, fun _ => hy ▸ hx.2⟩
    · exact h.connected u y (by simpa [hu] using hy)
  began := by
    intro u y hy hst
    by_cases hu : u = t
    · exact hu ▸ hbegin
    · exact h.began u y (by simpa [hu] using hy) hst
  slot := h.slot
  begun := h.begun

/-! ### What each function does -/

/-- Only statements were executed in between, and each in its place. -/
def Extends (s s' : State) : Prop :=
  ∃ issued, s' = { s with issued := issued } ∧ s.issued <:+ issued ∧ Begun issued

theorem Extends.refl (h : Begun s.issued) : Extends s s := ⟨s.issued, rfl, List.suffix_rfl, h⟩

theorem Extends.trans {s₁ s₂ s₃ : State} (h₁₂ : Extends s₁ s₂) (h₂₃ : Extends s₂ s₃) :
    Extends s₁ s₃ := by
  obtain ⟨l₂, rfl, hl₂, -⟩ := h₁₂
  obtain ⟨l₃, rfl, hl₃, hb⟩ := h₂₃
  exact ⟨l₃, rfl, hl₂.trans hl₃, hb⟩

theorem Extends.inv (h : Extends s s') (hs : Inv kind s) : Inv kind s' := by
  obtain ⟨l, rfl, hl, hb⟩ := h
  exact
    { transactions := hs.transactions
      heap := hs.heap
      fresh := hs.fresh
      connections := hs.connections
      connected := hs.connected
      began := fun t x hx hst => hl.subset (hs.began t x hx hst)
      slot := hs.slot
      begun := hb }

theorem deref_yields (hx : s.heap t = some x) {Q : SQLiteTransaction → State → Prop}
    {R : Exception → State → Prop} (hQ : Q x s) : Yields (deref t) s Q R := by
  refine .bind (.get ?_)
  simp only [hx]
  exact .pure hQ

theorem answer_yields (answers : Answers) (t : TransactionId) (statement : Statement) (s : State) :
    Yields (answer answers t statement) s
      (fun _ s' => answers.execute statement = none ∧
        s' = { s with issued := ⟨t, statement, true⟩ :: s.issued })
      (fun e s' => answers.execute statement = some e ∧
        s' = { s with issued := ⟨t, statement, false⟩ :: s.issued }) := by
  refine .bind (.modify ?_)
  cases h : answers.execute statement with
  | none => exact .pure ⟨rfl, rfl⟩
  | some e => exact .throw ⟨rfl, rfl⟩

/-- A statement on a connection that has begun. -/
theorem execute_yields (hx : s.heap t = some x) (hdb : x.db.isSome = true)
    (hs : Begun s.issued) {statement : Statement}
    (hst : statement ≠ .begin → ⟨t, .begin, true⟩ ∈ s.issued) :
    Yields (execute answers t statement) s
      (fun _ s' => answers.execute statement = none ∧ Extends s s' ∧
        ⟨t, statement, true⟩ ∈ s'.issued)
      (fun _ s' => (answers.execute statement).isSome = true ∧ Extends s s') := by
  have hext : ∀ b, Extends s { s with issued := ⟨t, statement, b⟩ :: s.issued } :=
    fun b => ⟨_, rfl, List.suffix_cons _ _, hst, hs⟩
  refine .bind (deref_yields hx ?_)
  obtain ⟨db, hdb⟩ := Option.isSome_iff_exists.mp hdb
  simp only [hdb]
  refine (answer_yields answers t statement s).imp ?_ ?_
  · rintro _ _ ⟨hok, rfl⟩
    exact ⟨hok, hext true, List.mem_cons_self⟩
  · rintro e _ ⟨herr, rfl⟩
    exact ⟨by simp [herr], hext false⟩

theorem commit_yields (hs : Inv kind s) (hx : s.heap t = some x) :
    Yields (commit answers t) s (fun _ s' => Extends s s') (fun _ s' => Extends s s') := by
  refine .bind (deref_yields hx ?_)
  by_cases hst : x.started = true
  · simp only [hst, if_true]
    obtain ⟨hinit, hdb⟩ := hs.connected t x hx
    refine (execute_yields hx (hdb (hinit hst)) hs.begun fun _ => hs.began t x hx hst).imp ?_ ?_
    · exact fun _ _ h => h.2.1
    · exact fun _ _ h => h.2
  · simp only [hst]
    exact .pure (.refl hs.begun)

/-- `Rollback` throws exactly when a begun transaction's `ROLLBACK` does. -/
theorem rollback_yields (hs : Inv kind s) (hx : s.heap t = some x) :
    Yields (rollback answers t) s
      (fun _ s' => ¬ (x.started = true ∧ (answers.execute .rollback).isSome = true) ∧ Extends s s')
      (fun _ s' => (x.started = true ∧ (answers.execute .rollback).isSome = true) ∧
        Extends s s') := by
  refine .bind (deref_yields hx ?_)
  by_cases hst : x.started = true
  · simp only [hst, if_true]
    obtain ⟨hinit, hdb⟩ := hs.connected t x hx
    refine (execute_yields hx (hdb (hinit hst)) hs.begun fun _ => hs.began t x hx hst).imp ?_ ?_
    · rintro _ _ ⟨hok, hext, -⟩
      exact ⟨by simp [hok], hext⟩
    · rintro _ _ ⟨herr, hext⟩
      exact ⟨⟨trivial, herr⟩, hext⟩
  · simp only [hst]
    exact .pure ⟨by simp, .refl hs.begun⟩

/-- The destructor, of an object that may still be in the map. -/
theorem destroy_yields (hx : s.heap t = some x)
    (hslot : kind = .inMemory → s.activeInMemory = true) :
    Yields (destroy kind t) s
      (fun _ s' => s' = { close kind t s with transactions := s.transactions, held := s.held })
      (fun _ _ => False) := by
  refine .bind (deref_yields hx (.bind ?_))
  by_cases hk : kind = .inMemory
  · simp only [releaseInMemoryDatabase, hk, if_true]
    refine .bind (.get ?_)
    simp only [hslot hk, if_true]
    exact .modify (.modify (by simp [close]))
  · simp only [releaseInMemoryDatabase, hk, if_false]
    exact .pure (.modify (by simp [close, hk]))

theorem extractAndCloseAfterUnlock_yields (hs : Inv kind s) (ht : t ∈ s.held) :
    Yields (extractAndCloseAfterUnlock kind t) s
      (fun _ s' => { s' with held := s'.held.erase t } = close kind t s) (fun _ _ => False) := by
  obtain ⟨x, hx⟩ := Option.isSome_iff_exists.mp ((hs.heap t).mpr ht)
  refine .bind (.get ?_)
  simp only [hs.transactions ▸ ht, if_true]
  refine .bind (.modify ?_)
  have hslot : kind = .inMemory → s.activeInMemory = true := fun hk => (hs.slot hk).2.mpr ⟨t, ht⟩
  refine (destroy_yields (s := { s with transactions := s.transactions.erase t }) hx hslot).imp ?_ ?_
  · rintro _ _ rfl
    rfl
  · exact fun _ _ h => h

theorem getInMemoryDatabase_yields (s : State) :
    Yields getInMemoryDatabase s
      (fun db s' => db = .inMemory ∧ s.activeInMemory = false ∧ s' = { s with activeInMemory := true })
      (fun _ s' => s' = s) := by
  refine .bind (.get ?_)
  cases s.activeInMemory with
  | true => exact .bind (.throw rfl)
  | false => exact .bind (.modify (.pure ⟨rfl, rfl, rfl⟩))

theorem construct_yields (hs : Inv kind s) :
    Yields (construct kind answers) s
      (fun t s' => Inv kind (enroll t s') ∧ (∃ x, s'.heap t = some x) ∧ t ∉ s'.held ∧
        t ∉ s'.transactions)
      (fun _ s' => s' = s) := by
  have hheld := hs.not_mem_held_next
  have hmap : s.next ∉ s.transactions := hs.transactions ▸ hheld
  cases kind with
  | inMemory =>
    refine .bind ((getInMemoryDatabase_yields s).imp ?_ fun _ _ h => h)
    rintro _ _ ⟨rfl, hactive, rfl⟩
    refine .bind (.get (.bind (.modify (.pure ?_))))
    refine ⟨?_, ⟨_, Function.update_self _ _ _⟩, hheld, hmap⟩
    exact hs.enroll (by simp) rfl (Finset.subset_insert _ _) fun _ => ⟨hactive, rfl⟩
  | «local» =>
    simp only [construct]
    cases answers.openDatabase with
    | some e => exact .throw rfl
    | none =>
      refine .bind (.bind (.get (.bind (.modify (.pure (.bind (.modify (.pure ?_))))))))
      refine ⟨?_, ⟨_, Function.update_self _ _ _⟩, hheld, hmap⟩
      exact hs.enroll (by simp) rfl subset_rfl (by simp)
  | remote =>
    refine .bind (.get (.bind (.modify (.pure ?_))))
    refine ⟨?_, ⟨_, Function.update_self _ _ _⟩, hheld, hmap⟩
    exact hs.enroll (by simp) rfl (Finset.subset_insert _ _) (by simp)

/-- `Start`, of an object that is about to be enrolled. -/
theorem start_yields (hs : Inv kind (enroll t s)) (hx : s.heap t = some x) :
    Yields (start answers t) s
      (fun _ s' => Inv kind (enroll t s') ∧ s'.held = s.held ∧ s'.transactions = s.transactions)
      (fun _ s' => Inv kind (enroll t s') ∧ s'.heap = s.heap ∧ s'.held = s.held ∧
        s'.transactions = s.transactions) := by
  have hext : ∀ {s'}, Extends s s' → Inv kind (enroll t s') := by
    rintro _ ⟨issued, rfl, hsub, hb⟩
    exact Extends.inv (s := enroll t s) ⟨issued, rfl, hsub, hb⟩ hs
  refine .bind (deref_yields hx ?_)
  by_cases hinit : (x.initialized && !x.started) = true
  · simp only [hinit, if_true]
    have hinit' : x.initialized = true := (Bool.and_eq_true _ _ ▸ hinit).1
    have hdb := (hs.connected t x hx).2 hinit'
    refine .bind ((execute_yields hx hdb hs.begun (by simp)).imp ?_ ?_)
    · rintro _ s' ⟨-, hs', hbegin⟩
      refine .modify ⟨?_, ?_, ?_⟩
      · exact Inv.assign (x := { x with started := true }) (hext hs') (Finset.mem_insert_self _ _)
          ⟨hinit', hdb⟩ hbegin (hext hs').connections
      all_goals
        obtain ⟨issued, rfl, -, -⟩ := hs'
        rfl
    · rintro _ s' ⟨-, hs'⟩
      refine ⟨hext hs', ?_⟩
      obtain ⟨issued, rfl, -, -⟩ := hs'
      exact ⟨rfl, rfl, rfl⟩
  · simp only [hinit]
    exact .pure ⟨hs, rfl, rfl⟩

theorem startTransaction_yields (hs : Inv kind s) (answers : Answers) :
    Yields (startTransaction kind answers) s
      (fun t s' => Inv kind { s' with held := insert t s'.held }) (fun _ s' => Inv kind s') := by
  refine .bind ((construct_yields hs).imp ?_ fun _ _ h => h ▸ hs)
  rintro t s₁ ⟨hs₁, ⟨x, hx⟩, hheld, hmap⟩
  refine .bind (.tryCatch ((start_yields hs₁ hx).imp ?_ ?_))
  · rintro _ s₂ ⟨hs₂, -⟩
    exact .bind (.modify (.pure hs₂))
  · rintro e s₂ ⟨hs₂, hheap₂, hheld₂, hmap₂⟩
    have hslot : kind = .inMemory → s₂.activeInMemory = true :=
      fun hk => (hs₂.slot hk).2.mpr ⟨t, Finset.mem_insert_self _ _⟩
    refine .bind ((destroy_yields (hheap₂ ▸ hx) hslot).imp ?_ fun _ _ h => h.elim)
    rintro _ _ rfl
    have hclosed := hs₂.close (Finset.mem_insert_self t s₂.held)
    simp only [close, enroll, Finset.erase_insert (hheld₂ ▸ hheld),
      Finset.erase_insert (hmap₂ ▸ hmap)] at hclosed
    exact .throw hclosed

theorem getDB_yields (hs : Inv kind s) (ht : t ∈ s.held) (answers : Answers) :
    Yields (getDB answers t) s (fun _ s' => Inv kind s') (fun _ s' => Inv kind s') := by
  obtain ⟨x, hx⟩ := Option.isSome_iff_exists.mp ((hs.heap t).mpr ht)
  refine .bind (deref_yields hx ?_)
  cases x.initialized with
  | true => exact .pure hs
  | false =>
    cases answers.expired with
    | true => exact .bind (.throw hs)
    | false =>
      refine .bind (.pure ?_)
      cases answers.openDatabase with
      | some e => exact .throw hs
      | none =>
        have hext : ∀ b, Inv kind { s with issued := ⟨t, .begin, b⟩ :: s.issued } :=
          fun b => Extends.inv ⟨_, rfl, List.suffix_cons _ _, by simp, hs.begun⟩ hs
        refine .bind ((answer_yields answers t .begin s).imp ?_ ?_)
        · rintro _ _ ⟨-, rfl⟩
          refine .bind (.modify (.modify ?_))
          exact (hext true).assign ht ⟨rfl, rfl⟩ List.mem_cons_self
            (Finset.insert_subset ht hs.connections)
        · rintro e _ ⟨-, rfl⟩
          exact hext false

theorem commitTransaction_yields (hs : Inv kind s) (ht : t ∈ s.held) (answers : Answers) :
    Yields (commitTransaction kind answers t) s
      (fun _ s' => Inv kind { s' with held := s'.held.erase t }) (fun _ _ => False) := by
  obtain ⟨x, hx⟩ := Option.isSome_iff_exists.mp ((hs.heap t).mpr ht)
  -- whatever the statements do, only `issued` has changed when the object is extracted
  have hcatch : Yields (tryCatch (commit answers t >>= fun _ => pure none) fun e => do
      tryCatch (rollback answers t) fun _ => pure ()
      return some e) s (fun _ s' => Extends s s') (fun _ _ => False) := by
    refine .tryCatch (.bind ((commit_yields hs hx).imp (fun _ _ h => .pure h) ?_))
    intro e s₁ h₁
    have hx₁ : s₁.heap t = some x := by
      obtain ⟨_, rfl, -⟩ := h₁
      exact hx
    refine .bind (.tryCatch ((rollback_yields (h₁.inv hs) hx₁).imp ?_ ?_))
    · exact fun _ _ h₂ => .pure (h₁.trans h₂.2)
    · exact fun _ _ h₂ => .pure (.pure (h₁.trans h₂.2))
  refine .bind (hcatch.imp ?_ fun _ _ h => h)
  rintro _ s₁ hext
  have hs₁ := hext.inv hs
  have ht₁ : t ∈ s₁.held := by
    obtain ⟨_, rfl, -⟩ := hext
    exact ht
  refine .bind ((extractAndCloseAfterUnlock_yields hs₁ ht₁).imp ?_ fun _ _ h => h)
  intro _ s₂ h₂
  exact .pure (h₂ ▸ hs₁.close ht₁)

/-- `RollbackTransaction` ends the transaction, unless `ROLLBACK` throws: then it stays in the map. -/
theorem rollbackTransaction_yields (hs : Inv kind s) (ht : t ∈ s.held)
    (action : Call × Answers) (haction : action.1 = .rollbackTransaction t) :
    Yields (rollbackTransaction kind action.2 t) s
      (fun _ s' => ¬ RollbackThrows s action ∧ Inv kind { s' with held := s'.held.erase t })
      (fun _ s' => RollbackThrows s action ∧ t ∈ s'.transactions) := by
  obtain ⟨x, hx⟩ := Option.isSome_iff_exists.mp ((hs.heap t).mpr ht)
  have hthrows : RollbackThrows s action ↔
      x.started = true ∧ (action.2.execute .rollback).isSome = true := by
    simp [RollbackThrows, haction, hx]
  refine .bind ((rollback_yields hs hx).imp ?_ ?_)
  · rintro _ s₁ ⟨hok, hext⟩
    have ht₁ : t ∈ s₁.held := by
      obtain ⟨_, rfl, -⟩ := hext
      exact ht
    refine (extractAndCloseAfterUnlock_yields (hext.inv hs) ht₁).imp ?_ fun _ _ h => h.elim
    intro _ s₂ h₂
    exact ⟨fun h => hok (hthrows.mp h), h₂ ▸ (hext.inv hs).close ht₁⟩
  · rintro _ _ ⟨herr, _, rfl, -⟩
    exact ⟨hthrows.mpr herr, hs.transactions ▸ ht⟩

/-! ### Steps and runs -/

/-- A step that DuckDB may take and whose `ROLLBACK` does not throw out of `RollbackTransaction`. -/
theorem Inv.step (hs : Inv kind s) {action : Call × Answers} (hheld : Holds s action)
    (hthrows : ¬ RollbackThrows s action) :
    ∃ s', step kind s action = .ok s' ∧ Inv kind s' := by
  obtain ⟨call, answers⟩ := action
  cases call with
  | startTransaction =>
    rcases startTransaction_yields hs answers with ⟨_, _, hrun, h⟩ | ⟨_, _, hrun, h⟩
    all_goals exact ⟨_, by simp only [Transactions.step, hrun]; rfl, h⟩
  | getDB t =>
    rcases getDB_yields hs hheld answers with ⟨_, _, hrun, h⟩ | ⟨_, _, hrun, h⟩
    all_goals exact ⟨_, by simp only [Transactions.step, hrun]; rfl, h⟩
  | commitTransaction t =>
    rcases commitTransaction_yields hs hheld answers with
      ⟨_, _, hrun, h⟩ | ⟨_, _, _, h⟩
    · exact ⟨_, by simp only [Transactions.step, hrun]; rfl, h⟩
    · exact h.elim
  | rollbackTransaction t =>
    rcases rollbackTransaction_yields hs hheld (.rollbackTransaction t, answers) rfl with
      ⟨_, _, hrun, -, h⟩ | ⟨_, _, _, h, -⟩
    · exact ⟨_, by simp only [Transactions.step, hrun]; rfl, h⟩
    · exact absurd h hthrows

/-- After a `ROLLBACK` that throws, the map has a transaction that nobody holds. -/
theorem not_bookkept_of_rollbackThrows (hs : Inv kind s) {action : Call × Answers}
    (hheld : Holds s action) (hthrows : RollbackThrows s action)
    (hstep : step kind s action = .ok s') : ¬ Bookkept kind s' := by
  obtain ⟨call, answers⟩ := action
  cases call with
  | startTransaction | getDB _ | commitTransaction _ => exact hthrows.elim
  | rollbackTransaction t =>
    rcases rollbackTransaction_yields hs hheld (.rollbackTransaction t, answers) rfl with
      ⟨_, _, _, h, -⟩ | ⟨_, s₁, hrun, -, hmem⟩
    · exact absurd hthrows h
    · simp only [Transactions.step, hrun] at hstep
      cases hstep
      exact fun hb => (hb.released t (Finset.notMem_erase _ _)).1 hmem

/-- In every state that a run passes through, no fault has happened and the books are right. -/
def KeepsBooks (kind : DatabaseKind) (s : State) (calls : List (Call × Answers)) : Prop :=
  ∀ before, before <+: calls → ∃ s', run (step kind) s before = .ok s' ∧ Bookkept kind s'

theorem keepsBooks_nil (hs : Bookkept kind s) : KeepsBooks kind s [] := by
  intro before hbefore
  rw [List.prefix_nil.mp hbefore]
  exact ⟨s, rfl, hs⟩

theorem keepsBooks_cons (hs : Bookkept kind s) {action : Call × Answers}
    (hstep : step kind s action = .ok s') (calls : List (Call × Answers)) :
    KeepsBooks kind s (action :: calls) ↔ KeepsBooks kind s' calls := by
  constructor
  · intro h before hbefore
    rw [← run_cons_of_ok hstep]
    exact h (action :: before) (List.cons_prefix_cons.mpr ⟨rfl, hbefore⟩)
  · intro h before hbefore
    rcases List.prefix_cons_iff.mp hbefore with rfl | ⟨rest, rfl, hrest⟩
    · exact ⟨s, rfl, hs⟩
    · rw [run_cons_of_ok hstep]
      exact h rest hrest

/-- The run lemma: from a state with the invariant. -/
theorem Inv.keepsBooks_iff (hs : Inv kind s) {calls : List (Call × Answers)}
    (hheld : Allowed Holds (Transactions.step kind) s calls) :
    KeepsBooks kind s calls ↔
      Allowed (fun s action => ¬ RollbackThrows s action) (Transactions.step kind) s calls := by
  induction calls generalizing s with
  | nil => exact ⟨fun _ => trivial, fun _ => keepsBooks_nil hs.bookkept⟩
  | cons action calls ih =>
    by_cases hthrows : RollbackThrows s action
    · refine ⟨fun h => ?_, fun h => absurd hthrows h.1⟩
      obtain ⟨s', hrun, hbooks⟩ := h [action] ⟨calls, rfl⟩
      obtain ⟨s₁, hstep, hrun⟩ := bind_eq_ok.mp hrun
      cases hrun
      exact absurd hbooks (not_bookkept_of_rollbackThrows hs hheld.1 hthrows hstep)
    · obtain ⟨s₁, hstep, hs₁⟩ := hs.step hheld.1 hthrows
      rw [keepsBooks_cons hs.bookkept hstep, ih hs₁ (hheld.2 s₁ hstep)]
      constructor
      · intro h
        refine ⟨hthrows, fun s₂ hs₂ => ?_⟩
        rw [hstep] at hs₂
        cases hs₂
        exact h
      · exact fun h => h.2 s₁ hstep

/-- **The bookkeeping of transactions.** Let DuckDB start, use and end transactions in any order, each
ended at most once, and let any statement throw. Then the books are right throughout exactly when no
`RollbackTransaction` meets a `ROLLBACK` that throws on a transaction that has begun. -/
theorem bookkept_iff (kind : DatabaseKind) (calls : List (Call × Answers))
    (hheld : Allowed Holds (step kind) init calls) :
    KeepsBooks kind init calls ↔
      Allowed (fun s action => ¬ RollbackThrows s action) (step kind) init calls :=
  (inv_init kind).keepsBooks_iff hheld

/-- Everything succeeds. -/
def succeeds : Answers where
  openDatabase := none
  execute := fun _ => none
  expired := false

/-- SQLite has rolled back on its own. -/
def alreadyRolledBack : Answers where
  openDatabase := none
  execute
    | .rollback => some "cannot rollback - no transaction is active"
    | _ => none
  expired := false

/-- A transaction on a local file whose `COMMIT` and `ROLLBACK` both fail. -/
theorem bookkept_of_failed_commit :
    KeepsBooks .local init
      [(.startTransaction, succeeds),
        (.commitTransaction 0, { succeeds with execute := fun _ => some "disk I/O error" })] := by
  refine (bookkept_iff .local _ ?_).mpr ?_
  all_goals
    refine ⟨by simp [Holds, RollbackThrows], fun s hs => ?_⟩
    cases hs
    exact ⟨by simp [Holds, RollbackThrows, init], fun _ _ => trivial⟩

/-- A `ROLLBACK` that fails leaves the in-memory database with an active slot and no transaction: the
next `StartTransaction` is refused. -/
theorem rollback_leaks_slot :
    ∃ s, run (step .inMemory) init
        [(.startTransaction, succeeds), (.rollbackTransaction 0, alreadyRolledBack)] = .ok s ∧
      s.held = ∅ ∧ s.activeInMemory = true ∧ 0 ∈ s.transactions ∧ ¬ Bookkept .inMemory s ∧
      ∃ s', startTransaction .inMemory succeeds s =
        .ok (.error ("Only a single transaction can be active on an " ++
          "in-memory SQLite database at a time"), s') := by
  refine ⟨_, rfl, rfl, rfl, by decide, fun h => ?_, _, rfl⟩
  exact (h.released 0 (by decide)).1 (by decide)

end SqliteScanner.Transactions
