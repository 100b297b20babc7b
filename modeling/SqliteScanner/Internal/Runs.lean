import Mathlib.Data.List.Basic
import Mathlib.Data.List.Forall2

/-!
# Runs of a step function that can fail

A component is a state type, a type of actions and a step function `step : σ → α → Except ε σ`. An
error is a *fault*: something the component must never do. Which actions the environment may
choose in a state is a relation `allowed`, kept apart from `step`: what the environment promises
is a hypothesis about runs and not a branch of the code.

The one rule is `run_ok`: an invariant that every allowed step keeps, and under which no allowed
step faults, holds at the end of every allowed run, and no such run faults. Every state a run
passes through is the end of a shorter run, so this is a statement about all of them.

A computation with a state that can fail has rules of its own: `Ensures x s Q` says what holds of the
result and of the state after `x`, if it is started in the state `s` and does not fail.

A procedure of a language with exceptions is different again: an exception can be caught, and the
state it was thrown in is kept. `Proc` has both exceptions and faults, and `Yields x s Q R` says that
`x` does not fault, that `Q` holds if it returns, and that `R` holds if it throws.
-/

namespace Runs

variable {σ α ε : Type}

/-- A sequence succeeds when both its parts do. -/
theorem bind_eq_ok {β : Type} {x : Except ε α} {f : α → Except ε β} {b : β} :
    x >>= f = .ok b ↔ ∃ a, x = .ok a ∧ f a = .ok b := by
  cases x with
  | error e | ok a => simp [bind, Except.bind]

theorem map_eq_ok {β : Type} {x : Except ε α} {f : α → β} {b : β} :
    (x >>= fun a => .ok (f a)) = .ok b ↔ ∃ a, x = .ok a ∧ f a = b := by
  simp only [bind_eq_ok, Except.ok.injEq]

theorem exists_eq_ok_of_isOk {x : Except ε α} (h : x.isOk = true) : ∃ a, x = .ok a := by
  cases x with
  | error e => cases h
  | ok a => exact ⟨a, rfl⟩

theorem forall₂_of_mapM {β : Type} {f : α → Except ε β} :
    ∀ {l : List α} {l' : List β}, l.mapM f = .ok l' → List.Forall₂ (fun a b => f a = .ok b) l l'
  | [], l', h => by
    obtain rfl := Except.ok.inj h
    exact .nil
  | a :: l, l', h => by
    rw [List.mapM_cons] at h
    obtain ⟨b, hb, h⟩ := bind_eq_ok.mp h
    obtain ⟨bs, hbs, rfl⟩ := map_eq_ok.mp h
    exact .cons hb (forall₂_of_mapM hbs)

/-! ### Computations with a state -/

section Ensures

variable {β γ : Type} {s : σ} {Q R : β → σ → Prop}

/-- If a computation is started in the state `s` and does not fail, then what it returns and the
state that it leaves satisfy `Q`. -/
def Ensures (x : StateT σ (Except ε) β) (s : σ) (Q : β → σ → Prop) : Prop :=
  ∀ b s', x s = .ok (b, s') → Q b s'

theorem Ensures.imp {x : StateT σ (Except ε) β} (h : Ensures x s Q)
    (hQ : ∀ b s', Q b s' → R b s') : Ensures x s R :=
  fun b s' hx => hQ b s' (h b s' hx)

theorem Ensures.pure {b : β} (h : Q b s) : Ensures (Pure.pure b : StateT σ (Except ε) β) s Q := by
  intro b' s' hx
  cases hx
  exact h

theorem Ensures.bind {x : StateT σ (Except ε) γ} {f : γ → StateT σ (Except ε) β}
    (h : Ensures x s fun c s' => Ensures (f c) s' Q) : Ensures (x >>= f) s Q := by
  intro b s' hx
  obtain ⟨⟨c, s₁⟩, hc, hf⟩ := bind_eq_ok.mp hx
  exact h c s₁ hc b s' hf

/-- The second computation is started with what the first one ensures. -/
theorem Ensures.seq {x : StateT σ (Except ε) γ} {f : γ → StateT σ (Except ε) β} {P : γ → σ → Prop}
    (h : Ensures x s P) (hf : ∀ c s', P c s' → Ensures (f c) s' Q) : Ensures (x >>= f) s Q :=
  (h.imp hf).bind

/-- A computation that does not use the state leaves it as it is. -/
theorem Ensures.lift {x : Except ε β} (h : ∀ b, x = .ok b → Q b s) :
    Ensures (liftM x : StateT σ (Except ε) β) s Q := by
  intro b s' hx
  obtain ⟨c, hc, hpure⟩ := bind_eq_ok.mp hx
  cases hpure
  exact h b hc

theorem Ensures.throw {e : ε} : Ensures (throw e : StateT σ (Except ε) β) s Q := by
  intro b s' hx
  cases hx

theorem Ensures.modify {f : σ → σ} {Q : PUnit → σ → Prop} (h : Q ⟨⟩ (f s)) :
    Ensures (modify f : StateT σ (Except ε) PUnit) s Q := by
  intro b s' hx
  cases hx
  exact h

theorem Ensures.get {Q : σ → σ → Prop} (h : Q s s) :
    Ensures (get : StateT σ (Except ε) σ) s Q := by
  intro b s' hx
  cases hx
  exact h

end Ensures

/-! ### Procedures that throw -/

section Yields

variable {φ β : Type} {s : σ} {Q Q' : α → σ → Prop} {R R' : ε → σ → Prop}

/-- A procedure returns or throws, and leaves a state in both cases. A fault leaves none. -/
abbrev Proc (φ σ ε α : Type) := ExceptT ε (StateT σ (Except φ)) α

/-- What must not happen, happens. -/
def Proc.fault (f : φ) : Proc φ σ ε α := ExceptT.lift (StateT.lift (.error f))

/-- Started in the state `s`, the procedure does not fault; if it returns `Q` holds, and if it throws
`R` holds. -/
def Yields (x : Proc φ σ ε α) (s : σ) (Q : α → σ → Prop) (R : ε → σ → Prop) : Prop :=
  (∃ a s', x s = .ok (.ok a, s') ∧ Q a s') ∨ ∃ e s', x s = .ok (.error e, s') ∧ R e s'

theorem Yields.imp {x : Proc φ σ ε α} (h : Yields x s Q R) (hQ : ∀ a s', Q a s' → Q' a s')
    (hR : ∀ e s', R e s' → R' e s') : Yields x s Q' R' := by
  rcases h with ⟨a, s', hx, h⟩ | ⟨e, s', hx, h⟩
  · exact .inl ⟨a, s', hx, hQ a s' h⟩
  · exact .inr ⟨e, s', hx, hR e s' h⟩

theorem Yields.and {x : Proc φ σ ε α} (h : Yields x s Q R) (h' : Yields x s Q' R') :
    Yields x s (fun a s' => Q a s' ∧ Q' a s') fun e s' => R e s' ∧ R' e s' := by
  rcases h with ⟨a, s₁, hx, h⟩ | ⟨e, s₁, hx, h⟩ <;>
    rcases h' with ⟨a', s₂, hx', h'⟩ | ⟨e', s₂, hx', h'⟩ <;> cases hx.symm.trans hx'
  · exact .inl ⟨a, s₁, hx, h, h'⟩
  · exact .inr ⟨e, s₁, hx, h, h'⟩

theorem Yields.pure {a : α} (h : Q a s) : Yields (Pure.pure a : Proc φ σ ε α) s Q R :=
  .inl ⟨a, s, rfl, h⟩

theorem Yields.throw {e : ε} (h : R e s) : Yields (throw e : Proc φ σ ε α) s Q R :=
  .inr ⟨e, s, rfl, h⟩

theorem Yields.get {Q : σ → σ → Prop} (h : Q s s) : Yields (get : Proc φ σ ε σ) s Q R :=
  .inl ⟨s, s, rfl, h⟩

theorem Yields.modify {f : σ → σ} {Q : PUnit → σ → Prop} (h : Q ⟨⟩ (f s)) :
    Yields (modify f : Proc φ σ ε PUnit) s Q R :=
  .inl ⟨⟨⟩, f s, rfl, h⟩

theorem Yields.bind {x : Proc φ σ ε β} {f : β → Proc φ σ ε α}
    (h : Yields x s (fun b s' => Yields (f b) s' Q R) R) : Yields (x >>= f) s Q R := by
  have hbind : (x >>= f) s = x s >>= fun r =>
      match r.1 with
      | .ok b => f b r.2
      | .error e => .ok (.error e, r.2) := by
    change (x s >>= _) = _
    congr 1
    funext r
    rcases r with ⟨_ | _, _⟩ <;> rfl
  rcases h with ⟨b, s', hx, h⟩ | ⟨e, s', hx, h⟩
  · rcases h with ⟨a, s₂, hf, h⟩ | ⟨e, s₂, hf, h⟩
    · exact .inl ⟨a, s₂, by rw [hbind, hx]; exact hf, h⟩
    · exact .inr ⟨e, s₂, by rw [hbind, hx]; exact hf, h⟩
  · exact .inr ⟨e, s', by rw [hbind, hx]; rfl, h⟩

theorem Yields.tryCatch {x : Proc φ σ ε α} {f : ε → Proc φ σ ε α}
    (h : Yields x s Q fun e s' => Yields (f e) s' Q R) : Yields (MonadExcept.tryCatch x f) s Q R := by
  have htry : (MonadExcept.tryCatch x f : Proc φ σ ε α) s = x s >>= fun r =>
      match r.1 with
      | .ok a => .ok (.ok a, r.2)
      | .error e => f e r.2 := by
    change (x s >>= _) = _
    congr 1
    funext r
    rcases r with ⟨_ | _, _⟩ <;> rfl
  rcases h with ⟨a, s', hx, h⟩ | ⟨e, s', hx, h⟩
  · exact .inl ⟨a, s', by rw [htry, hx]; rfl, h⟩
  · rcases h with ⟨a, s₂, hf, h⟩ | ⟨e, s₂, hf, h⟩
    · exact .inl ⟨a, s₂, by rw [htry, hx]; exact hf, h⟩
    · exact .inr ⟨e, s₂, by rw [htry, hx]; exact hf, h⟩

end Yields

/-! ### Runs -/

/-- Take the actions of a list one after the other, up to the first fault. -/
def run (step : σ → α → Except ε σ) : σ → List α → Except ε σ
  | s, [] => .ok s
  | s, a :: as => step s a >>= fun s' => run step s' as

/-- Every action of the list is allowed in the state in which it is taken. -/
def Allowed (allowed : σ → α → Prop) (step : σ → α → Except ε σ) : σ → List α → Prop
  | _, [] => True
  | s, a :: as => allowed s a ∧ ∀ s', step s a = .ok s' → Allowed allowed step s' as

variable {step : σ → α → Except ε σ} {allowed : σ → α → Prop}

theorem run_cons_of_ok {s s' : σ} {a : α} (h : step s a = .ok s') (as : List α) :
    run step s (a :: as) = run step s' as := by
  simp [run, h, Except.bind, bind]

/-- **The invariant rule.** -/
theorem run_ok {Inv : σ → Prop}
    (hstep : ∀ s a, Inv s → allowed s a → ∃ s', step s a = .ok s' ∧ Inv s') {s : σ} (hs : Inv s)
    {as : List α} (has : Allowed allowed step s as) :
    ∃ s', run step s as = .ok s' ∧ Inv s' := by
  induction as generalizing s with
  | nil => exact ⟨s, rfl, hs⟩
  | cons a as ih =>
    obtain ⟨s₁, hs₁, hinv⟩ := hstep s a hs has.1
    obtain ⟨s', hrun, hs'⟩ := ih hinv (has.2 s₁ hs₁)
    exact ⟨s', by rw [run_cons_of_ok hs₁, hrun], hs'⟩

/-- The invariant rule for an environment that may do anything. -/
theorem run_ok_of_forall {Inv : σ → Prop}
    (hstep : ∀ s a, Inv s → ∃ s', step s a = .ok s' ∧ Inv s') {s : σ} (hs : Inv s)
    (as : List α) : ∃ s', run step s as = .ok s' ∧ Inv s' := by
  have hall : ∀ s, Allowed (fun _ _ => True) step s as := by
    induction as with
    | nil => exact fun _ => trivial
    | cons a as ih => exact fun s => ⟨trivial, fun s' _ => ih s'⟩
  exact run_ok (fun s a hs _ => hstep s a hs) hs (hall s)

end Runs
