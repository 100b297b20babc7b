import Mathlib.Data.List.Basic

/-!
# Aggregates over a moving frame

An aggregate over a frame of rows gets the value of each row that enters the frame, and may be told of
each row that leaves it again. Rows leave in the order in which they have entered, and with the value
that they had then: the frame is a queue (`Protocol`).

What the state of the aggregate has to do with the frame is an invariant of two cases, one for entering
and one for leaving, and `run_ok` gives it for every run.
-/

namespace Windows

variable {V S ε : Type}

/-- A row enters the frame, or leaves it. -/
inductive Call (V : Type) where
  | step (v : V)
  | inverse (v : V)

/-- The frame after calls. -/
def frameAfter : List V → List (Call V) → List V
  | frame, [] => frame
  | frame, .step v :: calls => frameAfter (frame ++ [v]) calls
  | frame, .inverse _ :: calls => frameAfter frame.tail calls

/-- Rows leave in the order in which they have entered. Whenever one enters, the frame is `Bounded`. -/
def Protocol (Bounded : List V → Prop) : List V → List (Call V) → Prop
  | _, [] => True
  | frame, .step v :: calls =>
    Bounded (frame ++ [v]) ∧ Protocol Bounded (frame ++ [v]) calls
  | frame, .inverse v :: calls => frame.head? = some v ∧ Protocol Bounded frame.tail calls

/-- An aggregate, with what it does for a row that enters and for one that leaves. -/
structure Aggregate (V S ε : Type) where
  step : S → V → Except ε S
  inverse : S → V → Except ε S

def Aggregate.run (aggregate : Aggregate V S ε) : S → List (Call V) → Except ε S
  | s, [] => .ok s
  | s, .step v :: calls => aggregate.step s v >>= fun s' => aggregate.run s' calls
  | s, .inverse v :: calls => aggregate.inverse s v >>= fun s' => aggregate.run s' calls

/-- **The invariant of an aggregate holds after every run.** -/
theorem Aggregate.run_ok (aggregate : Aggregate V S ε) {Bounded : List V → Prop}
    {R : S → List V → Prop}
    (hstep : ∀ s frame v, R s frame → Bounded (frame ++ [v]) →
      ∃ s', aggregate.step s v = .ok s' ∧ R s' (frame ++ [v]))
    (hinverse : ∀ s frame v, R s (v :: frame) → ∃ s', aggregate.inverse s v = .ok s' ∧ R s' frame) :
    ∀ {calls : List (Call V)} {s : S} {frame : List V}, R s frame → Protocol Bounded frame calls →
      ∃ s', aggregate.run s calls = .ok s' ∧ R s' (frameAfter frame calls)
  | [], s, _, hs, _ => ⟨s, rfl, hs⟩
  | .step v :: calls, s, frame, hs, hcalls => by
    obtain ⟨s', hok, hs'⟩ := hstep s frame v hs hcalls.1
    obtain ⟨s'', hrun, hs''⟩ := run_ok aggregate hstep hinverse hs' hcalls.2
    exact ⟨s'', by rw [run, hok]; exact hrun, hs''⟩
  | .inverse v :: calls, s, frame, hs, hcalls => by
    obtain ⟨rest, rfl⟩ := List.head?_eq_some_iff.mp hcalls.1
    obtain ⟨s', hok, hs'⟩ := hinverse s rest v hs
    obtain ⟨s'', hrun, hs''⟩ := run_ok aggregate hstep hinverse hs' hcalls.2
    exact ⟨s'', by rw [run, hok]; exact hrun, hs''⟩

end Windows
