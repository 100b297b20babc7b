import Mathlib.Data.List.Basic
import Mathlib.Data.List.Count
import Mathlib.Order.Interval.Basic

/-!
# Lists of intervals that tile a range

A work queue hands out a range of numbers piece by piece: each piece starts where the previous one
ended. `Tiles a b ps` says that the closed intervals `ps`, in this order, are such a division of
the half-open range `[a, b)`.

Everything one wants to know about the division follows from that one predicate, and only the
append lemma `Tiles.concat` is needed to establish it: the queue adds its pieces at the end.

## Main results

* `Tiles.concat` — handing out one more piece
* `Tiles.pairwise` — the pieces are increasing, hence disjoint
* `Tiles.countP_eq_one` — every number of the range lies in exactly one piece
* `Tiles.flatMap_filter_perm` — what the pieces select is everything, once
* `Tiles.length_le` — there are at most as many pieces as numbers
-/

namespace Tiling

/-- The intervals `[p.1, p.2]` of `ps` are non-empty, adjacent and in order, and their union is
`[a, b)`. -/
def Tiles (a b : ℕ) : List (ℕ × ℕ) → Prop
  | [] => a = b
  | p :: ps => p.1 = a ∧ p.1 ≤ p.2 ∧ Tiles (p.2 + 1) b ps

@[simp] theorem tiles_nil {a b : ℕ} : Tiles a b [] ↔ a = b := Iff.rfl

variable {ps : List (ℕ × ℕ)}

/-- Handing out the piece `[b, c]` moves the end of the range from `b` to `c + 1`. -/
theorem Tiles.concat {a b c : ℕ} (h : Tiles a b ps) (hbc : b ≤ c) :
    Tiles a (c + 1) (ps ++ [(b, c)]) := by
  induction ps generalizing a with
  | nil => exact ⟨h.symm, hbc, rfl⟩
  | cons p ps ih => exact ⟨h.1, h.2.1, ih h.2.2⟩

theorem Tiles.le {a b : ℕ} (h : Tiles a b ps) : a ≤ b := by
  induction ps generalizing a with
  | nil => exact Nat.le_of_eq h
  | cons p ps ih =>
    obtain ⟨hp, hle, hrest⟩ := h
    have := ih hrest
    omega

/-- Every piece lies inside the range. -/
theorem Tiles.bounds {a b : ℕ} (h : Tiles a b ps) :
    ∀ p ∈ ps, a ≤ p.1 ∧ p.1 ≤ p.2 ∧ p.2 < b := by
  induction ps generalizing a with
  | nil => simp
  | cons p ps ih =>
    obtain ⟨hp, hle, hrest⟩ := h
    intro q hq
    rcases List.mem_cons.mp hq with rfl | hq
    · have := hrest.le
      omega
    · have := ih hrest q hq
      omega

theorem Tiles.pairwise {a b : ℕ} (h : Tiles a b ps) :
    ps.Pairwise fun p q => p.2 < q.1 := by
  induction ps generalizing a with
  | nil => exact List.Pairwise.nil
  | cons p ps ih =>
    obtain ⟨_, _, hrest⟩ := h
    refine List.Pairwise.cons (fun q hq => ?_) (ih hrest)
    have := hrest.bounds q hq
    omega

/-- No piece contains a number outside the range. -/
theorem Tiles.countP_eq_zero {a b x : ℕ} (h : Tiles a b ps) (hx : x < a) :
    ps.countP (fun p => p.1 ≤ x ∧ x ≤ p.2) = 0 := by
  refine List.countP_eq_zero.mpr fun p hp => ?_
  have := h.bounds p hp
  simp only [decide_eq_true_eq, not_and]
  omega

/-- **Coverage.** Every number of the range lies in exactly one piece. -/
theorem Tiles.countP_eq_one {a b x : ℕ} (h : Tiles a b ps) (hax : a ≤ x)
    (hxb : x < b) : ps.countP (fun p => p.1 ≤ x ∧ x ≤ p.2) = 1 := by
  induction ps generalizing a with
  | nil =>
    rw [tiles_nil] at h
    omega
  | cons p ps ih =>
    obtain ⟨hp, hle, hrest⟩ := h
    rcases Nat.lt_or_ge p.2 x with hlt | hge
    · rw [List.countP_cons_of_neg (by simp; omega)]
      exact ih hrest hlt
    · rw [List.countP_cons_of_pos (by simp; omega), hrest.countP_eq_zero (by omega)]

/-- **Every item is selected by one piece**, if its number is in the range. -/
theorem Tiles.flatMap_filter_perm {α : Type*} {a b : ℕ} (h : Tiles a b ps)
    (f : α → ℕ) {l : List α} (hl : ∀ x ∈ l, a ≤ f x ∧ f x < b) :
    List.Perm (ps.flatMap fun p => l.filter fun x => p.1 ≤ f x ∧ f x ≤ p.2) l := by
  induction ps generalizing a l with
  | nil =>
    cases l with
    | nil => rfl
    | cons x l =>
      have := hl x List.mem_cons_self
      rw [tiles_nil] at h
      omega
  | cons p ps ih =>
    obtain ⟨hp, hle, hrest⟩ := h
    have hfirst : (l.filter fun x => p.1 ≤ f x ∧ f x ≤ p.2) = l.filter fun x => f x ≤ p.2 := by
      refine List.filter_congr fun x hx => decide_eq_decide.mpr (and_iff_right ?_)
      have := hl x hx
      omega
    -- the other pieces start after the first one
    have hothers : (ps.flatMap fun q => l.filter fun x => q.1 ≤ f x ∧ f x ≤ q.2) =
        ps.flatMap fun q => (l.filter fun x => !decide (f x ≤ p.2)).filter
          fun x => q.1 ≤ f x ∧ f x ≤ q.2 := by
      refine List.flatMap_congr fun q hq => ?_
      have := hrest.bounds q hq
      rw [List.filter_filter]
      refine List.filter_congr fun x _ => ?_
      rw [← decide_not, ← Bool.decide_and, decide_eq_decide]
      omega
    have htail := ih hrest (l := l.filter fun x => !decide (f x ≤ p.2)) fun x hx => by
      obtain ⟨hmem, hgt⟩ := List.mem_filter.mp hx
      have := hl x hmem
      simp only [Bool.not_eq_true', decide_eq_false_iff_not] at hgt
      omega
    rw [List.flatMap_cons, hfirst, hothers]
    exact (htail.append_left _).trans (List.filter_append_perm _ l)

/-- Every piece takes at least one number of the range. -/
theorem Tiles.length_le {a b : ℕ} (h : Tiles a b ps) : ps.length + a ≤ b := by
  induction ps generalizing a with
  | nil => simpa using h.le
  | cons p ps ih =>
    obtain ⟨hp, hle, hrest⟩ := h
    have := ih hrest
    simp only [List.length_cons]
    omega

end Tiling
