import Mathlib.Algebra.Order.Group.Int
import Mathlib.Algebra.Order.Ring.Abs
import Mathlib.Algebra.Order.Ring.Int
import Mathlib.Algebra.Ring.Int.Parity
import Mathlib.Tactic.Linarith
import Mathlib.Tactic.Ring

/-!
# The nearest multiple of an integer

A multiple of `b` is nearest to an integer if it is at most `b / 2` away. There are two such
multiples if the integer is halfway between them, and a tie rule chooses one: the one with the
larger absolute value, or the one with an even factor.

## Main definitions

* `Tie` — the two rules.
* `Rounds` — a nearest multiple, chosen by a rule.

## Main results

* `rounds_iff` — how far a nearest multiple is away.
* `Rounds.eq` — there is at most one.
* `Rounds.neg` — the rules do not depend on the sign.
-/

namespace Multiples

inductive Tie where
  | awayFromZero
  | toEven
  deriving DecidableEq

/-- The rule chooses `b * q` for an `x` that is halfway. -/
def Tie.Chooses : Tie → (b x q : ℤ) → Prop
  | .awayFromZero, b, x, q => |x| < |b * q|
  | .toEven, _, _, q => Even q

/-- `b * q` is the multiple of `b` that is nearest to `x`. -/
structure Rounds (tie : Tie) (b x q : ℤ) : Prop where
  le : ∀ j, |x - b * q| ≤ |x - b * j|
  chooses : 2 * |x - b * q| = b → tie.Chooses b x q

variable {tie : Tie} {b x q r : ℤ}

/-- Two multiples are at least `b` apart. -/
theorem le_abs_sub (hb : 0 < b) (h : q ≠ r) : b ≤ |b * q - b * r| := by
  rw [← mul_sub, abs_mul, abs_of_pos hb]
  exact le_mul_of_one_le_right hb.le (Int.one_le_abs (sub_ne_zero.mpr h))

theorem forall_abs_sub_le_iff (hb : 0 < b) :
    (∀ j, |x - b * q| ≤ |x - b * j|) ↔ 2 * |x - b * q| ≤ b := by
  refine ⟨fun h => ?_, fun h j => ?_⟩
  · -- The multiples next to `b * q` are not nearer.
    have hnext := h (q + 1)
    have hprevious := h (q - 1)
    rw [mul_add, mul_one] at hnext
    rw [mul_sub, mul_one] at hprevious
    simp only [Int.abs_eq_natAbs] at *
    omega
  · by_cases hj : q = j
    · rw [hj]
    · have happart := le_abs_sub hb hj
      simp only [Int.abs_eq_natAbs] at *
      omega

/-- **A nearest multiple is at most `b / 2` away.** -/
theorem rounds_iff (hb : 0 < b) :
    Rounds tie b x q ↔ 2 * |x - b * q| ≤ b ∧ (2 * |x - b * q| = b → tie.Chooses b x q) := by
  rw [← forall_abs_sub_le_iff hb]
  exact ⟨fun h => ⟨h.le, h.chooses⟩, fun h => ⟨h.1, h.2⟩⟩

/-- Of two multiples next to each other a rule chooses one at most. -/
theorem Tie.not_chooses_succ (hb : 0 < b) (hx : 2 * (x - b * q) = b) (h : tie.Chooses b x q) :
    ¬tie.Chooses b x (q + 1) := by
  cases tie with
  | toEven => exact Int.even_add_one.not_left.mpr h
  | awayFromZero =>
    -- No multiple is between `b * q` and the next one, so `0` is not.
    have hzero : 0 ≤ b * q ∨ b * q + b ≤ 0 := by
      rcases le_or_gt 0 q with hq | hq
      · exact .inl (mul_nonneg hb.le hq)
      · exact .inr (by nlinarith)
    simp only [Tie.Chooses, mul_add, mul_one, Int.abs_eq_natAbs] at *
    omega

/-- **There is at most one nearest multiple that the rule chooses.** -/
theorem Rounds.eq (hb : 0 < b) (hq : Rounds tie b x q) (hr : Rounds tie b x r) : q = r := by
  wlog hle : q ≤ r generalizing q r
  · exact (this hr hq (le_of_not_ge hle)).symm
  obtain ⟨hq, hchooses⟩ := (rounds_iff hb).mp hq
  obtain ⟨hr, hchooses'⟩ := (rounds_iff hb).mp hr
  by_contra hne
  obtain ⟨k, rfl⟩ : ∃ k, r = q + k := ⟨r - q, by ring⟩
  have hk : 1 ≤ k := by omega
  have happart : b ≤ b * k := le_mul_of_one_le_right hb.le hk
  rw [mul_add] at hr hchooses'
  simp only [Int.abs_eq_natAbs] at *
  -- Both are `b / 2` away, so they are next to each other.
  have htie : 2 * (x - b * q) = b := by omega
  have hbk : b * k = b := by omega
  obtain rfl : k = 1 := mul_left_cancel₀ hb.ne' (hbk.trans (mul_one b).symm)
  exact Tie.not_chooses_succ hb htie (hchooses (by omega)) (hchooses' (by omega))

theorem Tie.Chooses.neg (h : tie.Chooses b x q) : tie.Chooses b (-x) (-q) := by
  cases tie with
  | toEven => exact Even.neg h
  | awayFromZero =>
    simp only [Tie.Chooses] at h ⊢
    rwa [mul_neg, abs_neg, abs_neg]

/-- **The rules do not depend on the sign.** -/
theorem Rounds.neg (hb : 0 < b) (h : Rounds tie b x q) : Rounds tie b (-x) (-q) := by
  have habs : |-x - b * -q| = |x - b * q| := by
    rw [mul_neg, sub_neg_eq_add, ← abs_neg, neg_add, neg_neg, sub_eq_add_neg]
  rw [rounds_iff hb, habs]
  obtain ⟨hle, hchooses⟩ := (rounds_iff hb).mp h
  exact ⟨hle, fun htie => (hchooses htie).neg⟩

end Multiples
