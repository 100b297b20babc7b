import Mathlib.Algebra.Order.Field.Power
import Mathlib.Algebra.Order.Field.Rat
import Mathlib.Data.Nat.Size
import Mathlib.Tactic.Linarith
import Mathlib.Tactic.Ring

/-!
# Rounding integers to a binary precision

A binary floating-point format of precision `p` represents the numbers `m * 2 ^ e` with `|m| < 2 ^ p`.
An integer that needs more than `p` bits is rounded to the nearest of them, and from halfway between two
to the one with an even mantissa.

Of this function little is needed once it is known to give a *nearest* point. `IsNearest` is that
relation, for any set of points: it fixes the points of the set, and it does not turn the order around.
What it may do is make two numbers equal.

## Main results

* `IsNearest.eq_of_mem`, `IsNearest.le_of_lt` — the two facts about nearest points.
* `isNearest_round` — rounding gives a nearest point.
-/

namespace Rounding

/-! ### Nearest points -/

section Nearest

variable {K : Type*} [Field K] [LinearOrder K] [IsStrictOrderedRing K] {points : Set K} {x y a b : K}

/-- No point is nearer to `x` than `a`. -/
structure IsNearest (points : Set K) (x a : K) : Prop where
  mem : a ∈ points
  le : ∀ b ∈ points, |x - a| ≤ |x - b|

theorem IsNearest.eq_of_mem (h : IsNearest points x a) (hx : x ∈ points) : a = x := by
  have hle := h.le x hx
  rw [sub_self, abs_zero] at hle
  exact (sub_eq_zero.mp (abs_eq_zero.mp (le_antisymm hle (abs_nonneg _)))).symm

theorem IsNearest.of_mem (hx : x ∈ points) : IsNearest points x x where
  mem := hx
  le := fun b _ => by simp

theorem IsNearest.le_of_lt (ha : IsNearest points x a) (hb : IsNearest points y b) (h : x < y) :
    a ≤ b := by
  by_contra hba
  push Not at hba
  -- both lie on the far side of the middle of `b` and `a`
  have hxa : a + b ≤ 2 * x := by
    have hsq := sq_le_sq.mpr (ha.le b hb.mem)
    nlinarith
  have hyb : 2 * y ≤ a + b := by
    have hsq := sq_le_sq.mpr (hb.le a ha.mem)
    nlinarith
  linarith

omit [IsStrictOrderedRing K] in
theorem IsNearest.of_subset {points' : Set K} (h : IsNearest points x a) (ha : a ∈ points')
    (hsub : points' ⊆ points) : IsNearest points' x a where
  mem := ha
  le := fun b hb => h.le b (hsub hb)

omit [IsStrictOrderedRing K] in
theorem IsNearest.neg (h : IsNearest points x a) (hneg : ∀ b ∈ points, -b ∈ points) :
    IsNearest points (-x) (-a) where
  mem := hneg a h.mem
  le := by
    intro b hb
    calc |-x - -a| = |x - a| := by rw [neg_sub_neg, abs_sub_comm]
      _ ≤ |x - -b| := h.le (-b) (hneg b hb)
      _ = |-x - b| := by rw [sub_neg_eq_add, ← neg_add', abs_neg]

end Nearest

/-! ### The points of a binary format -/

/-- The numbers of precision `p`, with any exponent. -/
def grid (p : ℕ) : Set ℚ := {x | ∃ m e : ℤ, |m| < 2 ^ p ∧ x = m * 2 ^ e}

theorem neg_mem_grid {p : ℕ} {x : ℚ} (h : x ∈ grid p) : -x ∈ grid p := by
  obtain ⟨m, e, hm, rfl⟩ := h
  exact ⟨-m, e, by rwa [abs_neg], by rw [Int.cast_neg, neg_mul]⟩

/-- Round a natural number to the precision `p`: to the nearest multiple of `2 ^ k`, where `k` is the
number of bits that are too many, and from halfway to the even multiple. -/
def roundNat (p n : ℕ) : ℕ :=
  let k := n.size - p
  let q := n / 2 ^ k
  let r := n % 2 ^ k
  if 2 ^ k < 2 * r ∨ (2 * r = 2 ^ k ∧ q % 2 = 1) then (q + 1) * 2 ^ k else q * 2 ^ k

/-- Round an integer to the precision `p`. -/
def round (p : ℕ) (i : ℤ) : ℤ := if 0 ≤ i then roundNat p i.natAbs else -roundNat p i.natAbs

/-- The rounded number is one of the two multiples next to `n`, and at most as far as the other. -/
theorem roundNat_eq (p n : ℕ) :
    ∃ k q r t, k = n.size - p ∧ n = q * 2 ^ k + r ∧ r < 2 ^ k ∧ roundNat p n = t * 2 ^ k ∧
      ((t = q ∧ 2 * r ≤ 2 ^ k) ∨ (t = q + 1 ∧ 2 ^ k ≤ 2 * r)) := by
  refine ⟨n.size - p, n / 2 ^ (n.size - p), n % 2 ^ (n.size - p), ?_⟩
  have hn := Nat.div_add_mod' n (2 ^ (n.size - p))
  have hr := Nat.mod_lt n (Nat.two_pow_pos (n.size - p))
  by_cases h : 2 ^ (n.size - p) < 2 * (n % 2 ^ (n.size - p)) ∨
      (2 * (n % 2 ^ (n.size - p)) = 2 ^ (n.size - p) ∧ n / 2 ^ (n.size - p) % 2 = 1)
  · refine ⟨n / 2 ^ (n.size - p) + 1, rfl, hn.symm, hr, by simp only [roundNat, if_pos h], .inr ⟨rfl, ?_⟩⟩
    rcases h with h | ⟨h, -⟩ <;> omega
  · refine ⟨n / 2 ^ (n.size - p), rfl, hn.symm, hr, by simp only [roundNat, if_neg h], .inl ⟨rfl, ?_⟩⟩
    omega

/-- A point of the format is a multiple of `2 ^ k`, or is below `2 ^ (p + k - 1)`. -/
theorem eq_mul_or_lt_of_mem_grid {p k : ℕ} (hp : 0 < p) (hk : 0 < k) {x : ℚ} (h : x ∈ grid p) :
    (∃ t : ℤ, x = t * 2 ^ k) ∨ x < 2 ^ (p - 1) * 2 ^ k := by
  obtain ⟨m, e, hm, rfl⟩ := h
  by_cases he : (k : ℤ) ≤ e
  · obtain ⟨d, rfl⟩ := Int.le.dest he
    refine .inl ⟨m * 2 ^ d, ?_⟩
    rw [zpow_add₀ two_ne_zero, zpow_natCast, zpow_natCast]
    push_cast
    ring
  · right
    have hpow : (2 : ℚ) ^ e ≤ 2 ^ (k - 1) := by
      rw [← zpow_natCast]
      exact zpow_le_zpow_right₀ one_le_two (by omega)
    have hm' : (m : ℚ) < 2 ^ p := by exact_mod_cast (abs_lt.mp hm).2
    have hpos : (0 : ℚ) < 2 ^ e := zpow_pos two_pos e
    calc (m : ℚ) * 2 ^ e < 2 ^ p * 2 ^ e := mul_lt_mul_of_pos_right hm' hpos
      _ ≤ 2 ^ p * 2 ^ (k - 1) := by gcongr
      _ = 2 ^ (p - 1) * 2 ^ k := by rw [← pow_add, ← pow_add]; congr 1; omega

/-- How far a multiple of `u` is from `q * u + r`. -/
theorem min_le_abs_sub {q r u t : ℤ} (hr : 0 ≤ r) (hru : r < u) :
    min r (u - r) ≤ |q * u + r - t * u| := by
  rcases le_or_gt t q with h | h
  · refine (min_le_left _ _).trans (le_trans ?_ (le_abs_self _))
    nlinarith
  · refine (min_le_right _ _).trans (le_trans ?_ (neg_le_abs _))
    nlinarith

/-- The distance to the rounded number is the smaller one. -/
theorem abs_sub_roundNat_le {k q r t : ℕ} (hr : r < 2 ^ k)
    (ht : (t = q ∧ 2 * r ≤ 2 ^ k) ∨ (t = q + 1 ∧ 2 ^ k ≤ 2 * r)) :
    |((q * 2 ^ k + r : ℕ) : ℤ) - (t * 2 ^ k : ℕ)| ≤ min (r : ℤ) (2 ^ k - r) := by
  have hr' : (r : ℤ) < 2 ^ k := by exact_mod_cast hr
  rcases ht with ⟨rfl, h⟩ | ⟨rfl, h⟩
  · have h' : 2 * (r : ℤ) ≤ 2 ^ k := by exact_mod_cast h
    push_cast
    rw [add_sub_cancel_left, abs_of_nonneg (by positivity)]
    exact le_min le_rfl (by linarith)
  · have h' : (2 : ℤ) ^ k ≤ 2 * r := by exact_mod_cast h
    have hdiff : ((q * 2 ^ k + r : ℕ) : ℤ) - ((q + 1) * 2 ^ k : ℕ) = -(2 ^ k - r) := by
      push_cast
      ring
    rw [hdiff, abs_neg, abs_of_nonneg (by linarith)]
    exact le_min (by linarith) le_rfl

theorem lt_two_pow_of_size_sub {p n k q r : ℕ} (hk : k = n.size - p) (hn : n = q * 2 ^ k + r) :
    q < 2 ^ p := by
  have hlt : n < 2 ^ (p + k) := Nat.size_le.mp (by omega)
  rw [pow_add] at hlt
  exact Nat.lt_of_mul_lt_mul_right (a := 2 ^ k) (by omega)

theorem two_pow_le_of_size_sub {p n k q r : ℕ} (hp : 0 < p) (hk : k = n.size - p) (hk' : 0 < k)
    (hn : n = q * 2 ^ k + r) (hr : r < 2 ^ k) : 2 ^ (p - 1) ≤ q := by
  have hle : 2 ^ (p - 1 + k) ≤ n := Nat.lt_size.mp (by omega)
  rw [pow_add] at hle
  by_contra hq
  push Not at hq
  have hmul : (q + 1) * 2 ^ k ≤ 2 ^ (p - 1) * 2 ^ k := Nat.mul_le_mul_right _ hq
  rw [Nat.add_mul] at hmul
  omega

/-- The rounded number has at most `p` bits before the zeros, or is a power of two. -/
theorem roundNat_eq_mul (p n : ℕ) :
    ∃ t k : ℕ, roundNat p n = t * 2 ^ k ∧ t ≤ 2 ^ p ∧ k = n.size - p := by
  obtain ⟨k, q, r, t, hk, hn, hr, hround, ht⟩ := roundNat_eq p n
  have hq := lt_two_pow_of_size_sub hk hn
  refine ⟨t, k, hround, ?_, hk⟩
  rcases ht with ⟨rfl, -⟩ | ⟨rfl, -⟩ <;> omega

theorem mem_grid_of_le {p t : ℕ} (hp : 0 < p) (ht : t ≤ 2 ^ p) (k : ℕ) :
    ((t * 2 ^ k : ℕ) : ℚ) ∈ grid p := by
  rcases ht.lt_or_eq with hlt | rfl
  · refine ⟨t, k, ?_, by push_cast; rw [zpow_natCast]⟩
    rw [Nat.abs_cast]
    exact_mod_cast hlt
  · refine ⟨1, p + k, ?_, ?_⟩
    · rw [abs_one]
      exact one_lt_pow₀ one_lt_two (by omega)
    · rw [zpow_add₀ two_ne_zero, zpow_natCast, zpow_natCast]
      push_cast
      ring

theorem isNearest_roundNat {p : ℕ} (hp : 0 < p) (n : ℕ) :
    IsNearest (grid p) (n : ℚ) (roundNat p n) where
  mem := by
    obtain ⟨t, k, hround, ht, -⟩ := roundNat_eq_mul p n
    exact hround ▸ mem_grid_of_le hp ht k
  le := by
    intro b hb
    obtain ⟨k, q, r, t, hk, hn, hr, hround, ht⟩ := roundNat_eq p n
    have hdist := abs_sub_roundNat_le hr ht
    rw [← hn, ← hround] at hdist
    have hdist' : |(n : ℚ) - roundNat p n| ≤ min (r : ℚ) (2 ^ k - r) := by exact_mod_cast hdist
    refine hdist'.trans ?_
    rcases Nat.eq_zero_or_pos k with rfl | hk'
    · -- nothing is cut off
      have hr0 : r = 0 := by simpa using hr
      simp [hr0]
    · rcases eq_mul_or_lt_of_mem_grid hp hk' hb with ⟨z, rfl⟩ | hlt
      · have hmin := min_le_abs_sub (q := q) (t := z) (Int.natCast_nonneg r)
          (by exact_mod_cast hr : (r : ℤ) < 2 ^ k)
        rw [hn]
        exact_mod_cast hmin
      · have hq := two_pow_le_of_size_sub hp hk hk' hn hr
        have hq' : (2 : ℚ) ^ (p - 1) * 2 ^ k ≤ q * 2 ^ k := by
          gcongr
          exact_mod_cast hq
        have hn' : (n : ℚ) = q * 2 ^ k + r := by exact_mod_cast hn
        refine (min_le_left _ _).trans (le_trans ?_ (le_abs_self _))
        linarith

/-- **Rounding** gives a nearest point. -/
theorem isNearest_round {p : ℕ} (hp : 0 < p) (i : ℤ) : IsNearest (grid p) (i : ℚ) (round p i) := by
  have hnat := isNearest_roundNat hp i.natAbs
  by_cases hi : 0 ≤ i
  · rw [round, if_pos hi]
    rwa [Nat.cast_natAbs, abs_of_nonneg hi] at hnat
  · rw [round, if_neg hi]
    have hneg := hnat.neg fun b => neg_mem_grid
    rw [Nat.cast_natAbs, abs_of_neg (by omega)] at hneg
    push_cast at hneg ⊢
    rwa [neg_neg] at hneg

end Rounding
