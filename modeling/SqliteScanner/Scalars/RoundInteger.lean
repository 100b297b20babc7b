import Mathlib.Data.Int.Order.Basic
import SqliteScanner.Internal.Multiples

/-!
# Rounding integers

`round` and `round_even` of an integer with a negative precision round it to a multiple of a power
of ten. `duckdb_round_integer` does so with 128-bit integers, whose division truncates: the
remainder has the sign of the integer, and is compared with half of the power on both sides.

The quotient is then that of the nearest multiple, with ties away from zero or to an even quotient
(`rounds_roundedQuotient`). Nothing can overflow before the result is converted to 64 bits, so there
is an error exactly if the multiple does not fit.

## Main definitions

* `PowersOfTen` — the table of powers.
* `roundInteger` — `SQLiteRoundIntegerFunction`, for arguments that are not `NULL`.
* `RoundsIntegers` — what it is for.

## Main results

* `rounds_roundedQuotient`
* `roundInteger_rounds`
-/

namespace SqliteScanner.Scalars.RoundInteger

open Multiples

/-! ### The function -/

/-- `Hugeint::POWERS_OF_TEN`, with `CACHED_POWERS_OF_TEN` entries. -/
structure PowersOfTen where
  cached : ℕ
  power : ℕ → ℤ
  lt_cached : 38 < cached
  power_eq : ∀ k ≤ 38, power k = 10 ^ k

def minInt64 : ℤ := -9223372036854775808

def maxInt64 : ℤ := 9223372036854775807

def FitsInt64 (n : ℤ) : Prop := minInt64 ≤ n ∧ n ≤ maxInt64

instance (n : ℤ) : Decidable (FitsInt64 n) := inferInstanceAs (Decidable (_ ∧ _))

def minHugeint : ℤ := -170141183460469231731687303715884105728

def maxHugeint : ℤ := 170141183460469231731687303715884105727

def FitsHugeint (n : ℤ) : Prop := minHugeint ≤ n ∧ n ≤ maxHugeint

instance (n : ℤ) : Decidable (FitsHugeint n) := inferInstanceAs (Decidable (_ ∧ _))

/-- The result of a checked operation on 128-bit integers. -/
def checked (n : ℤ) : Except String ℤ :=
  if FitsHugeint n then .ok n else .error "Overflow in HUGEINT operation"

def overflowMessage (halfEven : Bool) : String :=
  "Overflow in " ++ (if halfEven then "ROUND_EVEN" else "ROUND") ++ " of integer"

/-- Whether a tie after this quotient goes away from zero. -/
def roundsAway (halfEven : Bool) (value : ℤ) : Bool := !halfEven || value.tmod 2 ≠ 0

/-- The quotient of the multiple, where the quotient of truncating division is one off by at most
one. -/
def roundedQuotient (halfEven : Bool) (input powerOfTen : ℤ) : ℤ :=
  let half := powerOfTen.tdiv 2
  let rounded := input.tdiv powerOfTen
  let remainder := input.tmod powerOfTen
  if half < remainder ∨ remainder = half ∧ roundsAway halfEven rounded then rounded + 1
  else if remainder < -half ∨ remainder = -half ∧ roundsAway halfEven rounded then rounded - 1
  else rounded

/-- `SQLiteRoundIntegerFunction`, for arguments that are not `NULL`. -/
def roundInteger (table : PowersOfTen) (input precision halfEven : Int64) : Except String ℤ :=
  let halfEven := halfEven.toInt ≠ 0
  if 0 ≤ precision.toInt then .ok input.toInt
  else if precision.toInt ≤ -table.cached then .ok 0
  else do
    let powerOfTen := table.power (-precision.toInt).toNat
    let rounded ← checked (roundedQuotient halfEven input.toInt powerOfTen)
    let result := rounded * powerOfTen
    if FitsHugeint result ∧ FitsInt64 result then .ok result else .error (overflowMessage halfEven)

/-! ### The quotient -/

section Quotient

def tieRule (halfEven : Bool) : Tie := if halfEven then .toEven else .awayFromZero

variable {halfEven : Bool} {b x : ℤ}

/-- The division truncates. -/
theorem tdiv_tmod (hb : 0 < b) :
    x = b * x.tdiv b + x.tmod b ∧ (0 ≤ x.tmod b ∧ x.tmod b < b ∧ 0 ≤ b * x.tdiv b ∨
      -b < x.tmod b ∧ x.tmod b ≤ 0 ∧ b * x.tdiv b ≤ 0) := by
  refine ⟨(Int.mul_tdiv_add_tmod x b).symm, ?_⟩
  rcases le_total 0 x with hx | hx
  · exact .inl ⟨Int.tmod_nonneg b hx, Int.tmod_lt_of_pos x hb,
      mul_nonneg hb.le (Int.tdiv_nonneg hx hb.le)⟩
  · obtain ⟨y, rfl⟩ : ∃ y, x = -y := ⟨-x, (neg_neg x).symm⟩
    have hy : 0 ≤ y := by omega
    have hlow := Int.tmod_nonneg b hy
    have hhigh := Int.tmod_lt_of_pos y hb
    have hquotient := mul_nonneg hb.le (Int.tdiv_nonneg hy hb.le)
    rw [Int.neg_tmod, Int.neg_tdiv, mul_neg]
    omega

theorem roundsAway_iff {q : ℤ} : roundsAway halfEven q = true ↔ halfEven = false ∨ ¬Even q := by
  rw [roundsAway, even_iff_two_dvd, Int.dvd_iff_tmod_eq_zero, Bool.or_eq_true, Bool.not_eq_true',
    decide_eq_true_eq]

/-- A tie with this quotient stays if the rule chooses it, and goes to the next one otherwise. -/
theorem chooses_of_not_roundsAway {q : ℤ} (h : ¬roundsAway halfEven q = true) :
    (tieRule halfEven).Chooses b x q := by
  rw [roundsAway_iff, not_or, not_not, Bool.not_eq_false] at h
  rw [h.1]
  exact h.2

theorem chooses_succ {q : ℤ} (h : roundsAway halfEven q = true) (habs : |x| < |b * (q + 1)|) :
    (tieRule halfEven).Chooses b x (q + 1) := by
  cases halfEven with
  | false => exact habs
  | true => exact Int.even_add_one.mpr ((roundsAway_iff.mp h).resolve_left nofun)

theorem chooses_pred {q : ℤ} (h : roundsAway halfEven q = true) (habs : |x| < |b * (q - 1)|) :
    (tieRule halfEven).Chooses b x (q - 1) := by
  cases halfEven with
  | false => exact habs
  | true => exact Int.even_sub_one.mpr ((roundsAway_iff.mp h).resolve_left nofun)

/-- **The quotient is that of the nearest multiple.** -/
theorem rounds_roundedQuotient (hb : 0 < b) (heven : Even b) :
    Rounds (tieRule halfEven) b x (roundedQuotient halfEven x b) := by
  obtain ⟨hx, hremainder⟩ := tdiv_tmod (x := x) hb
  obtain ⟨half, rfl⟩ := heven
  have hhalf : (half + half).tdiv 2 = half := by
    rw [← two_mul, Int.mul_tdiv_cancel_left _ two_ne_zero]
  rw [rounds_iff hb, roundedQuotient, hhalf]
  generalize x.tdiv (half + half) = q at *
  generalize x.tmod (half + half) = r at *
  split_ifs with hup hdown
  · have hmul : (half + half) * (q + 1) = (half + half) * q + (half + half) := by ring
    refine ⟨?_, fun htie => chooses_succ ?_ ?_⟩
    · rw [hmul, Int.abs_eq_natAbs]
      omega
    · refine (hup.resolve_left fun hlt => ?_).2
      rw [hmul, Int.abs_eq_natAbs] at htie
      omega
    · rw [hmul, Int.abs_eq_natAbs, Int.abs_eq_natAbs]
      omega
  · have hmul : (half + half) * (q - 1) = (half + half) * q - (half + half) := by ring
    refine ⟨?_, fun htie => chooses_pred ?_ ?_⟩
    · rw [hmul, Int.abs_eq_natAbs]
      omega
    · refine (hdown.resolve_left fun hlt => ?_).2
      rw [hmul, Int.abs_eq_natAbs] at htie
      omega
    · rw [hmul, Int.abs_eq_natAbs, Int.abs_eq_natAbs]
      omega
  · rw [not_or, not_and] at hup hdown
    rw [Int.abs_eq_natAbs]
    refine ⟨by omega, fun htie => chooses_of_not_roundsAway ?_⟩
    rcases le_total 0 r with hr | hr
    · exact hup.2 (by omega)
    · exact hdown.2 (by omega)

end Quotient

/-! ### The result -/

section Result

/-- What the function is for: an integer for a precision that is not negative, and otherwise the
nearest multiple of a power of ten, or an error if that does not fit; and the sign does not matter.
-/
structure RoundsIntegers (table : PowersOfTen) (x precision halfEven : Int64) : Prop where
  of_nonneg : 0 ≤ precision.toInt → roundInteger table x precision halfEven = .ok x.toInt
  exists_rounds : precision.toInt < 0 →
    ∃ q, Rounds (tieRule (halfEven.toInt ≠ 0)) (10 ^ (-precision.toInt).toNat) x.toInt q
  of_neg : precision.toInt < 0 → ∀ q,
    Rounds (tieRule (halfEven.toInt ≠ 0)) (10 ^ (-precision.toInt).toNat) x.toInt q →
      roundInteger table x precision halfEven =
        if FitsInt64 (10 ^ (-precision.toInt).toNat * q) then
          .ok (10 ^ (-precision.toInt).toNat * q)
        else .error (overflowMessage (halfEven.toInt ≠ 0))
  odd : ∀ y : Int64, y.toInt = -x.toInt → ∀ m n, roundInteger table x precision halfEven = .ok m →
    roundInteger table y precision halfEven = .ok n → n = -m

variable {table : PowersOfTen} {x precision halfEven : Int64}

theorem fitsInt64_toInt (x : Int64) : FitsInt64 x.toInt :=
  ⟨x.le_toInt, x.toInt_le⟩

/-- A nearest multiple is not much larger than the integer, so that nothing overflows. -/
theorem fitsHugeint_of_rounds {tie : Tie} {b x q : ℤ} (hb : 0 < b) (hb' : b ≤ 10 ^ 38)
    (hx : FitsInt64 x) (h : Rounds tie b x q) : FitsHugeint q ∧ FitsHugeint (b * q) := by
  have hle := ((rounds_iff hb).mp h).1
  have hmul : |q| ≤ |b * q| := by
    rw [abs_mul, abs_of_pos hb]
    exact le_mul_of_one_le_left (abs_nonneg q) hb
  simp only [Int.abs_eq_natAbs, FitsInt64, FitsHugeint, minInt64, maxInt64, minHugeint,
    maxHugeint] at *
  omega

theorem roundInteger_of_nonneg (h : 0 ≤ precision.toInt) :
    roundInteger table x precision halfEven = .ok x.toInt :=
  if_pos h

theorem roundInteger_of_neg (hlow : -38 ≤ precision.toInt) (hneg : precision.toInt < 0) {q : ℤ}
    (hq : Rounds (tieRule (halfEven.toInt ≠ 0)) (10 ^ (-precision.toInt).toNat) x.toInt q) :
    roundInteger table x precision halfEven =
      if FitsInt64 (10 ^ (-precision.toInt).toNat * q) then
        .ok (10 ^ (-precision.toInt).toNat * q)
      else .error (overflowMessage (halfEven.toInt ≠ 0)) := by
  have hcached := table.lt_cached
  obtain ⟨k, hk⟩ : ∃ k, (-precision.toInt).toNat = k := ⟨_, rfl⟩
  rw [hk] at hq ⊢
  have hb : (0 : ℤ) < 10 ^ k := by positivity
  have heven : Even ((10 : ℤ) ^ k) := (by decide : Even (10 : ℤ)).pow_of_ne_zero (by omega)
  have hle : (10 : ℤ) ^ k ≤ 10 ^ 38 := pow_le_pow_right₀ (by decide) (by omega)
  have hquotient : roundedQuotient (halfEven.toInt ≠ 0) x.toInt (10 ^ k) = q :=
    (rounds_roundedQuotient hb heven).eq hb hq
  obtain ⟨hfits, hfits'⟩ := fitsHugeint_of_rounds hb hle (fitsInt64_toInt x) hq
  rw [roundInteger, if_neg (by omega), if_neg (by omega), hk, table.power_eq k (by omega)]
  dsimp only
  rw [hquotient, checked, if_pos hfits]
  simp only [bind, Except.bind, mul_comm q, hfits', true_and]

theorem exists_rounds (hneg : precision.toInt < 0) (halfEven : Bool) (x : ℤ) :
    ∃ q, Rounds (tieRule halfEven) (10 ^ (-precision.toInt).toNat) x q := by
  have heven : Even ((10 : ℤ) ^ (-precision.toInt).toNat) :=
    (by decide : Even (10 : ℤ)).pow_of_ne_zero (by omega)
  exact ⟨_, rounds_roundedQuotient (by positivity) heven⟩

/-- The negation of an integer is rounded to the negation. -/
theorem roundInteger_neg {y : Int64} {m n : ℤ} (hlow : -38 ≤ precision.toInt)
    (hy : y.toInt = -x.toInt) (hm : roundInteger table x precision halfEven = .ok m)
    (hn : roundInteger table y precision halfEven = .ok n) : n = -m := by
  rcases le_or_gt 0 precision.toInt with hnonneg | hneg
  · rw [roundInteger_of_nonneg hnonneg] at hm hn
    cases hm
    cases hn
    exact hy
  · obtain ⟨q, hq⟩ := exists_rounds hneg (halfEven.toInt ≠ 0) x.toInt
    have hq' := hq.neg (by positivity)
    rw [← hy] at hq'
    rw [roundInteger_of_neg hlow hneg hq] at hm
    rw [roundInteger_of_neg hlow hneg hq'] at hn
    split_ifs at hm hn
    cases hm
    cases hn
    exact mul_neg _ q

/-- **Integers are rounded to the nearest multiple of a power of ten**, with an error exactly if it
does not fit. -/
theorem roundInteger_rounds (table : PowersOfTen) (x precision halfEven : Int64)
    (hlow : -38 ≤ precision.toInt) : RoundsIntegers table x precision halfEven where
  of_nonneg := roundInteger_of_nonneg
  exists_rounds := fun hneg => exists_rounds hneg _ _
  of_neg := fun hneg _ => roundInteger_of_neg hlow hneg
  odd := fun _ hy _ _ => roundInteger_neg hlow hy

/-- A table of powers of ten. -/
def powersOfTen : PowersOfTen where
  cached := 39
  power := fun k => 10 ^ k
  lt_cached := by decide
  power_eq := fun _ _ => rfl

/-- `25` is halfway between `20` and `30`, and the even multiple is `20`. -/
theorem roundInteger_rounds_tie :
    RoundsIntegers powersOfTen 25 (-1) 1 ∧ roundInteger powersOfTen 25 (-1) 1 = .ok 20 :=
  ⟨roundInteger_rounds powersOfTen 25 (-1) 1 (by decide), by decide⟩

end Result

end SqliteScanner.Scalars.RoundInteger
