import Mathlib.Data.Rat.Floor
import SqliteScanner.Aggregates.CompareValues
import SqliteScanner.Internal.Numerals

/-!
# Discrete quantiles

`duckdb_quantile_disc(value, quantile)` collects the values that are not `NULL`, sorts them with
`std::sort`, and returns one of them. A decimal quantile is given as its text, and the index is computed
from its digits with 128-bit integers: if the text writes `i / s`, the index counts `(n * s - n * i) / s`
elements from the end.

The text has at most 30 digits, so that the numbers that are read fit (`fits_of_mem_loopProducts`), and
the quotient is exact: it leaves the first `⌈n * q⌉` elements (`sub_div_eq_ceil`). But the product of the
number of rows and of a scaling of up to `10 ^ 30` does not always fit (`scaling_does_not_fit`), and
`std::sort` needs a strict weak order, which integers and floating point numbers together do not have
(`not_strictWeakOn_of_rounding`). These are the only ways to fail (`quantile_exact_iff`).

## Main definitions

* `parseDecimalQuantile`, `quantileStep`, `quantileFinal` — the source's functions
* `quantile` — the number that a text denotes
* `Exact` — the result is the value at position `max 1 ⌈n * q⌉`, and nothing overflows

## Main results

* `parseDecimalQuantile_eq_some_iff` — what the source reads
* `quantile_exact_iff`
-/

namespace SqliteScanner.Aggregates.Quantile

open Sorting Numerals

variable {D K : Type} [LinearOrder K] (doubles : Doubles D K)

/-! ### The aggregate -/

/-- A signed 128-bit integer. -/
def Fits (n : ℤ) : Prop := -2 ^ 127 ≤ n ∧ n < 2 ^ 127

/-- The 128-bit integers of DuckDB. Only results that fit are promised. -/
structure Hugeint where
  /-- What an operation returns if the exact result is the given number. -/
  result : ℤ → ℤ
  result_eq : ∀ n, Fits n → result n = n
  /-- What `Hugeint::TryCast` leaves in an `int64_t`. -/
  toInt64 : ℤ → ℤ
  toInt64_eq : ∀ n, -2 ^ 63 ≤ n → n < 2 ^ 63 → toInt64 n = n

/-- `std::sort`, which promises something only for a strict weak order. -/
structure StdSort (α : Type) where
  sort : (α → α → Bool) → List α → List α
  isSort : ∀ lt l, StrictWeakOn lt (· ∈ l) → IsSort lt l (sort lt l)

variable (hugeint : Hugeint)

/-- The loop of `SQLiteParseDecimalQuantile`. -/
def parseLoop : List Char → ℤ → ℤ → Bool → ℕ → Option (ℤ × ℤ × ℕ)
  | [], integral, scaling, _, digits => some (integral, scaling, digits)
  | c :: text, integral, scaling, fraction, digits =>
    if c = '.' ∧ fraction = false then parseLoop text integral scaling true digits
    else if c < '0' ∨ '9' < c ∨ 30 ≤ digits then none
    else
      parseLoop text (hugeint.result (hugeint.result (integral * 10) + (c.toNat - 48 : ℕ)))
        (if fraction then hugeint.result (scaling * 10) else scaling) fraction (digits + 1)

/-- `SQLiteParseDecimalQuantile`: the integral value and the scaling, if the text is accepted. -/
def parseDecimalQuantile (text : List Char) : Option (ℤ × ℤ) :=
  match parseLoop hugeint text 0 1 false 0 with
  | none => none
  | some (integral, scaling, digits) =>
    if 0 < digits ∧ integral ≤ scaling then some (integral, scaling) else none

/-- `SQLiteQuantileState`, with a decimal quantile. -/
structure State (D : Type) where
  values : List (Value D)
  integral : ℤ
  scaling : ℤ

inductive Failure where
  /-- `The quantile must be between 0 and 1` -/
  | quantile
  | numericCast
  | bounds
deriving DecidableEq

/-- `SQLiteQuantileStep`, with a text as its second argument. -/
def quantileStep (text : List Char) (state : Option (State D)) (value : Option (Value D)) :
    Except Failure (Option (State D)) :=
  match value with
  | none => .ok state
  | some value =>
    match parseDecimalQuantile hugeint text with
    | none => .error .quantile
    | some (integral, scaling) =>
      .ok (some ⟨state.elim [] State.values ++ [value], integral, scaling⟩)

/-- The index that `SQLiteQuantileFinal` computes. `NumericCast` throws if a number does not fit, and
`n - floored` is a difference of unsigned 64-bit integers. -/
def discreteIndex (n : ℕ) (integral scaling : ℤ) : Except Failure ℕ :=
  if 2 ^ 63 ≤ n then .error .numericCast
  else
    let difference :=
      hugeint.result (hugeint.result (n * scaling) - hugeint.result (n * integral))
    let floored := hugeint.toInt64 (hugeint.result (difference.tdiv scaling))
    if floored < 0 then .error .numericCast
    else .ok (max 1 ((n - floored) % 2 ^ 64).toNat - 1)

/-- `SQLiteQuantileFinal<true>`, with a decimal quantile. -/
def quantileFinal (std : StdSort (Value D)) (state : Option (State D)) :
    Except Failure (Option (Value D)) :=
  match state with
  | none => .ok none
  | some state =>
    if state.values.isEmpty then .ok none
    else
      let sorted := std.sort (less doubles) state.values
      match discreteIndex hugeint state.values.length state.integral state.scaling with
      | .error failure => .error failure
      | .ok index =>
        match sorted[index]? with
        | none => .error .bounds
        | some value => .ok (some value)

/-- `duckdb_quantile_disc` on the values of a group. -/
def quantileDisc (std : StdSort (Value D)) (text : List Char) (values : List (Option (Value D))) :
    Except Failure (Option (Value D)) := do
  let state ← values.foldlM (quantileStep hugeint text) none
  quantileFinal doubles hugeint std state

/-! ### The products that are formed -/

/-- The products that the loop of `SQLiteParseDecimalQuantile` forms. -/
def loopProducts : List Char → ℤ → ℤ → Bool → ℕ → List ℤ
  | [], _, _, _, _ => []
  | c :: text, integral, scaling, fraction, digits =>
    if c = '.' ∧ fraction = false then loopProducts text integral scaling true digits
    else if c < '0' ∨ '9' < c ∨ 30 ≤ digits then []
    else
      integral * 10 :: ((if fraction then [scaling * 10] else []) ++
        loopProducts text (hugeint.result (hugeint.result (integral * 10) + (c.toNat - 48 : ℕ)))
          (if fraction then hugeint.result (scaling * 10) else scaling) fraction (digits + 1))

/-- The products of a quantile of `n` values. -/
def products (text : List Char) (n : ℕ) : List ℤ :=
  loopProducts hugeint text 0 1 false 0 ++
    match parseDecimalQuantile hugeint text with
    | none => []
    | some (integral, scaling) => [n * scaling, n * integral]

/-! ### What a quantile is -/

def wholeDigits (text : List Char) : List Char := text.takeWhile (· ≠ '.')

/-- What follows the first decimal point. -/
def fractionDigits (text : List Char) : List Char := (text.dropWhile (· ≠ '.')).tail

def digits (text : List Char) : List Char := wholeDigits text ++ fractionDigits text

/-- The number that a decimal denotes. -/
def quantile (text : List Char) : ℚ := value (digits text) / 10 ^ (fractionDigits text).length

/-- A decimal with 1 to 30 digits, between 0 and 1. -/
structure IsQuantile (text : List Char) : Prop where
  isDigit : ∀ c ∈ digits text, c.isDigit = true
  length_pos : 1 ≤ (digits text).length
  length_le : (digits text).length ≤ 30
  nonneg : 0 ≤ quantile text
  le_one : quantile text ≤ 1

/-- The position of the quantile among `n` sorted values, from 1 on. -/
def position (n : ℕ) (text : List Char) : ℕ := max 1 ⌈n * quantile text⌉₊

/-- The text is accepted if it is a quantile, and then no product overflows and the result is the value
at the position of the quantile. -/
structure Exact (std : StdSort (Value D)) (text : List Char) (values : List (Value D)) : Prop where
  accepts : parseDecimalQuantile hugeint text ≠ none ↔ IsQuantile text
  fits : IsQuantile text → ∀ p ∈ products hugeint text values.length, Fits p
  position_le : IsQuantile text →
    1 ≤ position values.length text ∧ position values.length text ≤ values.length
  result : IsQuantile text → ∃ sorted value, IsSort (less doubles) values sorted ∧
    sorted[position values.length text - 1]? = some value ∧
    quantileDisc doubles hugeint std text (values.map some) = .ok (some value)

/-! ### Reading the text -/

theorem fits_of_le {n : ℤ} (hn : 0 ≤ n) (hle : n ≤ 10 ^ 30) : Fits n :=
  ⟨by omega, by omega⟩

theorem isDigit_eq_false_iff {c : Char} : c.isDigit = false ↔ c < '0' ∨ '9' < c := by
  rw [← Bool.not_eq_true, isDigit_iff, Char.lt_def, Char.lt_def, UInt32.lt_iff_toNat_lt,
    UInt32.lt_iff_toNat_lt]
  change _ ↔ c.toNat < 48 ∨ 57 < c.toNat
  omega

section Loop

variable {read : List Char} {c : Char}

theorem forall_isDigit_append (hread : ∀ d ∈ read, d.isDigit = true) (hc : c.isDigit = true) :
    ∀ d ∈ read ++ [c], d.isDigit = true := by
  intro d hd
  rcases List.mem_append.mp hd with hd | hd
  · exact hread d hd
  · rwa [List.mem_singleton.mp hd]

/-- The number that is read after one more digit. -/
theorem integral_step (hread : ∀ d ∈ read, d.isDigit = true) (hc : c.isDigit = true)
    (hlength : read.length < 30) :
    Fits ((value read : ℤ) * 10) ∧
      hugeint.result (hugeint.result ((value read : ℤ) * 10) + (c.toNat - 48 : ℕ)) =
        value (read ++ [c]) := by
  have hlt := value_lt (forall_isDigit_append hread hc)
  have hle : value (read ++ [c]) ≤ 10 ^ 30 := by
    refine hlt.le.trans (Nat.pow_le_pow_right (by decide) ?_)
    rw [List.length_append, List.length_singleton]
    exact hlength
  rw [value_append_singleton] at hle
  have hfits : Fits ((value read : ℤ) * 10) := fits_of_le (by omega) (by omega)
  refine ⟨hfits, ?_⟩
  rw [hugeint.result_eq _ hfits, hugeint.result_eq _ (fits_of_le (by omega) (by omega)),
    value_append_singleton]
  push_cast
  omega

theorem fits_scaling {k : ℕ} (hk : k < 30) : Fits ((10 : ℤ) ^ k * 10) := by
  rw [← pow_succ]
  exact fits_of_le (by positivity) (pow_le_pow_right₀ (by decide) hk)

end Loop

/-- The digits that are left to read, before or after the decimal point. -/
def restDigits (fraction : Bool) (text : List Char) : List Char :=
  if fraction then text else digits text

/-- Those of them that are behind the decimal point. -/
def restFraction (fraction : Bool) (text : List Char) : List Char :=
  if fraction then text else fractionDigits text

theorem restDigits_point (text : List Char) : restDigits false ('.' :: text) = text := by
  simp [restDigits, digits, wholeDigits, fractionDigits]

theorem restFraction_point (text : List Char) : restFraction false ('.' :: text) = text := by
  simp [restFraction, fractionDigits]

section Cons

variable {c : Char} {fraction : Bool} (h : ¬ (c = '.' ∧ fraction = false)) (text : List Char)

include h

theorem restDigits_cons : restDigits fraction (c :: text) = c :: restDigits fraction text := by
  cases fraction with
  | true => rfl
  | false =>
    have hc : c ≠ '.' := fun hc => h ⟨hc, rfl⟩
    simp [restDigits, digits, wholeDigits, fractionDigits, hc]

theorem length_restFraction_cons :
    (restFraction fraction (c :: text)).length =
      (if fraction then 1 else 0) + (restFraction fraction text).length := by
  cases fraction with
  | true => simp [restFraction, Nat.add_comm]
  | false =>
    have hc : c ≠ '.' := fun hc => h ⟨hc, rfl⟩
    simp [restFraction, fractionDigits, hc]

end Cons

/-- **The loop reads the digits**, and no product overflows. `read` are the digits that were read, `k` of
them behind the decimal point. -/
theorem parseLoop_spec (text : List Char) : ∀ (read : List Char) (k : ℕ) (fraction : Bool),
    (∀ c ∈ read, c.isDigit = true) → read.length ≤ 30 → k ≤ read.length →
    (parseLoop hugeint text (value read) (10 ^ k) fraction read.length =
      if (restDigits fraction text).all Char.isDigit = true ∧
          read.length + (restDigits fraction text).length ≤ 30 then
        some ((value (read ++ restDigits fraction text) : ℤ),
          10 ^ (k + (restFraction fraction text).length),
          read.length + (restDigits fraction text).length)
      else none) ∧
    ∀ p ∈ loopProducts hugeint text (value read) (10 ^ k) fraction read.length, Fits p := by
  induction text with
  | nil =>
    intro read k fraction hread hlength hk
    have hrest : restDigits fraction [] = [] ∧ restFraction fraction [] = [] := by
      cases fraction <;> exact ⟨rfl, rfl⟩
    simp [parseLoop, loopProducts, hrest, hlength]
  | cons c text ih =>
    intro read k fraction hread hlength hk
    rw [parseLoop, loopProducts]
    by_cases hpoint : c = '.' ∧ fraction = false
    · rw [if_pos hpoint, if_pos hpoint]
      obtain ⟨rfl, rfl⟩ := hpoint
      rw [restDigits_point, restFraction_point]
      exact ih read k true hread hlength hk
    · rw [if_neg hpoint, if_neg hpoint, restDigits_cons hpoint, length_restFraction_cons hpoint]
      by_cases hstop : c < '0' ∨ '9' < c ∨ 30 ≤ read.length
      · rw [if_pos hstop, if_pos hstop, if_neg]
        · exact ⟨rfl, fun p hp => absurd hp List.not_mem_nil⟩
        · rintro ⟨hdigits, hle⟩
          rw [List.length_cons] at hle
          have hc := List.all_eq_true.mp hdigits c List.mem_cons_self
          rw [← Bool.not_eq_false, isDigit_eq_false_iff] at hc
          rcases hstop with hstop | hstop | hstop
          · exact hc (.inl hstop)
          · exact hc (.inr hstop)
          · omega
      · rw [if_neg hstop, if_neg hstop]
        have hc : c.isDigit = true := by
          rw [← Bool.not_eq_false, isDigit_eq_false_iff]
          exact fun hc => hstop (hc.imp id .inl)
        have hlt : read.length < 30 := by omega
        obtain ⟨hfits, hintegral⟩ := integral_step hugeint hread hc hlt
        have hscaling := fits_scaling (Nat.lt_of_le_of_lt hk hlt)
        have hscale : (if fraction = true then hugeint.result ((10 : ℤ) ^ k * 10) else 10 ^ k) =
            10 ^ (k + if fraction then 1 else 0) := by
          cases fraction with
          | true => exact (hugeint.result_eq _ hscaling).trans (pow_succ _ _).symm
          | false => rfl
        have hnext := ih (read ++ [c]) (k + if fraction then 1 else 0) fraction
          (forall_isDigit_append hread hc)
          (by rw [List.length_append, List.length_singleton]; exact hlt)
          (by rw [List.length_append, List.length_singleton]; split <;> omega)
        rw [List.length_append, List.length_singleton, List.append_assoc] at hnext
        rw [hintegral, hscale]
        constructor
        · simp only [hnext.1, List.all_cons, hc, Bool.true_and, List.length_cons,
            List.singleton_append, Nat.add_assoc, Nat.add_comm 1]
        · rw [List.forall_mem_cons, List.forall_mem_append]
          refine ⟨hfits, ?_, hnext.2⟩
          cases fraction with
          | true => exact List.forall_mem_singleton.mpr hscaling
          | false => exact fun p hp => absurd hp List.not_mem_nil

theorem isQuantile_iff {text : List Char} :
    IsQuantile text ↔ ((digits text).all Char.isDigit = true ∧ (digits text).length ≤ 30) ∧
      0 < (digits text).length ∧ value (digits text) ≤ 10 ^ (fractionDigits text).length := by
  have hle_one : quantile text ≤ 1 ↔ value (digits text) ≤ 10 ^ (fractionDigits text).length := by
    rw [quantile, div_le_one (by positivity)]
    exact_mod_cast Iff.rfl
  have hnonneg : 0 ≤ quantile text := by
    rw [quantile]
    positivity
  constructor
  · intro h
    exact ⟨⟨List.all_eq_true.mpr h.isDigit, h.length_le⟩, h.length_pos, hle_one.mp h.le_one⟩
  · rintro ⟨⟨hdigits, hlength⟩, hpos, hle⟩
    exact ⟨List.all_eq_true.mp hdigits, hpos, hlength, hnonneg, hle_one.mpr hle⟩

section Parse

variable (text : List Char)

theorem parseLoop_eq :
    parseLoop hugeint text 0 1 false 0 =
      if (digits text).all Char.isDigit = true ∧ (digits text).length ≤ 30 then
        some ((value (digits text) : ℤ), 10 ^ (fractionDigits text).length, (digits text).length)
      else none := by
  have hspec := (parseLoop_spec hugeint text [] 0 false (by simp) (by simp) le_rfl).1
  simp only [restDigits, restFraction, Bool.false_eq_true, if_false, List.nil_append,
    List.length_nil, Nat.zero_add] at hspec
  exact hspec

theorem fits_of_mem_loopProducts : ∀ p ∈ loopProducts hugeint text 0 1 false 0, Fits p :=
  (parseLoop_spec hugeint text [] 0 false (by simp) (by simp) le_rfl).2

/-- **A text is accepted if it is a quantile**, and then its digits are read. -/
theorem parseDecimalQuantile_eq_some_iff {read : ℤ × ℤ} :
    parseDecimalQuantile hugeint text = some read ↔
      IsQuantile text ∧ ((value (digits text) : ℤ), 10 ^ (fractionDigits text).length) = read := by
  rw [parseDecimalQuantile, parseLoop_eq, isQuantile_iff]
  by_cases hdigits : (digits text).all Char.isDigit = true ∧ (digits text).length ≤ 30
  · have hle : ((value (digits text) : ℤ) ≤ 10 ^ (fractionDigits text).length) ↔
        value (digits text) ≤ 10 ^ (fractionDigits text).length := by exact_mod_cast Iff.rfl
    rw [if_pos hdigits, Option.ite_none_right_eq_some, hle, Option.some.injEq,
      and_iff_right hdigits]
  · rw [if_neg hdigits]
    constructor
    · intro h
      cases h
    · intro h
      exact absurd h.1.1 hdigits

theorem parseDecimalQuantile_ne_none_iff :
    parseDecimalQuantile hugeint text ≠ none ↔ IsQuantile text := by
  rw [Option.ne_none_iff_exists']
  simp only [parseDecimalQuantile_eq_some_iff, exists_and_left, exists_eq', and_true]

end Parse

/-! ### The index -/

theorem fits_natCast {m : ℕ} (h : m < 2 ^ 127) : Fits m := ⟨by omega, by omega⟩

/-- The quotient leaves the first `⌈n * q⌉` elements. -/
theorem sub_div_eq_ceil {n i s : ℕ} (hs : 0 < s) (his : i ≤ s) :
    n - (n * s - n * i) / s = ⌈(n : ℚ) * (i / s)⌉₊ := by
  have hs' : (0 : ℚ) < s := by exact_mod_cast hs
  have hni : n * i ≤ n * s := Nat.mul_le_mul_left n his
  -- the quotient is bracketed by its multiples of `s`
  obtain ⟨k, hk⟩ : ∃ k, (n * s - n * i) / s = k := ⟨_, rfl⟩
  have hlow : k * s ≤ n * s - n * i := hk ▸ Nat.div_mul_le_self _ _
  have hhigh : n * s - n * i < (k + 1) * s := by
    rw [← hk, ← Nat.div_lt_iff_lt_mul hs]
    exact Nat.lt_succ_self _
  have hkn : k ≤ n := Nat.le_of_mul_le_mul_right (hlow.trans (Nat.sub_le _ _)) hs
  rw [hk, ← mul_div_assoc]
  apply le_antisymm
  · have hceil := Nat.le_ceil ((n : ℚ) * i / s)
    rw [div_le_iff₀ hs'] at hceil
    have hle : n * i ≤ ⌈(n : ℚ) * i / s⌉₊ * s := by exact_mod_cast hceil
    have hlt : n * s < (⌈(n : ℚ) * i / s⌉₊ + (k + 1)) * s := by
      rw [Nat.add_mul]
      omega
    have := Nat.lt_of_mul_lt_mul_right hlt
    omega
  · rw [Nat.ceil_le, div_le_iff₀ hs', Nat.cast_sub hkn]
    have hle : ((n * i + k * s : ℕ) : ℚ) ≤ (n * s : ℕ) := Nat.cast_le.mpr (by omega)
    push_cast at hle
    linarith

section Index

variable {n : ℕ} {text : List Char} (hquantile : IsQuantile text)

include hquantile

/-- The position is one of a value. -/
theorem position_le (hn : 1 ≤ n) : position n text ≤ n := by
  refine max_le hn (Nat.ceil_le.mpr ?_)
  exact mul_le_of_le_one_right (Nat.cast_nonneg n) hquantile.le_one

/-- **The index is that of the position**, if the larger product fits. -/
theorem discreteIndex_eq (hn : n < 2 ^ 63)
    (hfits : n * 10 ^ (fractionDigits text).length < 2 ^ 127) :
    discreteIndex hugeint n (value (digits text)) (10 ^ (fractionDigits text).length) =
      .ok (position n text - 1) := by
  obtain ⟨-, -, hle⟩ := isQuantile_iff.mp hquantile
  obtain ⟨i, hi⟩ : ∃ i, value (digits text) = i := ⟨_, rfl⟩
  obtain ⟨s, hs⟩ : ∃ s, 10 ^ (fractionDigits text).length = s := ⟨_, rfl⟩
  have hpos : 0 < s := hs ▸ Nat.pow_pos (by decide)
  have hscaling : (10 : ℤ) ^ (fractionDigits text).length = s := by
    rw [← hs]
    push_cast
    rfl
  have hceil : n - (n * s - n * i) / s = ⌈(n : ℚ) * quantile text⌉₊ := by
    rw [sub_div_eq_ceil hpos (hi ▸ hs ▸ hle), quantile, hi, ← hs]
    push_cast
    rfl
  rw [hi, hs] at hle
  rw [hs] at hfits
  have hni : n * i ≤ n * s := Nat.mul_le_mul_left n hle
  have hdifference : n * s - n * i < 2 ^ 127 := (Nat.sub_le _ _).trans_lt hfits
  obtain ⟨k, hk⟩ : ∃ k, (n * s - n * i) / s = k := ⟨_, rfl⟩
  have hkn : k ≤ n := by
    rw [← hk, Nat.div_le_iff_le_mul_add_pred hpos, Nat.mul_comm s]
    omega
  have hfloored : hugeint.toInt64 (hugeint.result ((hugeint.result
      (hugeint.result (n * s) - hugeint.result (n * i))).tdiv s)) = k := by
    rw [← Nat.cast_mul, ← Nat.cast_mul, hugeint.result_eq _ (fits_natCast hfits),
      hugeint.result_eq _ (fits_natCast (hni.trans_lt hfits)), ← Nat.cast_sub hni,
      hugeint.result_eq _ (fits_natCast hdifference), ← Int.ofNat_tdiv, hk,
      hugeint.result_eq _ (fits_natCast (by omega)), hugeint.toInt64_eq _ (by omega) (by omega)]
  rw [discreteIndex, if_neg (by omega), hi, hscaling]
  simp only [hfloored]
  rw [if_neg (by omega), position, ← hceil, hk, ← Nat.cast_sub hkn,
    Int.emod_eq_of_lt (by omega) (by omega), Int.toNat_natCast]

end Index

/-! ### The values of a group -/

section Run

variable {text : List Char} {integral scaling : ℤ}
  (hparse : parseDecimalQuantile hugeint text = some (integral, scaling))

include hparse

/-- Each value is appended. -/
theorem foldlM_quantileStep (values done : List (Value D)) :
    (values.map some).foldlM (quantileStep hugeint text) (some ⟨done, integral, scaling⟩) =
      .ok (some ⟨done ++ values, integral, scaling⟩) := by
  induction values generalizing done with
  | nil => rw [List.append_nil]; rfl
  | cons value values ih =>
    have hstep : quantileStep hugeint text (some ⟨done, integral, scaling⟩) (some value) =
        .ok (some ⟨done ++ [value], integral, scaling⟩) := by
      rw [quantileStep, hparse]
      rfl
    rw [List.map_cons, List.foldlM_cons, hstep, List.append_cons done value values,
      ← ih (done ++ [value])]
    rfl

theorem quantileDisc_eq (std : StdSort (Value D)) (value : Value D) (values : List (Value D)) :
    quantileDisc doubles hugeint std text ((value :: values).map some) =
      quantileFinal doubles hugeint std (some ⟨value :: values, integral, scaling⟩) := by
  have hstep : quantileStep hugeint text none (some value) =
      .ok (some ⟨[value], integral, scaling⟩) := by
    rw [quantileStep, hparse]
    rfl
  rw [quantileDisc, List.map_cons, List.foldlM_cons, hstep]
  exact congrArg (· >>= quantileFinal doubles hugeint std)
    (foldlM_quantileStep hugeint hparse values [value])

end Run

/-- A `std::sort` that returns nothing if the comparison is not a strict weak order. -/
noncomputable def strictSort (α : Type) : StdSort α where
  sort lt l := open Classical in if StrictWeakOn lt (· ∈ l) then stableSort lt l else []
  isSort lt l h := by
    rw [if_pos h]
    exact (isStableSort_stableSort h).isSort h

section Exact

variable {hugeint} {text : List Char} {value : Value D} {values : List (Value D)}

/-- A result needs an index, and a value there. -/
theorem quantileFinal_eq_ok {std : StdSort (Value D)} {integral scaling : ℤ} {v : Value D}
    (h : quantileFinal doubles hugeint std (some ⟨value :: values, integral, scaling⟩) =
      .ok (some v)) :
    ∃ index, discreteIndex hugeint (value :: values).length integral scaling = .ok index ∧
      (std.sort (less doubles) (value :: values))[index]? = some v := by
  rw [quantileFinal, if_neg (by simp)] at h
  dsimp only at h
  split at h
  · cases h
  · rename_i index hindex
    refine ⟨index, hindex, ?_⟩
    split at h
    · cases h
    · rename_i hget
      cases h
      exact hget

/-- If the text is a quantile, the comparison has to be an order and the larger product has to fit. -/
theorem of_exact (hquantile : IsQuantile text)
    (hexact : ∀ std, Exact doubles hugeint std text (value :: values)) :
    StrictWeakOn (less doubles) (· ∈ value :: values) ∧ (value :: values).length < 2 ^ 63 ∧
      (value :: values).length * 10 ^ (fractionDigits text).length < 2 ^ 127 := by
  have hparse := (parseDecimalQuantile_eq_some_iff hugeint text).mpr ⟨hquantile, rfl⟩
  obtain ⟨_, v, -, -, hresult⟩ := (hexact (strictSort _)).result hquantile
  rw [quantileDisc_eq doubles hugeint hparse] at hresult
  obtain ⟨index, hindex, hget⟩ := quantileFinal_eq_ok doubles hresult
  refine ⟨?_, ?_, ?_⟩
  · by_contra hweak
    rw [strictSort] at hget
    dsimp only at hget
    rw [if_neg hweak] at hget
    cases hget
  · by_contra hlength
    rw [discreteIndex, if_pos (Nat.le_of_not_lt hlength)] at hindex
    cases hindex
  · have hfits := (hexact (strictSort _)).fits hquantile
      ((value :: values).length * 10 ^ (fractionDigits text).length)
      (by rw [products, hparse]; exact List.mem_append_right _ List.mem_cons_self)
    exact_mod_cast hfits.2

/-- These are enough. -/
theorem exact_of (hvalid : IsQuantile text →
      StrictWeakOn (less doubles) (· ∈ value :: values) ∧ (value :: values).length < 2 ^ 63 ∧
      (value :: values).length * 10 ^ (fractionDigits text).length < 2 ^ 127)
    (std : StdSort (Value D)) : Exact doubles hugeint std text (value :: values) := by
  have hpos : 1 ≤ (value :: values).length := Nat.succ_pos _
  refine ⟨parseDecimalQuantile_ne_none_iff hugeint text, fun hquantile => ?_,
    fun hquantile => ⟨le_max_left _ _, position_le hquantile hpos⟩, fun hquantile => ?_⟩
  · obtain ⟨-, -, hfits⟩ := hvalid hquantile
    have hle := (isQuantile_iff.mp hquantile).2.2
    rw [products, (parseDecimalQuantile_eq_some_iff hugeint text).mpr ⟨hquantile, rfl⟩,
      List.forall_mem_append]
    refine ⟨fits_of_mem_loopProducts hugeint text, ?_⟩
    rw [List.forall_mem_cons, List.forall_mem_singleton]
    refine ⟨by exact_mod_cast fits_natCast hfits, ?_⟩
    exact_mod_cast fits_natCast ((Nat.mul_le_mul_left _ hle).trans_lt hfits)
  · obtain ⟨hweak, hlength, hfits⟩ := hvalid hquantile
    have hsort := std.isSort _ _ hweak
    have hindex := discreteIndex_eq hugeint hquantile hlength hfits
    have hlt : position (value :: values).length text - 1 <
        (std.sort (less doubles) (value :: values)).length := by
      rw [hsort.perm.length_eq]
      have := position_le hquantile hpos
      omega
    refine ⟨_, _, hsort, List.getElem?_eq_getElem hlt, ?_⟩
    rw [quantileDisc_eq doubles hugeint
      ((parseDecimalQuantile_eq_some_iff hugeint text).mpr ⟨hquantile, rfl⟩), quantileFinal,
      if_neg (by simp), hindex]
    dsimp only
    rw [List.getElem?_eq_getElem hlt]

end Exact

/-- **Discrete quantiles of a decimal.** A text is accepted exactly if it is a quantile. The result is the
value at position `max 1 ⌈n * q⌉` of the sorted values and no product overflows if, and only if, the
comparison is a strict weak order on the values, and the number of values fits 64 bits and, times the
scaling, 128 bits. -/
theorem quantile_exact_iff (text : List Char) (value : Value D) (values : List (Value D)) :
    (∀ std, Exact doubles hugeint std text (value :: values)) ↔
      (IsQuantile text → StrictWeakOn (less doubles) (· ∈ value :: values) ∧
        (value :: values).length < 2 ^ 63 ∧
        (value :: values).length * 10 ^ (fractionDigits text).length < 2 ^ 127) :=
  ⟨fun hexact hquantile => of_exact doubles hquantile hexact, fun hvalid => exact_of doubles hvalid⟩

/-- Arithmetic that wraps around. -/
def wrapping : Hugeint where
  result n := (n + 2 ^ 127) % 2 ^ 128 - 2 ^ 127
  result_eq n h := by
    obtain ⟨hlow, hhigh⟩ := h
    rw [Int.emod_eq_of_lt (by omega) (by omega)]
    omega
  toInt64 n := (n + 2 ^ 63) % 2 ^ 64 - 2 ^ 63
  toInt64_eq n hlow hhigh := by
    rw [Int.emod_eq_of_lt (by omega) (by omega)]
    omega

/-- A zero with 29 decimal places. -/
def zero29 : List Char := "0.00000000000000000000000000000".toList

/-- The product of the number of values and the scaling wraps around to a negative number. -/
theorem discreteIndex_wrapping :
    discreteIndex wrapping 1701411835 0 (10 ^ 29) = .error .numericCast := by
  decide

theorem isQuantile_zero29 : IsQuantile zero29 := by
  have hdigits : (digits zero29).all Char.isDigit = true := by decide
  have hvalue : value (digits zero29) = 0 := by decide
  rw [isQuantile_iff, hvalue]
  exact ⟨⟨hdigits, by decide⟩, by decide, Nat.zero_le _⟩

/-- The minimum of 1701411835 values: the function fails. -/
theorem quantileDisc_zero29 (std : StdSort (Value D)) (value : Value D) (values : List (Value D))
    (hlength : (value :: values).length = 1701411835) :
    quantileDisc doubles wrapping std zero29 ((value :: values).map some) =
      .error .numericCast := by
  have hparse : parseDecimalQuantile wrapping zero29 = some (0, 10 ^ 29) :=
    (parseDecimalQuantile_eq_some_iff wrapping zero29).mpr ⟨isQuantile_zero29, by decide⟩
  rw [quantileDisc_eq doubles wrapping hparse, quantileFinal, if_neg (by simp)]
  simp only [hlength, discreteIndex_wrapping]

/-- The minimum of 1701411835 zeros, with a quantile of 29 decimal places: the product of the number of
values and the scaling does not fit, and the function fails. -/
theorem scaling_does_not_fit :
    (∀ std, quantileDisc (⟨id, id⟩ : Doubles ℤ ℤ) wrapping std zero29
        ((.integer 0 :: List.replicate 1701411834 (.integer 0)).map some) = .error .numericCast) ∧
      ¬ ∀ std, Exact (⟨id, id⟩ : Doubles ℤ ℤ) wrapping std zero29
        (.integer 0 :: List.replicate 1701411834 (.integer 0)) := by
  have hlength (value : Value ℤ) :
      (value :: List.replicate 1701411834 (.integer 0)).length = 1701411835 := by
    rw [List.length_cons, List.length_replicate]
  refine ⟨fun std => quantileDisc_zero29 _ std _ _ (hlength _), fun hexact => ?_⟩
  obtain ⟨-, -, hfits⟩ := of_exact _ isQuantile_zero29 hexact
  rw [hlength] at hfits
  exact absurd hfits (by decide)

end SqliteScanner.Aggregates.Quantile
