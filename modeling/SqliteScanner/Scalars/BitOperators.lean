import Mathlib.Algebra.Order.Ring.Int
import Mathlib.Data.BitVec
import Mathlib.Tactic.Linarith

/-!
# Bit operators

SQLite has no exclusive or, so `xor(x, y)` is written as `(x | y) - (x & y)`. As bits, `x | y` are
those of `x & y` and those of the exclusive or, without a carry, so the difference is the exclusive
or. But SQLite subtracts numbers, and goes on with floating-point numbers if the difference is out
of range. It never is (`toInt_or`), and the result is the exclusive or in the type of the operands,
whose width is another one than SQLite's (`writtenXor_eq`).

DuckDB's `<<` fails if a bit is shifted out or into the sign. `duckdb_shift_left` does so for the
width that the writer passes, which is one more for a type without a sign.

## Main definitions

* `IntegerType` — the integer types, and the values of one as words of its width.
* `writtenXor` — `(x | y) - (x & y)` in SQLite.
* `shiftLeft` — `SQLiteShiftLeftFunction`, in which a shift by a wrong amount is undefined.
* `StaysInType` — what the operators are for.

## Main results

* `toInt_or`
* `shiftLeft_eq`
* `bitOperators_stayInType`
-/

namespace SqliteScanner.Scalars.BitOperators

/-! ### Words -/

section Words

variable {w : ℕ}

/-- The bits of both words and the bits of one of them are different. -/
theorem and_add_xor (x y : BitVec w) : (x &&& y) + (x ^^^ y) = x ||| y := by
  rw [BitVec.add_eq_or_of_and_eq_zero]
  · ext i
    simp only [BitVec.getElem_or, BitVec.getElem_and, BitVec.getElem_xor]
    cases x[i] <;> cases y[i] <;> rfl
  · ext i
    simp only [BitVec.getElem_and, BitVec.getElem_xor, BitVec.getElem_zero]
    cases x[i] <;> cases y[i] <;> rfl

/-- **As numbers with a sign they add up as well.** There is room for the sum in one more bit. -/
theorem toInt_or (x y : BitVec w) : (x ||| y).toInt = (x &&& y).toInt + (x ^^^ y).toInt := by
  have hsum := congrArg BitVec.toInt (and_add_xor (x.signExtend (w + 1)) (y.signExtend (w + 1)))
  have hle := w.le_succ
  rw [← BitVec.signExtend_and, ← BitVec.signExtend_xor, ← BitVec.signExtend_or, BitVec.toInt_add,
    BitVec.toInt_signExtend_of_le hle, BitVec.toInt_signExtend_of_le hle,
    BitVec.toInt_signExtend_of_le hle] at hsum
  have hand : -2 ^ w ≤ 2 * (x &&& y).toInt := BitVec.le_two_mul_toInt
  have hand' : 2 * (x &&& y).toInt < 2 ^ w := BitVec.two_mul_toInt_lt
  have hxor : -2 ^ w ≤ 2 * (x ^^^ y).toInt := BitVec.le_two_mul_toInt
  have hxor' : 2 * (x ^^^ y).toInt < 2 ^ w := BitVec.two_mul_toInt_lt
  rw [← hsum]
  refine Int.bmod_eq_of_le_mul_two ?_ ?_
  · push_cast
    rw [pow_succ]
    linarith
  · push_cast
    rw [pow_succ]
    linarith

end Words

/-! ### Types -/

inductive IntegerType where
  | tinyint
  | smallint
  | integer
  | bigint
  | hugeint
  | utinyint
  | usmallint
  | uinteger
  | ubigint
  | uhugeint
  deriving DecidableEq

namespace IntegerType

def bits : IntegerType → ℕ
  | .tinyint | .utinyint => 8
  | .smallint | .usmallint => 16
  | .integer | .uinteger => 32
  | .bigint | .ubigint => 64
  | .hugeint | .uhugeint => 128

def isSigned : IntegerType → Bool
  | .tinyint | .smallint | .integer | .bigint | .hugeint => true
  | .utinyint | .usmallint | .uinteger | .ubigint | .uhugeint => false

/-- The number that a value of the type is. -/
def toInt (type : IntegerType) (x : BitVec type.bits) : ℤ :=
  if type.isSigned then x.toInt else x.toNat

/-- The largest number of the type. -/
def maximum (type : IntegerType) : ℤ :=
  if type.isSigned then 2 ^ (type.bits - 1) - 1 else 2 ^ type.bits - 1

/-- The integer of SQLite for a value of the type. -/
def Holds (type : IntegerType) (x : BitVec type.bits) (a : Int64) : Prop := a.toInt = type.toInt x

end IntegerType

/-! ### Exclusive or -/

section Xor

/-- `a - b` in SQLite, unless it goes on with floating-point numbers. -/
def subtract (a b : Int64) : Option Int64 :=
  if -9223372036854775808 ≤ a.toInt - b.toInt ∧ a.toInt - b.toInt ≤ 9223372036854775807 then
    some (a - b)
  else none

/-- What is written for `xor(a, b)`. -/
def writtenXor (a b : Int64) : Option Int64 := subtract (a ||| b) (a &&& b)

theorem writtenXor_eq (a b : Int64) : writtenXor a b = some (a ^^^ b) := by
  have hsum : (a ||| b).toInt = (a &&& b).toInt + (a ^^^ b).toInt := toInt_or a.toBitVec b.toBitVec
  have hword : (a &&& b) + (a ^^^ b) = (a ||| b) :=
    Int64.toBitVec_inj.mp (and_add_xor a.toBitVec b.toBitVec)
  have hlow := (a ^^^ b).le_toInt
  have hhigh := (a ^^^ b).toInt_le
  rw [writtenXor, subtract, hsum, add_sub_cancel_left, if_pos ⟨hlow, hhigh⟩, ← hword,
    Int64.add_comm, Int64.add_sub_cancel]

/-- A value of a type, with room for the values of all types. -/
def extend (type : IntegerType) (x : BitVec type.bits) : BitVec 129 :=
  if type.isSigned then x.signExtend 129 else x.setWidth 129

theorem bits_lt (type : IntegerType) : type.bits < 129 := by
  cases type <;> decide

theorem toInt_extend (type : IntegerType) (x : BitVec type.bits) :
    (extend type x).toInt = type.toInt x := by
  have hbits := bits_lt type
  rw [extend, IntegerType.toInt]
  split_ifs
  · exact BitVec.toInt_signExtend_of_le hbits.le
  · have hnat : (x.setWidth 129).toNat = x.toNat := BitVec.toNat_setWidth_of_le hbits.le
    have hlt : x.toNat < 2 ^ 128 := x.isLt.trans_le (Nat.pow_le_pow_right two_pos (by omega))
    rw [BitVec.toInt_eq_toNat_of_lt (by omega), hnat]

theorem extend_xor (type : IntegerType) (x y : BitVec type.bits) :
    extend type (x ^^^ y) = extend type x ^^^ extend type y := by
  rw [extend, extend, extend]
  split_ifs
  · exact BitVec.signExtend_xor
  · exact BitVec.setWidth_xor

/-- The integer of SQLite has the same bits. -/
theorem signExtend_of_holds {type : IntegerType} {x : BitVec type.bits} {a : Int64}
    (h : type.Holds x a) : a.toBitVec.signExtend 129 = extend type x := by
  refine BitVec.eq_of_toInt_eq ?_
  rw [BitVec.toInt_signExtend_of_le (by decide), toInt_extend]
  exact h

/-- **What is written is the exclusive or in the type.** -/
theorem holds_xor {type : IntegerType} {x y : BitVec type.bits} {a b : Int64} (ha : type.Holds x a)
    (hb : type.Holds y b) : type.Holds (x ^^^ y) (a ^^^ b) := by
  have hword : (a ^^^ b).toBitVec.signExtend 129 = extend type (x ^^^ y) := by
    rw [Int64.toBitVec_xor, BitVec.signExtend_xor, signExtend_of_holds ha, signExtend_of_holds hb,
      extend_xor]
  have hint := congrArg BitVec.toInt hword
  rw [BitVec.toInt_signExtend_of_le (by decide), toInt_extend] at hint
  exact hint

end Xor

/-! ### Shifts -/

section Shift

inductive Outcome where
  | value (n : ℤ)
  | error (message : String)
  | undefined
  deriving DecidableEq

/-- `<<` for 64-bit integers with a sign. It is undefined if the amount or the result is out of
range. -/
def cShiftLeft (x amount : ℤ) : Option ℤ :=
  if 0 ≤ amount ∧ amount < 64 then
    let n := x * 2 ^ amount.toNat
    if 0 ≤ n ∧ n ≤ 9223372036854775807 then some n else none
  else none

/-- `SQLiteShiftLeftFunction`, for arguments that are not `NULL`. -/
def shiftLeft (input shift maxShift : ℤ) : Outcome :=
  if input < 0 then .error ("Cannot left-shift negative number " ++ toString input)
  else if shift < 0 then .error ("Cannot left-shift by negative number " ++ toString shift)
  else if maxShift ≤ shift then
    if input = 0 then .value 0
    else .error ("Left-shift value " ++ toString shift ++ " is out of range")
  else if shift = 0 ∨ input = 0 then .value input
  else
    match cShiftLeft 1 (maxShift - shift - 1) with
    | none => .undefined
    | some maxValue =>
      if maxValue ≤ input then
        .error ("Overflow in left shift (" ++ toString input ++ " << " ++ toString shift ++ ")")
      else
        match cShiftLeft input shift with
        | none => .undefined
        | some n => .value n

/-- The `max_shift` that the writer passes. -/
def maxShift (type : IntegerType) : Option ℕ :=
  let bits : Option ℕ :=
    match type with
    | .utinyint | .tinyint => some 8
    | .usmallint | .smallint => some 16
    | .uinteger | .integer => some 32
    | .bigint => some 64
    | _ => none
  bits.map (· + if type.isSigned then 0 else 1)

/-- The largest number of the type is the largest with one bit less. -/
theorem maximum_eq {type : IntegerType} {m : ℕ} (h : maxShift type = some m) :
    0 < m ∧ m ≤ 64 ∧ type.maximum = 2 ^ (m - 1) - 1 := by
  cases type with
  | hugeint | uhugeint | ubigint => contradiction
  | tinyint | smallint | integer | bigint | utinyint | usmallint | uinteger =>
    cases h
    decide

theorem toInt_le_maximum (type : IntegerType) (x : BitVec type.bits) :
    type.toInt x ≤ type.maximum := by
  rw [IntegerType.toInt, IntegerType.maximum]
  split_ifs
  · have := BitVec.toInt_lt (x := x)
    omega
  · have hlt : (x.toNat : ℤ) < 2 ^ type.bits := by exact_mod_cast x.isLt
    omega

theorem cShiftLeft_eq {x amount : ℤ} (hx : 0 ≤ x) (hlow : 0 ≤ amount) (hhigh : amount < 64)
    (hle : x * 2 ^ amount.toNat ≤ 9223372036854775807) :
    cShiftLeft x amount = some (x * 2 ^ amount.toNat) := by
  rw [cShiftLeft, if_pos ⟨hlow, hhigh⟩]
  exact if_pos ⟨by positivity, hle⟩

/-- A value is smaller than the `max_value` exactly if no bit of it is shifted out. -/
theorem lt_two_pow_sub_iff {x : ℤ} {n k : ℕ} (h : k ≤ n) :
    x < 2 ^ (n - k) ↔ x * 2 ^ k ≤ 2 ^ n - 1 := by
  have hpow : (2 : ℤ) ^ n = 2 ^ (n - k) * 2 ^ k := by rw [← pow_add, Nat.sub_add_cancel h]
  rw [Int.le_sub_one_iff, hpow]
  exact (mul_lt_mul_iff_left₀ (by positivity)).symm

/-- `1 << (max_shift - shift - 1)`. -/
theorem cShiftLeft_one {m k : ℕ} (hm : m ≤ 64) (hk : 0 < k) (hlt : k < m) :
    cShiftLeft 1 (m - k - 1) = some (2 ^ (m - 1 - k)) := by
  have hamount : ((m : ℤ) - k - 1).toNat = m - 1 - k := by omega
  have hpow : (2 : ℤ) ^ (m - 1 - k) ≤ 2 ^ 62 := pow_le_pow_right₀ one_le_two (by omega)
  rw [cShiftLeft_eq zero_le_one (by omega) (by omega) (by rw [hamount]; omega), hamount, one_mul]

/-- What is left after the first tests is a shift by at least one bit, of a value that is not zero.
-/
theorem shiftLeft_of_pos {x : ℤ} {m k : ℕ} (hm : m ≤ 64) (hx : 0 < x) (hk : 0 < k) (hlt : k < m) :
    shiftLeft x k m =
      if x * 2 ^ k ≤ 2 ^ (m - 1) - 1 then .value (x * 2 ^ k)
      else .error ("Overflow in left shift (" ++ toString x ++ " << " ++ toString (k : ℤ) ++ ")") := by
  rw [shiftLeft, if_neg (by omega), if_neg (by omega), if_neg (by omega), if_neg (by omega),
    cShiftLeft_one hm hk hlt]
  dsimp only
  have hiff : x < 2 ^ (m - 1 - k) ↔ x * 2 ^ k ≤ 2 ^ (m - 1) - 1 := lt_two_pow_sub_iff (by omega)
  by_cases hle : x * 2 ^ k ≤ 2 ^ (m - 1) - 1
  · have hpow : (2 : ℤ) ^ (m - 1) ≤ 2 ^ 63 := pow_le_pow_right₀ one_le_two (by omega)
    have hshift : cShiftLeft x k = some (x * 2 ^ k) :=
      cShiftLeft_eq hx.le (by omega) (by omega) (by rw [Int.toNat_natCast]; omega)
    rw [if_neg (not_le.mpr (hiff.mpr hle)), if_pos hle, hshift]
  · rw [if_pos (not_lt.mp (mt hiff.mp hle)), if_neg hle]

/-- **The shift is right, or there is an error.** -/
theorem shiftLeft_eq {x shift : ℤ} {m : ℕ} (hm : 0 < m) (hm' : m ≤ 64) (hx : x ≤ 2 ^ (m - 1) - 1) :
    ∃ message, shiftLeft x shift m =
      if 0 ≤ x ∧ 0 ≤ shift ∧ x * 2 ^ shift.toNat ≤ 2 ^ (m - 1) - 1 then
        .value (x * 2 ^ shift.toNat)
      else .error message := by
  rcases lt_or_ge x 0 with hneg | hnonneg
  · exact ⟨_, by rw [shiftLeft, if_pos hneg, if_neg (by omega)]⟩
  rcases lt_or_ge shift 0 with hshift | hshift
  · exact ⟨_, by rw [shiftLeft, if_neg (by omega), if_pos hshift, if_neg (by omega)]⟩
  obtain ⟨k, rfl⟩ : ∃ k : ℕ, shift = k := ⟨shift.toNat, by omega⟩
  simp only [hnonneg, hshift, true_and, Int.toNat_natCast]
  rcases hnonneg.eq_or_lt with rfl | hpos
  · -- Zero is zero, however far it is shifted.
    refine ⟨"", ?_⟩
    rw [zero_mul, if_pos hx, shiftLeft, if_neg (by omega), if_neg (by omega)]
    split_ifs <;> simp_all
  rcases Nat.eq_zero_or_pos k with rfl | hk
  · refine ⟨"", ?_⟩
    rw [pow_zero, mul_one, if_pos hx, shiftLeft, if_neg (by omega), if_neg (by omega),
      if_neg (by omega), if_pos (.inl rfl)]
  rcases lt_or_ge k m with hlt | hge
  · exact ⟨_, shiftLeft_of_pos hm' hpos hk hlt⟩
  · have hpow : (2 : ℤ) ^ (m - 1) ≤ 2 ^ k := pow_le_pow_right₀ one_le_two (by omega)
    have hmul : (2 : ℤ) ^ k ≤ x * 2 ^ k := le_mul_of_one_le_left (by positivity) hpos
    exact ⟨_, by rw [if_neg (by omega), shiftLeft, if_neg (by omega), if_neg (by omega),
      if_pos (by omega), if_neg (by omega)]⟩

end Shift

/-! ### The operators -/

/-- The operators compute in a type: the exclusive or of two values is that of the type, without a
number that SQLite cannot represent; and a shift to the left is exact, or there is an error. -/
structure StaysInType (type : IntegerType) (x y : BitVec type.bits) : Prop where
  xor : ∀ a b, type.Holds x a → type.Holds y b →
    ∃ c, writtenXor a b = some c ∧ type.Holds (x ^^^ y) c
  shiftLeft : ∀ m, maxShift type = some m → ∀ shift : Int64, ∃ message,
    BitOperators.shiftLeft (type.toInt x) shift.toInt m =
      if 0 ≤ type.toInt x ∧ 0 ≤ shift.toInt ∧
          type.toInt x * 2 ^ shift.toInt.toNat ≤ type.maximum then
        .value (type.toInt x * 2 ^ shift.toInt.toNat)
      else .error message

/-- **The bit operators stay within the type.** -/
theorem bitOperators_stayInType (type : IntegerType) (x y : BitVec type.bits) :
    StaysInType type x y where
  xor := by
    intro a b ha hb
    exact ⟨a ^^^ b, writtenXor_eq a b, holds_xor ha hb⟩
  shiftLeft := by
    intro m hm shift
    obtain ⟨hpos, hle, hmax⟩ := maximum_eq hm
    have hx := toInt_le_maximum type x
    rw [hmax] at hx ⊢
    exact shiftLeft_eq hpos hle hx

end SqliteScanner.Scalars.BitOperators
