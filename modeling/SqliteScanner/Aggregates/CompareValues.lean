import Mathlib.Data.Int.Order.Basic
import Mathlib.Order.Lattice
import SqliteScanner.Internal.Sorting

/-!
# Comparing values

The aggregates that sort compare values by `SQLiteCompareValues`: numbers by their value, texts and blobs
byte by byte, and numbers before all others.

Two integers are compared as integers, but an integer and a floating point number as floating point
numbers. So values of one storage class are totally ordered (`orderedOn_storageClass`), but integers and
floating point numbers together are not: different integers may be rounded to the same number, and then
each of them compares equal to it (`not_strictWeakOn_of_rounding`).
-/

namespace SqliteScanner.Aggregates

open Sorting

/-- A value of SQLite that is not `NULL`. Texts and blobs are bytes. -/
inductive Value (D : Type) where
  | integer (n : ℤ)
  | float (x : D)
  | text (bytes : List UInt8)
  | blob (bytes : List UInt8)
deriving DecidableEq

inductive StorageClass where
  | integer
  | float
  | text
  | blob
deriving DecidableEq

/-- `sqlite3_value_type`. -/
def Value.type {D : Type} : Value D → StorageClass
  | integer _ => .integer
  | float _ => .float
  | text _ => .text
  | blob _ => .blob

/-- The doubles of C++. They are compared by their value, and none is `NaN`: SQLite stores that as
`NULL`. -/
structure Doubles (D K : Type) where
  value : D → K
  /-- The value of an integer that is converted to a double. -/
  ofInt : ℤ → K

variable {D K : Type} [LinearOrder K] (doubles : Doubles D K)

/-- `memcmp` of the common part, and then the sizes. -/
def compareBytes (l r : List UInt8) : Ordering := compareList compare l r

/-- `SQLiteCompareValues`: the sign of its result. -/
def compareValues : Value D → Value D → Ordering
  | .integer l, .integer r => compare l r
  | .integer l, .float r => compare (doubles.ofInt l) (doubles.value r)
  | .float l, .integer r => compare (doubles.value l) (doubles.ofInt r)
  | .float l, .float r => compare (doubles.value l) (doubles.value r)
  -- like SQLite orders values of different storage classes
  | .integer _, .text _ | .integer _, .blob _ | .float _, .text _ | .float _, .blob _ => .lt
  | .text _, .integer _ | .blob _, .integer _ | .text _, .float _ | .blob _, .float _ => .gt
  | .text l, .text r | .text l, .blob r | .blob l, .text r | .blob l, .blob r => compareBytes l r

/-- The comparison that sorts are called with. -/
def less (l r : Value D) : Bool := compareValues doubles l r == .lt

/-! ### One storage class -/

section Class

def Value.toInt : Value D → ℤ
  | integer n => n
  | _ => 0

/-- The value of a number as a double. -/
def Value.toDouble : Value D → K
  | integer n => doubles.ofInt n
  | float x => doubles.value x
  | _ => doubles.ofInt 0

def Value.bytes : Value D → List UInt8
  | text bytes | blob bytes => bytes
  | _ => []

/-- Values of one storage class are compared by what they hold. -/
theorem compareValues_of_type {v w : Value D} (h : v.type = w.type) :
    compareValues doubles v w =
      match v.type with
      | .integer => compare v.toInt w.toInt
      | .float => compare (v.toDouble doubles) (w.toDouble doubles)
      | .text | .blob => compareBytes v.bytes w.bytes := by
  cases v <;> cases w <;> first | rfl | exact absurd h (by simp [Value.type])

/-- **Values of one storage class are totally ordered.** -/
theorem orderedOn_storageClass (c : StorageClass) :
    OrderedOn (compareValues doubles) fun v => v.type = c := by
  have hint : OrderedOn (compare : ℤ → ℤ → Ordering) fun _ => True := .of_transCmp
  have hdouble : OrderedOn (compare : K → K → Ordering) fun _ => True := .of_transCmp
  have hbyte : OrderedOn (compare : UInt8 → UInt8 → Ordering) fun _ => True := .of_transCmp
  have hbytes : OrderedOn compareBytes fun _ => True := hbyte.list.mono fun _ _ _ _ => trivial
  have heq : ∀ a b : Value D, a.type = c → b.type = c → a.type = b.type :=
    fun a b ha hb => ha.trans hb.symm
  cases c with
  | integer =>
    refine (hint.comap (f := Value.toInt) fun _ _ => trivial).congr fun a b ha hb => ?_
    rw [compareValues_of_type doubles (heq a b ha hb), ha]
  | float =>
    refine (hdouble.comap (f := Value.toDouble doubles) fun _ _ => trivial).congr fun a b ha hb => ?_
    rw [compareValues_of_type doubles (heq a b ha hb), ha]
  | text | blob =>
    refine (hbytes.comap (f := Value.bytes) fun _ _ => trivial).congr fun a b ha hb => ?_
    rw [compareValues_of_type doubles (heq a b ha hb), ha]

end Class

/-! ### Integers and floating point numbers together -/

/-- Two integers that are rounded to one number differ, but each compares equal to it. -/
theorem not_strictWeakOn_of_rounding {m n : ℤ} {x : D} (hlt : m < n)
    (hm : doubles.ofInt m = doubles.value x) (hn : doubles.ofInt n = doubles.value x) :
    ¬ StrictWeakOn (less doubles) (· ∈ [.integer m, .float x, .integer n]) := by
  intro h
  have hincomparable := h.incomparable (.integer m) (.float x) (.integer n) (by simp) (by simp)
    (by simp) (by simp [less, compareValues, hm]) (by simp [less, compareValues, hm])
    (by simp [less, compareValues, hn]) (by simp [less, compareValues, hn])
  have hless : less doubles (.integer m) (.integer n) = true := by
    rw [less, compareValues, compare_lt_iff_lt.mpr hlt]
    rfl
  rw [hincomparable.1] at hless
  exact Bool.false_ne_true hless

end SqliteScanner.Aggregates
