import Mathlib

/-!
# Buckets of a linear order

A linear order is cut into buckets: every element is in the bucket of some index, and every bucket
has a first element. That an element is not before the first one of a bucket exactly if its own
bucket is not before that bucket says that the first elements and the indices are a Galois
connection, and everything here is read off from that.

Going to the first element of the own bucket is rounding down. Two elements are rounded to the same
element if they are in the same bucket, so the difference of the indices, which counts the buckets
between two elements, compares what the elements are rounded to.

## Main definitions

* `Buckets` — the indices and the first elements.
* `Buckets.floor` — rounding down.
* `Buckets.comp` — buckets of buckets.

## Main results

* `Buckets.floor_le`, `Buckets.floor_mono`, `Buckets.floor_floor` — rounding down is a kernel
  operator.
* `Buckets.floor_lt_iff`, `Buckets.floor_eq_iff` — indices are compared as what is rounded.
-/

/-- Buckets of `β` with indices in `α`. -/
structure Buckets (α β : Type*) [Preorder α] [Preorder β] where
  index : β → α
  start : α → β
  gc : GaloisConnection start index

namespace Buckets

/-! ### Rounding down -/

section Floor

variable {α β : Type*} [LinearOrder α] [LinearOrder β] (b : Buckets α β)

/-- The first element of the bucket of an element. -/
def floor (x : β) : β := b.start (b.index x)

theorem floor_le (x : β) : b.floor x ≤ x := b.gc.l_u_le x

theorem floor_mono : Monotone b.floor := b.gc.monotone_l.comp b.gc.monotone_u

theorem floor_floor (x : β) : b.floor (b.floor x) = b.floor x := b.gc.l_u_l_eq_l (b.index x)

theorem index_floor (x : β) : b.index (b.floor x) = b.index x := b.gc.u_l_u_eq_u x

/-- **Order.** An earlier bucket has an earlier first element. -/
theorem floor_lt_iff (x y : β) : b.floor x < b.floor y ↔ b.index x < b.index y := by
  rw [← b.index_floor x]
  exact b.gc.lt_iff_lt

/-- **Equality.** Different buckets have different first elements. -/
theorem floor_eq_iff (x y : β) : b.floor x = b.floor y ↔ b.index x = b.index y := by
  constructor
  · intro h
    rw [← b.index_floor x, h, b.index_floor y]
  · intro h
    rw [floor, h, floor]

end Floor

/-! ### Building buckets -/

/-- Buckets whose first elements are in buckets. -/
def comp {α β γ : Type*} [Preorder α] [Preorder β] [Preorder γ] (b : Buckets β γ) (c : Buckets α β) :
    Buckets α γ where
  index := c.index ∘ b.index
  start := b.start ∘ c.start
  gc := c.gc.compose b.gc

/-- First elements that increase, and every element between the first one of its bucket and the
first one of the next. -/
def ofBetween (start index : ℤ → ℤ) (hmono : Monotone start)
    (h : ∀ n, start (index n) ≤ n ∧ n < start (index n + 1)) : Buckets ℤ ℤ where
  index := index
  start := start
  gc i n := by
    constructor
    · intro hle
      by_contra hlt
      have hnext := hmono (show index n + 1 ≤ i by omega)
      have hn := (h n).2
      omega
    · intro hle
      exact (hmono hle).trans (h n).1

/-- Buckets of `k` numbers, the first of which are the multiples of `k`. -/
def multiples (k : ℤ) (hk : 0 < k) : Buckets ℤ ℤ where
  index n := n / k
  start i := i * k
  gc _ _ := (Int.le_ediv_iff_mul_le hk).symm

end Buckets
