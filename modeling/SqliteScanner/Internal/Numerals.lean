import Mathlib.Data.Char
import Mathlib.Data.List.Induction
import Mathlib.Data.List.Lex
import Mathlib.Algebra.Group.Nat.Defs
import Mathlib.Data.Nat.Log
import Mathlib.Order.Lattice

/-!
# Numerals and the order of texts

Texts are lists of characters in lexicographic order. Numerals of one width are ordered as the numbers
they write, and texts made of fields of fixed widths are ordered field by field: `append_lt_append_iff`
takes one field off the front.

The digits of a decimal fraction are different: trailing zeros are left out, so two fractions may have
different lengths. Leaving out the zeros keeps the order, since no digit is below `'0'` and a text is
below its proper extensions.

## Main results

* `fixed_lt_fixed`, `value_fixed` — numerals of a fixed width.
* `value_decimal` — numerals without leading zeros.
* `trimZeros_lt_trimZeros`, `trimZeros_append` — decimal fractions.
-/

namespace Numerals

/-! ### Texts field by field -/

section Order

variable {α : Type*} [LinearOrder α]

theorem append_lt_append_iff {p q s t : List α} (h : p.length = q.length) :
    p ++ s < q ++ t ↔ p < q ∨ p = q ∧ s < t := by
  induction p generalizing q with
  | nil =>
    obtain rfl := List.length_eq_zero_iff.mp h.symm
    simp
  | cons a p ih =>
    cases q with
    | nil => simp at h
    | cons b q =>
      have hiff := ih (Nat.succ_injective h)
      simp only [List.cons_append, List.cons_lt_cons_iff, List.cons.injEq, hiff]
      tauto

theorem append_lt_append_of_lt {p q : List α} (h : p.length = q.length) (hlt : p < q)
    (s t : List α) : p ++ s < q ++ t :=
  (append_lt_append_iff h).mpr (.inl hlt)

theorem append_lt_append_left (p : List α) {s t : List α} (h : s < t) : p ++ s < p ++ t :=
  (append_lt_append_iff rfl).mpr (.inr ⟨rfl, h⟩)

end Order

/-! ### Numerals of a fixed width -/

/-- The last `w` digits of `n`. -/
def fixed : ℕ → ℕ → List Char
  | 0, _ => []
  | w + 1, n => fixed w (n / 10) ++ [Nat.digitChar (n % 10)]

/-- The number that digits write. -/
def value (s : List Char) : ℕ := s.foldl (fun n c => 10 * n + (c.toNat - 48)) 0

@[simp] theorem length_fixed (w n : ℕ) : (fixed w n).length = w := by
  induction w generalizing n with
  | zero => rfl
  | succ w ih => simp [fixed, ih]

theorem value_append_singleton (s : List Char) (c : Char) :
    value (s ++ [c]) = 10 * value s + (c.toNat - 48) := by
  simp [value]

theorem isDigit_iff {c : Char} : c.isDigit = true ↔ 48 ≤ c.toNat ∧ c.toNat ≤ 57 := by
  simp only [Char.isDigit, Bool.and_eq_true, decide_eq_true_eq, ge_iff_le, UInt32.le_iff_toNat_le]
  exact Iff.rfl

theorem value_lt {s : List Char} (h : ∀ c ∈ s, c.isDigit = true) : value s < 10 ^ s.length := by
  induction s using List.reverseRecOn with
  | nil => exact Nat.one_pos
  | append_singleton s c ih =>
    have hs := ih fun d hd => h d (List.mem_append_left _ hd)
    have hc := isDigit_iff.mp (h c (List.mem_append_right s List.mem_cons_self))
    rw [value_append_singleton, List.length_append, List.length_singleton, pow_succ]
    omega

theorem isDigit_digitChar {d : ℕ} (h : d < 10) : (Nat.digitChar d).isDigit = true := by
  have hall : ∀ d : Fin 10, (Nat.digitChar d).isDigit = true := by decide
  exact hall ⟨d, h⟩

theorem digitChar_lt_digitChar {a b : ℕ} (h : a < b) (hb : b < 10) :
    Nat.digitChar a < Nat.digitChar b := by
  have hall : ∀ a b : Fin 10, a < b → Nat.digitChar a < Nat.digitChar b := by decide
  exact hall ⟨a, h.trans hb⟩ ⟨b, hb⟩ h

theorem isDigit_of_mem_fixed {w n : ℕ} {c : Char} (h : c ∈ fixed w n) : c.isDigit = true := by
  induction w generalizing n with
  | zero => simp [fixed] at h
  | succ w ih =>
    rcases List.mem_append.mp h with h | h
    · exact ih h
    · rw [List.mem_singleton.mp h]
      exact isDigit_digitChar (Nat.mod_lt n (by decide))

theorem value_fixed {w n : ℕ} (h : n < 10 ^ w) : value (fixed w n) = n := by
  induction w generalizing n with
  | zero =>
    rw [pow_zero, Nat.lt_one_iff] at h
    rw [h]
    rfl
  | succ w ih =>
    rw [pow_succ] at h
    rw [fixed, value_append_singleton, ih (by omega),
      Nat.toNat_digitChar_of_lt_ten (Nat.mod_lt n (by decide))]
    omega

/-- Numerals of one width are ordered as the numbers. -/
theorem fixed_lt_fixed {w a b : ℕ} (h : a < b) (hb : b < 10 ^ w) : fixed w a < fixed w b := by
  induction w generalizing a b with
  | zero =>
    rw [pow_zero] at hb
    omega
  | succ w ih =>
    rw [pow_succ] at hb
    rw [fixed, fixed, append_lt_append_iff (by simp)]
    rcases Nat.lt_or_ge (a / 10) (b / 10) with hlt | hge
    · exact .inl (ih hlt (by omega))
    · have heq : a / 10 = b / 10 := by omega
      refine .inr ⟨by rw [heq], ?_⟩
      exact List.cons_lt_cons_iff.mpr
        (.inl (digitChar_lt_digitChar (by omega) (Nat.mod_lt b (by decide))))

/-! ### Integers -/

/-- The numeral of a number, without leading zeros. -/
def decimal (n : ℕ) : List Char := fixed (Nat.log 10 n + 1) n

theorem value_decimal (n : ℕ) : value (decimal n) = n :=
  value_fixed (Nat.lt_pow_succ_log_self (by decide) n)

theorem isDigit_of_mem_decimal {n : ℕ} {c : Char} (h : c ∈ decimal n) : c.isDigit = true :=
  isDigit_of_mem_fixed h

theorem decimal_ne_nil (n : ℕ) : decimal n ≠ [] := by
  intro h
  have := congrArg List.length h
  simp [decimal] at this

/-- The numeral of an integer. -/
def integer (n : ℤ) : List Char := if n < 0 then '-' :: decimal n.natAbs else decimal n.natAbs

/-! ### Decimal fractions -/

/-- Leave out the zeros at the end. -/
def trimZeros : List Char → List Char
  | [] => []
  | c :: s =>
    match trimZeros s with
    | [] => if c = '0' then [] else [c]
    | d :: t => c :: d :: t

theorem trimZeros_cons (c : Char) (s : List Char) :
    trimZeros (c :: s) = if c = '0' ∧ trimZeros s = [] then [] else c :: trimZeros s := by
  rw [trimZeros]
  cases trimZeros s with
  | nil => by_cases hc : c = '0' <;> simp [hc]
  | cons d t => simp

/-- The zeros that were left out. -/
theorem trimZeros_append (s : List Char) :
    trimZeros s ++ List.replicate (s.length - (trimZeros s).length) '0' = s ∧
      (trimZeros s).length ≤ s.length := by
  induction s with
  | nil => simp [trimZeros]
  | cons c s ih =>
    obtain ⟨ih, hle⟩ := ih
    rw [trimZeros_cons]
    by_cases h : c = '0' ∧ trimZeros s = []
    · rw [if_pos h]
      obtain ⟨rfl, hnil⟩ := h
      rw [hnil] at ih
      simp only [List.nil_append, List.length_nil, Nat.sub_zero] at ih
      exact ⟨by rw [List.nil_append, List.length_nil, Nat.sub_zero, List.length_cons,
        List.replicate_succ, ih], Nat.zero_le _⟩
    · rw [if_neg h, List.length_cons, List.length_cons, Nat.add_sub_add_right, List.cons_append, ih]
      exact ⟨rfl, Nat.succ_le_succ hle⟩

theorem trimZeros_lt_trimZeros {s t : List Char} (hlen : s.length = t.length)
    (hs : ∀ c ∈ s, '0' ≤ c) (h : s < t) : trimZeros s < trimZeros t := by
  induction s generalizing t with
  | nil =>
    obtain rfl := List.length_eq_zero_iff.mp hlen.symm
    exact absurd h (lt_irrefl _)
  | cons a s ih =>
    cases t with
    | nil => simp at hlen
    | cons b t =>
      -- the zeros of the left text may go, those of the right one do not
      have hkeep : ¬ (b = '0' ∧ trimZeros t = []) ∧ a :: trimZeros s < b :: trimZeros t := by
        rcases List.cons_lt_cons_iff.mp h with hab | ⟨rfl, hst⟩
        · refine ⟨fun hb => ?_, List.cons_lt_cons_iff.mpr (.inl hab)⟩
          exact absurd (hs a List.mem_cons_self) (not_le.mpr (hb.1 ▸ hab))
        · have hlt := ih (Nat.succ_injective hlen) (fun c hc => hs c (List.mem_cons_of_mem a hc)) hst
          refine ⟨fun hb => ?_, List.cons_lt_cons_iff.mpr (.inr ⟨rfl, hlt⟩)⟩
          rw [hb.2] at hlt
          exact List.not_lt_nil _ hlt
      rw [trimZeros_cons, trimZeros_cons, if_neg hkeep.1]
      split
      · exact List.nil_lt_cons _ _
      · exact hkeep.2

end Numerals
