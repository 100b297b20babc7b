import Mathlib.Data.List.Basic
import Mathlib.Data.Nat.Digits.Defs

/-!
# Rolling words

A scanner that looks for words of `k` letters can keep the last `k` letters in one number: the number is
shifted by one digit, the new letter is added, and what leaves the word is lost. `window` is that
number for the letters that have been read, the latest first. If no letter is `0`, then the number is
the word (`window_eq_iff`): it says whether the word has just been read, also while there are fewer
than `k` letters.
-/

namespace Rolling

variable {α : Type} {b : ℕ} {digit : α → ℕ}

/-- The number of the last `k` letters, of which the latest comes first. -/
def window (b : ℕ) (digit : α → ℕ) (k : ℕ) (seen : List α) : ℕ :=
  Nat.ofDigits b ((seen.take k).map digit)

/-- The digits are those of a base, and none is `0`. -/
structure Digits (b : ℕ) (digit : α → ℕ) (seen : List α) : Prop where
  lt : ∀ a ∈ seen, digit a < b
  ne_zero : ∀ a ∈ seen, digit a ≠ 0

theorem Digits.take {seen : List α} (h : Digits b digit seen) (k : ℕ) :
    Digits b digit (seen.take k) :=
  ⟨fun a ha => h.lt a (List.mem_of_mem_take ha), fun a ha => h.ne_zero a (List.mem_of_mem_take ha)⟩

variable {seen : List α}

/-- A shorter word is the lower part of a longer one. -/
theorem window_mod (hpos : 0 < b) {j k : ℕ} (hjk : j ≤ k) (h : ∀ a ∈ seen, digit a < b) :
    window b digit k seen % b ^ j = window b digit j seen := by
  rw [window, window, Nat.ofDigits_mod_pow_eq_ofDigits_take j hpos, ← List.map_take, List.take_take,
    Nat.min_eq_left hjk]
  rw [List.forall_mem_map]
  exact fun a ha => h a (List.mem_of_mem_take ha)

/-- Reading a letter. -/
theorem window_cons (hpos : 0 < b) (k : ℕ) {a : α} (h : ∀ x ∈ a :: seen, digit x < b) :
    (window b digit k seen * b + digit a) % b ^ k = window b digit k (a :: seen) := by
  have hword : window b digit k seen * b + digit a = window b digit (k + 1) (a :: seen) := by
    rw [window, window, List.take_succ_cons, List.map_cons, Nat.ofDigits_cons, Nat.add_comm,
      Nat.mul_comm]
  rw [hword, window_mod hpos (Nat.le_succ k) h]

theorem map_injective_of_digits (hb : 1 < b) (hdigit : Function.Injective digit) {l m : List α}
    (hl : Digits b digit l) (hm : Digits b digit m)
    (heq : Nat.ofDigits b (l.map digit) = Nat.ofDigits b (m.map digit)) : l = m := by
  have hdigits : ∀ {n : List α}, Digits b digit n →
      Nat.digits b (Nat.ofDigits b (n.map digit)) = n.map digit := by
    intro n hn
    refine Nat.digits_ofDigits b hb _ ?_ ?_
    · rw [List.forall_mem_map]
      exact hn.lt
    · intro hne
      obtain ⟨a, ha, hlast⟩ := List.mem_map.mp (List.getLast_mem hne)
      rw [← hlast]
      exact hn.ne_zero a ha
  apply hdigit.list_map
  rw [← hdigits hl, ← hdigits hm, heq]

/-- **The number is the word that has just been read.** -/
theorem window_eq_iff (hb : 1 < b) (hdigit : Function.Injective digit) {word : List α}
    (hword : Digits b digit word) (hseen : Digits b digit seen) :
    window b digit word.length seen = Nat.ofDigits b (word.map digit) ↔ word <+: seen := by
  rw [List.prefix_iff_eq_take]
  constructor
  · exact fun heq => (map_injective_of_digits hb hdigit (hseen.take _) hword heq).symm
  · intro htake
    rw [window, ← htake]

end Rolling
