import Mathlib.Data.List.Perm.Basic
import Mathlib.Data.List.Forall2
import Mathlib.Data.Multiset.Dedup
import Mathlib.Data.Multiset.MapFold
import Mathlib.Data.Set.Function

/-!
# Operators on bags, and maps under them

A function that is applied to every row commutes with the sum of two bags, and with little else.
This file says for each of the operators that compare rows exactly when a map may be moved from
above it to below it.

* Removing duplicates, and with it a union: the map must not make two rows equal.
* A difference: it must not make two rows of the result equal, nor a row of the result equal to one
  that is taken away.
* An intersection: it must not make two rows of the result equal, nor two rows that are not in the
  result by anything but a row that is.

A prefix of the rows in some order is not a function of the bag: rows that the order does not
tell apart may come in any order. So `Window` is a relation, and the statement about it is that the
possible results correspond.
-/

namespace BagMap

section Operators

variable {α β : Type} {f : α → β}

/-- A bag without duplicates is the image of another one when its members are the images, each of
one member only. -/
theorem eq_map_iff {M : Multiset α} {N : Multiset β} (hM : M.Nodup) (hN : N.Nodup) :
    N = M.map f ↔ Set.InjOn f {a | a ∈ M} ∧ ∀ b, b ∈ N ↔ ∃ a ∈ M, f a = b := by
  constructor
  · rintro rfl
    exact ⟨fun x hx y hy => Multiset.inj_on_of_nodup_map hN x hx y hy, fun b => Multiset.mem_map⟩
  · rintro ⟨hinj, hmem⟩
    have hnodup : (M.map f).Nodup := Multiset.Nodup.map_on (fun x hx y hy => hinj hx hy) hM
    refine (Multiset.Nodup.ext hN hnodup).mpr fun b => ?_
    rw [hmem b, Multiset.mem_map]

theorem sum_map_map (Bs : List (Multiset α)) :
    (Bs.map (Multiset.map f)).sum = Bs.sum.map f := by
  induction Bs with
  | nil => rfl
  | cons B Bs ih => rw [List.map_cons, List.sum_cons, List.sum_cons, Multiset.map_add, ih]

variable [DecidableEq α] [DecidableEq β]

/-- The rows of the first bag that are not in the second, once each. -/
def except (A B : Multiset α) : Multiset α :=
  (A.filter fun a => a ∉ B).dedup

/-- The rows of a bag that are in all of a list of bags, once each. -/
def intersect (A : Multiset α) (Bs : List (Multiset α)) : Multiset α :=
  (A.filter fun a => ∀ B ∈ Bs, a ∈ B).dedup

theorem nodup_except (A B : Multiset α) : (except A B).Nodup :=
  Multiset.nodup_dedup _

theorem nodup_intersect (A : Multiset α) (Bs : List (Multiset α)) : (intersect A Bs).Nodup :=
  Multiset.nodup_dedup _

@[simp] theorem mem_except {A B : Multiset α} {a : α} : a ∈ except A B ↔ a ∈ A ∧ a ∉ B := by
  simp [except]

@[simp] theorem mem_intersect {A : Multiset α} {Bs : List (Multiset α)} {a : α} :
    a ∈ intersect A Bs ↔ a ∈ A ∧ ∀ B ∈ Bs, a ∈ B := by
  simp [intersect]

/-- **Duplicates.** -/
theorem dedup_map_iff (M : Multiset α) :
    (M.map f).dedup = M.dedup.map f ↔ Set.InjOn f {a | a ∈ M} := by
  rw [eq_map_iff (Multiset.nodup_dedup _) (Multiset.nodup_dedup _)]
  simp only [Multiset.mem_dedup, Multiset.mem_map, implies_true, and_true]

/-- **Difference.** -/
theorem except_map_iff (A B : Multiset α) :
    except (A.map f) (B.map f) = (except A B).map f ↔
      Set.InjOn f {a | a ∈ A ∧ a ∉ B} ∧ ∀ a ∈ A, a ∉ B → f a ∉ B.map f := by
  rw [eq_map_iff (nodup_except _ _) (nodup_except _ _)]
  simp only [mem_except]
  refine and_congr_right fun _ => ⟨fun h a ha hB => ?_, fun h b => ⟨?_, ?_⟩⟩
  · exact ((h (f a)).mpr ⟨a, ⟨ha, hB⟩, rfl⟩).2
  · rintro ⟨hb, hnot⟩
    obtain ⟨a, ha, rfl⟩ := Multiset.mem_map.mp hb
    exact ⟨a, ⟨ha, fun hB => hnot (Multiset.mem_map_of_mem f hB)⟩, rfl⟩
  · rintro ⟨a, ⟨ha, hB⟩, rfl⟩
    exact ⟨Multiset.mem_map_of_mem f ha, h a ha hB⟩

/-- **Intersection.** -/
theorem intersect_map_iff (A : Multiset α) (Bs : List (Multiset α)) :
    intersect (A.map f) (Bs.map (Multiset.map f)) = (intersect A Bs).map f ↔
      Set.InjOn f {a | a ∈ A ∧ ∀ B ∈ Bs, a ∈ B} ∧
        ∀ a ∈ A, (∀ B ∈ Bs, f a ∈ B.map f) → ∃ a' ∈ A, (∀ B ∈ Bs, a' ∈ B) ∧ f a' = f a := by
  rw [eq_map_iff (nodup_intersect _ _) (nodup_intersect _ _)]
  simp only [mem_intersect, List.forall_mem_map]
  refine and_congr_right fun _ => ⟨fun h a ha hB => ?_, fun h b => ⟨?_, ?_⟩⟩
  · obtain ⟨a', ⟨ha', hB'⟩, heq⟩ := (h (f a)).mp ⟨Multiset.mem_map_of_mem f ha, hB⟩
    exact ⟨a', ha', hB', heq⟩
  · rintro ⟨hb, hall⟩
    obtain ⟨a, ha, rfl⟩ := Multiset.mem_map.mp hb
    obtain ⟨a', ha', hB', heq⟩ := h a ha hall
    exact ⟨a', ⟨ha', hB'⟩, heq⟩
  · rintro ⟨a, ⟨ha, hB⟩, rfl⟩
    exact ⟨Multiset.mem_map_of_mem f ha, fun B hmem => Multiset.mem_map_of_mem f (hB B hmem)⟩

end Operators

/-! ### Windows -/

section Window

variable {α β : Type}

/-- The first rows of a list; all of them without a limit. -/
def takeLimit : Option ℕ → List α → List α
  | none, l => l
  | some n, l => l.take n

theorem takeLimit_map (f : α → β) (limit : Option ℕ) (l : List α) :
    takeLimit limit (l.map f) = (takeLimit limit l).map f := by
  cases limit with
  | none => rfl
  | some n => exact List.map_take.symm

/-- `W` is what a limit and an offset may leave of the rows of `M` in the given order. Without
them the order is of no consequence. -/
def Window (le : α → α → Prop) (limit : Option ℕ) (offset : ℕ) (M W : Multiset α) : Prop :=
  if limit = none ∧ offset = 0 then W = M
  else ∃ l : List α, (l : Multiset α) = M ∧ l.Pairwise le ∧
    W = (takeLimit limit (l.drop offset) : List α)

variable {le : α → α → Prop} {limit : Option ℕ} {offset : ℕ} {M : Multiset α}

/-- Without a limit and an offset the window is the whole bag. -/
theorem window_none {W : Multiset α} (h : limit = none ∧ offset = 0) :
    Window le limit offset M W ↔ W = M := by
  rw [Window, if_pos h]

theorem window_le {W : Multiset α} (h : Window le limit offset M W) : W ≤ M := by
  rw [Window] at h
  split at h
  · exact h.le
  · obtain ⟨l, rfl, -, rfl⟩ := h
    refine Multiset.coe_le.mpr (List.Sublist.subperm ?_)
    cases limit with
    | none => exact List.drop_sublist offset l
    | some n => exact (List.take_sublist n _).trans (List.drop_sublist offset l)

/-- Two orders that agree on a bag have the same windows of it. -/
theorem window_congr {le' : α → α → Prop} {W : Multiset α}
    (h : (limit = none ∧ offset = 0) ∨ ∀ x ∈ M, ∀ y ∈ M, le' x y ↔ le x y) :
    Window le' limit offset M W ↔ Window le limit offset M W := by
  by_cases hnone : limit = none ∧ offset = 0
  · rw [window_none hnone, window_none hnone]
  have hle := h.resolve_left hnone
  simp only [Window, if_neg hnone]
  refine exists_congr fun l => and_congr_right fun hl => and_congr_left' ?_
  subst hl
  exact List.Pairwise.iff_of_mem fun hx hy => hle _ hx _ hy

/-- An arrangement of the image of a bag is the image of an arrangement of the bag. -/
theorem exists_map_eq_of_coe_eq_map {f : α → β} {l : List β} (h : (l : Multiset β) = M.map f) :
    ∃ l₀ : List α, (l₀ : Multiset α) = M ∧ l₀.map f = l := by
  induction M using Quotient.inductionOn with
  | _ m =>
    have hperm : List.Perm (m.map f) l := (Multiset.coe_eq_coe.mp h).symm
    have hcomp : Relation.Comp (List.Forall₂ fun a b => f a = b) List.Perm m l :=
      ⟨m.map f, by simp, hperm⟩
    rw [List.forall₂_comp_perm_eq_perm_comp_forall₂] at hcomp
    obtain ⟨l₀, hl₀, hmap⟩ := hcomp
    refine ⟨l₀, Multiset.coe_eq_coe.mpr hl₀.symm, ?_⟩
    exact List.forall₂_eq_eq_eq ▸ List.forall₂_map_left_iff.mpr hmap

/-- **Windows.** A map that keeps the order may be moved below a window. -/
theorem window_map_iff {f : α → β} {le' : β → β → Prop} {W' : Multiset β}
    (h : (limit = none ∧ offset = 0) ∨ ∀ x ∈ M, ∀ y ∈ M, le' (f x) (f y) ↔ le x y) :
    Window le' limit offset (M.map f) W' ↔
      ∃ W, Window le limit offset M W ∧ W' = W.map f := by
  by_cases hnone : limit = none ∧ offset = 0
  · simp [Window, hnone]
  have hle := h.resolve_left hnone
  simp only [Window, if_neg hnone]
  constructor
  · rintro ⟨l', hl', hsorted, rfl⟩
    obtain ⟨l, rfl, rfl⟩ := exists_map_eq_of_coe_eq_map hl'
    rw [List.pairwise_map] at hsorted
    refine ⟨_, ⟨l, rfl, ?_, rfl⟩, ?_⟩
    · exact (List.Pairwise.iff_of_mem fun hx hy => hle _ hx _ hy).mp hsorted
    · rw [← List.map_drop, takeLimit_map, Multiset.map_coe]
  · rintro ⟨_, ⟨l, rfl, hsorted, rfl⟩, rfl⟩
    refine ⟨l.map f, rfl, ?_, ?_⟩
    · rw [List.pairwise_map]
      exact (List.Pairwise.iff_of_mem fun hx hy => hle _ hx _ hy).mpr hsorted
    · rw [← List.map_drop, takeLimit_map, Multiset.map_coe]

end Window

end BagMap
