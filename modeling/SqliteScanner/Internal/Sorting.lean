import Mathlib.Data.List.Basic
import Mathlib.Order.Basic

/-!
# Sorting by a comparison that is only sometimes an order

A sort that is given a comparison promises something only if the comparison is a strict weak order on
the elements that are sorted. So orders are taken relative to a predicate here, and a comparison that
goes wrong for other elements may still be used.

`OrderedOn` is the same for comparisons with three results. These are what lexicographic orders are made
of: `OrderedOn.then_trans` is the step that adds a comparison in front.

The result of a stable sort is determined: its elements, tagged with their places in the list, are in the
order of the comparison and then of their places (`IsStableSort.unique`).
-/

namespace Sorting

variable {α β : Type}

/-! ### Strict weak orders -/

/-- The comparison is a strict weak order on the elements that satisfy `P`. -/
structure StrictWeakOn (lt : α → α → Bool) (P : α → Prop) : Prop where
  irrefl : ∀ a, P a → lt a a = false
  trans : ∀ a b c, P a → P b → P c → lt a b = true → lt b c = true → lt a c = true
  incomparable : ∀ a b c, P a → P b → P c → lt a b = false → lt b a = false → lt b c = false →
    lt c b = false → lt a c = false ∧ lt c a = false

namespace StrictWeakOn

variable {lt : α → α → Bool} {P : α → Prop} (h : StrictWeakOn lt P) {a b c : α}

include h

theorem asymm (ha : P a) (hb : P b) (hab : lt a b = true) : lt b a = false := by
  rw [← Bool.not_eq_true]
  intro hba
  have haa := h.trans a b a ha hb ha hab hba
  rw [h.irrefl a ha] at haa
  exact Bool.false_ne_true haa

/-- Not being greater is transitive. -/
theorem not_gt_trans (ha : P a) (hb : P b) (hc : P c) (hba : lt b a = false)
    (hcb : lt c b = false) : lt c a = false := by
  rw [← Bool.not_eq_true]
  intro hca
  have hab : lt a b = false := by
    rw [← Bool.not_eq_true]
    intro hab
    rw [h.trans c a b hc ha hb hca hab] at hcb
    exact Bool.false_ne_true hcb.symm
  have hbc : lt b c = false := by
    rw [← Bool.not_eq_true]
    intro hbc
    rw [h.trans b c a hb hc ha hbc hca] at hba
    exact Bool.false_ne_true hba.symm
  rw [(h.incomparable a b c ha hb hc hab hba hbc hcb).2] at hca
  exact Bool.false_ne_true hca

end StrictWeakOn

/-! ### Sorted lists -/

/-- What a sort may return. -/
structure IsSort (lt : α → α → Bool) (l r : List α) : Prop where
  perm : r.Perm l
  sorted : r.Pairwise fun a b => lt b a = false

/-- An element with its place comes before another one. -/
def Before (lt : α → α → Bool) (x y : α × ℕ) : Prop :=
  lt x.1 y.1 = true ∨ lt y.1 x.1 = false ∧ x.2 < y.2

/-- What a stable sort may return. -/
def IsStableSort (lt : α → α → Bool) (l r : List α) : Prop :=
  ∃ tagged : List (α × ℕ), tagged.Perm l.zipIdx ∧ tagged.Pairwise (Before lt) ∧
    tagged.map Prod.fst = r

def stableLe (lt : α → α → Bool) (x y : α × ℕ) : Bool :=
  !lt y.1 x.1 && (lt x.1 y.1 || x.2 ≤ y.2)

/-- A stable sort. -/
def stableSort (lt : α → α → Bool) (l : List α) : List α :=
  (l.zipIdx.mergeSort (stableLe lt)).map Prod.fst

section Stable

variable {lt : α → α → Bool} {l r : List α}

theorem mem_of_mem_zipIdx {x : α × ℕ} (hx : x ∈ l.zipIdx) : x.1 ∈ l := by
  obtain ⟨a, i⟩ := x
  exact List.fst_mem_of_mem_zipIdx hx

variable (h : StrictWeakOn lt (· ∈ l))

include h

theorem pairwise_mergeSort_stableLe :
    (l.zipIdx.mergeSort (stableLe lt)).Pairwise fun x y => stableLe lt x y = true := by
  have hattach := List.map_mergeSort (r := fun x y => stableLe lt x.1 y.1) (s := stableLe lt)
    (f := Subtype.val) (l := l.zipIdx.attach) fun _ _ _ _ => rfl
  rw [List.attach_map_subtype_val] at hattach
  rw [← hattach, List.pairwise_map]
  refine List.pairwise_mergeSort ?_ ?_ _
  · rintro ⟨x, hx⟩ ⟨y, hy⟩ ⟨z, hz⟩ hxy hyz
    have hx := mem_of_mem_zipIdx hx
    have hy := mem_of_mem_zipIdx hy
    have hz := mem_of_mem_zipIdx hz
    simp only [stableLe, Bool.and_eq_true, Bool.or_eq_true, Bool.not_eq_true', decide_eq_true_eq]
      at hxy hyz ⊢
    refine ⟨h.not_gt_trans hx hy hz hxy.1 hyz.1, ?_⟩
    by_cases hxz : lt x.1 z.1 = true
    · exact .inl hxz
    · -- then neither step was a strict one
      rw [Bool.not_eq_true] at hxz
      have hxy' := h.not_gt_trans hy hz hx hyz.1 hxz
      have hyz' := h.not_gt_trans hz hx hy hxz hxy.1
      exact .inr (Nat.le_trans (hxy.2.resolve_left (by rw [hxy']; exact Bool.false_ne_true))
        (hyz.2.resolve_left (by rw [hyz']; exact Bool.false_ne_true)))
  · rintro ⟨x, hx⟩ ⟨y, hy⟩
    have hx := mem_of_mem_zipIdx hx
    have hy := mem_of_mem_zipIdx hy
    simp only [stableLe, Bool.and_eq_true, Bool.or_eq_true, Bool.not_eq_true', decide_eq_true_eq]
    cases hxy : lt x.1 y.1 with
    | true => exact .inl ⟨h.asymm hx hy hxy, .inl rfl⟩
    | false =>
      cases hyx : lt y.1 x.1 with
      | true => exact .inr ⟨rfl, .inl rfl⟩
      | false =>
        rcases Nat.le_total x.2 y.2 with hle | hle
        · exact .inl ⟨rfl, .inr hle⟩
        · exact .inr ⟨rfl, .inr hle⟩

/-- A stable sort exists. -/
theorem isStableSort_stableSort : IsStableSort lt l (stableSort lt l) := by
  have hperm := List.mergeSort_perm l.zipIdx (stableLe lt)
  have hplaces : (l.zipIdx.mergeSort (stableLe lt)).Pairwise fun x y => x.2 ≠ y.2 := by
    refine hperm.symm.pairwise ?_ fun hne => hne.symm
    rw [← List.pairwise_map (f := Prod.snd) (R := (· ≠ ·)), List.zipIdx_map_snd]
    exact List.nodup_range'
  refine ⟨_, hperm, ?_, rfl⟩
  refine (hplaces.and (pairwise_mergeSort_stableLe h)).imp ?_
  rintro x y ⟨hne, hle⟩
  simp only [stableLe, Bool.and_eq_true, Bool.or_eq_true, Bool.not_eq_true', decide_eq_true_eq]
    at hle
  exact hle.2.imp id fun hplace => ⟨hle.1, Nat.lt_of_le_of_ne hplace hne⟩

/-- **The result of a stable sort is determined.** -/
theorem IsStableSort.unique {r' : List α} (hr : IsStableSort lt l r) (hr' : IsStableSort lt l r') :
    r = r' := by
  obtain ⟨p, hp, hsorted, rfl⟩ := hr
  obtain ⟨q, hq, hsorted', rfl⟩ := hr'
  refine congrArg (List.map Prod.fst) (List.Perm.eq_of_pairwise ?_ hsorted hsorted' (hp.trans hq.symm))
  intro x y hx hy hxy hyx
  have hx := mem_of_mem_zipIdx (hp.subset hx)
  have hy := mem_of_mem_zipIdx (hq.subset hy)
  rcases hxy with hlt | ⟨hnot, hplace⟩
  · rcases hyx with hlt' | ⟨hnot', -⟩
    · rw [h.asymm hx hy hlt] at hlt'
      exact absurd hlt' Bool.false_ne_true
    · rw [hnot'] at hlt
      exact absurd hlt Bool.false_ne_true
  · rcases hyx with hlt' | ⟨-, hplace'⟩
    · rw [hnot] at hlt'
      exact absurd hlt' Bool.false_ne_true
    · exact absurd hplace' (Nat.lt_asymm hplace)

/-- A stable sort is a sort. -/
theorem IsStableSort.isSort (hr : IsStableSort lt l r) : IsSort lt l r := by
  obtain ⟨p, hp, hsorted, rfl⟩ := hr
  refine ⟨?_, ?_⟩
  · have hfst := hp.map Prod.fst
    rwa [List.zipIdx_map_fst] at hfst
  · rw [List.pairwise_map]
    have hmem : ∀ x ∈ p, x.1 ∈ l := fun x hx => mem_of_mem_zipIdx (hp.subset hx)
    refine (List.pairwise_iff_forall_sublist.mpr fun {x y} hsub => ?_)
    have hbefore := List.pairwise_iff_forall_sublist.mp hsorted hsub
    have hx := hmem x (hsub.subset List.mem_cons_self)
    have hy := hmem y (hsub.subset (List.mem_cons_of_mem x List.mem_cons_self))
    exact hbefore.elim (h.asymm hx hy) And.left

end Stable

/-! ### Comparisons with three results -/

/-- The comparison is that of a total preorder on the elements that satisfy `P`. -/
structure OrderedOn (cmp : α → α → Ordering) (P : α → Prop) : Prop where
  swap : ∀ a b, P a → P b → cmp b a = (cmp a b).swap
  trans : ∀ a b c, P a → P b → P c → cmp a b ≠ .gt → cmp b c ≠ .gt → cmp a c ≠ .gt

namespace OrderedOn

variable {cmp cmp' : α → α → Ordering} {P : α → Prop}

theorem mono {Q : α → Prop} (h : OrderedOn cmp P) (hQ : ∀ a, Q a → P a) : OrderedOn cmp Q :=
  ⟨fun a b ha hb => h.swap a b (hQ a ha) (hQ b hb),
    fun a b c ha hb hc => h.trans a b c (hQ a ha) (hQ b hb) (hQ c hc)⟩

theorem congr (h : OrderedOn cmp P) (heq : ∀ a b, P a → P b → cmp' a b = cmp a b) :
    OrderedOn cmp' P := by
  refine ⟨fun a b ha hb => ?_, fun a b c ha hb hc => ?_⟩
  · rw [heq b a hb ha, heq a b ha hb, h.swap a b ha hb]
  · rw [heq a b ha hb, heq b c hb hc, heq a c ha hc]
    exact h.trans a b c ha hb hc

theorem comap {Q : β → Prop} {f : β → α} (h : OrderedOn cmp P) (hf : ∀ b, Q b → P (f b)) :
    OrderedOn (fun a b => cmp (f a) (f b)) Q :=
  ⟨fun a b ha hb => h.swap _ _ (hf a ha) (hf b hb),
    fun a b c ha hb hc => h.trans _ _ _ (hf a ha) (hf b hb) (hf c hc)⟩

/-- The reversed order. -/
theorem reverse (h : OrderedOn cmp P) : OrderedOn (fun a b => (cmp a b).swap) P := by
  refine ⟨fun a b ha hb => by rw [h.swap a b ha hb], fun a b c ha hb hc hab hbc => ?_⟩
  rw [← h.swap b c hb hc] at hbc
  rw [← h.swap a b ha hb] at hab
  rw [← h.swap a c ha hc]
  exact h.trans c b a hc hb ha hbc hab

theorem lt_of_lt_of_ne_gt (h : OrderedOn cmp P) {a b c : α} (ha : P a) (hb : P b) (hc : P c)
    (hab : cmp a b = .lt) (hbc : cmp b c ≠ .gt) : cmp a c = .lt := by
  have hac := h.trans a b c ha hb hc (by rw [hab]; decide) hbc
  by_contra hlt
  -- otherwise `c` is not greater than `a`, and so `b` is not either
  have hca : cmp c a ≠ .gt := by
    rw [h.swap a c ha hc]
    cases hcmp : cmp a c <;> simp_all
  have hba := h.trans b c a hb hc ha hbc hca
  rw [h.swap a b ha hb, hab] at hba
  exact hba rfl

theorem lt_of_ne_gt_of_lt (h : OrderedOn cmp P) {a b c : α} (ha : P a) (hb : P b) (hc : P c)
    (hab : cmp a b ≠ .gt) (hbc : cmp b c = .lt) : cmp a c = .lt := by
  have hac := h.trans a b c ha hb hc hab (by rw [hbc]; decide)
  by_contra hlt
  have hca : cmp c a ≠ .gt := by
    rw [h.swap a c ha hc]
    cases hcmp : cmp a c <;> simp_all
  have hcb := h.trans c a b hc ha hb hca hab
  rw [h.swap b c hb hc, hbc] at hcb
  exact hcb rfl

theorem eq_of_eq_of_eq (h : OrderedOn cmp P) {a b c : α} (ha : P a) (hb : P b) (hc : P c)
    (hab : cmp a b = .eq) (hbc : cmp b c = .eq) : cmp a c = .eq := by
  have hac := h.trans a b c ha hb hc (by rw [hab]; decide) (by rw [hbc]; decide)
  have hca := h.trans c b a hc hb ha (by rw [h.swap b c hb hc, hbc]; decide)
    (by rw [h.swap a b ha hb, hab]; decide)
  rw [h.swap a c ha hc] at hca
  cases hcmp : cmp a c <;> simp_all

theorem then_ne_gt {o o' : Ordering} : o.then o' ≠ .gt ↔ o = .lt ∨ o = .eq ∧ o' ≠ .gt := by
  cases o <;> simp [Ordering.then]

/-- What comes after a comparison decides only if the elements are equal in it. -/
theorem then_trans (h : OrderedOn cmp P) {a b c : α} (ha : P a) (hb : P b) (hc : P c)
    {o o' o'' : Ordering} (hrest : o ≠ .gt → o' ≠ .gt → o'' ≠ .gt) (hab : (cmp a b).then o ≠ .gt)
    (hbc : (cmp b c).then o' ≠ .gt) : (cmp a c).then o'' ≠ .gt := by
  rw [then_ne_gt] at hab hbc ⊢
  rcases hab with hab | ⟨hab, hab'⟩
  · have hbc' : cmp b c ≠ .gt := by rcases hbc with hbc | ⟨hbc, -⟩ <;> rw [hbc] <;> decide
    exact .inl (h.lt_of_lt_of_ne_gt ha hb hc hab hbc')
  · rcases hbc with hbc | ⟨hbc, hbc'⟩
    · exact .inl (h.lt_of_ne_gt_of_lt ha hb hc (by rw [hab]; decide) hbc)
    · exact .inr ⟨h.eq_of_eq_of_eq ha hb hc hab hbc, hrest hab' hbc'⟩

/-- Being less is a strict weak order. -/
theorem strictWeakOn (h : OrderedOn cmp P) : StrictWeakOn (fun a b => cmp a b == .lt) P := by
  have heq : ∀ a b, P a → P b → cmp a b ≠ .lt → cmp b a ≠ .lt → cmp a b = .eq := by
    intro a b ha hb hab hba
    rw [h.swap a b ha hb] at hba
    cases hcmp : cmp a b <;> simp_all
  refine ⟨fun a ha => ?_, fun a b c ha hb hc hab hbc => ?_, fun a b c ha hb hc hab hba hbc hcb => ?_⟩
  · have hself := h.swap a a ha ha
    cases hcmp : cmp a a <;> simp_all
  · rw [beq_iff_eq] at hab hbc ⊢
    exact h.lt_of_lt_of_ne_gt ha hb hc hab (by rw [hbc]; decide)
  · rw [beq_eq_false_iff_ne] at hab hba hbc hcb
    have hac := h.eq_of_eq_of_eq ha hb hc (heq a b ha hb hab hba) (heq b c hb hc hbc hcb)
    rw [beq_eq_false_iff_ne, beq_eq_false_iff_ne, h.swap a c ha hc, hac]
    decide

theorem of_transCmp [Std.TransCmp cmp] : OrderedOn cmp P := by
  refine ⟨fun a b _ _ => Std.OrientedCmp.eq_swap, fun a b c _ _ _ hab hbc => ?_⟩
  exact Ordering.ne_gt_iff_isLE.mpr (Std.TransCmp.isLE_trans (Ordering.ne_gt_iff_isLE.mp hab)
    (Ordering.ne_gt_iff_isLE.mp hbc))

end OrderedOn

/-! ### Lists -/

/-- The lexicographic comparison of lists. -/
def compareList (cmp : α → α → Ordering) : List α → List α → Ordering
  | [], [] => .eq
  | [], _ :: _ => .lt
  | _ :: _, [] => .gt
  | a :: as, b :: bs => (cmp a b).then (compareList cmp as bs)

theorem OrderedOn.list {cmp : α → α → Ordering} {P : α → Prop} (h : OrderedOn cmp P) :
    OrderedOn (compareList cmp) fun l => ∀ a ∈ l, P a := by
  constructor
  · intro l
    induction l with
    | nil => rintro (_ | ⟨b, m⟩) - - <;> rfl
    | cons a l ih =>
      rintro (_ | ⟨b, m⟩) hl hm
      · rfl
      · rw [List.forall_mem_cons] at hl hm
        rw [compareList, compareList, h.swap a b hl.1 hm.1, ih m hl.2 hm.2, Ordering.swap_then]
  · intro l
    induction l with
    | nil => rintro m (_ | ⟨c, n⟩) - - - hlm hmn <;> cases m <;> simp_all [compareList]
    | cons a l ih =>
      rintro (_ | ⟨b, m⟩) (_ | ⟨c, n⟩) hl hm hn hlm hmn
      · exact absurd rfl hlm
      · exact absurd rfl hlm
      · exact absurd rfl hmn
      · rw [List.forall_mem_cons] at hl hm hn
        exact h.then_trans hl.1 hm.1 hn.1 (ih m n hl.2 hm.2 hn.2) hlm hmn

end Sorting
