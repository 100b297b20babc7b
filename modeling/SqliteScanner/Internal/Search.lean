import Mathlib.Data.List.Infix

/-!
# Searching a text for a pattern

Patterns are the regular expressions without nested repetition: a repetition is of one class of
characters. That is enough for the expressions one writes by hand to pick a code out of a message,
and it makes matching structurally recursive.

`ends r s` lists the ways in which `r` matches at the head of `s`, the preferred one first, as a
backtracking engine would try them: the left alternative before the right one, and the longer
repetition before the shorter. `search` takes the leftmost position at which there is one.

What is needed to reason about a search is not the order, but `Matches`, which says which texts the
pattern describes, and two facts: a search that fails finds nothing anywhere, and one that succeeds
has nothing before it.

A message that quotes a text is `List.intercalate quoted texts`. A factor of it either lies in one of
the `texts` or `Touches` a quotation.

## Main results

* `mem_ends` — the matcher is sound and complete for `Matches`.
* `search_eq_none`, `search_eq_some` — the leftmost match.
* `isInfix_or_touches` — where a factor of a message comes from.
-/

namespace Search

variable {α : Type}

/-- A regular expression over `α`. -/
inductive Pattern (α : Type) where
  | nil
  /-- One character of a class. -/
  | one (p : α → Bool)
  /-- As many characters of a class as possible. -/
  | many (p : α → Bool)
  | seq (r t : Pattern α)
  | alt (r t : Pattern α)
  /-- A numbered group. -/
  | group (n : ℕ) (r : Pattern α)

/-- The texts of the groups that took part in a match. -/
abbrev Groups (α : Type) := List (ℕ × List α)

/-- The ways to match at the head of a text: the groups, and what is left of the text. -/
def Pattern.ends : Pattern α → List α → List (Groups α × List α)
  | .nil, s => [([], s)]
  | .one _, [] => []
  | .one p, c :: s => if p c then [([], s)] else []
  | .many p, s => repeated p s
  | .seq r t, s => (r.ends s).flatMap fun x => (t.ends x.2).map fun y => (x.1 ++ y.1, y.2)
  | .alt r t, s => r.ends s ++ t.ends s
  | .group n r, s => (r.ends s).map fun x => ((n, s.take (s.length - x.2.length)) :: x.1, x.2)
where
  repeated (p : α → Bool) : List α → List (Groups α × List α)
    | [] => [([], [])]
    | c :: s => if p c then repeated p s ++ [([], c :: s)] else [([], c :: s)]

/-- The preferred match at the leftmost position. -/
def Pattern.search (r : Pattern α) : List α → Option (Groups α)
  | [] => ((r.ends []).head?).map Prod.fst
  | c :: s =>
    match (r.ends (c :: s)).head? with
    | some x => some x.1
    | none => r.search s

/-! ### What a pattern describes -/

/-- The pattern describes the text `w`, with these groups. -/
def Pattern.Matches : Pattern α → List α → Groups α → Prop
  | .nil, w, g => w = [] ∧ g = []
  | .one p, w, g => (∃ c, p c = true ∧ w = [c]) ∧ g = []
  | .many p, w, g => (∀ c ∈ w, p c = true) ∧ g = []
  | .seq r t, w, g => ∃ w₁ g₁ w₂ g₂, r.Matches w₁ g₁ ∧ t.Matches w₂ g₂ ∧ w = w₁ ++ w₂ ∧ g = g₁ ++ g₂
  | .alt r t, w, g => r.Matches w g ∨ t.Matches w g
  | .group n r, w, g => ∃ g', r.Matches w g' ∧ g = (n, w) :: g'

variable {g : Groups α}

theorem mem_repeated {p : α → Bool} {s s' : List α} :
    (g, s') ∈ Pattern.ends.repeated p s ↔ ∃ w, (∀ c ∈ w, p c = true) ∧ g = [] ∧ s = w ++ s' := by
  induction s with
  | nil =>
    simp only [Pattern.ends.repeated, List.mem_singleton, Prod.mk.injEq]
    constructor
    · rintro ⟨rfl, rfl⟩
      exact ⟨[], by simp, rfl, rfl⟩
    · rintro ⟨w, -, rfl, h⟩
      exact ⟨rfl, (List.append_eq_nil_iff.mp h.symm).2⟩
  | cons c s ih =>
    constructor
    · intro h
      by_cases hc : p c = true
      · simp only [Pattern.ends.repeated, hc, if_true, List.mem_append, ih, List.mem_singleton,
          Prod.mk.injEq] at h
        rcases h with ⟨w, hw, rfl, rfl⟩ | ⟨rfl, rfl⟩
        · exact ⟨c :: w, by simpa [hc] using hw, rfl, rfl⟩
        · exact ⟨[], by simp, rfl, rfl⟩
      · simp only [Pattern.ends.repeated, hc, Bool.false_eq_true, if_false, List.mem_singleton,
          Prod.mk.injEq] at h
        obtain ⟨rfl, rfl⟩ := h
        exact ⟨[], by simp, rfl, rfl⟩
    · rintro ⟨w, hw, rfl, hs⟩
      cases w with
      | nil =>
        simp only [List.nil_append] at hs
        subst hs
        by_cases hc : p c = true
        · simp [Pattern.ends.repeated, hc]
        · simp [Pattern.ends.repeated, hc]
      | cons d w =>
        obtain ⟨rfl, rfl⟩ := List.cons.inj hs
        have hc : p c = true := hw c List.mem_cons_self
        have hmem := ih.mpr ⟨w, fun d hd => hw d (List.mem_cons_of_mem _ hd), rfl, rfl⟩
        simp only [Pattern.ends.repeated, hc, if_true, List.mem_append]
        exact .inl hmem

/-- **The matcher** finds what the pattern describes, and nothing else. -/
theorem mem_ends {r : Pattern α} {s s' : List α} :
    (g, s') ∈ r.ends s ↔ ∃ w, r.Matches w g ∧ s = w ++ s' := by
  induction r generalizing s g s' with
  | nil =>
    simp only [Pattern.ends, Pattern.Matches, List.mem_singleton, Prod.mk.injEq]
    constructor
    · rintro ⟨rfl, rfl⟩
      exact ⟨[], ⟨rfl, rfl⟩, rfl⟩
    · rintro ⟨w, ⟨rfl, rfl⟩, rfl⟩
      exact ⟨rfl, rfl⟩
  | one p =>
    cases s with
    | nil => simp [Pattern.ends, Pattern.Matches]
    | cons c s =>
      simp only [Pattern.ends, Pattern.Matches]
      constructor
      · intro h
        obtain ⟨hc, h⟩ := List.mem_ite_nil_right.mp h
        obtain ⟨rfl, rfl⟩ := Prod.mk.inj (List.mem_singleton.mp h)
        exact ⟨[c], ⟨⟨c, hc, rfl⟩, rfl⟩, rfl⟩
      · rintro ⟨w, ⟨⟨d, hd, rfl⟩, rfl⟩, hs⟩
        obtain ⟨rfl, rfl⟩ := List.cons.inj hs
        simp [hd]
  | many p =>
    simp only [Pattern.ends, Pattern.Matches, mem_repeated, and_assoc]
  | seq r t ihr iht =>
    simp only [Pattern.ends, Pattern.Matches, List.mem_flatMap, List.mem_map, Prod.mk.injEq]
    constructor
    · rintro ⟨⟨g₁, s₁⟩, hr, ⟨g₂, s₂⟩, ht, rfl, rfl⟩
      obtain ⟨w₁, hw₁, rfl⟩ := ihr.mp hr
      obtain ⟨w₂, hw₂, hs₁⟩ : ∃ w₂, t.Matches w₂ g₂ ∧ s₁ = w₂ ++ s₂ := iht.mp ht
      exact ⟨w₁ ++ w₂, ⟨w₁, g₁, w₂, g₂, hw₁, hw₂, rfl, rfl⟩, by rw [hs₁, List.append_assoc]⟩
    · rintro ⟨w, ⟨w₁, g₁, w₂, g₂, hw₁, hw₂, rfl, rfl⟩, rfl⟩
      refine ⟨(g₁, w₂ ++ s'), ihr.mpr ⟨w₁, hw₁, List.append_assoc _ _ _⟩, ?_⟩
      exact ⟨(g₂, s'), iht.mpr ⟨w₂, hw₂, rfl⟩, rfl, rfl⟩
  | alt r t ihr iht =>
    simp only [Pattern.ends, Pattern.Matches, List.mem_append, ihr, iht, or_and_right, exists_or]
  | group n r ih =>
    simp only [Pattern.ends, Pattern.Matches, List.mem_map, Prod.mk.injEq]
    constructor
    · rintro ⟨⟨g', s₁⟩, hr, rfl, rfl⟩
      obtain ⟨w, hw, rfl⟩ := ih.mp hr
      exact ⟨w, ⟨g', hw, by simp⟩, rfl⟩
    · rintro ⟨w, ⟨g', hw, rfl⟩, rfl⟩
      exact ⟨(g', s'), ih.mpr ⟨w, hw, rfl⟩, by simp, rfl⟩

/-! ### Building patterns -/

section Building

variable [DecidableEq α]

/-- A text, character by character. -/
def Pattern.text : List α → Pattern α
  | [] => .nil
  | c :: s => .seq (.one (· == c)) (.text s)

/-- `r?`. -/
def Pattern.optional (r : Pattern α) : Pattern α := .alt r .nil

/-- `p+`. -/
def Pattern.some (p : α → Bool) : Pattern α := .seq (.one p) (.many p)

@[simp] theorem matches_text {l w : List α} :
    (Pattern.text l).Matches w g ↔ w = l ∧ g = [] := by
  induction l generalizing w g with
  | nil => rfl
  | cons c l ih =>
    simp only [Pattern.text, Pattern.Matches, ih, beq_iff_eq]
    constructor
    · rintro ⟨_, _, _, _, ⟨⟨_, rfl, rfl⟩, rfl⟩, ⟨rfl, rfl⟩, rfl, rfl⟩
      exact ⟨rfl, rfl⟩
    · rintro ⟨rfl, rfl⟩
      exact ⟨[c], [], l, [], ⟨⟨c, rfl, rfl⟩, rfl⟩, ⟨rfl, rfl⟩, rfl, rfl⟩

end Building

@[simp] theorem matches_optional {r : Pattern α} {w : List α} :
    r.optional.Matches w g ↔ r.Matches w g ∨ w = [] ∧ g = [] := Iff.rfl

@[simp] theorem matches_some {p : α → Bool} {w : List α} :
    (Pattern.some p).Matches w g ↔ w ≠ [] ∧ (∀ c ∈ w, p c = true) ∧ g = [] := by
  simp only [Pattern.some, Pattern.Matches]
  constructor
  · rintro ⟨_, _, w₂, _, ⟨⟨c, hc, rfl⟩, rfl⟩, ⟨hw₂, rfl⟩, rfl, rfl⟩
    exact ⟨by simp, by simpa [hc] using hw₂, rfl⟩
  · rintro ⟨hne, hw, rfl⟩
    cases w with
    | nil => exact absurd rfl hne
    | cons c w =>
      refine ⟨[c], [], w, [], ⟨⟨c, hw c List.mem_cons_self, rfl⟩, rfl⟩, ⟨?_, rfl⟩, rfl, rfl⟩
      exact fun d hd => hw d (List.mem_cons_of_mem c hd)

/-! ### The leftmost match -/

/-- Some part of the text is described by the pattern. -/
def Pattern.Occurs (r : Pattern α) (s : List α) : Prop :=
  ∃ pre w post g, r.Matches w g ∧ s = pre ++ (w ++ post)

/-- The pattern describes `w` after `pre` in the text, and nothing that starts before `w` does. -/
def Pattern.Leads (r : Pattern α) (s pre w : List α) (g : Groups α) : Prop :=
  r.Matches w g ∧ (∃ post, s = pre ++ (w ++ post)) ∧
    ∀ pre' w' post' g', r.Matches w' g' → s = pre' ++ (w' ++ post') → pre.length ≤ pre'.length

theorem ends_eq_nil {r : Pattern α} {s w : List α}
    (h : (r.ends s).head? = none) (hw : r.Matches w g) (post : List α) : s ≠ w ++ post := by
  rintro rfl
  have hmem : (g, post) ∈ r.ends (w ++ post) := mem_ends.mpr ⟨w, hw, rfl⟩
  rw [List.head?_eq_none_iff.mp h] at hmem
  exact List.not_mem_nil hmem

theorem search_eq_some {r : Pattern α} {s : List α} (h : r.search s = some g) :
    ∃ pre w, r.Leads s pre w g := by
  -- at the head of the text, nothing can start earlier
  have hhead : ∀ {s x}, (r.ends s).head? = some x → ∃ w, r.Leads s [] w x.1 := by
    intro s x hx
    obtain ⟨w, hw, hs⟩ := mem_ends.mp (List.mem_of_head? hx)
    exact ⟨w, hw, ⟨x.2, hs⟩, fun _ _ _ _ _ _ => Nat.zero_le _⟩
  induction s with
  | nil =>
    obtain ⟨x, hx, rfl⟩ := Option.map_eq_some_iff.mp h
    exact ⟨[], hhead hx⟩
  | cons c s ih =>
    simp only [Pattern.search] at h
    cases hx : (r.ends (c :: s)).head? with
    | some x =>
      rw [hx] at h
      cases h
      exact ⟨[], hhead hx⟩
    | none =>
      rw [hx] at h
      obtain ⟨pre, w, hw, ⟨post, hs⟩, hfirst⟩ := ih h
      refine ⟨c :: pre, w, hw, ⟨post, by rw [hs]; rfl⟩, fun pre' w' post' g' hw' hs' => ?_⟩
      cases pre' with
      | nil => exact absurd hs' (ends_eq_nil hx hw' post')
      | cons d pre' =>
        exact Nat.succ_le_succ (hfirst pre' w' post' g' hw' (List.cons.inj hs').2)

theorem search_eq_none {r : Pattern α} {s : List α} : r.search s = none ↔ ¬ r.Occurs s := by
  constructor
  · rintro h ⟨pre, w, post, g, hw, rfl⟩
    induction pre with
    | nil =>
      have hne : (r.ends (w ++ post)).head? ≠ none := fun hx => ends_eq_nil hx hw post rfl
      obtain ⟨x, hx⟩ := Option.ne_none_iff_exists'.mp hne
      cases hs : w ++ post with
      | nil | cons c s => simp [hs, Pattern.search, hs ▸ hx] at h
    | cons c pre ih =>
      simp only [List.cons_append, Pattern.search] at h
      split at h
      · cases h
      · exact ih h
  · intro h
    cases hs : r.search s with
    | none => rfl
    | some g =>
      obtain ⟨pre, w, hw, ⟨post, rfl⟩, -⟩ := search_eq_some hs
      exact absurd ⟨pre, w, post, g, hw, rfl⟩ h

instance (r : Pattern α) (s : List α) : Decidable (r.Occurs s) :=
  decidable_of_iff ((r.search s).isSome = true) (by
    rw [← Option.not_isNone, Bool.not_eq_true', ← Bool.not_eq_true, Option.isNone_iff_eq_none,
      search_eq_none, not_not])

/-! ### Messages that quote -/

/-- The factor of length `n` at the offset `i` of a message overlaps a quotation. -/
def Touches (quoted : List α) : List (List α) → ℕ → ℕ → Prop
  | t :: u :: texts, i, n =>
    t.length < i + n ∧ (i < t.length + quoted.length ∨
      Touches quoted (u :: texts) (i - (t.length + quoted.length)) n)
  | _, _, _ => False

theorem isInfix_or_touches {quoted : List α} {texts : List (List α)} {pre w post : List α}
    (hw : w ≠ []) (h : List.intercalate quoted texts = pre ++ (w ++ post)) :
    (∃ t ∈ texts, w <:+: t) ∨ Touches quoted texts pre.length w.length := by
  induction texts generalizing pre with
  | nil =>
    simp only [List.intercalate_nil] at h
    exact absurd (List.append_eq_nil_iff.mp (List.append_eq_nil_iff.mp h.symm).2).1 hw
  | cons t texts ih =>
    cases texts with
    | nil =>
      rw [List.intercalate_singleton] at h
      exact .inl ⟨t, List.mem_singleton_self t, pre, post, by rw [h, List.append_assoc]⟩
    | cons u texts =>
      rw [List.intercalate_cons_cons] at h
      by_cases hin : pre.length + w.length ≤ t.length
      · have hwhole : pre ++ w <+: t ++ (quoted ++ List.intercalate quoted (u :: texts)) :=
          ⟨post, by rw [List.append_assoc, ← h, List.append_assoc]⟩
        obtain ⟨rest, ht⟩ := List.prefix_of_prefix_length_le hwhole (List.prefix_append _ _)
          (by rwa [List.length_append])
        exact .inl ⟨t, List.mem_cons_self, pre, rest, ht⟩
      · refine or_iff_not_imp_right.mpr fun htouch => ?_
        have hurl : t.length + quoted.length ≤ pre.length :=
          Nat.le_of_not_lt fun hlt => htouch ⟨Nat.lt_of_not_le hin, .inl hlt⟩
        obtain ⟨pre', rfl⟩ := List.prefix_of_prefix_length_le
          (List.prefix_append (t ++ quoted) (List.intercalate quoted (u :: texts)))
          (h ▸ List.prefix_append pre _) (by rwa [List.length_append])
        rw [List.append_assoc (t ++ quoted) pre', List.append_cancel_left_eq] at h
        rcases ih h with ⟨v, hv, hwv⟩ | hrest
        · exact ⟨v, List.mem_cons_of_mem t hv, hwv⟩
        · refine absurd ⟨Nat.lt_of_not_le hin, .inr ?_⟩ htouch
          rwa [List.length_append, List.length_append, Nat.add_sub_cancel_left]

end Search
