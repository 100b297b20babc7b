import SqliteScanner.Internal.Utf8

/-!
# Patterns with wildcards

A pattern is a list of elements: a symbol that stands for itself, one that stands for any single
character (`one`) and one that stands for any text (`many`). A character can be more than one symbol:
the symbols that go on with a character are given by a predicate. For texts that are lists of
characters there are none.

A search for a pattern keeps a position in the pattern and in the text, and the last `many` that it
has passed together with the position where the search after it started. If it fails it starts again
there, one symbol later. It never goes back to an earlier `many`. `Position.Sound` says what it is
that makes this right: between the two positions there is no `many`, so that starting later ends
later (`consume_suffix`), and the next `many` takes up the difference.

The steps of such a search are the lemmas `found_consume`, `found_many`, `found_again` and
`found_end`: each of them keeps whether the pattern is found.

Last, patterns and texts can be compared as bytes of UTF-8 (`matches_encode`). A text that `many`
stands for may then start within a character, but this makes no difference.
-/

namespace Wildcards

inductive Elem (α : Type) where
  | lit (a : α)
  | one
  | many
  deriving DecidableEq

section Matches

variable {α : Type} (goesOn : α → Bool)

/-- Whether a text is in the language of a pattern. -/
def Matches : List (Elem α) → List α → Prop
  | [], s => s = []
  | .lit a :: es, s => ∃ t, s = a :: t ∧ Matches es t
  | .one :: es, s => ∃ a t, s = a :: t ∧ Matches es (t.dropWhile goesOn)
  | .many :: es, s => ∃ t, t <:+ s ∧ Matches es t

/-- What is left of a text after elements that are not `many`. -/
def consume [DecidableEq α] : List (Elem α) → List α → Option (List α)
  | [], s => some s
  | .lit a :: es, b :: s => if a = b then consume es s else none
  | .one :: es, _ :: s => consume es (s.dropWhile goesOn)
  | _, _ => none

/-- Elements that are not `many`. -/
def Fixed (es : List (Elem α)) : Prop := Elem.many ∉ es

variable {goesOn} {es p : List (Elem α)} {s t : List α}

theorem matches_many_of_suffix (h : t <:+ s) (ht : Matches goesOn (.many :: es) t) :
    Matches goesOn (.many :: es) s := by
  obtain ⟨u, hu, hes⟩ := ht
  exact ⟨u, hu.trans h, hes⟩

theorem matches_many_many :
    Matches goesOn (.many :: .many :: es) s ↔ Matches goesOn (.many :: es) s := by
  constructor
  · rintro ⟨t, ht, hes⟩
    exact matches_many_of_suffix ht hes
  · intro h
    exact ⟨s, List.suffix_refl s, h⟩

/-- The empty text is only matched by `many`. -/
theorem matches_empty : Matches goesOn es [] ↔ ∀ e ∈ es, e = .many := by
  induction es with
  | nil => simp [Matches]
  | cons e es ih =>
    cases e with
    | lit a | one => simp [Matches]
    | many =>
      simp only [Matches, List.mem_cons, forall_eq_or_imp, true_and, ← ih]
      constructor
      · rintro ⟨t, ht, hes⟩
        rwa [List.suffix_nil.mp ht] at hes
      · intro h
        exact ⟨[], List.suffix_refl [], h⟩

theorem suffix_dropWhile {q : α → Bool} (h : t <:+ s) : t.dropWhile q <:+ s.dropWhile q := by
  induction s with
  | nil =>
    obtain rfl := List.suffix_nil.mp h
    exact List.suffix_refl _
  | cons a s ih =>
    rcases List.suffix_cons_iff.mp h with rfl | h
    · exact List.suffix_refl _
    · rw [List.dropWhile_cons]
      split
      · exact ih h
      · exact (List.dropWhile_suffix q).trans (h.trans (List.suffix_cons a s))

theorem suffix_of_cons_suffix_cons {a b : α} (h : a :: t <:+ b :: s) : t <:+ s := by
  rcases List.suffix_cons_iff.mp h with heq | hsuffix
  · cases heq
    exact List.suffix_refl s
  · exact (List.suffix_cons a t).trans hsuffix

section Consume

variable [DecidableEq α]

theorem fixed_of_consume {u : List α} (h : consume goesOn es s = some u) : Fixed es := by
  induction es generalizing s with
  | nil => simp [Fixed]
  | cons e es ih =>
    cases e with
    | lit a =>
      cases s with
      | nil => cases h
      | cons b s =>
        rw [consume] at h
        split at h
        · simpa [Fixed] using ih h
        · cases h
    | one =>
      cases s with
      | nil => cases h
      | cons b s => simpa [Fixed] using ih h
    | many => cases s <;> cases h

theorem matches_append (hfixed : Fixed es) : Matches goesOn (es ++ p) s ↔
    ∃ t, consume goesOn es s = some t ∧ Matches goesOn p t := by
  induction es generalizing s with
  | nil => simp [consume]
  | cons e es ih =>
    have hes : Fixed es := fun h => hfixed (List.mem_cons_of_mem e h)
    cases e with
    | lit a =>
      cases s with
      | nil => simp [Matches, consume]
      | cons b s =>
        by_cases hab : a = b
        · simp [Matches, consume, hab, ih hes]
        · simp [Matches, consume, hab, Ne.symm hab]
    | one =>
      cases s with
      | nil => simp [Matches, consume]
      | cons b s => simp [Matches, consume, ih hes]
    | many => exact absurd List.mem_cons_self hfixed

/-- What starts later ends later. -/
theorem consume_suffix {u v : List α} (h : t <:+ s) (hs : consume goesOn es s = some u)
    (ht : consume goesOn es t = some v) : v <:+ u := by
  induction es generalizing s t with
  | nil =>
    cases hs
    cases ht
    exact h
  | cons e es ih =>
    cases s with
    | nil => cases e <;> cases hs
    | cons b s =>
      cases t with
      | nil => cases e <;> cases ht
      | cons c t =>
        have htail : t <:+ s := suffix_of_cons_suffix_cons h
        cases e with
        | lit a =>
          rw [consume] at hs ht
          split at hs
          · split at ht
            · exact ih htail hs ht
            · cases ht
          · cases hs
        | one => exact ih (suffix_dropWhile htail) hs ht
        | many => cases hs

end Consume

end Matches

/-! ### Searching -/

/-- A position of a search, and where to start again: the pattern after the last `many`, and the text
where the search for it started. -/
structure Position (α : Type) where
  pattern : List (Elem α)
  text : List α
  again : Option (List (Elem α) × List α)

section Search

variable {α : Type} {goesOn : α → Bool} {p p' : List (Elem α)} {s s' : List α}
  {again : Option (List (Elem α) × List α)}

/-- The pattern is found from here on, or by starting again later. -/
def Position.Found (goesOn : α → Bool) (x : Position α) : Prop :=
  Matches goesOn x.pattern x.text ∨
    ∃ q u, x.again = some (q, u) ∧ ∃ t, t <:+ u.tail ∧ Matches goesOn q t

theorem found_start : (⟨p, s, none⟩ : Position α).Found goesOn ↔ Matches goesOn p s := by
  simp [Position.Found]

theorem suffix_tail_of_ne {t u : List α} (h : t <:+ u) (hne : t ≠ u) : t <:+ u.tail := by
  cases u with
  | nil => exact absurd (List.suffix_nil.mp h) hne
  | cons b u => exact (List.suffix_cons_iff.mp h).resolve_left hne

/-- To search from a position and to start again from it is to search from all later ones. -/
theorem found_restart : (⟨p, s, some (p, s)⟩ : Position α).Found goesOn ↔
    Matches goesOn (.many :: p) s := by
  constructor
  · rintro (hp | ⟨q, u, heq, t, ht, hq⟩)
    · exact ⟨s, List.suffix_refl s, hp⟩
    · cases heq
      exact ⟨t, ht.trans (List.tail_suffix s), hq⟩
  · rintro ⟨t, ht, hp⟩
    by_cases hts : t = s
    · exact .inl (hts ▸ hp)
    · exact .inr ⟨p, s, rfl, t, suffix_tail_of_ne ht hts, hp⟩

/-- If the position fails, the search starts again one symbol later. -/
theorem found_again (h : ¬ Matches goesOn p s) :
    (⟨p, s, some (p', s')⟩ : Position α).Found goesOn ↔
      (⟨p', s'.tail, some (p', s'.tail)⟩ : Position α).Found goesOn := by
  rw [found_restart]
  constructor
  · rintro (hp | ⟨q, u, heq, hq⟩)
    · exact absurd hp h
    · cases heq
      exact hq
  · intro hp
    exact .inr ⟨p', s', rfl, hp⟩

theorem not_found_of_none (h : ¬ Matches goesOn p s) :
    ¬ (⟨p, s, none⟩ : Position α).Found goesOn :=
  mt found_start.mp h

variable [DecidableEq α]

/-- There is no `many` between the last one and the position. -/
def Position.Sound (goesOn : α → Bool) (x : Position α) : Prop :=
  ∀ q u, x.again = some (q, u) →
    ∃ es, q = es ++ x.pattern ∧ consume goesOn es u = some x.text

theorem sound_start : (⟨p, s, none⟩ : Position α).Sound goesOn := by
  rintro q u ⟨⟩

theorem sound_restart (p : List (Elem α)) (s : List α) :
    (⟨p, s, some (p, s)⟩ : Position α).Sound goesOn := by
  rintro q u ⟨⟩
  exact ⟨[], rfl, rfl⟩

theorem consume_append {es es' : List (Elem α)} {t : List α} (h : consume goesOn es s = some t) :
    consume goesOn (es ++ es') s = consume goesOn es' t := by
  induction es generalizing s with
  | nil =>
    cases h
    rfl
  | cons e es ih =>
    cases s with
    | nil => cases e <;> cases h
    | cons b s =>
      cases e with
      | lit a =>
        rw [List.cons_append, consume]
        rw [consume] at h
        split at h
        · case isTrue hab => rw [if_pos hab, ih h]
        · cases h
      | one => exact ih h
      | many => cases h

/-- A step that consumes elements of the pattern. -/
theorem Position.Sound.consume {es : List (Elem α)}
    (h : (⟨es ++ p, s, again⟩ : Position α).Sound goesOn)
    (hs : Wildcards.consume goesOn es s = some s') :
    (⟨p, s', again⟩ : Position α).Sound goesOn := by
  intro q u hagain
  obtain ⟨es', hq, hu⟩ := h q u hagain
  exact ⟨es' ++ es, by rw [hq, List.append_assoc], by rw [consume_append hu, hs]⟩

theorem found_consume {es : List (Elem α)} (hs : consume goesOn es s = some s') :
    (⟨es ++ p, s, again⟩ : Position α).Found goesOn ↔
      (⟨p, s', again⟩ : Position α).Found goesOn := by
  have hmatches : Matches goesOn (es ++ p) s ↔ Matches goesOn p s' := by
    rw [matches_append (fixed_of_consume hs)]
    simp [hs]
  simp only [Position.Found, hmatches]

/-- What the search would find by starting again is found after the elements in between. -/
theorem Position.Sound.matches_later (h : (⟨p, s, again⟩ : Position α).Sound goesOn)
    {q : List (Elem α)} {u t : List α} (hagain : again = some (q, u)) (ht : t <:+ u.tail)
    (hq : Matches goesOn q t) : ∃ v, v <:+ s ∧ Matches goesOn p v := by
  obtain ⟨es, rfl, hu⟩ := h q u hagain
  obtain ⟨v, hv, hp⟩ := (matches_append (fixed_of_consume hu)).mp hq
  exact ⟨v, consume_suffix (ht.trans (List.tail_suffix u)) hu hv, hp⟩

/-- **The last `many` is enough**: once the next one is reached, the earlier one is not needed. -/
theorem found_many (h : (⟨.many :: p, s, again⟩ : Position α).Sound goesOn) :
    (⟨.many :: p, s, again⟩ : Position α).Found goesOn ↔
      (⟨p, s, some (p, s)⟩ : Position α).Found goesOn := by
  rw [found_restart]
  constructor
  · rintro (hp | ⟨q, u, hagain, t, ht, hq⟩)
    · exact hp
    · obtain ⟨v, hv, hp⟩ := h.matches_later hagain ht hq
      exact matches_many_of_suffix hv hp
  · exact .inl

/-- At the end of the text there is nothing to start again for. -/
theorem found_end (h : (⟨p, [], again⟩ : Position α).Sound goesOn) :
    (⟨p, [], again⟩ : Position α).Found goesOn ↔ ∀ e ∈ p, e = .many := by
  rw [← matches_empty]
  constructor
  · rintro (hp | ⟨q, u, hagain, t, ht, hq⟩)
    · exact hp
    · obtain ⟨v, hv, hp⟩ := h.matches_later hagain ht hq
      rwa [List.suffix_nil.mp hv] at hp
  · exact .inl

end Search

/-! ### Texts as bytes -/

section Bytes

open Utf8

def encodeElem : Elem Char → List (Elem ℕ)
  | .lit c => (encodeChar c).map .lit
  | .one => [.one]
  | .many => [.many]

def encodeElems (es : List (Elem Char)) : List (Elem ℕ) := es.flatMap encodeElem

/-- The language of a pattern of characters. -/
abbrev MatchesChars (es : List (Elem Char)) (s : List Char) : Prop :=
  Matches (fun _ => false) es s

variable {es : List (Elem Char)} {s : List Char}

theorem encodeElems_cons (e : Elem Char) (es : List (Elem Char)) :
    encodeElems (e :: es) = encodeElem e ++ encodeElems es := by
  simp [encodeElems]

theorem matches_lits {bs t : List ℕ} {p : List (Elem ℕ)} :
    Matches isContinuation (bs.map .lit ++ p) t ↔
      ∃ u, t = bs ++ u ∧ Matches isContinuation p u := by
  induction bs generalizing t with
  | nil => simp
  | cons b bs ih =>
    simp only [List.map_cons, List.cons_append, Matches, ih]
    constructor
    · rintro ⟨_, rfl, u, rfl, hp⟩
      exact ⟨u, rfl, hp⟩
    · rintro ⟨u, rfl, hp⟩
      exact ⟨_, rfl, u, rfl, hp⟩

theorem matchesChars_one : MatchesChars (.one :: es) s ↔ ∃ c t, s = c :: t ∧ MatchesChars es t := by
  have hdrop (t : List Char) : t.dropWhile (fun _ => false) = t := by
    cases t <;> rfl
  simp only [MatchesChars, Matches, hdrop]

/-- A single character may as well come before the text that `many` stands for. -/
theorem matchesChars_many_one : MatchesChars (.many :: .one :: es) s ↔
    ∃ c t, s = c :: t ∧ MatchesChars (.many :: es) t := by
  constructor
  · rintro ⟨t, ht, hone⟩
    obtain ⟨c, u, rfl, hes⟩ := matchesChars_one.mp hone
    cases s with
    | nil => simp at ht
    | cons d s => exact ⟨d, s, rfl, u, suffix_of_cons_suffix_cons ht, hes⟩
  · rintro ⟨c, t, rfl, u, hu, hes⟩
    obtain ⟨v, rfl⟩ := hu
    -- The text before `u` now ends one character earlier.
    obtain ⟨w, d, hw⟩ : ∃ w d, c :: v = w ++ [d] :=
      ⟨_, _, (List.dropLast_append_getLast (List.cons_ne_nil c v)).symm⟩
    refine ⟨d :: u, ⟨w, ?_⟩, matchesChars_one.mpr ⟨d, u, rfl, hes⟩⟩
    rw [← List.cons_append, hw, List.append_assoc, List.singleton_append]

/-- A text has every symbol at least as often as the pattern that it matches. -/
theorem count_lit_le (c : Char) (h : MatchesChars es s) : es.count (.lit c) ≤ s.count c := by
  induction es generalizing s with
  | nil => simp
  | cons e es ih =>
    cases e with
    | lit d =>
      obtain ⟨t, rfl, hes⟩ := h
      have := ih hes
      by_cases hd : d = c
      · subst hd
        simpa using this
      · simpa [List.count_cons, hd] using this
    | one =>
      obtain ⟨d, t, rfl, hes⟩ := matchesChars_one.mp h
      have := ih hes
      rw [List.count_cons_of_ne (by simp)]
      exact Nat.le_trans this (List.count_le_count_cons)
    | many =>
      obtain ⟨t, ht, hes⟩ := h
      have := ih hes
      rw [List.count_cons_of_ne (by simp)]
      exact Nat.le_trans this (ht.sublist.count_le c)

theorem matchesChars_lits {cs : List Char} :
    MatchesChars (cs.map .lit ++ es) s ↔ ∃ t, s = cs ++ t ∧ MatchesChars es t := by
  induction cs generalizing s with
  | nil => simp
  | cons c cs ih =>
    simp only [List.map_cons, List.cons_append, MatchesChars, Matches]
    constructor
    · rintro ⟨t, rfl, h⟩
      obtain ⟨u, rfl, hes⟩ := ih.mp h
      exact ⟨u, rfl, hes⟩
    · rintro ⟨u, rfl, hes⟩
      exact ⟨cs ++ u, rfl, ih.mpr ⟨u, rfl, hes⟩⟩

theorem matchesChars_prefix {cs : List Char} :
    MatchesChars (cs.map .lit ++ [.many]) s ↔ cs <+: s := by
  rw [matchesChars_lits]
  constructor
  · rintro ⟨t, rfl, -⟩
    exact List.prefix_append cs t
  · rintro ⟨t, rfl⟩
    exact ⟨t, rfl, [], List.nil_suffix, rfl⟩

theorem matchesChars_suffix {cs : List Char} :
    MatchesChars (.many :: cs.map .lit) s ↔ cs <:+ s := by
  have hlits (t : List Char) : MatchesChars (cs.map .lit) t ↔ t = cs := by
    have h : MatchesChars (cs.map .lit ++ []) t ↔ _ := matchesChars_lits
    simpa [MatchesChars, Matches] using h
  simp only [MatchesChars, Matches]
  constructor
  · rintro ⟨t, ht, hcs⟩
    rwa [← (hlits t).mp hcs]
  · intro h
    exact ⟨cs, h, (hlits cs).mpr rfl⟩

/-- A character that is cut off at its start is as good as a whole one for `one`, and of no use for a
symbol. -/
theorem matches_within {c : Char} {cs : List ℕ} (hne : cs ≠ []) (hsuffix : cs <:+ encodeChar c)
    (hcs : ∀ x ∈ cs, isContinuation x = true)
    (h : Matches isContinuation (encodeElems es) (cs ++ encode s)) :
    Matches isContinuation (encodeElems es) (encode (c :: s)) := by
  obtain ⟨b, bs, hb, -, hbs⟩ := encodeChar_eq_cons c
  cases es with
  | nil => simp [encodeElems, Matches, hne] at h
  | cons e es =>
    rw [encodeElems_cons] at h ⊢
    cases e with
    | lit d =>
      obtain ⟨u, hu, -⟩ := matches_lits.mp h
      obtain ⟨b', bs', hb', hfirst, -⟩ := encodeChar_eq_cons d
      obtain ⟨x, cs, rfl⟩ := List.exists_cons_of_ne_nil hne
      rw [hb'] at hu
      obtain rfl : x = b' := (List.cons.inj hu).1
      rw [hcs x List.mem_cons_self] at hfirst
      cases hfirst
    | one =>
      rw [encodeElem, List.singleton_append] at h ⊢
      obtain ⟨x, cs, rfl⟩ := List.exists_cons_of_ne_nil hne
      obtain ⟨a, t, heq, hes⟩ := h
      rw [List.cons_append] at heq
      obtain ⟨rfl, rfl⟩ := List.cons.inj heq
      refine ⟨b, bs ++ encode s, by simp [hb], ?_⟩
      rw [dropWhile_append_encode fun y hy => hcs y (List.mem_cons_of_mem _ hy)] at hes
      rwa [dropWhile_append_encode hbs]
    | many =>
      obtain ⟨t, ht, hes⟩ := h
      obtain ⟨ds, hds⟩ := hsuffix
      refine ⟨t, ht.trans ⟨ds, ?_⟩, hes⟩
      rw [encode_cons, ← hds, List.append_assoc]

/-- **A pattern matches the bytes of a text if it matches the text.** -/
theorem matches_encode :
    Matches isContinuation (encodeElems es) (encode s) ↔ MatchesChars es s := by
  induction es generalizing s with
  | nil =>
    constructor
    · intro h
      exact encode_injective h
    · rintro rfl
      rfl
  | cons e es ih =>
    rw [encodeElems_cons]
    cases e with
    | lit c =>
      rw [encodeElem, matches_lits]
      constructor
      · rintro ⟨u, hu, hes⟩
        cases s with
        | nil =>
          obtain ⟨b, bs, hb, -⟩ := encodeChar_eq_cons c
          simp [hb] at hu
        | cons d s =>
          obtain ⟨rfl, rfl⟩ := encodeChar_append_inj hu
          exact ⟨s, rfl, ih.mp hes⟩
      · rintro ⟨t, rfl, hes⟩
        exact ⟨encode t, encode_cons c t, ih.mpr hes⟩
    | one =>
      rw [encodeElem, List.singleton_append, matchesChars_one]
      constructor
      · rintro ⟨a, t, ht, hes⟩
        cases s with
        | nil => cases ht
        | cons d s =>
          obtain ⟨b, bs, hb, -, hbs⟩ := encodeChar_eq_cons d
          rw [encode_cons, hb, List.cons_append] at ht
          obtain ⟨rfl, rfl⟩ := List.cons.inj ht
          rw [dropWhile_append_encode hbs] at hes
          exact ⟨d, s, rfl, ih.mp hes⟩
      · rintro ⟨d, t, rfl, hes⟩
        obtain ⟨b, bs, hb, -, hbs⟩ := encodeChar_eq_cons d
        refine ⟨b, bs ++ encode t, by simp [hb], ?_⟩
        rw [dropWhile_append_encode hbs]
        exact ih.mpr hes
    | many =>
      constructor
      · rintro ⟨bs, hbs, hes⟩
        rcases suffix_encode hbs with ⟨t, ht, rfl⟩ | ⟨c, t, cs, ht, rfl, hne, hsuffix, hcs⟩
        · exact ⟨t, ht, ih.mp hes⟩
        · exact ⟨c :: t, ht, ih.mp (matches_within hne hsuffix hcs hes)⟩
      · rintro ⟨t, ht, hes⟩
        exact ⟨encode t, encode_suffix ht, ih.mpr hes⟩

end Bytes

end Wildcards
