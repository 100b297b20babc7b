import SqliteScanner.Aggregates.CompareValues

/-!
# `arg_min` and `arg_max`

The aggregates keep the argument that goes with the smallest or largest value so far. Rows in which the
argument or the value is `NULL` are ignored, and a value replaces the kept one only if it is better. So
of several rows with the best value the first one counts (`argFinal_isFirstBest`).
-/

namespace SqliteScanner.Aggregates.ArgExtreme

open Sorting

variable {A D K : Type} [LinearOrder K] (doubles : Doubles D K) (isMax : Bool)

/-- `SQLiteArgStep`, for the argument and the value of a row. -/
def argStep (state : Option (A × Value D)) : Option A × Option (Value D) → Option (A × Value D)
  | (some arg, some val) =>
    match state with
    | some best =>
      let comparison := compareValues doubles val best.2
      if (if isMax then comparison ≠ .gt else comparison ≠ .lt) then state else some (arg, val)
    | none => some (arg, val)
  | _ => state

/-- `SQLiteArgFinal`, after the steps for all rows. -/
def argFinal (rows : List (Option A × Option (Value D))) : Option A :=
  (rows.foldl (argStep doubles isMax) none).map Prod.fst

/-- The rows without `NULL`. -/
def complete (rows : List (Option A × Option (Value D))) : List (A × Value D) :=
  rows.filterMap fun row => row.1.bind fun arg => row.2.map fun val => (arg, val)

/-- The order in which the best value is the first. -/
def prefer (a b : Value D) : Ordering :=
  if isMax then (compareValues doubles a b).swap else compareValues doubles a b

/-- The first row with the best value, if there is any: it is better than those before it and not worse
than those after it. -/
def IsFirstBest (rows : List (A × Value D)) : Option (A × Value D) → Prop
  | none => rows = []
  | some best => ∃ before after, rows = before ++ best :: after ∧
      (∀ row ∈ before, prefer doubles isMax best.2 row.2 = .lt) ∧
      ∀ row ∈ after, prefer doubles isMax best.2 row.2 ≠ .gt

variable {doubles isMax} {c : StorageClass}

theorem orderedOn_prefer : OrderedOn (prefer doubles isMax) fun v => v.type = c := by
  cases isMax with
  | true => exact (orderedOn_storageClass doubles c).reverse
  | false => exact orderedOn_storageClass doubles c

theorem argStep_some (best row : A × Value D) :
    argStep doubles isMax (some best) (some row.1, some row.2) =
      some (if prefer doubles isMax row.2 best.2 = .lt then row else best) := by
  cases isMax <;> cases hcmp : compareValues doubles row.2 best.2 <;> simp [argStep, prefer, hcmp]

/-- **Step lemma.** -/
theorem IsFirstBest.step {rows : List (A × Value D)} {state : Option (A × Value D)}
    {row : A × Value D} (h : IsFirstBest doubles isMax rows state) (hrow : row.2.type = c)
    (hrows : ∀ row ∈ rows, row.2.type = c) :
    IsFirstBest doubles isMax (rows ++ [row])
      (argStep doubles isMax state (some row.1, some row.2)) := by
  have hordered : OrderedOn (prefer doubles isMax) fun v => v.type = c := orderedOn_prefer
  cases state with
  | none =>
    cases h
    exact ⟨[], [], rfl, nofun, nofun⟩
  | some best =>
    obtain ⟨before, after, rfl, hbefore, hafter⟩ := h
    have hbest := hrows best (by simp)
    rw [argStep_some]
    split
    · case isTrue hlt =>
      refine ⟨_, [], rfl, fun other hother => ?_, nofun⟩
      refine hordered.lt_of_lt_of_ne_gt hrow hbest (hrows other hother) hlt ?_
      rcases List.mem_append.mp hother with hother | hother
      · rw [hbefore other hother]
        decide
      rcases List.mem_cons.mp hother with rfl | hother
      · have hswap := hordered.swap other.2 other.2 hbest hbest
        cases hcmp : prefer doubles isMax other.2 other.2 <;> simp_all
      · exact hafter other hother
    · case isFalse hnot =>
      refine ⟨before, after ++ [row], by simp, hbefore, fun other hother => ?_⟩
      rcases List.mem_append.mp hother with hother | hother
      · exact hafter other hother
      · rw [List.mem_singleton.mp hother, hordered.swap row.2 best.2 hrow hbest]
        exact fun hgt => hnot (Ordering.swap_eq_gt.mp hgt)

/-- **Run lemma.** -/
theorem IsFirstBest.run {seen : List (A × Value D)} {state : Option (A × Value D)}
    (h : IsFirstBest doubles isMax seen state) (rows : List (Option A × Option (Value D)))
    (hrows : ∀ row ∈ seen ++ complete rows, row.2.type = c) :
    IsFirstBest doubles isMax (seen ++ complete rows)
      (rows.foldl (argStep doubles isMax) state) := by
  induction rows generalizing seen state with
  | nil => simpa [complete] using h
  | cons row rows ih =>
    obtain ⟨_ | arg, _ | val⟩ := row
    case some.some =>
      have hcons : complete ((some arg, some val) :: rows) = [(arg, val)] ++ complete rows := rfl
      rw [hcons, ← List.append_assoc] at hrows ⊢
      exact ih (h.step (hrows (arg, val) (by simp)) fun row hrow => hrows row (by simp [hrow])) hrows
    all_goals exact ih h hrows

/-- **`arg_min` and `arg_max` find the first row with the best value**, and are `NULL` if there is none,
for values of one storage class. -/
theorem argFinal_isFirstBest (doubles : Doubles D K) (isMax : Bool)
    (rows : List (Option A × Option (Value D)))
    (hrows : ∀ row ∈ complete rows, row.2.type = c) :
    ∃ best, argFinal doubles isMax rows = best.map Prod.fst ∧
      IsFirstBest doubles isMax (complete rows) best := by
  have hstart : IsFirstBest doubles isMax ([] : List (A × Value D)) none := rfl
  exact ⟨_, rfl, hstart.run rows hrows⟩

/-- The first of two rows with the value 2. -/
theorem argFinal_isFirstBest_tie :
    ∃ val, IsFirstBest (⟨id, id⟩ : Doubles ℤ ℤ) true
      [('a', .integer 1), ('b', .integer 2), ('c', .integer 2)] (some ('b', val)) := by
  obtain ⟨best, hfinal, hbest⟩ := argFinal_isFirstBest (c := .integer) (⟨id, id⟩ : Doubles ℤ ℤ) true
    [(some 'a', some (.integer 1)), (none, some (.integer 3)), (some 'b', some (.integer 2)),
      (some 'c', some (.integer 2))] (by decide)
  obtain ⟨⟨arg, val⟩, rfl, rfl⟩ := Option.map_eq_some_iff.mp hfinal.symm
  exact ⟨val, hbest⟩

end SqliteScanner.Aggregates.ArgExtreme
