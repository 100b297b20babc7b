import Mathlib.Data.List.MinMax
import SqliteScanner.Internal.Kleene
import SqliteScanner.Internal.Precedence

/-!
# Factoring the common conjuncts of a disjunction

`WriteDisjunction` writes `(a AND b) OR (a AND c)` as `a AND (b OR c)`, so that SQLite can use `a` as a
join condition. It looks at one level of `AND` below the `OR`. A conjunct is common if every disjunct
has an equal one, and as soon as a disjunct has no other conjuncts than common ones, the rest of the
`OR` is left out.

Conditions are true, false or unknown. `truth` is the value of a written condition, and
`writeDisjunction_truth` says that it is the value of the `OR` that was to be written, whatever the
other conditions are written as, as long as these have the values of their conditions. It also says
that SQLite groups the text as the writer meant it. So the values of whole trees of `AND`s and `OR`s
are kept (`writeCondition_truth`).

## Main definitions

* `getConjuncts`, `containsExpression`, `commonConjuncts`, `writeDisjunction` — the source's functions
* `ParsedExpression.truth`, `truth` — the values of conditions and of what is written

## Main results

* `all_split` — a disjunct is its common conjuncts and the other ones
* `writeCondition_truth`, `isOperand_writeCondition` — trees of conditions
* `writeDisjunction_truth` — the written disjunction
-/

namespace SqliteScanner.Pushdown.Disjunction

open Precedence

/-! ### Conditions -/

inductive ConjunctionType where
  | conjunctionAnd
  | conjunctionOr
deriving DecidableEq

/-- A condition: conditions joined by `AND` or `OR`, or any other expression. -/
inductive ParsedExpression (C : Type) where
  | conjunction (type : ConjunctionType) (children : List (ParsedExpression C))
  | other (c : C)

variable {C : Type}

/-- The value of a condition, for given values of the expressions in it that are not `AND` or `OR`. -/
def ParsedExpression.truth (v : C → Option Bool) : ParsedExpression C → Option Bool
  | .conjunction .conjunctionAnd children => Kleene.all (children.map (truth v))
  | .conjunction .conjunctionOr children => Kleene.any (children.map (truth v))
  | .other c => v c

/-- The value of what is written, for given values of the terms in it that are not `AND` or `OR`. -/
def truth (leaf : Term .expr → Option Bool) : {k : Kind} → Term k → Option Bool
  | _, .paren x => truth leaf x
  | _, .binary .and_ l r => Kleene.and (truth leaf l) (truth leaf r)
  | _, .binary .or_ l r => Kleene.or (truth leaf l) (truth leaf r)
  | .expr, x => leaf x
  | _, _ => none

/-! ### The writer -/

/-- `SQLiteGetConjuncts`. -/
def getConjuncts : ParsedExpression C → List (ParsedExpression C)
  | .conjunction .conjunctionAnd children => children
  | expr => [expr]

section Writer

/- `ParsedExpression::Equals`, which is not literal equality: the children of a conjunction may be in
another order. -/
variable (equals : ParsedExpression C → ParsedExpression C → Bool)

/- `WriteCondition`. -/
variable (write : ParsedExpression C → Term .expr)

/-- `SQLiteContainsExpression`. -/
def containsExpression (expressions : List (ParsedExpression C)) (expr : ParsedExpression C) : Bool :=
  expressions.any fun entry => equals entry expr

/-- The loop of `WriteDisjunction` that collects the common conjuncts. -/
def commonConjuncts (first : List (ParsedExpression C)) (others : List (List (ParsedExpression C))) :
    List (ParsedExpression C) :=
  first.foldl
    (fun common conjunct =>
      let inAll := !containsExpression equals common conjunct
      if inAll && others.all (fun disjunct => containsExpression equals disjunct conjunct) then
        common ++ [conjunct]
      else common)
    []

/-- Terms with an operator between them. -/
def join (op : BinaryOp) (first : Term .expr) (rest : List (Term .expr)) : Term .expr :=
  rest.foldl (.binary op) first

/-- The conjuncts of a disjunct that are not common. -/
def remainingConjuncts (common disjunct : List (ParsedExpression C)) : List (ParsedExpression C) :=
  disjunct.filter fun conjunct => !containsExpression equals common conjunct

/-- What is written of a disjunct beside the common conjuncts; nothing, if it has no others. -/
def writeRemaining (common disjunct : List (ParsedExpression C)) : Option (Term .expr) :=
  match remainingConjuncts equals common disjunct with
  | [] => none
  | conjunct :: conjuncts => some (.paren (join .and_ (write conjunct) (conjuncts.map write)))

/-- `WriteDisjunction`. The children of an `OR` are given as the first one, which the source reads
without a test, and the others. -/
def writeDisjunction (first : ParsedExpression C) (rest : List (ParsedExpression C)) : Term .expr :=
  let disjunct := getConjuncts first
  let disjuncts := rest.map getConjuncts
  match commonConjuncts equals disjunct disjuncts with
  | [] => .paren (join .or_ (write first) (rest.map write))
  | conjunct :: conjuncts =>
    let common := conjunct :: conjuncts
    let result := join .and_ (write conjunct) (conjuncts.map write)
    match (disjunct :: disjuncts).mapM (writeRemaining equals write common) with
    | some (remaining :: others) =>
      .paren (.binary .and_ result (.paren (join .or_ remaining others)))
    -- a disjunct is true when the common conjuncts are
    | _ => .paren result

end Writer

/-! ### What is common, and what remains -/

section Common

variable {equals : ParsedExpression C → ParsedExpression C → Bool}

theorem containsExpression_eq_true {expressions : List (ParsedExpression C)}
    {expr : ParsedExpression C} :
    containsExpression equals expressions expr = true ↔
      ∃ entry ∈ expressions, equals entry expr = true := by
  rw [containsExpression, List.any_eq_true]

/-- A common conjunct is one of the first disjunct, and every other disjunct has an equal one. -/
theorem mem_commonConjuncts {first : List (ParsedExpression C)}
    {others : List (List (ParsedExpression C))} {conjunct : ParsedExpression C}
    (hmem : conjunct ∈ commonConjuncts equals first others) :
    conjunct ∈ first ∧
      ∀ disjunct ∈ others, containsExpression equals disjunct conjunct = true := by
  -- of the conjuncts that have been collected; the others are still in `rest`
  suffices hcollected : ∀ (rest common : List (ParsedExpression C)), (∀ e ∈ rest, e ∈ first) →
      (∀ e ∈ common, e ∈ first ∧ ∀ d ∈ others, containsExpression equals d e = true) →
      ∀ e ∈ rest.foldl (fun common conjunct =>
        let inAll := !containsExpression equals common conjunct
        if inAll && others.all (fun disjunct => containsExpression equals disjunct conjunct) then
          common ++ [conjunct]
        else common) common,
        e ∈ first ∧ ∀ d ∈ others, containsExpression equals d e = true from
    hcollected first [] (fun _ he => he) (by simp) conjunct hmem
  intro rest
  induction rest with
  | nil => exact fun common _ hcommon => hcommon
  | cons e rest ih =>
    intro common hrest hcommon
    rw [List.forall_mem_cons] at hrest
    refine ih _ hrest.2 ?_
    dsimp only
    split
    case isTrue hin =>
      rw [Bool.and_eq_true, List.all_eq_true] at hin
      rw [List.forall_mem_append, List.forall_mem_singleton]
      exact ⟨hcommon, hrest.1, hin.2⟩
    case isFalse => exact hcommon

variable {v : C → Option Bool}
  (hequals : ∀ a b : ParsedExpression C, equals a b = true → a.truth v = b.truth v)

include hequals

/-- **A disjunct is the common conjuncts and its other conjuncts.** -/
theorem all_split {common disjunct : List (ParsedExpression C)}
    (hcommon : ∀ c ∈ common, ∃ e ∈ disjunct, e.truth v = c.truth v) :
    Kleene.all (disjunct.map (·.truth v)) =
      Kleene.and (Kleene.all (common.map (·.truth v)))
        (Kleene.all ((remainingConjuncts equals common disjunct).map (·.truth v))) := by
  apply Kleene.all_eq_and_all
  · rw [List.forall_mem_map]
    intro c hc
    obtain ⟨e, he, hvalue⟩ := hcommon c hc
    exact List.mem_map.mpr ⟨e, he, hvalue⟩
  · rw [List.forall_mem_map]
    intro e he
    exact List.mem_map_of_mem (List.mem_of_mem_filter he)
  · rw [List.forall_mem_map]
    intro e he
    by_cases hcontains : containsExpression equals common e = true
    · obtain ⟨c, hc, heq⟩ := containsExpression_eq_true.mp hcontains
      exact .inl (List.mem_map.mpr ⟨c, hc, hequals c e heq⟩)
    · refine .inr (List.mem_map_of_mem (List.mem_filter.mpr ⟨he, ?_⟩))
      simpa using hcontains

/-- A common conjunct has the value of a conjunct of each disjunct. -/
theorem exists_conjunct {first : ParsedExpression C} {rest : List (ParsedExpression C)}
    {c d : ParsedExpression C}
    (hc : c ∈ commonConjuncts equals (getConjuncts first) (rest.map getConjuncts))
    (hd : d ∈ first :: rest) : ∃ e ∈ getConjuncts d, e.truth v = c.truth v := by
  obtain ⟨hfirst, hothers⟩ := mem_commonConjuncts hc
  rcases List.mem_cons.mp hd with rfl | hrest
  · exact ⟨c, hfirst, rfl⟩
  · obtain ⟨e, he, heq⟩ :=
      containsExpression_eq_true.mp (hothers _ (List.mem_map_of_mem hrest))
    exact ⟨e, he, hequals e c heq⟩

end Common

/-! ### The value of what is written -/

section Truth

variable {leaf : Term .expr → Option Bool} {v : C → Option Bool}

@[simp] theorem truth_paren (x : Term .expr) : truth leaf (.paren x) = truth leaf x := by
  rw [truth]

@[simp] theorem truth_and (l r : Term .expr) :
    truth leaf (.binary .and_ l r) = Kleene.and (truth leaf l) (truth leaf r) := by
  rw [truth]

@[simp] theorem truth_or (l r : Term .expr) :
    truth leaf (.binary .or_ l r) = Kleene.or (truth leaf l) (truth leaf r) := by
  rw [truth]

theorem truth_join_and (first : Term .expr) (rest : List (Term .expr)) :
    truth leaf (join .and_ first rest) = Kleene.all ((first :: rest).map (truth leaf)) := by
  rw [List.map_cons, ← Kleene.foldl_and, List.foldl_map, join]
  refine (List.foldl_hom (truth leaf) ?_).symm
  exact fun l r => (truth_and l r).symm

theorem truth_join_or (first : Term .expr) (rest : List (Term .expr)) :
    truth leaf (join .or_ first rest) = Kleene.any ((first :: rest).map (truth leaf)) := by
  rw [List.map_cons, ← Kleene.foldl_or, List.foldl_map, join]
  refine (List.foldl_hom (truth leaf) ?_).symm
  exact fun l r => (truth_or l r).symm

theorem and_some_true (a : Option Bool) : Kleene.and a (some true) = a := by
  rcases a with _ | _ | _ <;> rfl

/-- A condition is the conjunction of its conjuncts. -/
theorem all_getConjuncts (e : ParsedExpression C) :
    Kleene.all ((getConjuncts e).map (·.truth v)) = e.truth v := by
  rcases e with ⟨_ | _, children⟩ | c
  case conjunction.conjunctionAnd => rw [getConjuncts, ParsedExpression.truth]
  all_goals
    rw [getConjuncts, List.map_singleton, Kleene.all_cons, Kleene.all_nil, and_some_true]
    simp

theorem mapM_cons_eq_some {α β : Type} {f : α → Option β} {a : α} {l : List α} {ys : List β}
    (hmapM : (a :: l).mapM f = some ys) :
    ∃ x xs, f a = some x ∧ l.mapM f = some xs ∧ ys = x :: xs := by
  rw [List.mapM_cons, Option.bind_eq_bind, Option.bind_eq_some_iff] at hmapM
  obtain ⟨x, hx, hrest⟩ := hmapM
  rw [Option.bind_eq_bind, Option.bind_eq_some_iff] at hrest
  obtain ⟨xs, hxs, hys⟩ := hrest
  exact ⟨x, xs, hx, hxs, (Option.some.inj hys).symm⟩

section Remaining

variable {equals : ParsedExpression C → ParsedExpression C → Bool}
  {write : ParsedExpression C → Term .expr} {common : List (ParsedExpression C)}

/-- What is written of a disjunct has the value of its remaining conjuncts, and nothing is written if
these are true for want of any. -/
theorem truth_writeRemaining {disjunct : List (ParsedExpression C)}
    (hwrite : ∀ e ∈ disjunct, truth leaf (write e) = e.truth v) :
    ((writeRemaining equals write common disjunct).elim (some true) fun x => truth leaf x) =
      Kleene.all ((remainingConjuncts equals common disjunct).map (·.truth v)) := by
  rw [writeRemaining]
  split
  case h_1 hnone => rw [hnone, List.map_nil, Kleene.all_nil, Option.elim_none]
  case h_2 conjunct conjuncts hremaining =>
    have hmem : ∀ e ∈ conjunct :: conjuncts, truth leaf (write e) = e.truth v := by
      intro e he
      rw [← hremaining] at he
      exact hwrite e (List.mem_of_mem_filter he)
    rw [Option.elim_some, truth_paren, truth_join_and, hremaining, ← List.map_cons, List.map_map]
    exact congrArg Kleene.all (List.map_congr_left hmem)

/-- The parts of a disjunction that are written together have the values of what remains. -/
theorem map_truth_of_mapM : ∀ {disjuncts : List (List (ParsedExpression C))}
    {others : List (Term .expr)},
    (∀ d ∈ disjuncts, ∀ e ∈ d, truth leaf (write e) = e.truth v) →
    disjuncts.mapM (writeRemaining equals write common) = some others →
    others.map (fun x => truth leaf x) =
      disjuncts.map fun d => Kleene.all ((remainingConjuncts equals common d).map (·.truth v))
  | [], others, _, hmapM => by
    rw [List.mapM_nil] at hmapM
    obtain rfl := Option.some.inj hmapM
    rfl
  | d :: disjuncts, others, hwrite, hmapM => by
    rw [List.forall_mem_cons] at hwrite
    obtain ⟨x, xs, hx, hxs, rfl⟩ := mapM_cons_eq_some hmapM
    rw [List.map_cons, List.map_cons, map_truth_of_mapM hwrite.2 hxs,
      ← truth_writeRemaining hwrite.1, hx, Option.elim_some]

theorem exists_mem_of_mapM : ∀ {disjuncts : List (List (ParsedExpression C))}
    {others : List (Term .expr)} {x : Term .expr},
    disjuncts.mapM (writeRemaining equals write common) = some others → x ∈ others →
    ∃ d ∈ disjuncts, writeRemaining equals write common d = some x
  | [], others, x, hmapM, hx => by
    rw [List.mapM_nil] at hmapM
    obtain rfl := Option.some.inj hmapM
    exact absurd hx List.not_mem_nil
  | d :: disjuncts, others, x, hmapM, hx => by
    obtain ⟨y, ys, hy, hys, rfl⟩ := mapM_cons_eq_some hmapM
    rcases List.mem_cons.mp hx with rfl | hx
    · exact ⟨d, List.mem_cons_self, hy⟩
    · obtain ⟨d', hd', hx'⟩ := exists_mem_of_mapM hys hx
      exact ⟨d', List.mem_cons_of_mem d hd', hx'⟩

/-- The rest of a disjunction is left out only if a disjunct has nothing that remains. -/
theorem exists_of_mapM_eq_none : ∀ {disjuncts : List (List (ParsedExpression C))},
    disjuncts.mapM (writeRemaining equals write common) = none →
    ∃ d ∈ disjuncts, writeRemaining equals write common d = none
  | [], hmapM => by simp at hmapM
  | d :: disjuncts, hmapM => by
    cases hd : writeRemaining equals write common d with
    | none => exact ⟨d, List.mem_cons_self, hd⟩
    | some x =>
      rw [List.mapM_cons, hd] at hmapM
      cases hrest : disjuncts.mapM (writeRemaining equals write common) with
      | none =>
        obtain ⟨d', hd', hnone⟩ := exists_of_mapM_eq_none hrest
        exact ⟨d', List.mem_cons_of_mem d hd', hnone⟩
      | some xs => simp [hrest] at hmapM

theorem eq_none_of_mapM_cons {d : List (ParsedExpression C)}
    {disjuncts : List (List (ParsedExpression C))}
    (hmapM : ∀ remaining others, (d :: disjuncts).mapM (writeRemaining equals write common) =
      some (remaining :: others) → False) :
    (d :: disjuncts).mapM (writeRemaining equals write common) = none := by
  rw [Option.eq_none_iff_forall_ne_some]
  intro others hsome
  obtain ⟨x, xs, -, -, rfl⟩ := mapM_cons_eq_some hsome
  exact hmapM x xs hsome

end Remaining

/-- **Factoring out the common conjuncts keeps the value.** What is written for an `OR` is true, false
or unknown as the `OR` is, whatever the conditions below it are, if they are written with their values
and equal ones have equal values. -/
theorem writeDisjunction_values {equals : ParsedExpression C → ParsedExpression C → Bool}
    (hequals : ∀ a b, equals a b = true → a.truth v = b.truth v)
    {write : ParsedExpression C → Term .expr} {first : ParsedExpression C}
    {rest : List (ParsedExpression C)}
    (hwrite : ∀ d ∈ first :: rest, ∀ e ∈ d :: getConjuncts d, truth leaf (write e) = e.truth v) :
    truth leaf (writeDisjunction equals write first rest) =
      (ParsedExpression.conjunction .conjunctionOr (first :: rest)).truth v := by
  have hchildren : ∀ d ∈ first :: rest, truth leaf (write d) = d.truth v :=
    fun d hd => hwrite d hd d List.mem_cons_self
  have hconjuncts : ∀ d ∈ first :: rest, ∀ e ∈ getConjuncts d, truth leaf (write e) = e.truth v :=
    fun d hd e he => hwrite d hd e (List.mem_cons_of_mem d he)
  rw [writeDisjunction, ParsedExpression.truth]
  dsimp only
  split
  case h_1 =>
    rw [truth_paren, truth_join_or, ← List.map_cons, List.map_map]
    exact congrArg Kleene.any (List.map_congr_left hchildren)
  case h_2 conjunct conjuncts hcommon =>
    have hresult : truth leaf (join .and_ (write conjunct) (conjuncts.map write)) =
        Kleene.all ((conjunct :: conjuncts).map (·.truth v)) := by
      rw [truth_join_and, ← List.map_cons, List.map_map]
      refine congrArg Kleene.all (List.map_congr_left fun e he => ?_)
      rw [← hcommon] at he
      exact hconjuncts first List.mem_cons_self e (mem_commonConjuncts he).1
    -- every disjunct is what is common and what remains of it
    have hsplit : ∀ d ∈ first :: rest, d.truth v =
        Kleene.and (Kleene.all ((conjunct :: conjuncts).map (·.truth v)))
          (Kleene.all ((remainingConjuncts equals (conjunct :: conjuncts)
            (getConjuncts d)).map (·.truth v))) := by
      intro d hd
      rw [← all_getConjuncts d]
      refine all_split hequals fun c hc => ?_
      rw [← hcommon] at hc
      exact exists_conjunct hequals hc hd
    have hdisjunction : Kleene.any ((first :: rest).map (·.truth v)) =
        Kleene.and (Kleene.all ((conjunct :: conjuncts).map (·.truth v)))
          (Kleene.any ((first :: rest).map fun d =>
            Kleene.all ((remainingConjuncts equals (conjunct :: conjuncts)
              (getConjuncts d)).map (·.truth v)))) := by
      rw [Kleene.and_any, List.map_map]
      exact congrArg Kleene.any (List.map_congr_left hsplit)
    rw [hdisjunction]
    have hlists : ∀ d ∈ getConjuncts first :: rest.map getConjuncts, ∀ e ∈ d,
        truth leaf (write e) = e.truth v := by
      rw [← List.map_cons, List.forall_mem_map]
      exact hconjuncts
    split
    case h_1 remaining others hmapM =>
      rw [truth_paren, truth_and, truth_paren, truth_join_or, hresult,
        map_truth_of_mapM hlists hmapM, ← List.map_cons, List.map_map]
      rfl
    case h_2 hnone =>
      -- a disjunct of which nothing remains makes the rest of the disjunction true
      obtain ⟨d, hd, hempty⟩ := exists_of_mapM_eq_none (eq_none_of_mapM_cons hnone)
      rw [← List.map_cons] at hd
      obtain ⟨e, he, rfl⟩ := List.mem_map.mp hd
      have htrue : Kleene.all ((remainingConjuncts equals (conjunct :: conjuncts)
          (getConjuncts e)).map (·.truth v)) = some true := by
        rw [← truth_writeRemaining (hconjuncts e he), hempty, Option.elim_none]
      rw [truth_paren, hresult, Kleene.any_eq_true.mpr (List.mem_map.mpr ⟨e, he, htrue⟩),
        and_some_true]

end Truth

/-! ### Trees of conditions

`WriteCondition` calls `WriteDisjunction` for the `OR`s below an `OR`. The depth of the condition bounds
the recursion. -/

section Trees

/-- The number of levels of `AND` and `OR`. -/
def ParsedExpression.depth : ParsedExpression C → ℕ
  | .conjunction _ children => (children.map depth).foldr max 0 + 1
  | .other _ => 1

/-- No `AND` or `OR` is without conditions. -/
inductive ParsedExpression.Joined : ParsedExpression C → Prop
  | other (c : C) : Joined (.other c)
  | conjunction (type : ConjunctionType) (children : List (ParsedExpression C))
      (hne : children ≠ []) (hchildren : ∀ e ∈ children, Joined e) :
      Joined (.conjunction type children)

/-- `WriteCondition`, with `writeOther` for the expressions that are not `AND` or `OR`. -/
def writeCondition (equals : ParsedExpression C → ParsedExpression C → Bool)
    (writeOther : C → Term .expr) : ℕ → ParsedExpression C → Term .expr
  | n + 1, .conjunction .conjunctionAnd (first :: rest) =>
    .paren (join .and_ (writeCondition equals writeOther n first)
      (rest.map (writeCondition equals writeOther n)))
  | n + 1, .conjunction .conjunctionOr (first :: rest) =>
    writeDisjunction equals (writeCondition equals writeOther n) first rest
  | _ + 1, .other c => writeOther c
  | _, _ => .null

theorem depth_lt_of_mem {type : ConjunctionType} {children : List (ParsedExpression C)}
    {e : ParsedExpression C} (he : e ∈ children) :
    e.depth < (ParsedExpression.conjunction type children).depth := by
  rw [ParsedExpression.depth, Nat.lt_succ_iff]
  exact List.le_max_of_le' 0 (List.mem_map_of_mem he) le_rfl

theorem depth_getConjuncts {d e : ParsedExpression C} (he : e ∈ getConjuncts d) :
    e.depth ≤ d.depth := by
  unfold getConjuncts at he
  split at he
  case h_1 => exact (depth_lt_of_mem he).le
  case h_2 => rw [List.mem_singleton.mp he]

theorem joined_getConjuncts {d e : ParsedExpression C} (hd : d.Joined)
    (he : e ∈ getConjuncts d) : e.Joined := by
  unfold getConjuncts at he
  split at he
  case h_1 =>
    cases hd with
    | conjunction _ _ _ hchildren => exact hchildren e he
  case h_2 => rwa [List.mem_singleton.mp he]

/-- **The value of a tree of conditions is kept.** -/
theorem writeCondition_truth {leaf : Term .expr → Option Bool} {v : C → Option Bool}
    {equals : ParsedExpression C → ParsedExpression C → Bool}
    (hequals : ∀ a b, equals a b = true → a.truth v = b.truth v)
    {writeOther : C → Term .expr} (hother : ∀ c, truth leaf (writeOther c) = v c) :
    ∀ (n : ℕ) (e : ParsedExpression C), e.Joined → e.depth ≤ n →
      truth leaf (writeCondition equals writeOther n e) = e.truth v := by
  intro n
  induction n with
  | zero =>
    rintro (⟨type, children⟩ | c) - hdepth <;> simp [ParsedExpression.depth] at hdepth
  | succ n ih =>
    intro e hjoined hdepth
    cases hjoined with
    | other c => rw [writeCondition, hother, ParsedExpression.truth]
    | conjunction type children hne hchildren =>
      have hbelow : ∀ d ∈ children, d.depth ≤ n := fun d hd =>
        Nat.lt_succ_iff.mp ((depth_lt_of_mem hd).trans_le hdepth)
      obtain ⟨first, rest, rfl⟩ := List.exists_cons_of_ne_nil hne
      cases type with
      | conjunctionAnd =>
        rw [writeCondition, truth_paren, truth_join_and, ← List.map_cons, List.map_map,
          ParsedExpression.truth]
        exact congrArg Kleene.all
          (List.map_congr_left fun d hd => ih d (hchildren d hd) (hbelow d hd))
      | conjunctionOr =>
        rw [writeCondition]
        refine writeDisjunction_values hequals fun d hd e he => ?_
        rcases List.mem_cons.mp he with rfl | he
        · exact ih e (hchildren e hd) (hbelow e hd)
        · exact ih e (joined_getConjuncts (hchildren d hd) he)
            ((depth_getConjuncts he).trans (hbelow d hd))

end Trees

/-! ### Reading what is written -/

section Reading

theorem grouped_join (op : BinaryOp) {first : Term .expr} {rest : List (Term .expr)}
    (hfirst : first.Grouped ∧ op.level ≤ first.level)
    (hrest : ∀ x ∈ rest, x.Grouped ∧ op.level < x.level) :
    (join op first rest).Grouped ∧ op.level ≤ (join op first rest).level := by
  induction rest generalizing first with
  | nil => exact hfirst
  | cons x rest ih =>
    rw [List.forall_mem_cons] at hrest
    refine ih ⟨?_, le_rfl⟩ hrest.2
    exact ⟨hfirst.1, hrest.1.1, hfirst.2, hrest.1.2⟩

variable {equals : ParsedExpression C → ParsedExpression C → Bool}
  {write : ParsedExpression C → Term .expr}

/-- What binds more strongly than `AND`. -/
def IsOperand (x : Term .expr) : Prop := x.Grouped ∧ BinaryOp.and_.level < x.level

theorem isOperand_paren {x : Term .expr} (hx : x.Grouped) : IsOperand (.paren x) :=
  ⟨hx, show 1 < 12 from by decide⟩

theorem IsOperand.or_lt {x : Term .expr} (hx : IsOperand x) :
    x.Grouped ∧ BinaryOp.or_.level < x.level :=
  ⟨hx.1, Nat.lt_of_succ_lt hx.2⟩

theorem grouped_join_and {e : ParsedExpression C} {es : List (ParsedExpression C)}
    (hwrite : ∀ d ∈ e :: es, IsOperand (write d)) :
    (join .and_ (write e) (es.map write)).Grouped ∧
      BinaryOp.and_.level ≤ (join .and_ (write e) (es.map write)).level := by
  rw [List.forall_mem_cons] at hwrite
  refine grouped_join .and_ ⟨hwrite.1.1, hwrite.1.2.le⟩ ?_
  rw [List.forall_mem_map]
  exact hwrite.2

theorem isOperand_writeRemaining {common disjunct : List (ParsedExpression C)} {x : Term .expr}
    (hwrite : ∀ e ∈ disjunct, IsOperand (write e))
    (hx : writeRemaining equals write common disjunct = some x) : IsOperand x := by
  rw [writeRemaining] at hx
  split at hx
  case h_1 => simp at hx
  case h_2 conjunct conjuncts hremaining =>
    obtain rfl := Option.some.inj hx
    refine isOperand_paren (grouped_join_and fun e he => ?_).1
    rw [← hremaining] at he
    exact hwrite e (List.mem_of_mem_filter he)

theorem isOperand_of_mapM {common : List (ParsedExpression C)} :
    ∀ {disjuncts : List (List (ParsedExpression C))} {others : List (Term .expr)},
    (∀ d ∈ disjuncts, ∀ e ∈ d, IsOperand (write e)) →
    disjuncts.mapM (writeRemaining equals write common) = some others →
    ∀ x ∈ others, IsOperand x := by
  intro disjuncts others hwrite hmapM x hx
  obtain ⟨d, hd, hsome⟩ := exists_mem_of_mapM hmapM hx
  exact isOperand_writeRemaining (hwrite d hd) hsome

theorem isOperand_writeDisjunction {first : ParsedExpression C} {rest : List (ParsedExpression C)}
    (hwrite : ∀ d ∈ first :: rest, ∀ e ∈ d :: getConjuncts d, IsOperand (write e)) :
    IsOperand (writeDisjunction equals write first rest) := by
  have hchildren : ∀ d ∈ first :: rest, IsOperand (write d) :=
    fun d hd => hwrite d hd d List.mem_cons_self
  have hconjuncts : ∀ d ∈ first :: rest, ∀ e ∈ getConjuncts d, IsOperand (write e) :=
    fun d hd e he => hwrite d hd e (List.mem_cons_of_mem d he)
  rw [writeDisjunction]
  dsimp only
  split
  case h_1 =>
    rw [List.forall_mem_cons] at hchildren
    refine isOperand_paren (grouped_join .or_ ⟨hchildren.1.1, Nat.zero_le _⟩ ?_).1
    rw [List.forall_mem_map]
    exact fun d hd => (hchildren.2 d hd).or_lt
  case h_2 conjunct conjuncts hcommon =>
    have hcommonOperands : ∀ e ∈ conjunct :: conjuncts, IsOperand (write e) := by
      intro e he
      rw [← hcommon] at he
      exact hconjuncts first List.mem_cons_self e (mem_commonConjuncts he).1
    have hresult := grouped_join_and hcommonOperands
    split
    case h_2 => exact isOperand_paren hresult.1
    case h_1 remaining others hmapM =>
      have hothers := isOperand_of_mapM (by rwa [← List.map_cons, List.forall_mem_map]) hmapM
      rw [List.forall_mem_cons] at hothers
      have hremaining := isOperand_paren
        (grouped_join .or_ ⟨hothers.1.1, Nat.zero_le _⟩ fun x hx => (hothers.2 x hx).or_lt).1
      exact isOperand_paren ⟨hresult.1, hremaining.1, hresult.2, hremaining.2⟩

/-- A tree of conditions is written as an operand, if its leaves are. -/
theorem isOperand_writeCondition {writeOther : C → Term .expr}
    (hother : ∀ c, IsOperand (writeOther c)) (n : ℕ) (e : ParsedExpression C) :
    IsOperand (writeCondition equals writeOther n e) := by
  induction n generalizing e with
  | zero => exact ⟨trivial, show 1 < 12 from by decide⟩
  | succ n ih =>
    rcases e with ⟨_ | _, _ | ⟨first, rest⟩⟩ | c
    case other => exact hother c
    case conjunction.conjunctionAnd.cons =>
      exact isOperand_paren (grouped_join_and fun d _ => ih d).1
    case conjunction.conjunctionOr.cons =>
      exact isOperand_writeDisjunction fun _ _ d _ => ih d
    all_goals exact ⟨trivial, show 1 < 12 from by decide⟩

end Reading

/-! ### The written disjunction -/

/-- **The written disjunction has the value of the disjunction.** Whatever the conditions below an `OR`
are, if they are written with their values and equal ones have equal values, then what is written is
true, false or unknown as the `OR` is. If they are written as operands, then SQLite reads the text as
it is meant. -/
theorem writeDisjunction_truth (leaf : Term .expr → Option Bool) {v : C → Option Bool}
    {equals : ParsedExpression C → ParsedExpression C → Bool}
    (hequals : ∀ a b, equals a b = true → a.truth v = b.truth v)
    (write : ParsedExpression C → Term .expr) (first : ParsedExpression C)
    (rest : List (ParsedExpression C))
    (hwrite : ∀ d ∈ first :: rest, ∀ e ∈ d :: getConjuncts d, truth leaf (write e) = e.truth v) :
    truth leaf (writeDisjunction equals write first rest) =
        (ParsedExpression.conjunction .conjunctionOr (first :: rest)).truth v ∧
      ((∀ d ∈ first :: rest, ∀ e ∈ d :: getConjuncts d, IsOperand (write e)) →
        read (writeDisjunction equals write first rest).text =
          some (writeDisjunction equals write first rest)) :=
  ⟨writeDisjunction_values hequals hwrite,
    fun hoperands => read_text (isOperand_writeDisjunction hoperands).1⟩

section Columns

/-- The conditions of the witness are columns, and equal if they are the same column. -/
def sameColumn : ParsedExpression Lexing.Text → ParsedExpression Lexing.Text → Bool
  | .other a, .other b => a == b
  | _, _ => false

def columnTruth : Lexing.Text → Option Bool
  | ['a'] => none
  | ['b'] => some true
  | _ => some false

def columnTermTruth : Term .expr → Option Bool
  | .column _ name => columnTruth name
  | _ => none

theorem sameColumn_truth (a b : ParsedExpression Lexing.Text) (h : sameColumn a b = true) :
    a.truth columnTruth = b.truth columnTruth := by
  rcases a with ⟨_, _⟩ | a <;> rcases b with ⟨_, _⟩ | b <;> simp_all [sameColumn]

/-- `a AND b`, or `a AND c`. -/
def bothColumns (name : Char) : ParsedExpression Lexing.Text :=
  .conjunction .conjunctionAnd [.other ['a'], .other [name]]

theorem writeDisjunction_truth_columns :
    let written := writeDisjunction sameColumn (writeCondition sameColumn (.column none) 2)
      (bothColumns 'b') [bothColumns 'c']
    written = .paren (.binary .and_ (.column none ['a'])
        (.paren (.binary .or_ (.paren (.column none ['b'])) (.paren (.column none ['c']))))) ∧
      truth columnTermTruth written =
        (ParsedExpression.conjunction .conjunctionOr [bothColumns 'b', bothColumns 'c']).truth
          columnTruth ∧
      read written.text = some written := by
  have hwritten := writeDisjunction_truth columnTermTruth sameColumn_truth
    (writeCondition sameColumn (.column none) 2) (bothColumns 'b') [bothColumns 'c']
    (by simp [bothColumns, getConjuncts, writeCondition, join, truth, ParsedExpression.truth,
      columnTermTruth, columnTruth, Kleene.and])
  refine ⟨rfl, hwritten.1, hwritten.2 fun _ _ e _ => ?_⟩
  exact isOperand_writeCondition
    (fun c => show IsOperand (.column none c) from ⟨trivial, show 1 < 12 from by decide⟩) 2 e

theorem writeCondition_truth_columns :
    truth columnTermTruth (writeCondition sameColumn (.column none) 3
        (.conjunction .conjunctionOr [bothColumns 'b', bothColumns 'c'])) =
      (ParsedExpression.conjunction .conjunctionOr [bothColumns 'b', bothColumns 'c']).truth
        columnTruth := by
  have hboth : ∀ name, (bothColumns name).Joined := fun name =>
    .conjunction _ _ (by simp) (by simp [ParsedExpression.Joined.other])
  exact writeCondition_truth sameColumn_truth (fun _ => rfl) 3 _
    (.conjunction _ _ (by simp) (by simp [hboth])) (by simp [ParsedExpression.depth, bothColumns])

end Columns

end SqliteScanner.Pushdown.Disjunction
