import SqliteScanner.FilterPushdown
import SqliteScanner.Internal.Rounding

/-!
# Comparing integers with doubles

DuckDB compares a `BIGINT` with a `DOUBLE` as doubles: the integer is rounded first. The writer leaves
both operands as they are, *SQLite compares integers and reals by their numeric value*, and SQLite
compares the exact values. Only constants are converted, by the writer itself.

Doubles are dyadic rationals here and the conversion is round-to-nearest-even; nothing else of
floating-point arithmetic is involved. Rounding does not turn the order around, so the two answers can
differ in one way only: two operands that differ are rounded to one double. Whether that shows depends on
the operator, on the side that is larger, and in a `BETWEEN` or an `IN` list on the other operands.

## Main results

* `compare_cast` — what rounding does to the order of two numbers.
* `sqlite_eq_duckdb_iff` — for every comparison that is written, when the two systems agree.
-/

namespace SqliteScanner.NumericComparison

open Rounding FilterPushdown

/-! ### Numbers -/

/-- The finite doubles. -/
def doubles : Set ℚ := {x | ∃ m e : ℤ, |m| < 2 ^ 53 ∧ -1074 ≤ e ∧ e ≤ 971 ∧ x = m * 2 ^ e}

structure Double where
  value : ℚ
  mem : value ∈ doubles

/-- The 64-bit integers. -/
structure Bigint where
  value : ℤ
  lower : -2 ^ 63 ≤ value
  upper : value < 2 ^ 63

theorem doubles_subset_grid : doubles ⊆ grid 53 := by
  rintro x ⟨m, e, hm, -, -, hx⟩
  exact ⟨m, e, hm, hx⟩

theorem neg_mem_doubles {x : ℚ} (h : x ∈ doubles) : -x ∈ doubles := by
  obtain ⟨m, e, hm, hlow, hhigh, rfl⟩ := h
  exact ⟨-m, e, by rwa [abs_neg], hlow, hhigh, by rw [Int.cast_neg, neg_mul]⟩

theorem roundNat_mem_doubles {n : ℕ} (h : n ≤ 2 ^ 63) : ((roundNat 53 n : ℕ) : ℚ) ∈ doubles := by
  obtain ⟨t, k, hround, ht, hk⟩ := roundNat_eq_mul 53 n
  have hk' : k ≤ 11 := by
    have hsize : n.size ≤ 64 := Nat.size_le.mpr (by omega)
    omega
  rcases ht.lt_or_eq with hlt | rfl
  · refine ⟨t, k, ?_, by omega, by omega, by rw [hround, zpow_natCast]; push_cast; ring⟩
    rw [Nat.abs_cast]
    exact_mod_cast hlt
  · refine ⟨2 ^ 52, k + 1, by norm_num, by omega, by omega, ?_⟩
    rw [hround, zpow_add₀ two_ne_zero, zpow_natCast]
    push_cast
    ring

theorem round_mem_doubles (i : Bigint) : ((round 53 i.value : ℤ) : ℚ) ∈ doubles := by
  have hbound : i.value.natAbs ≤ 2 ^ 63 := by
    have hlower := i.lower
    have hupper := i.upper
    omega
  have hnat := roundNat_mem_doubles hbound
  rw [Rounding.round]
  split
  · exact_mod_cast hnat
  · have hneg := neg_mem_doubles hnat
    exact_mod_cast hneg

/-- The conversion of a `BIGINT` to a `DOUBLE`. -/
def Bigint.toDouble (i : Bigint) : Double := ⟨round 53 i.value, round_mem_doubles i⟩

inductive NumericType where
  | bigint
  | double
  deriving DecidableEq, Repr

/-- The values of a type, other than `NULL`. -/
inductive Number : NumericType → Type where
  | bigint (i : Bigint) : Number .bigint
  | double (d : Double) : Number .double

variable {type type' : NumericType}

/-- The exact value. -/
def Number.value : Number type → ℚ
  | .bigint i => i.value
  | .double d => d.value

def Number.toDouble : Number type → Double
  | .bigint i => i.toDouble
  | .double d => d

/-- A number of either type. -/
abbrev AnyNumber := Σ type, Number type

/-- The type that DuckDB compares two operands as: `TryBindComparison`. -/
def tryBindComparison : NumericType → NumericType → NumericType
  | .bigint, .bigint => .bigint
  | _, _ => .double

/-- The cast to the compared type. It is never one from `DOUBLE` to `BIGINT`. -/
def castAs (target : NumericType) (n : AnyNumber) : AnyNumber :=
  match target with
  | .bigint => n
  | .double => ⟨.double, .double n.2.toDouble⟩

/-! ### Comparisons, and what the writer makes of them -/

inductive ComparisonType where
  | equal
  | notEqual
  | lessThan
  | greaterThan
  | lessThanOrEqualTo
  | greaterThanOrEqualTo
  | distinctFrom
  | notDistinctFrom
  deriving DecidableEq, Repr

def ComparisonType.holds (op : ComparisonType) (a b : ℚ) : Bool :=
  match op with
  | .equal | .notDistinctFrom => a = b
  | .notEqual | .distinctFrom => a ≠ b
  | .lessThan => a < b
  | .greaterThan => a > b
  | .lessThanOrEqualTo => a ≤ b
  | .greaterThanOrEqualTo => a ≥ b

/-- A comparison in SQL. The last two are never `NULL`. -/
def ComparisonType.eval (op : ComparisonType) (x y : Option AnyNumber) : Option Bool :=
  match op, x, y with
  | _, some a, some b => some (op.holds a.2.value b.2.value)
  | .distinctFrom, none, some _ | .distinctFrom, some _, none => some true
  | .distinctFrom, none, none => some false
  | .notDistinctFrom, none, some _ | .notDistinctFrom, some _, none => some false
  | .notDistinctFrom, none, none => some true
  | _, _, _ => none

/-- `x BETWEEN l AND h`. -/
def evalBetween (x l h : Option AnyNumber) : Option Bool :=
  and3 (ComparisonType.greaterThanOrEqualTo.eval x l) (ComparisonType.lessThanOrEqualTo.eval x h)

/-- `x IN (list)`. -/
def evalIn (x : Option AnyNumber) (list : List (Option AnyNumber)) : Option Bool :=
  let equalities := list.map (ComparisonType.equal.eval x)
  if some true ∈ equalities then some true else if none ∈ equalities then none else some false

/-- An operand: an expression of a type, a constant or not, and its value in one row. -/
structure Operand where
  type : NumericType
  constant : Bool
  value : Option (Number type)

/-- The value with its type. -/
def Operand.number (o : Operand) : Option AnyNumber := o.value.map (Sigma.mk o.type)

/-- The type DuckDB compares the operands as. -/
def target (first : Operand) (rest : List Operand) : NumericType :=
  rest.foldl (fun t o => tryBindComparison t o.type) first.type

/-- `WriteComparisonOperands`, as the value that SQLite reads for one operand: a constant is converted,
and numbers are not. -/
def writeComparisonOperand (target : NumericType) (o : Operand) : Option AnyNumber :=
  if o.constant then o.number.map (castAs target) else o.number

/-- What DuckDB compares. -/
def comparedOperand (target : NumericType) (o : Operand) : Option AnyNumber :=
  o.number.map (castAs target)

/-- A comparison that is pushed down. -/
inductive Comparison where
  | compare (op : ComparisonType) (left right : Operand)
  | between (x lower upper : Operand)
  /-- `IN`, or `NOT IN`. -/
  | inList (negated : Bool) (x : Operand) (list : List Operand)
  /-- `x IN (subquery)`: `WriteSubquery` converts nothing. -/
  | inSubquery (x : Operand) (type : NumericType) (rows : List (Option (Number type)))

/-- The comparison, of operands that `read` gives the value of. -/
def Comparison.evalWith (read : NumericType → Operand → Option AnyNumber) : Comparison → Option Bool
  | .compare op left right =>
    let t := target left [right]
    op.eval (read t left) (read t right)
  | .between x lower upper =>
    let t := target x [lower, upper]
    evalBetween (read t x) (read t lower) (read t upper)
  | .inList negated x list =>
    let t := target x list
    (evalIn (read t x) (list.map (read t))).map (xor negated)
  | .inSubquery x type rows =>
    let t := tryBindComparison x.type type
    let column := rows.map fun row => Operand.mk type false row
    evalIn (read t { x with constant := false }) (column.map (read t))

/-- The answer of SQLite to the written comparison. -/
def Comparison.sqlite (c : Comparison) : Option Bool := c.evalWith writeComparisonOperand

/-- The answer of DuckDB. -/
def Comparison.duckdb (c : Comparison) : Option Bool := c.evalWith comparedOperand

/-! ### What rounding does to the order -/

/-- The two numbers differ, and are one number after the cast. -/
def Merged (target : NumericType) (a b : AnyNumber) : Prop :=
  a.2.value ≠ b.2.value ∧ (castAs target a).2.value = (castAs target b).2.value

theorem isNearest_toDouble (n : Number type) : IsNearest doubles n.value n.toDouble.value := by
  cases n with
  | bigint i =>
    exact (isNearest_round (by decide) i.value).of_subset (round_mem_doubles i) doubles_subset_grid
  | double d => exact IsNearest.of_mem d.mem

/-- Equal numbers are rounded alike, whatever their types. -/
theorem toDouble_value_congr {a : Number type} {b : Number type'} (h : a.value = b.value) :
    a.toDouble.value = b.toDouble.value := by
  have ha := isNearest_toDouble a
  have hb := isNearest_toDouble b
  cases a with
  | double d => rw [hb.eq_of_mem (h ▸ d.mem), ← h]; rfl
  | bigint i =>
    cases b with
    | double d => rw [ha.eq_of_mem (h ▸ d.mem), h]; rfl
    | bigint j =>
      have hij : i.value = j.value := Int.cast_injective h
      simp [Number.toDouble, Bigint.toDouble, hij]

theorem castAs_castAs (target : NumericType) (n : AnyNumber) :
    castAs target (castAs target n) = castAs target n := by
  cases target with
  | bigint => rfl
  | double => rfl

/-- **Rounding and order.** Two numbers keep their order under the cast, or they are merged. -/
theorem compare_cast (target : NumericType) (a b : AnyNumber) :
    (a.2.value < b.2.value ∧ (castAs target a).2.value < (castAs target b).2.value) ∨
      (a.2.value = b.2.value ∧ (castAs target a).2.value = (castAs target b).2.value) ∨
      (b.2.value < a.2.value ∧ (castAs target b).2.value < (castAs target a).2.value) ∨
      Merged target a b := by
  cases target with
  | bigint =>
    rcases lt_trichotomy a.2.value b.2.value with h | h | h
    · exact .inl ⟨h, h⟩
    · exact .inr (.inl ⟨h, h⟩)
    · exact .inr (.inr (.inl ⟨h, h⟩))
  | double =>
    have ha := isNearest_toDouble a.2
    have hb := isNearest_toDouble b.2
    rcases lt_trichotomy a.2.value b.2.value with h | h | h
    · rcases (ha.le_of_lt hb h).lt_or_eq with h' | h'
      · exact .inl ⟨h, h'⟩
      · exact .inr (.inr (.inr ⟨h.ne, h'⟩))
    · exact .inr (.inl ⟨h, toDouble_value_congr h⟩)
    · rcases (hb.le_of_lt ha h).lt_or_eq with h' | h'
      · exact .inr (.inr (.inl ⟨h, h'⟩))
      · exact .inr (.inr (.inr ⟨h.ne', h'.symm⟩))

/-! ### When a comparison is misjudged -/

/-- The merging of `a` and `b` shows in the operator. -/
def ComparisonType.Shows (op : ComparisonType) (a b : ℚ) : Prop :=
  match op with
  | .equal | .notEqual | .distinctFrom | .notDistinctFrom => True
  | .lessThan | .greaterThanOrEqualTo => a < b
  | .greaterThan | .lessThanOrEqualTo => b < a

/-- Both operands are numbers, are merged, and it shows. -/
def CompareMisjudged (op : ComparisonType) (target : NumericType) (x y : Option AnyNumber) : Prop :=
  ∃ a ∈ x, ∃ b ∈ y, Merged target a b ∧ op.Shows a.2.value b.2.value

/-- A bound is missed by less than the rounding, and after it neither bound is missed. -/
def BetweenMisjudged (target : NumericType) (x l h : Option AnyNumber) : Prop :=
  (CompareMisjudged .greaterThanOrEqualTo target x l ∨
      CompareMisjudged .lessThanOrEqualTo target x h) ∧
    ComparisonType.greaterThanOrEqualTo.eval (x.map (castAs target)) (l.map (castAs target)) ≠
      some false ∧
    ComparisonType.lessThanOrEqualTo.eval (x.map (castAs target)) (h.map (castAs target)) ≠ some false

/-- The list has the number after rounding only. -/
def InMisjudged (target : NumericType) (x : Option AnyNumber) (list : List (Option AnyNumber)) : Prop :=
  ∃ a ∈ x, (∃ b, some b ∈ list ∧ Merged target a b) ∧
    ∀ b, some b ∈ list → a.2.value ≠ b.2.value

theorem holds_eq_iff (op : ComparisonType) (target : NumericType) (a b : AnyNumber) :
    op.holds a.2.value b.2.value = op.holds (castAs target a).2.value (castAs target b).2.value ↔
      ¬ (Merged target a b ∧ op.Shows a.2.value b.2.value) := by
  rcases compare_cast target a b with ⟨h, h'⟩ | ⟨h, h'⟩ | ⟨h, h'⟩ | ⟨h, h'⟩
  · have hm : ¬ Merged target a b := fun hm => h'.ne hm.2
    cases op <;> simp [ComparisonType.holds, h, h', h.ne, h'.ne, h.le, h'.le, h.not_gt, h'.not_gt,
      h.not_ge, h'.not_ge, hm]
  · have hm : ¬ Merged target a b := fun hm => hm.1 h
    cases op <;> simp [ComparisonType.holds, h, h', hm]
  · have hm : ¬ Merged target a b := fun hm => h'.ne' hm.2
    cases op <;> simp [ComparisonType.holds, h, h', h.ne', h'.ne', h.le, h'.le, h.not_gt, h'.not_gt,
      h.not_ge, h'.not_ge, hm]
  · have hm : Merged target a b := ⟨h, h'⟩
    rcases lt_or_gt_of_ne h with hlt | hgt
    · cases op <;> simp [ComparisonType.holds, ComparisonType.Shows, h, h', hm, hlt, hlt.le,
        hlt.not_gt, hlt.not_ge]
    · cases op <;> simp [ComparisonType.holds, ComparisonType.Shows, h, h', hm, hgt, hgt.le,
        hgt.not_gt, hgt.not_ge]

theorem eval_eq_iff (op : ComparisonType) (target : NumericType) (x y : Option AnyNumber) :
    op.eval x y = op.eval (x.map (castAs target)) (y.map (castAs target)) ↔
      ¬ CompareMisjudged op target x y := by
  cases x with
  | none => cases y <;> cases op <;> simp [ComparisonType.eval, CompareMisjudged]
  | some a =>
    cases y with
    | none => cases op <;> simp [ComparisonType.eval, CompareMisjudged]
    | some b =>
      have hiff := holds_eq_iff op target a b
      simpa [ComparisonType.eval, CompareMisjudged] using hiff

/-- A bound that is misjudged is missed before the cast and met after it. -/
theorem eval_of_misjudged {op : ComparisonType} (hop : op = .greaterThanOrEqualTo ∨
    op = .lessThanOrEqualTo) {target : NumericType} {x y : Option AnyNumber}
    (h : CompareMisjudged op target x y) :
    op.eval x y = some false ∧
      op.eval (x.map (castAs target)) (y.map (castAs target)) = some true := by
  obtain ⟨a, rfl, b, rfl, hm, hshows⟩ := h
  rcases hop with rfl | rfl
  · have hlt : a.2.value < b.2.value := hshows
    simp [ComparisonType.eval, ComparisonType.holds, hlt, hm.2]
  · have hlt : b.2.value < a.2.value := hshows
    simp [ComparisonType.eval, ComparisonType.holds, hlt, hm.2]

/-- A conjunction of two tests each of which may go from false to true. -/
theorem and3_eq_iff {p p' q q' : Option Bool} {misp misq : Prop} (hp : p = p' ↔ ¬ misp)
    (hq : q = q' ↔ ¬ misq) (hp' : misp → p = some false ∧ p' = some true)
    (hq' : misq → q = some false ∧ q' = some true) :
    and3 p q = and3 p' q' ↔ ¬ ((misp ∨ misq) ∧ p' ≠ some false ∧ q' ≠ some false) := by
  by_cases hmp : misp
  · obtain ⟨rfl, rfl⟩ := hp' hmp
    by_cases hmq : misq
    · obtain ⟨rfl, rfl⟩ := hq' hmq
      simp [and3, hmp]
    · obtain rfl := hq.mpr hmq
      simp [and3, hmp, eq_comm]
  · obtain rfl := hp.mpr hmp
    by_cases hmq : misq
    · obtain ⟨rfl, rfl⟩ := hq' hmq
      rcases p with _ | _ | _ <;> simp [and3, hmp, hmq]
    · obtain rfl := hq.mpr hmq
      simp [hmp, hmq]

theorem evalBetween_eq_iff (target : NumericType) (x l h : Option AnyNumber) :
    evalBetween x l h =
        evalBetween (x.map (castAs target)) (l.map (castAs target)) (h.map (castAs target)) ↔
      ¬ BetweenMisjudged target x l h :=
  and3_eq_iff (eval_eq_iff _ target x l) (eval_eq_iff _ target x h) (eval_of_misjudged (.inl rfl))
    (eval_of_misjudged (.inr rfl))

variable {list : List (Option AnyNumber)}

theorem some_true_mem_map_iff {a : AnyNumber} :
    some true ∈ list.map (ComparisonType.equal.eval (some a)) ↔
      ∃ b, some b ∈ list ∧ a.2.value = b.2.value := by
  simp only [List.mem_map]
  constructor
  · rintro ⟨y, hy, h⟩
    cases y with
    | none => simp [ComparisonType.eval] at h
    | some b => exact ⟨b, hy, by simpa [ComparisonType.eval, ComparisonType.holds] using h⟩
  · rintro ⟨b, hb, h⟩
    exact ⟨some b, hb, by simp [ComparisonType.eval, ComparisonType.holds, h]⟩

theorem none_mem_map_iff {a : AnyNumber} :
    none ∈ list.map (ComparisonType.equal.eval (some a)) ↔ none ∈ list := by
  simp only [List.mem_map]
  constructor
  · rintro ⟨y, hy, h⟩
    cases y with
    | none => exact hy
    | some b => simp [ComparisonType.eval] at h
  · exact fun h => ⟨none, h, rfl⟩

theorem evalIn_of_mem {a : AnyNumber}
    (h : ∃ b, some b ∈ list ∧ a.2.value = b.2.value) : evalIn (some a) list = some true :=
  if_pos (some_true_mem_map_iff.mpr h)

theorem evalIn_of_not_mem {a : AnyNumber}
    (h : ¬ ∃ b, some b ∈ list ∧ a.2.value = b.2.value) :
    (none ∈ list → evalIn (some a) list = none) ∧
      (none ∉ list → evalIn (some a) list = some false) := by
  rw [evalIn, if_neg (mt some_true_mem_map_iff.mp h)]
  exact ⟨fun hn => if_pos (none_mem_map_iff.mpr hn), fun hn => if_neg (mt none_mem_map_iff.mp hn)⟩

/-- The equalities with the members of a list that was cast. -/
theorem exists_mem_map_castAs {target : NumericType} {a : AnyNumber} :
    (∃ b, some b ∈ list.map (Option.map (castAs target)) ∧ a.2.value = b.2.value) ↔
      ∃ b, some b ∈ list ∧ a.2.value = (castAs target b).2.value := by
  constructor
  · rintro ⟨_, hb, h⟩
    obtain ⟨y, hy, hyb⟩ := List.mem_map.mp hb
    obtain ⟨b, rfl, rfl⟩ := Option.map_eq_some_iff.mp hyb
    exact ⟨b, hy, h⟩
  · rintro ⟨b, hb, h⟩
    exact ⟨_, List.mem_map.mpr ⟨some b, hb, rfl⟩, h⟩

theorem evalIn_eq_iff (target : NumericType) (x : Option AnyNumber) (list : List (Option AnyNumber)) :
    evalIn x list = evalIn (x.map (castAs target)) (list.map (Option.map (castAs target))) ↔
      ¬ InMisjudged target x list := by
  cases x with
  | none =>
    have hnone : list.map (ComparisonType.equal.eval none) =
        (list.map (Option.map (castAs target))).map (ComparisonType.equal.eval none) := by
      rw [List.map_map]
      refine List.map_congr_left fun y _ => ?_
      cases y <;> rfl
    simp [evalIn, InMisjudged, hnone]
  | some a =>
    rw [Option.map_some]
    by_cases hexact : ∃ b, some b ∈ list ∧ a.2.value = b.2.value
    · obtain ⟨b, hb, hab⟩ := hexact
      have hrounded : (castAs target a).2.value = (castAs target b).2.value := by
        rcases compare_cast target a b with ⟨h, -⟩ | ⟨-, h'⟩ | ⟨h, -⟩ | hm
        · exact absurd hab h.ne
        · exact h'
        · exact absurd hab h.ne'
        · exact hm.2
      rw [evalIn_of_mem ⟨b, hb, hab⟩, evalIn_of_mem (exists_mem_map_castAs.mpr ⟨b, hb, hrounded⟩)]
      refine iff_of_true rfl ?_
      rintro ⟨_, ⟨⟩, -, hno⟩
      exact hno b hb hab
    · have hno : ∀ b, some b ∈ list → a.2.value ≠ b.2.value := fun b hb hab => hexact ⟨b, hb, hab⟩
      by_cases hrounded : ∃ b, some b ∈ list ∧
          (castAs target a).2.value = (castAs target b).2.value
      · rw [evalIn_of_mem (exists_mem_map_castAs.mpr hrounded)]
        obtain ⟨b, hb, hab⟩ := hrounded
        refine iff_of_false ?_ (not_not.mpr ⟨a, rfl, ⟨b, hb, hno b hb, hab⟩, hno⟩)
        by_cases hn : none ∈ list
        · simp [(evalIn_of_not_mem hexact).1 hn]
        · simp [(evalIn_of_not_mem hexact).2 hn]
      · have hcast := evalIn_of_not_mem (mt exists_mem_map_castAs.mp hrounded)
        have hnull : none ∈ list.map (Option.map (castAs target)) ↔ none ∈ list := by simp
        refine iff_of_true ?_ ?_
        · by_cases hn : none ∈ list
          · rw [(evalIn_of_not_mem hexact).1 hn, hcast.1 (hnull.mpr hn)]
          · rw [(evalIn_of_not_mem hexact).2 hn, hcast.2 (mt hnull.mp hn)]
        · rintro ⟨_, ⟨⟩, ⟨b, hb, hm⟩, -⟩
          exact hrounded ⟨b, hb, hm.2⟩

/-! ### The written comparisons -/

/-- DuckDB's operand is the cast of what SQLite reads. -/
theorem comparedOperand_eq (target : NumericType) (o : Operand) :
    comparedOperand target o = (writeComparisonOperand target o).map (castAs target) := by
  unfold comparedOperand writeComparisonOperand
  split
  · rw [Option.map_map]
    congr 1
    funext n
    exact (castAs_castAs target n).symm
  · rfl

theorem map_comparedOperand (target : NumericType) (list : List Operand) :
    list.map (comparedOperand target) =
      (list.map (writeComparisonOperand target)).map (Option.map (castAs target)) := by
  rw [List.map_map]
  exact List.map_congr_left fun o _ => comparedOperand_eq target o

/-- The number itself. -/
def Operand.own (o : Operand) : Option ℚ := o.value.map Number.value

/-- The double that an operand is rounded to. -/
def Operand.rounded (o : Operand) : Option ℚ := o.value.map fun n => n.toDouble.value

/-- The number that counts in an exact comparison: a constant is rounded, and an integer of a column is
not. -/
def Operand.exact (o : Operand) : Option ℚ := if o.constant then o.rounded else o.own

/-- The operands are compared as `DOUBLE` and are rounded to the same double. But they differ if an
integer that is no constant keeps its value, and the numbers are related by `r`. -/
def Operand.Merge (target : NumericType) (r : ℚ → ℚ → Prop) (a b : Operand) : Prop :=
  target = .double ∧ a.rounded = b.rounded ∧ ∃ x ∈ a.exact, ∃ y ∈ b.exact, x ≠ y ∧ r x y

/-- Operands of the comparison are merged, and it shows. A bound of a `BETWEEN` that is missed by less than
the rounding does not show if DuckDB finds the other one missed, and a member of a list not if another one
is the number itself. -/
def Comparison.Misjudged : Comparison → Prop
  | .compare op left right => left.Merge (target left [right]) op.Shows right
  | .between x lower upper =>
    let t := target x [lower, upper]
    (x.Merge t (· < ·) lower ∨ x.Merge t (· > ·) upper) ∧
      ComparisonType.greaterThanOrEqualTo.eval (comparedOperand t x) (comparedOperand t lower) ≠
        some false ∧
      ComparisonType.lessThanOrEqualTo.eval (comparedOperand t x) (comparedOperand t upper) ≠ some false
  | .inList _ x list =>
    (∃ o ∈ list, x.Merge (target x list) (· ≠ ·) o) ∧ ∀ o ∈ list, x.exact ≠ o.exact
  | .inSubquery x type rows =>
    let x := { x with constant := false }
    let column := rows.map fun row => Operand.mk type false row
    (∃ o ∈ column, x.Merge (tryBindComparison x.type type) (· ≠ ·) o) ∧ ∀ o ∈ column, x.exact ≠ o.exact

theorem not_merged_bigint (a b : AnyNumber) : ¬ Merged .bigint a b := fun h => h.1 h.2

/-- What is written, compared as `DOUBLE`. -/
theorem exact_eq (o : Operand) :
    o.exact = (writeComparisonOperand .double o).map fun n => n.2.value := by
  obtain ⟨type, constant, value⟩ := o
  cases constant <;> cases value <;> rfl

theorem rounded_eq (o : Operand) :
    o.rounded = (writeComparisonOperand .double o).map fun n => (castAs .double n).2.value := by
  obtain ⟨type, constant, value⟩ := o
  cases constant <;> cases value <;> rfl

/-- **Merged operands**, by what is written for them. -/
theorem Operand.merge_iff {target : NumericType} {r : ℚ → ℚ → Prop} {a b : Operand} :
    a.Merge target r b ↔ ∃ x ∈ writeComparisonOperand target a, ∃ y ∈ writeComparisonOperand target b,
      Merged target x y ∧ r x.2.value y.2.value := by
  cases target with
  | bigint =>
    refine iff_of_false (fun h => nomatch h.1) ?_
    rintro ⟨x, -, y, -, hm, -⟩
    exact not_merged_bigint x y hm
  | double =>
    rw [Operand.Merge, exact_eq, exact_eq, rounded_eq, rounded_eq]
    cases writeComparisonOperand .double a with
    | none => simp
    | some x =>
      cases writeComparisonOperand .double b with
      | none => simp
      | some y =>
        simp only [Option.map_some, Option.some.injEq, Option.mem_def, exists_eq_left', true_and, Merged]
        tauto

theorem inMisjudged_iff {target : NumericType} {x : Operand} {list : List Operand} :
    InMisjudged target (writeComparisonOperand target x) (list.map (writeComparisonOperand target)) ↔
      (∃ o ∈ list, x.Merge target (· ≠ ·) o) ∧ ∀ o ∈ list, x.exact ≠ o.exact := by
  cases target with
  | bigint =>
    refine iff_of_false ?_ fun ⟨⟨_, _, h⟩, _⟩ => nomatch h.1
    rintro ⟨a, -, ⟨b, -, hm⟩, -⟩
    exact not_merged_bigint a b hm
  | double =>
    simp only [Operand.merge_iff, exact_eq]
    cases writeComparisonOperand .double x with
    | none => simp [InMisjudged]
    | some a =>
      constructor
      · rintro ⟨_, ⟨⟩, ⟨b, hb, hm⟩, hno⟩
        obtain ⟨o, ho, hob⟩ := List.mem_map.mp hb
        refine ⟨⟨o, ho, a, rfl, b, hob, hm, hm.1⟩, fun o' ho' h => ?_⟩
        obtain ⟨b', hb', hab⟩ := Option.map_eq_some_iff.mp h.symm
        exact hno b' (List.mem_map.mpr ⟨o', ho', hb'⟩) hab.symm
      · rintro ⟨⟨o, ho, _, ⟨⟩, b, hb, hm, -⟩, hno⟩
        refine ⟨a, rfl, ⟨b, List.mem_map.mpr ⟨o, ho, hb⟩, hm⟩, fun b' hb' hab => ?_⟩
        obtain ⟨o', ho', hob⟩ := List.mem_map.mp hb'
        exact hno o' ho' (by rw [hob, Option.map_some, Option.map_some, hab])

/-- **Pushed down comparisons of integers and doubles.** For every comparison that is written, every
value of its operands and every mix of constants and columns, SQLite's answer is DuckDB's exactly when no
two of the operands are merged by the rounding in a way that shows. -/
theorem sqlite_eq_duckdb_iff (c : Comparison) : c.sqlite = c.duckdb ↔ ¬ c.Misjudged := by
  cases c with
  | compare op left right =>
    simp only [Comparison.sqlite, Comparison.duckdb, Comparison.evalWith, comparedOperand_eq,
      Comparison.Misjudged, Operand.merge_iff]
    exact eval_eq_iff _ _ _ _
  | between x lower upper =>
    simp only [Comparison.sqlite, Comparison.duckdb, Comparison.evalWith, comparedOperand_eq,
      Comparison.Misjudged, Operand.merge_iff]
    exact evalBetween_eq_iff _ _ _ _
  | inList negated x list =>
    have hnegate : Function.Injective (Option.map (xor negated)) :=
      Option.map_injective fun a b h => by simpa using h
    simp only [Comparison.sqlite, Comparison.duckdb, Comparison.evalWith, map_comparedOperand,
      comparedOperand_eq, hnegate.eq_iff, Comparison.Misjudged, ← inMisjudged_iff]
    exact evalIn_eq_iff _ _ _
  | inSubquery x type rows =>
    simp only [Comparison.sqlite, Comparison.duckdb, Comparison.evalWith, map_comparedOperand,
      comparedOperand_eq, Comparison.Misjudged, ← inMisjudged_iff]
    exact evalIn_eq_iff _ _ _

/-- `2 ^ 53 + 1` is the smallest positive integer that is not a double. -/
def unrepresentable : Bigint := ⟨2 ^ 53 + 1, by norm_num, by norm_num⟩

/-- `2 ^ 53`. -/
def representable : Double := ⟨2 ^ 53, 2 ^ 52, 1, by norm_num, by norm_num, by norm_num, by norm_num⟩

/-- In DuckDB the two are equal, and in SQLite they are not. -/
theorem sqlite_ne_duckdb_equal :
    (Comparison.compare .equal ⟨.bigint, false, some (.bigint unrepresentable)⟩
        ⟨.double, false, some (.double representable)⟩).sqlite = some false ∧
      (Comparison.compare .equal ⟨.bigint, false, some (.bigint unrepresentable)⟩
        ⟨.double, false, some (.double representable)⟩).duckdb = some true := by
  decide

end SqliteScanner.NumericComparison
