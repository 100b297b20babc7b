import SqliteScanner.Aggregates.CompareValues

/-!
# `string_agg` with an order

`duckdb_string_agg(value, separator, order, key, ..)` collects the values that are not `NULL` with their
keys, sorts them with `std::stable_sort`, and joins them. The order has two characters for each key: `D`
for a descending key and `F` for `NULL`s first.

A sort is undefined if the comparison that it is given is not a strict weak order. If each key has values
of one storage class, the comparison of rows is one, since it is the lexicographic order by the keys
(`orderedOn_compareKeys`). The place of the `NULL`s is decided before the direction is looked at, so that
they are independent. So the result is the values in the one order that sorts them by their keys and
leaves rows with equal keys as they came (`stringAgg_ordered`).

## Main definitions

* `stringAggStep`, `rowLess`, `stringAggFinal` — the source's functions
* `Precedes` — the order by the keys

## Main results

* `keysLess_eq_true` — the comparison of rows is the order by the keys
* `stringAgg_ordered`
-/

namespace SqliteScanner.Aggregates.StringAgg

open Sorting

variable {D K : Type} [LinearOrder K] (doubles : Doubles D K)

/-! ### The aggregate -/

/-- A key; `none` is `NULL`. -/
abbrev Key (D : Type) := Option (Value D)

/-- A row: the bytes of the value, and the keys. -/
structure Row (D : Type) where
  value : List UInt8
  keys : List (Key D)

/-- `SQLiteOrderedStringAggState`. -/
structure State (D : Type) where
  rows : List (Row D)
  separator : List UInt8
  order : List Char

/-- `SQLiteOrderedStringAggStep`. The state is allocated by the first call that needs it. -/
def stringAggStep (separator : List UInt8) (order : List Char) (state : Option (State D))
    (call : Option (List UInt8) × List (Key D)) : Option (State D) :=
  match call.1 with
  | none => state
  | some value =>
    let rows := state.elim [] State.rows
    some ⟨rows ++ [⟨value, call.2⟩], separator, order⟩

/-- The loop of the comparison of two rows, from key `k` on. -/
def keysLess (order : List Char) : ℕ → List (Key D) → List (Key D) → Bool
  | k, left :: lefts, right :: rights =>
    let descending := order[k * 2]? == some 'D'
    let nullsFirst := order[k * 2 + 1]? == some 'F'
    match left, right with
    | none, none => keysLess order (k + 1) lefts rights
    | none, some _ => nullsFirst
    | some _, none => !nullsFirst
    | some l, some r =>
      let comparison := compareValues doubles l r
      if comparison ≠ .eq then
        if descending then comparison == .gt else comparison == .lt
      else keysLess order (k + 1) lefts rights
  | _, [], _ => false
  | _, _ :: _, [] => false

def rowLess (order : List Char) (left right : Row D) : Bool :=
  keysLess doubles order 0 left.keys right.keys

/-- The loop that joins the rows. -/
def joinRows (separator : List UInt8) : List (Row D) → List UInt8
  | [] => []
  | [row] => row.value
  | row :: rows => row.value ++ separator ++ joinRows separator rows

/-- `std::stable_sort`, which promises something only for a strict weak order. -/
structure StableSort (α : Type) where
  sort : (α → α → Bool) → List α → List α
  isStableSort : ∀ lt l, StrictWeakOn lt (· ∈ l) → IsStableSort lt l (sort lt l)

/-- `SQLiteOrderedStringAggFinal`. -/
def stringAggFinal (std : StableSort (Row D)) (state : Option (State D)) : Option (List UInt8) :=
  match state with
  | none => none
  | some state =>
    if state.rows.isEmpty then none
    else some (joinRows state.separator (std.sort (rowLess doubles state.order) state.rows))

/-! ### The order by the keys -/

/-- The order of values of one storage class. -/
def ValueLt : Value D → Value D → Prop
  | .integer l, .integer r => l < r
  | .float l, .float r => doubles.value l < doubles.value r
  | .text l, .text r | .blob l, .blob r => l < r
  | _, _ => False

/-- A key comes before another one. `NULL`s come first or last, whatever the direction is. -/
def KeyPrecedes (descending nullsFirst : Bool) : Key D → Key D → Prop
  | none, none => False
  | none, some _ => nullsFirst = true
  | some _, none => nullsFirst = false
  | some l, some r => if descending then ValueLt doubles r l else ValueLt doubles l r

/-- The keys come before other keys, in the lexicographic order from key `k` on. -/
def Precedes (order : List Char) : ℕ → List (Key D) → List (Key D) → Prop
  | k, left :: lefts, right :: rights =>
    let descending := order[k * 2]? == some 'D'
    let nullsFirst := order[k * 2 + 1]? == some 'F'
    KeyPrecedes doubles descending nullsFirst left right ∨
      ¬ KeyPrecedes doubles descending nullsFirst left right ∧
        ¬ KeyPrecedes doubles descending nullsFirst right left ∧
        Precedes order (k + 1) lefts rights
  | _, [], _ => False
  | _, _ :: _, [] => False

/-- The keys of a row are `NULL`s and values of the storage classes of their columns. -/
def Typed (classes : List StorageClass) (keys : List (Key D)) : Prop :=
  List.Forall₂ (fun key c => ∀ v ∈ key, v.type = c) keys classes

/-! ### Comparisons of keys -/

def compareKey (descending nullsFirst : Bool) : Key D → Key D → Ordering
  | none, none => .eq
  | none, some _ => if nullsFirst then .lt else .gt
  | some _, none => if nullsFirst then .gt else .lt
  | some l, some r =>
    if descending then (compareValues doubles l r).swap else compareValues doubles l r

def compareKeys (order : List Char) : ℕ → List (Key D) → List (Key D) → Ordering
  | k, left :: lefts, right :: rights =>
    (compareKey doubles (order[k * 2]? == some 'D') (order[k * 2 + 1]? == some 'F') left right).then
      (compareKeys order (k + 1) lefts rights)
  | _, [], _ => .eq
  | _, _ :: _, [] => .eq

theorem keysLess_eq (order : List Char) : ∀ (k : ℕ) (lefts rights : List (Key D)),
    keysLess doubles order k lefts rights = (compareKeys doubles order k lefts rights == .lt)
  | _, [], _ => by rw [keysLess, compareKeys]; rfl
  | _, _ :: _, [] => by rw [keysLess, compareKeys]; rfl
  | k, left :: lefts, right :: rights => by
    have ih := keysLess_eq order (k + 1) lefts rights
    cases left with
    | none =>
      cases right with
      | none => exact ih
      | some r =>
        rw [keysLess, compareKeys, compareKey]
        cases order[k * 2 + 1]? == some 'F' <;> rfl
    | some l =>
      cases right with
      | none =>
        rw [keysLess, compareKeys, compareKey]
        cases order[k * 2 + 1]? == some 'F' <;> rfl
      | some r =>
        rw [keysLess, compareKeys, compareKey]
        cases order[k * 2]? == some 'D' <;> cases compareValues doubles l r <;>
          first | rfl | exact ih

/-- Keys of one storage class are totally ordered. -/
theorem orderedOn_compareKey (descending nullsFirst : Bool) (c : StorageClass) :
    OrderedOn (compareKey doubles descending nullsFirst) fun key => ∀ v ∈ key, v.type = c := by
  have hvalues : OrderedOn (fun l r : Value D =>
      if descending then (compareValues doubles l r).swap else compareValues doubles l r)
      fun v => v.type = c := by
    cases descending with
    | true => exact (orderedOn_storageClass doubles c).reverse
    | false => exact orderedOn_storageClass doubles c
  constructor
  · rintro (_ | a) (_ | b) ha hb
    case some.some => exact hvalues.swap a b (ha a rfl) (hb b rfl)
    all_goals cases nullsFirst <;> rfl
  · rintro (_ | a) (_ | b) (_ | d) ha hb hd
    case some.some.some => exact hvalues.trans a b d (ha a rfl) (hb b rfl) (hd d rfl)
    all_goals cases nullsFirst <;> simp [compareKey]

/-- **The comparison of rows is a total preorder**, if each key has values of one storage class. -/
theorem orderedOn_compareKeys (order : List Char) (k : ℕ) (classes : List StorageClass) :
    OrderedOn (compareKeys doubles order k) (Typed classes) := by
  induction classes generalizing k with
  | nil =>
    have hnil : ∀ keys : List (Key D), Typed [] keys → keys = [] := fun _ h => by cases h; rfl
    refine ⟨fun a b ha hb => ?_, fun a b c ha hb hc => ?_⟩
    · rw [hnil a ha, hnil b hb]
      rfl
    · rw [hnil a ha, hnil c hc]
      intro _ _
      rw [compareKeys]
      decide
  | cons c classes ih =>
    have hkey := orderedOn_compareKey doubles (order[k * 2]? == some 'D')
      (order[k * 2 + 1]? == some 'F') c
    have hcons : ∀ keys : List (Key D), Typed (c :: classes) keys →
        ∃ key rest, keys = key :: rest ∧ (∀ v ∈ key, v.type = c) ∧ Typed classes rest := by
      rintro _ (_ | ⟨hfirst, hrest⟩)
      exact ⟨_, _, rfl, hfirst, hrest⟩
    refine ⟨fun a b ha hb => ?_, fun a b d ha hb hd => ?_⟩
    · obtain ⟨l, ls, rfl, hl, hls⟩ := hcons a ha
      obtain ⟨r, rs, rfl, hr, hrs⟩ := hcons b hb
      rw [compareKeys, compareKeys, hkey.swap l r hl hr, (ih (k + 1)).swap ls rs hls hrs,
        Ordering.swap_then]
    · obtain ⟨l, ls, rfl, hl, hls⟩ := hcons a ha
      obtain ⟨m, ms, rfl, hm, hms⟩ := hcons b hb
      obtain ⟨r, rs, rfl, hr, hrs⟩ := hcons d hd
      rw [compareKeys, compareKeys, compareKeys]
      exact hkey.then_trans hl hm hr ((ih (k + 1)).trans ls ms rs hls hms hrs)

/-! ### The comparison of rows is the order by the keys -/

theorem compareBytes_eq_lt (l r : List UInt8) : compareBytes l r = .lt ↔ l < r := by
  rw [compareBytes]
  induction l generalizing r with
  | nil => cases r <;> simp [compareList]
  | cons a l ih =>
    cases r with
    | nil => simp [compareList]
    | cons b r =>
      rw [compareList, List.cons_lt_cons_iff, ← ih, Ordering.then_eq_lt, Std.compare_eq_lt,
        Std.compare_eq_iff_eq]

theorem compareValues_eq_lt {l r : Value D} (h : l.type = r.type) :
    compareValues doubles l r = .lt ↔ ValueLt doubles l r := by
  cases l <;> cases r <;> first
    | exact compare_lt_iff_lt
    | exact compareBytes_eq_lt _ _
    | exact absurd h (by simp [Value.type])

section Keys

variable (descending nullsFirst : Bool) {c : StorageClass} {l r : Key D}
  (hl : ∀ v ∈ l, v.type = c) (hr : ∀ v ∈ r, v.type = c)

include hl hr

theorem compareKey_eq_lt :
    compareKey doubles descending nullsFirst l r = .lt ↔
      KeyPrecedes doubles descending nullsFirst l r := by
  cases l with
  | none => cases r <;> cases nullsFirst <;> simp [compareKey, KeyPrecedes]
  | some l =>
    cases r with
    | none => cases nullsFirst <;> simp [compareKey, KeyPrecedes]
    | some r =>
      have hl := hl l rfl
      have hr := hr r rfl
      rw [compareKey, KeyPrecedes]
      cases descending with
      | false => exact compareValues_eq_lt doubles (hl.trans hr.symm)
      | true =>
        rw [if_pos rfl, if_pos rfl, ← (orderedOn_storageClass doubles c).swap l r hl hr]
        exact compareValues_eq_lt doubles (hr.trans hl.symm)

theorem compareKey_eq_eq :
    compareKey doubles descending nullsFirst l r = .eq ↔
      ¬ KeyPrecedes doubles descending nullsFirst l r ∧
        ¬ KeyPrecedes doubles descending nullsFirst r l := by
  rw [← compareKey_eq_lt doubles descending nullsFirst hl hr,
    ← compareKey_eq_lt doubles descending nullsFirst hr hl,
    (orderedOn_compareKey doubles descending nullsFirst c).swap l r hl hr]
  cases compareKey doubles descending nullsFirst l r <;> simp

end Keys

/-- **The comparison of rows is the lexicographic order by their keys.** -/
theorem keysLess_eq_true (order : List Char) {classes : List StorageClass} :
    ∀ (k : ℕ) {lefts rights : List (Key D)}, Typed classes lefts → Typed classes rights →
      (keysLess doubles order k lefts rights = true ↔ Precedes doubles order k lefts rights) := by
  induction classes with
  | nil =>
    rintro k _ _ (_ | _) (_ | _)
    simp [keysLess, Precedes]
  | cons c classes ih =>
    rintro k _ _ (_ | ⟨hl, hls⟩) (_ | ⟨hr, hrs⟩)
    rw [keysLess_eq, beq_iff_eq, compareKeys, Precedes, Ordering.then_eq_lt,
      compareKey_eq_lt doubles _ _ hl hr, compareKey_eq_eq doubles _ _ hl hr, and_assoc,
      ← ih (k + 1) hls hrs, keysLess_eq, beq_iff_eq]

/-! ### The calls of an aggregate -/

/-- The rows that the calls with a value give. -/
def rowsOf (calls : List (Option (List UInt8) × List (Key D))) : List (Row D) :=
  calls.filterMap fun call => call.1.map fun value => ⟨value, call.2⟩

/-- `duckdb_string_agg` on the calls of a group. -/
def stringAgg (std : StableSort (Row D)) (separator : List UInt8) (order : List Char)
    (calls : List (Option (List UInt8) × List (Key D))) : Option (List UInt8) :=
  stringAggFinal doubles std (calls.foldl (stringAggStep separator order) none)

/-- The rows in the order by their keys. Rows with equal keys stay as they came. -/
def InOrder (order : List Char) (rows sorted : List (Row D)) : Prop :=
  ∃ tagged : List (Row D × ℕ), tagged.Perm rows.zipIdx ∧
    (tagged.Pairwise fun l r => Precedes doubles order 0 l.1.keys r.1.keys ∨
      ¬ Precedes doubles order 0 r.1.keys l.1.keys ∧ l.2 < r.2) ∧
    tagged.map Prod.fst = sorted

/-- Each call with a value appends its row, and the state is there from the first one on. -/
theorem foldl_stringAggStep (separator : List UInt8) (order : List Char)
    (calls : List (Option (List UInt8) × List (Key D))) (state : Option (State D)) :
    calls.foldl (stringAggStep separator order) state =
      if rowsOf calls = [] then state
      else some ⟨state.elim [] State.rows ++ rowsOf calls, separator, order⟩ := by
  induction calls generalizing state with
  | nil => rfl
  | cons call calls ih =>
    obtain ⟨_ | value, keys⟩ := call
    · exact ih state
    · have hrows : rowsOf ((some value, keys) :: calls) = ⟨value, keys⟩ :: rowsOf calls := rfl
      rw [List.foldl_cons, ih, hrows, if_neg (List.cons_ne_nil _ _), stringAggStep]
      split_ifs with hempty
      · rw [hempty]
      · rw [Option.elim_some, List.append_assoc, List.singleton_append]

theorem rowsOf_eq_nil {calls : List (Option (List UInt8) × List (Key D))} :
    rowsOf calls = [] ↔ ∀ call ∈ calls, call.1 = none := by
  rw [rowsOf, List.filterMap_eq_nil_iff]
  simp only [Option.map_eq_none_iff]

theorem stringAgg_eq (std : StableSort (Row D)) (separator : List UInt8) (order : List Char)
    (calls : List (Option (List UInt8) × List (Key D))) :
    stringAgg doubles std separator order calls =
      if rowsOf calls = [] then none
      else some (joinRows separator (std.sort (rowLess doubles order) (rowsOf calls))) := by
  rw [stringAgg, foldl_stringAggStep]
  split_ifs with hempty
  · rfl
  · rw [stringAggFinal, Option.elim_none, List.nil_append]
    exact if_neg fun h => hempty (List.isEmpty_iff.mp h)

theorem joinRows_eq (separator : List UInt8) : ∀ rows : List (Row D),
    joinRows separator rows = List.intercalate separator (rows.map Row.value)
  | [] => rfl
  | [row] => by rw [joinRows, List.map_singleton, List.intercalate_singleton]
  | row :: row' :: rows => by
    rw [joinRows, joinRows_eq separator (row' :: rows), List.map_cons (a := row),
      List.map_cons, List.intercalate_cons_cons]
    exact List.cons_ne_nil row' rows

theorem typed_of_mem_rowsOf {classes : List StorageClass}
    {calls : List (Option (List UInt8) × List (Key D))}
    (htyped : ∀ call ∈ calls, Typed classes call.2) {row : Row D} (hrow : row ∈ rowsOf calls) :
    Typed classes row.keys := by
  rw [rowsOf, List.mem_filterMap] at hrow
  obtain ⟨⟨value, keys⟩, hcall, hvalue⟩ := hrow
  rw [Option.map_eq_some_iff] at hvalue
  obtain ⟨_, _, rfl⟩ := hvalue
  exact htyped _ hcall

section Sorted

variable (order : List Char) {classes : List StorageClass} {rows : List (Row D)}
  (htyped : ∀ row ∈ rows, Typed classes row.keys)

include htyped

/-- **The comparison of rows is a strict weak order.** -/
theorem strictWeakOn_rowLess : StrictWeakOn (rowLess doubles order) (· ∈ rows) := by
  have hkeys : OrderedOn (fun l r : Row D => compareKeys doubles order 0 l.keys r.keys) (· ∈ rows) :=
    (orderedOn_compareKeys doubles order 0 classes).comap htyped
  have hless : rowLess doubles order = fun l r => compareKeys doubles order 0 l.keys r.keys == .lt := by
    funext l r
    rw [rowLess, keysLess_eq]
  rw [hless]
  exact hkeys.strictWeakOn

theorem inOrder_iff {sorted : List (Row D)} :
    InOrder doubles order rows sorted ↔ IsStableSort (rowLess doubles order) rows sorted := by
  have hless : ∀ l ∈ rows, ∀ r ∈ rows,
      (rowLess doubles order l r = true ↔ Precedes doubles order 0 l.keys r.keys) := by
    intro l hl r hr
    exact keysLess_eq_true doubles order 0 (htyped l hl) (htyped r hr)
  refine exists_congr fun tagged => and_congr_right fun hperm => and_congr_left fun _ => ?_
  have hmem : ∀ x ∈ tagged, x.1 ∈ rows := fun x hx => mem_of_mem_zipIdx (hperm.subset hx)
  refine List.Pairwise.iff_of_mem fun {x y} hx hy => ?_
  rw [Before, hless _ (hmem x hx) _ (hmem y hy), ← Bool.not_eq_true,
    hless _ (hmem y hy) _ (hmem x hx)]

end Sorted

/-- **Ordered `string_agg`.** Let each key have `NULL`s and values of one storage class. The comparison of
rows is a strict weak order. The result is `NULL` if all values are, and otherwise the values that are
not `NULL`, joined by the separator, in the one order that sorts them by their keys and leaves rows with
equal keys as they came. -/
theorem stringAgg_ordered (std : StableSort (Row D)) (separator : List UInt8) (order : List Char)
    (classes : List StorageClass) (calls : List (Option (List UInt8) × List (Key D)))
    (htyped : ∀ call ∈ calls, Typed classes call.2) :
    StrictWeakOn (rowLess doubles order) (· ∈ rowsOf calls) ∧
      (stringAgg doubles std separator order calls = none ↔ ∀ call ∈ calls, call.1 = none) ∧
      (∃! sorted, InOrder doubles order (rowsOf calls) sorted) ∧
      ∀ sorted, InOrder doubles order (rowsOf calls) sorted → (∃ call ∈ calls, call.1 ≠ none) →
        stringAgg doubles std separator order calls =
          some (List.intercalate separator (sorted.map Row.value)) := by
  have hrows : ∀ row ∈ rowsOf calls, Typed classes row.keys :=
    fun row hrow => typed_of_mem_rowsOf htyped hrow
  have hweak := strictWeakOn_rowLess doubles order hrows
  have hsort := std.isStableSort _ _ hweak
  refine ⟨hweak, ?_, ⟨_, (inOrder_iff doubles order hrows).mpr hsort, ?_⟩, ?_⟩
  · rw [stringAgg_eq, ← rowsOf_eq_nil]
    split_ifs with hempty <;> simp [hempty]
  · intro sorted hsorted
    exact ((inOrder_iff doubles order hrows).mp hsorted).unique hweak hsort
  · rintro sorted hsorted ⟨call, hcall, hvalue⟩
    have hempty : rowsOf calls ≠ [] := fun h => hvalue (rowsOf_eq_nil.mp h call hcall)
    rw [stringAgg_eq, if_neg hempty, joinRows_eq,
      ((inOrder_iff doubles order hrows).mp hsorted).unique hweak hsort]

/-- Three rows and a `NULL`, ordered by an integer: descending, with `NULL`s first. -/
theorem stringAgg_ordered_descending :
    let doubles : Doubles ℤ ℤ := ⟨id, id⟩
    let std : StableSort (Row ℤ) := ⟨stableSort, fun _ _ h => isStableSort_stableSort h⟩
    let calls : List (Option (List UInt8) × List (Key ℤ)) :=
      [(some [97], [some (.integer 1)]), (none, [some (.integer 9)]), (some [98], [none]),
        (some [99], [some (.integer 2)])]
    stringAgg doubles std [44] ['D', 'F'] calls = some [98, 44, 99, 44, 97] := by
  intro doubles std calls
  have htyped : ∀ call ∈ calls, Typed [.integer] call.2 := by
    simp [calls, Typed, Value.type]
  have horder : InOrder doubles ['D', 'F'] (rowsOf calls)
      [⟨[98], [none]⟩, ⟨[99], [some (.integer 2)]⟩, ⟨[97], [some (.integer 1)]⟩] := by
    refine ⟨[(⟨[98], [none]⟩, 1), (⟨[99], [some (.integer 2)]⟩, 2)] ++
      [(⟨[97], [some (.integer 1)]⟩, 0)], List.perm_append_comm, ?_, rfl⟩
    simp [Precedes, KeyPrecedes, ValueLt]
  exact (stringAgg_ordered doubles std [44] ['D', 'F'] [.integer] calls htyped).2.2.2 _ horder
    ⟨_, List.mem_cons_self, by simp⟩

end SqliteScanner.Aggregates.StringAgg
