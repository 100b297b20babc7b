import Mathlib.Data.List.Perm.Basic
import Mathlib.Data.List.ReduceOption
import Mathlib.Order.Bounds.Defs
import Mathlib.Order.Defs.LinearOrder
import SqliteScanner.Scalars.Builtins

/-!
# Functions that skip `NULL`s

`concat_ws`, `greatest` and `least` of DuckDB skip arguments that are `NULL`. SQLite's operators do not:
`||`, `max` and `min` are `NULL` if an operand is. So the writer wraps the operands in `COALESCE`.

For `greatest` and `least` every argument is replaced by some other one if it is `NULL`. This does not
change which values there are, and leaves a `NULL` only if all arguments are (`some_mem_rotated_iff`,
`none_mem_rotated_iff`).

For `concat_ws` a separator is put before every argument, the separator of a `NULL` goes with it, and the
first separator is cut off at the end by `substr`. But `substr` ends a text at its first zero byte, where
`||` does not. So the result is right exactly if no argument has a zero (`skipsNulls_iff`).

## Main definitions

* `writtenConcatWs`, `writtenGreatest`, `writtenLeast` — what is written
* `SkipsNulls` — the meaning of the functions in DuckDB

## Main results

* `writtenConcatWs_eq` — what is cut off is the first separator
* `skipsNulls_iff`
-/

namespace SqliteScanner.Scalars.SkipNulls

/-! ### SQLite's expressions

`none` is `NULL`. -/

section Expressions

variable {α : Type}

/-- `COALESCE`. -/
def coalesce : List (Option α) → Option α
  | [] => none
  | none :: rest => coalesce rest
  | some a :: _ => some a

/-- `||`. -/
def concat (l r : Option (List Char)) : Option (List Char) := do
  let l ← l
  let r ← r
  return l ++ r

/-- Operands with `||` between them. -/
def concatAll : List (Option (List Char)) → Option (List Char)
  | [] => none
  | operand :: operands => operands.foldl concat operand

variable [LinearOrder α]

/-- `(sqlite3MemCompare(best, a) ^ mask) >= 0`, where the mask of `max` has all bits set. -/
def replaces (isMax : Bool) (best a : α) : Bool :=
  match isMax with
  | true => best < a
  | false => a ≤ best

/-- The loop of `minmaxFunc`. -/
def minmaxLoop (isMax : Bool) : α → List (Option α) → Option α
  | best, [] => some best
  | _, none :: _ => none
  | best, some a :: rest =>
    minmaxLoop isMax (if replaces isMax best a then a else best) rest

/-- `minmaxFunc`: `max` and `min` with several arguments. -/
def minmaxFunc (isMax : Bool) : List (Option α) → Option α
  | [] => none
  | none :: _ => none
  | some a :: rest => minmaxLoop isMax a rest

end Expressions

/-! ### What is written -/

section Written

/-- `concat_ws`. -/
def writtenConcatWs (separator : Option (List Char)) (args : List (Option (List Char))) :
    Option (List Char) := do
  let text ← concatAll (args.map fun arg => coalesce [concat separator arg, some []])
  let position ← separator.map fun separator => length separator + 1
  return substr text position

variable {α : Type}

/-- An argument, and then all others. -/
def rotated (written : List (Option α)) : List (Option α) :=
  written.mapIdx fun i arg => coalesce (arg :: written.eraseIdx i)

variable [LinearOrder α]

def writtenExtreme (isMax : Bool) (written : List (Option α)) : Option α :=
  match written with
  | [arg] => arg
  | _ => minmaxFunc isMax (rotated written)

/-- `greatest`. -/
def writtenGreatest (args : List (Option α)) : Option α := writtenExtreme true args

/-- `least`. -/
def writtenLeast (args : List (Option α)) : Option α := writtenExtreme false args

end Written

/-! ### What it means in DuckDB -/

/-- A separator without zeros. -/
structure Separator where
  chars : List Char
  notMem : '\x00' ∉ chars

/-- `concat_ws` joins the arguments that are not `NULL`, and `greatest` and `least` choose among them. -/
structure SkipsNulls {α : Type} [LinearOrder α] (separator : Option Separator)
    (args : List (Option (List Char))) (operands : List (Option α)) : Prop where
  concatWs : writtenConcatWs (separator.map Separator.chars) args =
    separator.map fun separator => separator.chars.intercalate args.reduceOption
  concatWs_eq_none : writtenConcatWs (separator.map Separator.chars) args = none ↔ separator = none
  greatest : ∀ m, writtenGreatest operands = some m ↔ IsGreatest {x | some x ∈ operands} m
  greatest_eq_none : writtenGreatest operands = none ↔ ∀ x ∈ operands, x = none
  least : ∀ m, writtenLeast operands = some m ↔ IsLeast {x | some x ∈ operands} m
  least_eq_none : writtenLeast operands = none ↔ ∀ x ∈ operands, x = none

/-! ### `concat_ws` -/

section Concat

theorem foldl_concat (text : List Char) (operands : List (List Char)) :
    (operands.map some).foldl concat (some text) = some (text ++ operands.flatten) := by
  induction operands generalizing text with
  | nil => rw [List.flatten_nil, List.append_nil]; rfl
  | cons operand operands ih =>
    rw [List.map_cons, List.foldl_cons, List.flatten_cons, ← List.append_assoc]
    exact ih (text ++ operand)

/-- Operands that are `NULL` count as empty. -/
theorem concatAll_coalesce {β : Type} (f : β → Option (List Char)) {args : List β} (h : args ≠ []) :
    concatAll (args.map fun arg => coalesce [f arg, some []]) = some (args.filterMap f).flatten := by
  have hoperands : (args.map fun arg => coalesce [f arg, some []]) =
      (args.map fun arg => (f arg).getD []).map some := by
    rw [List.map_map]
    refine List.map_congr_left fun arg _ => ?_
    rw [Function.comp_apply]
    cases f arg <;> rfl
  have hflatten : (args.map fun arg => (f arg).getD []).flatten = (args.filterMap f).flatten := by
    clear h hoperands
    induction args with
    | nil => rfl
    | cons arg args ih =>
      rw [List.map_cons, List.flatten_cons, ih, List.filterMap_cons]
      cases f arg <;> rfl
  rw [hoperands, ← hflatten]
  cases args with
  | nil => exact absurd rfl h
  | cons arg args => exact foldl_concat _ _

/-- The operands of `concat_ws`: the first separator, and then what is joined by it. -/
theorem flatten_operands (separator : List Char) (args : List (List Char)) :
    (args.map fun arg => separator ++ arg).flatten =
      if args = [] then [] else separator ++ separator.intercalate args := by
  induction args with
  | nil => rfl
  | cons arg args ih =>
    rw [List.map_cons, List.flatten_cons, ih, if_neg (List.cons_ne_nil _ _)]
    cases args with
    | nil => simp
    | cons arg' args =>
      rw [if_neg (List.cons_ne_nil _ _), List.intercalate_cons_cons, List.append_assoc,
        List.append_assoc]

theorem writtenConcatWs_none (args : List (Option (List Char))) : writtenConcatWs none args = none := by
  rw [writtenConcatWs]
  cases concatAll (args.map fun arg => coalesce [concat none arg, some []]) <;> rfl

/-- **What is cut off is the first separator**, and what comes after a zero. -/
theorem writtenConcatWs_eq (separator : Separator) {args : List (Option (List Char))} (h : args ≠ []) :
    writtenConcatWs (some separator.chars) args =
      some (upToNul (separator.chars.intercalate args.reduceOption)) := by
  have hfilter : args.filterMap (concat (some separator.chars)) =
      args.reduceOption.map fun arg => separator.chars ++ arg := by
    rw [List.reduceOption, List.map_filterMap]
    refine List.filterMap_congr fun arg _ => ?_
    cases arg <;> rfl
  have hposition : ((length separator.chars + 1) - 1).toNat = separator.chars.length := by
    rw [length, upToNul_of_notMem separator.notMem]
    omega
  have hnonneg : ¬ length separator.chars + 1 < 0 := by
    rw [length]
    omega
  rw [writtenConcatWs, concatAll_coalesce _ h, hfilter, flatten_operands]
  refine congrArg some ?_
  rw [substr, if_neg hnonneg, hposition]
  split_ifs with hempty
  · rw [hempty, List.intercalate_nil, upToNul, List.takeWhile_nil, List.drop_nil]
  · rw [upToNul, List.takeWhile_append_of_pos, List.drop_left, upToNul]
    intro c hc
    rw [decide_eq_true_eq]
    rintro rfl
    exact separator.notMem hc

theorem mem_intercalate_iff {c : Char} {separator : List Char} (h : c ∉ separator) :
    ∀ l : List (List Char), c ∈ separator.intercalate l ↔ ∃ s ∈ l, c ∈ s
  | [] => by simp
  | [s] => by simp
  | s :: s' :: l => by
    rw [List.intercalate_cons_cons, List.mem_append, List.mem_append, or_iff_left h,
      mem_intercalate_iff h (s' :: l), List.exists_mem_cons_iff (a := s)]

/-- The result is right if no argument has a zero. -/
theorem writtenConcatWs_eq_iff (separator : Separator) {args : List (Option (List Char))}
    (h : args ≠ []) :
    writtenConcatWs (some separator.chars) args =
        some (separator.chars.intercalate args.reduceOption) ↔
      ∀ s, some s ∈ args → '\x00' ∉ s := by
  rw [writtenConcatWs_eq separator h, Option.some.injEq]
  have hmem : '\x00' ∈ separator.chars.intercalate args.reduceOption ↔
      ∃ s, some s ∈ args ∧ '\x00' ∈ s := by
    rw [mem_intercalate_iff separator.notMem]
    simp only [List.reduceOption_mem_iff]
  constructor
  · intro heq s hs hzero
    have := notMem_upToNul (separator.chars.intercalate args.reduceOption)
    rw [heq, hmem] at this
    exact this ⟨s, hs, hzero⟩
  · intro hargs
    refine upToNul_of_notMem fun hzero => ?_
    obtain ⟨s, hs, hzero⟩ := hmem.mp hzero
    exact hargs s hs hzero

end Concat

/-! ### `greatest` and `least` -/

section Extreme

variable {α : Type} {args : List (Option α)}

theorem coalesce_eq_none_iff :
    coalesce args = none ↔ ∀ arg ∈ args, arg = none := by
  induction args with
  | nil => simp [coalesce]
  | cons arg args ih => cases arg <;> simp [coalesce, ih]

theorem mem_of_coalesce_eq_some {a : α} (h : coalesce args = some a) :
    some a ∈ args := by
  induction args with
  | nil => cases h
  | cons arg args ih =>
    cases arg with
    | none => exact List.mem_cons_of_mem _ (ih h)
    | some b => exact h ▸ List.mem_cons_self

/-- **Replacing `NULL`s by other arguments does not change which values there are.** -/
theorem some_mem_rotated_iff {a : α} :
    some a ∈ rotated args ↔ some a ∈ args := by
  rw [rotated, List.mem_mapIdx]
  constructor
  · rintro ⟨i, hi, hcoalesce⟩
    have hmem := mem_of_coalesce_eq_some hcoalesce
    exact (List.getElem_cons_eraseIdx_perm hi).subset hmem
  · intro hmem
    obtain ⟨i, hi, hget⟩ := List.mem_iff_getElem.mp hmem
    exact ⟨i, hi, by rw [hget]; rfl⟩

/-- A `NULL` is left only if all arguments are `NULL`. -/
theorem none_mem_rotated_iff (h : args ≠ []) :
    none ∈ rotated args ↔ ∀ arg ∈ args, arg = none := by
  rw [rotated, List.mem_mapIdx]
  have hall : ∀ i (hi : i < args.length), coalesce (args[i] :: args.eraseIdx i) = none ↔
      ∀ arg ∈ args, arg = none := by
    intro i hi
    rw [coalesce_eq_none_iff]
    exact ⟨fun hnone arg harg =>
        hnone arg ((List.getElem_cons_eraseIdx_perm hi).symm.subset harg),
      fun hnone arg harg => hnone arg ((List.getElem_cons_eraseIdx_perm hi).subset harg)⟩
  constructor
  · rintro ⟨i, hi, hnone⟩
    exact (hall i hi).mp hnone
  · intro hnone
    exact ⟨0, List.length_pos_iff.mpr h, (hall 0 _).mpr hnone⟩

variable [LinearOrder α]

/-- The value is not beyond the best one. -/
def Within (isMax : Bool) (a best : α) : Prop := if isMax then a ≤ best else best ≤ a

theorem Within.refl (isMax : Bool) (a : α) : Within isMax a a := by
  cases isMax <;> exact le_refl a

theorem Within.trans {isMax : Bool} {a b c : α} (hab : Within isMax a b) (hbc : Within isMax b c) :
    Within isMax a c := by
  cases isMax with
  | true => exact le_trans (α := α) hab hbc
  | false => exact le_trans (α := α) hbc hab

theorem within_of_replaces {isMax : Bool} {best a : α} (h : replaces isMax best a = true) :
    Within isMax best a := by
  cases isMax with
  | true => exact (of_decide_eq_true (p := best < a) h).le
  | false => exact of_decide_eq_true (p := a ≤ best) h

theorem within_of_not_replaces {isMax : Bool} {best a : α} (h : ¬ replaces isMax best a = true) :
    Within isMax a best := by
  rw [Bool.not_eq_true] at h
  cases isMax with
  | true => exact le_of_not_gt (of_decide_eq_false h)
  | false => exact (lt_of_not_ge (of_decide_eq_false h)).le

/-- The loop ends with the best value, or at a `NULL`. -/
theorem minmaxLoop_spec (isMax : Bool) (best : α) (args : List (Option α)) :
    (minmaxLoop isMax best args = none ↔ none ∈ args) ∧
      ∀ m, minmaxLoop isMax best args = some m → (m = best ∨ some m ∈ args) ∧
        Within isMax best m ∧ ∀ a, some a ∈ args → Within isMax a m := by
  induction args generalizing best with
  | nil =>
    refine ⟨by simp [minmaxLoop], fun m hm => ?_⟩
    cases hm
    exact ⟨.inl rfl, .refl isMax _, fun a ha => absurd ha List.not_mem_nil⟩
  | cons arg args ih =>
    cases arg with
    | none => exact ⟨by simp [minmaxLoop], fun m hm => nomatch hm⟩
    | some a =>
      rw [minmaxLoop]
      obtain ⟨next, hnext⟩ : ∃ next, (if replaces isMax best a then a else best) = next := ⟨_, rfl⟩
      have hbest : (next = a ∨ next = best) ∧ Within isMax best next ∧ Within isMax a next := by
        rw [← hnext]
        split_ifs with hreplaces
        · exact ⟨.inl rfl, within_of_replaces hreplaces, .refl isMax a⟩
        · exact ⟨.inr rfl, .refl isMax best, within_of_not_replaces hreplaces⟩
      rw [hnext]
      obtain ⟨hnone, hsome⟩ := ih next
      refine ⟨by simp [hnone], fun m hm => ?_⟩
      obtain ⟨hmem, hwithin, hargs⟩ := hsome m hm
      refine ⟨?_, hbest.2.1.trans hwithin, fun b hb => ?_⟩
      · rcases hmem with rfl | hmem
        · exact hbest.1.elim (fun h => .inr (h ▸ List.mem_cons_self)) .inl
        · exact .inr (List.mem_cons_of_mem _ hmem)
      · rcases List.mem_cons.mp hb with hb | hb
        · exact Option.some.inj hb ▸ hbest.2.2.trans hwithin
        · exact hargs b hb

theorem minmaxFunc_eq_none_iff {isMax : Bool} (h : args ≠ []) :
    minmaxFunc isMax args = none ↔ none ∈ args := by
  cases args with
  | nil => exact absurd rfl h
  | cons arg args =>
    cases arg with
    | none => simp [minmaxFunc]
    | some a => simp [minmaxFunc, (minmaxLoop_spec isMax a args).1]

theorem minmaxFunc_eq_some {isMax : Bool} {m : α}
    (h : minmaxFunc isMax args = some m) :
    some m ∈ args ∧ ∀ a, some a ∈ args → Within isMax a m := by
  cases args with
  | nil => cases h
  | cons arg args =>
    cases arg with
    | none => cases h
    | some a =>
      obtain ⟨hmem, hwithin, hargs⟩ := (minmaxLoop_spec isMax a args).2 m h
      refine ⟨hmem.elim (fun h => h ▸ List.mem_cons_self) (List.mem_cons_of_mem _), fun b hb => ?_⟩
      rcases List.mem_cons.mp hb with hb | hb
      · exact Option.some.inj hb ▸ hwithin
      · exact hargs b hb

variable (isMax : Bool) (a b : Option α) (rest : List (Option α))

theorem writtenExtreme_eq_none_iff :
    writtenExtreme isMax (a :: b :: rest) = none ↔ ∀ x ∈ a :: b :: rest, x = none := by
  have hne : rotated (a :: b :: rest) ≠ [] := by simp [rotated]
  rw [writtenExtreme, minmaxFunc_eq_none_iff hne, none_mem_rotated_iff (List.cons_ne_nil _ _)]
  simp

/-- **The result is the best of the values**, and there is none only if all arguments are `NULL`. -/
theorem writtenExtreme_eq_some_iff (m : α) :
    writtenExtreme isMax (a :: b :: rest) = some m ↔
      some m ∈ a :: b :: rest ∧ ∀ x, some x ∈ a :: b :: rest → Within isMax x m := by
  have hbest : ∀ m, writtenExtreme isMax (a :: b :: rest) = some m →
      some m ∈ a :: b :: rest ∧ ∀ x, some x ∈ a :: b :: rest → Within isMax x m := by
    intro m hm
    obtain ⟨hmem, hwithin⟩ := minmaxFunc_eq_some hm
    exact ⟨some_mem_rotated_iff.mp hmem, fun x hx => hwithin x (some_mem_rotated_iff.mpr hx)⟩
  refine ⟨hbest m, fun ⟨hmem, hwithin⟩ => ?_⟩
  cases hresult : writtenExtreme isMax (a :: b :: rest) with
  | none =>
    have hnone := (writtenExtreme_eq_none_iff isMax a b rest).mp hresult
    cases hnone _ hmem
  | some n =>
    obtain ⟨hmem', hwithin'⟩ := hbest n hresult
    have hmn := hwithin' m hmem
    have hnm := hwithin n hmem'
    cases isMax with
    | true => exact congrArg some (le_antisymm (α := α) hnm hmn)
    | false => exact congrArg some (le_antisymm (α := α) hmn hnm)

end Extreme

/-- **`NULL`s are skipped, exactly if no argument of `concat_ws` has a zero.** -/
theorem skipsNulls_iff {α : Type} [LinearOrder α] (separator : Option Separator)
    (arg : Option (List Char)) (args : List (Option (List Char))) (a b : Option α)
    (rest : List (Option α)) :
    SkipsNulls separator (arg :: args) (a :: b :: rest) ↔
      (separator ≠ none → ∀ s, some s ∈ arg :: args → '\x00' ∉ s) := by
  have hne : arg :: args ≠ [] := List.cons_ne_nil _ _
  have hconcat : writtenConcatWs (separator.map Separator.chars) (arg :: args) =
        (separator.map fun separator => separator.chars.intercalate (arg :: args).reduceOption) ↔
      (separator ≠ none → ∀ s, some s ∈ arg :: args → '\x00' ∉ s) := by
    cases separator with
    | none => simp [writtenConcatWs_none]
    | some separator =>
      rw [Option.map_some, Option.map_some, writtenConcatWs_eq_iff separator hne]
      exact ⟨fun h _ => h, fun h => h (Option.some_ne_none _)⟩
  refine ⟨fun h => hconcat.mp h.concatWs, fun h => ⟨hconcat.mpr h, ?_, ?_, ?_, ?_, ?_⟩⟩
  · rw [hconcat.mpr h, Option.map_eq_none_iff]
  · exact writtenExtreme_eq_some_iff true a b rest
  · exact writtenExtreme_eq_none_iff true a b rest
  · exact writtenExtreme_eq_some_iff false a b rest
  · exact writtenExtreme_eq_none_iff false a b rest

/-- `concat_ws(',', 'a\0b')`: the text ends at its zero. -/
theorem zero_in_argument :
    writtenConcatWs (some [',']) [some ['a', '\x00', 'b']] = some ['a'] ∧
      ¬ SkipsNulls (some ⟨[','], by decide⟩) [some ['a', '\x00', 'b']] [some 1, some 2] := by
  refine ⟨by decide, fun h => ?_⟩
  have hconcat := h.concatWs
  revert hconcat
  decide

end SqliteScanner.Scalars.SkipNulls
