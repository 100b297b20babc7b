import Mathlib.Algebra.BigOperators.Group.List.Basic
import Mathlib.Algebra.Ring.Int.Defs
import SqliteScanner.Internal.Windows

/-!
# Window aggregates with inverse steps

SQLite moves the frame of a window aggregate by calling `xStep` for a row that enters and `xInverse` for
one that leaves. The extension has two kinds of such functions. `duckdb_frame_sum` and
`duckdb_frame_avg` keep the values of the frame in a deque and sum them from scratch. `duckdb_avg` keeps
the number of the values and the sum of the integers among them, as a 128-bit number.

Both skip `NULL`s, in the same way for rows that enter and rows that leave. So the deque is always the
frame without its `NULL`s, and nothing is popped from it when it is empty. The number and the sum of
integers are always those of the frame: a frame of at most `2 ^ 63` values has a sum of less than
`2 ^ 127`, so that nothing is lost on the way (`window_aggregates`).

## Main definitions

* `frameStep`, `frameValue`, `avgStep`, `avgValue` — the source's functions
* `FrameInv`, `AvgInv` — what the states have to do with the frame

## Main results

* `frameInv_step`, `frameInv_inverse`, `avgInv_step`, `avgInv_inverse` — one call
* `window_aggregates`
-/

namespace SqliteScanner.Aggregates.Frames

open Windows

/-! ### Values -/

/-- A value of SQLite. What is neither `NULL` nor a number is read as one. -/
inductive SqliteValue (D : Type) where
  | null
  | integer (n : Int64)
  | float (x : D)
  | other (x : D)

/-- The arithmetic of C++ that is used. -/
structure Floats (D : Type) where
  zero : D
  ofInt : ℤ → D
  add : D → D → D
  neg : D → D
  div : D → D → D
  /-- The quotient of a 128-bit and a 64-bit integer as `long double`, rounded to `double`. -/
  quotient : ℤ → ℕ → D

variable {D : Type} (floats : Floats D)

/-- `SQLiteDoubleArgument`. -/
def doubleArgument : SqliteValue D → D
  | .null => floats.zero
  | .integer n => floats.ofInt n.toInt
  | .float x | .other x => x

/-- What a value contributes to a sum of doubles; nothing, if it is `NULL`. -/
def doubleValue : SqliteValue D → Option D
  | .null => none
  | v => some (doubleArgument floats v)

/-! ### Sums over the frame -/

/-- An operation of C++ that is undefined. -/
inductive Fault where
  | popFrontOfEmpty
deriving DecidableEq

/-- `SQLiteFrameState`, which is allocated by the first call that needs it. -/
abbrev FrameState (D : Type) := Option (List D)

/-- The deque, as `SQLiteGetFrameState` gives it. -/
def FrameState.values (state : FrameState D) : List D := state.getD []

/-- `SQLiteFrameStep`. -/
def frameStep (inverse : Bool) (state : FrameState D) (v : SqliteValue D) :
    Except Fault (FrameState D) :=
  match v with
  | .null => .ok state
  | v =>
    if inverse then
      match state.values with
      | [] => .error .popFrontOfEmpty
      | _ :: values => .ok (some values)
    else .ok (some (state.values ++ [doubleArgument floats v]))

/-- `SQLiteFrameValue`: `NULL`, or the sum or average. -/
def frameValue (avg : Bool) (state : FrameState D) : Option D :=
  match state.values with
  | [] => none
  | value :: values =>
    let sum := (value :: values).foldl floats.add floats.zero
    some (if avg then floats.div sum (floats.ofInt (value :: values).length) else sum)

def frameAggregate : Aggregate (SqliteValue D) (FrameState D) Fault where
  step := frameStep floats false
  inverse := frameStep floats true

/-- The deque is the frame without its `NULL`s. -/
def FrameInv (state : FrameState D) (frame : List (SqliteValue D)) : Prop :=
  state.values = frame.filterMap (doubleValue floats)

variable {floats} in
theorem frameInv_step {state : FrameState D} {frame : List (SqliteValue D)} (v : SqliteValue D)
    (hstate : FrameInv floats state frame) :
    ∃ state', frameStep floats false state v = .ok state' ∧
      FrameInv floats state' (frame ++ [v]) := by
  rw [FrameInv] at hstate
  simp only [FrameInv, List.filterMap_append]
  cases v with
  | null => exact ⟨state, rfl, by rw [hstate]; exact (List.append_nil _).symm⟩
  | integer _ | float _ | other _ => exact ⟨_, rfl, by rw [← hstate]; rfl⟩

variable {floats} in
theorem frameInv_inverse {state : FrameState D} {frame : List (SqliteValue D)} (v : SqliteValue D)
    (hstate : FrameInv floats state (v :: frame)) :
    ∃ state', frameStep floats true state v = .ok state' ∧ FrameInv floats state' frame := by
  cases v with
  | null => exact ⟨state, rfl, hstate⟩
  | integer _ | float _ | other _ =>
    have hvalues : state.values = doubleArgument floats _ :: frame.filterMap (doubleValue floats) :=
      hstate
    refine ⟨some (frame.filterMap (doubleValue floats)), ?_, rfl⟩
    simp only [frameStep, hvalues, if_true]

/-! ### Averages -/

/-- `SQLiteAvgState`; SQLite allocates it with zeros. -/
structure AvgState (D : Type) where
  count : UInt64
  integerSum : BitVec 128
  doubleSum : D
  hasDouble : Bool

/-- `SQLiteAvgStep`. -/
def avgStep (inverse : Bool) (state : AvgState D) (v : SqliteValue D) : AvgState D :=
  let count := if inverse then state.count - 1 else state.count + 1
  match v with
  | .null => state
  | .integer n =>
    let value := BitVec.ofInt 128 n.toInt
    { state with
      count := count
      integerSum := if inverse then state.integerSum - value else state.integerSum + value }
  | v =>
    let value := doubleArgument floats v
    { state with
      count := count
      doubleSum := floats.add state.doubleSum (if inverse then floats.neg value else value)
      hasDouble := true }

/-- `SQLiteAvgValue`. -/
def avgValue (state : AvgState D) : Option D :=
  if state.count = 0 then none
  else if !state.hasDouble then
    some (floats.quotient state.integerSum.toInt state.count.toNat)
  else
    let sum := floats.add state.doubleSum (floats.ofInt state.integerSum.toInt)
    some (floats.div sum (floats.ofInt state.count.toNat))

def avgAggregate : Aggregate (SqliteValue D) (AvgState D) Fault where
  step := fun state v => .ok (avgStep floats false state v)
  inverse := fun state v => .ok (avgStep floats true state v)

def AvgState.initial : AvgState D := ⟨0, 0, floats.zero, false⟩

/-- The integer of a value that is `NULL` or an integer. -/
def integerValue : SqliteValue D → Option ℤ
  | .integer n => some n.toInt
  | _ => none

/-- The integers of a frame. -/
def integers (frame : List (SqliteValue D)) : List ℤ := frame.filterMap integerValue

/-- A frame of integers and `NULL`s, with at most `2 ^ 63` integers. -/
structure IntegerFrame (frame : List (SqliteValue D)) : Prop where
  null_or_integer : ∀ v ∈ frame, v = .null ∨ ∃ n, v = .integer n
  length_le : (integers frame).length ≤ 9223372036854775808

/-- The number and the sum of the integers in the frame. -/
structure AvgInv (state : AvgState D) (frame : List (SqliteValue D)) : Prop where
  integerFrame : IntegerFrame frame
  count : state.count.toNat = (integers frame).length
  integerSum : state.integerSum.toInt = (integers frame).sum
  hasDouble : state.hasDouble = false

/-! ### The sum of a frame -/

theorem integers_concat (frame : List (SqliteValue D)) (v : SqliteValue D) :
    integers (frame ++ [v]) = integers frame ++ (integerValue v).toList := by
  rw [integers, List.filterMap_append, integers]
  cases v <;> rfl

theorem integers_cons (v : SqliteValue D) (frame : List (SqliteValue D)) :
    integers (v :: frame) = (integerValue v).toList ++ integers frame := by
  rw [integers, integers]
  cases v <;> rfl

theorem integers_bounds (frame : List (SqliteValue D)) :
    ∀ n ∈ integers frame, -9223372036854775808 ≤ n ∧ n < 9223372036854775808 := by
  intro n hn
  obtain ⟨v, -, hv⟩ := List.mem_filterMap.mp hn
  cases v with
  | integer m =>
    obtain rfl := Option.some.inj hv
    exact ⟨m.le_toInt, m.toInt_lt⟩
  | null | float _ | other _ => exact absurd hv (by simp [integerValue])

theorem sum_bounds {l : List ℤ} (hl : ∀ n ∈ l, -9223372036854775808 ≤ n ∧ n < 9223372036854775808) :
    -(9223372036854775808 * l.length) ≤ l.sum ∧ l.sum ≤ 9223372036854775808 * l.length := by
  induction l with
  | nil => simp
  | cons n l ih =>
    rw [List.forall_mem_cons] at hl
    have hsum := ih hl.2
    rw [List.sum_cons, List.length_cons]
    push_cast
    omega

/-- The sum of a frame of at most `2 ^ 63` integers is a 128-bit number. -/
theorem bmod_sum {frame : List (SqliteValue D)}
    (hlength : (integers frame).length ≤ 9223372036854775808) :
    (integers frame).sum.bmod 340282366920938463463374607431768211456 = (integers frame).sum := by
  have hsum := sum_bounds (integers_bounds frame)
  apply Int.bmod_eq_of_le <;> omega

theorem IntegerFrame.of_cons {v : SqliteValue D} {frame : List (SqliteValue D)}
    (h : IntegerFrame (v :: frame)) : IntegerFrame frame := by
  refine ⟨fun u hu => h.null_or_integer u (List.mem_cons_of_mem v hu), ?_⟩
  have hlength := h.length_le
  rw [integers_cons, List.length_append] at hlength
  omega

variable {floats} in
theorem avgInv_step {state : AvgState D} {frame : List (SqliteValue D)} {v : SqliteValue D}
    (hstate : AvgInv state frame) (hframe : IntegerFrame (frame ++ [v])) :
    AvgInv (avgStep floats false state v) (frame ++ [v]) := by
  rcases hframe.null_or_integer v (List.mem_append_right frame (List.mem_singleton_self v)) with
    rfl | ⟨n, rfl⟩
  · have hsame : integers (frame ++ [(.null : SqliteValue D)]) = integers frame := by
      rw [integers_concat]
      exact List.append_nil _
    exact ⟨hframe, by rw [hsame]; exact hstate.count, by rw [hsame]; exact hstate.integerSum,
      hstate.hasDouble⟩
  · have hconcat : integers (frame ++ [(.integer n : SqliteValue D)]) =
        integers frame ++ [n.toInt] := integers_concat _ _
    have hlength := hframe.length_le
    have hbmod := bmod_sum hlength
    rw [hconcat, List.length_append, List.length_singleton] at hlength
    rw [hconcat, List.sum_append, List.sum_singleton] at hbmod
    refine ⟨hframe, ?_, ?_, hstate.hasDouble⟩
    · rw [hconcat, List.length_append, List.length_singleton, ← hstate.count]
      rw [← hstate.count] at hlength
      simp only [avgStep, Bool.false_eq_true, if_false, UInt64.toNat_add, UInt64.toNat_one]
      omega
    · rw [hconcat, List.sum_append, List.sum_singleton]
      simp only [avgStep, Bool.false_eq_true, if_false]
      rw [BitVec.toInt_add, BitVec.toInt_ofInt, Int.add_bmod_bmod, hstate.integerSum]
      exact hbmod

variable {floats} in
theorem avgInv_inverse {state : AvgState D} {frame : List (SqliteValue D)} {v : SqliteValue D}
    (hstate : AvgInv state (v :: frame)) : AvgInv (avgStep floats true state v) frame := by
  have hframe := hstate.integerFrame
  have hcount := hstate.count
  have hsum := hstate.integerSum
  rcases hframe.null_or_integer v List.mem_cons_self with rfl | ⟨n, rfl⟩
  · exact ⟨hframe.of_cons, hcount, hsum, hstate.hasDouble⟩
  · have hcons : integers (.integer n :: frame) = n.toInt :: integers frame := integers_cons _ _
    rw [hcons, List.length_cons] at hcount
    rw [hcons, List.sum_cons] at hsum
    have hlength := state.count.toNat_lt
    refine ⟨hframe.of_cons, ?_, ?_, hstate.hasDouble⟩
    · simp only [avgStep, if_true, UInt64.toNat_sub, UInt64.toNat_one]
      omega
    · simp only [avgStep, if_true]
      rw [BitVec.toInt_sub, BitVec.toInt_ofInt, Int.sub_bmod_bmod, hsum, add_sub_cancel_left]
      exact bmod_sum hframe.of_cons.length_le

/-! ### Runs -/

/-- **Window aggregates follow their frame.** After every run in which the rows leave the frame in the
order in which they entered it, nothing has been popped from an empty deque, and the deque is the frame
without its `NULL`s. If the frame never has more than `2 ^ 63` values, which are integers, then
`duckdb_avg` has their number and their exact sum, which is a 128-bit number. So the results are those
of the frame, and `NULL` if there is no value in it. -/
theorem window_aggregates (calls : List (Call (SqliteValue D))) :
    (Protocol (fun _ => True) [] calls →
      ∃ state, (frameAggregate floats).run none calls = .ok state ∧
        state.values = (frameAfter [] calls).filterMap (doubleValue floats) ∧
        ∀ avg, (state.values = [] → frameValue floats avg state = none) ∧
          frameValue floats avg state =
            frameValue floats avg (some ((frameAfter [] calls).filterMap (doubleValue floats)))) ∧
      (Protocol IntegerFrame [] calls →
        ∃ state, (avgAggregate floats).run (.initial floats) calls = .ok state ∧
          state.count.toNat = (integers (frameAfter [] calls)).length ∧
          state.integerSum.toInt = (integers (frameAfter [] calls)).sum ∧
          -170141183460469231731687303715884105728 ≤ (integers (frameAfter [] calls)).sum ∧
          (integers (frameAfter [] calls)).sum < 170141183460469231731687303715884105728 ∧
          avgValue floats state =
            if (integers (frameAfter [] calls)).length = 0 then none
            else some (floats.quotient (integers (frameAfter [] calls)).sum
              (integers (frameAfter [] calls)).length)) := by
  constructor
  · intro hcalls
    obtain ⟨state, hrun, hstate⟩ := (frameAggregate floats).run_ok
      (fun _ _ v hs _ => frameInv_step v hs) (fun _ _ v hs => frameInv_inverse v hs)
      (show FrameInv floats none [] from rfl) hcalls
    refine ⟨state, hrun, hstate, fun avg => ⟨fun hempty => ?_, ?_⟩⟩
    · rw [frameValue, hempty]
    · rw [frameValue, hstate]
      rfl
  · intro hcalls
    have hinitial : AvgInv (.initial floats) [] :=
      ⟨⟨by simp, Nat.zero_le _⟩, rfl, rfl, rfl⟩
    obtain ⟨state, hrun, hstate⟩ := (avgAggregate floats).run_ok
      (fun _ _ _ hs hframe => ⟨_, rfl, avgInv_step hs hframe⟩)
      (fun _ _ _ hs => ⟨_, rfl, avgInv_inverse hs⟩) hinitial hcalls
    have hbounds := sum_bounds (integers_bounds (frameAfter [] calls))
    have hlength := hstate.integerFrame.length_le
    refine ⟨state, hrun, hstate.count, hstate.integerSum, by omega, by omega, ?_⟩
    rw [avgValue, hstate.hasDouble, hstate.integerSum, hstate.count, ← hstate.count]
    simp only [← UInt64.toNat_inj, UInt64.toNat_zero, Bool.not_false, if_true]

/-- Integers as doubles. -/
def wholeNumbers : Floats ℤ := ⟨0, id, (· + ·), Neg.neg, (· / ·), fun sum count => sum / count⟩

/-- A frame of two rows that moves over `1`, `NULL` and `4`. -/
theorem window_aggregates_moving :
    let calls : List (Call (SqliteValue ℤ)) :=
      [.step (.integer 1), .step .null, .inverse (.integer 1), .step (.integer 4)]
    ∃ state, (avgAggregate wholeNumbers).run (.initial wholeNumbers) calls = .ok state ∧
      state.count.toNat = 1 ∧ state.integerSum.toInt = 4 ∧ avgValue wholeNumbers state = some 4 := by
  intro calls
  have hframe : ∀ frame ∈ [[.integer 1], [.integer 1, .null], [.null, .integer 4]],
      IntegerFrame (frame : List (SqliteValue ℤ)) := by
    intro frame hmem
    simp only [List.mem_cons, List.not_mem_nil, or_false] at hmem
    rcases hmem with rfl | rfl | rfl <;> exact ⟨by simp, by decide⟩
  have hcalls : Protocol IntegerFrame [] calls :=
    ⟨hframe _ (by simp), hframe _ (by simp), rfl, hframe _ (by simp), trivial⟩
  obtain ⟨state, hrun, hcount, hsum, -, -, hvalue⟩ := (window_aggregates wholeNumbers calls).2 hcalls
  exact ⟨state, hrun, hcount, hsum, hvalue.trans (by decide)⟩

end SqliteScanner.Aggregates.Frames
