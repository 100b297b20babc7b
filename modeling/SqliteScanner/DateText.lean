import SqliteScanner.Internal.Calendar
import SqliteScanner.Internal.Numerals

/-!
# Dates and timestamps as text

SQLite has no dates. A pushed down `DATE` or `TIMESTAMP` is the text that DuckDB prints for it, and SQLite
then compares, sorts and groups the texts. That is right for the values that `TryGetCanonicalText` lets
through: with four year digits all fields but the fraction of a second have a fixed width, so the texts
are ordered field by field, as the values are.

A date is a number of days since 1970-01-01 and a timestamp a number of microseconds; the largest number
and its negation stand for the infinities. How DuckDB prints a value is `toText`, how it reads one is a
`Parser`, and the calendar is the proleptic Gregorian one.

## Main results

* `strictMonoOn_dateText`, `strictMonoOn_timestampText` — the texts are ordered as the values.
* `canonicalText_faithful` — the texts behave like the values: which have one, order and equality,
  reading back, and the casts between the two types.
-/

namespace SqliteScanner.DateText

open Calendar Numerals

/-- A string of the source. All characters are ASCII, so their order is that of the bytes. -/
abbrev Text := List Char

/-! ### Values -/

/-- `date_t`: an `int32_t` of days. -/
@[ext] structure Date where
  days : ℤ
  lower : -2147483648 ≤ days
  upper : days ≤ 2147483647

/-- `timestamp_t`: an `int64_t` of microseconds. -/
@[ext] structure Timestamp where
  micros : ℤ
  lower : -9223372036854775808 ≤ micros
  upper : micros ≤ 9223372036854775807

/-- `Value::IsFinite`. -/
def Date.isFinite (d : Date) : Bool := d.days ≠ 2147483647 ∧ d.days ≠ -2147483647

/-- `Value::IsFinite`. -/
def Timestamp.isFinite (t : Timestamp) : Bool :=
  t.micros ≠ 9223372036854775807 ∧ t.micros ≠ -9223372036854775807

def Date.ofDays (n : ℤ) : Option Date :=
  if h : -2147483648 ≤ n ∧ n ≤ 2147483647 then some ⟨n, h.1, h.2⟩ else none

def Timestamp.ofMicros (n : ℤ) : Option Timestamp :=
  if h : -9223372036854775808 ≤ n ∧ n ≤ 9223372036854775807 then some ⟨n, h.1, h.2⟩ else none

/-- `Timestamp::GetDate`, the cast of a `TIMESTAMP` to a `DATE`. A day has `86400000000` microseconds,
and the quotient is rounded down. -/
def Timestamp.getDate (t : Timestamp) : Date :=
  if t.micros = 9223372036854775807 then ⟨2147483647, by decide, by decide⟩
  else if t.micros = -9223372036854775807 then ⟨-2147483647, by decide, by decide⟩
  else ⟨t.micros / 86400000000, by have := t.lower; omega, by have := t.upper; omega⟩

/-- The cast of a `DATE` to a `TIMESTAMP`; it fails if the number is too large. -/
def Date.toTimestamp (d : Date) : Option Timestamp :=
  if d.days = 2147483647 then Timestamp.ofMicros 9223372036854775807
  else if d.days = -2147483647 then Timestamp.ofMicros (-9223372036854775807)
  else Timestamp.ofMicros (d.days * 86400000000)

inductive Value where
  | date (d : Date)
  | timestamp (t : Timestamp)

/-! ### Printing -/

/-- At least four digits. -/
def yearText (y : ℕ) : Text := fixed (max 4 (Nat.log 10 y + 1)) y

/-- `YYYY-MM-DD`. The years before year `1` are counted backwards. -/
def civilText (c : Civil) : Text :=
  let monthDay := '-' :: (fixed 2 c.month ++ '-' :: fixed 2 c.day)
  if c.year ≤ 0 then yearText (1 - c.year).toNat ++ monthDay ++ " (BC)".toList
  else yearText c.year.toNat ++ monthDay

def Date.toText (d : Date) : Text :=
  if d.days = 2147483647 then "infinity".toList
  else if d.days = -2147483647 then "-infinity".toList
  else civilText (civil d.days)

/-- A dot and six digits without the zeros at the end, if there is a fraction. -/
def fractionText (micros : ℕ) : Text := if micros = 0 then [] else '.' :: trimZeros (fixed 6 micros)

/-- `HH:MM:SS` and the fraction, of the microseconds of a day. -/
def timeText (n : ℕ) : Text :=
  fixed 2 (n / 3600000000) ++ ':' :: (fixed 2 (n / 60000000 % 60) ++
    ':' :: (fixed 2 (n / 1000000 % 60) ++ fractionText (n % 1000000)))

/-- The microseconds of the day. -/
def Timestamp.timeOfDay (t : Timestamp) : ℕ := (t.micros % 86400000000).toNat

def Timestamp.toText (t : Timestamp) : Text :=
  if t.micros = 9223372036854775807 then "infinity".toList
  else if t.micros = -9223372036854775807 then "-infinity".toList
  else t.getDate.toText ++ ' ' :: timeText t.timeOfDay

/-- `Value::ToString`. -/
def Value.toText : Value → Text
  | .date d => d.toText
  | .timestamp t => t.toText

/-- The date whose year is looked at. -/
def Value.getDate : Value → Date
  | .date d => d
  | .timestamp t => t.getDate

def Value.isFinite : Value → Bool
  | .date d => d.isFinite
  | .timestamp t => t.isFinite

/-- `Date::ExtractYear`. -/
def Value.year (v : Value) : ℤ := yearOf v.getDate.days

/-- `SQLiteFunctions::TryGetCanonicalText`. -/
def tryGetCanonicalText (v : Value) : Option Text :=
  if !v.isFinite then none
  else if !v.getDate.isFinite then none
  else if v.year < 1 ∨ v.year > 9999 then none
  else some v.toText

/-! ### Reading -/

/-- The digits of a field of a given width. -/
def readField (width : ℕ) (s : Text) : Option (ℕ × Text) :=
  let field := s.take width
  if field.length = width ∧ field.all Char.isDigit then some (value field, s.drop width) else none

/-- One given character. -/
def expect (c : Char) (s : Text) : Option Text :=
  match s with
  | d :: s => if d = c then some s else none
  | [] => none

/-- Read `YYYY-MM-DD`. -/
def readDate (s : Text) : Option (Date × Text) := do
  let (year, s) ← readField 4 s
  let (month, s) ← readField 2 (← expect '-' s)
  let (day, s) ← readField 2 (← expect '-' s)
  let c : Civil := ⟨year, month, day⟩
  if c.Valid then
    let d ← Date.ofDays c.days
    return (d, s)
  else
    none

/-- A whole text `YYYY-MM-DD`. -/
def readDay (s : Text) : Option Date := do
  let (d, rest) ← readDate s
  if rest = [] then return d else none

/-- The fraction of a second, in microseconds. -/
def readFraction (s : Text) : Option ℕ :=
  match s with
  | [] => some 0
  | '.' :: digits =>
    if digits ≠ [] ∧ digits.length ≤ 6 ∧ digits.all Char.isDigit then
      some (value (digits ++ List.replicate (6 - digits.length) '0'))
    else none
  | _ => none

/-- A whole text `YYYY-MM-DD HH:MM:SS`, with or without a fraction. -/
def readTimestamp (s : Text) : Option Timestamp := do
  let (d, s) ← readDate s
  let (hour, s) ← readField 2 (← expect ' ' s)
  let (minute, s) ← readField 2 (← expect ':' s)
  let (second, s) ← readField 2 (← expect ':' s)
  let micros ← readFraction s
  if hour < 24 ∧ minute < 60 ∧ second < 60 then
    Timestamp.ofMicros (d.days * 86400000000 +
      (hour * 3600000000 + minute * 60000000 + second * 1000000 + micros : ℕ))
  else
    none

/-- The parser of DuckDB. It reads the fields of `YYYY-MM-DD` and `HH:MM:SS`, among other formats. -/
class Parser where
  /-- `Date::FromCString`. -/
  dateFromCString : Text → Option Date
  /-- `Timestamp::FromCString`. -/
  timestampFromCString : Text → Option Timestamp
  date_fields : ∀ s d, readDay s = some d → dateFromCString s = some d
  timestamp_fields : ∀ s t, readTimestamp s = some t → timestampFromCString s = some t

/-- The parser that knows no other format. -/
abbrev Parser.fields : Parser := ⟨readDay, readTimestamp, fun _ _ h => h, fun _ _ h => h⟩

/-! ### The written casts -/

/-- `WriteCast` from `DATE` to `TIMESTAMP`: `(text || ' 00:00:00')`. -/
def castDateText (s : Text) : Text := s ++ " 00:00:00".toList

/-- `WriteCast` from `TIMESTAMP` to `DATE`: `substr(text, 1, 10)`. -/
def castTimestampText (s : Text) : Text := s.take 10

/-! ### Texts with four year digits -/

/-- The text of a date with four year digits. -/
def shortText (c : Civil) : Text :=
  fixed 4 c.year.toNat ++ '-' :: (fixed 2 c.month ++ '-' :: fixed 2 c.day)

theorem civilText_eq {c : Civil} (h : 1 ≤ c.year) (h' : c.year ≤ 9999) :
    civilText c = shortText c := by
  have hlog : Nat.log 10 c.year.toNat < 4 := Nat.log_lt_of_lt_pow (by omega) (by omega)
  have hwidth : max 4 (Nat.log 10 c.year.toNat + 1) = 4 := by omega
  have hpos : ¬ c.year ≤ 0 := by omega
  simp [civilText, hpos, yearText, hwidth, shortText]

@[simp] theorem length_shortText (c : Civil) : (shortText c).length = 10 := by
  simp [shortText]

/-- The days of the years from `1` to `9999`. -/
def fourDigitDays : Set ℤ := {n | 1 ≤ yearOf n ∧ yearOf n ≤ 9999}

theorem append_cons_lt {p s t : Text} {c : Char} (h : s < t) : p ++ c :: s < p ++ c :: t :=
  append_lt_append_left _ (List.cons_lt_cons_iff.mpr (.inr ⟨rfl, h⟩))

/-- **Dates.** The texts are ordered as the days. -/
theorem strictMonoOn_dateText : StrictMonoOn (fun n => shortText (civil n)) fourDigitDays := by
  intro n hn k hk h
  have hyear : (civil k).year ≤ 9999 := hk.2
  have hpos : 1 ≤ (civil n).year := hn.1
  have hmonth := (civil_valid k).2.1
  have hday := day_civil_le k
  rcases civil_lt h with hlt | ⟨heq, hlt | ⟨heq', hlt⟩⟩
  · exact append_lt_append_of_lt (by simp) (fixed_lt_fixed (by omega) (by omega)) _ _
  · simp only [shortText, heq]
    refine append_cons_lt ?_
    exact append_lt_append_of_lt (by simp) (fixed_lt_fixed hlt (by omega)) _ _
  · simp only [shortText, heq, heq']
    refine append_cons_lt ?_
    refine append_cons_lt ?_
    exact fixed_lt_fixed hlt (by omega)

theorem fractionText_lt {a b : ℕ} (h : a < b) (hb : b < 1000000) :
    fractionText a < fractionText b := by
  have hb0 : b ≠ 0 := by omega
  simp only [fractionText, hb0, if_false]
  split
  · exact List.nil_lt_cons _ _
  · refine List.cons_lt_cons_iff.mpr (.inr ⟨rfl, ?_⟩)
    refine trimZeros_lt_trimZeros (by simp) (fun c hc => ?_) (fixed_lt_fixed h hb)
    have hdigit := isDigit_of_mem_fixed hc
    simp only [Char.isDigit, Bool.and_eq_true, decide_eq_true_eq] at hdigit
    exact hdigit.1

theorem timeText_lt {a b : ℕ} (h : a < b) (hb : b < 86400000000) : timeText a < timeText b := by
  rcases Nat.lt_or_ge (a / 3600000000) (b / 3600000000) with hlt | hge
  · exact append_lt_append_of_lt (by simp) (fixed_lt_fixed hlt (by omega)) _ _
  have hhour : a / 3600000000 = b / 3600000000 := by omega
  simp only [timeText, hhour]
  refine append_cons_lt ?_
  rcases Nat.lt_or_ge (a / 60000000 % 60) (b / 60000000 % 60) with hlt | hge'
  · exact append_lt_append_of_lt (by simp) (fixed_lt_fixed hlt (by omega)) _ _
  have hminute : a / 60000000 = b / 60000000 := by omega
  rw [hminute]
  refine append_cons_lt ?_
  rcases Nat.lt_or_ge (a / 1000000 % 60) (b / 1000000 % 60) with hlt | hge''
  · exact append_lt_append_of_lt (by simp) (fixed_lt_fixed hlt (by omega)) _ _
  have hsecond : a / 1000000 = b / 1000000 := by omega
  rw [hsecond]
  exact append_lt_append_left _ (fractionText_lt (by omega) (Nat.mod_lt _ (by decide)))

/-- The text of a timestamp with four year digits. -/
def timestampText (n : ℤ) : Text :=
  shortText (civil (n / 86400000000)) ++ ' ' :: timeText (n % 86400000000).toNat

/-- **Timestamps.** The texts are ordered as the microseconds. -/
theorem strictMonoOn_timestampText :
    StrictMonoOn timestampText {n | n / 86400000000 ∈ fourDigitDays} := by
  intro n hn k hk h
  rcases lt_or_ge (n / 86400000000) (k / 86400000000) with hlt | hge
  · exact append_lt_append_of_lt (by simp) (strictMonoOn_dateText hn hk hlt) _ _
  · have hday : n / 86400000000 = k / 86400000000 := by omega
    simp only [timestampText, hday]
    refine append_cons_lt ?_
    exact timeText_lt (by omega) (by omega)

/-! ### Which values have a text -/

theorem bounds_of_mem_fourDigitDays {n : ℤ} (h : n ∈ fourDigitDays) : -719162 ≤ n ∧ n ≤ 2932896 := by
  have hyear := yearStart_yearOf n
  have hlow := yearStart_mono h.1
  have hhigh := yearStart_mono (show yearOf n + 1 ≤ 10000 by have := h.2; omega)
  have hone : yearStart 1 = -719162 := by decide
  have hlast : yearStart 10000 = 2932897 := by decide
  omega

theorem Date.toText_eq {d : Date} (h : d.days ∈ fourDigitDays) : d.toText = shortText (civil d.days) := by
  have hbounds := bounds_of_mem_fourDigitDays h
  rw [Date.toText, if_neg (by omega), if_neg (by omega)]
  exact civilText_eq h.1 h.2

theorem Timestamp.days_getDate {t : Timestamp} (h : t.isFinite = true) :
    t.getDate.days = t.micros / 86400000000 := by
  simp only [Timestamp.isFinite, ne_eq, decide_eq_true_eq] at h
  rw [Timestamp.getDate, if_neg h.1, if_neg h.2]

theorem Timestamp.toText_eq {t : Timestamp} (hfinite : t.isFinite = true)
    (h : t.getDate.days ∈ fourDigitDays) : t.toText = timestampText t.micros := by
  have hdays := Timestamp.days_getDate hfinite
  have hfinite' := hfinite
  simp only [Timestamp.isFinite, ne_eq, decide_eq_true_eq] at hfinite'
  rw [Timestamp.toText, if_neg hfinite'.1, if_neg hfinite'.2, Date.toText_eq h, hdays]
  rfl

theorem Date.isFinite_of_mem {d : Date} (h : d.days ∈ fourDigitDays) : d.isFinite = true := by
  have hbounds := bounds_of_mem_fourDigitDays h
  simp only [Date.isFinite, ne_eq, decide_eq_true_eq]
  omega

/-- The values with a text, and the text. -/
theorem tryGetCanonicalText_eq_some {v : Value} {s : Text} :
    tryGetCanonicalText v = some s ↔
      v.isFinite = true ∧ v.getDate.days ∈ fourDigitDays ∧ s = v.toText := by
  unfold tryGetCanonicalText
  cases hfinite : v.isFinite with
  | false => simp
  | true =>
    by_cases hyear : v.getDate.days ∈ fourDigitDays
    · have hnot : ¬ (v.year < 1 ∨ v.year > 9999) := by
        obtain ⟨hlow, hhigh⟩ := hyear
        simp only [Value.year]
        omega
      simp [Date.isFinite_of_mem hyear, hnot, hyear, eq_comm]
    · have hout : v.year < 1 ∨ v.year > 9999 := by
        simp only [fourDigitDays, Set.mem_ofPred_eq] at hyear
        simp only [Value.year]
        omega
      simp [hout, hyear]

theorem date_text {d : Date} {s : Text} (h : tryGetCanonicalText (.date d) = some s) :
    d.days ∈ fourDigitDays ∧ s = shortText (civil d.days) := by
  obtain ⟨-, hyear, rfl⟩ := tryGetCanonicalText_eq_some.mp h
  exact ⟨hyear, Date.toText_eq hyear⟩

theorem timestamp_text {t : Timestamp} {s : Text}
    (h : tryGetCanonicalText (.timestamp t) = some s) :
    t.isFinite = true ∧ t.getDate.days = t.micros / 86400000000 ∧
      t.micros / 86400000000 ∈ fourDigitDays ∧ s = timestampText t.micros := by
  obtain ⟨hfinite, hyear, rfl⟩ := tryGetCanonicalText_eq_some.mp h
  have hdays := Timestamp.days_getDate hfinite
  exact ⟨hfinite, hdays, hdays ▸ hyear, Timestamp.toText_eq hfinite hyear⟩

/-! ### Reading a text back -/

theorem readField_fixed {w n : ℕ} (h : n < 10 ^ w) (rest : Text) :
    readField w (fixed w n ++ rest) = some (n, rest) := by
  have htake : (fixed w n ++ rest).take w = fixed w n := List.take_left' (length_fixed w n)
  have hdrop : (fixed w n ++ rest).drop w = rest := List.drop_left' (length_fixed w n)
  have hdigits : (fixed w n).all Char.isDigit = true :=
    List.all_eq_true.mpr fun c hc => isDigit_of_mem_fixed hc
  simp [readField, htake, hdrop, hdigits, value_fixed h]

@[simp] theorem expect_cons (c : Char) (s : Text) : expect c (c :: s) = some s := by
  simp [expect]

theorem readDate_shortText {d : Date} (h : d.days ∈ fourDigitDays) (rest : Text) :
    readDate (shortText (civil d.days) ++ rest) = some (d, rest) := by
  have hvalid := civil_valid d.days
  have hyear : ((civil d.days).year.toNat : ℤ) = (civil d.days).year :=
    Int.toNat_of_nonneg (by have : 1 ≤ (civil d.days).year := h.1; omega)
  have hday := day_civil_le d.days
  have hmonth := hvalid.2.1
  have hyear' : (civil d.days).year ≤ 9999 := h.2
  have hdays : Date.ofDays (civil d.days).days = some d := by
    rw [days_civil, Date.ofDays, dif_pos ⟨d.lower, d.upper⟩]
  simp only [readDate, shortText, List.append_assoc, List.cons_append]
  simp [readField_fixed (show (civil d.days).year.toNat < 10 ^ 4 by omega),
    readField_fixed (show (civil d.days).month < 10 ^ 2 by omega),
    readField_fixed (show (civil d.days).day < 10 ^ 2 by omega), hyear, hvalid, hdays]

theorem readFraction_fractionText {n : ℕ} (h : n < 1000000) :
    readFraction (fractionText n) = some n := by
  by_cases hn : n = 0
  · simp [fractionText, hn, readFraction]
  obtain ⟨hzeros, hlen⟩ := trimZeros_append (fixed 6 n)
  rw [length_fixed] at hzeros hlen
  have hvalue : value (fixed 6 n) = n := value_fixed h
  have hne : trimZeros (fixed 6 n) ≠ [] := by
    intro hnil
    rw [hnil, List.nil_append, List.length_nil] at hzeros
    rw [← hzeros] at hvalue
    exact hn (hvalue.symm.trans (by decide))
  have hdigits : (trimZeros (fixed 6 n)).all Char.isDigit = true := by
    refine List.all_eq_true.mpr fun c hc => isDigit_of_mem_fixed (w := 6) (n := n) ?_
    rw [← hzeros]
    exact List.mem_append_left _ hc
  simp [fractionText, hn, readFraction, hne, hlen, hdigits, hzeros, hvalue]

theorem readDay_shortText {d : Date} (h : d.days ∈ fourDigitDays) :
    readDay (shortText (civil d.days)) = some d := by
  have hread := readDate_shortText h []
  rw [List.append_nil] at hread
  simp [readDay, hread]

theorem readTimestamp_timestampText {t : Timestamp} (hfinite : t.isFinite = true)
    (h : t.micros / 86400000000 ∈ fourDigitDays) :
    readTimestamp (timestampText t.micros) = some t := by
  have hdays := Timestamp.days_getDate hfinite
  have hdate := readDate_shortText (d := t.getDate) (hdays ▸ h)
  rw [hdays] at hdate
  generalize hn : (t.micros % 86400000000).toNat = n
  have hlt : n < 86400000000 := by omega
  -- the fields of the time add up again
  have hsum : t.getDate.days * 86400000000 + ((n / 3600000000 * 3600000000 +
      n / 60000000 % 60 * 60000000 + n / 1000000 % 60 * 1000000 + n % 1000000 : ℕ) : ℤ) =
        t.micros := by
    rw [hdays]
    omega
  have hmicros : Timestamp.ofMicros t.micros = some t := by
    rw [Timestamp.ofMicros, dif_pos ⟨t.lower, t.upper⟩]
  have hranges : n / 3600000000 < 24 ∧ n / 60000000 % 60 < 60 ∧ n / 1000000 % 60 < 60 := by omega
  have hhour := readField_fixed (w := 2) (n := n / 3600000000) (by omega)
  have hminute := readField_fixed (w := 2) (n := n / 60000000 % 60) (by omega)
  have hsecond := readField_fixed (w := 2) (n := n / 1000000 % 60) (by omega)
  have hfraction := readFraction_fractionText (Nat.mod_lt n (by decide : 1000000 > 0))
  simp only [readTimestamp, timestampText, timeText, hn, hdate, expect_cons, hhour, hminute,
    hsecond, hfraction, Option.bind_eq_bind, Option.bind_some, if_pos hranges, hsum, hmicros]

/-! ### The texts behave like the values -/

/-- What the pushdown of dates and timestamps rests on. -/
structure Faithful [Parser] : Prop where
  /-- The values with a text. -/
  succeeds : ∀ v, (tryGetCanonicalText v).isSome = true ↔
    v.isFinite = true ∧ 1 ≤ v.year ∧ v.year ≤ 9999
  /-- Order and equality. -/
  dates : ∀ a b s t, tryGetCanonicalText (.date a) = some s → tryGetCanonicalText (.date b) = some t →
    (s < t ↔ a.days < b.days) ∧ (s = t ↔ a = b)
  timestamps : ∀ a b s t, tryGetCanonicalText (.timestamp a) = some s →
    tryGetCanonicalText (.timestamp b) = some t → (s < t ↔ a.micros < b.micros) ∧ (s = t ↔ a = b)
  /-- Reading back. -/
  readsDate : ∀ d s, tryGetCanonicalText (.date d) = some s → Parser.dateFromCString s = some d
  readsTimestamp : ∀ t s, tryGetCanonicalText (.timestamp t) = some s →
    Parser.timestampFromCString s = some t
  /-- The written casts. -/
  castsDate : ∀ d s, tryGetCanonicalText (.date d) = some s →
    ∃ t, d.toTimestamp = some t ∧ tryGetCanonicalText (.timestamp t) = some (castDateText s)
  castsTimestamp : ∀ t s, tryGetCanonicalText (.timestamp t) = some s →
    tryGetCanonicalText (.date t.getDate) = some (castTimestampText s)

theorem isSome_tryGetCanonicalText (v : Value) :
    (tryGetCanonicalText v).isSome = true ↔ v.isFinite = true ∧ 1 ≤ v.year ∧ v.year ≤ 9999 := by
  rw [Option.isSome_iff_exists]
  simp only [tryGetCanonicalText_eq_some]
  exact ⟨fun ⟨_, hfinite, hyear, _⟩ => ⟨hfinite, hyear⟩, fun ⟨hfinite, hyear⟩ => ⟨_, hfinite, hyear, rfl⟩⟩

/-- The midnight of a date with a text. -/
theorem toTimestamp_text {d : Date} (h : d.days ∈ fourDigitDays) :
    ∃ t, d.toTimestamp = some t ∧ t.micros = d.days * 86400000000 ∧
      tryGetCanonicalText (.timestamp t) = some (castDateText (shortText (civil d.days))) := by
  have hbounds := bounds_of_mem_fourDigitDays h
  refine ⟨⟨d.days * 86400000000, by omega, by omega⟩, ?_, rfl, ?_⟩
  · rw [Date.toTimestamp, if_neg (by omega), if_neg (by omega), Timestamp.ofMicros, dif_pos (by omega)]
  · have hfinite : Timestamp.isFinite ⟨d.days * 86400000000, by omega, by omega⟩ = true := by
      simp only [Timestamp.isFinite, ne_eq, decide_eq_true_eq]
      omega
    have hdays : d.days * 86400000000 / 86400000000 = d.days :=
      Int.mul_ediv_cancel _ (by decide)
    have hday : (Timestamp.getDate ⟨d.days * 86400000000, by omega, by omega⟩).days = d.days :=
      (Timestamp.days_getDate hfinite).trans hdays
    refine tryGetCanonicalText_eq_some.mpr ⟨hfinite, ?_, ?_⟩
    · exact hday.symm ▸ h
    · rw [Value.toText, Timestamp.toText_eq hfinite (hday.symm ▸ h)]
      simp only [timestampText, hdays, Int.mul_emod_left]
      rfl

/-- **Dates and timestamps as text.** -/
theorem canonicalText_faithful [Parser] : Faithful where
  succeeds := isSome_tryGetCanonicalText
  dates := by
    intro a b s t hs ht
    obtain ⟨ha, rfl⟩ := date_text hs
    obtain ⟨hb, rfl⟩ := date_text ht
    refine ⟨strictMonoOn_dateText.lt_iff_lt ha hb, ?_⟩
    exact ⟨fun h => Date.ext (strictMonoOn_dateText.injOn ha hb h), fun h => by rw [h]⟩
  timestamps := by
    intro a b s t hs ht
    obtain ⟨-, -, ha, rfl⟩ := timestamp_text hs
    obtain ⟨-, -, hb, rfl⟩ := timestamp_text ht
    refine ⟨strictMonoOn_timestampText.lt_iff_lt ha hb, ?_⟩
    exact ⟨fun h => Timestamp.ext (strictMonoOn_timestampText.injOn ha hb h), fun h => by rw [h]⟩
  readsDate := by
    intro d s hs
    obtain ⟨hd, rfl⟩ := date_text hs
    exact Parser.date_fields _ _ (readDay_shortText hd)
  readsTimestamp := by
    intro t s hs
    obtain ⟨hfinite, -, ht, rfl⟩ := timestamp_text hs
    exact Parser.timestamp_fields _ _ (readTimestamp_timestampText hfinite ht)
  castsDate := by
    intro d s hs
    obtain ⟨hd, rfl⟩ := date_text hs
    obtain ⟨t, ht, -, htext⟩ := toTimestamp_text hd
    exact ⟨t, ht, htext⟩
  castsTimestamp := by
    intro t s hs
    obtain ⟨-, hdays, ht, rfl⟩ := timestamp_text hs
    have hd : t.getDate.days ∈ fourDigitDays := hdays ▸ ht
    have htake : castTimestampText (timestampText t.micros) = shortText (civil (t.micros / 86400000000)) :=
      List.take_left' (length_shortText _)
    rw [htake, ← hdays]
    exact tryGetCanonicalText_eq_some.mpr
      ⟨Date.isFinite_of_mem hd, hd, (Date.toText_eq hd).symm⟩

example : timestampText 1582934400250000 = "2020-02-29 00:00:00.25".toList := by decide

end SqliteScanner.DateText
