import SqliteScanner.DateText

/-!
# Truncating timestamps and counting boundaries

`duckdb_date_trunc(part, value)` is the first timestamp of the part of the calendar that a timestamp
is in, and `duckdb_date_diff(part, start, end)` counts the boundaries of parts between two
timestamps. The two functions of the source have no code in common: one builds the first date of a
year or a month or rounds a number of microseconds down, the other subtracts years, months or
quotients.

They agree because each part cuts time into buckets. `Part.buckets` says which ones, `truncate_eq`
that the first function goes to the start of the bucket, and `difference_eq` that the second one
subtracts the indices of two buckets. The quotients of the source are rounded towards zero; with
years from `1` and with the corrections for negative numbers they are the ones that are rounded
down.

Weeks are different: the source counts whole weeks between two dates and not Mondays.

## Main definitions

* `dateTrunc`, `dateDiff` — the two functions of the source, from texts to a text or a number.
* `Part.buckets` — how a part cuts time.

## Main results

* `truncate_eq`, `difference_eq` — the functions of the source in terms of buckets.
* `dateTrunc_dateDiff_agree` — truncating rounds down, and the number of boundaries compares what is
  truncated and is additive.
-/

namespace SqliteScanner.DateTrunc

open Calendar DateText

/-! ### The functions of the source -/

/-- What an exception says. -/
inductive Failure where
  /-- A conversion of DuckDB fails. -/
  | conversion
  | message (text : Text)
  deriving DecidableEq, Repr

/-- The parts that the two functions know. -/
inductive Part where
  | millennium
  | century
  | decade
  | year
  | quarter
  | month
  | week
  | isoyear
  | day
  | hour
  | minute
  | second
  | millisecond
  | microsecond
  deriving DecidableEq, Repr

/-- The name of a part. -/
def Part.name : Part → Text
  | .millennium => "millennium".toList
  | .century => "century".toList
  | .decade => "decade".toList
  | .year => "year".toList
  | .quarter => "quarter".toList
  | .month => "month".toList
  | .week => "week".toList
  | .isoyear => "isoyear".toList
  | .day => "day".toList
  | .hour => "hour".toList
  | .minute => "minute".toList
  | .second => "second".toList
  | .millisecond => "millisecond".toList
  | .microsecond => "microsecond".toList

def Part.all : List Part :=
  [.millennium, .century, .decade, .year, .quarter, .month, .week, .isoyear, .day, .hour, .minute,
    .second, .millisecond, .microsecond]

/-- The comparisons of the name, in lower case, with the names of the parts. -/
def findPart (part : Text) : Except Failure Part :=
  let part := part.map Char.toLower
  match Part.all.find? (·.name = part) with
  | some found => .ok found
  | none => .error (.message ("Unsupported date part \"".toList ++ part ++ "\"".toList))

/-- `SQLiteTimestampArgument`. -/
def timestampArgument [Parser] (value : Text) : Except Failure Timestamp :=
  (Parser.timestampFromCString value).elim (.error .conversion) .ok

/-- `SQLiteFunctions::SetResult` of a `TIMESTAMP`. -/
def setResult (t : Timestamp) : Except Failure Text :=
  (tryGetCanonicalText (.timestamp t)).elim
    (.error (.message ("The TIMESTAMP value \"".toList ++ t.toText ++
      ("\" cannot be represented in SQLite - SET sqlite_enable_remote_pushdown = false before " ++
        "attaching the database to execute the query in DuckDB").toList)))
    .ok

/-- `Date::FromDate`. -/
def fromDate (year : ℤ) (month day : ℕ) : Except Failure Date :=
  let c : Civil := ⟨year, month, day⟩
  if c.Valid then (Date.ofDays c.days).elim (.error .conversion) .ok else .error .conversion

/-- `Timestamp::FromDatetime` at midnight. -/
def fromDatetime (d : Date) : Except Failure Timestamp := d.toTimestamp.elim (.error .conversion) .ok

/-- An `int64_t` as a timestamp. -/
def fromMicros (n : ℤ) : Except Failure Timestamp :=
  (Timestamp.ofMicros n).elim (.error .conversion) .ok

/-- `Date::GetMondayOfCurrentWeek`, less a number of days. -/
def daysBefore (date : Date) (n : ℤ) : Except Failure Date :=
  (Date.ofDays (monday date.days - n)).elim (.error .conversion) .ok

/-- `SQLiteTruncFixed`. The division of the source is rounded towards zero. -/
def truncFixed (v interval : ℤ) : ℤ :=
  let q := v.tdiv interval - if v.tmod interval ≠ 0 ∧ v < 0 then 1 else 0
  q * interval

/-- `SQLiteFloorDivide`. -/
def floorDivide (value units : ℤ) : ℤ :=
  let negative : ℤ := if value < 0 then 1 else 0
  (value + negative).tdiv units - negative

/-- The branches of `SQLiteDateTruncFunction`. -/
def truncate (part : Part) (ts : Timestamp) : Except Failure Timestamp :=
  let date := ts.getDate
  let year := yearOf date.days
  let month := (civil date.days).month
  match part with
  | .millennium => do fromDatetime (← fromDate (year.tdiv 1000 * 1000) 1 1)
  | .century => do fromDatetime (← fromDate (year.tdiv 100 * 100) 1 1)
  | .decade => do fromDatetime (← fromDate (year.tdiv 10 * 10) 1 1)
  | .year => do fromDatetime (← fromDate year 1 1)
  | .quarter => do fromDatetime (← fromDate year (1 + (month - 1) / 3 * 3) 1)
  | .month => do fromDatetime (← fromDate year month 1)
  | .week => do fromDatetime (← daysBefore date 0)
  | .isoyear => do fromDatetime (← daysBefore date (((isoWeek (monday date.days) : ℤ) - 1) * 7))
  | .day => fromDatetime date
  | .hour => fromMicros (truncFixed ts.micros 3600000000)
  | .minute => fromMicros (truncFixed ts.micros 60000000)
  | .second => fromMicros (truncFixed ts.micros 1000000)
  | .millisecond => fromMicros (truncFixed ts.micros 1000)
  | .microsecond => .ok ts

/-- `SQLiteDateTruncFunction`. -/
def dateTrunc [Parser] (part value : Text) : Except Failure Text := do
  let ts ← timestampArgument value
  let part ← findPart part
  setResult (← truncate part ts)

/-- The lambda `diff` of `SQLiteDateDiffFunction`. -/
def diff (s e units : ℤ) : ℤ := floorDivide e units - floorDivide s units

/-- The branches of `SQLiteDateDiffFunction`. -/
def difference (part : Part) (start finish : Timestamp) : Except Failure ℤ :=
  let startDate := start.getDate.days
  let endDate := finish.getDate.days
  match part with
  | .year => .ok (yearOf endDate - yearOf startDate)
  | .month => .ok (monthNumber endDate - monthNumber startDate)
  | .day => .ok (endDate - startDate)
  | .decade => .ok ((yearOf endDate).tdiv 10 - (yearOf startDate).tdiv 10)
  | .century => .ok ((yearOf endDate).tdiv 100 - (yearOf startDate).tdiv 100)
  | .millennium => .ok ((yearOf endDate).tdiv 1000 - (yearOf startDate).tdiv 1000)
  | .quarter => .ok ((monthNumber endDate).tdiv 3 - (monthNumber startDate).tdiv 3)
  | .week => .ok ((endDate - startDate).tdiv 7)
  | .isoyear => .ok (isoYear endDate - isoYear startDate)
  | .microsecond =>
    let result := finish.micros - start.micros
    if -9223372036854775808 ≤ result ∧ result ≤ 9223372036854775807 then .ok result
    else .error (.message "Overflow in subtraction of INT64".toList)
  | .millisecond => .ok (diff start.micros finish.micros 1000)
  | .second => .ok (diff start.micros finish.micros 1000000)
  | .minute => .ok (diff start.micros finish.micros 60000000)
  | .hour => .ok (diff start.micros finish.micros 3600000000)

/-- `SQLiteDateDiffFunction`. -/
def dateDiff [Parser] (part start finish : Text) : Except Failure ℤ := do
  let start ← timestampArgument start
  let finish ← timestampArgument finish
  difference (← findPart part) start finish

theorem findPart_name (part : Part) : findPart part.name = .ok part := by
  cases part <;> decide

/-! ### Buckets of microseconds -/

/-- Buckets of some microseconds. -/
def fixedBuckets (units : ℤ) (h : 0 < units) : Buckets ℤ ℤ := Buckets.multiples units h

/-- Buckets of days, as buckets of microseconds. -/
noncomputable def dayBuckets (b : Buckets ℤ ℤ) : Buckets ℤ ℤ :=
  (fixedBuckets 86400000000 (by decide)).comp b

/-- **How a part cuts time.** -/
noncomputable def Part.buckets : Part → Buckets ℤ ℤ
  | .millennium => dayBuckets (years.comp (Buckets.multiples 1000 (by decide)))
  | .century => dayBuckets (years.comp (Buckets.multiples 100 (by decide)))
  | .decade => dayBuckets (years.comp (Buckets.multiples 10 (by decide)))
  | .year => dayBuckets years
  | .quarter => dayBuckets (months.comp (Buckets.multiples 3 (by decide)))
  | .month => dayBuckets months
  | .week => dayBuckets weeks
  | .isoyear => dayBuckets isoYears
  | .day => fixedBuckets 86400000000 (by decide)
  | .hour => fixedBuckets 3600000000 (by decide)
  | .minute => fixedBuckets 60000000 (by decide)
  | .second => fixedBuckets 1000000 (by decide)
  | .millisecond => fixedBuckets 1000 (by decide)
  | .microsecond => fixedBuckets 1 (by decide)

theorem dayBuckets_floor (b : Buckets ℤ ℤ) (n : ℤ) :
    (dayBuckets b).floor n = b.floor (n / 86400000000) * 86400000000 := rfl

/-! ### Divisions that are rounded down -/

/-- Rounding towards zero and correcting rounds down. -/
theorem truncFixed_eq (v : ℤ) {interval : ℤ} (h : 0 < interval) :
    truncFixed v interval = v / interval * interval := by
  have hquotient : v.tdiv interval - (if v.tmod interval ≠ 0 ∧ v < 0 then 1 else 0) =
      v / interval := by
    rw [Int.tdiv_eq_ediv]
    by_cases hneg : v < 0
    · by_cases hdvd : interval ∣ v
      · simp [hdvd, Int.tmod_eq_zero_of_dvd hdvd]
      · have htmod : v.tmod interval ≠ 0 := fun hzero => hdvd (Int.dvd_of_tmod_eq_zero hzero)
        simp [htmod, hneg, hdvd, not_le.mpr hneg, Int.sign_eq_one_of_pos h]
    · simp [hneg, not_lt.mp hneg]
  rw [truncFixed]
  exact congrArg (· * interval) hquotient

theorem floorDivide_eq (value : ℤ) {units : ℤ} (h : 0 < units) :
    floorDivide value units = value / units := by
  rw [floorDivide]
  by_cases hneg : value < 0
  · -- the quotient of the successor is that of a number that is not negative
    obtain ⟨k, hk⟩ : ∃ k : ℕ, value = -(k : ℤ) - 1 := ⟨(-value - 1).toNat, by omega⟩
    have hpositive := Int.mul_ediv_add_emod (k : ℤ) units
    have hnonneg := Int.emod_nonneg (k : ℤ) h.ne'
    have hlt := Int.emod_lt_of_pos (k : ℤ) h
    have hdown : value / units = -((k : ℤ) / units) - 1 :=
      ((Int.ediv_emod_unique h).mpr
        ⟨show units - 1 - (k : ℤ) % units + units * (-((k : ℤ) / units) - 1) = value by
          rw [hk, Int.mul_sub, Int.mul_neg]; omega, by omega, by omega⟩).1
    simp only [hneg, if_true]
    rw [hdown, hk, show -(k : ℤ) - 1 + 1 = -(k : ℤ) by omega, Int.neg_tdiv,
      Int.tdiv_eq_ediv_of_nonneg (by omega)]
  · simp only [hneg, if_false, add_zero, sub_zero]
    exact Int.tdiv_eq_ediv_of_nonneg (by omega)

/-! ### Truncating -/

/-- The timestamps of the years from `1` to `9999`. -/
def InRange (t : Timestamp) : Prop :=
  t.isFinite = true ∧ t.micros / 86400000000 ∈ fourDigitDays

/-- No part begins before year `0`. -/
theorem floor_bounds (part : Part) {t : Timestamp} (h : InRange t) :
    -719528 * 86400000000 ≤ part.buckets.floor t.micros ∧
      part.buckets.floor t.micros ≤ t.micros := by
  have hday := bounds_of_mem_fourDigitDays h.2
  have hfirst : -719528 * 86400000000 ≤ part.buckets.floor (-719162 * 86400000000) := by
    cases part <;> decide
  have hmono := part.buckets.floor_mono (show -719162 * 86400000000 ≤ t.micros by omega)
  exact ⟨hfirst.trans hmono, part.buckets.floor_le _⟩

/-- The midnight of a day. -/
theorem fromDatetime_ok {n : ℤ} (hlow : -719528 ≤ n) (hhigh : n ≤ 2932896) :
    ∃ d r, Date.ofDays n = some d ∧ d.days = n ∧ fromDatetime d = .ok r ∧
      r.micros = n * 86400000000 := by
  refine ⟨⟨n, by omega, by omega⟩, ⟨n * 86400000000, by omega, by omega⟩, ?_, rfl, ?_, rfl⟩
  · rw [Date.ofDays, dif_pos (by omega)]
  · simp only [fromDatetime, Date.toTimestamp]
    rw [if_neg (by omega), if_neg (by omega), Timestamp.ofMicros, dif_pos (by omega)]
    rfl

/-- The midnight of the first day of a month. -/
theorem fromDate_ok {y : ℤ} {m : ℕ} (hm : 1 ≤ m ∧ m ≤ 12)
    (hlow : -719528 ≤ yearStart y + monthStart (isLeap y) m)
    (hhigh : yearStart y + monthStart (isLeap y) m ≤ 2932896) :
    ∃ r, (fromDate y m 1 >>= fromDatetime) = .ok r ∧
      r.micros = (yearStart y + monthStart (isLeap y) m) * 86400000000 := by
  obtain ⟨d, r, hdate, -, hr, hmicros⟩ := fromDatetime_ok hlow hhigh
  have hvalid : (Civil.mk y m 1).Valid := by
    have hnext : ∀ leap, ∀ m < 13, 1 ≤ m → monthStart leap m + 1 ≤ monthStart leap (m + 1) := by
      decide
    exact ⟨hm.1, hm.2, le_rfl, hnext _ m (by omega) hm.1⟩
  have hdays : (Civil.mk y m 1).days = yearStart y + monthStart (isLeap y) m := by
    simp [Civil.days]
  refine ⟨r, ?_, hmicros⟩
  simp only [fromDate, if_pos hvalid, hdays, hdate]
  exact hr

section Truncate

variable {t : Timestamp} (h : InRange t)
include h

variable {part : Part}

/-- The bucket of days of a timestamp begins in the range of the dates. -/
theorem dayFloor_bounds {b : Buckets ℤ ℤ} (hpart : part.buckets = dayBuckets b) :
    -719528 ≤ b.floor (t.micros / 86400000000) ∧ b.floor (t.micros / 86400000000) ≤ 2932896 := by
  have hfloor := floor_bounds part h
  have hday := bounds_of_mem_fourDigitDays h.2
  rw [hpart, dayBuckets_floor] at hfloor
  omega

/-- The first day of a month. -/
theorem truncate_date {b : Buckets ℤ ℤ} (hpart : part.buckets = dayBuckets b) {y : ℤ}
    {m : ℕ} (hm : 1 ≤ m ∧ m ≤ 12)
    (hfloor : b.floor (t.micros / 86400000000) = yearStart y + monthStart (isLeap y) m) :
    ∃ r, (fromDate y m 1 >>= fromDatetime) = .ok r ∧ r.micros = part.buckets.floor t.micros := by
  have hbounds := dayFloor_bounds h hpart
  rw [hfloor] at hbounds
  obtain ⟨r, hr, hmicros⟩ := fromDate_ok hm hbounds.1 hbounds.2
  refine ⟨r, hr, ?_⟩
  rw [hmicros, hpart, dayBuckets_floor, hfloor]

/-- The first day of some years. -/
theorem truncate_years {k : ℤ} (hk : 0 < k)
    (hpart : part.buckets = dayBuckets (years.comp (Buckets.multiples k hk))) :
    ∃ r, (fromDate ((yearOf (t.micros / 86400000000)).tdiv k * k) 1 1 >>= fromDatetime) = .ok r ∧
      r.micros = part.buckets.floor t.micros := by
  have hnonneg : 0 ≤ yearOf (t.micros / 86400000000) := by
    have hyear := h.2.1
    omega
  rw [Int.tdiv_eq_ediv_of_nonneg hnonneg]
  exact truncate_date h hpart (by decide) (add_zero _).symm

/-- Some days before the Monday. -/
theorem truncate_week {b : Buckets ℤ ℤ} (hpart : part.buckets = dayBuckets b) {n : ℤ}
    (hfloor : b.floor (t.micros / 86400000000) = monday t.getDate.days - n) :
    ∃ r, (daysBefore t.getDate n >>= fromDatetime) = .ok r ∧
      r.micros = part.buckets.floor t.micros := by
  have hbounds := dayFloor_bounds h hpart
  rw [hfloor] at hbounds
  obtain ⟨d, r, hdate, -, hr, hmicros⟩ := fromDatetime_ok hbounds.1 hbounds.2
  refine ⟨r, ?_, ?_⟩
  · rw [daysBefore, hdate]
    exact hr
  · rw [hmicros, hpart, dayBuckets_floor, hfloor]

/-- A multiple of some microseconds. -/
theorem truncate_fixed {units : ℤ} (hunits : 0 < units)
    (hpart : part.buckets = fixedBuckets units hunits) :
    ∃ r, fromMicros (truncFixed t.micros units) = .ok r ∧
      r.micros = part.buckets.floor t.micros := by
  have hfloor : part.buckets.floor t.micros = truncFixed t.micros units := by
    rw [hpart, truncFixed_eq _ hunits]
    rfl
  have hbounds := floor_bounds part h
  have hupper := t.upper
  rw [hfloor] at hbounds ⊢
  refine ⟨⟨truncFixed t.micros units, by omega, by omega⟩, ?_, rfl⟩
  rw [fromMicros, Timestamp.ofMicros, dif_pos (by omega)]
  rfl

/-- **Truncating goes to the start of the bucket.** -/
theorem truncate_eq (part : Part) :
    ∃ r, truncate part t = .ok r ∧ r.micros = part.buckets.floor t.micros := by
  have hdays := Timestamp.days_getDate h.1
  obtain ⟨hlow, hhigh, -⟩ := civil_valid (t.micros / 86400000000)
  cases part with
  | millennium | century | decade =>
    simp only [truncate, hdays]
    exact truncate_years h _ rfl
  | year =>
    simp only [truncate, hdays]
    exact truncate_date h (b := years) rfl (by decide) (add_zero _).symm
  | quarter =>
    simp only [truncate, hdays]
    refine truncate_date h (b := months.comp (Buckets.multiples 3 (by decide))) rfl (by omega) ?_
    rw [← monthDay_eq (by omega) (by omega)]
    refine congrArg monthDay ?_
    show monthNumber (t.micros / 86400000000) / 3 * 3 = _
    simp only [monthNumber, civil] at hlow ⊢
    omega
  | month =>
    simp only [truncate, hdays]
    exact truncate_date h (b := months) rfl ⟨hlow, hhigh⟩ (monthDay_eq hlow hhigh)
  | week =>
    exact truncate_week h (b := weeks) rfl (by rw [weeks_floor, hdays, sub_zero])
  | isoyear =>
    exact truncate_week h (b := isoYears) rfl (by rw [isoYears_floor, hdays])
  | day =>
    have hbounds := bounds_of_mem_fourDigitDays h.2
    obtain ⟨d, r, -, hd, hr, hmicros⟩ := fromDatetime_ok (by omega) hbounds.2
    have hdate : t.getDate = d := Date.ext (by rw [hdays, hd])
    refine ⟨r, ?_, hmicros⟩
    rw [truncate, hdate]
    exact hr
  | hour | minute | second | millisecond => exact truncate_fixed h _ rfl
  | microsecond =>
    refine ⟨t, rfl, ?_⟩
    show t.micros = t.micros / 1 * 1
    rw [Int.ediv_one, mul_one]

end Truncate

/-! ### Counting boundaries -/

/-- **Counting subtracts the indices of the buckets.** -/
theorem difference_eq {part : Part} (hpart : part ≠ .week) {s e : Timestamp} (hs : InRange s)
    (he : InRange e) :
    difference part s e = .ok (part.buckets.index e.micros - part.buckets.index s.micros) := by
  have hstart := Timestamp.days_getDate hs.1
  have hend := Timestamp.days_getDate he.1
  have hyear : 0 ≤ yearOf (s.micros / 86400000000) ∧ 0 ≤ yearOf (e.micros / 86400000000) := by
    have hs' := hs.2.1
    have he' := he.2.1
    omega
  cases part with
  | week => exact absurd rfl hpart
  | year | month | day | isoyear =>
    simp only [difference, hstart, hend]
    rfl
  | decade | century | millennium =>
    simp only [difference, hstart, hend]
    rw [Int.tdiv_eq_ediv_of_nonneg hyear.1, Int.tdiv_eq_ediv_of_nonneg hyear.2]
    rfl
  | quarter =>
    have hmonth {n : ℤ} (hn : 0 ≤ yearOf n) : 0 ≤ monthNumber n := by
      have hlow := (civil_valid n).1
      simp only [monthNumber, civil] at hlow ⊢
      omega
    simp only [difference, hstart, hend]
    rw [Int.tdiv_eq_ediv_of_nonneg (hmonth hyear.1), Int.tdiv_eq_ediv_of_nonneg (hmonth hyear.2)]
    rfl
  | microsecond =>
    have hlow := bounds_of_mem_fourDigitDays hs.2
    have hhigh := bounds_of_mem_fourDigitDays he.2
    rw [difference, if_pos (by omega)]
    show Except.ok (e.micros - s.micros) = .ok (e.micros / 1 - s.micros / 1)
    rw [Int.ediv_one, Int.ediv_one]
  | millisecond | second | minute | hour =>
    simp only [difference, diff]
    rw [floorDivide_eq _ (by decide), floorDivide_eq _ (by decide)]
    rfl

/-! ### From texts to texts -/

theorem timestampArgument_text [Parser] {t : Timestamp} {s : Text}
    (h : tryGetCanonicalText (.timestamp t) = some s) : timestampArgument s = .ok t ∧ InRange t := by
  obtain ⟨hfinite, -, hyear, rfl⟩ := timestamp_text h
  rw [timestampArgument, Parser.timestamp_fields _ _ (readTimestamp_timestampText hfinite hyear)]
  exact ⟨rfl, hfinite, hyear⟩

theorem setResult_eq_ok {t : Timestamp} {s : Text} :
    setResult t = .ok s ↔ tryGetCanonicalText (.timestamp t) = some s := by
  rw [setResult]
  cases tryGetCanonicalText (.timestamp t) <;> simp

/-- The text of the start of the bucket, if it has one. -/
theorem dateTrunc_eq_ok [Parser] (part : Part) {t : Timestamp} {s s' : Text}
    (h : tryGetCanonicalText (.timestamp t) = some s) :
    dateTrunc part.name s = .ok s' ↔
      ∃ r, tryGetCanonicalText (.timestamp r) = some s' ∧
        r.micros = part.buckets.floor t.micros := by
  obtain ⟨hread, hrange⟩ := timestampArgument_text h
  obtain ⟨r, hr, hmicros⟩ := truncate_eq hrange part
  have hrun : dateTrunc part.name s = setResult r := by
    rw [dateTrunc, hread, findPart_name]
    simp only [bind, Except.bind, hr]
  rw [hrun, setResult_eq_ok]
  constructor
  · intro htext
    exact ⟨r, htext, hmicros⟩
  · rintro ⟨r', htext, hmicros'⟩
    rwa [show r = r' from Timestamp.ext (hmicros.trans hmicros'.symm)]

theorem dateDiff_eq [Parser] {part : Part} (hpart : part ≠ .week) {a b : Timestamp} {s t : Text}
    (hs : tryGetCanonicalText (.timestamp a) = some s)
    (ht : tryGetCanonicalText (.timestamp b) = some t) :
    dateDiff part.name s t = .ok (part.buckets.index b.micros - part.buckets.index a.micros) := by
  obtain ⟨hread, hrange⟩ := timestampArgument_text hs
  obtain ⟨hread', hrange'⟩ := timestampArgument_text ht
  rw [dateDiff, hread, hread', findPart_name]
  exact difference_eq hpart hrange hrange'

/-- The texts of timestamps are ordered as the timestamps. -/
theorem text_lt_iff {a b : Timestamp} {s t : Text} (hs : tryGetCanonicalText (.timestamp a) = some s)
    (ht : tryGetCanonicalText (.timestamp b) = some t) : s < t ↔ a.micros < b.micros := by
  obtain ⟨-, -, ha, rfl⟩ := timestamp_text hs
  obtain ⟨-, -, hb, rfl⟩ := timestamp_text ht
  exact strictMonoOn_timestampText.lt_iff_lt ha hb

theorem text_le_iff {a b : Timestamp} {s t : Text} (hs : tryGetCanonicalText (.timestamp a) = some s)
    (ht : tryGetCanonicalText (.timestamp b) = some t) : s ≤ t ↔ a.micros ≤ b.micros := by
  rw [← not_lt, text_lt_iff ht hs, not_lt]

theorem text_eq_iff {a b : Timestamp} {s t : Text} (hs : tryGetCanonicalText (.timestamp a) = some s)
    (ht : tryGetCanonicalText (.timestamp b) = some t) : s = t ↔ a.micros = b.micros := by
  rw [le_antisymm_iff, text_le_iff hs ht, text_le_iff ht hs, le_antisymm_iff]

/-! ### The two functions agree -/

/-- What holds of a part, for the texts of all timestamps of the years from `1` to `9999`. The texts
are ordered as the timestamps. -/
structure Agree [Parser] (part : Part) : Prop where
  /-- Only the first decade, century and millennium have no first timestamp with a text. -/
  succeeds : ∀ a s, tryGetCanonicalText (.timestamp a) = some s →
    part ∉ [.decade, .century, .millennium] → ∃ s', dateTrunc part.name s = .ok s'
  /-- The number of boundaries compares what is truncated. -/
  compares : part ≠ .week → ∀ a b s t s' t', tryGetCanonicalText (.timestamp a) = some s →
    tryGetCanonicalText (.timestamp b) = some t → dateTrunc part.name s = .ok s' →
      dateTrunc part.name t = .ok t' →
        ∃ d, dateDiff part.name s t = .ok d ∧ (d = 0 ↔ s' = t') ∧ (0 < d ↔ s' < t') ∧
          (d < 0 ↔ t' < s')
  idempotent : ∀ a s s', tryGetCanonicalText (.timestamp a) = some s →
    dateTrunc part.name s = .ok s' → dateTrunc part.name s' = .ok s'
  monotone : ∀ a b s t s' t', tryGetCanonicalText (.timestamp a) = some s →
    tryGetCanonicalText (.timestamp b) = some t → dateTrunc part.name s = .ok s' →
      dateTrunc part.name t = .ok t' → s ≤ t → s' ≤ t'
  notLater : ∀ a s s', tryGetCanonicalText (.timestamp a) = some s →
    dateTrunc part.name s = .ok s' → s' ≤ s
  additive : part ≠ .week → ∀ a b c s t u, tryGetCanonicalText (.timestamp a) = some s →
    tryGetCanonicalText (.timestamp b) = some t → tryGetCanonicalText (.timestamp c) = some u →
      ∃ d e, dateDiff part.name s t = .ok d ∧ dateDiff part.name t u = .ok e ∧
        dateDiff part.name s u = .ok (d + e)

/-- The other parts begin in year `1` or later. -/
theorem truncate_text {part : Part} (hpart : part ∉ [.decade, .century, .millennium])
    {t : Timestamp} (h : InRange t) :
    ∃ r s, tryGetCanonicalText (.timestamp r) = some s ∧ r.micros = part.buckets.floor t.micros := by
  have hday := bounds_of_mem_fourDigitDays h.2
  have hfirst : -719162 * 86400000000 ≤ part.buckets.floor (-719162 * 86400000000) := by
    revert hpart
    cases part <;> decide
  have hmono := part.buckets.floor_mono (show -719162 * 86400000000 ≤ t.micros by omega)
  have hle := part.buckets.floor_le t.micros
  obtain ⟨r, -, hmicros⟩ := truncate_eq h part
  rw [← hmicros] at hmono hle
  have hfinite : r.isFinite = true := by
    simp only [Timestamp.isFinite, ne_eq, decide_eq_true_eq]
    omega
  have hyear : r.getDate.days ∈ fourDigitDays := by
    rw [Timestamp.days_getDate hfinite]
    have hlow : (1 : ℤ) = yearOf (-719162) := by decide
    constructor
    · rw [hlow]
      exact yearOf_mono (by omega)
    · exact (yearOf_mono (by omega)).trans h.2.2
  exact ⟨r, _, tryGetCanonicalText_eq_some.mpr ⟨hfinite, hyear, rfl⟩, hmicros⟩

/-- **Truncating and counting agree.** Truncating rounds down, and the number of boundaries between
two timestamps compares what they are truncated to and is additive. -/
theorem dateTrunc_dateDiff_agree [Parser] (part : Part) : Agree part where
  succeeds := by
    intro a s hs hpart
    obtain ⟨r, s', htext, hmicros⟩ := truncate_text hpart (timestampArgument_text hs).2
    exact ⟨s', (dateTrunc_eq_ok part hs).mpr ⟨r, htext, hmicros⟩⟩
  compares := by
    intro hpart a b s t s' t' hs ht hs' ht'
    obtain ⟨r, hr, hfloor⟩ := (dateTrunc_eq_ok part hs).mp hs'
    obtain ⟨q, hq, hfloor'⟩ := (dateTrunc_eq_ok part ht).mp ht'
    refine ⟨_, dateDiff_eq hpart hs ht, ?_, ?_, ?_⟩
    · rw [text_eq_iff hr hq, hfloor, hfloor', Buckets.floor_eq_iff]
      omega
    · rw [text_lt_iff hr hq, hfloor, hfloor', Buckets.floor_lt_iff]
      omega
    · rw [text_lt_iff hq hr, hfloor, hfloor', Buckets.floor_lt_iff]
      omega
  idempotent := by
    intro a s s' hs hs'
    obtain ⟨r, hr, hfloor⟩ := (dateTrunc_eq_ok part hs).mp hs'
    refine (dateTrunc_eq_ok part hr).mpr ⟨r, hr, ?_⟩
    rw [hfloor, Buckets.floor_floor]
  monotone := by
    intro a b s t s' t' hs ht hs' ht' hle
    obtain ⟨r, hr, hfloor⟩ := (dateTrunc_eq_ok part hs).mp hs'
    obtain ⟨q, hq, hfloor'⟩ := (dateTrunc_eq_ok part ht).mp ht'
    rw [text_le_iff hr hq, hfloor, hfloor']
    exact part.buckets.floor_mono ((text_le_iff hs ht).mp hle)
  notLater := by
    intro a s s' hs hs'
    obtain ⟨r, hr, hfloor⟩ := (dateTrunc_eq_ok part hs).mp hs'
    rw [text_le_iff hr hs, hfloor]
    exact part.buckets.floor_le _
  additive := by
    intro hpart a b c s t u hs ht hu
    refine ⟨_, _, dateDiff_eq hpart hs ht, dateDiff_eq hpart ht hu, ?_⟩
    rw [dateDiff_eq hpart hs hu]
    congr 1
    omega

/-- Weeks are counted by distance: from a Sunday to a Monday there is none. -/
example : difference .week ⟨3 * 86400000000, by decide, by decide⟩ ⟨4 * 86400000000, by decide, by decide⟩ =
    .ok 0 := by
  decide

end SqliteScanner.DateTrunc
