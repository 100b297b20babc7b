import SqliteScanner.Internal.Buckets

/-!
# The proleptic Gregorian calendar

Days are counted from 1970-01-01. A date is found from its day number in two steps: the year is the
one whose first day is the last not after the day, and the month is found in the same way among the
first days of the months of that year.

Both steps have the same reason to be right: the first days are increasing, so the last one not
after a day is the only one with the day between it and the next.

## Main results

* `yearStart_yearOf` — the year of a day.
* `days_civil`, `civil_valid` — the date of a day, and back.
* `civil_lt` — days are ordered as their dates.
* `years`, `months`, `isoYears`, `weeks` — the days are cut into buckets.
-/

namespace Calendar

/-! ### Years -/

/-- The first day of a year. -/
def yearStart (y : ℤ) : ℤ := 365 * y + (y - 1) / 4 - (y - 1) / 100 + (y - 1) / 400 - 719527

def isLeap (y : ℤ) : Bool := y % 4 = 0 && (y % 100 ≠ 0 || y % 400 = 0)

/-- The number of days of a year. -/
def yearLength (leap : Bool) : ℕ := if leap then 366 else 365

theorem yearStart_succ (y : ℤ) : yearStart (y + 1) = yearStart y + yearLength (isLeap y) := by
  cases h : isLeap y with
  | true =>
    simp only [isLeap, Bool.and_eq_true, Bool.or_eq_true, decide_eq_true_eq] at h
    simp only [yearStart, yearLength, if_true]
    omega
  | false =>
    simp only [isLeap, Bool.and_eq_false_iff, Bool.or_eq_false_iff, decide_eq_false_iff_not] at h
    simp only [yearStart, yearLength, Bool.false_eq_true, if_false]
    omega

theorem yearStart_mono {y z : ℤ} (h : y ≤ z) : yearStart y ≤ yearStart z := by
  simp only [yearStart]
  omega

/-- The year of a day: an estimate with the mean length of a year, which is off by one at most. -/
def yearOf (n : ℤ) : ℤ :=
  let y := 400 * n / 146097 + 1970
  if n < yearStart y then y - 1 else if yearStart (y + 1) ≤ n then y + 1 else y

/-- The mean length of a year is right up to less than a year. -/
theorem yearStart_estimate {n y : ℤ} (h : 146097 * (y - 1970) ≤ 400 * n)
    (h' : 400 * n < 146097 * (y - 1969)) : yearStart (y - 1) ≤ n ∧ n < yearStart (y + 2) := by
  simp only [yearStart]
  constructor <;> omega

theorem yearStart_yearOf (n : ℤ) :
    yearStart (yearOf n) ≤ n ∧ n < yearStart (yearOf n + 1) := by
  have hest := yearStart_estimate (n := n) (y := 400 * n / 146097 + 1970) (by omega) (by omega)
  simp only [yearOf]
  generalize 400 * n / 146097 + 1970 = y at hest
  split
  · exact ⟨hest.1, by rwa [Int.sub_add_cancel]⟩
  · split
    · exact ⟨by assumption, by rw [Int.add_assoc]; exact hest.2⟩
    · exact ⟨by omega, by omega⟩

theorem yearOf_mono {n k : ℤ} (h : n ≤ k) : yearOf n ≤ yearOf k := by
  by_contra hlt
  have hmono := yearStart_mono (show yearOf k + 1 ≤ yearOf n by omega)
  have hn := yearStart_yearOf n
  have hk := yearStart_yearOf k
  omega

/-! ### Months -/

/-- The day of the year before the month of a number from `1` to `13`. -/
def monthStart (leap : Bool) (m : ℕ) : ℕ :=
  match m with
  | 0 | 1 => 0
  | 2 => 31
  | m => [59, 90, 120, 151, 181, 212, 243, 273, 304, 334, 365].getD (m - 3) 365 +
      (if leap then 1 else 0)

/-- The month of a day of the year: how many months have started. -/
def monthOf (leap : Bool) (k : ℕ) : ℕ :=
  ((List.range 12).filter fun m => monthStart leap (m + 1) ≤ k).length

theorem monthOf_mono {leap : Bool} {k l : ℕ} (h : k ≤ l) : monthOf leap k ≤ monthOf leap l := by
  refine List.Sublist.length_le (List.monotone_filter_right _ fun m hm => ?_)
  simp only [decide_eq_true_eq] at hm ⊢
  omega

/-- A day of the year is in its month. -/
theorem monthStart_monthOf {leap : Bool} {k : ℕ} (h : k < yearLength leap) :
    1 ≤ monthOf leap k ∧ monthOf leap k ≤ 12 ∧ monthStart leap (monthOf leap k) ≤ k ∧
      k < monthStart leap (monthOf leap k + 1) := by
  have hall : ∀ leap, ∀ k < yearLength leap, 1 ≤ monthOf leap k ∧ monthOf leap k ≤ 12 ∧
      monthStart leap (monthOf leap k) ≤ k ∧ k < monthStart leap (monthOf leap k + 1) := by
    decide +kernel
  exact hall leap k h

theorem monthStart_succ_le (leap : Bool) {m : ℕ} (h : m ≤ 12) :
    monthStart leap (m + 1) ≤ monthStart leap m + 31 := by
  have hall : ∀ leap, ∀ m < 13, monthStart leap (m + 1) ≤ monthStart leap m + 31 := by decide
  exact hall leap m (by omega)

/-! ### Dates -/

structure Civil where
  year : ℤ
  month : ℕ
  day : ℕ
  deriving DecidableEq, Repr

/-- The month and the day are those of a date of the year. -/
def Civil.Valid (c : Civil) : Prop :=
  1 ≤ c.month ∧ c.month ≤ 12 ∧ 1 ≤ c.day ∧
    monthStart (isLeap c.year) c.month + c.day ≤ monthStart (isLeap c.year) (c.month + 1)

instance (c : Civil) : Decidable c.Valid := inferInstanceAs (Decidable (_ ∧ _))

/-- The day number of a date. -/
def Civil.days (c : Civil) : ℤ :=
  yearStart c.year + monthStart (isLeap c.year) c.month + (c.day - 1)

/-- The day of the year, from `0`. -/
def dayOfYear (n : ℤ) : ℕ := (n - yearStart (yearOf n)).toNat

/-- The date of a day. -/
def civil (n : ℤ) : Civil where
  year := yearOf n
  month := monthOf (isLeap (yearOf n)) (dayOfYear n)
  day := dayOfYear n - monthStart (isLeap (yearOf n)) (monthOf (isLeap (yearOf n)) (dayOfYear n)) + 1

theorem dayOfYear_eq (n : ℤ) :
    n = yearStart (yearOf n) + dayOfYear n ∧ dayOfYear n < yearLength (isLeap (yearOf n)) := by
  have hyear := yearStart_yearOf n
  rw [yearStart_succ] at hyear
  simp only [dayOfYear]
  omega

theorem civil_valid (n : ℤ) : (civil n).Valid := by
  obtain ⟨hlow, hhigh, hle, hlt⟩ := monthStart_monthOf (dayOfYear_eq n).2
  refine ⟨hlow, hhigh, Nat.succ_pos _, ?_⟩
  simp only [civil]
  omega

theorem days_civil (n : ℤ) : (civil n).days = n := by
  have hn := (dayOfYear_eq n).1
  have hmonth := (monthStart_monthOf (dayOfYear_eq n).2).2.2.1
  simp only [Civil.days, civil]
  omega

/-- No month has more than `31` days. -/
theorem day_civil_le (n : ℤ) : (civil n).day ≤ 31 := by
  obtain ⟨-, hmonth, -, hday⟩ := civil_valid n
  have hlength := monthStart_succ_le (isLeap (civil n).year) hmonth
  omega

/-- A later day has a later date. -/
theorem civil_lt {n k : ℤ} (h : n < k) :
    (civil n).year < (civil k).year ∨ (civil n).year = (civil k).year ∧
      ((civil n).month < (civil k).month ∨ (civil n).month = (civil k).month ∧
        (civil n).day < (civil k).day) := by
  rcases Int.lt_or_eq_of_le (yearOf_mono (Int.le_of_lt h)) with hlt | heq
  · exact .inl hlt
  · refine .inr ⟨heq, ?_⟩
    have hn := (dayOfYear_eq n).1
    have hk := (dayOfYear_eq k).1
    have hday : dayOfYear n < dayOfYear k := by
      rw [heq] at hn
      omega
    have hmonth : (civil n).month ≤ (civil k).month := by
      simp only [civil, heq]
      exact monthOf_mono (Nat.le_of_lt hday)
    rcases Nat.lt_or_eq_of_le hmonth with hlt | hmeq
    · exact .inl hlt
    · refine .inr ⟨hmeq, ?_⟩
      have hdays := days_civil n
      have hdays' := days_civil k
      have hyear : (civil n).year = (civil k).year := heq
      simp only [Civil.days, hyear, hmeq] at hdays hdays'
      omega

/-! ### Buckets of days -/

/-- The years. -/
def years : Buckets ℤ ℤ :=
  Buckets.ofBetween yearStart yearOf (fun _ _ h => yearStart_mono h) yearStart_yearOf

/-- The number of a month, counted from the first one of year `0`. -/
def monthNumber (n : ℤ) : ℤ := (civil n).year * 12 + (civil n).month - 1

/-- The first day of the month of a number. -/
def monthDay (i : ℤ) : ℤ := yearStart (i / 12) + monthStart (isLeap (i / 12)) ((i % 12).toNat + 1)

theorem monthDay_eq {y : ℤ} {m : ℕ} (hlow : 1 ≤ m) (hhigh : m ≤ 12) :
    monthDay (y * 12 + m - 1) = yearStart y + monthStart (isLeap y) m := by
  have hyear : (y * 12 + m - 1) / 12 = y := by omega
  have hmonth : ((y * 12 + m - 1) % 12).toNat + 1 = m := by omega
  rw [monthDay, hyear, hmonth]

/-- After the last month the next year begins. -/
theorem monthStart_thirteen (leap : Bool) : monthStart leap 13 = yearLength leap := by
  cases leap <;> rfl

theorem monthDay_succ {y : ℤ} {m : ℕ} (hlow : 1 ≤ m) (hhigh : m ≤ 12) :
    monthDay (y * 12 + m - 1 + 1) = yearStart y + monthStart (isLeap y) (m + 1) := by
  rcases Nat.lt_or_eq_of_le hhigh with hlt | rfl
  · rw [← monthDay_eq (by omega) (by omega)]
    push_cast
    congr 1
    omega
  · have hnext : y * 12 + ((12 : ℕ) : ℤ) - 1 + 1 = (y + 1) * 12 + ((1 : ℕ) : ℤ) - 1 := by
      push_cast
      omega
    rw [hnext, monthDay_eq (by decide) (by decide), yearStart_succ, monthStart_thirteen]
    simp [monthStart]

theorem monthStart_le_succ (leap : Bool) {m : ℕ} (h : m ≤ 12) :
    monthStart leap m ≤ monthStart leap (m + 1) := by
  have hall : ∀ leap, ∀ m < 13, monthStart leap m ≤ monthStart leap (m + 1) := by decide
  exact hall leap m (by omega)

theorem monthDay_mono : Monotone monthDay := by
  refine monotone_int_of_le_succ fun i => ?_
  -- every number is that of a month of a year
  obtain ⟨y, m, hlow, hhigh, rfl⟩ : ∃ (y : ℤ) (m : ℕ), 1 ≤ m ∧ m ≤ 12 ∧ i = y * 12 + m - 1 :=
    ⟨i / 12, (i % 12).toNat + 1, by omega, by omega, by omega⟩
  rw [monthDay_eq hlow hhigh, monthDay_succ hlow hhigh]
  have hle := monthStart_le_succ (isLeap y) hhigh
  omega

theorem monthDay_monthNumber (n : ℤ) :
    monthDay (monthNumber n) ≤ n ∧ n < monthDay (monthNumber n + 1) := by
  obtain ⟨hlow, hhigh, hle, hlt⟩ := monthStart_monthOf (dayOfYear_eq n).2
  have hn := (dayOfYear_eq n).1
  simp only [monthNumber, civil]
  rw [monthDay_eq hlow hhigh, monthDay_succ hlow hhigh]
  omega

/-- The months. -/
def months : Buckets ℤ ℤ := Buckets.ofBetween monthDay monthNumber monthDay_mono monthDay_monthNumber

/-! ### Weeks

The first day of the count is a Thursday. -/

/-- The Monday of the week of a day. -/
def monday (n : ℤ) : ℤ := n - (n + 3) % 7

/-- The weeks, from Monday to Sunday. -/
def weeks : Buckets ℤ ℤ where
  index n := (n + 3) / 7
  start i := i * 7 - 3
  gc i n := by
    show i * 7 - 3 ≤ n ↔ i ≤ (n + 3) / 7
    omega

theorem weeks_floor (n : ℤ) : weeks.floor n = monday n := by
  simp only [Buckets.floor, weeks, monday]
  omega

/-- The ISO year: a week is in the year of its Thursday. -/
def isoYear (n : ℤ) : ℤ := yearOf (monday n + 3)

/-- The ISO week: the number of the week's Thursday among those of the year. -/
def isoWeek (n : ℤ) : ℕ := dayOfYear (monday n + 3) / 7 + 1

/-- The first day of an ISO year: the Monday of the week with the fourth of January. -/
def isoYearStart (y : ℤ) : ℤ := monday (yearStart y + 3)

theorem isoYearStart_mono : Monotone isoYearStart := by
  intro y z h
  have hyear := yearStart_mono h
  simp only [isoYearStart, monday]
  omega

theorem isoYearStart_isoYear (n : ℤ) :
    isoYearStart (isoYear n) ≤ n ∧ n < isoYearStart (isoYear n + 1) := by
  have hyear := yearStart_yearOf (monday n + 3)
  simp only [isoYearStart, isoYear, monday] at hyear ⊢
  omega

/-- The ISO years. -/
def isoYears : Buckets ℤ ℤ :=
  Buckets.ofBetween isoYearStart isoYear isoYearStart_mono isoYearStart_isoYear

/-- The first day of the ISO year of a day: as many weeks back as its week is after the first. -/
theorem isoYears_floor (n : ℤ) : isoYears.floor n = monday n - ((isoWeek (monday n) : ℤ) - 1) * 7 := by
  have hmonday : monday (monday n) = monday n := by
    simp only [monday]
    omega
  have hday := (dayOfYear_eq (monday n + 3)).1
  rw [isoWeek, hmonday]
  simp only [Buckets.floor, isoYears, Buckets.ofBetween, isoYearStart, isoYear]
  generalize yearStart (yearOf (monday n + 3)) = first at hday ⊢
  have hthursday : (monday n + 3) % 7 = 0 := by
    simp only [monday]
    omega
  simp only [monday] at hthursday hday ⊢
  push_cast
  omega

end Calendar
