import Mathlib.Data.Int.Notation
import Mathlib.Tactic.IntervalCases

/-!
# The Gregorian calendar

Dates and times of day in the years 1 to 9999, with the fields Python's `datetime` keeps.
A date has an ordinal, 1 for the first of January of year 1; adding a `timedelta` goes
through the ordinal and back. An instant is in microseconds since 1970 UTC.
-/

namespace Calendar

/-! ### Dates -/

def IsLeap (year : ℤ) : Prop := year % 4 = 0 ∧ (year % 100 ≠ 0 ∨ year % 400 = 0)

instance (year : ℤ) : Decidable (IsLeap year) := inferInstanceAs (Decidable (_ ∧ _))

def daysInMonth (year : ℤ) (month : ℕ) : ℤ :=
  if month = 2 ∧ IsLeap year then 29
  else [-1, 31, 28, 31, 30, 31, 30, 31, 31, 30, 31, 30, 31].getD month 0

def daysBeforeMonth (year : ℤ) (month : ℕ) : ℤ :=
  [-1, 0, 31, 59, 90, 120, 151, 181, 212, 243, 273, 304, 334].getD month 0 +
    if 2 < month ∧ IsLeap year then 1 else 0

def daysBeforeYear (year : ℤ) : ℤ :=
  (year - 1) * 365 + (year - 1) / 4 - (year - 1) / 100 + (year - 1) / 400

structure Date where
  year : ℤ
  month : ℕ
  day : ℤ
  yearOk : 1 ≤ year ∧ year ≤ 9999
  monthOk : 1 ≤ month ∧ month ≤ 12
  dayOk : 1 ≤ day ∧ day ≤ daysInMonth year month

def Date.toOrdinal (d : Date) : ℤ :=
  daysBeforeYear d.year + daysBeforeMonth d.year d.month + d.day

def maxOrdinal : ℤ := 3652059

/- The year of the day that lies `n` days after the first one, and the days before it in
that year: cycles of 400, 100, 4 and 1 years. The last day of a long cycle would be the
first of one more short one. -/
def yearOf (n : ℤ) : ℤ × ℤ :=
  let n400 := n / 146097
  let n100 := n % 146097 / 36524
  let n4 := n % 146097 % 36524 / 1461
  let n1 := n % 146097 % 36524 % 1461 / 365
  let year := n400 * 400 + n100 * 100 + n4 * 4 + n1 + 1
  if n1 = 4 ∨ n100 = 4 then (year - 1, 365) else (year, n % 146097 % 36524 % 1461 % 365)

/- The month and the day of it after `n` days of the year; the estimate is exact or one
too large. -/
def monthOf (year n : ℤ) : ℕ × ℤ :=
  let month := ((n + 50) / 32).toNat
  let preceding := daysBeforeMonth year month
  if preceding > n then (month - 1, n - (preceding - daysInMonth year (month - 1)) + 1)
  else (month, n - preceding + 1)

def daysInYear (year : ℤ) : ℤ := if IsLeap year then 366 else 365

section
variable {a b c d : ℤ} (hb : 0 ≤ b ∧ b ≤ 3) (hc : 0 ≤ c ∧ c ≤ 24) (hd : 0 ≤ d ∧ d ≤ 3)
include hb hc hd

theorem daysBeforeYear_cycles : daysBeforeYear (a * 400 + b * 100 + c * 4 + d + 1) =
    146097 * a + 36524 * b + 1461 * c + 365 * d := by
  have h4 : (a * 400 + b * 100 + c * 4 + d) / 4 = a * 100 + b * 25 + c := by omega
  have h100 : (a * 400 + b * 100 + c * 4 + d) / 100 = a * 4 + b := by omega
  have h400 : (a * 400 + b * 100 + c * 4 + d) / 400 = a := by omega
  rw [daysBeforeYear, Int.add_sub_cancel, h4, h100, h400]
  omega

theorem isLeap_cycles :
    IsLeap (a * 400 + b * 100 + c * 4 + d + 1) ↔ d = 3 ∧ (c ≠ 24 ∨ b = 3) := by
  unfold IsLeap
  omega

end

theorem yearOf_spec (n : ℤ) :
    daysBeforeYear (yearOf n).1 + (yearOf n).2 = n ∧
      0 ≤ (yearOf n).2 ∧ (yearOf n).2 < daysInYear (yearOf n).1 := by
  obtain ⟨a, ha⟩ : ∃ a, n / 146097 = a := ⟨_, rfl⟩
  obtain ⟨b, hb⟩ : ∃ b, n % 146097 / 36524 = b := ⟨_, rfl⟩
  obtain ⟨c, hc⟩ : ∃ c, n % 146097 % 36524 / 1461 = c := ⟨_, rfl⟩
  obtain ⟨d, hd⟩ : ∃ d, n % 146097 % 36524 % 1461 / 365 = d := ⟨_, rfl⟩
  simp only [yearOf, ha, hb, hc, hd]
  split
  · next hlast =>
    rcases hlast with hd4 | hb4
    · -- The last day of four years.
      have hyear : a * 400 + b * 100 + c * 4 + d + 1 - 1 =
          a * 400 + b * 100 + c * 4 + 3 + 1 := by omega
      have hleap : IsLeap (a * 400 + b * 100 + c * 4 + 3 + 1) :=
        (isLeap_cycles (by omega) (by omega) (by omega)).mpr (by omega)
      rw [hyear, daysBeforeYear_cycles (by omega) (by omega) (by omega), daysInYear, if_pos hleap]
      omega
    · -- The last day of 400 years.
      have hyear : a * 400 + b * 100 + c * 4 + d + 1 - 1 =
          a * 400 + 3 * 100 + 24 * 4 + 3 + 1 := by omega
      have hleap : IsLeap (a * 400 + 3 * 100 + 24 * 4 + 3 + 1) :=
        (isLeap_cycles (by omega) (by omega) (by omega)).mpr (by omega)
      rw [hyear, daysBeforeYear_cycles (by omega) (by omega) (by omega), daysInYear, if_pos hleap]
      omega
  · next hshort =>
    rw [daysBeforeYear_cycles (by omega) (by omega) (by omega)]
    unfold daysInYear
    split <;> omega

/- Months follow each other. -/
theorem daysBeforeMonth_next (year : ℤ) {month : ℕ} (h : 1 ≤ month ∧ month ≤ 11) :
    daysBeforeMonth year month + daysInMonth year month = daysBeforeMonth year (month + 1) := by
  obtain ⟨hlow, hhigh⟩ := h
  unfold daysBeforeMonth daysInMonth
  by_cases hleap : IsLeap year
  · interval_cases month <;> simp [hleap]
  · interval_cases month <;> simp [hleap]

theorem december_ends (year : ℤ) :
    daysBeforeMonth year 12 + daysInMonth year 12 = daysInYear year := by
  unfold daysBeforeMonth daysInMonth daysInYear
  by_cases hleap : IsLeap year <;> simp [hleap]

/- Counting 32 days to a month errs by one month at the most. -/
theorem daysBeforeMonth_estimate (year : ℤ) {month : ℕ} (h : 1 ≤ month ∧ month ≤ 12) :
    32 * (month : ℤ) - 50 ≤ daysBeforeMonth year month ∧
      daysBeforeMonth year month ≤ 32 * month - 18 := by
  obtain ⟨hlow, hhigh⟩ := h
  unfold daysBeforeMonth
  by_cases hleap : IsLeap year
  · interval_cases month <;> simp [hleap]
  · interval_cases month <;> simp [hleap]

theorem monthOf_spec {year n : ℤ} (hn : 0 ≤ n ∧ n < daysInYear year) :
    (1 ≤ (monthOf year n).1 ∧ (monthOf year n).1 ≤ 12) ∧
    (1 ≤ (monthOf year n).2 ∧ (monthOf year n).2 ≤ daysInMonth year (monthOf year n).1) ∧
    daysBeforeMonth year (monthOf year n).1 + (monthOf year n).2 = n + 1 := by
  have hyear : daysInYear year ≤ 366 := by
    unfold daysInYear
    split <;> omega
  obtain ⟨m, hm⟩ : ∃ m : ℕ, ((n + 50) / 32).toNat = m := ⟨_, rfl⟩
  obtain ⟨hm1, hm12⟩ : 1 ≤ m ∧ m ≤ 12 := by omega
  simp only [monthOf, hm]
  split
  · next hlarge =>
    -- The estimate is one too large, and the month before it holds the day.
    have hjanuary : daysBeforeMonth year 1 = 0 := by simp [daysBeforeMonth]
    have hm2 : m ≠ 1 := by
      rintro rfl
      omega
    obtain ⟨k, rfl⟩ : ∃ k, m = k + 1 := ⟨m - 1, by omega⟩
    have hnext := daysBeforeMonth_next year (by omega : 1 ≤ k ∧ k ≤ 11)
    have hbefore := daysBeforeMonth_estimate year (by omega : 1 ≤ k ∧ k ≤ 12)
    dsimp only
    rw [Nat.add_sub_cancel]
    omega
  · next hexact =>
    have hend : n < daysBeforeMonth year m + daysInMonth year m := by
      rcases Nat.lt_or_ge m 12 with hlt | hge
      · have hafter := daysBeforeMonth_estimate year (by omega : 1 ≤ m + 1 ∧ m + 1 ≤ 12)
        rw [daysBeforeMonth_next year (by omega)]
        omega
      · obtain rfl : m = 12 := by omega
        rw [december_ends]
        exact hn.2
    dsimp only
    omega

/- A month ends within its year. -/
theorem daysBeforeMonth_le (year : ℤ) {month : ℕ} (h : 1 ≤ month ∧ month ≤ 12) :
    0 ≤ daysBeforeMonth year month ∧
      daysBeforeMonth year month + daysInMonth year month ≤ daysInYear year := by
  obtain ⟨hlow, hhigh⟩ := h
  unfold daysBeforeMonth daysInMonth daysInYear
  by_cases hleap : IsLeap year
  · interval_cases month <;> simp [hleap]
  · interval_cases month <;> simp [hleap]

/- The years 1 to 9999 have the ordinals 1 to `maxOrdinal`. -/
theorem year_iff {year n : ℤ} (hn : 0 ≤ n ∧ n < daysInYear year) :
    (1 ≤ year ∧ year ≤ 9999) ↔
      1 ≤ daysBeforeYear year + n + 1 ∧ daysBeforeYear year + n + 1 ≤ maxOrdinal := by
  unfold daysInYear at hn
  unfold daysBeforeYear maxOrdinal
  split at hn
  · next hleap =>
    unfold IsLeap at hleap
    omega
  · next hcommon =>
    unfold IsLeap at hcommon
    omega

namespace Date

def ofOrdinal (n : ℤ) (h : 1 ≤ n ∧ n ≤ maxOrdinal) : Date where
  year := (yearOf (n - 1)).1
  month := (monthOf (yearOf (n - 1)).1 (yearOf (n - 1)).2).1
  day := (monthOf (yearOf (n - 1)).1 (yearOf (n - 1)).2).2
  yearOk := by
    obtain ⟨hn, hrest⟩ := yearOf_spec (n - 1)
    rw [year_iff hrest, hn]
    omega
  monthOk := (monthOf_spec (yearOf_spec (n - 1)).2).1
  dayOk := (monthOf_spec (yearOf_spec (n - 1)).2).2.1

theorem toOrdinal_ofOrdinal (n : ℤ) (h : 1 ≤ n ∧ n ≤ maxOrdinal) :
    (ofOrdinal n h).toOrdinal = n := by
  obtain ⟨hn, hrest⟩ := yearOf_spec (n - 1)
  have hday := (monthOf_spec hrest).2.2
  unfold toOrdinal ofOrdinal
  dsimp only
  omega

theorem toOrdinal_bounds (d : Date) : 1 ≤ d.toOrdinal ∧ d.toOrdinal ≤ maxOrdinal := by
  obtain ⟨hbefore, hlength⟩ := daysBeforeMonth_le d.year d.monthOk
  obtain ⟨hfirst, hlast⟩ := d.dayOk
  have hn : 0 ≤ daysBeforeMonth d.year d.month + d.day - 1 ∧
      daysBeforeMonth d.year d.month + d.day - 1 < daysInYear d.year := by omega
  have hyear := (year_iff hn).mp d.yearOk
  unfold toOrdinal
  omega

end Date

/-! ### Times of day -/

structure DateTime where
  date : Date
  hour : ℤ
  minute : ℤ
  second : ℤ
  microsecond : ℤ
  hourOk : 0 ≤ hour ∧ hour < 24
  minuteOk : 0 ≤ minute ∧ minute < 60
  secondOk : 0 ≤ second ∧ second < 60
  microsecondOk : 0 ≤ microsecond ∧ microsecond < 1000000

/-- The ordinal of the first of January 1970. -/
def epochOrdinal : ℤ := 719163

/- The first and the last instant of the years 1 to 9999. -/
def minInstant : ℤ := (1 - epochOrdinal) * 86400000000
def maxInstant : ℤ := (maxOrdinal + 1 - epochOrdinal) * 86400000000 - 1

namespace DateTime

/- Of a datetime in UTC. -/
def instant (d : DateTime) : ℤ :=
  ((((d.date.toOrdinal - epochOrdinal) * 24 + d.hour) * 60 + d.minute) * 60 + d.second) *
    1000000 + d.microsecond

/- The datetime of an instant in UTC; `none` is the OverflowError. -/
def ofInstant (t : ℤ) : Option DateTime :=
  if h : 1 ≤ t / 86400000000 + epochOrdinal ∧ t / 86400000000 + epochOrdinal ≤ maxOrdinal then
    some {
      date := Date.ofOrdinal (t / 86400000000 + epochOrdinal) h
      hour := t % 86400000000 / 3600000000
      minute := t % 3600000000 / 60000000
      second := t % 60000000 / 1000000
      microsecond := t % 1000000
      hourOk := by omega
      minuteOk := by omega
      secondOk := by omega
      microsecondOk := by omega }
  else none

/-- `d + timedelta(microseconds=delta)`. -/
def add (d : DateTime) (delta : ℤ) : Option DateTime := ofInstant (d.instant + delta)

/- An instant of the years 1 to 9999 has a datetime, an earlier one has none. -/
theorem ofInstant_some {t : ℤ} (h : minInstant ≤ t ∧ t ≤ maxInstant) :
    ∃ d, ofInstant t = some d ∧ d.instant = t := by
  unfold minInstant maxInstant at h
  have hday : 1 ≤ t / 86400000000 + epochOrdinal ∧
      t / 86400000000 + epochOrdinal ≤ maxOrdinal := by omega
  refine ⟨_, dif_pos hday, ?_⟩
  unfold instant
  rw [Date.toOrdinal_ofOrdinal]
  dsimp only
  omega

theorem ofInstant_none {t : ℤ} (h : t < minInstant) : ofInstant t = none := by
  unfold minInstant at h
  exact dif_neg (by omega)

theorem fieldsOk (d : DateTime) : (0 ≤ d.hour ∧ d.hour < 24) ∧ (0 ≤ d.minute ∧ d.minute < 60) ∧
    (0 ≤ d.second ∧ d.second < 60) ∧ 0 ≤ d.microsecond ∧ d.microsecond < 1000000 :=
  ⟨d.hourOk, d.minuteOk, d.secondOk, d.microsecondOk⟩

theorem instant_bounds (d : DateTime) : minInstant ≤ d.instant ∧ d.instant ≤ maxInstant := by
  obtain ⟨hfirst, hlast⟩ := d.date.toOrdinal_bounds
  have hfields := d.fieldsOk
  unfold instant minInstant maxInstant
  omega

/- The fields are those the clock shows. -/
theorem hour_eq (d : DateTime) : d.hour = d.instant / 3600000000 % 24 := by
  have hfields := d.fieldsOk
  unfold instant
  omega

theorem minute_eq (d : DateTime) : d.minute = d.instant / 60000000 % 60 := by
  have hfields := d.fieldsOk
  unfold instant
  omega

/-- `d.replace(hour=hour, minute=minute, second=0, microsecond=0)`. -/
def replaceTime (d : DateTime) (hour minute : ℤ) (hh : 0 ≤ hour ∧ hour < 24)
    (hm : 0 ≤ minute ∧ minute < 60) : DateTime :=
  { d with
    hour, minute, second := 0, microsecond := 0
    hourOk := hh, minuteOk := hm, secondOk := by decide, microsecondOk := by decide }

theorem instant_replaceTime (d : DateTime) {hour minute : ℤ} (hh : 0 ≤ hour ∧ hour < 24)
    (hm : 0 ≤ minute ∧ minute < 60) : (d.replaceTime hour minute hh hm).instant =
      d.instant / 86400000000 * 86400000000 + hour * 3600000000 + minute * 60000000 := by
  have hfields := d.fieldsOk
  unfold replaceTime instant
  dsimp only
  omega

end DateTime

end Calendar
