import PulseWatch.AggregationSchedule
import PulseWatch.Lib.Calendar

/-!
# The windows on the calendar (`app/tasks/aggregation_tasks.py`)

The tasks take their windows from the fields of a datetime in UTC: two cut the time of
day and subtract a period from what is left, the daily one subtracts first. On the time
line this is floor division, whatever the fields roll over.
-/

namespace PulseWatch.AggregationTasks
open Calendar

/- `period_start` and `period_end`. -/
structure Window where
  periodStart : DateTime
  periodEnd : DateTime

theorem minuteFloor_ok (now : DateTime) :
    0 ≤ now.minute / 5 * 5 ∧ now.minute / 5 * 5 < 60 := by
  obtain ⟨hlow, hhigh⟩ := now.minuteOk
  omega

theorem zeroMinute_ok : (0 : ℤ) ≤ 0 ∧ (0 : ℤ) < 60 := by omega

theorem zeroHour_ok : (0 : ℤ) ≤ 0 ∧ (0 : ℤ) < 24 := by omega

/- The three `replace` calls. -/
def fiveminFloor (now : DateTime) : DateTime :=
  let minuteFloor := now.minute / 5 * 5
  now.replaceTime now.hour minuteFloor now.hourOk (minuteFloor_ok now)

def hourFloor (now : DateTime) : DateTime := now.replaceTime now.hour 0 now.hourOk zeroMinute_ok

def dayFloor (d : DateTime) : DateTime := d.replaceTime 0 0 zeroHour_ok zeroMinute_ok

def taskAggregateFivemin (now : DateTime) : Option Window := do
  let periodStart ← (fiveminFloor now).add (-minutes 5)
  let periodEnd ← periodStart.add (minutes 5)
  return ⟨periodStart, periodEnd⟩

def taskAggregateHourly (now : DateTime) : Option Window := do
  let periodStart ← (hourFloor now).add (-minutes 60)
  let periodEnd ← periodStart.add (minutes 60)
  return ⟨periodStart, periodEnd⟩

def taskAggregateDaily (now : DateTime) : Option Window := do
  let yesterday ← now.add (-minutes 1440)
  let periodStart := dayFloor yesterday
  let periodEnd ← periodStart.add (minutes 1440)
  return ⟨periodStart, periodEnd⟩

/- The three tasks; `none` is an OverflowError. -/
def taskWindow : PeriodType → DateTime → Option Window
  | .fivemin => taskAggregateFivemin
  | .hourly => taskAggregateHourly
  | .daily => taskAggregateDaily

def Window.period (w : Window) (kind : PeriodType) : Aggregation.Period :=
  ⟨kind, w.periodStart.instant, w.periodEnd.instant⟩

def periodLength : PeriodType → ℤ
  | .fivemin => minutes 5
  | .hourly => minutes 60
  | .daily => minutes 1440

/- A window of this length aligned to it, the last one that is over at `now`. -/
structure Latest (length : ℤ) (w : Window) (now : ℤ) : Prop where
  startAligned : length ∣ w.periodStart.instant
  endAligned : length ∣ w.periodEnd.instant
  whole : w.periodEnd.instant = w.periodStart.instant + length
  ended : w.periodEnd.instant ≤ now
  recent : now < w.periodEnd.instant + length

/- Datetimes are equal when their instants are. -/
def Same (v w : Window) : Prop :=
  v.periodStart.instant = w.periodStart.instant ∧ v.periodEnd.instant = w.periodEnd.instant

def Adjacent (v w : Window) : Prop := v.periodEnd.instant = w.periodStart.instant

theorem periodLength_pos (kind : PeriodType) : 0 < periodLength kind := by
  cases kind <;> decide

/- Beat issues a task once in a period. -/
theorem periodLength_eq (kind : PeriodType) :
    periodLength kind = Aggregation.beatSchedule kind := by
  cases kind <;> rfl

/-! ### Fields and the time line -/

theorem instant_fiveminFloor (now : DateTime) :
    (fiveminFloor now).instant = now.instant / 300000000 * 300000000 := by
  have hhour := now.hour_eq
  have hminute := now.minute_eq
  rw [fiveminFloor, DateTime.instant_replaceTime]
  omega

theorem instant_hourFloor (now : DateTime) :
    (hourFloor now).instant = now.instant / 3600000000 * 3600000000 := by
  have hhour := now.hour_eq
  rw [hourFloor, DateTime.instant_replaceTime]
  omega

theorem instant_dayFloor (d : DateTime) :
    (dayFloor d).instant = d.instant / 86400000000 * 86400000000 := by
  rw [dayFloor, DateTime.instant_replaceTime]
  omega

/- A window that ends where the clock was cut. -/
theorem before_none (cut : DateTime) (length : ℤ) (h : cut.instant + -length < minInstant) :
    (do
      let periodStart ← cut.add (-length)
      let periodEnd ← periodStart.add length
      return Window.mk periodStart periodEnd) = none := by
  have hstart : cut.add (-length) = none := DateTime.ofInstant_none h
  rw [hstart]
  rfl

theorem before_some (cut : DateTime) {length : ℤ} (hpos : 0 ≤ length)
    (h : minInstant ≤ cut.instant + -length) :
    ∃ w, (do
        let periodStart ← cut.add (-length)
        let periodEnd ← periodStart.add length
        return Window.mk periodStart periodEnd) = some w ∧
      w.periodStart.instant = cut.instant - length ∧ w.periodEnd.instant = cut.instant := by
  obtain ⟨hfirst, hlast⟩ := cut.instant_bounds
  obtain ⟨start, hstart, hs⟩ := DateTime.ofInstant_some (t := cut.instant + -length)
    ⟨h, by omega⟩
  obtain ⟨stop, hstop, he⟩ := DateTime.ofInstant_some (t := start.instant + length)
    ⟨by omega, by omega⟩
  have hadd : cut.add (-length) = some start := hstart
  have hback : start.add length = some stop := hstop
  refine ⟨⟨start, stop⟩, ?_, ?_, ?_⟩
  · rw [hadd, Option.bind_eq_bind, Option.bind_some, hback]
    rfl
  · dsimp only
    omega
  · dsimp only
    omega

/- In the first period of year 1 the subtraction overflows. -/
theorem taskWindow_none {kind : PeriodType} {now : DateTime}
    (h : now.instant < minInstant + periodLength kind) : taskWindow kind now = none := by
  cases kind with
  | fivemin =>
    refine before_none (fiveminFloor now) (minutes 5) ?_
    change now.instant < minInstant + 300000000 at h
    show (fiveminFloor now).instant + -300000000 < minInstant
    rw [instant_fiveminFloor]
    omega
  | hourly =>
    refine before_none (hourFloor now) (minutes 60) ?_
    change now.instant < minInstant + 3600000000 at h
    show (hourFloor now).instant + -3600000000 < minInstant
    rw [instant_hourFloor]
    omega
  | daily =>
    have hyesterday : now.add (-minutes 1440) = none := by
      refine DateTime.ofInstant_none ?_
      change now.instant < minInstant + 86400000000 at h
      show now.instant + -86400000000 < minInstant
      omega
    rw [taskWindow, taskAggregateDaily, hyesterday]
    rfl

/- From then on a window is computed, and it is the one of the time line. -/
theorem taskWindow_some {kind : PeriodType} {now : DateTime}
    (h : minInstant + periodLength kind ≤ now.instant) :
    ∃ w, taskWindow kind now = some w ∧
      w.period kind = Aggregation.taskPeriod kind now.instant := by
  have hperiod : ∀ w : Window,
      w.periodEnd.instant = now.instant / periodLength kind *
        periodLength kind →
      w.periodStart.instant = w.periodEnd.instant - periodLength kind →
      w.period kind = Aggregation.taskPeriod kind now.instant := by
    intro w hend hstart
    rw [Aggregation.taskPeriod_eq, ← periodLength_eq, Window.period, hstart, hend, Windows.index,
      Int.sub_mul, Int.one_mul]
  have hfirst : minInstant = -719162 * 86400000000 := rfl
  cases kind with
  | fivemin =>
    change minInstant + 300000000 ≤ now.instant at h
    have hcut := instant_fiveminFloor now
    obtain ⟨w, hw, hstart, hend⟩ := before_some (fiveminFloor now)
      (by decide : 0 ≤ minutes 5) (by show minInstant ≤ _ + -300000000; omega)
    exact ⟨w, hw, hperiod w (hend.trans hcut) (by rw [hstart, hend]; rfl)⟩
  | hourly =>
    change minInstant + 3600000000 ≤ now.instant at h
    have hcut := instant_hourFloor now
    obtain ⟨w, hw, hstart, hend⟩ := before_some (hourFloor now)
      (by decide : 0 ≤ minutes 60) (by show minInstant ≤ _ + -3600000000; omega)
    exact ⟨w, hw, hperiod w (hend.trans hcut) (by rw [hstart, hend]; rfl)⟩
  | daily =>
    change minInstant + 86400000000 ≤ now.instant at h
    obtain ⟨hlow, hhigh⟩ := now.instant_bounds
    obtain ⟨yesterday, hyesterday, hy⟩ := DateTime.ofInstant_some
      (t := now.instant + -86400000000) ⟨by omega, by omega⟩
    have hcut := instant_dayFloor yesterday
    obtain ⟨stop, hstop, he⟩ := DateTime.ofInstant_some
      (t := (dayFloor yesterday).instant + 86400000000) ⟨by omega, by omega⟩
    have hsub : now.add (-minutes 1440) = some yesterday := hyesterday
    have hadd : (dayFloor yesterday).add (minutes 1440) = some stop := hstop
    refine ⟨⟨dayFloor yesterday, stop⟩, ?_, hperiod _ ?_ ?_⟩
    · rw [taskWindow, taskAggregateDaily, hsub, Option.bind_eq_bind, Option.bind_some]
      dsimp only
      rw [hadd]
      rfl
    · show stop.instant = now.instant / 86400000000 * 86400000000
      omega
    · show (dayFloor yesterday).instant = stop.instant - 86400000000
      omega

/-! ### Windows of runs -/

section
variable {kind : PeriodType} {now now' : DateTime} {w w' : Window}

theorem taskWindow_eq (h : taskWindow kind now = some w) :
    w.periodStart.instant =
        (now.instant / periodLength kind - 1) * periodLength kind ∧
      w.periodEnd.instant =
        now.instant / periodLength kind * periodLength kind := by
  by_cases hfirst : now.instant < minInstant + periodLength kind
  · rw [taskWindow_none hfirst] at h
    cases h
  · obtain ⟨v, hv, hperiod⟩ := taskWindow_some (Int.not_lt.mp hfirst)
    obtain rfl := Option.some.inj (hv.symm.trans h)
    rw [Aggregation.taskPeriod_eq, ← periodLength_eq, Window.period,
      Aggregation.Period.mk.injEq] at hperiod
    exact hperiod.2

theorem taskWindow_latest (h : taskWindow kind now = some w) :
    Latest (periodLength kind) w now.instant := by
  obtain ⟨hstart, hend⟩ := taskWindow_eq h
  have hpos := periodLength_pos kind
  have hlow := Int.ediv_mul_le now.instant hpos.ne'
  have hhigh := Int.lt_ediv_add_one_mul_self now.instant hpos
  rw [Int.sub_mul, Int.one_mul] at hstart
  rw [Int.add_mul, Int.one_mul] at hhigh
  refine ⟨?_, ?_, ?_, ?_, ?_⟩
  · exact hstart ▸ Int.dvd_sub (Int.dvd_mul_left _ _) (Int.dvd_refl _)
  · exact hend ▸ Int.dvd_mul_left _ _
  · omega
  · omega
  · omega

/- At most one period later is the same window or the next one. -/
theorem taskWindow_next (h : taskWindow kind now = some w) (h' : taskWindow kind now' = some w')
    (hle : now.instant ≤ now'.instant)
    (hnear : now'.instant ≤ now.instant + periodLength kind) :
    Same w w' ∨ Adjacent w w' := by
  obtain ⟨hstart, hend⟩ := taskWindow_eq h
  obtain ⟨hstart', hend'⟩ := taskWindow_eq h'
  have hpos := periodLength_pos kind
  have hlow := Int.ediv_le_ediv hpos hle
  have hhigh : now'.instant / periodLength kind ≤
      now.instant / periodLength kind + 1 := by
    have hdiv := Int.ediv_le_ediv hpos hnear
    rwa [Int.add_ediv_of_dvd_right (Int.dvd_refl _), Int.ediv_self hpos.ne'] at hdiv
  rcases Int.le_iff_lt_or_eq.mp hhigh with hlt | heq
  · left
    have hsame : now'.instant / periodLength kind =
        now.instant / periodLength kind := by omega
    rw [Same, hstart, hend, hstart', hend', hsame]
    exact ⟨rfl, rfl⟩
  · right
    rw [Adjacent, hend, hstart', heq, Int.add_sub_cancel]

end

/- From the second period of year 1 on every run has the last whole window; two runs at
most a period apart have one window or neighbours. -/
theorem windows_latest (kind : PeriodType) :
    (∀ now : DateTime, if now.instant < minInstant + periodLength kind
      then taskWindow kind now = none
      else ∃ w, taskWindow kind now = some w ∧
        Latest (periodLength kind) w now.instant) ∧
    ∀ now now' w w', taskWindow kind now = some w → taskWindow kind now' = some w' →
      |now'.instant - now.instant| ≤ periodLength kind →
      Same w w' ∨ Adjacent w w' ∨ Adjacent w' w := by
  constructor
  · intro now
    split
    · next hfirst => exact taskWindow_none hfirst
    · next hlater =>
      obtain ⟨w, hw, -⟩ := taskWindow_some (Int.not_lt.mp hlater)
      exact ⟨w, hw, taskWindow_latest hw⟩
  · intro now now' w w' h h' hnear
    rw [abs_le] at hnear
    rcases Int.le_total now.instant now'.instant with hle | hle
    · rcases taskWindow_next h h' hle (by omega) with hsame | hadjacent
      · exact .inl hsame
      · exact .inr (.inl hadjacent)
    · rcases taskWindow_next h' h hle (by omega) with ⟨hstart, hend⟩ | hadjacent
      · exact .inl ⟨hstart.symm, hend.symm⟩
      · exact .inr (.inr hadjacent)

/- Two minutes into 2024, and into the first of March 2024. -/
example : ((DateTime.ofInstant 1704067323000000).bind taskAggregateFivemin).map
      (fun w => (w.periodStart.date.year, w.periodStart.date.month, w.periodStart.date.day,
        w.periodStart.hour, w.periodStart.minute)) = some (2023, 12, 31, 23, 55) ∧
    ((DateTime.ofInstant 1709251323000000).bind taskAggregateDaily).map
      (fun w => (w.periodStart.date.month, w.periodStart.date.day)) = some (2, 29) := by decide

end PulseWatch.AggregationTasks
