import PulseWatch.Lib.PyDatetime
import PulseWatch.Models

/-!
# The windows of the CSV exports

Four handlers take a window from the query. The two exports of metrics share a
validator; the exports of logs and of alert events compute their windows by themselves,
with defaults taken from the clock. What is streamed is read between two bounds the
database driver takes from the two datetimes.
-/

namespace PulseWatch.Exports
open PyDatetime Datetime

inductive Granularity where
  | raw
  | fivemin
  | hourly
  | daily
  deriving DecidableEq, Repr

def Granularity.value : Granularity → String
  | .raw => "raw"
  | .fivemin => "fivemin"
  | .hourly => "hourly"
  | .daily => "daily"

def days (n : ℤ) : ℤ := minutes (n * 24 * 60)

/-- `_EXPORT_LIMITS`. -/
def exportLimits : Granularity → ℤ
  | .raw => days 1
  | .fivemin => days 7
  | .hourly => days 30
  | .daily => days 365

/- The SELECT of an export. -/
inductive Table where
  | metrics
  | metricAggregates (period : PeriodType)
  | dockerMetrics
  | dockerAggregates (period : PeriodType)
  | logs
  | alertEvents
  deriving DecidableEq, Repr

/-- `_GRANULARITY_TO_PERIOD`, and the branch on `raw` before it. -/
def tableOf (raw : Table) (aggregates : PeriodType → Table) : Granularity → Table
  | .raw => raw
  | .fivemin => aggregates .fivemin
  | .hourly => aggregates .hourly
  | .daily => aggregates .daily

/- `raised` is an exception no handler turns into an answer. -/
inductive Answer where
  | badRequest (detail : String)
  | notFound
  | streamed (table : Table) (start stop : Instant)
  | raised
  deriving DecidableEq, Repr

inductive Fault where
  | badRequest (detail : String)
  | python (error : PyError)
  deriving DecidableEq, Repr

def Fault.answer : Fault → Answer
  | .badRequest detail => .badRequest detail
  | .python _ => .raised

/- The encoder of `timestamptz` parameters: `none` is its exception. An aware datetime is
taken to UTC by `astimezone`; what becomes of a naive one is up to the process. -/
structure Driver where
  bind : Datetime → Option Instant
  bind_aware : ∀ d, d.aware = true → bind d = if InRange d.utc then some d.utc else none

/- Both bounds are parameters of the SELECT. -/
def stream (driver : Driver) (table : Table) (start stop : Datetime) : Answer :=
  match driver.bind start, driver.bind stop with
  | some first, some last => .streamed table first last
  | _, _ => .raised

/-- `_normalize_utc`. -/
def normalizeUtc (d : Datetime) : Datetime := if d.aware then d else d.replaceUtc

/-- `_validate_export_range`. -/
def validateExportRange (start stop : Datetime) (granularity : Granularity) :
    Except Fault (Datetime × Datetime) := do
  let start := normalizeUtc start
  let stop := normalizeUtc stop
  if ← (stop.le start).mapError .python then
    throw (.badRequest "end должен быть позже start")
  let maxRange := exportLimits granularity
  if (← (stop.sub start).mapError .python) > maxRange then
    -- every limit is a day or more
    throw (.badRequest
      s!"Период для granularity={granularity.value} максимум {maxRange / days 1} дней")
  return (start, stop)

/- The body of the two exports of metrics. -/
def exportMetrics (table : Granularity → Table) (driver : Driver) (owned : Bool)
    (start stop : Datetime) (granularity : Granularity) : Answer :=
  match validateExportRange start stop granularity with
  | .error fault => fault.answer
  | .ok (start, stop) =>
    if owned then stream driver (table granularity) start stop else .notFound

def exportSystemMetrics : Driver → Bool → Datetime → Datetime → Granularity → Answer :=
  exportMetrics (tableOf .metrics .metricAggregates)

def exportDockerMetrics : Driver → Bool → Datetime → Datetime → Granularity → Answer :=
  exportMetrics (tableOf .dockerMetrics .dockerAggregates)

/- The window of the other two: `end` is now by default and `start` some time before it. -/
def defaultedWindow (default limit : ℤ) (detail : String) (now : {t : ℤ // InRange t})
    (start stop : Option Datetime) : Except Fault (Datetime × Datetime) := do
  let stop := stop.getD (nowUtc now)
  let start ← match start with
    | some start => pure start
    | none => (stop.subDelta default).mapError .python
  if (← (stop.sub start).mapError .python) > limit then
    throw (.badRequest detail)
  return (start, stop)

def exportDefaulted (table : Table) (default limit : ℤ) (detail : String) (driver : Driver)
    (now : {t : ℤ // InRange t}) (start stop : Option Datetime) : Answer :=
  match defaultedWindow default limit detail now start stop with
  | .error fault => fault.answer
  | .ok (start, stop) => stream driver table start stop

def exportLogs (driver : Driver) (owned : Bool) (now : {t : ℤ // InRange t})
    (start stop : Option Datetime) : Answer :=
  if owned then
    exportDefaulted .logs (days 1) (days 7) "Период не должен превышать 7 дней" driver now
      start stop
  else .notFound

def exportAlertEvents : Driver → {t : ℤ // InRange t} → Option Datetime → Option Datetime →
    Answer :=
  exportDefaulted .alertEvents (days 7) (days 90) "Период не должен превышать 90 дней"

/-! ### The rule -/

/- Of two instants: a naive datetime is one in UTC. -/
inductive Verdict where
  | rejected
  | accepted (start stop : Instant)
  deriving DecidableEq, Repr

def windowRule (limit : ℤ) (start stop : Instant) : Verdict :=
  if stop ≤ start ∨ limit < stop - start then .rejected else .accepted start stop

def defaultedRule (default limit : ℤ) (now : {t : ℤ // InRange t})
    (start stop : Option Datetime) : Verdict :=
  let stop := (stop.getD (nowUtc now)).utc
  windowRule limit ((start.map utc).getD (stop - default)) stop

/- Rejected with 400, or streamed between the two instants. -/
def Follows (table : Table) (a : Answer) : Verdict → Prop
  | .rejected => ∃ detail, a = .badRequest detail
  | .accepted start stop => a = .streamed table start stop

/- The driver takes the datetime for the instant it means. -/
def Read (driver : Driver) (d : Datetime) : Prop := driver.bind d = some d.utc

/- The window is to be rejected, or its bounds can be shown in UTC. -/
def ShownInUtc (limit : ℤ) (start stop : Datetime) : Prop :=
  stop.utc ≤ start.utc ∨ limit < stop.utc - start.utc ∨ (InRange start.utc ∧ InRange stop.utc)

/- Both bounds are naive or both are aware, and the window is too long, or it is not
reversed and the driver reads the bounds; a default start is one Python can compute. -/
def OneKind (driver : Driver) (default limit : ℤ) (now : {t : ℤ // InRange t})
    (start stop : Option Datetime) : Prop :=
  let stop := stop.getD (nowUtc now)
  match start with
  | some start => start.aware = stop.aware ∧ (limit < stop.utc - start.utc ∨
      (start.utc < stop.utc ∧ Read driver start ∧ Read driver stop))
  | none => ∃ start, stop.subDelta default = .ok start ∧ Read driver start ∧ Read driver stop

section
variable {driver : Driver} {table : Table} {start stop d : Datetime}

theorem aware_normalizeUtc (d : Datetime) : (normalizeUtc d).aware = true := by
  unfold normalizeUtc
  split
  · assumption
  · rfl

theorem utc_normalizeUtc (d : Datetime) : (normalizeUtc d).utc = d.utc := by
  unfold normalizeUtc
  split
  · rfl
  · next h => rw [utc_replaceUtc, utc_naive (by simpa using h)]

theorem read_aware (h : d.aware = true) : Read driver d ↔ InRange d.utc := by
  rw [Read, driver.bind_aware d h]
  by_cases hrange : InRange d.utc <;> simp [hrange]

theorem read_normalizeUtc (d : Datetime) : Read driver (normalizeUtc d) ↔ InRange d.utc := by
  rw [read_aware (aware_normalizeUtc d), utc_normalizeUtc]

theorem stream_follows :
    stream driver table start stop = .streamed table start.utc stop.utc ↔
      Read driver start ∧ Read driver stop := by
  unfold stream Read
  cases driver.bind start <;> cases driver.bind stop <;> simp

/- An answer other than 400 is no rejection. -/
theorem stream_rejects : ¬ Follows table (stream driver table start stop) .rejected := by
  rintro ⟨detail, h⟩
  unfold stream at h
  split at h <;> cases h

theorem raised_follows (v : Verdict) : ¬ Follows table .raised v := by
  cases v with
  | rejected => exact fun ⟨_, h⟩ => by cases h
  | accepted first last => exact fun h => by cases h

/-! ### The exports of metrics -/

/- The validator decides by the rule. -/
theorem validateExportRange_eq (start stop : Datetime) (g : Granularity) :
    (windowRule (exportLimits g) start.utc stop.utc = .rejected ∧
      ∃ detail, validateExportRange start stop g = .error (.badRequest detail)) ∨
    (windowRule (exportLimits g) start.utc stop.utc = .accepted start.utc stop.utc ∧
      validateExportRange start stop g = .ok (normalizeUtc start, normalizeUtc stop)) := by
  unfold validateExportRange windowRule
  simp only [le_eq, sub_eq, aware_normalizeUtc, utc_normalizeUtc, if_true, Except.mapError,
    bind, Except.bind, decide_eq_true_eq, gt_iff_lt]
  by_cases horder : stop.utc ≤ start.utc
  · refine Or.inl ⟨if_pos (Or.inl horder), ?_⟩
    rw [if_pos horder]
    exact ⟨_, rfl⟩
  · rw [if_neg horder]
    by_cases hlong : exportLimits g < stop.utc - start.utc
    · refine Or.inl ⟨if_pos (Or.inr hlong), ?_⟩
      rw [if_pos hlong]
      exact ⟨_, rfl⟩
    · refine Or.inr ⟨if_neg (not_or.mpr ⟨horder, hlong⟩), ?_⟩
      rw [if_neg hlong]
      rfl

theorem exportMetrics_follows_iff (table : Granularity → Table) (driver : Driver)
    (start stop : Datetime) (g : Granularity) :
    Follows (table g) (exportMetrics table driver true start stop g)
        (windowRule (exportLimits g) start.utc stop.utc) ↔
      ShownInUtc (exportLimits g) start stop := by
  unfold exportMetrics ShownInUtc
  rcases validateExportRange_eq start stop g with ⟨hrule, detail, hv⟩ | ⟨hrule, hv⟩
  · have hrejected : stop.utc ≤ start.utc ∨ exportLimits g < stop.utc - start.utc := by
      by_contra hn
      rw [windowRule, if_neg hn] at hrule
      cases hrule
    rw [hrule, hv]
    refine iff_of_true ⟨detail, rfl⟩ ?_
    rw [← or_assoc]
    exact Or.inl hrejected
  · have haccepted : ¬ (stop.utc ≤ start.utc ∨ exportLimits g < stop.utc - start.utc) := by
      intro hr
      rw [windowRule, if_pos hr] at hrule
      cases hrule
    have hread : ∀ d, Read driver (normalizeUtc d) ↔ InRange d.utc := fun d => read_normalizeUtc d
    have hstream := @stream_follows driver (table g) (normalizeUtc start) (normalizeUtc stop)
    rw [utc_normalizeUtc, utc_normalizeUtc, hread, hread] at hstream
    rw [hrule, hv, ← or_assoc, or_iff_right haccepted]
    exact hstream

/-! ### The exports of logs and events -/

theorem exportDefaulted_given {default limit : ℤ} {detail : String} {now : {t : ℤ // InRange t}}
    {last : Option Datetime} (hstop : stop = last.getD (nowUtc now)) :
    exportDefaulted table default limit detail driver now (some start) last =
      if start.aware = stop.aware then
        if limit < stop.utc - start.utc then .badRequest detail
        else stream driver table start stop
      else .raised := by
  unfold exportDefaulted defaultedWindow
  rw [← hstop]
  simp only [bind, Except.bind, pure, Except.pure, sub_eq, gt_iff_lt]
  by_cases hkind : stop.aware = start.aware
  · rw [if_pos hkind, if_pos hkind.symm]
    by_cases hlong : limit < stop.utc - start.utc
    · rw [if_pos hlong]
      simp only [Except.mapError, if_pos hlong]
      rfl
    · rw [if_neg hlong]
      simp only [Except.mapError, if_neg hlong]
  · rw [if_neg hkind, if_neg (Ne.symm hkind)]
    rfl

/- Without `start` it is some time before `end`, or Python raises. -/
theorem exportDefaulted_default {default limit : ℤ} {detail : String}
    {now : {t : ℤ // InRange t}} {last : Option Datetime} (h : default ≤ limit)
    (hstop : stop = last.getD (nowUtc now)) :
    exportDefaulted table default limit detail driver now none last =
      match stop.subDelta default with
      | .ok start => stream driver table start stop
      | .error _ => .raised := by
  unfold exportDefaulted defaultedWindow
  rw [← hstop]
  cases hdelta : stop.subDelta default with
  | error e => simp [bind, Except.bind, Except.mapError, hdelta, Fault.answer]
  | ok start =>
    obtain ⟨haware, hutc⟩ := subDelta_ok hdelta
    have hlength : stop.utc - start.utc = default := by omega
    simp only [bind, Except.bind, pure, Except.pure, Except.mapError, hdelta, sub_eq, haware,
      hlength, if_true, gt_iff_lt, if_neg (not_lt.mpr h)]

theorem exportDefaulted_follows_iff {default limit : ℤ} (table : Table) (detail : String)
    (driver : Driver) (now : {t : ℤ // InRange t}) (start stop : Option Datetime)
    (hpos : 0 < default) (h : default ≤ limit) :
    Follows table (exportDefaulted table default limit detail driver now start stop)
        (defaultedRule default limit now start stop) ↔
      OneKind driver default limit now start stop := by
  unfold defaultedRule OneKind
  obtain ⟨last, hlast⟩ : ∃ last, last = stop.getD (nowUtc now) := ⟨_, rfl⟩
  cases start with
  | none =>
    rw [exportDefaulted_default h hlast, ← hlast]
    have hrule : windowRule limit (last.utc - default) last.utc =
        .accepted (last.utc - default) last.utc := by
      rw [windowRule, sub_sub_cancel]
      exact if_neg (not_or.mpr ⟨not_le.mpr (sub_lt_self _ hpos), not_lt.mpr h⟩)
    simp only [Option.map_none, Option.getD_none, hrule]
    cases hdelta : last.subDelta default with
    | error e => simp [raised_follows]
    | ok first =>
      simp only [Except.ok.injEq, exists_eq_left']
      rw [← (subDelta_ok hdelta).2]
      exact stream_follows
  | some first =>
    rw [exportDefaulted_given hlast, ← hlast]
    simp only [Option.map_some, Option.getD_some]
    by_cases hkind : first.aware = last.aware
    · rw [if_pos hkind]
      by_cases hlong : limit < last.utc - first.utc
      · rw [if_pos hlong, windowRule, if_pos (Or.inr hlong)]
        exact iff_of_true ⟨detail, rfl⟩ ⟨hkind, Or.inl hlong⟩
      · rw [if_neg hlong]
        by_cases horder : last.utc ≤ first.utc
        · rw [windowRule, if_pos (Or.inl horder)]
          refine iff_of_false stream_rejects ?_
          rintro ⟨-, hlong' | ⟨hlt, -⟩⟩
          · exact hlong hlong'
          · omega
        · rw [windowRule, if_neg (not_or.mpr ⟨horder, hlong⟩)]
          refine stream_follows.trans ⟨fun hread => ⟨hkind, Or.inr ⟨by omega, hread⟩⟩, ?_⟩
          rintro ⟨-, hlong' | ⟨-, hread⟩⟩
          · exact absurd hlong' hlong
          · exact hread
    · rw [if_neg hkind]
      exact iff_of_false (raised_follows _) fun hok => hkind hok.1

end

/-- The four exports follow the rule exactly so: the validated ones unless an accepted bound
lies outside the years of a datetime once taken to UTC; the other two when both bounds are
of one kind, the window is not reversed and the driver reads its bounds. -/
theorem window_rule_iff (driver : Driver) :
    (∀ start stop g,
      (Follows (tableOf .metrics .metricAggregates g)
          (exportSystemMetrics driver true start stop g)
          (windowRule (exportLimits g) start.utc stop.utc) ↔
        ShownInUtc (exportLimits g) start stop) ∧
      (Follows (tableOf .dockerMetrics .dockerAggregates g)
          (exportDockerMetrics driver true start stop g)
          (windowRule (exportLimits g) start.utc stop.utc) ↔
        ShownInUtc (exportLimits g) start stop)) ∧
    (∀ now start stop,
      (Follows .logs (exportLogs driver true now start stop)
          (defaultedRule (days 1) (days 7) now start stop) ↔
        OneKind driver (days 1) (days 7) now start stop) ∧
      (Follows .alertEvents (exportAlertEvents driver now start stop)
          (defaultedRule (days 7) (days 90) now start stop) ↔
        OneKind driver (days 7) (days 90) now start stop)) := by
  refine ⟨fun start stop g => ⟨?_, ?_⟩, fun now start stop => ⟨?_, ?_⟩⟩
  · exact exportMetrics_follows_iff _ driver start stop g
  · exact exportMetrics_follows_iff _ driver start stop g
  · exact exportDefaulted_follows_iff .logs _ driver now start stop (by decide) (by decide)
  · exact exportDefaulted_follows_iff .alertEvents _ driver now start stop (by decide) (by decide)

def utcDriver : Driver where
  bind d := if InRange d.utc then some d.utc else none
  bind_aware _ _ := rfl

/- The first of May 2026, naive and in UTC. -/
def may : Datetime := ⟨1777593600000000, none, by decide, by simp⟩
def mayUtc : Datetime := may.replaceUtc

def epoch : {t : ℤ // InRange t} := ⟨0, by decide⟩
def yearOne : {t : ℤ // InRange t} := ⟨minWall, by decide⟩

/- A `start` without offset and no `end` raises, a reversed window is streamed, and the day
before the year 1 raises. -/
theorem exports_leave_the_rule :
    (exportLogs utcDriver true epoch (some may) none = .raised ∧
      ¬ Follows .logs (exportLogs utcDriver true epoch (some may) none)
        (defaultedRule (days 1) (days 7) epoch (some may) none)) ∧
    (exportAlertEvents utcDriver epoch (some mayUtc) none =
        .streamed .alertEvents 1777593600000000 0 ∧
      ¬ Follows .alertEvents (exportAlertEvents utcDriver epoch (some mayUtc) none)
        (defaultedRule (days 7) (days 90) epoch (some mayUtc) none)) ∧
    exportLogs utcDriver true epoch none (some (nowUtc yearOne)) = .raised := by
  have hstreamed : exportAlertEvents utcDriver epoch (some mayUtc) none =
      .streamed .alertEvents 1777593600000000 0 := by decide
  have hrule : defaultedRule (days 7) (days 90) epoch (some mayUtc) none = .rejected := by decide
  refine ⟨⟨rfl, raised_follows _⟩, ⟨hstreamed, ?_⟩, by decide⟩
  rw [hstreamed, hrule]
  rintro ⟨detail, h⟩
  cases h

end PulseWatch.Exports
