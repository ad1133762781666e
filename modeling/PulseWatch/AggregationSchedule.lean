import PulseWatch.Lib.Windows
import PulseWatch.AggregationIsolation

/-!
# The aggregation tasks over time (`app/tasks/aggregation_tasks.py`)

Beat issues each task once per period; a run takes its window from the clock it
reads itself and aggregates the samples committed by then. There is no record of
the windows done, so a window between two runs can be left out and a sample
committed after the last run of its window is never counted.
-/

namespace PulseWatch.Aggregation
open PgSession

/- `now.minute`, and `now.replace(...)` down to the hour and to the day. -/
def minuteOf (now : Instant) : ℤ := now / minutes 1 % 60
def hourFloor (now : Instant) : Instant := now - now % minutes 60
def dayFloor (now : Instant) : Instant := now - now % minutes 1440

def taskAggregateFivemin (now : Instant) : Period :=
  let minuteFloor := minuteOf now / 5 * 5
  let periodStart := hourFloor now + minutes minuteFloor - minutes 5
  ⟨.fivemin, periodStart, periodStart + minutes 5⟩

def taskAggregateHourly (now : Instant) : Period :=
  let periodStart := hourFloor now - minutes 60
  ⟨.hourly, periodStart, periodStart + minutes 60⟩

def taskAggregateDaily (now : Instant) : Period :=
  let periodStart := dayFloor (now - minutes 1440)
  ⟨.daily, periodStart, periodStart + minutes 1440⟩

def taskPeriod : PeriodType → Instant → Period
  | .fivemin => taskAggregateFivemin
  | .hourly => taskAggregateHourly
  | .daily => taskAggregateDaily

/- The schedules of celery_app.py. -/
def beatSchedule : PeriodType → Instant
  | .fivemin => seconds 300
  | .hourly => seconds 3600
  | .daily => seconds 86400

/- One task as beat issues it: run `k` is due at `phase + k * period` and reads the
clock `delay k` later. -/
structure Beat where
  kind : PeriodType
  phase : Instant
  delay : ℕ → ℤ
  short : ∀ k, 0 ≤ delay k ∧ delay k < beatSchedule kind

namespace Beat

def time (b : Beat) (k : ℕ) : Instant := Windows.time (beatSchedule b.kind) b.phase b.delay k

def period (b : Beat) (k : ℕ) : Period := taskPeriod b.kind (b.time k)

/- The run reads the clock in a later window than the one it is due in. -/
def Late (b : Beat) (k : ℕ) : Prop := Windows.Carried (beatSchedule b.kind) b.phase b.delay k

instance (b : Beat) (k : ℕ) : Decidable (b.Late k) :=
  inferInstanceAs (Decidable (Windows.Carried _ _ _ k))

end Beat

/- Rows with the instant of their commit. `collected_at` is the start of the
transaction, and the server of a sample is a committed row. -/
structure History (α : Type) where
  servers : List (Instant × Server)
  metrics : List (Instant × Metric α)
  dockerMetrics : List (Instant × DockerMetric α)
  started : ∀ m ∈ metrics, m.2.collectedAt ≤ m.1
  owned : ∀ m ∈ metrics, ∃ v ∈ servers, v.2.id = m.2.serverId ∧ v.1 ≤ m.1

def committedBy {A : Type} (now : Instant) (rows : List (Instant × A)) : List A :=
  (rows.filter fun r => r.1 ≤ now).map Prod.snd

def History.raw {α : Type} (h : History α) (now : Instant) : Raw α :=
  ⟨committedBy now h.servers, committedBy now h.metrics, committedBy now h.dockerMetrics⟩

section
variable {α : Type} (e : ℕ → Engine α) (h : History α) (b : Beat) (n serverId : ℕ)

/- The tables after runs `0..k-1`, each on a session of its own. -/
def tablesAfter : ℕ → Tables α
  | 0 => ⟨[], []⟩
  | k + 1 => allTables (e k) (h.raw (b.time k)) (b.period k) (tablesAfter k)

/- The pass of run `k` gets to the server and its aggregation raises nothing. -/
def Completes (k : ℕ) : Prop :=
  serverFault (e k) (h.raw (b.time k)) (b.period k) serverId = none ∧
    (serverId ∈ (h.raw (b.time k)).servers.map Server.id →
      serverId ∈ reached (serverFault (e k) (h.raw (b.time k)) (b.period k))
        ((h.raw (b.time k)).servers.map Server.id))

/- Samples of the server collected from `start` to `stop`, whenever committed. -/
def collected (start stop : Instant) : List (Instant × Metric α) :=
  h.metrics.filter fun m => m.2.serverId = serverId ∧ start ≤ m.2.collectedAt ∧
    m.2.collectedAt < stop

/- The samples between the first and the last aggregated window. -/
def inRange : List (Instant × Metric α) :=
  collected h serverId (b.period 0).periodStart (b.period n).periodEnd

def rowsOver (t : Tables α) (c : Instant) : List (MetricAggregate α) :=
  t.metricAggregates.filter fun r => r.serverId = serverId ∧ r.periodType = b.kind ∧
    r.periodStart ≤ c ∧ c < r.periodEnd

/- Every aligned window from the first to the last run's is some run's. -/
def EveryWindow : Prop :=
  ∀ start, beatSchedule b.kind ∣ start → (b.period 0).periodStart ≤ start →
    start ≤ (b.period n).periodStart → ∃ k ≤ n, (b.period k).periodStart = start

/- Every sample falls into one row, which counts all samples of its window. -/
def EverySample : Prop :=
  ∀ m ∈ inRange h b n serverId,
    ∃ r, rowsOver b serverId (tablesAfter e h b (n + 1)) m.2.collectedAt = [r] ∧
      r.sampleCount = (collected h serverId r.periodStart r.periodEnd).length

/- No run is late after one that is not. -/
def Steady : Prop := ∀ k < n, b.Late (k + 1) → b.Late k

/- Every sample is committed by some run of its window. -/
def InTime : Prop :=
  ∀ m ∈ inRange h b n serverId, ∃ k ≤ n, (b.period k).covers m.2.collectedAt ∧ m.1 ≤ b.time k

end

/-! ### Windows of the tasks -/

theorem beatSchedule_pos (kind : PeriodType) : 0 < beatSchedule kind := by
  cases kind <;> decide

theorem taskPeriod_eq (kind : PeriodType) (now : Instant) :
    taskPeriod kind now = ⟨kind, (Windows.index (beatSchedule kind) now - 1) * beatSchedule kind,
      Windows.index (beatSchedule kind) now * beatSchedule kind⟩ := by
  have hfive : ∀ t : ℤ, t - t % 3600000000 + t / 60000000 % 60 / 5 * 5 * 60 * 1000000 =
      t / 300000000 * 300000000 := by
    intro t
    omega
  cases kind
  · have hstart : hourFloor now + minutes (minuteOf now / 5 * 5) =
        Windows.index (beatSchedule .fivemin) now * beatSchedule .fivemin := hfive now
    simp only [taskPeriod, taskAggregateFivemin, hstart, Int.sub_add_cancel, Int.sub_mul,
      Int.one_mul]
    rfl
  · have hstart : hourFloor now = Windows.index (beatSchedule .hourly) now * beatSchedule .hourly :=
      sub_eq_of_eq_add (Int.ediv_mul_add_emod now (minutes 60)).symm
    simp only [taskPeriod, taskAggregateHourly, hstart, Int.sub_add_cancel, Int.sub_mul,
      Int.one_mul]
    rfl
  · have hday : ∀ t : ℤ, t - 86400000000 - (t - 86400000000) % 86400000000 =
        (t / 86400000000 - 1) * 86400000000 := by
      intro t
      omega
    have hstart : dayFloor (now - minutes 1440) =
        (Windows.index (beatSchedule .daily) now - 1) * beatSchedule .daily := hday now
    have hend : (Windows.index (beatSchedule .daily) now - 1) * beatSchedule .daily +
        minutes 1440 = Windows.index (beatSchedule .daily) now * beatSchedule .daily := by
      rw [Int.sub_mul, Int.one_mul]
      exact Int.sub_add_cancel _ _
    simp only [taskPeriod, taskAggregateDaily, hstart, hend]

namespace Beat
variable (b : Beat)

/-- Number of the window run `k` aggregates. -/
def window (k : ℕ) : ℤ := Windows.index (beatSchedule b.kind) (b.time k) - 1

theorem period_eq (k : ℕ) : b.period k =
    ⟨b.kind, b.window k * beatSchedule b.kind, (b.window k + 1) * beatSchedule b.kind⟩ := by
  rw [period, taskPeriod_eq, window, Int.sub_add_cancel]

theorem window_mono {i k : ℕ} (hik : i ≤ k) : b.window i ≤ b.window k := by
  have hle := Windows.index_time_mono b.phase (beatSchedule_pos b.kind) b.short hik
  unfold window time
  omega

theorem time_mono {i k : ℕ} (hik : i ≤ k) : b.time i ≤ b.time k :=
  Windows.time_mono b.phase (beatSchedule_pos b.kind) b.short hik

theorem covers_iff (k : ℕ) (c : Instant) :
    (b.period k).covers c ↔ Windows.index (beatSchedule b.kind) c = b.window k := by
  rw [period_eq, Windows.index_eq_iff (beatSchedule_pos b.kind)]
  exact Iff.rfl

theorem start_inj {i k : ℕ} (h : (b.period i).periodStart = (b.period k).periodStart) :
    b.period i = b.period k := by
  simp only [period_eq] at h ⊢
  rw [mul_right_cancel₀ (beatSchedule_pos b.kind).ne' h]

theorem everyWindow_iff (n : ℕ) :
    EveryWindow b n ↔ ∀ j, b.window 0 ≤ j → j ≤ b.window n → ∃ k ≤ n, b.window k = j := by
  have hpos := beatSchedule_pos b.kind
  unfold EveryWindow
  simp only [period_eq]
  constructor
  · intro h j hlow hhigh
    obtain ⟨k, hk, hkj⟩ := h (j * beatSchedule b.kind) (Dvd.intro_left _ rfl)
      (mul_le_mul_of_nonneg_right hlow hpos.le) (mul_le_mul_of_nonneg_right hhigh hpos.le)
    exact ⟨k, hk, mul_right_cancel₀ hpos.ne' hkj⟩
  · rintro h start ⟨j, rfl⟩ hlow hhigh
    rw [mul_comm (beatSchedule b.kind) j] at hlow hhigh ⊢
    obtain ⟨k, hk, hkj⟩ := h j (le_of_mul_le_mul_right hlow hpos)
      (le_of_mul_le_mul_right hhigh hpos)
    exact ⟨k, hk, by rw [hkj]⟩

theorem everyWindow_iff_steady (n : ℕ) : EveryWindow b n ↔ Steady b n := by
  have hvisit := Windows.visited_iff b.phase (beatSchedule_pos b.kind) b.short n
  refine (everyWindow_iff b n).trans (Iff.trans ?_ hvisit)
  unfold window time
  constructor
  · intro h j hlow hhigh
    obtain ⟨k, hk, hkj⟩ := h (j - 1) (by omega) (by omega)
    exact ⟨k, hk, by omega⟩
  · intro h j hlow hhigh
    obtain ⟨k, hk, hkj⟩ := h (j + 1) (by omega) (by omega)
    exact ⟨k, hk, by omega⟩

end Beat

/-! ### The rows of one server -/

section
variable {α : Type} (e : ℕ → Engine α) (h : History α) (b : Beat) (serverId : ℕ)

/- The samples run `k` counts for the server. -/
def seen (k : ℕ) : List (Metric α) :=
  systemSamples (h.raw (b.time k)) (b.period k) serverId

def rowsAfter (k : ℕ) : List (MetricAggregate α) :=
  ((tablesAfter e h b k).ofServer serverId).metricAggregates

theorem seen_length (k : ℕ) : (seen h b serverId k).length =
    h.metrics.countP fun m => (m.2.serverId = serverId ∧ (b.period k).covers m.2.collectedAt) ∧
      m.1 ≤ b.time k := by
  unfold seen systemSamples History.raw committedBy
  rw [List.filter_map, List.length_map, List.filter_filter, List.countP_eq_length_filter]
  congr 1
  refine List.filter_congr fun m _ => ?_
  simp

theorem collected_length (p : Period) :
    (collected h serverId p.periodStart p.periodEnd).length =
      h.metrics.countP fun m => m.2.serverId = serverId ∧ p.covers m.2.collectedAt := by
  rw [List.countP_eq_length_filter]
  rfl

/- Later runs of a window see more of it. -/
theorem seen_mono {i k : ℕ} (hik : i ≤ k) (hp : b.period i = b.period k) :
    (seen h b serverId i).length ≤ (seen h b serverId k).length := by
  rw [seen_length, seen_length]
  refine List.countP_mono_left fun m _ hm => ?_
  simp only [decide_eq_true_eq] at hm ⊢
  exact ⟨hp ▸ hm.1, hm.2.trans (b.time_mono hik)⟩

theorem seen_le_collected (k : ℕ) : (seen h b serverId k).length ≤
    (collected h serverId (b.period k).periodStart (b.period k).periodEnd).length := by
  rw [seen_length, collected_length]
  refine List.countP_mono_left fun m _ hm => ?_
  simp only [decide_eq_true_eq] at hm ⊢
  exact hm.1

theorem countP_eq_all {A : Type} {p q : A → Bool} {xs : List A}
    (hpq : ∀ x ∈ xs, p x = true → q x = true)
    (hlen : xs.countP q ≤ xs.countP p) : ∀ x ∈ xs, q x = true → p x = true := by
  induction xs with
  | nil => exact fun x hx => absurd hx List.not_mem_nil
  | cons y ys ih =>
    have htail : ys.countP p ≤ ys.countP q :=
      List.countP_mono_left fun x hx => hpq x (List.mem_cons_of_mem _ hx)
    have hhead := hpq y List.mem_cons_self
    rw [List.countP_cons, List.countP_cons] at hlen
    intro x hx hqx
    rcases List.mem_cons.mp hx with rfl | hx
    · by_contra hp
      rw [if_pos hqx, if_neg hp] at hlen
      omega
    · refine ih (fun z hz => hpq z (List.mem_cons_of_mem _ hz)) ?_ x hx hqx
      split at hlen
      · split at hlen
        · omega
        · omega
      · split at hlen
        · next hq hp => exact absurd (hhead hp) hq
        · omega

/- A run that counts the whole window saw every sample of it committed. -/
theorem seen_all_iff (k : ℕ) : (seen h b serverId k).length =
    (collected h serverId (b.period k).periodStart (b.period k).periodEnd).length ↔
      ∀ m ∈ h.metrics, m.2.serverId = serverId → (b.period k).covers m.2.collectedAt →
        m.1 ≤ b.time k := by
  rw [seen_length, collected_length]
  constructor
  · intro hlen m hm hid hcov
    have hall := countP_eq_all
      (p := fun m => decide ((m.2.serverId = serverId ∧ (b.period k).covers m.2.collectedAt) ∧
        m.1 ≤ b.time k))
      (q := fun m => decide (m.2.serverId = serverId ∧ (b.period k).covers m.2.collectedAt))
      (fun x _ hx => decide_eq_true (of_decide_eq_true hx).1) hlen.ge m hm
      (decide_eq_true ⟨hid, hcov⟩)
    exact (of_decide_eq_true hall).2
  · intro hall
    refine List.countP_congr fun m hm => ?_
    simp only [decide_eq_true_eq]
    exact ⟨fun hx => hx.1, fun hx => ⟨hx, hall m hm hx.1 hx.2⟩⟩

variable {e h b serverId}

theorem rowsAfter_succ {k : ℕ} (hc : Completes e h b serverId k) :
    rowsAfter e h b serverId (k + 1) = KeyedTable.upsertAll metricKey metricMerge
      (metricRows (e k) (h.raw (b.time k)) (b.period k) serverId) (rowsAfter e h b serverId k) := by
  unfold rowsAfter
  rw [tablesAfter, allTables_ofServer hc.1]
  split
  · rfl
  · next hnot =>
    have hnone : serverId ∉ (h.raw (b.time k)).servers.map Server.id := fun hin => hnot (hc.2 hin)
    have hempty : systemSamples (h.raw (b.time k)) (b.period k) serverId = [] := by
      refine List.filter_eq_nil_iff.mpr ?_
      intro m hm hp
      obtain ⟨c, hc', rfl⟩ := List.mem_map.mp hm
      obtain ⟨hcm, hct⟩ := List.mem_filter.mp hc'
      obtain ⟨v, hv, hid, hvt⟩ := h.owned c hcm
      have hs : c.2.serverId = serverId := (of_decide_eq_true hp).1
      refine hnone (List.mem_map.mpr ⟨v.2, ?_, hid.trans hs⟩)
      exact List.mem_map_of_mem (List.mem_filter.mpr
        ⟨hv, decide_eq_true (hvt.trans (of_decide_eq_true hct))⟩)
    rw [metricRows, if_pos hempty]
    rfl

/- What the rows of the server are after the runs before `k`. -/
structure Rows (e : ℕ → Engine α) (h : History α) (b : Beat) (serverId k : ℕ) : Prop where
  keys : ((rowsAfter e h b serverId k).map metricKey).Nodup
  sound : ∀ r ∈ rowsAfter e h b serverId k, ∃ i < k, r.serverId = serverId ∧
    r.periodType = b.kind ∧ r.periodStart = (b.period i).periodStart ∧
    r.periodEnd = (b.period i).periodEnd ∧ r.sampleCount = (seen h b serverId i).length
  complete : ∀ i < k, seen h b serverId i ≠ [] → ∃ r ∈ rowsAfter e h b serverId k,
    r.periodStart = (b.period i).periodStart ∧ (seen h b serverId i).length ≤ r.sampleCount

namespace Rows

theorem zero : Rows e h b serverId 0 where
  keys := List.nodup_nil
  sound := fun _ hr => absurd hr List.not_mem_nil
  complete := fun _ hi => absurd hi (Nat.not_lt_zero _)

/- A run that finds no sample leaves the rows as they are. -/
theorem idle {k : ℕ} (hr : Rows e h b serverId k)
    (hsame : rowsAfter e h b serverId (k + 1) = rowsAfter e h b serverId k)
    (hempty : seen h b serverId k = []) : Rows e h b serverId (k + 1) := by
  refine ⟨hsame ▸ hr.keys, ?_, ?_⟩
  · intro r hm
    rw [hsame] at hm
    obtain ⟨i, hi, hrest⟩ := hr.sound r hm
    exact ⟨i, Nat.lt_succ_of_lt hi, hrest⟩
  · intro i hi hne
    rw [hsame]
    rcases Nat.lt_succ_iff_lt_or_eq.mp hi with hi | rfl
    · exact hr.complete i hi hne
    · exact absurd hempty hne

theorem counting {k : ℕ} (hr : Rows e h b serverId k) {row : MetricAggregate α}
    (hrow : row = metricRow (b.period k) serverId (systemStats (e k) (seen h b serverId k)))
    (hnext : rowsAfter e h b serverId (k + 1) =
      KeyedTable.upsert metricKey metricMerge row (rowsAfter e h b serverId k)) :
    Rows e h b serverId (k + 1) := by
  have hkind : (b.period k).periodType = b.kind := by rw [b.period_eq]
  have hcount : row.sampleCount = (seen h b serverId k).length := by rw [hrow]; rfl
  have hstart : row.periodStart = (b.period k).periodStart := by rw [hrow]; rfl
  have hkey : metricKey row = (serverId, b.kind, (b.period k).periodStart) := by
    rw [hrow, ← hkind]
    rfl
  refine ⟨?_, ?_, ?_⟩
  · rw [hnext]
    exact KeyedTable.keys_upsert metricMerge_key row hr.keys
  · intro r hm
    rw [hnext] at hm
    rcases KeyedTable.mem_upsert hr.keys hm with rfl | ⟨old, hold, hk, rfl⟩ | ⟨hm, -⟩
    · refine ⟨k, Nat.lt_succ_self k, ?_, ?_, hstart, ?_, hcount⟩
      · rw [hrow]
        rfl
      · rw [← hkind, hrow]
        rfl
      · rw [hrow]
        rfl
    · obtain ⟨i, hi, hid, htype, hs, he, -⟩ := hr.sound old hold
      have hsk : old.periodStart = (b.period k).periodStart :=
        (congrArg (fun x => x.2.2) hk).trans hstart
      have hp := b.start_inj (hs.symm.trans hsk)
      exact ⟨k, Nat.lt_succ_self k, hid, htype, hsk, he.trans (congrArg Period.periodEnd hp),
        hcount⟩
    · obtain ⟨i, hi, hrest⟩ := hr.sound r hm
      exact ⟨i, Nat.lt_succ_of_lt hi, hrest⟩
  · -- the row of this window now has this run's count, which is the largest yet
    obtain ⟨new, hnew, hform⟩ := KeyedTable.get?_upsert_self metricMerge_key row
      (rowsAfter e h b serverId k)
    have hmem : new ∈ rowsAfter e h b serverId (k + 1) := hnext ▸ List.mem_of_find?_eq_some hnew
    have hnewkey : metricKey new = metricKey row := by simpa using List.find?_some hnew
    have hnewstart : new.periodStart = (b.period k).periodStart :=
      (congrArg (fun x => x.2.2) hnewkey).trans hstart
    have hnewcount : new.sampleCount = (seen h b serverId k).length := by
      rcases hform with rfl | ⟨old, rfl⟩
      · exact hcount
      · exact hcount
    intro i hi hne
    rcases Nat.lt_succ_iff_lt_or_eq.mp hi with hi | rfl
    · obtain ⟨r, hm, hs, hle⟩ := hr.complete i hi hne
      by_cases hk : metricKey r = metricKey row
      · have hsk : (b.period i).periodStart = (b.period k).periodStart :=
          hs.symm.trans ((congrArg (fun x => x.2.2) hk).trans hstart)
        refine ⟨new, hmem, hnewstart.trans hsk.symm, ?_⟩
        rw [hnewcount]
        exact seen_mono h b serverId hi.le (b.start_inj hsk)
      · exact ⟨r, hnext ▸ KeyedTable.mem_upsert_other hm hk, hs, hle⟩
    · exact ⟨new, hmem, hnewstart, hnewcount.ge⟩

theorem succ {k : ℕ} (hr : Rows e h b serverId k) (hc : Completes e h b serverId k) :
    Rows e h b serverId (k + 1) := by
  have hnext := rowsAfter_succ hc
  by_cases hempty : systemSamples (h.raw (b.time k)) (b.period k) serverId = []
  · refine hr.idle ?_ hempty
    rw [hnext, metricRows, if_pos hempty]
    rfl
  · refine hr.counting rfl ?_
    rw [hnext, metricRows, if_neg hempty]
    rfl

theorem all {n : ℕ} (hc : ∀ k < n, Completes e h b serverId k) : Rows e h b serverId n := by
  induction n with
  | zero => exact zero
  | succ n ih => exact (ih fun k hk => hc k (Nat.lt_succ_of_lt hk)).succ (hc n (Nat.lt_succ_self n))

end Rows

/-! ### Full counts -/

theorem rowsOver_eq (t : Tables α) (c : Instant) : rowsOver b serverId t c =
    ((t.ofServer serverId).metricAggregates).filter fun r =>
      r.periodType = b.kind ∧ r.periodStart ≤ c ∧ c < r.periodEnd := by
  unfold rowsOver Tables.ofServer
  rw [List.filter_filter]
  refine List.filter_congr fun r _ => ?_
  by_cases hr : r.serverId = serverId <;> simp [hr]

theorem eq_singleton {A : Type} {xs : List A} {x : A} (hn : xs.Nodup) (hx : x ∈ xs)
    (hall : ∀ y ∈ xs, y = x) : xs = [x] := by
  have hrep := List.eq_replicate_of_mem hall
  rw [hrep, List.nodup_replicate] at hn
  have hpos := List.length_pos_of_mem hx
  have hone : xs.length = 1 := by omega
  rw [hrep, hone]
  rfl

namespace Rows
variable {n : ℕ}

/- At most one row lies over an instant. -/
theorem rowsOver_eq_singleton (hr : Rows e h b serverId n) {r : MetricAggregate α} {c : Instant}
    (hm : r ∈ rowsOver b serverId (tablesAfter e h b n) c) :
    rowsOver b serverId (tablesAfter e h b n) c = [r] := by
  rw [rowsOver_eq] at hm ⊢
  have hn : (rowsAfter e h b serverId n).Nodup := List.Nodup.of_map _ hr.keys
  refine eq_singleton (hn.filter _) hm ?_
  have hwindow : ∀ x ∈ ((tablesAfter e h b n).ofServer serverId).metricAggregates.filter
      (fun r => r.periodType = b.kind ∧ r.periodStart ≤ c ∧ c < r.periodEnd),
      x ∈ rowsAfter e h b serverId n ∧ metricKey x = (serverId, b.kind,
        Windows.index (beatSchedule b.kind) c * beatSchedule b.kind) := by
    intro x hx
    obtain ⟨hx, hcov⟩ := List.mem_filter.mp hx
    obtain ⟨-, hlow, hhigh⟩ := of_decide_eq_true hcov
    obtain ⟨i, -, hid, htype, hs, he, -⟩ := hr.sound x hx
    have hi := (b.covers_iff i c).mp ⟨hs ▸ hlow, he ▸ hhigh⟩
    refine ⟨hx, ?_⟩
    rw [metricKey, hid, htype, hs, hi, b.period_eq]
  intro x hx
  obtain ⟨hxm, hxk⟩ := hwindow x hx
  obtain ⟨hrm, hrk⟩ := hwindow r hm
  exact List.inj_on_of_nodup_map hr.keys hxm hrm (hxk.trans hrk.symm)

/- If every sample is there for some run of its window, the last run of the window
counts them all. -/
theorem counted (hr : Rows e h b serverId (n + 1)) (hin : InTime h b n serverId)
    {m : Instant × Metric α} (hm : m ∈ inRange h b n serverId) :
    ∃ r, rowsOver b serverId (tablesAfter e h b (n + 1)) m.2.collectedAt = [r] ∧
      r.sampleCount = (collected h serverId r.periodStart r.periodEnd).length := by
  obtain ⟨hmem, hmr⟩ := List.mem_filter.mp hm
  obtain ⟨hid, -, -⟩ := of_decide_eq_true hmr
  obtain ⟨k, hk, hcov, -⟩ := hin m hm
  let last := Nat.findGreatest (fun i => b.window i = b.window k) n
  have hlast : b.window last = b.window k :=
    Nat.findGreatest_spec (P := fun i => b.window i = b.window k) hk rfl
  have hlastn : last ≤ n := Nat.findGreatest_le n
  have hcovlast : (b.period last).covers m.2.collectedAt := by
    rw [b.covers_iff, hlast, ← b.covers_iff]
    exact hcov
  have hrange : ∀ x ∈ h.metrics, x.2.serverId = serverId →
      (b.period last).covers x.2.collectedAt → x ∈ inRange h b n serverId := by
    intro x hx hxid hxcov
    refine List.mem_filter.mpr ⟨hx, decide_eq_true ⟨hxid, ?_, ?_⟩⟩
    · have hle := mul_le_mul_of_nonneg_right (b.window_mono (Nat.zero_le last))
        (beatSchedule_pos b.kind).le
      have hstart := hxcov.1
      rw [b.period_eq] at hstart ⊢
      exact hle.trans hstart
    · have hle := mul_le_mul_of_nonneg_right (Int.add_le_add_right (b.window_mono hlastn) 1)
        (beatSchedule_pos b.kind).le
      have hend := hxcov.2
      rw [b.period_eq] at hend ⊢
      exact hend.trans_le hle
  have hall : (seen h b serverId last).length =
      (collected h serverId (b.period last).periodStart (b.period last).periodEnd).length := by
    refine (seen_all_iff h b serverId last).mpr ?_
    intro x hx hxid hxcov
    obtain ⟨i, hi, hicov, htime⟩ := hin x (hrange x hx hxid hxcov)
    have hwi : b.window i = b.window k := by
      rw [← hlast, ← (b.covers_iff i _).mp hicov]
      exact (b.covers_iff last _).mp hxcov
    exact htime.trans (b.time_mono (Nat.le_findGreatest hi hwi))
  have hne : seen h b serverId last ≠ [] := by
    intro hempty
    rw [hempty] at hall
    have hin' : m ∈ collected h serverId (b.period last).periodStart (b.period last).periodEnd :=
      List.mem_filter.mpr ⟨hmem, decide_eq_true ⟨hid, hcovlast⟩⟩
    exact absurd hall.symm (List.length_pos_of_mem hin').ne'
  obtain ⟨r, hrm, hstart, hle⟩ := hr.complete last (Nat.lt_succ_of_le hlastn) hne
  obtain ⟨i, -, hrid, htype, hs, he, hcount⟩ := hr.sound r hrm
  have hp := b.start_inj (hs.symm.trans hstart)
  have hend : r.periodEnd = (b.period last).periodEnd := he.trans (congrArg Period.periodEnd hp)
  refine ⟨r, hr.rowsOver_eq_singleton ?_, ?_⟩
  · rw [rowsOver_eq]
    exact List.mem_filter.mpr ⟨hrm, decide_eq_true
      ⟨htype, hstart ▸ hcovlast.1, hend ▸ hcovlast.2⟩⟩
  · have hseen := seen_le_collected h b serverId i
    rw [← hs, ← he] at hseen
    rw [hall, ← hstart, ← hend] at hle
    omega

theorem everySample_iff (hr : Rows e h b serverId (n + 1)) :
    EverySample e h b n serverId ↔ InTime h b n serverId := by
  constructor
  · intro hev m hm
    obtain ⟨r, hover, hcount⟩ := hev m hm
    have hmem : r ∈ rowsOver b serverId (tablesAfter e h b (n + 1)) m.2.collectedAt :=
      hover ▸ List.mem_singleton_self r
    rw [rowsOver_eq] at hmem
    obtain ⟨hrm, hcov⟩ := List.mem_filter.mp hmem
    obtain ⟨-, hlow, hhigh⟩ := of_decide_eq_true hcov
    obtain ⟨i, hi, -, -, hs, he, hseen⟩ := hr.sound r hrm
    rw [hs, he, hseen] at hcount
    obtain ⟨hmm, hid⟩ := List.mem_filter.mp hm
    have hcovi : (b.period i).covers m.2.collectedAt := ⟨hs ▸ hlow, he ▸ hhigh⟩
    exact ⟨i, Nat.le_of_lt_succ hi, hcovi, (seen_all_iff h b serverId i).mp hcount m hmm
      (of_decide_eq_true hid).1 hcovi⟩
  · exact fun hin m hm => hr.counted hin hm

end Rows

/- For a server whose aggregation completes in every run: all windows between the
first and the last one are aggregated and every sample of them is counted in one
full row exactly when no run is late after one that was not and every sample is
committed by some run of its window. -/
theorem covered_iff_steady_in_time (e : ℕ → Engine α) (h : History α) (b : Beat) (n serverId : ℕ)
    (hc : ∀ k ≤ n, Completes e h b serverId k) :
    EveryWindow b n ∧ EverySample e h b n serverId ↔ Steady b n ∧ InTime h b n serverId := by
  have hr : Rows e h b serverId (n + 1) := Rows.all fun k hk => hc k (Nat.le_of_lt_succ hk)
  exact and_congr (b.everyWindow_iff_steady n) hr.everySample_iff

end

/- With an engine that never fails and no containers every pass completes. -/
theorem exact_completes (h : History ℚ) (hd : h.dockerMetrics = []) (b : Beat) (serverId k : ℕ) :
    Completes (fun _ => exact) h b serverId k := by
  have hfault : ∀ id, serverFault exact (h.raw (b.time k)) (b.period k) id = none := by
    intro id
    have hdocker : containerNames exact (h.raw (b.time k)) (b.period k) id = [] := by
      simp [containerNames, dockerSamples, History.raw, committedBy, hd, exact]
    have hnone : ∀ statement, exact.faults statement = none := fun _ => rfl
    simp [serverFault, systemFault, dockerFault, hdocker, hnone]
  refine ⟨hfault serverId, fun hin => ?_⟩
  have hall : reached (serverFault exact (h.raw (b.time k)) (b.period k))
      ((h.raw (b.time k)).servers.map Server.id) = (h.raw (b.time k)).servers.map Server.id := by
    refine List.takeWhile_eq_self_iff.mpr ?_
    intro id _
    rw [hfault id]
    rfl
  rw [hall]
  exact hin

/- One server and one sample, collected and committed at these instants. -/
def oneSample (collectedAt : Instant) (committedAt : {t : Instant // 0 ≤ t ∧ collectedAt ≤ t}) :
    History ℚ where
  servers := [(0, ⟨1, "web", "h1", 1, none, true, none, false⟩)]
  metrics := [(committedAt, ⟨1, 1, 10, 20, 30, collectedAt⟩)]
  dockerMetrics := []
  started := by
    intro m hm
    rw [List.mem_singleton.mp hm]
    exact committedAt.2.2
  owned := by
    intro m hm
    rw [List.mem_singleton.mp hm]
    exact ⟨_, List.mem_singleton_self _, rfl, committedAt.2.1⟩

/- Beat without any delay, started on a boundary. -/
def punctual : Beat := ⟨.fivemin, 0, fun _ => 0, fun _ => by decide⟩

theorem punctual_not_late (k : ℕ) : ¬ punctual.Late k := by
  show ¬ (300000000 : ℤ) ≤ 0
  decide

/- Started one second before a boundary; the second run is a second late. -/
def hurried : Beat :=
  ⟨.fivemin, seconds 299, fun k => if k = 1 then seconds 1 else 0, fun k => by
    split <;> decide⟩

theorem covered_punctually :
    EveryWindow punctual 2 ∧
      EverySample (fun _ => exact) (oneSample (seconds 60) ⟨seconds 61, by decide⟩) punctual
        2 1 := by
  refine (covered_iff_steady_in_time (fun _ => exact)
    (oneSample (seconds 60) ⟨seconds 61, by decide⟩) punctual 2 1
    fun k _ => exact_completes _ rfl punctual 1 k).mpr ⟨?_, ?_⟩
  · exact fun k _ hl => absurd hl (punctual_not_late (k + 1))
  · intro m hm
    rw [List.mem_singleton.mp (List.mem_filter.mp hm).1]
    exact ⟨1, by decide, by decide, by decide⟩

/- Beat started one second before a boundary: with a delay of one second in the
second run a window is left out. On time, a sample committed two seconds after it
was collected misses the run of its window. -/
theorem samples_missed_by_delay_and_commit :
    (¬ EveryWindow hurried 1 ∧
      ¬ EverySample (fun _ => exact) (oneSample (seconds 60) ⟨seconds 61, by decide⟩) hurried 1 1) ∧
    EveryWindow punctual 2 ∧
      ¬ EverySample (fun _ => exact) (oneSample (seconds 299) ⟨seconds 301, by decide⟩)
        punctual 2 1 := by
  have hrows : ∀ h : History ℚ, h.dockerMetrics = [] → ∀ b n, Rows (fun _ => exact) h b 1 (n + 1) :=
    fun h hd b n => Rows.all fun k _ => exact_completes h hd b 1 k
  refine ⟨⟨?_, ?_⟩, ?_, ?_⟩
  · rw [Beat.everyWindow_iff_steady]
    intro h
    exact absurd (h 0 (by decide) (by decide)) (by decide)
  · rw [(hrows _ rfl hurried 1).everySample_iff]
    intro h
    obtain ⟨k, hk, hcov, -⟩ := h _ (List.mem_filter.mpr ⟨List.mem_singleton_self _, by decide⟩)
    have hk' : k = 0 ∨ k = 1 := by omega
    rcases hk' with rfl | rfl
    · exact absurd hcov (by decide)
    · exact absurd hcov (by decide)
  · rw [Beat.everyWindow_iff_steady]
    exact fun k _ hl => absurd hl (punctual_not_late (k + 1))
  · rw [(hrows _ rfl punctual 2).everySample_iff]
    intro h
    obtain ⟨k, hk, hcov, htime⟩ := h _ (List.mem_filter.mpr ⟨List.mem_singleton_self _, by decide⟩)
    have hk' : k = 0 ∨ k = 1 ∨ k = 2 := by omega
    rcases hk' with rfl | rfl | rfl
    · exact absurd hcov (by decide)
    · exact absurd htime (by decide)
    · exact absurd hcov (by decide)

end PulseWatch.Aggregation
