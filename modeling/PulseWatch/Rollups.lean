import PulseWatch.Lib.Summaries
import PulseWatch.AggregationSchedule

/-!
# Coarse aggregates from fine ones

The windows of the three tasks nest: twelve of five minutes make an hour, 24 of
an hour make a day. Over exact values the aggregate of a window is then the
combination of those of its parts, empty parts left out. The docker half needs
the container names to fit their column: one that does not takes the aggregates
of the window's other containers with it, and a coarse window has more names.
-/

namespace PulseWatch.Aggregation
open PgSession PgText Summaries

/- Exact rational aggregates, the names in any order, and no statement fails but for
what the tables refuse. -/
structure ExactEngine extends Engine ℚ where
  avg_eq : ∀ xs, avg xs = mean xs
  least_eq : ∀ xs, least xs = xs.min?.getD 0
  greatest_eq : ∀ xs, greatest xs = xs.max?.getD 0
  faults_eq : ∀ s, faults s = none

/- Window number `j` of a kind, as its task computes it. -/
def window (kind : PeriodType) (j : ℤ) : Period := taskPeriod kind ((j + 1) * beatSchedule kind)

inductive Rollup where
  | hourly
  | daily
  deriving DecidableEq, Repr

namespace Rollup

def whole : Rollup → PeriodType
  | .hourly => .hourly
  | .daily => .daily

def part : Rollup → PeriodType
  | .hourly => .fivemin
  | .daily => .hourly

def ratio : Rollup → ℕ
  | .hourly => 12
  | .daily => 24

/- The windows of the finer task inside coarse window `j`. -/
def parts (r : Rollup) (j : ℤ) : List Period :=
  (List.range r.ratio).map fun i : ℕ => window r.part (j * r.ratio + i)

end Rollup

/- Sums of the counts, bounds of the bounds, means weighted by the counts. -/
def combineMetric (parts : List (MetricStats ℚ)) : Option (MetricStats ℚ) :=
  if parts = [] then none
  else some {
    avgCpu := weightedMean (parts.map fun s => (s.sampleCount, s.avgCpu))
    minCpu := (parts.map MetricStats.minCpu).min?.getD 0
    maxCpu := (parts.map MetricStats.maxCpu).max?.getD 0
    avgMemory := weightedMean (parts.map fun s => (s.sampleCount, s.avgMemory))
    minMemory := (parts.map MetricStats.minMemory).min?.getD 0
    maxMemory := (parts.map MetricStats.maxMemory).max?.getD 0
    avgDisk := weightedMean (parts.map fun s => (s.sampleCount, s.avgDisk))
    minDisk := (parts.map MetricStats.minDisk).min?.getD 0
    maxDisk := (parts.map MetricStats.maxDisk).max?.getD 0
    sampleCount := (parts.map MetricStats.sampleCount).sum }

def combineDocker (parts : List (DockerStats ℚ)) : Option (DockerStats ℚ) :=
  if parts = [] then none
  else some {
    avgCpu := weightedMean (parts.map fun s => (s.sampleCount, s.avgCpu))
    minCpu := (parts.map DockerStats.minCpu).min?.getD 0
    maxCpu := (parts.map DockerStats.maxCpu).max?.getD 0
    avgMemoryUsage := weightedMean (parts.map fun s => (s.sampleCount, s.avgMemoryUsage))
    maxMemoryUsage := (parts.map DockerStats.maxMemoryUsage).max?.getD 0
    sampleCount := (parts.map DockerStats.sampleCount).sum }

section
variable {α : Type} (e : Engine α) (raw : Raw α) (t : Tables α) (serverId : ℕ) (p : Period)

/- The aggregates a call returns on a fresh session; none if it returns none or raises. -/
def systemAggregate : Option (MetricStats α) :=
  match ((aggregateSystemMetrics e raw p serverId).run (.fresh t)).1 with
  | .ok agg => agg.map MetricAggregate.toMetricStats
  | .error _ => none

def dockerAggregate (containerName : String) : Option (DockerStats α) :=
  match ((aggregateDockerMetrics e raw p serverId).run (.fresh t)).1 with
  | .ok aggregates => (aggregates.find? fun agg => agg.containerName.val = containerName).map
      DockerAggregate.toDockerStats
  | .error _ => none

/- Every container sampled in the window has a name its column stores as it is. -/
def NamesFit : Prop :=
  ∀ m ∈ dockerSamples raw p serverId, varchar 255 m.containerName = some m.containerName

end

/- Each call has its own engine and finds its own tables. -/
structure RollsUp (e : Period → ExactEngine) (raw : Raw ℚ) (t : Period → Tables ℚ)
    (serverId : ℕ) (whole : Period) (parts : List Period) : Prop where
  system : systemAggregate (e whole).toEngine raw (t whole) serverId whole =
    combineMetric (parts.filterMap fun p => systemAggregate (e p).toEngine raw (t p) serverId p)
  docker : ∀ containerName,
    dockerAggregate (e whole).toEngine raw (t whole) serverId whole containerName =
      combineDocker (parts.filterMap fun p =>
        dockerAggregate (e p).toEngine raw (t p) serverId p containerName)

/-! ### The windows nest -/

theorem window_eq (kind : PeriodType) (j : ℤ) :
    window kind j = ⟨kind, j * beatSchedule kind, (j + 1) * beatSchedule kind⟩ := by
  have hindex : Windows.index (beatSchedule kind) ((j + 1) * beatSchedule kind) = j + 1 :=
    Int.mul_ediv_cancel _ (beatSchedule_pos kind).ne'
  rw [window, taskPeriod_eq, hindex, add_sub_cancel_right]

/- Every run of a task aggregates one of these windows. -/
theorem taskPeriod_window (kind : PeriodType) (now : Instant) :
    taskPeriod kind now = window kind (Windows.index (beatSchedule kind) now - 1) := by
  rw [window_eq, taskPeriod_eq, sub_add_cancel]

theorem window_covers_iff (kind : PeriodType) (j : ℤ) (c : Instant) :
    (window kind j).covers c ↔ Windows.index (beatSchedule kind) c = j := by
  rw [window_eq, Windows.index_eq_iff (beatSchedule_pos kind)]
  exact Iff.rfl

theorem Rollup.schedule (r : Rollup) :
    beatSchedule r.whole = beatSchedule r.part * r.ratio := by
  cases r <;> decide

theorem Rollup.index_whole (r : Rollup) (c : Instant) :
    Windows.index (beatSchedule r.whole) c = Windows.index (beatSchedule r.part) c / r.ratio := by
  rw [Windows.index, Windows.index, r.schedule,
    Int.ediv_ediv_of_nonneg (beatSchedule_pos r.part).le]

theorem Rollup.index_mem_iff (r : Rollup) (j i : ℤ) :
    i / r.ratio = j ↔ i ∈ (List.range r.ratio).map fun k : ℕ => j * r.ratio + k := by
  have hpos : (0 : ℤ) < r.ratio := by cases r <;> decide
  rw [List.mem_map]
  constructor
  · rintro rfl
    have hsplit := Int.ediv_mul_add_emod i r.ratio
    have hlow := Int.emod_nonneg i hpos.ne'
    have hhigh := Int.emod_lt_of_pos i hpos
    exact ⟨(i % r.ratio).toNat, by rw [List.mem_range]; omega, by omega⟩
  · rintro ⟨k, hk, rfl⟩
    rw [List.mem_range] at hk
    rw [add_comm, Int.add_mul_ediv_right _ _ hpos.ne', Int.ediv_eq_zero_of_lt (by omega) (by omega),
      zero_add]

/- The samples of a coarse window are those of its parts. -/
theorem Rollup.groups {A : Type} (r : Rollup) (j : ℤ) (xs : List A) (takenAt : A → Instant) :
    (xs.filter fun x => (window r.whole j).covers (takenAt x)).Perm
      (((r.parts j).map fun p => xs.filter fun x => p.covers (takenAt x)).flatten) := by
  have hnodup : ((List.range r.ratio).map fun k : ℕ => j * (r.ratio : ℤ) + k).Nodup := by
    refine List.nodup_range.map ?_
    intro a b hab
    simp only [add_right_inj, Nat.cast_inj] at hab
    exact hab
  have hgroups := filter_groups_perm
    (fun x => Windows.index (beatSchedule r.part) (takenAt x)) hnodup xs
  rw [List.map_map] at hgroups
  have hwhole : (xs.filter fun x => (window r.whole j).covers (takenAt x)) =
      xs.filter fun x => Windows.index (beatSchedule r.part) (takenAt x) ∈
        (List.range r.ratio).map fun k : ℕ => j * (r.ratio : ℤ) + k := by
    refine List.filter_congr fun x _ => decide_eq_decide.mpr ?_
    rw [window_covers_iff, r.index_whole, r.index_mem_iff]
  rw [hwhole, parts, List.map_map]
  refine hgroups.trans (List.Perm.of_eq (congrArg List.flatten (List.map_congr_left ?_)))
  intro k _
  refine List.filter_congr fun x _ => decide_eq_decide.mpr ?_
  rw [window_covers_iff]

/-! ### The statistics combine -/

theorem systemStats_exact (e : ExactEngine) : systemStats e.toEngine = systemStats exact := by
  funext samples
  simp only [systemStats, e.avg_eq, e.least_eq, e.greatest_eq]
  rfl

theorem dockerStats_exact (e : ExactEngine) : dockerStats e.toEngine = dockerStats exact := by
  funext samples
  simp only [dockerStats, e.avg_eq, e.least_eq, e.greatest_eq]
  rfl

theorem mean_groups {A : Type} (quantity : A → ℚ) (xss : List (List A)) :
    weightedMean (xss.map fun xs => (xs.length, mean (xs.map quantity))) =
      mean (xss.flatten.map quantity) := by
  have h := weightedMean_flatten (xss.map (List.map quantity))
  rw [List.map_map, ← List.map_flatten] at h
  rw [← h]
  refine congrArg weightedMean (List.map_congr_left fun xs _ => ?_)
  rw [Function.comp, List.length_map]

theorem least_groups {A : Type} (quantity : A → ℚ) {xss : List (List A)}
    (h : ∀ xs ∈ xss, xs ≠ []) :
    (xss.map fun xs => (xs.map quantity).min?.getD 0).min?.getD 0 =
      (xss.flatten.map quantity).min?.getD 0 := by
  have hne : ∀ ys ∈ xss.map (List.map quantity), ys ≠ [] := by
    intro ys hys
    obtain ⟨xs, hxs, rfl⟩ := List.mem_map.mp hys
    exact fun hnil => h xs hxs (List.map_eq_nil_iff.mp hnil)
  rw [List.map_flatten, ← min?_flatten 0 hne, List.map_map]
  rfl

theorem greatest_groups {A : Type} (quantity : A → ℚ) {xss : List (List A)}
    (h : ∀ xs ∈ xss, xs ≠ []) :
    (xss.map fun xs => (xs.map quantity).max?.getD 0).max?.getD 0 =
      (xss.flatten.map quantity).max?.getD 0 := by
  have hne : ∀ ys ∈ xss.map (List.map quantity), ys ≠ [] := by
    intro ys hys
    obtain ⟨xs, hxs, rfl⟩ := List.mem_map.mp hys
    exact fun hnil => h xs hxs (List.map_eq_nil_iff.mp hnil)
  rw [List.map_flatten, ← max?_flatten 0 hne, List.map_map]
  rfl

theorem exact_avg (xs : List ℚ) : exact.avg xs = mean xs := rfl

theorem exact_least (xs : List ℚ) : exact.least xs = xs.min?.getD 0 := rfl

theorem exact_greatest (xs : List ℚ) : exact.greatest xs = xs.max?.getD 0 := rfl

theorem systemStats_combines : Combines (systemStats exact) combineMetric where
  empty := rfl
  perm h := by
    simp only [systemStats, exact_avg, exact_least, exact_greatest, h.length_eq,
      fun q : Metric ℚ → ℚ => mean_perm (h.map q), fun q : Metric ℚ → ℚ => min?_perm (h.map q),
      fun q : Metric ℚ → ℚ => max?_perm (h.map q)]
  flatten hne hall := by
    rw [combineMetric, if_neg (by simpa using hne)]
    simp only [systemStats, exact_avg, exact_least, exact_greatest, List.map_map,
      Function.comp_def, mean_groups, least_groups _ hall, greatest_groups _ hall,
      List.length_flatten]

theorem dockerStats_combines : Combines (dockerStats exact) combineDocker where
  empty := rfl
  perm h := by
    simp only [dockerStats, exact_avg, exact_least, exact_greatest, h.length_eq,
      fun q : DockerMetric ℚ → ℚ => mean_perm (h.map q),
      fun q : DockerMetric ℚ → ℚ => min?_perm (h.map q),
      fun q : DockerMetric ℚ → ℚ => max?_perm (h.map q)]
  flatten hne hall := by
    rw [combineDocker, if_neg (by simpa using hne)]
    simp only [dockerStats, exact_avg, exact_least, exact_greatest, List.map_map,
      Function.comp_def, mean_groups, least_groups _ hall, greatest_groups _ hall,
      List.length_flatten]

/-! ### What the calls return -/

theorem reselect_run {α A : Type} {s : Session (Tables α)} (hs : s.aborted = false)
    {query : Tables α → Option A} {row : A} (h : query s.working = some row) :
    (select none query >>= fun found => scalarOne found >>= fun agg => pure (some agg)).run s =
      (.ok (some row), s) := by
  rw [select_bind_run hs, h]
  rfl

section
variable (e : ExactEngine) {raw : Raw ℚ} {serverId : ℕ} {p : Period}

theorem systemAggregate_eq (raw : Raw ℚ) (t : Tables ℚ) (serverId : ℕ) (p : Period) :
    systemAggregate e.toEngine raw t serverId p =
      summary? (systemStats exact) (systemSamples raw p serverId) := by
  rw [← systemStats_exact e]
  unfold systemAggregate aggregateSystemMetrics
  simp only [e.faults_eq]
  rw [select_bind_run rfl]
  by_cases hempty : systemSamples raw p serverId = []
  · rw [if_pos (by simp [systemStats, hempty]), hempty]
    rfl
  · obtain ⟨row, hrow, hform⟩ := KeyedTable.get?_upsert_self metricMerge_key
      (metricRow p serverId (systemStats e.toEngine (systemSamples raw p serverId)))
      t.metricAggregates
    have hstats : row.toMetricStats = systemStats e.toEngine (systemSamples raw p serverId) := by
      rcases hform with rfl | ⟨old, rfl⟩ <;> rfl
    rw [if_neg (by simpa [systemStats] using hempty), summary?_of_ne hempty, write_bind_run rfl,
      commit_bind_run rfl, @reselect_run _ _ _ rfl _ row hrow, ← hstats]
    rfl

theorem container_run {containerName : String}
    (hfit : varchar 255 containerName = some containerName)
    (hne : containerSamples raw p serverId containerName ≠ []) {s : Session (Tables ℚ)}
    (hs : s.aborted = false) :
    ∃ agg s', (aggregateContainer e.toEngine raw p serverId containerName).run s =
        (.ok (some agg), s') ∧ s'.aborted = false ∧
      (agg.containerName.val, agg.toDockerStats) = (containerName,
        dockerStats e.toEngine (containerSamples raw p serverId containerName)) := by
  obtain ⟨stored, hstore, hval⟩ := VarChar.store_some hfit
  obtain ⟨row, hrow, hform⟩ := KeyedTable.get?_upsert_self dockerMerge_key
    (dockerRow p serverId stored
      (dockerStats e.toEngine (containerSamples raw p serverId containerName)))
    s.working.dockerAggregates
  have hkey : dockerKey (dockerRow p serverId stored
      (dockerStats e.toEngine (containerSamples raw p serverId containerName))) =
        (serverId, containerName, p.periodType, p.periodStart) := by rw [← hval]; rfl
  have hname : row.containerName.val = containerName := by
    have hfound := KeyedTable.get?_key hrow
    rw [hkey] at hfound
    exact congrArg (fun k => k.2.1) hfound
  have hstats : row.toDockerStats =
      dockerStats e.toEngine (containerSamples raw p serverId containerName) := by
    rcases hform with rfl | ⟨old, rfl⟩ <;> rfl
  rw [hkey] at hrow
  refine ⟨row, { s with working := s.working.storeDocker (dockerRow p serverId stored
    (dockerStats e.toEngine (containerSamples raw p serverId containerName))) }, ?_, hs,
    by rw [hname, hstats]⟩
  · unfold aggregateContainer upsertContainer
    simp only [e.faults_eq, hstore]
    rw [select_bind_run hs, if_neg (by simpa [dockerStats] using hne), write_bind_run hs]
    refine reselect_run ?_ hrow
    exact hs

theorem containers_run {names : List String}
    (hfit : ∀ name ∈ names, varchar 255 name = some name)
    (hne : ∀ name ∈ names, containerSamples raw p serverId name ≠ []) {s : Session (Tables ℚ)}
    (hs : s.aborted = false) :
    ∃ aggs s', (aggregateContainers e.toEngine raw p serverId names).run s = (.ok aggs, s') ∧
      s'.aborted = false ∧ aggs.map (fun agg => (agg.containerName.val, agg.toDockerStats)) =
        names.map fun name =>
          (name, dockerStats e.toEngine (containerSamples raw p serverId name)) := by
  induction names generalizing s with
  | nil => exact ⟨[], s, rfl, hs, rfl⟩
  | cons name names ih =>
    obtain ⟨agg, s₁, hrun, hs₁, hagg⟩ := container_run e (hfit name List.mem_cons_self)
      (hne name List.mem_cons_self) hs
    obtain ⟨aggs, s₂, hrest, hs₂, haggs⟩ := ih (fun n hn => hfit n (List.mem_cons_of_mem _ hn))
      (fun n hn => hne n (List.mem_cons_of_mem _ hn)) hs₁
    refine ⟨agg :: aggs, s₂, ?_, hs₂, by rw [List.map_cons, List.map_cons, hagg, haggs]⟩
    rw [aggregateContainers, bind_of_ok hrun, bind_of_ok hrest]
    rfl

theorem find?_named {S : Type} (stats : String → S) (containerName : String)
    (names : List String) :
    (((names.map fun name => (name, stats name)).find? fun pair => pair.1 = containerName).map
      Prod.snd) = if containerName ∈ names then some (stats containerName) else none := by
  induction names with
  | nil => rfl
  | cons name names ih =>
    by_cases hname : name = containerName
    · subst hname
      rw [List.map_cons, List.find?_cons_of_pos (by simp), if_pos List.mem_cons_self]
      rfl
    · rw [List.map_cons, List.find?_cons_of_neg (by simpa using hname), ih]
      simp [Ne.symm hname]

/- A window whose names fit has the aggregates of its containers, any other has none. -/
theorem dockerAggregate_fit (t : Tables ℚ) (h : NamesFit raw serverId p) (containerName : String) :
    dockerAggregate e.toEngine raw t serverId p containerName =
      summary? (dockerStats exact) (containerSamples raw p serverId containerName) := by
  rw [← dockerStats_exact e]
  have hmem : ∀ name, name ∈ containerNames e.toEngine raw p serverId ↔
      containerSamples raw p serverId name ≠ [] := fun name =>
    ⟨containerSamples_ne_nil, fun hne => by
      obtain ⟨m, hm⟩ := List.exists_mem_of_ne_nil _ hne
      obtain ⟨hm, hname⟩ := List.mem_filter.mp hm
      exact (e.mem_distinct _ _).mpr (List.mem_map.mpr ⟨m, hm, of_decide_eq_true hname⟩)⟩
  have hfit : ∀ name ∈ containerNames e.toEngine raw p serverId, varchar 255 name = some name := by
    intro name hname
    obtain ⟨m, hm, rfl⟩ := List.mem_map.mp ((e.mem_distinct _ _).mp hname)
    exact h m hm
  obtain ⟨aggs, s, hrun, hs, haggs⟩ := containers_run e hfit (fun name hn => (hmem name).mp hn)
    (s := .fresh t) rfl
  have hvalue : (if containerName ∈ containerNames e.toEngine raw p serverId then
      some (dockerStats e.toEngine (containerSamples raw p serverId containerName)) else none) =
        summary? (dockerStats e.toEngine) (containerSamples raw p serverId containerName) := by
    split
    · next hin => rw [summary?_of_ne ((hmem _).mp hin)]
    · next hout => rw [summary?_eq_none.mpr (not_not.mp fun hne => hout ((hmem _).mpr hne))]
  have hfind : (aggs.find? fun agg => agg.containerName.val = containerName).map
      DockerAggregate.toDockerStats =
        (((aggs.map fun agg => (agg.containerName.val, agg.toDockerStats)).find? fun pair =>
          pair.1 = containerName).map Prod.snd) := by
    rw [List.find?_map, Option.map_map]
    rfl
  unfold dockerAggregate aggregateDockerMetrics
  simp only [e.faults_eq]
  rw [select_bind_run rfl, ← hvalue]
  by_cases hnone : containerNames e.toEngine raw p serverId = []
  · rw [if_pos hnone, hnone, if_neg List.not_mem_nil]
    rfl
  · rw [if_neg hnone, bind_of_ok hrun, commit_bind_run hs, ← find?_named
      (fun name => dockerStats e.toEngine (containerSamples raw p serverId name)), ← haggs]
    exact hfind

theorem dockerAggregate_unfit (t : Tables ℚ) (h : ¬ NamesFit raw serverId p)
    (containerName : String) :
    dockerAggregate e.toEngine raw t serverId p containerName = none := by
  have hfault : dockerFault e.toEngine raw p serverId ≠ none := by
    intro hnone
    refine h fun m hm => ?_
    have hin : m.containerName ∈ containerNames e.toEngine raw p serverId :=
      (e.mem_distinct _ _).mpr (List.mem_map_of_mem hm)
    have hrest := (orElse_eq_none hnone).2
    rw [if_neg (List.ne_nil_of_mem hin)] at hrest
    exact containersFault_none (orElse_eq_none hrest).1 _ hin
  have hrun : Outcome (dockerFault e.toEngine raw p serverId) _
      ((aggregateDockerMetrics e.toEngine raw p serverId).run (.fresh t)) :=
    docker_does (.fresh t) rfl trivial
  unfold dockerAggregate
  cases hf : dockerFault e.toEngine raw p serverId with
  | none => exact absurd hf hfault
  | some f =>
    rw [hf] at hrun
    obtain ⟨s, he, -⟩ := hrun
    rw [he]

end

/-! ### When the coarse aggregates are the combined ones -/

section
variable {raw : Raw ℚ} {serverId : ℕ} (r : Rollup) (j : ℤ)

theorem systemSamples_groups : (systemSamples raw (window r.whole j) serverId).Perm
    (((r.parts j).map fun p => systemSamples raw p serverId).flatten) := by
  have hsplit : ∀ p : Period, systemSamples raw p serverId =
      (raw.metrics.filter fun m => m.serverId = serverId).filter
        fun m => p.covers m.collectedAt := by
    intro p
    rw [systemSamples, List.filter_filter]
    refine List.filter_congr fun m _ => ?_
    rw [Bool.decide_and, Bool.and_comm]
  simp only [hsplit]
  exact r.groups j _ Metric.collectedAt

theorem containerSamples_groups (containerName : String) :
    (containerSamples raw (window r.whole j) serverId containerName).Perm
      (((r.parts j).map fun p => containerSamples raw p serverId containerName).flatten) := by
  have hsplit : ∀ p : Period, containerSamples raw p serverId containerName =
      (raw.dockerMetrics.filter fun m =>
        m.serverId = serverId ∧ m.containerName = containerName).filter
          fun m => p.covers m.collectedAt := by
    intro p
    rw [containerSamples, dockerSamples, List.filter_filter, List.filter_filter]
    refine List.filter_congr fun m _ => ?_
    simp only [Bool.decide_and]
    grind
  simp only [hsplit]
  exact r.groups j _ DockerMetric.collectedAt

theorem part_subset {p : Period} (hp : p ∈ r.parts j) {m : DockerMetric ℚ}
    (hm : m ∈ dockerSamples raw p serverId) :
    m ∈ dockerSamples raw (window r.whole j) serverId := by
  have hin : m ∈ containerSamples raw p serverId m.containerName :=
    List.mem_filter.mpr ⟨hm, decide_eq_true rfl⟩
  have hwhole := (containerSamples_groups r j m.containerName).mem_iff.mpr
    (List.mem_flatten_of_mem (List.mem_map_of_mem hp) hin)
  exact (List.mem_filter.mp hwhole).1

variable (e : Period → ExactEngine) (t : Period → Tables ℚ)

/- The system half holds of every window. -/
theorem system_rolls_up :
    systemAggregate (e (window r.whole j)).toEngine raw (t (window r.whole j)) serverId
        (window r.whole j) =
      combineMetric ((r.parts j).filterMap fun p =>
        systemAggregate (e p).toEngine raw (t p) serverId p) := by
  simp only [systemAggregate_eq]
  have hgroups : (systemSamples raw (window r.whole j) serverId).Perm _ :=
    systemSamples_groups r j
  have h := systemStats_combines.summary? hgroups
  rw [List.filterMap_map] at h
  exact h

theorem docker_rolls_up_fit (h : NamesFit raw serverId (window r.whole j))
    (containerName : String) :
    dockerAggregate (e (window r.whole j)).toEngine raw (t (window r.whole j)) serverId
        (window r.whole j) containerName =
      combineDocker ((r.parts j).filterMap fun p =>
        dockerAggregate (e p).toEngine raw (t p) serverId p containerName) := by
  have hparts : (r.parts j).filterMap (fun p =>
      dockerAggregate (e p).toEngine raw (t p) serverId p containerName) =
        (r.parts j).filterMap fun p =>
          summary? (dockerStats exact) (containerSamples raw p serverId containerName) := by
    refine List.filterMap_congr fun p hp => ?_
    exact dockerAggregate_fit (e p) (t p) (fun m hm => h m (part_subset r j hp hm)) containerName
  rw [hparts, dockerAggregate_fit _ _ h]
  have hgroups : (containerSamples raw (window r.whole j) serverId containerName).Perm _ :=
    containerSamples_groups r j containerName
  have hwhole := dockerStats_combines.summary? hgroups
  rw [List.filterMap_map] at hwhole
  exact hwhole

/- A window with a name that does not fit has no docker aggregates at all, so no part may
have any. -/
theorem docker_rolls_up_unfit (h : ¬ NamesFit raw serverId (window r.whole j)) :
    (∀ containerName, dockerAggregate (e (window r.whole j)).toEngine raw (t (window r.whole j))
        serverId (window r.whole j) containerName =
      combineDocker ((r.parts j).filterMap fun p =>
        dockerAggregate (e p).toEngine raw (t p) serverId p containerName)) ↔
      ∀ p ∈ r.parts j, NamesFit raw serverId p → dockerSamples raw p serverId = [] := by
  have hnone := dockerAggregate_unfit (e (window r.whole j)) (t (window r.whole j)) h
  constructor
  · intro hall p hp hfit
    by_contra hne
    obtain ⟨m, hm⟩ := List.exists_mem_of_ne_nil _ hne
    have hsamples : containerSamples raw p serverId m.containerName ≠ [] :=
      List.ne_nil_of_mem (List.mem_filter.mpr ⟨hm, decide_eq_true rfl⟩)
    have hpart : dockerAggregate (e p).toEngine raw (t p) serverId p m.containerName =
        some (dockerStats exact (containerSamples raw p serverId m.containerName)) := by
      rw [dockerAggregate_fit _ _ hfit, summary?_of_ne hsamples]
    have hparts : (r.parts j).filterMap (fun p =>
        dockerAggregate (e p).toEngine raw (t p) serverId p m.containerName) ≠ [] :=
      List.ne_nil_of_mem (List.mem_filterMap.mpr ⟨p, hp, hpart⟩)
    have hwhole := hall m.containerName
    rw [hnone, combineDocker, if_neg hparts] at hwhole
    cases hwhole
  · intro hall containerName
    have hparts : (r.parts j).filterMap (fun p =>
        dockerAggregate (e p).toEngine raw (t p) serverId p containerName) = [] := by
      rw [List.filterMap_eq_nil_iff]
      intro p hp
      by_cases hfit : NamesFit raw serverId p
      · rw [dockerAggregate_fit _ _ hfit, containerSamples, hall p hp hfit]
        rfl
      · exact dockerAggregate_unfit _ _ hfit containerName
    rw [hnone, hparts]
    rfl

/- The coarse aggregates are the combined fine ones exactly when the container names of
the coarse window fit, or keep every part with containers from being aggregated too. -/
theorem rolls_up_iff_names_fit :
    RollsUp e raw t serverId (window r.whole j) (r.parts j) ↔
      NamesFit raw serverId (window r.whole j) ∨
        ∀ p ∈ r.parts j, NamesFit raw serverId p → dockerSamples raw p serverId = [] := by
  by_cases h : NamesFit raw serverId (window r.whole j)
  · exact ⟨fun _ => Or.inl h, fun _ =>
      ⟨system_rolls_up r j e t, docker_rolls_up_fit r j e t h⟩⟩
  · rw [or_iff_right h, ← docker_rolls_up_unfit r j e t h]
    exact ⟨fun hr => hr.docker, fun hd => ⟨system_rolls_up r j e t, hd⟩⟩

end

def exactEngine : ExactEngine :=
  { exact with
    avg_eq := fun _ => rfl
    least_eq := fun _ => rfl
    greatest_eq := fun _ => rfl
    faults_eq := fun _ => rfl }

/- Two containers in one hour, the second one named with 256 characters. -/
def longHour : Raw ℚ where
  servers := [⟨1, "loud", "h1", 1, none, true, none, false⟩]
  metrics := []
  dockerMetrics := [⟨1, 1, "c1", "db", "image", "running", 5, 100, none, 60⟩,
    ⟨2, 1, "c2", longName, "image", "running", 7, 200, none, minutes 5⟩]

/- The five minutes with "db" alone have its aggregate, the hour has none. -/
theorem hour_lost_by_long_name :
    dockerAggregate exact longHour ⟨[], []⟩ 1 (window .fivemin 0) "db" =
        some ⟨5, 5, 5, 100, 100, 1⟩ ∧
      dockerAggregate exact longHour ⟨[], []⟩ 1 (window .hourly 0) "db" = none ∧
      ¬ RollsUp (fun _ => exactEngine) longHour (fun _ => ⟨[], []⟩) 1 (window .hourly 0)
        (Rollup.hourly.parts 0) := by
  have hhour : dockerSamples longHour (window .hourly 0) 1 = longHour.dockerMetrics := rfl
  have hfirst : dockerSamples longHour (window .fivemin 0) 1 =
      [⟨1, 1, "c1", "db", "image", "running", 5, 100, none, 60⟩] := rfl
  have hfit : NamesFit longHour 1 (window .fivemin 0) := by
    intro m hm
    rw [hfirst, List.mem_singleton] at hm
    rw [hm]
    decide
  have hunfit : ¬ NamesFit longHour 1 (window .hourly 0) := by
    intro h
    have hlong := h ⟨2, 1, "c2", longName, "image", "running", 7, 200, none, minutes 5⟩
      (by rw [hhour]; exact List.mem_cons_of_mem _ List.mem_cons_self)
    have hrefused : varchar 255 longName = some longName := hlong
    rw [longName_refused] at hrefused
    cases hrefused
  have hpart := dockerAggregate_fit exactEngine ⟨[], []⟩ hfit "db"
  have hwhole := dockerAggregate_unfit exactEngine ⟨[], []⟩ hunfit "db"
  have hin : window .fivemin 0 ∈ Rollup.hourly.parts 0 :=
    List.mem_map.mpr ⟨0, List.mem_range.mpr (by decide), rfl⟩
  refine ⟨hpart.trans ?_, hwhole, fun hr => ?_⟩
  · simp [containerSamples, hfirst, summary?, dockerStats, exact]
  · have hempty := (docker_rolls_up_unfit .hourly 0 (fun _ => exactEngine)
      (fun _ => ⟨[], []⟩) hunfit).mp hr.docker _ hin hfit
    rw [hfirst] at hempty
    cases hempty

end PulseWatch.Aggregation
