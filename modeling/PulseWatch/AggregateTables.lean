import PulseWatch.Rollups

/-!
# The aggregate tables after any sequence of calls

Calls over aligned windows, in any order and with repetitions, split into database
sessions in any way. The upserts make a repeated call change nothing, so that the
tables depend on the windows called only, as long as no call raises: a container
name that does not fit its column takes the other containers of its window with it.
-/

namespace PulseWatch.Aggregation
open PgSession PgText Summaries

inductive Call where
  | system (serverId : ℕ) (kind : PeriodType) (j : ℤ)
  | docker (serverId : ℕ) (kind : PeriodType) (j : ℤ)
  deriving DecidableEq, Repr

/- A call, and the order DISTINCT has for it. -/
structure Job where
  engine : ExactEngine
  call : Call

section
variable (raw : Raw ℚ)

def Job.run (job : Job) : Act (Tables ℚ) Unit :=
  match job.call with
  | .system serverId kind j => do
    let _ ← aggregateSystemMetrics job.engine.toEngine raw (window kind j) serverId
    pure ()
  | .docker serverId kind j => do
    let _ ← aggregateDockerMetrics job.engine.toEngine raw (window kind j) serverId
    pure ()

/- One session; the exception of a call ends this call only. -/
def session (t : Tables ℚ) (jobs : List Job) : Tables ℚ :=
  ((batch (Job.run raw) jobs).run (.fresh t)).2.committed

def tablesOf (sessions : List (List Job)) : Tables ℚ := sessions.foldl (session raw) ⟨[], []⟩

def callsOf (sessions : List (List Job)) : List Call := sessions.flatten.map Job.call

end

/- The tables list their rows in the order of insertion. -/
def SameRows (t u : Tables ℚ) : Prop :=
  t.metricAggregates.Perm u.metricAggregates ∧ t.dockerAggregates.Perm u.dockerAggregates

structure MetricOk (row : MetricAggregate ℚ) : Prop where
  period : row.periodEnd = row.periodStart + beatSchedule row.periodType
  counted : 1 ≤ row.sampleCount
  cpu : row.minCpu ≤ row.avgCpu ∧ row.avgCpu ≤ row.maxCpu
  memory : row.minMemory ≤ row.avgMemory ∧ row.avgMemory ≤ row.maxMemory
  disk : row.minDisk ≤ row.avgDisk ∧ row.avgDisk ≤ row.maxDisk

structure DockerOk (row : DockerAggregate ℚ) : Prop where
  period : row.periodEnd = row.periodStart + beatSchedule row.periodType
  counted : 1 ≤ row.sampleCount
  cpu : row.minCpu ≤ row.avgCpu ∧ row.avgCpu ≤ row.maxCpu

/- What is wanted of the tables: those of one call for each window, one row for each
non-empty one and no other row, each row in order. -/
structure Settled (raw : Raw ℚ) (sessions : List (List Job)) : Prop where
  same : ∀ once : List Job, (once.map Job.call).Nodup →
    (∀ c, c ∈ once.map Job.call ↔ c ∈ callsOf sessions) →
    SameRows (tablesOf raw sessions) (tablesOf raw (once.map fun job => [job]))
  metricKeys : ((tablesOf raw sessions).metricAggregates.map metricKey).Nodup
  dockerKeys : ((tablesOf raw sessions).dockerAggregates.map dockerKey).Nodup
  metricStored : ∀ serverId kind j, .system serverId kind j ∈ callsOf sessions →
    systemSamples raw (window kind j) serverId ≠ [] →
    ∃ row ∈ (tablesOf raw sessions).metricAggregates,
      metricKey row = (serverId, kind, j * beatSchedule kind)
  dockerStored : ∀ serverId kind j containerName, .docker serverId kind j ∈ callsOf sessions →
    containerSamples raw (window kind j) serverId containerName ≠ [] →
    ∃ row ∈ (tablesOf raw sessions).dockerAggregates,
      dockerKey row = (serverId, containerName, kind, j * beatSchedule kind)
  metricOnly : ∀ row ∈ (tablesOf raw sessions).metricAggregates, ∃ serverId kind j,
    .system serverId kind j ∈ callsOf sessions ∧ systemSamples raw (window kind j) serverId ≠ [] ∧
      row = metricRow (window kind j) serverId
        (systemStats exact (systemSamples raw (window kind j) serverId))
  dockerOnly : ∀ row ∈ (tablesOf raw sessions).dockerAggregates, ∃ serverId kind j,
    .docker serverId kind j ∈ callsOf sessions ∧
      containerSamples raw (window kind j) serverId row.containerName.val ≠ [] ∧
      row = dockerRow (window kind j) serverId row.containerName (dockerStats exact
        (containerSamples raw (window kind j) serverId row.containerName.val))
  metricOk : ∀ row ∈ (tablesOf raw sessions).metricAggregates, MetricOk row
  dockerOk : ∀ row ∈ (tablesOf raw sessions).dockerAggregates, DockerOk row

/- The names a docker call aggregates fit their column. -/
def Call.Fits (raw : Raw ℚ) : Call → Prop
  | .system _ _ _ => True
  | .docker serverId kind j => NamesFit raw serverId (window kind j)

/-! ### Every row is in order, whatever fails -/

/- Also a name that was stored is stored as it is. -/
def Sound (t : Tables ℚ) : Prop :=
  (∀ row ∈ t.metricAggregates, MetricOk row) ∧
    ∀ row ∈ t.dockerAggregates,
      DockerOk row ∧ varchar 255 row.containerName.val = some row.containerName.val

section
variable {raw : Raw ℚ} (e : ExactEngine) (serverId : ℕ) (kind : PeriodType) (j : ℤ)

theorem bounds_of_ne {A : Type} {samples : List A} (h : samples ≠ []) (quantity : A → ℚ) :
    (samples.map quantity).min?.getD 0 ≤ mean (samples.map quantity) ∧
      mean (samples.map quantity) ≤ (samples.map quantity).max?.getD 0 := by
  have hne : samples.map quantity ≠ [] := fun hnil => h (List.map_eq_nil_iff.mp hnil)
  exact ⟨least_le_mean hne 0, mean_le_greatest hne 0⟩

theorem window_length : (window kind j).periodEnd =
    (window kind j).periodStart + beatSchedule (window kind j).periodType := by
  simp only [window_eq, add_mul, one_mul]

theorem metricRow_ok {samples : List (Metric ℚ)} (h : samples ≠ []) :
    MetricOk (metricRow (window kind j) serverId (systemStats exact samples)) where
  period := window_length kind j
  counted := List.length_pos_iff.mpr h
  cpu := bounds_of_ne h Metric.cpuPercent
  memory := bounds_of_ne h Metric.memoryPercent
  disk := bounds_of_ne h Metric.diskPercent

theorem dockerRow_ok (stored : VarChar 255) {samples : List (DockerMetric ℚ)} (h : samples ≠ []) :
    DockerOk (dockerRow (window kind j) serverId stored (dockerStats exact samples)) where
  period := window_length kind j
  counted := List.length_pos_iff.mpr h
  cpu := bounds_of_ne h DockerMetric.cpuPercent

theorem MetricOk.merge {old row : MetricAggregate ℚ} (ho : MetricOk old) (h : MetricOk row) :
    MetricOk (metricMerge old row) :=
  ⟨ho.period, h.counted, h.cpu, h.memory, h.disk⟩

theorem DockerOk.merge {old row : DockerAggregate ℚ} (ho : DockerOk old) (h : DockerOk row) :
    DockerOk (dockerMerge old row) :=
  ⟨ho.period, h.counted, h.cpu⟩

theorem reselect_keeps {A : Type} {P : Tables ℚ → Prop} (fault : Option Fault)
    (query : Tables ℚ → Option A) :
    Keeps P (select fault query >>= fun found => scalarOne found >>= fun agg =>
      pure (some agg)) := by
  refine Keeps.bind (Keeps.exec fun _ h => h) fun found => ?_
  cases found with
  | none => exact Keeps.bind (Keeps.raise _) fun _ => Keeps.pure _
  | some row => exact Keeps.bind (Keeps.pure row) fun _ => Keeps.pure _

theorem system_keeps : Keeps Sound
    (aggregateSystemMetrics e.toEngine raw (window kind j) serverId) := by
  unfold aggregateSystemMetrics
  refine Keeps.select_bind (R := fun row =>
    row = systemStats e.toEngine (systemSamples raw (window kind j) serverId)) (fun _ => rfl) ?_
  rintro _ rfl
  split
  · exact Keeps.pure none
  · next hcount =>
    have hne : systemSamples raw (window kind j) serverId ≠ [] := by
      simpa [systemStats] using hcount
    refine Keeps.bind (Keeps.write fun t ht => ⟨?_, ht.2⟩) fun _ =>
      Keeps.bind (Keeps.commit _) fun _ => ?_
    · rw [systemStats_exact]
      have hrow := metricRow_ok serverId kind j hne
      exact KeyedTable.forall_upsert ht.1 hrow fun old ho _ => ho.merge hrow
    · exact reselect_keeps _ _

theorem container_keeps (containerName : String) : Keeps Sound
    (aggregateContainer e.toEngine raw (window kind j) serverId containerName) := by
  unfold aggregateContainer
  refine Keeps.select_bind (R := fun row => row = dockerStats e.toEngine
    (containerSamples raw (window kind j) serverId containerName)) (fun _ => rfl) ?_
  rintro _ rfl
  split
  · exact Keeps.pure none
  · next hcount =>
    have hne : containerSamples raw (window kind j) serverId containerName ≠ [] := by
      simpa [dockerStats] using hcount
    refine Keeps.bind ?_ fun _ => reselect_keeps _ _
    cases hv : varchar 255 containerName with
    | none =>
      simp only [upsertContainer, VarChar.store_none hv]
      exact Keeps.write fun _ ht => ht
    | some cut =>
      obtain ⟨stored, hstore, rfl⟩ := VarChar.store_some hv
      simp only [upsertContainer, hstore, dockerStats_exact]
      refine Keeps.write fun t ht => ⟨ht.1, ?_⟩
      have hrow := dockerRow_ok serverId kind j stored hne
      exact KeyedTable.forall_upsert ht.2 ⟨hrow, varchar_stored hv⟩
        fun old ho _ => ⟨ho.1.merge hrow, ho.2⟩

theorem containers_keeps (names : List String) : Keeps Sound
    (aggregateContainers e.toEngine raw (window kind j) serverId names) := by
  induction names with
  | nil => exact Keeps.pure []
  | cons name names ih =>
    exact Keeps.bind (container_keeps e serverId kind j name) fun _ =>
      Keeps.bind ih fun _ => Keeps.pure _

theorem docker_keeps : Keeps Sound
    (aggregateDockerMetrics e.toEngine raw (window kind j) serverId) := by
  unfold aggregateDockerMetrics
  refine Keeps.bind (Keeps.exec fun _ h => h) fun names => ?_
  split
  · exact Keeps.pure []
  · exact Keeps.bind (containers_keeps e serverId kind j names) fun _ =>
      Keeps.bind (Keeps.commit _) fun _ => Keeps.pure _

theorem Job.keeps (job : Job) : Keeps Sound (job.run raw) := by
  unfold Job.run
  split
  · exact Keeps.bind (system_keeps job.engine _ _ _) fun _ => Keeps.pure ()
  · exact Keeps.bind (docker_keeps job.engine _ _ _) fun _ => Keeps.pure ()

end

theorem session_sound (raw : Raw ℚ) {t : Tables ℚ} (h : Sound t) (jobs : List Job) :
    Sound (session raw t jobs) :=
  (Keeps.batch (Job.run raw) Job.keeps jobs (.fresh t) h h).1

/-- Whatever is called in whatever sessions, every row stored is in order. -/
theorem tablesOf_sound (raw : Raw ℚ) (sessions : List (List Job)) :
    Sound (tablesOf raw sessions) := by
  have hrun : ∀ t, Sound t → Sound (sessions.foldl (session raw) t) := by
    induction sessions with
    | nil => exact fun t ht => ht
    | cons jobs sessions ih => exact fun t ht => ih _ (session_sound raw ht jobs)
  exact hrun _ ⟨fun _ h => absurd h List.not_mem_nil, fun _ h => absurd h List.not_mem_nil⟩

/-! ### The rows of the windows called -/

/- The rows a call stores when its names fit. -/
def Call.metricRows (raw : Raw ℚ) : Call → List (MetricAggregate ℚ)
  | .system serverId kind j => Aggregation.metricRows exact raw (window kind j) serverId
  | .docker _ _ _ => []

def Call.dockerRows (raw : Raw ℚ) : Call → List (DockerAggregate ℚ)
  | .system _ _ _ => []
  | .docker serverId kind j => Aggregation.dockerRows exact raw (window kind j) serverId

section
variable {raw : Raw ℚ}

theorem Call.mem_metricRows {c : Call} {row : MetricAggregate ℚ} :
    row ∈ c.metricRows raw ↔ ∃ serverId kind j, c = .system serverId kind j ∧
      systemSamples raw (window kind j) serverId ≠ [] ∧
      row = metricRow (window kind j) serverId
        (systemStats exact (systemSamples raw (window kind j) serverId)) := by
  cases c with
  | docker serverId kind j => simp [Call.metricRows]
  | system serverId kind j =>
    unfold Call.metricRows Aggregation.metricRows
    by_cases hempty : systemSamples raw (window kind j) serverId = []
    · simp [hempty]
    · simp [hempty]

theorem mem_dockerRows (e : ExactEngine) {serverId : ℕ} {kind : PeriodType} {j : ℤ}
    (hfit : NamesFit raw serverId (window kind j)) {row : DockerAggregate ℚ} :
    row ∈ Aggregation.dockerRows e.toEngine raw (window kind j) serverId ↔
      containerSamples raw (window kind j) serverId row.containerName.val ≠ [] ∧
        row = dockerRow (window kind j) serverId row.containerName (dockerStats exact
          (containerSamples raw (window kind j) serverId row.containerName.val)) := by
  unfold Aggregation.dockerRows storedRow
  rw [List.mem_filterMap, dockerStats_exact]
  constructor
  · rintro ⟨name, hname, hrow⟩
    obtain ⟨m, hm, rfl⟩ := List.mem_map.mp ((e.mem_distinct _ _).mp hname)
    obtain ⟨stored, hstore, hval⟩ := VarChar.store_some (hfit m hm)
    rw [hstore] at hrow
    obtain rfl := Option.some.inj hrow
    refine ⟨?_, ?_⟩
    · show containerSamples raw (window kind j) serverId stored.val ≠ []
      rw [hval]
      exact containerSamples_ne_nil hname
    · show _ = dockerRow (window kind j) serverId stored (dockerStats exact
        (containerSamples raw (window kind j) serverId stored.val))
      rw [hval]
  · rintro ⟨hne, hrow⟩
    obtain ⟨m, hm⟩ := List.exists_mem_of_ne_nil _ hne
    obtain ⟨hm, hname⟩ := List.mem_filter.mp hm
    have hname : m.containerName = row.containerName.val := of_decide_eq_true hname
    obtain ⟨stored, hstore, hval⟩ := VarChar.store_some (hname ▸ hfit m hm)
    obtain rfl : stored = row.containerName := Subtype.ext hval
    refine ⟨row.containerName.val, (e.mem_distinct _ _).mpr (hname ▸ List.mem_map_of_mem hm), ?_⟩
    rw [hstore, hrow]
    rfl

theorem Call.mem_dockerRows {c : Call} (hc : c.Fits raw) {row : DockerAggregate ℚ} :
    row ∈ c.dockerRows raw ↔ ∃ serverId kind j, c = .docker serverId kind j ∧
      containerSamples raw (window kind j) serverId row.containerName.val ≠ [] ∧
      row = dockerRow (window kind j) serverId row.containerName (dockerStats exact
        (containerSamples raw (window kind j) serverId row.containerName.val)) := by
  cases c with
  | system serverId kind j => simp [Call.dockerRows]
  | docker serverId kind j =>
    have h := @Aggregation.mem_dockerRows raw exactEngine serverId kind j hc row
    constructor
    · exact fun hrow => ⟨serverId, kind, j, rfl, h.mp hrow⟩
    · rintro ⟨_, _, _, he, hrow⟩
      cases he
      exact h.mpr hrow

theorem window_key {kind kind' : PeriodType} {j j' : ℤ}
    (hkind : (window kind j).periodType = (window kind' j').periodType)
    (hstart : (window kind j).periodStart = (window kind' j').periodStart) :
    window kind j = window kind' j' := by
  simp only [window_eq] at hkind hstart
  subst hkind
  rw [mul_right_cancel₀ (beatSchedule_pos kind).ne' hstart]

/- The rows wanted are determined by their keys. -/
theorem metricRows_same {c c' : Call} {row row' : MetricAggregate ℚ}
    (h : row ∈ c.metricRows raw) (h' : row' ∈ c'.metricRows raw)
    (hk : metricKey row = metricKey row') : row = row' := by
  obtain ⟨serverId, kind, j, -, -, rfl⟩ := Call.mem_metricRows.mp h
  obtain ⟨serverId', kind', j', -, -, rfl⟩ := Call.mem_metricRows.mp h'
  simp only [metricKey, metricRow, Prod.mk.injEq] at hk
  obtain ⟨rfl, hkind, hstart⟩ := hk
  rw [window_key hkind hstart]

theorem dockerRows_same {c c' : Call} (hc : c.Fits raw) (hc' : c'.Fits raw)
    {row row' : DockerAggregate ℚ} (h : row ∈ c.dockerRows raw) (h' : row' ∈ c'.dockerRows raw)
    (hk : dockerKey row = dockerKey row') : row = row' := by
  obtain ⟨serverId, kind, j, -, -, hrow⟩ := (Call.mem_dockerRows hc).mp h
  obtain ⟨serverId', kind', j', -, -, hrow'⟩ := (Call.mem_dockerRows hc').mp h'
  rw [hrow, hrow'] at hk
  simp only [dockerKey, dockerRow, Prod.mk.injEq] at hk
  obtain ⟨rfl, hname, hkind, hstart⟩ := hk
  rw [hrow, hrow', Subtype.ext hname, window_key hkind hstart]

end

/- The tables hold the rows of these calls, and nothing else. -/
structure Holds (raw : Raw ℚ) (calls : List Call) (t : Tables ℚ) : Prop where
  metricKeys : (t.metricAggregates.map metricKey).Nodup
  dockerKeys : (t.dockerAggregates.map dockerKey).Nodup
  metricRows : ∀ row, row ∈ t.metricAggregates ↔ ∃ c ∈ calls, row ∈ c.metricRows raw
  dockerRows : ∀ row, row ∈ t.dockerAggregates ↔ ∃ c ∈ calls, row ∈ c.dockerRows raw

section
variable {raw : Raw ℚ} {calls : List Call} {t : Tables ℚ}

theorem Holds.sameRows {calls' : List Call} {t' : Tables ℚ} (h : Holds raw calls t)
    (h' : Holds raw calls' t') (hsame : ∀ c, c ∈ calls ↔ c ∈ calls') : SameRows t t' := by
  constructor
  · refine (List.perm_ext_iff_of_nodup h.metricKeys.of_map h'.metricKeys.of_map).mpr fun row => ?_
    rw [h.metricRows, h'.metricRows]
    exact exists_congr fun c => and_congr_left fun _ => hsame c
  · refine (List.perm_ext_iff_of_nodup h.dockerKeys.of_map h'.dockerKeys.of_map).mpr fun row => ?_
    rw [h.dockerRows, h'.dockerRows]
    exact exists_congr fun c => and_congr_left fun _ => hsame c

/- One more call without a fault, new or repeated. -/
theorem Holds.store (h : Holds raw calls t) (hfit : ∀ c ∈ calls, c.Fits raw) {c : Call}
    (hc : c.Fits raw) (metrics : List (MetricAggregate ℚ)) (dockers : List (DockerAggregate ℚ))
    (hmetrics : ∀ row, row ∈ metrics ↔ row ∈ c.metricRows raw)
    (hdockers : ∀ row, row ∈ dockers ↔ row ∈ c.dockerRows raw) :
    Holds raw (calls ++ [c]) ((t.storeMetrics metrics).storeDockers dockers) where
  metricKeys := KeyedTable.keys_upsertAll metricMerge_key metrics h.metricKeys
  dockerKeys := KeyedTable.keys_upsertAll dockerMerge_key dockers h.dockerKeys
  metricRows row := by
    have hsame : ∀ new ∈ metrics, ∀ old, old ∈ metrics ∨ old ∈ t.metricAggregates →
        metricKey old = metricKey new → old = new := by
      intro new hnew old hold hk
      rw [hmetrics] at hnew
      rcases hold with hold | hold
      · exact metricRows_same ((hmetrics old).mp hold) hnew hk
      · obtain ⟨c', -, hrow⟩ := (h.metricRows old).mp hold
        exact metricRows_same hrow hnew hk
    have hmem := KeyedTable.mem_upsertAll_same metricMerge_self hsame row
    show row ∈ KeyedTable.upsertAll metricKey metricMerge metrics t.metricAggregates ↔ _
    rw [hmem, hmetrics, h.metricRows]
    simp only [List.mem_append, List.mem_singleton, or_and_right, exists_or, exists_eq_left]
    exact or_comm
  dockerRows row := by
    have hsame : ∀ new ∈ dockers, ∀ old, old ∈ dockers ∨ old ∈ t.dockerAggregates →
        dockerKey old = dockerKey new → old = new := by
      intro new hnew old hold hk
      rw [hdockers] at hnew
      rcases hold with hold | hold
      · exact dockerRows_same hc hc ((hdockers old).mp hold) hnew hk
      · obtain ⟨c', hc', hrow⟩ := (h.dockerRows old).mp hold
        exact dockerRows_same (hfit c' hc') hc hrow hnew hk
    have hmem := KeyedTable.mem_upsertAll_same dockerMerge_self hsame row
    show row ∈ KeyedTable.upsertAll dockerKey dockerMerge dockers t.dockerAggregates ↔ _
    rw [hmem, hdockers, h.dockerRows]
    simp only [List.mem_append, List.mem_singleton, or_and_right, exists_or, exists_eq_left]
    exact or_comm

end

/-! ### Runs without a fault -/

section
variable {raw : Raw ℚ} {serverId : ℕ} {p : Period}

theorem systemFault_none (e : ExactEngine) : systemFault e.toEngine raw p serverId = none := by
  unfold systemFault
  simp only [e.faults_eq]
  split <;> rfl

theorem dockerFault_none (e : ExactEngine) (h : NamesFit raw serverId p) :
    dockerFault e.toEngine raw p serverId = none := by
  have hall : ∀ names : List String, (∀ name ∈ names, varchar 255 name = some name) →
      containersFault e.toEngine serverId names = none := by
    intro names hnames
    induction names with
    | nil => rfl
    | cons name names ih =>
      rw [containersFault, ih fun n hn => hnames n (List.mem_cons_of_mem _ hn), orElse_none]
      simp only [containerFault, e.faults_eq, hnames name List.mem_cons_self, if_true]
      rfl
  have hfit : ∀ name ∈ containerNames e.toEngine raw p serverId, varchar 255 name = some name := by
    intro name hname
    obtain ⟨m, hm, rfl⟩ := List.mem_map.mp ((e.mem_distinct _ _).mp hname)
    exact h m hm
  unfold dockerFault
  rw [hall _ hfit]
  simp only [e.faults_eq]
  split <;> rfl

theorem systemEffect_fresh (e : Engine ℚ) (t : Tables ℚ) :
    systemEffect e raw p serverId (.fresh t) =
      .fresh (t.storeMetrics (metricRows e raw p serverId)) := by
  unfold systemEffect metricRows
  split <;> rfl

theorem dockerEffect_fresh (e : Engine ℚ) (t : Tables ℚ) :
    dockerEffect e raw p serverId (.fresh t) =
      .fresh (t.storeDockers (dockerRows e raw p serverId)) := by
  unfold dockerEffect
  split
  · next hempty =>
    rw [dockerRows, hempty]
    rfl
  · rfl

theorem outcome_snd {A : Type} {after : Session (Tables ℚ)}
    {out : Except Fault A × Session (Tables ℚ)} (h : Outcome none after out) : out.2 = after := by
  obtain ⟨⟨v, hv⟩, -⟩ := h
  rw [hv]

theorem Job.run_holds {job : Job} (hfit : job.call.Fits raw) {calls : List Call} {t : Tables ℚ}
    (hcalls : ∀ c ∈ calls, c.Fits raw) (h : Holds raw calls t) :
    ∃ t', ((job.run raw).run (.fresh t)).2 = .fresh t' ∧ Holds raw (calls ++ [job.call]) t' := by
  obtain ⟨e, c⟩ := job
  cases c with
  | system serverId kind j =>
    have hdoes : Does (fun _ => True)
        (aggregateSystemMetrics e.toEngine raw (window kind j) serverId)
        (systemFault e.toEngine raw (window kind j) serverId) _ := system_does
    have hrun := hdoes.returns (fun _ => ()) (.fresh t) rfl trivial
    rw [systemFault_none, systemEffect_fresh] at hrun
    refine ⟨_, outcome_snd hrun, ?_⟩
    refine h.store hcalls hfit _ [] (fun row => ?_) fun row => by simp [Call.dockerRows]
    rw [metricRows, systemStats_exact]
    rfl
  | docker serverId kind j =>
    have hdoes : Does (fun _ => True)
        (aggregateDockerMetrics e.toEngine raw (window kind j) serverId)
        (dockerFault e.toEngine raw (window kind j) serverId) _ := docker_does
    have hrun := hdoes.returns (fun _ => ()) (.fresh t) rfl trivial
    rw [dockerFault_none e hfit, dockerEffect_fresh] at hrun
    refine ⟨_, outcome_snd hrun, ?_⟩
    refine h.store hcalls hfit [] _ (fun row => by simp [Call.metricRows]) fun row => ?_
    rw [mem_dockerRows e hfit]
    exact (mem_dockerRows exactEngine hfit).symm

theorem session_holds {jobs : List Job} (hfit : ∀ job ∈ jobs, job.call.Fits raw)
    {calls : List Call} {t : Tables ℚ} (hcalls : ∀ c ∈ calls, c.Fits raw)
    (h : Holds raw calls t) : Holds raw (calls ++ jobs.map Job.call) (session raw t jobs) := by
  induction jobs generalizing calls t with
  | nil =>
    rw [List.map_nil, List.append_nil]
    exact h
  | cons job jobs ih =>
    have hjob := hfit job List.mem_cons_self
    obtain ⟨t', hrun, ht'⟩ := Job.run_holds hjob hcalls h
    have hsession : session raw t (job :: jobs) = session raw t' jobs := by
      unfold session
      rw [batch_cons, hrun]
    have hcalls' : ∀ c ∈ calls ++ [job.call], c.Fits raw := by
      intro c hc
      rcases List.mem_append.mp hc with hc | hc
      · exact hcalls c hc
      · rw [List.mem_singleton.mp hc]
        exact hjob
    have hrest := ih (fun j hj => hfit j (List.mem_cons_of_mem _ hj)) hcalls' ht'
    rw [hsession, List.map_cons, ← List.singleton_append, ← List.append_assoc]
    exact hrest

theorem tablesOf_holds {sessions : List (List Job)}
    (hfit : ∀ c ∈ callsOf sessions, c.Fits raw) :
    Holds raw (callsOf sessions) (tablesOf raw sessions) := by
  have hrun : ∀ (calls : List Call) (t : Tables ℚ), (∀ c ∈ calls, c.Fits raw) →
      Holds raw calls t →
      Holds raw (calls ++ callsOf sessions) (sessions.foldl (session raw) t) := by
    induction sessions with
    | nil =>
      intro calls t _ h
      rw [callsOf, List.flatten_nil, List.map_nil, List.append_nil]
      exact h
    | cons jobs sessions ih =>
      intro calls t hcalls h
      have hsplit : callsOf (jobs :: sessions) = jobs.map Job.call ++ callsOf sessions := by
        rw [callsOf, List.flatten_cons, List.map_append]
        rfl
      rw [hsplit] at hfit ⊢
      have hjobs : ∀ job ∈ jobs, job.call.Fits raw := fun job hjob =>
        hfit _ (List.mem_append_left _ (List.mem_map_of_mem hjob))
      have hnext : ∀ c ∈ calls ++ jobs.map Job.call, c.Fits raw := by
        intro c hc
        rcases List.mem_append.mp hc with hc | hc
        · exact hcalls c hc
        · exact hfit c (List.mem_append_left _ hc)
      rw [← List.append_assoc]
      exact ih (fun c hc => hfit c (List.mem_append_right _ hc)) _ _ hnext
        (session_holds hjobs hcalls h)
  exact hrun [] ⟨[], []⟩ (fun c hc => absurd hc List.not_mem_nil)
    ⟨List.nodup_nil, List.nodup_nil, fun row => by simp, fun row => by simp⟩

end

/-! ### When the tables are those of the windows called -/

theorem callsOf_once (once : List Job) :
    callsOf (once.map fun job => [job]) = once.map Job.call := by
  rw [callsOf, ← List.flatMap_def, List.flatMap_singleton']

section
variable {raw : Raw ℚ} {calls : List Call} {t : Tables ℚ} (h : Holds raw calls t)
include h

/- Each window called with samples has its row. -/
theorem Holds.metricStored {serverId : ℕ} {kind : PeriodType} {j : ℤ}
    (hc : .system serverId kind j ∈ calls)
    (hne : systemSamples raw (window kind j) serverId ≠ []) :
    ∃ row ∈ t.metricAggregates, metricKey row = (serverId, kind, j * beatSchedule kind) := by
  have hrow := Call.mem_metricRows.mpr ⟨serverId, kind, j, rfl, hne, rfl⟩
  refine ⟨_, (h.metricRows _).mpr ⟨_, hc, hrow⟩, ?_⟩
  rw [window_eq]
  rfl

theorem Holds.dockerStored (hfit : ∀ c ∈ calls, c.Fits raw) {serverId : ℕ} {kind : PeriodType}
    {j : ℤ} {containerName : String} (hc : .docker serverId kind j ∈ calls)
    (hne : containerSamples raw (window kind j) serverId containerName ≠ []) :
    ∃ row ∈ t.dockerAggregates,
      dockerKey row = (serverId, containerName, kind, j * beatSchedule kind) := by
  obtain ⟨m, hm⟩ := List.exists_mem_of_ne_nil _ hne
  obtain ⟨hin, hname⟩ := List.mem_filter.mp hm
  obtain rfl : m.containerName = containerName := of_decide_eq_true hname
  obtain ⟨stored, -, hval⟩ := VarChar.store_some (hfit _ hc m hin)
  let row := dockerRow (window kind j) serverId stored
    (dockerStats exact (containerSamples raw (window kind j) serverId stored.val))
  have hrow : row ∈ (Call.docker serverId kind j).dockerRows raw := by
    refine (Call.mem_dockerRows (hfit _ hc)).mpr ⟨serverId, kind, j, rfl, ?_, rfl⟩
    show containerSamples raw (window kind j) serverId stored.val ≠ []
    rw [hval]
    exact hne
  refine ⟨row, (h.dockerRows row).mpr ⟨_, hc, hrow⟩, ?_⟩
  rw [← hval]
  show (serverId, stored.val, (window kind j).periodType, (window kind j).periodStart) = _
  rw [window_eq]

/- Each row is that of a window called. -/
theorem Holds.metricOnly {row : MetricAggregate ℚ} (hrow : row ∈ t.metricAggregates) :
    ∃ serverId kind j, .system serverId kind j ∈ calls ∧
      systemSamples raw (window kind j) serverId ≠ [] ∧
      row = metricRow (window kind j) serverId
        (systemStats exact (systemSamples raw (window kind j) serverId)) := by
  obtain ⟨c, hc, hmem⟩ := (h.metricRows row).mp hrow
  obtain ⟨serverId, kind, j, rfl, hne, he⟩ := Call.mem_metricRows.mp hmem
  exact ⟨serverId, kind, j, hc, hne, he⟩

theorem Holds.dockerOnly (hfit : ∀ c ∈ calls, c.Fits raw) {row : DockerAggregate ℚ}
    (hrow : row ∈ t.dockerAggregates) :
    ∃ serverId kind j, .docker serverId kind j ∈ calls ∧
      containerSamples raw (window kind j) serverId row.containerName.val ≠ [] ∧
      row = dockerRow (window kind j) serverId row.containerName (dockerStats exact
        (containerSamples raw (window kind j) serverId row.containerName.val)) := by
  obtain ⟨c, hc, hmem⟩ := (h.dockerRows row).mp hrow
  obtain ⟨serverId, kind, j, rfl, hne, he⟩ := (Call.mem_dockerRows (hfit c hc)).mp hmem
  exact ⟨serverId, kind, j, hc, hne, he⟩

end

/- A container that is stored has a name that fits. -/
theorem Settled.fits {raw : Raw ℚ} {sessions : List (List Job)} (h : Settled raw sessions) :
    ∀ c ∈ callsOf sessions, c.Fits raw := by
  intro c hc
  cases c with
  | system serverId kind j => trivial
  | docker serverId kind j =>
    intro m hm
    have hne : containerSamples raw (window kind j) serverId m.containerName ≠ [] :=
      List.ne_nil_of_mem (List.mem_filter.mpr ⟨hm, decide_eq_true rfl⟩)
    obtain ⟨row, hrow, hkey⟩ := h.dockerStored serverId kind j m.containerName hc hne
    have hname : row.containerName.val = m.containerName := congrArg (fun k => k.2.1) hkey
    have hstored := ((tablesOf_sound raw sessions).2 row hrow).2
    rw [hname] at hstored
    exact hstored

/-- After any calls in any sessions the tables are those of calling each window once, exactly
when no docker call has a container name that does not fit. -/
theorem settled_iff_names_fit (raw : Raw ℚ) (sessions : List (List Job)) :
    Settled raw sessions ↔ ∀ c ∈ callsOf sessions, c.Fits raw := by
  refine ⟨Settled.fits, fun hfit => ?_⟩
  have hall := tablesOf_holds hfit
  have hsound := tablesOf_sound raw sessions
  exact {
    same := by
      intro once _ hsame
      have honce : ∀ c ∈ callsOf (once.map fun job => [job]), c.Fits raw := by
        intro c hc
        rw [callsOf_once, hsame] at hc
        exact hfit c hc
      refine hall.sameRows (tablesOf_holds honce) fun c => ?_
      rw [callsOf_once, hsame]
    metricKeys := hall.metricKeys
    dockerKeys := hall.dockerKeys
    metricStored := fun _ _ _ hc hne => hall.metricStored hc hne
    dockerStored := fun _ _ _ _ hc hne => hall.dockerStored hfit hc hne
    metricOnly := fun _ hrow => hall.metricOnly hrow
    dockerOnly := fun _ hrow => hall.dockerOnly hfit hrow
    metricOk := hsound.1
    dockerOk := fun row hrow => (hsound.2 row hrow).1 }

/- One call over an hour with a container name of 256 characters: the window has samples
of it, and the table has no row for it. -/
theorem long_name_not_stored :
    containerSamples longHour (window .hourly 0) 1 longName ≠ [] ∧
      (∀ row ∈ (tablesOf longHour [[⟨exactEngine, .docker 1 .hourly 0⟩]]).dockerAggregates,
        dockerKey row ≠ (1, longName, .hourly, 0)) ∧
      ¬ Settled longHour [[⟨exactEngine, .docker 1 .hourly 0⟩]] := by
  have hsamples : containerSamples longHour (window .hourly 0) 1 longName ≠ [] := by
    have hhour : dockerSamples longHour (window .hourly 0) 1 = longHour.dockerMetrics := rfl
    have hname : longName ∈ containerNames exact longHour (window .hourly 0) 1 := by
      rw [containerNames, hhour, exact.mem_distinct]
      exact List.mem_cons_of_mem _ List.mem_cons_self
    exact containerSamples_ne_nil hname
  have hnone : ∀ row ∈ (tablesOf longHour
      [[⟨exactEngine, .docker 1 .hourly 0⟩]]).dockerAggregates,
      dockerKey row ≠ (1, longName, .hourly, 0) := by
    intro row hrow hkey
    have hname : row.containerName.val = longName := congrArg (fun k => k.2.1) hkey
    have hstored := ((tablesOf_sound _ _).2 row hrow).2
    rw [hname, longName_refused] at hstored
    cases hstored
  refine ⟨hsamples, hnone, fun h => ?_⟩
  obtain ⟨row, hrow, hkey⟩ := h.dockerStored 1 .hourly 0 longName List.mem_cons_self hsamples
  rw [zero_mul] at hkey
  exact hnone row hrow hkey

end PulseWatch.Aggregation
