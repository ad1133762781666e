import PulseWatch.IngestLedger

/-!
# Firing and resolving (`app/services/threshold.py`, `app/services/alert_resolver.py`)

A rule fires on a value of the request, a resolver reads it back from the newest row.
The rows of a batch share one timestamp, so where two of them have one container name
the resolver may read the other one.
-/

namespace PulseWatch.Alerts

open Threshold (Reading Pending)

/-! ### The rows of a request -/

def Ingest.metrics (g : Ingest) : List (Metric PyFloat) :=
  match g.body with
  | .metric data => [⟨g.firstRow, g.serverId, data.cpuPercent, data.memoryPercent,
      data.diskPercent, g.startedAt⟩]
  | .docker _ => []

def Ingest.dockerMetrics (g : Ingest) : List (DockerMetric PyFloat) :=
  match g.body with
  | .metric _ => []
  | .docker data => Fleet.dockerRows g.serverId g.startedAt g.firstRow data

/- A store step adds just these. -/
theorem store_rows {cr : Crypto} {floatStr : PyFloat → String} {attrs : Attributes} {s s' : Db}
    {i : ℕ} {g : Ingest} (hg : s.stores i = some g)
    (hs : step cr floatStr attrs s (.store i) = some s') :
    s'.fleet.metrics = g.metrics ++ s.fleet.metrics ∧
      s'.fleet.dockerMetrics = g.dockerMetrics ++ s.fleet.dockerMetrics := by
  obtain ⟨server, startedAt, body, fleet, hfleet, rfl, rfl⟩ := stores_inv hg hs
  cases body with
  | metric data =>
    obtain ⟨version?, -, rfl⟩ := Option.map_eq_some_iff.mp hfleet
    exact ⟨rfl, rfl⟩
  | docker data =>
    simp only [Fleet.storeSubmission, Fleet.storeDocker] at hfleet
    split at hfleet
    · obtain rfl := Option.some.inj hfleet
      exact ⟨rfl, rfl⟩
    · cases hfleet

theorem mem_dockerRows {serverId : ℕ} {startedAt : Instant} {id : ℕ}
    {data : List DockerMetricCreate} {m : DockerMetric PyFloat}
    (h : m ∈ Fleet.dockerRows serverId startedAt id data) :
    ∃ item ∈ data, ∃ k, m = Fleet.dockerRow serverId startedAt k item := by
  induction data generalizing id with
  | nil => cases h
  | cons item items ih =>
    rcases List.mem_cons.mp h with rfl | h
    · exact ⟨item, List.mem_cons_self, id, rfl⟩
    · obtain ⟨other, hother, k, hm⟩ := ih h
      exact ⟨other, List.mem_cons_of_mem item hother, k, hm⟩

theorem dockerRows_mem (serverId : ℕ) (startedAt : Instant) (id : ℕ)
    {data : List DockerMetricCreate} {item : DockerMetricCreate} (h : item ∈ data) :
    ∃ k, Fleet.dockerRow serverId startedAt k item ∈
      Fleet.dockerRows serverId startedAt id data := by
  induction data generalizing id with
  | nil => cases h
  | cons other items ih =>
    rcases List.mem_cons.mp h with rfl | h
    · exact ⟨id, List.mem_cons_self⟩
    · obtain ⟨k, hk⟩ := ih (id + 1) h
      exact ⟨k, List.mem_cons_of_mem _ hk⟩

/-! ### The question -/

/- The newest entries of a table about one thing are these rows. -/
structure StillNewest {M : Type} (collectedAt : M → Instant) (rows table : List M)
    (about : M → Bool) : Prop where
  some_row : ∃ m ∈ rows, about m = true
  present : ∀ m ∈ rows, about m = true → m ∈ table
  newest : ∀ m ∈ table, about m = true →
    m ∈ rows ∨ ∀ m' ∈ rows, about m' = true → collectedAt m < collectedAt m'

/- The rows of the request are the newest of its server, or of its server and the
event's container. -/
def Current (s : Db) (f : Firing) : Prop :=
  match f.rule.metricType with
  | .system => StillNewest Metric.collectedAt f.ingest.metrics s.fleet.metrics
      fun m => m.serverId = f.event.serverId
  | .docker => StillNewest DockerMetric.collectedAt f.ingest.dockerMetrics s.fleet.dockerMetrics
      fun m => m.serverId = f.event.serverId ∧ some m.containerName = f.event.containerName

/- The rule still has the condition it fired with. -/
def Unchanged (s : Db) (f : Firing) : Prop :=
  ∃ r ∈ s.rules, r.id = f.rule.id ∧ r.metricType = f.rule.metricType ∧
    r.metricField = f.rule.metricField ∧ r.operator = f.rule.operator ∧
    r.thresholdValue = f.rule.thresholdValue

/- No resolver run closes the event, whatever the ties. -/
def NotResolved (attrs : Attributes) (s : Db) (e : AlertEvent) : Prop :=
  ∀ reads now₁ now₂, e ∈ (runResolvers attrs reads now₁ now₂ s).2.events

/- Every reading of the request about the event's container that has a value breaches
the rule. -/
def Agrees (f : Firing) : Prop :=
  ∀ x ∈ readings f.ingest.serverId f.ingest.body, x.container = f.event.containerName →
    ∀ value, x.data.get? f.rule.metricField = some value →
      Threshold.compare value f.rule.operator f.rule.thresholdValue = true

/-! ### What the resolver reads -/

/- The value of a reading as the resolver sees it. -/
def seenValue (x : Reading) (field : String) : PyVal :=
  match x.data.get? field with
  | none => .none
  | some value => .num value

def keysOf : MetricType → List String
  | .system => ["cpu_percent", "memory_percent", "disk_percent"]
  | .docker => ["cpu_percent", "memory_usage_mb", "memory_limit_mb"]

theorem given_key {x : Reading} {field : String} {value : PyFloat}
    (h : x.data.get? field = some value) : field ∈ keysOf x.metricType := by
  have hlookup : x.data.lookup field = some (some value) := Option.join_eq_some_iff.mp h
  obtain ⟨before, after, hdata, -⟩ := List.lookup_eq_some_iff.mp hlookup
  have hmem : (field, some value) ∈ x.data := by
    rw [hdata]
    exact List.mem_append_right _ List.mem_cons_self
  have hkey : field ∈ x.data.map Prod.fst := List.mem_map_of_mem hmem
  cases x with
  | system s cpu memory disk => exact hkey
  | docker s name cpu usage limit => exact hkey

theorem system_value {m : Metric PyFloat} {others : String → PyVal} {field : String}
    (h : field ∈ keysOf .system) :
    getattr (metricColumns m) others field =
      seenValue (.system m.serverId m.cpuPercent m.memoryPercent m.diskPercent) field := by
  simp only [keysOf, List.mem_cons, List.not_mem_nil, or_false] at h
  rcases h with rfl | rfl | rfl <;> rfl

theorem docker_value {m : DockerMetric PyFloat} {others : String → PyVal} {field : String}
    (h : field ∈ keysOf .docker) :
    getattr (dockerColumns m) others field =
      seenValue (.docker m.serverId m.containerName m.cpuPercent m.memoryUsageMb
        m.memoryLimitMb) field := by
  simp only [keysOf, List.mem_cons, List.not_mem_nil, or_false] at h
  rcases h with rfl | rfl | rfl
  · rfl
  · rfl
  · cases hlimit : m.memoryLimitMb with
    | none => simp [getattr, dockerColumns, hlimit, seenValue]; rfl
    | some x => simp [getattr, dockerColumns, hlimit, seenValue]; rfl

/- A reading is resolved exactly when it has a value that does not breach. -/
theorem verdict_seen (x : Reading) (r : AlertRule) :
    verdict (seenValue x r.metricField) r = some false ↔
      ∃ value, x.data.get? r.metricField = some value ∧
        Threshold.compare value r.operator r.thresholdValue = false := by
  unfold seenValue
  cases x.data.get? r.metricField with
  | none => simp [verdict]
  | some value => simp [verdict, compareVal]

theorem StillNewest.pick {M : Type} {collectedAt : M → Instant} {rows table : List M}
    {about : M → Bool} (h : StillNewest collectedAt rows table about)
    (newest : Newest M collectedAt) {m : M} (hm : newest.pick (table.filter about) = some m) :
    m ∈ rows ∧ about m = true := by
  obtain ⟨hin, habout⟩ := List.mem_filter.mp (newest.pick_mem _ m hm)
  refine ⟨(h.newest m hin habout).resolve_right fun hold => ?_, habout⟩
  obtain ⟨m', hrow, habout'⟩ := h.some_row
  have hlt := hold m' hrow habout'
  have hle := newest.pick_newest _ m hm m'
    (List.mem_filter.mpr ⟨h.present m' hrow habout', habout'⟩)
  exact absurd hlt (not_lt.mpr hle)

/- A query that takes a given row where it is among the newest. -/
def Newest.prefer {M : Type} [DecidableEq M] (collectedAt : M → Instant) (m : M) :
    Newest M collectedAt where
  pick ms := if m ∈ ms ∧ ∀ m' ∈ ms, collectedAt m' ≤ collectedAt m then some m
    else newestOf collectedAt ms
  pick_none ms := by
    split
    · next h =>
      refine iff_of_false (Option.some_ne_none m) ?_
      rintro rfl
      exact List.not_mem_nil h.1
    · exact newestOf_none collectedAt ms
  pick_mem ms n h := by
    split at h
    · next hm =>
      obtain rfl := Option.some.inj h
      exact hm.1
    · exact (newestOf_max h).1
  pick_newest ms n h := by
    split at h
    · next hm =>
      obtain rfl := Option.some.inj h
      exact hm.2
    · exact (newestOf_max h).2

theorem StillNewest.prefer {M : Type} [DecidableEq M] {collectedAt : M → Instant}
    {rows table : List M} {about : M → Bool} (h : StillNewest collectedAt rows table about)
    {at' : Instant} (htie : ∀ m ∈ rows, collectedAt m = at') {m : M} (hm : m ∈ rows)
    (habout : about m = true) :
    (Newest.prefer collectedAt m).pick (table.filter about) = some m := by
  refine if_pos ⟨List.mem_filter.mpr ⟨h.present m hm habout, habout⟩, fun m' hm' => ?_⟩
  obtain ⟨hin, habout'⟩ := List.mem_filter.mp hm'
  rcases h.newest m' hin habout' with hrow | hold
  · rw [htie m' hrow, htie m hm]
  · exact (hold m hm habout).le

theorem StillNewest.found {M : Type} {collectedAt : M → Instant} {rows table : List M}
    {about : M → Bool} (h : StillNewest collectedAt rows table about)
    (newest : Newest M collectedAt) : newest.pick (table.filter about) ≠ none := by
  rw [Ne, newest.pick_none]
  intro hnil
  obtain ⟨m, hrow, habout⟩ := h.some_row
  have hin : m ∈ table.filter about := List.mem_filter.mpr ⟨h.present m hrow habout, habout⟩
  rw [hnil] at hin
  cases hin

/- A reading of the request that concerns the event's server or container. -/
def About (f : Firing) (x : Reading) : Prop :=
  x ∈ readings f.ingest.serverId f.ingest.body ∧ x.container = f.event.containerName

section
variable {attrs : Attributes} {s : Db} {f : Firing} {reading : Reading} {value : PyFloat}
  {r : AlertRule} {e : AlertEvent}

theorem Caused.system (h : Caused f reading value) (ht : f.rule.metricType = .system) :
    (∃ data, f.ingest.body = .metric data) ∧ f.event.containerName = none := by
  have hin := h.submitted
  have hcontainer := h.container
  rw [h.metricType] at ht
  cases hbody : f.ingest.body with
  | metric data =>
    rw [hbody] at hin
    obtain rfl := List.mem_singleton.mp hin
    exact ⟨⟨data, rfl⟩, (Option.some.inj hcontainer).symm⟩
  | docker data =>
    rw [hbody] at hin
    obtain ⟨item, -, rfl⟩ := List.mem_map.mp hin
    cases ht

theorem Caused.docker (h : Caused f reading value) (ht : f.rule.metricType = .docker) :
    ∃ data, f.ingest.body = .docker data := by
  have hin := h.submitted
  rw [h.metricType] at ht
  cases hbody : f.ingest.body with
  | docker data => exact ⟨data, rfl⟩
  | metric data =>
    rw [hbody] at hin
    obtain rfl := List.mem_singleton.mp hin
    cases ht

/- The event and the rule as the resolver meets them. -/
structure Met (s : Db) (f : Firing) (r : AlertRule) (e : AlertEvent) : Prop where
  current : Current s f
  metricType : r.metricType = f.rule.metricType
  metricField : r.metricField = f.rule.metricField
  serverId : e.serverId = f.event.serverId
  containerName : e.containerName = f.event.containerName

theorem Met.key (h : Met s f r e) (hc : Caused f reading value) :
    r.metricField ∈ keysOf f.rule.metricType := by
  rw [h.metricField, hc.metricType]
  exact given_key hc.given

theorem Met.about (h : Met s f r e) (hc : Caused f reading value) (attrs : Attributes)
    (reads : Reads) :
    ∃ x, About f x ∧ latestValue attrs reads s e r = seenValue x r.metricField := by
  have hkey := h.key hc
  have hcur := h.current
  unfold latestValue
  rw [h.metricType]
  cases hty : f.rule.metricType with
  | system =>
    obtain ⟨⟨data, hbody⟩, hnone⟩ := hc.system hty
    simp only [Current, hty] at hcur
    rw [hty] at hkey
    unfold getLatestSystemMetric
    rw [h.serverId]
    cases hm : reads.metric.pick
        (s.fleet.metrics.filter fun m => m.serverId = f.event.serverId) with
    | none => exact absurd hm (hcur.found reads.metric)
    | some m =>
      have hrow := (hcur.pick reads.metric hm).1
      simp only [Ingest.metrics, hbody, List.mem_singleton] at hrow
      refine ⟨.system m.serverId m.cpuPercent m.memoryPercent m.diskPercent, ⟨?_, hnone.symm⟩,
        system_value hkey⟩
      rw [hbody, hrow]
      exact List.mem_cons_self
  | docker =>
    obtain ⟨data, hbody⟩ := hc.docker hty
    simp only [Current, hty] at hcur
    rw [hty] at hkey
    unfold getLatestDockerMetric
    rw [h.serverId, h.containerName]
    cases hm : reads.dockerMetric.pick (s.fleet.dockerMetrics.filter fun m =>
        m.serverId = f.event.serverId ∧ some m.containerName = f.event.containerName) with
    | none => exact absurd hm (hcur.found reads.dockerMetric)
    | some m =>
      obtain ⟨hrow, habout⟩ := hcur.pick reads.dockerMetric hm
      simp only [Ingest.dockerMetrics, hbody] at hrow
      obtain ⟨item, hitem, k, hrow⟩ := mem_dockerRows hrow
      refine ⟨.docker m.serverId m.containerName m.cpuPercent m.memoryUsageMb m.memoryLimitMb,
        ⟨?_, (of_decide_eq_true habout).2⟩, docker_value hkey⟩
      rw [hbody, hrow]
      exact List.mem_map.mpr ⟨item, hitem, rfl⟩

theorem Met.picked (h : Met s f r e) (hc : Caused f reading value) (attrs : Attributes)
    (hty : f.rule.metricType = .docker) {x : Reading} (hx : About f x) :
    ∃ reads, latestValue attrs reads s e r = seenValue x r.metricField := by
  have hkey := h.key hc
  have hcur := h.current
  obtain ⟨data, hbody⟩ := hc.docker hty
  obtain ⟨hin, hname⟩ := hx
  rw [hbody] at hin
  obtain ⟨item, hitem, rfl⟩ := List.mem_map.mp hin
  obtain ⟨k, hrow⟩ := dockerRows_mem f.ingest.serverId f.ingest.startedAt f.ingest.firstRow hitem
  simp only [Current, hty, Ingest.dockerMetrics, hbody] at hcur
  rw [hty] at hkey
  have htie : ∀ m ∈ Fleet.dockerRows f.ingest.serverId f.ingest.startedAt f.ingest.firstRow data,
      m.collectedAt = f.ingest.startedAt := by
    intro m hm
    obtain ⟨_, -, _, rfl⟩ := mem_dockerRows hm
    rfl
  refine ⟨⟨Newest.first _, Newest.prefer _ (Fleet.dockerRow f.ingest.serverId f.ingest.startedAt k
    item)⟩, ?_⟩
  have hpick := hcur.prefer htie hrow (decide_eq_true ⟨hc.serverId.symm, hname⟩)
  unfold latestValue getLatestDockerMetric
  rw [h.metricType, hty, h.serverId, h.containerName]
  simp only [hpick]
  exact docker_value hkey

theorem Caused.agrees (hc : Caused f reading value) (hty : f.rule.metricType = .system) :
    Agrees f := by
  obtain ⟨⟨data, hbody⟩, -⟩ := hc.system hty
  intro x hx _ v hv
  have hin := hc.submitted
  rw [hbody] at hx hin
  have hsame : x = reading :=
    (List.mem_singleton.mp hx).trans (List.mem_singleton.mp hin).symm
  rw [hsame, hc.given] at hv
  rw [← Option.some.inj hv]
  exact hc.breach

/-! ### What a run does with the event -/

theorem settleType_keeps {reads : Reads} {ty : MetricType} {now : Instant}
    (h : ∀ r, (s.rules.find? fun q => q.id = e.ruleId) = some r →
      ¬ (r.metricType = ty ∧ verdict (latestValue attrs reads s e r) r = some false)) :
    settleType attrs reads ty now s e = e := by
  unfold settleType
  split
  · next r _ hfind => rw [if_neg (h r hfind)]
  · rfl

/- An event that neither pass finds over stays open, also when a pass raises. -/
theorem stays_open (h : Keyed s) (he : e ∈ s.events) {reads : Reads}
    (hv : ∀ r, (s.rules.find? fun q => q.id = e.ruleId) = some r →
      verdict (latestValue attrs reads s e r) r ≠ some false) (now₁ now₂ : Instant) :
    e ∈ (runResolvers attrs reads now₁ now₂ s).2.events := by
  unfold runResolvers
  cases hsys : autoResolveSystemAlerts attrs reads now₁ s with
  | none => exact he
  | some t =>
    have ht := autoResolveSystemAlerts_some h hsys
    have hkeyed : Keyed t := by
      rw [ht]
      exact h.settled _ (settleType_id attrs reads .system now₁ s)
    have hmem : e ∈ t.events := by
      rw [ht]
      exact List.mem_map.mpr ⟨e, he, settleType_keeps fun r hr hboth => hv r hr hboth.2⟩
    cases hdock : autoResolveDockerAlerts attrs reads now₂ t with
    | none =>
      simp only [hdock]
      exact hmem
    | some u =>
      simp only [hdock]
      have hvalue : ∀ r, latestValue attrs reads t e r = latestValue attrs reads s e r := by
        rw [ht]
        exact fun r => rfl
      have hrules : t.rules = s.rules := by rw [ht]
      rw [show u = _ from autoResolveDockerAlerts_some hkeyed hdock]
      refine List.mem_map.mpr ⟨e, hmem, settleType_keeps fun r hr hboth => ?_⟩
      rw [hrules] at hr
      rw [hvalue] at hboth
      exact hv r hr hboth.2

/- A docker event is left alone by a run that raises. -/
theorem stays_blocked (h : Keyed s) (he : e ∈ s.events) {reads : Reads} {now₁ now₂ : Instant}
    (hraises : (runResolvers attrs reads now₁ now₂ s).1 = true)
    (hfind : (s.rules.find? fun q => q.id = e.ruleId) = some r) (hty : r.metricType = .docker) :
    e ∈ (runResolvers attrs reads now₁ now₂ s).2.events := by
  unfold runResolvers at hraises ⊢
  cases hsys : autoResolveSystemAlerts attrs reads now₁ s with
  | none => exact he
  | some t =>
    have ht := autoResolveSystemAlerts_some h hsys
    cases hdock : autoResolveDockerAlerts attrs reads now₂ t with
    | none =>
      simp only [hdock]
      rw [ht]
      refine List.mem_map.mpr ⟨e, he, settleType_keeps fun q hq hboth => ?_⟩
      rw [hfind] at hq
      rw [← Option.some.inj hq, hty] at hboth
      cases hboth.1
    | some u =>
      rw [hsys] at hraises
      simp only [hdock] at hraises
      cases hraises

theorem settle_id (attrs : Attributes) (reads : Reads) (now₁ now₂ : Instant) (s : Db)
    (e : AlertEvent) : (settle attrs reads now₁ now₂ s e).id = e.id := by
  unfold settle
  split
  · split
    · rfl
    · rfl
  · rfl

/- A run that finishes closes an event whose condition is over. -/
theorem closed_event (h : Keyed s) (he : e ∈ s.events) (hopen : e.resolvedAt = none)
    (hclear : ∀ e' ∈ s.events, ∀ q ∈ s.rules, ¬ Blocking attrs s e' q) {reads : Reads}
    (hfind : (s.rules.find? fun q => q.id = e.ruleId) = some r)
    (hv : verdict (latestValue attrs reads s e r) r = some false) (now₁ now₂ : Instant) :
    e ∉ (runResolvers attrs reads now₁ now₂ s).2.events := by
  rw [runResolvers_finishes h hclear now₁ now₂]
  intro hin
  obtain ⟨q, hq, hqe⟩ := List.mem_map.mp hin
  have hqid : q.id = e.id := by
    rw [← hqe, settle_id]
  obtain rfl := List.inj_on_of_nodup_map h.events hq he hqid
  unfold settle at hqe
  simp only [hopen, hfind, hv, if_true] at hqe
  rw [← hqe] at hopen
  cases hopen

end

/- While its rule keeps its condition and the rows of its request are the newest, no
resolver run closes an event exactly when every reading of the request about the same
container agrees with the one that fired, or when the runs raise. -/
theorem not_resolved_iff {cr : Crypto} {floatStr : PyFloat → String} {attrs : Attributes}
    {now : Instant} {t : Ledger}
    (hr : Runs.Reachable (Ledger.step cr floatStr attrs) (Ledger.start now) t) {f : Firing}
    (hf : f ∈ t.firings) {e : AlertEvent} (he : e ∈ t.db.events) (hid : e.id = f.event.id)
    (hopen : e.resolvedAt = none) (hsame : Unchanged t.db f) (hcur : Current t.db f) :
    NotResolved attrs t.db e ↔
      Agrees f ∨ ∃ e' ∈ t.db.events, ∃ r ∈ t.db.rules, Blocking attrs t.db e' r := by
  have htr : Traced floatStr t := reachable_traced hr
  have hkeyed := htr.formed.toKeyed
  obtain ⟨reading, value, hc⟩ := htr.caused f hf
  obtain ⟨hrule, hserver, hname⟩ := htr.kept f hf e he hid
  obtain ⟨r, hin, hrid, htype, hfield, hop, hthreshold⟩ := hsame
  have hmet : Met t.db f r e := ⟨hcur, htype, hfield, hserver, hname⟩
  have hfind : (t.db.rules.find? fun q => q.id = e.ruleId) = some r :=
    hkeyed.find_rule hin (hrid.trans (hc.ruleId.symm.trans hrule.symm))
  constructor
  · intro hstays
    by_contra hnot
    obtain ⟨hdis, hclear⟩ := not_or.mp hnot
    have hclear' : ∀ e' ∈ t.db.events, ∀ q ∈ t.db.rules, ¬ Blocking attrs t.db e' q :=
      fun e' he' q hq hb => hclear ⟨e', he', q, hq, hb⟩
    simp only [Agrees, not_forall] at hdis
    obtain ⟨x, hx, hcontainer, v, hv, hbreach⟩ := hdis
    cases hty : f.rule.metricType with
    | system => exact hbreach (hc.agrees hty x hx hcontainer v hv)
    | docker =>
      obtain ⟨reads, hlatest⟩ := hmet.picked hc attrs hty ⟨hx, hcontainer⟩
      refine closed_event hkeyed he hopen hclear' hfind ?_ 0 0 (hstays reads 0 0)
      rw [hlatest, verdict_seen]
      refine ⟨v, hfield ▸ hv, ?_⟩
      rw [hop, hthreshold]
      exact Bool.eq_false_iff.mpr hbreach
  · intro h reads now₁ now₂
    have hagree : Agrees f → e ∈ (runResolvers attrs reads now₁ now₂ t.db).2.events := by
      intro hagree
      refine stays_open hkeyed he (fun q hq => ?_) now₁ now₂
      rw [← Option.some.inj (hfind.symm.trans hq)]
      obtain ⟨x, hx, hlatest⟩ := hmet.about hc attrs reads
      rw [hlatest, Ne, verdict_seen]
      rintro ⟨v, hv, hbreach⟩
      rw [hop, hthreshold, hagree x hx.1 hx.2 v (hfield ▸ hv)] at hbreach
      cases hbreach
    rcases h with h | ⟨e', he', q, hq, hb⟩
    · exact hagree h
    · cases hty : f.rule.metricType with
      | system => exact hagree (hc.agrees hty)
      | docker =>
        exact stays_blocked hkeyed he (runResolvers_raises reads hkeyed he' hq hb now₁ now₂) hfind
          (htype.trans hty)

def container (name : String) (cpu : ℚ) : DockerMetricCreate :=
  { containerId := name, containerName := name, image := "img", status := "running"
    cpuPercent := .fin cpu, memoryUsageMb := .fin 10 }

/- A rule for the containers of a server, and a batch that is evaluated to the end. -/
def batchRun (data : List DockerMetricCreate) : List Label :=
  [.fleet (.register 0 1 "web" "pwk_agent" "$2b$12$KeyKeyKeyKeyKeyKeyKeyu"),
    .create 1 { cpuBody 1 with metricType := .docker },
    .fleet (.verify 1 ⟨1, "pwk_agent"⟩ (.docker data)), .store 1, .load 1, .commit 1, .load 1]

theorem not_resolved_iff_distinct :
    ∃ t e, Runs.run (Ledger.step tabledCrypto Threshold.tabledFloatStr plainAttributes)
        (Ledger.start 0) (batchRun [container "web" 90, container "db" 10]) = some t ∧
      e ∈ t.db.events ∧ NotResolved plainAttributes t.db e := by
  have hrun : Runs.run (Ledger.step tabledCrypto Threshold.tabledFloatStr plainAttributes)
      (Ledger.start 0) (batchRun [container "web" 90, container "db" 10]) = some _ := rfl
  refine ⟨_, _, hrun, List.mem_cons_self, ?_⟩
  refine (not_resolved_iff ⟨_, hrun⟩ List.mem_cons_self List.mem_cons_self rfl rfl ?_ ?_).mpr
    (Or.inl ?_)
  · exact ⟨_, List.mem_cons_self, rfl, rfl, rfl, rfl, rfl⟩
  · exact ⟨by decide, by decide, by decide⟩
  · intro x hx hname value hvalue
    rcases List.mem_pair.mp hx with rfl | rfl
    · have hgiven : some (PyFloat.fin 90) = some value := hvalue
      rw [← Option.some.inj hgiven]
      decide
    · exact absurd hname (by decide)

/- Two containers of one name: the second row is as new as the first, and not over the
threshold. -/
theorem resolved_by_tied_row :
    ∃ t f e, Runs.run (Ledger.step tabledCrypto Threshold.tabledFloatStr plainAttributes)
        (Ledger.start 0) (batchRun [container "web" 90, container "web" 10]) = some t ∧
      f ∈ t.firings ∧ e ∈ t.db.events ∧ e.id = f.event.id ∧ e.resolvedAt = none ∧
      Unchanged t.db f ∧ Current t.db f ∧ ¬ NotResolved plainAttributes t.db e := by
  refine ⟨_, _, _, rfl, List.mem_cons_self, List.mem_cons_self, rfl, rfl, ?_, ?_, ?_⟩
  · exact ⟨_, List.mem_cons_self, rfl, rfl, rfl, rfl, rfl⟩
  · exact ⟨by decide, by decide, by decide⟩
  · intro h
    have hstays := h ⟨Newest.first _, Newest.prefer _ (Fleet.dockerRow 1 0 2 (container "web" 10))⟩
      0 0
    revert hstays
    decide

end PulseWatch.Alerts
