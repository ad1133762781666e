import Mathlib.Data.List.Nodup
import PulseWatch.AlertRules
import PulseWatch.Lib.KeyedTable

/-!
# Auto-resolving alerts (`app/services/alert_resolver.py`)

One pass walks the open events of all users and commits once at its end. Rules can
name any attribute of the metric row, so `_compare` meets values that are no
numbers: an ordering operator then raises and the pass is lost for everybody.
-/

namespace PulseWatch.Alerts

/- What `getattr` returns: `None`, a number, or an object that has no order with
floats and equals none. -/
inductive PyVal where
  | none
  | num (x : PyFloat)
  | obj
  deriving DecidableEq, Repr

/-- `_compare`; `none` is the TypeError. -/
def compareVal (actual : PyVal) (operator : ThresholdOperator) (threshold : PyFloat) :
    Option Bool :=
  match actual with
  | .num x => some (Threshold.compare x operator threshold)
  | _ => match operator with
    | .eq => some false
    | .neq => some true
    | _ => none

/-- `>`, `>=`, `<`, `<=`. -/
def isOrdering : ThresholdOperator → Bool
  | .eq | .neq => false
  | _ => true

def metricColumns (m : Metric PyFloat) : List (String × PyVal) :=
  [("id", .num (.ofInt m.id)), ("server_id", .num (.ofInt m.serverId)),
    ("cpu_percent", .num m.cpuPercent), ("memory_percent", .num m.memoryPercent),
    ("disk_percent", .num m.diskPercent), ("collected_at", .obj)]

def dockerColumns (m : DockerMetric PyFloat) : List (String × PyVal) :=
  [("id", .num (.ofInt m.id)), ("server_id", .num (.ofInt m.serverId)), ("container_id", .obj),
    ("container_name", .obj), ("image", .obj), ("status", .obj),
    ("cpu_percent", .num m.cpuPercent), ("memory_usage_mb", .num m.memoryUsageMb),
    ("memory_limit_mb", match m.memoryLimitMb with
      | none => .none
      | some x => .num x), ("collected_at", .obj)]

/- The attributes of the two mapped classes that are not columns; `.none` for a name
they do not have. -/
structure Attributes where
  metric : String → PyVal
  dockerMetric : String → PyVal

/-- `getattr(latest, field, None)`. -/
def getattr (columns : List (String × PyVal)) (others : String → PyVal) (field : String) : PyVal :=
  (columns.lookup field).getD (others field)

/- `ORDER BY collected_at DESC LIMIT 1`: one of the newest rows. -/
structure Newest (M : Type) (collectedAt : M → Instant) where
  pick : List M → Option M
  pick_none : ∀ ms, pick ms = none ↔ ms = []
  pick_mem : ∀ ms m, pick ms = some m → m ∈ ms
  pick_newest : ∀ ms m, pick ms = some m → ∀ m' ∈ ms, collectedAt m' ≤ collectedAt m

structure Reads where
  metric : Newest (Metric PyFloat) Metric.collectedAt
  dockerMetric : Newest (DockerMetric PyFloat) DockerMetric.collectedAt

def getLatestSystemMetric (reads : Reads) (s : Db) (serverId : ℕ) : Option (Metric PyFloat) :=
  reads.metric.pick (s.fleet.metrics.filter fun m => m.serverId = serverId)

def getLatestDockerMetric (reads : Reads) (s : Db) (key : ℕ × Option String) :
    Option (DockerMetric PyFloat) :=
  reads.dockerMetric.pick
    (s.fleet.dockerMetrics.filter fun m => m.serverId = key.1 ∧ some m.containerName = key.2)

/- The SELECT of a pass: open events joined with their rules of one metric type. -/
def Db.openPairs (s : Db) (metricType : MetricType) (eligible : AlertEvent → Bool) :
    List (AlertEvent × AlertRule) :=
  (s.events.filter fun e => e.resolvedAt.isNone && eligible e).flatMap fun e =>
    (s.rules.filter fun r => r.id = e.ruleId ∧ r.metricType = metricType).map fun r => (e, r)

section
variable {K M : Type} [DecidableEq K] (latest : K → Option M) (value : M → String → PyVal)
  (key : AlertEvent → K)

/- The loop with its cache of latest metrics: ids to resolve, or the exception. -/
def resolveLoop : List (K × Option M) → List (AlertEvent × AlertRule) → Option (List ℕ)
  | _, [] => some []
  | cache, (event, rule) :: rows =>
    let cache := match cache.lookup (key event) with
      | some _ => cache
      | none => (key event, latest (key event)) :: cache
    match (cache.lookup (key event)).join with
    | none => resolveLoop cache rows
    | some row =>
      match value row rule.metricField with
      | .none => resolveLoop cache rows
      | latestValue =>
        match compareVal latestValue rule.operator rule.thresholdValue with
        | none => none
        | some true => resolveLoop cache rows
        | some false => (resolveLoop cache rows).map (event.id :: ·)

end

def resolveEvent (now : Instant) (ids : List ℕ) (e : AlertEvent) : AlertEvent :=
  if e.id ∈ ids then { e with resolvedAt := some now } else e

/- The commit at the end of a pass. -/
def Db.resolve (s : Db) (now : Instant) (ids : List ℕ) : Db :=
  if ids = [] then s else { s with events := s.events.map (resolveEvent now ids) }

section
variable (attrs : Attributes) (reads : Reads)

def autoResolveSystemAlerts (now : Instant) (s : Db) : Option Db :=
  (resolveLoop (getLatestSystemMetric reads s)
    (fun m field => getattr (metricColumns m) attrs.metric field) AlertEvent.serverId []
    (s.openPairs .system fun _ => true)).map (s.resolve now)

def autoResolveDockerAlerts (now : Instant) (s : Db) : Option Db :=
  (resolveLoop (getLatestDockerMetric reads s)
    (fun m field => getattr (dockerColumns m) attrs.dockerMetric field)
    (fun e => (e.serverId, e.containerName)) []
    (s.openPairs .docker fun e => e.containerName.isSome)).map (s.resolve now)

/- `resolve_tasks._run`: whether it raised, and the database it leaves. -/
def runResolvers (now₁ now₂ : Instant) (s : Db) : Bool × Db :=
  match autoResolveSystemAlerts attrs reads now₁ s with
  | none => (true, s)
  | some t => match autoResolveDockerAlerts attrs reads now₂ t with
    | none => (true, t)
    | some u => (false, u)

/- A run writes no other table than that of the events. -/
theorem runResolvers_only (now₁ now₂ : Instant) (s : Db) :
    ∃ events, (runResolvers attrs reads now₁ now₂ s).2 = { s with events } := by
  have hresolve : ∀ (t : Db) now ids, ∃ events, t.resolve now ids = { t with events } := by
    intro t now ids
    unfold Db.resolve
    split
    · exact ⟨t.events, rfl⟩
    · exact ⟨_, rfl⟩
  unfold runResolvers
  split
  · exact ⟨s.events, rfl⟩
  · next t ht =>
    obtain ⟨ids, -, rfl⟩ := Option.map_eq_some_iff.mp ht
    obtain ⟨events, hevents⟩ := hresolve s now₁ ids
    split
    · exact ⟨events, hevents⟩
    · next u hu =>
      obtain ⟨ids', -, rfl⟩ := Option.map_eq_some_iff.mp hu
      obtain ⟨events', hevents'⟩ := hresolve (s.resolve now₁ ids) now₂ ids'
      exact ⟨events', by rw [hevents', hevents]⟩

/-! ### What the passes are for -/

/- The value of `rule.metric_field` in the latest metric a rule is about, `None` when
there is no such metric. -/
def latestValue (s : Db) (e : AlertEvent) (r : AlertRule) : PyVal :=
  match r.metricType with
  | .system => match getLatestSystemMetric reads s e.serverId with
    | none => .none
    | some m => getattr (metricColumns m) attrs.metric r.metricField
  | .docker => match getLatestDockerMetric reads s (e.serverId, e.containerName) with
    | none => .none
    | some m => getattr (dockerColumns m) attrs.dockerMetric r.metricField

/- Whether the condition still holds on a value; `None` counts as holding, and an
object without an order raises. -/
def verdict (v : PyVal) (r : AlertRule) : Option Bool :=
  match v with
  | .none => some true
  | v => compareVal v r.operator r.thresholdValue

/- The event after both passes, from its own rule and its own server's metrics. -/
def settle (now₁ now₂ : Instant) (s : Db) (e : AlertEvent) : AlertEvent :=
  match e.resolvedAt, s.rules.find? fun r => r.id = e.ruleId with
  | none, some r =>
    if verdict (latestValue attrs reads s e r) r = some false then
      { e with resolvedAt := some (if r.metricType = .system then now₁ else now₂) }
    else e
  | _, _ => e

end

def ResolverSound (attrs : Attributes) (s : Db) : Prop :=
  ∀ reads now₁ now₂, runResolvers attrs reads now₁ now₂ s =
    (false, { s with events := s.events.map (settle attrs reads now₁ now₂ s) })

/-! ### Where it raises -/

def metricTypeColumns : MetricType → List (String × Bool)
  | .system => [("id", true), ("server_id", true), ("cpu_percent", true), ("memory_percent", true),
      ("disk_percent", true), ("collected_at", false)]
  | .docker => [("id", true), ("server_id", true), ("container_id", false),
      ("container_name", false), ("image", false), ("status", false), ("cpu_percent", true),
      ("memory_usage_mb", true), ("memory_limit_mb", true), ("collected_at", false)]

/- The rule orders an attribute that is no number. -/
def Unordered (attrs : Attributes) (r : AlertRule) : Prop :=
  isOrdering r.operator = true ∧
    match (metricTypeColumns r.metricType).lookup r.metricField with
    | some number => number = false
    | none => (match r.metricType with
        | .system => attrs.metric r.metricField
        | .docker => attrs.dockerMetric r.metricField) = .obj

/- There is a metric the event is compared with. -/
def Seen (s : Db) (metricType : MetricType) (e : AlertEvent) : Prop :=
  match metricType with
  | .system => ∃ m ∈ s.fleet.metrics, m.serverId = e.serverId
  | .docker => ∃ m ∈ s.fleet.dockerMetrics,
      m.serverId = e.serverId ∧ some m.containerName = e.containerName

/- An open event on which a pass raises. -/
def Blocking (attrs : Attributes) (s : Db) (e : AlertEvent) (r : AlertRule) : Prop :=
  e.resolvedAt = none ∧ r.id = e.ruleId ∧ Unordered attrs r ∧ Seen s r.metricType e

/-! ### The loop -/

/- The loop without its cache. -/
def resolveAll (value : AlertEvent → AlertRule → PyVal) :
    List (AlertEvent × AlertRule) → Option (List ℕ)
  | [] => some []
  | (event, rule) :: rows =>
    match verdict (value event rule) rule with
    | none => none
    | some true => resolveAll value rows
    | some false => (resolveAll value rows).map (event.id :: ·)

section
variable {K M : Type} [DecidableEq K] {latest : K → Option M} {value : M → String → PyVal}
  {key : AlertEvent → K}

theorem resolveLoop_row {cache : List (K × Option M)} (event : AlertEvent) (rule : AlertRule)
    (rows : List (AlertEvent × AlertRule))
    (h : cache.lookup (key event) = some (latest (key event))) :
    resolveLoop latest value key cache ((event, rule) :: rows) =
      match verdict (match latest (key event) with
        | none => .none
        | some m => value m rule.metricField) rule with
      | none => none
      | some true => resolveLoop latest value key cache rows
      | some false => (resolveLoop latest value key cache rows).map (event.id :: ·) := by
  rw [resolveLoop]
  simp only [h, Option.join_some]
  cases latest (key event) with
  | none => rfl
  | some m =>
    simp only
    cases value m rule.metricField with
    | none => rfl
    | num x => rfl
    | obj => rfl

theorem resolveLoop_miss {cache : List (K × Option M)} (event : AlertEvent) (rule : AlertRule)
    (rows : List (AlertEvent × AlertRule)) (h : cache.lookup (key event) = none) :
    resolveLoop latest value key cache ((event, rule) :: rows) =
      resolveLoop latest value key ((key event, latest (key event)) :: cache)
        ((event, rule) :: rows) := by
  have hhit : ((key event, latest (key event)) :: cache).lookup (key event) =
      some (latest (key event)) := List.lookup_cons_self
  rw [resolveLoop, resolveLoop]
  simp only [h, hhit]

/- A cache that holds only what the query returns does not change the loop. -/
theorem resolveLoop_eq {cache : List (K × Option M)}
    (hcache : ∀ k v, cache.lookup k = some v → v = latest k)
    (rows : List (AlertEvent × AlertRule)) :
    resolveLoop latest value key cache rows =
      resolveAll (fun e r => match latest (key e) with
        | none => .none
        | some m => value m r.metricField) rows := by
  induction rows generalizing cache with
  | nil => rfl
  | cons row rows ih =>
    obtain ⟨event, rule⟩ := row
    cases hlookup : cache.lookup (key event) with
    | some v =>
      have hv := hcache _ _ hlookup
      subst hv
      rw [resolveLoop_row event rule rows hlookup, resolveAll, ih hcache]
    | none =>
      have hnew : ∀ k v, ((key event, latest (key event)) :: cache).lookup k = some v →
          v = latest k := by
        intro k v hk
        rw [List.lookup_cons] at hk
        split at hk
        · next heq =>
          rw [beq_iff_eq.mp heq]
          exact (Option.some.inj hk).symm
        · exact hcache k v hk
      rw [resolveLoop_miss event rule rows hlookup,
        resolveLoop_row event rule rows List.lookup_cons_self, resolveAll, ih hnew]

end

section
variable {value : AlertEvent → AlertRule → PyVal}

theorem resolveAll_none {rows : List (AlertEvent × AlertRule)} :
    resolveAll value rows = none ↔ ∃ e r, (e, r) ∈ rows ∧ verdict (value e r) r = none := by
  induction rows with
  | nil => simp [resolveAll]
  | cons row rows ih =>
    obtain ⟨event, rule⟩ := row
    rw [resolveAll]
    constructor
    · intro h
      split at h
      · next hv => exact ⟨event, rule, List.mem_cons_self, hv⟩
      · obtain ⟨e, r, hmem, hv⟩ := ih.mp h
        exact ⟨e, r, List.mem_cons_of_mem _ hmem, hv⟩
      · obtain ⟨e, r, hmem, hv⟩ := ih.mp (Option.map_eq_none_iff.mp h)
        exact ⟨e, r, List.mem_cons_of_mem _ hmem, hv⟩
    · intro h
      obtain ⟨e, r, hmem, hv⟩ := h
      rcases List.mem_cons.mp hmem with heq | hmem
      · cases heq
        rw [hv]
      · have hrest := ih.mpr ⟨e, r, hmem, hv⟩
        split
        · rfl
        · exact hrest
        · rw [hrest]
          rfl

theorem mem_resolveAll {rows : List (AlertEvent × AlertRule)} {ids : List ℕ}
    (h : resolveAll value rows = some ids) (id : ℕ) :
    id ∈ ids ↔ ∃ e r, (e, r) ∈ rows ∧ e.id = id ∧ verdict (value e r) r = some false := by
  induction rows generalizing ids with
  | nil =>
    have hids : [] = ids := Option.some.inj h
    simp [← hids]
  | cons row rows ih =>
    obtain ⟨event, rule⟩ := row
    rw [resolveAll] at h
    have hsplit : (∃ e r, (e, r) ∈ (event, rule) :: rows ∧ e.id = id ∧
        verdict (value e r) r = some false) ↔
        (event.id = id ∧ verdict (value event rule) rule = some false) ∨
        ∃ e r, (e, r) ∈ rows ∧ e.id = id ∧ verdict (value e r) r = some false := by
      constructor
      · intro hex
        obtain ⟨e, r, hmem, hrest⟩ := hex
        rcases List.mem_cons.mp hmem with heq | hmem
        · cases heq
          exact Or.inl hrest
        · exact Or.inr ⟨e, r, hmem, hrest⟩
      · intro hex
        rcases hex with hhead | ⟨e, r, hmem, hrest⟩
        · exact ⟨event, rule, List.mem_cons_self, hhead⟩
        · exact ⟨e, r, List.mem_cons_of_mem _ hmem, hrest⟩
    rw [hsplit]
    split at h
    · cases h
    · next hv =>
      rw [ih h, hv]
      simp
    · next hv =>
      obtain ⟨rest, hrest, rfl⟩ := Option.map_eq_some_iff.mp h
      rw [List.mem_cons, ih hrest, hv]
      simp [eq_comm]

theorem resolveAll_congr {value' : AlertEvent → AlertRule → PyVal}
    {rows : List (AlertEvent × AlertRule)} (h : ∀ e r, (e, r) ∈ rows → value e r = value' e r) :
    resolveAll value rows = resolveAll value' rows := by
  induction rows with
  | nil => rfl
  | cons row rows ih =>
    obtain ⟨event, rule⟩ := row
    rw [resolveAll, resolveAll, h event rule List.mem_cons_self,
      ih fun e r hmem => h e r (List.mem_cons_of_mem _ hmem)]

end

theorem mem_openPairs {s : Db} {t : MetricType} {eligible : AlertEvent → Bool} {e : AlertEvent}
    {r : AlertRule} : (e, r) ∈ s.openPairs t eligible ↔
      e ∈ s.events ∧ e.resolvedAt = none ∧ eligible e = true ∧ r ∈ s.rules ∧ r.id = e.ruleId ∧
        r.metricType = t := by
  unfold Db.openPairs
  constructor
  · intro h
    obtain ⟨e', he', hmem⟩ := List.mem_flatMap.mp h
    obtain ⟨r', hr', heq⟩ := List.mem_map.mp hmem
    cases heq
    obtain ⟨hev, hopen⟩ := List.mem_filter.mp he'
    obtain ⟨hrule, hjoin⟩ := List.mem_filter.mp hr'
    rw [Bool.and_eq_true, Option.isNone_iff_eq_none] at hopen
    have hj := of_decide_eq_true hjoin
    exact ⟨hev, hopen.1, hopen.2, hrule, hj.1, hj.2⟩
  · intro h
    obtain ⟨hev, hopen, hel, hrule, hid, ht⟩ := h
    refine List.mem_flatMap.mpr ⟨e, List.mem_filter.mpr ⟨hev, ?_⟩, ?_⟩
    · rw [hopen, hel]
      rfl
    · exact List.mem_map.mpr ⟨r, List.mem_filter.mpr ⟨hrule, decide_eq_true ⟨hid, ht⟩⟩, rfl⟩

/-! ### One pass -/

/- Keys of the two tables. -/
structure Keyed (s : Db) : Prop where
  rules : (s.rules.map AlertRule.id).Nodup
  events : (s.events.map AlertEvent.id).Nodup

section
variable {attrs : Attributes} {reads : Reads}

theorem autoResolveSystemAlerts_eq (now : Instant) (s : Db) :
    autoResolveSystemAlerts attrs reads now s =
      (resolveAll (latestValue attrs reads s) (s.openPairs .system fun _ => true)).map
        (s.resolve now) := by
  unfold autoResolveSystemAlerts
  rw [resolveLoop_eq fun k v h => by cases h]
  congr 1
  apply resolveAll_congr
  intro e r hmem
  obtain ⟨-, -, -, -, -, ht⟩ := mem_openPairs.mp hmem
  rw [latestValue, ht]
  cases getLatestSystemMetric reads s e.serverId with
  | none => rfl
  | some m => rfl

theorem autoResolveDockerAlerts_eq (now : Instant) (s : Db) :
    autoResolveDockerAlerts attrs reads now s =
      (resolveAll (latestValue attrs reads s)
        (s.openPairs .docker fun e => e.containerName.isSome)).map (s.resolve now) := by
  unfold autoResolveDockerAlerts
  rw [resolveLoop_eq fun k v h => by cases h]
  congr 1
  apply resolveAll_congr
  intro e r hmem
  obtain ⟨-, -, -, -, -, ht⟩ := mem_openPairs.mp hmem
  rw [latestValue, ht]
  cases getLatestDockerMetric reads s (e.serverId, e.containerName) with
  | none => rfl
  | some m => rfl

/- An event without a container has no latest container metric. -/
theorem latestValue_no_container {s : Db} {e : AlertEvent} {r : AlertRule}
    (ht : r.metricType = .docker) (he : e.containerName.isSome = false) :
    latestValue attrs reads s e r = .none := by
  have hnone : e.containerName = none := by
    rw [Option.isSome_eq_false_iff, Option.isNone_iff_eq_none] at he
    exact he
  have hrows : (s.fleet.dockerMetrics.filter fun m =>
      m.serverId = e.serverId ∧ some m.containerName = e.containerName) = [] := by
    rw [hnone]
    simp
  have hpick : getLatestDockerMetric reads s (e.serverId, e.containerName) = none :=
    (reads.dockerMetric.pick_none _).mpr hrows
  simp only [latestValue, ht, hpick]

/- The events a pass over one metric type resolves. -/
def settleType (attrs : Attributes) (reads : Reads) (t : MetricType) (now : Instant) (s : Db)
    (e : AlertEvent) : AlertEvent :=
  match e.resolvedAt, s.rules.find? fun r => r.id = e.ruleId with
  | none, some r =>
    if r.metricType = t ∧ verdict (latestValue attrs reads s e r) r = some false then
      { e with resolvedAt := some now }
    else e
  | _, _ => e

theorem Keyed.find_rule {s : Db} (h : Keyed s) {r : AlertRule} (hr : r ∈ s.rules) {id : ℕ}
    (hid : r.id = id) : (s.rules.find? fun q => q.id = id) = some r :=
  KeyedTable.get?_of_mem h.rules hr hid

theorem find_rule_mem {s : Db} {id : ℕ} {r : AlertRule}
    (h : (s.rules.find? fun q => q.id = id) = some r) : r ∈ s.rules ∧ r.id = id := by
  have hpred := List.find?_some h
  exact ⟨List.mem_of_find?_eq_some h, by simpa using hpred⟩

/- `eligible` may leave out events that have no latest metric. -/
theorem pass_some {s t : Db} (h : Keyed s) {ty : MetricType} {eligible : AlertEvent → Bool}
    (hel : ∀ e r, r.metricType = ty → eligible e = false → latestValue attrs reads s e r = .none)
    {now : Instant}
    (hpass : (resolveAll (latestValue attrs reads s) (s.openPairs ty eligible)).map
      (s.resolve now) = some t) :
    t = { s with events := s.events.map (settleType attrs reads ty now s) } := by
  obtain ⟨ids, hids, rfl⟩ := Option.map_eq_some_iff.mp hpass
  have hevent : ∀ e ∈ s.events, resolveEvent now ids e = settleType attrs reads ty now s e := by
    intro e he
    have hmem : e.id ∈ ids ↔ e.resolvedAt = none ∧ ∃ r,
        (s.rules.find? fun q => q.id = e.ruleId) = some r ∧ r.metricType = ty ∧
        verdict (latestValue attrs reads s e r) r = some false := by
      rw [mem_resolveAll hids]
      constructor
      · intro hex
        obtain ⟨e', r, hpair, hid, hv⟩ := hex
        obtain ⟨hev, hopen, -, hr, hjoin, ht⟩ := mem_openPairs.mp hpair
        have hsame : e' = e := List.inj_on_of_nodup_map h.events hev he hid
        subst hsame
        exact ⟨hopen, r, h.find_rule hr hjoin, ht, hv⟩
      · intro hex
        obtain ⟨hopen, r, hfind, ht, hv⟩ := hex
        obtain ⟨hr, hjoin⟩ := find_rule_mem hfind
        refine ⟨e, r, mem_openPairs.mpr ⟨he, hopen, ?_, hr, hjoin, ht⟩, rfl, hv⟩
        cases hc : eligible e with
        | true => rfl
        | false =>
          rw [hel e r ht hc] at hv
          cases hv
    unfold resolveEvent settleType
    split
    · next hin =>
      obtain ⟨hopen, r, hfind, ht, hv⟩ := hmem.mp hin
      simp only [hopen, hfind, ht, hv, and_self, if_true]
    · next hout =>
      split
      · next r hopen hfind =>
        have hno : ¬ (r.metricType = ty ∧ verdict (latestValue attrs reads s e r) r = some false) :=
          fun hv => hout (hmem.mpr ⟨hopen, r, hfind, hv.1, hv.2⟩)
        rw [if_neg hno]
      · rfl
  unfold Db.resolve
  split
  · next hempty =>
    have hsame : s.events.map (settleType attrs reads ty now s) = s.events := by
      refine (List.map_congr_left fun e he => ?_).trans (List.map_id s.events)
      rw [← hevent e he, hempty]
      exact if_neg List.not_mem_nil
    rw [hsame]
  · rw [List.map_congr_left hevent]

theorem pass_none {s : Db} {ty : MetricType} {eligible : AlertEvent → Bool}
    (hel : ∀ e r, r.metricType = ty → eligible e = false → latestValue attrs reads s e r = .none)
    {now : Instant} :
    (resolveAll (latestValue attrs reads s) (s.openPairs ty eligible)).map (s.resolve now) = none ↔
      ∃ e ∈ s.events, ∃ r ∈ s.rules, e.resolvedAt = none ∧ r.id = e.ruleId ∧ r.metricType = ty ∧
        verdict (latestValue attrs reads s e r) r = none := by
  rw [Option.map_eq_none_iff, resolveAll_none]
  constructor
  · intro hex
    obtain ⟨e, r, hpair, hv⟩ := hex
    obtain ⟨he, hopen, -, hr, hjoin, ht⟩ := mem_openPairs.mp hpair
    exact ⟨e, he, r, hr, hopen, hjoin, ht, hv⟩
  · intro hex
    obtain ⟨e, he, r, hr, hopen, hjoin, ht, hv⟩ := hex
    refine ⟨e, r, mem_openPairs.mpr ⟨he, hopen, ?_, hr, hjoin, ht⟩, hv⟩
    cases hc : eligible e with
    | true => rfl
    | false =>
      rw [hel e r ht hc] at hv
      cases hv

/-! ### The two passes -/

theorem Keyed.settled {s : Db} (h : Keyed s) (f : AlertEvent → AlertEvent)
    (hf : ∀ e, (f e).id = e.id) : Keyed { s with events := s.events.map f } := by
  refine ⟨h.rules, ?_⟩
  have hids : (s.events.map f).map AlertEvent.id = s.events.map AlertEvent.id := by
    rw [List.map_map]
    exact List.map_congr_left fun e _ => hf e
  show ((s.events.map f).map AlertEvent.id).Nodup
  rw [hids]
  exact h.events

/- A pass changes nothing of an event but `resolved_at`. -/
theorem settleType_same (attrs : Attributes) (reads : Reads) (ty : MetricType) (now : Instant)
    (s : Db) (e : AlertEvent) :
    settleType attrs reads ty now s e = e ∨
      settleType attrs reads ty now s e = { e with resolvedAt := some now } := by
  unfold settleType
  split
  · split
    · exact Or.inr rfl
    · exact Or.inl rfl
  · exact Or.inl rfl

theorem settleType_id (attrs : Attributes) (reads : Reads) (ty : MetricType) (now : Instant)
    (s : Db) (e : AlertEvent) : (settleType attrs reads ty now s e).id = e.id := by
  rcases settleType_same attrs reads ty now s e with h | h
  · rw [h]
  · rw [h]

/- The second pass leaves alone what the first one decided. -/
theorem settleType_settleType (attrs : Attributes) (reads : Reads) (now₁ now₂ : Instant) (s : Db)
    (events : List AlertEvent) (e : AlertEvent) :
    settleType attrs reads .docker now₂ { s with events := events }
      (settleType attrs reads .system now₁ s e) = settle attrs reads now₁ now₂ s e := by
  unfold settle
  cases hopen : e.resolvedAt with
  | some t => simp [settleType, hopen]
  | none =>
    cases hfind : s.rules.find? fun r => r.id = e.ruleId with
    | none => simp [settleType, hopen, hfind]
    | some r =>
      cases ht : r.metricType with
      | system =>
        by_cases hv : verdict (latestValue attrs reads s e r) r = some false
        · simp [settleType, hopen, hfind, ht, hv]
        · simp [settleType, hopen, hfind, ht, hv]
      | docker =>
        have hvalue : latestValue attrs reads { s with events := events } e r =
            latestValue attrs reads s e r := rfl
        simp [settleType, hopen, hfind, ht, hvalue]

/-! ### When both finish -/

theorem verdict_none {v : PyVal} {r : AlertRule} :
    verdict v r = none ↔ v = .obj ∧ isOrdering r.operator = true := by
  unfold verdict compareVal isOrdering
  cases v with
  | none => simp
  | num x => simp
  | obj => cases r.operator <;> simp

/- Which names of a row are numbers depends on the columns' types only. -/
theorem getattr_obj (columns : List (String × PyVal)) (others : String → PyVal) (field : String) :
    getattr columns others field = .obj ↔
      match (columns.map fun c => (c.1, decide (c.2 ≠ .obj))).lookup field with
      | some number => number = false
      | none => others field = .obj := by
  unfold getattr
  induction columns with
  | nil => rfl
  | cons c columns ih =>
    obtain ⟨name, v⟩ := c
    rw [List.map_cons, List.lookup_cons, List.lookup_cons]
    cases hname : field == name with
    | false => exact ih
    | true => simp

theorem metricColumns_kinds (m : Metric PyFloat) :
    ((metricColumns m).map fun c => (c.1, decide (c.2 ≠ .obj))) = metricTypeColumns .system := rfl

theorem dockerColumns_kinds (m : DockerMetric PyFloat) :
    ((dockerColumns m).map fun c => (c.1, decide (c.2 ≠ .obj))) = metricTypeColumns .docker := by
  unfold dockerColumns
  cases m.memoryLimitMb with
  | none => rfl
  | some x => rfl

theorem latest_seen_system (reads : Reads) {s : Db} {e : AlertEvent} :
    Seen s .system e ↔ ∃ m, getLatestSystemMetric reads s e.serverId = some m := by
  rw [← Option.ne_none_iff_exists']
  unfold getLatestSystemMetric
  rw [ne_eq, reads.metric.pick_none, List.filter_eq_nil_iff]
  simp [Seen]

theorem latest_seen_docker (reads : Reads) {s : Db} {e : AlertEvent} :
    Seen s .docker e ↔
      ∃ m, getLatestDockerMetric reads s (e.serverId, e.containerName) = some m := by
  rw [← Option.ne_none_iff_exists']
  unfold getLatestDockerMetric
  rw [ne_eq, reads.dockerMetric.pick_none, List.filter_eq_nil_iff]
  simp [Seen]

theorem verdict_latestValue {s : Db} {e : AlertEvent} {r : AlertRule} :
    verdict (latestValue attrs reads s e r) r = none ↔
      Unordered attrs r ∧ Seen s r.metricType e := by
  rw [verdict_none]
  unfold latestValue Unordered
  cases ht : r.metricType with
  | system =>
    rw [latest_seen_system reads]
    cases hm : getLatestSystemMetric reads s e.serverId with
    | none => simp
    | some m =>
      simp only
      rw [getattr_obj, metricColumns_kinds]
      simp [and_comm]
  | docker =>
    rw [latest_seen_docker reads]
    cases hm : getLatestDockerMetric reads s (e.serverId, e.containerName) with
    | none => simp
    | some m =>
      simp only
      rw [getattr_obj, dockerColumns_kinds]
      simp [and_comm]

theorem systemEligible {s : Db} (e : AlertEvent) (r : AlertRule) (_ : r.metricType = .system)
    (h : true = false) : latestValue attrs reads s e r = .none := by
  cases h

theorem dockerEligible {s : Db} (e : AlertEvent) (r : AlertRule) (ht : r.metricType = .docker)
    (h : e.containerName.isSome = false) : latestValue attrs reads s e r = .none :=
  latestValue_no_container ht h

theorem autoResolveSystemAlerts_some {s t : Db} {now : Instant} (h : Keyed s)
    (hs : autoResolveSystemAlerts attrs reads now s = some t) :
    t = { s with events := s.events.map (settleType attrs reads .system now s) } := by
  rw [autoResolveSystemAlerts_eq] at hs
  exact pass_some h systemEligible hs

theorem autoResolveDockerAlerts_some {s t : Db} {now : Instant} (h : Keyed s)
    (hs : autoResolveDockerAlerts attrs reads now s = some t) :
    t = { s with events := s.events.map (settleType attrs reads .docker now s) } := by
  rw [autoResolveDockerAlerts_eq] at hs
  exact pass_some h dockerEligible hs

/- A pass that leaves nothing blocking leaves the same open events to the next. -/
theorem settleType_open {ty : MetricType} {now : Instant} {s : Db} {e : AlertEvent}
    (h : (settleType attrs reads ty now s e).resolvedAt = none) :
    settleType attrs reads ty now s e = e := by
  rcases settleType_same attrs reads ty now s e with hsame | hset
  · exact hsame
  · rw [hset] at h
    cases h

theorem runResolvers_finishes {s : Db} (h : Keyed s)
    (hclear : ∀ e ∈ s.events, ∀ r ∈ s.rules, ¬ Blocking attrs s e r) (now₁ now₂ : Instant) :
    runResolvers attrs reads now₁ now₂ s =
      (false, { s with events := s.events.map (settle attrs reads now₁ now₂ s) }) := by
  cases hsys : autoResolveSystemAlerts attrs reads now₁ s with
  | none =>
    rw [autoResolveSystemAlerts_eq, pass_none systemEligible] at hsys
    obtain ⟨e, he, r, hr, hopen, hid, -, hv⟩ := hsys
    obtain ⟨hun, hseen⟩ := verdict_latestValue.mp hv
    exact absurd ⟨hopen, hid, hun, hseen⟩ (hclear e he r hr)
  | some t =>
    have ht := autoResolveSystemAlerts_some h hsys
    have hkeyed : Keyed t := by
      rw [ht]
      exact h.settled _ (settleType_id attrs reads .system now₁ s)
    cases hdock : autoResolveDockerAlerts attrs reads now₂ t with
    | none =>
      rw [autoResolveDockerAlerts_eq, pass_none dockerEligible] at hdock
      obtain ⟨e', he', r, hr, hopen, hid, -, hv⟩ := hdock
      obtain ⟨hun, hseen⟩ := verdict_latestValue.mp hv
      rw [ht] at he' hr hseen
      obtain ⟨e, he, rfl⟩ := List.mem_map.mp he'
      have hsame := settleType_open hopen
      rw [hsame] at hopen hid hseen
      exact absurd ⟨hopen, hid, hun, hseen⟩ (hclear e he r hr)
    | some u =>
      have hu := autoResolveDockerAlerts_some hkeyed hdock
      have hevents : t.events.map (settleType attrs reads .docker now₂ t) =
          s.events.map (settle attrs reads now₁ now₂ s) := by
        rw [ht]
        show (s.events.map (settleType attrs reads .system now₁ s)).map _ = _
        rw [List.map_map]
        exact List.map_congr_left fun e _ => settleType_settleType attrs reads now₁ now₂ s _ e
      simp only [runResolvers, hsys, hdock]
      rw [hu, hevents, ht]

theorem runResolvers_raises (reads : Reads) {s : Db} (h : Keyed s) {e : AlertEvent}
    (he : e ∈ s.events) {r : AlertRule} (hr : r ∈ s.rules) (hb : Blocking attrs s e r)
    (now₁ now₂ : Instant) : (runResolvers attrs reads now₁ now₂ s).1 = true := by
  obtain ⟨hopen, hid, hun, hseen⟩ := hb
  have hv : verdict (latestValue attrs reads s e r) r = none := verdict_latestValue.mpr ⟨hun, hseen⟩
  unfold runResolvers
  cases hsys : autoResolveSystemAlerts attrs reads now₁ s with
  | none => rfl
  | some t =>
    have ht := autoResolveSystemAlerts_some h hsys
    have hdocker : r.metricType = .docker := by
      cases hty : r.metricType with
      | docker => rfl
      | system =>
        have hnone : autoResolveSystemAlerts attrs reads now₁ s = none := by
          rw [autoResolveSystemAlerts_eq, pass_none systemEligible]
          exact ⟨e, he, r, hr, hopen, hid, hty, hv⟩
        rw [hnone] at hsys
        cases hsys
    have hkept : settleType attrs reads .system now₁ s e = e := by
      unfold settleType
      rw [hopen, h.find_rule hr hid]
      simp [hdocker]
    have hnone : autoResolveDockerAlerts attrs reads now₂ t = none := by
      rw [autoResolveDockerAlerts_eq, pass_none dockerEligible]
      refine ⟨e, ?_, r, ?_, hopen, hid, hdocker, ?_⟩
      · rw [ht]
        exact List.mem_map.mpr ⟨e, he, hkept⟩
      · rw [ht]
        exact hr
      · rw [ht]
        exact hv
    simp only [hnone]

end

def newestOf {M : Type} (collectedAt : M → Instant) : List M → Option M
  | [] => none
  | m :: ms => match newestOf collectedAt ms with
    | none => some m
    | some n => if collectedAt m < collectedAt n then some n else some m

theorem newestOf_none {M : Type} (collectedAt : M → Instant) (ms : List M) :
    newestOf collectedAt ms = none ↔ ms = [] := by
  cases ms with
  | nil => simp [newestOf]
  | cons m ms =>
    rw [newestOf]
    cases newestOf collectedAt ms with
    | none => simp
    | some n =>
      simp only
      split
      · simp
      · simp

theorem newestOf_max {M : Type} {collectedAt : M → Instant} {ms : List M} {m : M}
    (h : newestOf collectedAt ms = some m) :
    m ∈ ms ∧ ∀ m' ∈ ms, collectedAt m' ≤ collectedAt m := by
  induction ms generalizing m with
  | nil => cases h
  | cons first ms ih =>
    rw [newestOf] at h
    cases hrest : newestOf collectedAt ms with
    | none =>
      rw [hrest] at h
      obtain rfl := Option.some.inj h
      rw [(newestOf_none collectedAt ms).mp hrest]
      simp
    | some n =>
      obtain ⟨hmem, hmax⟩ := ih hrest
      rw [hrest] at h
      simp only at h
      split at h
      · next hlt =>
        obtain rfl := Option.some.inj h
        refine ⟨List.mem_cons_of_mem _ hmem, ?_⟩
        intro m' hm'
        rcases List.mem_cons.mp hm' with rfl | hm'
        · exact hlt.le
        · exact hmax m' hm'
      · next hle =>
        obtain rfl := Option.some.inj h
        refine ⟨List.mem_cons_self, ?_⟩
        intro m' hm'
        rcases List.mem_cons.mp hm' with rfl | hm'
        · exact le_refl _
        · exact (hmax m' hm').trans (not_lt.mp hle)

/- The newest rows, the first inserted of equal ones. -/
def Newest.first {M : Type} (collectedAt : M → Instant) : Newest M collectedAt where
  pick := newestOf collectedAt
  pick_none := newestOf_none collectedAt
  pick_mem _ _ h := (newestOf_max h).1
  pick_newest _ _ h := (newestOf_max h).2

def Reads.first : Reads := ⟨Newest.first _, Newest.first _⟩

theorem resolverSound_iff {attrs : Attributes} {s : Db} (h : Keyed s) :
    ResolverSound attrs s ↔ ∀ e ∈ s.events, ∀ r ∈ s.rules, ¬ Blocking attrs s e r := by
  constructor
  · intro hsound e he r hr hb
    have hraises := runResolvers_raises Reads.first h he hr hb 0 0
    rw [hsound Reads.first 0 0] at hraises
    cases hraises
  · intro hclear reads now₁ now₂
    exact runResolvers_finishes h hclear now₁ now₂

end PulseWatch.Alerts
