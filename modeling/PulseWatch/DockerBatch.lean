import PulseWatch.Evaluations

/-!
# Docker batches (`app/api/docker_metrics.py`)

`submit_docker_metrics` stores its rows and then evaluates the containers one after
another. They share the rules of the server, so an evaluation that fires starts a
cooldown for those behind it, and they share one `try`, so the first one that raises
is the last one that is made.
-/

namespace PulseWatch.DockerBatch
open Alerts Threshold Evaluations

/- Where an evaluation raises: up to its COMMIT, or behind it, as a refresh can. -/
inductive Fault where
  | beforeCommit
  | afterCommit
  deriving DecidableEq, Repr

/- A container of the batch with the clocks its evaluation meets: the start of its
transaction and `datetime.now(UTC)`. -/
structure Visit where
  item : DockerMetricCreate
  createdAt : Instant
  now : Instant
  fault : Option Fault := none
  deriving DecidableEq, Repr

def containerData (item : DockerMetricCreate) : MetricData :=
  [("cpu_percent", some item.cpuPercent), ("memory_usage_mb", some item.memoryUsageMb),
    ("memory_limit_mb", item.memoryLimitMb)]

def sampleOf (serverId : ℕ) (item : DockerMetricCreate) : Sample :=
  .docker serverId item.containerName (containerData item)

/- What an evaluation leaves behind. -/
structure Outcome where
  raised : Bool
  created : List AlertEvent
  tables : Tables
  deriving DecidableEq, Repr

inductive Reply where
  | paused
  | ok (count : ℕ)
  | serverError
  deriving DecidableEq, Repr

/- The handler's answer, the tables after it, and the events created for each
container in the order of the batch. -/
structure Submitted where
  reply : Reply
  fleet : Fleet.Sys
  created : List (List AlertEvent)
  tables : Tables

section
variable (floatStr : PyFloat → String) (serverId : ℕ)

def evaluateItem (t : Tables) (v : Visit) : Outcome :=
  match v.fault, t.evaluate floatStr (sampleOf serverId v.item) v.createdAt v.now with
  | some .beforeCommit, _ => ⟨true, [], t⟩
  | _, none => ⟨true, [], t⟩
  | fault, some (new, tables) => ⟨fault.isSome, new, tables⟩

/- The loop inside its `try`. -/
def evaluateItems : Tables → List Visit → List (List AlertEvent) × Tables
  | t, [] => ([], t)
  | t, v :: vs =>
    let outcome := evaluateItem floatStr serverId t v
    if outcome.raised then (outcome.created :: vs.map fun _ => [], outcome.tables)
    else
      let rest := evaluateItems outcome.tables vs
      (outcome.created :: rest.1, rest.2)

def submitDockerMetrics (server : Server) (startedAt : Instant) (visits : List Visit)
    (fleet : Fleet.Sys) (t : Tables) : Submitted :=
  if server.paused then ⟨.paused, fleet, [], t⟩
  else match Fleet.storeDocker fleet server startedAt (visits.map Visit.item) with
    | none => ⟨.serverError, fleet, [], t⟩
    | some stored =>
      let (created, tables) := evaluateItems floatStr server.id t visits
      ⟨.ok visits.length, stored, created, tables⟩

end

/- A COMMIT that fails raises. -/
theorem evaluateItem_refused {floatStr : PyFloat → String} {serverId : ℕ} {t : Tables} {v : Visit}
    (h : t.evaluate floatStr (sampleOf serverId v.item) v.createdAt v.now = none) :
    evaluateItem floatStr serverId t v = ⟨true, [], t⟩ := by
  unfold evaluateItem
  rw [h]
  cases v.fault with
  | none => rfl
  | some fault => cases fault <;> rfl

theorem evaluateItems_refused {floatStr : PyFloat → String} {serverId : ℕ} {t : Tables} {v : Visit}
    (vs : List Visit)
    (h : t.evaluate floatStr (sampleOf serverId v.item) v.createdAt v.now = none) :
    evaluateItems floatStr serverId t (v :: vs) = ([] :: vs.map fun _ => [], t) := by
  rw [evaluateItems, evaluateItem_refused h]
  rfl

/- The handler stores the batch. -/
structure Accepted (server : Server) (visits : List Visit) : Prop where
  running : server.paused = false
  storable : ∀ v ∈ visits, Fleet.DockerMetricCreate.storable v.item = true

theorem Accepted.sub {server : Server} {visits visits' : List Visit} (h : Accepted server visits)
    (hsub : ∀ v ∈ visits', ∃ w ∈ visits, v.item = w.item) : Accepted server visits' := by
  refine ⟨h.running, fun v hv => ?_⟩
  obtain ⟨w, hw, heq⟩ := hsub v hv
  rw [heq]
  exact h.storable w hw

/-- The rows of an accepted batch. -/
def stored (server : Server) (startedAt : Instant) (visits : List Visit) (fleet : Fleet.Sys) :
    Fleet.Sys :=
  { fleet with
    dockerMetrics := Fleet.dockerRows server.id startedAt fleet.nextDockerMetric
      (visits.map Visit.item) ++ fleet.dockerMetrics
    nextDockerMetric := fleet.nextDockerMetric + visits.length
    servers := Fleet.updateServer server.id (fun r => { r with lastSeenAt := some startedAt })
      fleet.servers }

theorem Accepted.submitted {server : Server} {visits : List Visit} (h : Accepted server visits)
    (floatStr : PyFloat → String) (startedAt : Instant) (fleet : Fleet.Sys) (t : Tables) :
    submitDockerMetrics floatStr server startedAt visits fleet t =
      ⟨.ok visits.length, stored server startedAt visits fleet,
        (evaluateItems floatStr server.id t visits).1,
        (evaluateItems floatStr server.id t visits).2⟩ := by
  have hall : (visits.map Visit.item).all Fleet.DockerMetricCreate.storable = true := by
    rw [List.all_eq_true]
    intro item hitem
    obtain ⟨v, hv, rfl⟩ := List.mem_map.mp hitem
    exact h.storable v hv
  simp only [submitDockerMetrics, h.running, Bool.false_eq_true, if_false, Fleet.storeDocker,
    hall, if_true, stored, List.length_map]

theorem Accepted.created {server : Server} {visits : List Visit} (h : Accepted server visits)
    (floatStr : PyFloat → String) (startedAt : Instant) (fleet : Fleet.Sys) (t : Tables) :
    (submitDockerMetrics floatStr server startedAt visits fleet t).created =
      (evaluateItems floatStr server.id t visits).1 := by
  rw [h.submitted]

/-! ### One rule through a batch -/

/- A sample of the rule's containers that breaches its threshold. -/
def wants (x : Sample) (r : AlertRule) : Bool := x.concerns r && (x.breach r).isSome

/- The row of a rule after an evaluation, from this row alone. -/
def advance (x : Sample) (now : Instant) (r : AlertRule) : AlertRule :=
  if wants x r = true ∧ cooldownOver now r = true then { r with lastTriggeredAt := some now }
  else r

theorem advance_id (x : Sample) (now : Instant) (r : AlertRule) :
    (advance x now r).id = r.id := by
  unfold advance
  split
  · rfl
  · rfl

theorem advance_ids {x : Sample} {now : Instant} {rules : List AlertRule}
    (h : (rules.map AlertRule.id).Nodup) :
    ((rules.map (advance x now)).map AlertRule.id).Nodup := by
  rwa [List.map_map, show AlertRule.id ∘ advance x now = AlertRule.id from
    funext fun r => advance_id x now r]

theorem decision_none (floatStr : PyFloat → String) (x : Sample) (now : Instant) (r : AlertRule) :
    x.decision floatStr now r = none ↔ ¬ (wants x r = true ∧ cooldownOver now r = true) := by
  unfold Sample.decision wants
  rw [fires_breach]
  cases x.concerns r with
  | false => simp
  | true =>
    cases cooldownOver now r with
    | false => simp
    | true => simp

section
variable {floatStr : PyFloat → String} {t : Tables} {x : Sample} {createdAt now : Instant}

theorem trigger_advance (hids : (t.rules.map AlertRule.id).Nodup) {r : AlertRule}
    (hr : r ∈ t.rules) :
    trigger now (x.pending floatStr now t.rules) r = advance x now r := by
  have hnone := decision_none floatStr x now r
  rw [trigger_filter, pending_rule floatStr x now hids hr]
  unfold advance
  cases hd : x.decision floatStr now r with
  | none => rw [if_neg (hnone.mp hd), Option.toList_none, if_pos rfl]
  | some p =>
    have hfires : wants x r = true ∧ cooldownOver now r = true := by
      by_contra hnot
      rw [hnone.mpr hnot] at hd
      cases hd
    rw [if_pos hfires, Option.toList_some, if_neg (List.cons_ne_nil p [])]

/- An evaluation that commits. -/
theorem evaluate_some {new : List AlertEvent} {t' : Tables}
    (hids : (t.rules.map AlertRule.id).Nodup)
    (h : t.evaluate floatStr x createdAt now = some (new, t')) :
    t'.rules = t.rules.map (advance x now) ∧
      (new = [] ↔ x.pending floatStr now t.rules = []) := by
  have hrules : t.rules.map (trigger now (x.pending floatStr now t.rules)) =
      t.rules.map (advance x now) :=
    List.map_congr_left fun r hr => trigger_advance hids hr
  unfold Tables.evaluate at h
  split at h
  · next hnil =>
    obtain ⟨rfl, rfl⟩ := Prod.mk.inj (Option.some.inj h)
    rw [hnil] at hrules
    rw [← hrules]
    exact ⟨(List.map_id _).symm, iff_of_true rfl hnil⟩
  · next hne =>
    obtain ⟨rows, hrows, heq⟩ := Option.map_eq_some_iff.mp h
    obtain ⟨rfl, rfl⟩ := Prod.mk.inj heq
    refine ⟨hrules, iff_of_false ?_ hne⟩
    rintro rfl
    cases hp : x.pending floatStr now t.rules with
    | nil => exact hne hp
    | cons p ps =>
      rw [hp, insertRows] at hrows
      split at hrows
      · cases hrows
      · obtain ⟨_, _, hcons⟩ := Option.map_eq_some_iff.mp hrows
        cases hcons

/- Nothing fires: every rule is content with the sample or inside its cooldown. -/
theorem pending_nil : x.pending floatStr now t.rules = [] ↔
    ∀ r ∈ t.rules, ¬ (wants x r = true ∧ cooldownOver now r = true) := by
  rw [pending_decisions, List.filterMap_eq_nil_iff]
  exact forall₂_congr fun r _ => decision_none floatStr x now r

end

/- Rows of the concrete batches: a rule for every container of a host, and a container
that breaches it. -/
def host : Server := { id := 1, name := "host", apiKeyHash := "", ownerId := 1 }

def dockerRule : AlertRule := { cpuRule with metricType := .docker }

def busy (name : String) : DockerMetricCreate :=
  { containerId := name, containerName := name, image := "img", status := "running"
    cpuPercent := .fin 90, memoryUsageMb := .fin 10 }

end PulseWatch.DockerBatch
