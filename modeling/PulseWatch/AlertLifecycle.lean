import PulseWatch.AlertResolver
import PulseWatch.Lib.Runs

/-!
# Alerts over whole runs

Every path that writes servers, metrics, rules or events as one machine. The
resolvers work in every state of a run exactly when no step exposes an open event
to a rule that orders an attribute which is no number.
-/

namespace PulseWatch.Alerts

open Threshold (Reading Pending)

inductive Label where
  | fleet (l : Fleet.Label)
  | store (i : ℕ)
  | load (i : ℕ)
  | commit (i : ℕ)
  | fail (i : ℕ)
  | create (ownerId : ℕ) (body : AlertRuleCreate)
  | patch (ownerId ruleId : ℕ) (body : AlertRuleUpdate)
  | delete (ownerId ruleId : ℕ)
  | confirm (ownerId : ℕ) (draft : RuleDraft)
  | toggle (ownerId ruleId : ℕ)
  | deleteServer (ownerId serverId : ℕ)
  | resolve (reads : Reads) (now₁ now₂ : Instant)

/- The commit of an ingest request; a server deleted since the load fails it. -/
def storeIngest (i : ℕ) (s : Db) : Option Db :=
  match s.fleet.requests i with
  | .verified server startedAt body =>
    if s.hasServer server.id then
      match Fleet.storeSubmission s.fleet server startedAt body with
      | some fleet => some { s.goto i (.evaluating (readings server.id body)) with
          fleet := fleet.answer i .created }
      | none => some { s with fleet := s.fleet.answer i .serverError }
    else some { s with fleet := s.fleet.answer i .serverError }
  | _ => none

/-- The steps of the fleet that store no sample. -/
def fleetStep (cr : Crypto) (s : Db) : Fleet.Label → Option Db
  | .store _ => none
  | l => (Fleet.step cr s.fleet l).map fun fleet => { s with fleet }

section
variable (cr : Crypto) (floatStr : PyFloat → String) (attrs : Attributes)

def step (s : Db) : Label → Option Db
  | .fleet l => fleetStep cr s l
  | .store i => storeIngest i s
  | .load i => loadEvaluation floatStr i s
  | .commit i => commitEvaluation i s
  | .fail i =>
    match s.evaluations i with
    | .idle => none
    | _ => some (s.goto i .idle)
  | .create ownerId body => some (createAlertRule ownerId body s).2
  | .patch ownerId ruleId body => some (updateAlertRule ownerId ruleId body s).2
  | .delete ownerId ruleId => some (deleteAlertRule ownerId ruleId s).2
  | .confirm ownerId draft => some (confirmDraft ownerId draft s)
  | .toggle ownerId ruleId => some (handleToggle ownerId ruleId s)
  | .deleteServer ownerId serverId => some (handleDelete ownerId serverId s)
  | .resolve reads now₁ now₂ => some (runResolvers attrs reads now₁ now₂ s).2

end

/- The stored samples are the metrics the event is compared with. -/
def Shows (serverId : ℕ) (body : Fleet.Submission) (metricType : MetricType) (e : AlertEvent) :
    Prop :=
  match metricType, body with
  | .system, .metric _ => serverId = e.serverId
  | .docker, .docker data =>
    serverId = e.serverId ∧ ∃ item ∈ data, some item.containerName = e.containerName
  | _, _ => False

/- No open event meets a rule that orders an attribute which is no number: not by a
PATCH of the rule, not by the first metric of the event's server or container, and
not by the commit of an event whose rule was patched since it was loaded. -/
def Harmless (attrs : Attributes) (s : Db) : Label → Prop
  | .patch ownerId ruleId body => ∀ data r row, body.validate = some data →
      s.findRule ownerId ruleId = some r → updateRule data r = some row → Unordered attrs row →
      ∀ e ∈ s.events, e.resolvedAt = none → e.ruleId = r.id → ¬ Seen s row.metricType e
  | .store i => ∀ server startedAt body, s.fleet.requests i = .verified server startedAt body →
      s.hasServer server.id = true →
      (Fleet.storeSubmission s.fleet server startedAt body).isSome = true →
      ∀ e ∈ s.events, ∀ r ∈ s.rules, e.resolvedAt = none → r.id = e.ruleId →
        Unordered attrs r → ¬ Shows server.id body r.metricType e
  | .commit i => ∀ reading evaluatedAt pending rest new,
      s.evaluations i = .decided reading evaluatedAt pending rest →
      s.insertEvents reading evaluatedAt s.nextEvent pending = some new →
      ∀ e ∈ new, ∀ r ∈ s.rules, r.id = e.ruleId → Unordered attrs r → ¬ Seen s r.metricType e
  | _ => True

/-! ### What the handlers write -/

theorem lengthOk_le {n : ℕ} {text : String} (h : lengthOk n text = true) :
    text.toList.length ≤ n := by
  simp only [lengthOk, Bool.and_eq_true, decide_eq_true_eq] at h
  exact h.2

theorem fieldsOf_length (t : MetricType) : ∀ field ∈ fieldsOf t, field.toList.length ≤ 100 := by
  cases t <;> decide

theorem storeInt_some {n m : ℤ} (h : storeInt n = some m) : m = n := by
  unfold storeInt at h
  split at h
  · exact (Option.some.inj h).symm
  · cases h

/- The row as its columns took it. -/
structure Flushed (r row : AlertRule) : Prop where
  name : PgText.varchar 255 r.name = some row.name
  metricField : PgText.varchar 100 r.metricField = some row.metricField
  containerName : PgText.varchar? 255 r.containerName = some row.containerName
  cooldownSeconds : storeInt r.cooldownSeconds = some row.cooldownSeconds
  same : row = { r with
    name := row.name, metricField := row.metricField, containerName := row.containerName
    cooldownSeconds := row.cooldownSeconds }

theorem flushRule_flushed {r row : AlertRule} (h : flushRule r = some row) : Flushed r row := by
  unfold flushRule at h
  obtain ⟨name, hname, h⟩ := Option.bind_eq_some_iff.mp h
  obtain ⟨field, hfield, h⟩ := Option.bind_eq_some_iff.mp h
  obtain ⟨container, hcontainer, h⟩ := Option.bind_eq_some_iff.mp h
  obtain ⟨cooldown, hcooldown, h⟩ := Option.bind_eq_some_iff.mp h
  obtain rfl := Option.some.inj h
  exact ⟨hname, hfield, hcontainer, hcooldown, rfl⟩

theorem flushRule_id {r row : AlertRule} (h : flushRule r = some row) : row.id = r.id := by
  rw [(flushRule_flushed h).same]

/- What the loop over the fields of an update leaves to the COMMIT. -/
structure Patched (data : AlertRuleUpdate) (r q : AlertRule) : Prop where
  name : setColumn r.name data.name = some q.name
  metricType : setColumn r.metricType data.metricType = some q.metricType
  metricField : setColumn r.metricField data.metricField = some q.metricField
  operator : setColumn r.operator data.operator = some q.operator
  thresholdValue : setColumn r.thresholdValue data.thresholdValue = some q.thresholdValue
  cooldownSeconds : setColumn r.cooldownSeconds data.cooldownSeconds = some q.cooldownSeconds
  isActive : setColumn r.isActive data.isActive = some q.isActive
  notificationChannels :
    setColumn r.notificationChannels data.notificationChannels = some q.notificationChannels
  containerName : q.containerName = data.containerName.getD r.containerName
  keys : q.id = r.id ∧ q.ownerId = r.ownerId ∧ q.serverId = r.serverId

theorem updateRule_patched {data : AlertRuleUpdate} {r row : AlertRule}
    (h : updateRule data r = some row) : ∃ q, Patched data r q ∧ flushRule q = some row := by
  unfold updateRule at h
  obtain ⟨name, h1, h⟩ := Option.bind_eq_some_iff.mp h
  obtain ⟨metricType, h2, h⟩ := Option.bind_eq_some_iff.mp h
  obtain ⟨field, h3, h⟩ := Option.bind_eq_some_iff.mp h
  obtain ⟨operator, h4, h⟩ := Option.bind_eq_some_iff.mp h
  obtain ⟨threshold, h5, h⟩ := Option.bind_eq_some_iff.mp h
  obtain ⟨cooldown, h6, h⟩ := Option.bind_eq_some_iff.mp h
  obtain ⟨active, h7, h⟩ := Option.bind_eq_some_iff.mp h
  obtain ⟨channels, h8, h⟩ := Option.bind_eq_some_iff.mp h
  refine ⟨_, ?_, h⟩
  exact ⟨h1, h2, h3, h4, h5, h6, h7, h8, rfl, rfl, rfl, rfl⟩

theorem updateRule_id {data : AlertRuleUpdate} {r row : AlertRule}
    (h : updateRule data r = some row) : row.id = r.id := by
  obtain ⟨q, hq, hrow⟩ := updateRule_patched h
  exact (flushRule_id hrow).trans hq.keys.1

theorem flushEvent_same {e e' : AlertEvent} (h : flushEvent e = some e') :
    e'.id = e.id ∧ e'.ruleId = e.ruleId ∧ e'.resolvedAt = e.resolvedAt := by
  unfold flushEvent at h
  obtain ⟨message, -, h⟩ := Option.bind_eq_some_iff.mp h
  obtain ⟨container, -, h⟩ := Option.bind_eq_some_iff.mp h
  obtain rfl := Option.some.inj h
  exact ⟨rfl, rfl, rfl⟩

theorem insertEvents_cons {s : Db} {reading : Reading} {createdAt : Instant} {id : ℕ} {p : Pending}
    {ps : List Pending} {new : List AlertEvent}
    (h : s.insertEvents reading createdAt id (p :: ps) = some new) :
    ∃ e rest, new = e :: rest ∧ flushEvent (p.event id reading.serverId createdAt) = some e ∧
      s.insertEvents reading createdAt (id + 1) ps = some rest ∧
      ∃ r ∈ s.rules, r.id = p.rule.id := by
  rw [Db.insertEvents] at h
  split at h
  · cases h
  · next e he =>
    split at h
    · next hfk =>
      obtain ⟨rest, hrest, rfl⟩ := Option.map_eq_some_iff.mp h
      rw [Bool.and_eq_true, List.any_eq_true] at hfk
      obtain ⟨r, hr, hid⟩ := hfk.2
      exact ⟨e, rest, rfl, he, hrest, r, hr, of_decide_eq_true hid⟩
    · cases h

/- New events are open, numbered from the sequence and belong to stored rules. -/
theorem insertEvents_new {s : Db} {reading : Reading} {createdAt : Instant} {id : ℕ}
    {pending : List Pending} {new : List AlertEvent}
    (h : s.insertEvents reading createdAt id pending = some new) :
    new.map AlertEvent.id = List.range' id pending.length ∧
      ∀ e ∈ new, e.resolvedAt = none ∧ ∃ r ∈ s.rules, r.id = e.ruleId := by
  induction pending generalizing id new with
  | nil =>
    have hnew : [] = new := Option.some.inj h
    rw [← hnew]
    exact ⟨rfl, fun e he => absurd he List.not_mem_nil⟩
  | cons p ps ih =>
    obtain ⟨e, rest, rfl, he, hrest, r, hr, hid⟩ := insertEvents_cons h
    obtain ⟨hids, hrows⟩ := ih hrest
    obtain ⟨heid, herule, heopen⟩ := flushEvent_same he
    refine ⟨?_, ?_⟩
    · rw [List.map_cons, hids, heid, List.length_cons, List.range'_succ]
      rfl
    · intro q hq
      rcases List.mem_cons.mp hq with rfl | hq
      · exact ⟨heopen, r, hr, hid.trans herule.symm⟩
      · exact hrows q hq

theorem insertEvents_id {s : Db} {reading : Reading} {createdAt : Instant} {id : ℕ}
    {pending : List Pending} {new : List AlertEvent}
    (h : s.insertEvents reading createdAt id pending = some new) {e : AlertEvent} (he : e ∈ new) :
    id ≤ e.id ∧ e.id < id + pending.length := by
  have hid : e.id ∈ List.range' id pending.length :=
    (insertEvents_new h).1 ▸ List.mem_map_of_mem he
  exact List.mem_range'_1.mp hid

theorem trigger_same (at' : Instant) (pending : List Pending) (r : AlertRule) :
    (trigger at' pending r).id = r.id ∧ (trigger at' pending r).metricType = r.metricType ∧
      (trigger at' pending r).metricField = r.metricField ∧
      (trigger at' pending r).operator = r.operator := by
  unfold trigger
  split
  · exact ⟨rfl, rfl, rfl, rfl⟩
  · exact ⟨rfl, rfl, rfl, rfl⟩

/-! ### What the fleet writes -/

/- Only the commit of an ingest request writes samples. -/
theorem fleet_samples {cr : Crypto} {s s' : Fleet.Sys} {l : Fleet.Label} (hl : ∀ i, l ≠ .store i)
    (hs : Fleet.step cr s l = some s') :
    s'.metrics = s.metrics ∧ s'.dockerMetrics = s.dockerMetrics := by
  cases l with
  | store i => exact absurd rfl (hl i)
  | tick microseconds =>
    obtain rfl := Option.some.inj hs
    exact ⟨rfl, rfl⟩
  | heartbeat startedAt =>
    simp only [Fleet.step] at hs
    split at hs
    · obtain rfl := Option.some.inj hs
      exact ⟨rfl, rfl⟩
    · cases hs
  | register i ownerId name secret salt =>
    simp only [Fleet.step] at hs
    split at hs
    · split at hs
      · split at hs
        · obtain rfl := Option.some.inj hs
          exact ⟨rfl, rfl⟩
        · obtain rfl := Option.some.inj hs
          exact ⟨rfl, rfl⟩
      · obtain rfl := Option.some.inj hs
        exact ⟨rfl, rfl⟩
    · cases hs
  | verify i key body =>
    simp only [Fleet.step] at hs
    split at hs
    · split at hs
      · obtain rfl := Option.some.inj hs
        exact ⟨rfl, rfl⟩
      · obtain rfl := Option.some.inj hs
        split
        · exact ⟨rfl, rfl⟩
        · exact ⟨rfl, rfl⟩
    · cases hs
  | load i ownerId serverId edit =>
    simp only [Fleet.step] at hs
    split at hs
    · split at hs
      · obtain rfl := Option.some.inj hs
        exact ⟨rfl, rfl⟩
      · obtain rfl := Option.some.inj hs
        exact ⟨rfl, rfl⟩
    · cases hs
  | save i =>
    simp only [Fleet.step] at hs
    split at hs
    · split at hs
      · obtain rfl := Option.some.inj hs
        exact ⟨rfl, rfl⟩
      · obtain rfl := Option.some.inj hs
        exact ⟨rfl, rfl⟩
    · split at hs
      · obtain rfl := Option.some.inj hs
        exact ⟨rfl, rfl⟩
      · obtain rfl := Option.some.inj hs
        exact ⟨rfl, rfl⟩
    · cases hs

theorem fleetStep_rows {cr : Crypto} {s s' : Db} {l : Fleet.Label}
    (h : fleetStep cr s l = some s') :
    s'.rules = s.rules ∧ s'.events = s.events ∧ s'.nextRule = s.nextRule ∧
      s'.nextEvent = s.nextEvent ∧ s'.fleet.metrics = s.fleet.metrics ∧
      s'.fleet.dockerMetrics = s.fleet.dockerMetrics := by
  unfold fleetStep at h
  split at h
  · cases h
  · next hl =>
    obtain ⟨fleet, hfleet, rfl⟩ := Option.map_eq_some_iff.mp h
    obtain ⟨hm, hd⟩ := fleet_samples hl hfleet
    exact ⟨rfl, rfl, rfl, rfl, hm, hd⟩

theorem dockerRows_seen (serverId : ℕ) (startedAt : Instant) (id : ℕ)
    (data : List DockerMetricCreate) (e : AlertEvent) :
    (∃ m ∈ Fleet.dockerRows serverId startedAt id data,
        m.serverId = e.serverId ∧ some m.containerName = e.containerName) ↔
      Shows serverId (.docker data) .docker e := by
  induction data generalizing id with
  | nil => simp [Fleet.dockerRows, Shows]
  | cons item items ih =>
    have hrest := ih (id + 1)
    simp only [Shows] at hrest ⊢
    simp only [Fleet.dockerRows, List.exists_mem_cons_iff, hrest, Fleet.dockerRow]
    tauto

/- Storing a sample adds just the metrics of its body. -/
theorem stored_seen {s : Db} {server : Server} {startedAt : Instant} {body : Fleet.Submission}
    {fleet : Fleet.Sys} (h : Fleet.storeSubmission s.fleet server startedAt body = some fleet)
    (t : MetricType) (e : AlertEvent) :
    Seen { s with fleet } t e ↔ Shows server.id body t e ∨ Seen s t e := by
  cases body with
  | metric data =>
    obtain ⟨version?, -, rfl⟩ := Option.map_eq_some_iff.mp h
    cases t with
    | system => simp only [Seen, Shows, List.exists_mem_cons_iff]
    | docker => simp only [Seen, Shows, false_or]
  | docker data =>
    simp only [Fleet.storeSubmission, Fleet.storeDocker] at h
    split at h
    · obtain rfl := Option.some.inj h
      cases t with
      | system => simp only [Seen, Shows, false_or]
      | docker =>
        rw [← dockerRows_seen server.id startedAt s.fleet.nextDockerMetric data e]
        simp only [Seen, List.mem_append, or_and_right, exists_or]
    · cases h

/-! ### Steps -/

/- Rules, events and samples are as they were. -/
def SameRows (s s' : Db) : Prop :=
  s'.rules = s.rules ∧ s'.events = s.events ∧ s'.nextRule = s.nextRule ∧
    s'.nextEvent = s.nextEvent ∧ s'.fleet.metrics = s.fleet.metrics ∧
    s'.fleet.dockerMetrics = s.fleet.dockerMetrics

inductive Move (attrs : Attributes) (s : Db) : Label → Db → Prop
  | quiet {l s'} : SameRows s s' → Move attrs s l s'
  | stored (i : ℕ) (server : Server) (startedAt : Instant) (body : Fleet.Submission)
      (fleet : Fleet.Sys) {s'} :
      s.fleet.requests i = .verified server startedAt body → s.hasServer server.id = true →
      Fleet.storeSubmission s.fleet server startedAt body = some fleet →
      SameRows { s with fleet } s' → Move attrs s (.store i) s'
  | added (row : AlertRule) {l} : row.id = s.nextRule →
      Move attrs s l { s with rules := row :: s.rules, nextRule := s.nextRule + 1 }
  | patched (ownerId ruleId : ℕ) (body data : AlertRuleUpdate) (r row : AlertRule) :
      body.validate = some data → s.findRule ownerId ruleId = some r →
      updateRule data r = some row → Move attrs s (.patch ownerId ruleId body) (s.putRule row)
  | toggled (r : AlertRule) {l} : r ∈ s.rules →
      Move attrs s l (s.putRule { r with isActive := !r.isActive })
  | removed (gone : AlertRule → Bool) {l s'} : s'.rules = s.rules.filter (fun r => !gone r) →
      s'.events.Sublist (s.removeRules gone).events → s'.nextRule = s.nextRule →
      s'.nextEvent = s.nextEvent → (∀ t e, Seen s' t e → Seen s t e) → Move attrs s l s'
  | committed (i : ℕ) (reading : Reading) (evaluatedAt : Instant) (pending : List Pending)
      (rest : List Reading) (new : List AlertEvent) {s'} :
      s.evaluations i = .decided reading evaluatedAt pending rest →
      s.insertEvents reading evaluatedAt s.nextEvent pending = some new →
      SameRows { s with
        rules := s.rules.map (trigger evaluatedAt pending)
        events := new ++ s.events
        nextEvent := s.nextEvent + pending.length } s' → Move attrs s (.commit i) s'
  | resolved (reads : Reads) (now₁ now₂ : Instant) :
      Move attrs s (.resolve reads now₁ now₂) (runResolvers attrs reads now₁ now₂ s).2

theorem findRule_mem {s : Db} {ownerId ruleId : ℕ} {r : AlertRule}
    (h : s.findRule ownerId ruleId = some r) : r ∈ s.rules := List.mem_of_find?_eq_some h

theorem addRule_inv {s t : Db} {rule : AlertRule} (h : s.addRule rule = some t) :
    ∃ row, flushRule rule = some row ∧ s.hasServer row.serverId = true ∧
      t = { s with rules := row :: s.rules, nextRule := s.nextRule + 1 } := by
  unfold Db.addRule at h
  split at h
  · next row hrow =>
    split at h
    · next hhas => exact ⟨row, hrow, hhas, (Option.some.inj h).symm⟩
    · cases h
  · cases h

theorem addRule_move {attrs : Attributes} {s t : Db} {rule : AlertRule} {l : Label}
    (hid : rule.id = s.nextRule) (h : s.addRule rule = some t) : Move attrs s l t := by
  obtain ⟨row, hrow, -, rfl⟩ := addRule_inv h
  exact .added row ((flushRule_id hrow).trans hid)

theorem quiet_self {attrs : Attributes} {s : Db} {l : Label} : Move attrs s l s :=
  .quiet ⟨rfl, rfl, rfl, rfl, rfl, rfl⟩

section
variable {cr : Crypto} {floatStr : PyFloat → String} {attrs : Attributes}

theorem step_move {s s' : Db} {l : Label} (hs : step cr floatStr attrs s l = some s') :
    Move attrs s l s' := by
  cases l with
  | fleet l => exact .quiet (fleetStep_rows hs)
  | store i =>
    simp only [step, storeIngest] at hs
    split at hs
    · next server startedAt body hreq =>
      split at hs
      · next hserver =>
        split at hs
        · next fleet hstore =>
          obtain rfl := Option.some.inj hs
          exact .stored i server startedAt body fleet hreq hserver hstore
            ⟨rfl, rfl, rfl, rfl, rfl, rfl⟩
        · obtain rfl := Option.some.inj hs
          exact .quiet ⟨rfl, rfl, rfl, rfl, rfl, rfl⟩
      · obtain rfl := Option.some.inj hs
        exact .quiet ⟨rfl, rfl, rfl, rfl, rfl, rfl⟩
    · cases hs
  | load i =>
    simp only [step, loadEvaluation] at hs
    split at hs
    · obtain rfl := Option.some.inj hs
      exact .quiet ⟨rfl, rfl, rfl, rfl, rfl, rfl⟩
    · cases hs
  | commit i =>
    simp only [step, commitEvaluation] at hs
    split at hs
    · next reading evaluatedAt pending rest hev =>
      split at hs
      · next new hnew =>
        obtain rfl := Option.some.inj hs
        exact .committed i reading evaluatedAt pending rest new hev hnew
          ⟨rfl, rfl, rfl, rfl, rfl, rfl⟩
      · obtain rfl := Option.some.inj hs
        exact .quiet ⟨rfl, rfl, rfl, rfl, rfl, rfl⟩
    · cases hs
  | fail i =>
    simp only [step] at hs
    split at hs
    · cases hs
    · obtain rfl := Option.some.inj hs
      exact .quiet ⟨rfl, rfl, rfl, rfl, rfl, rfl⟩
  | create ownerId body =>
    obtain rfl := Option.some.inj hs
    unfold createAlertRule
    split
    · exact quiet_self
    · split
      · split
        · next t ht => exact addRule_move rfl ht
        · exact quiet_self
      · exact quiet_self
  | patch ownerId ruleId body =>
    obtain rfl := Option.some.inj hs
    unfold updateAlertRule
    split
    · exact quiet_self
    · next data hdata =>
      split
      · exact quiet_self
      · next r hr =>
        split
        · next row hrow => exact .patched ownerId ruleId body data r row hdata hr hrow
        · exact quiet_self
  | delete ownerId ruleId =>
    obtain rfl := Option.some.inj hs
    unfold deleteAlertRule
    split
    · exact quiet_self
    · next r hr =>
      exact .removed (fun q => decide (q.id = r.id)) rfl (List.Sublist.refl _) rfl rfl
        fun _ _ h => h
  | confirm ownerId draft =>
    obtain rfl := Option.some.inj hs
    unfold confirmDraft
    cases hadd : s.addRule (draft.rule s.nextRule ownerId) with
    | none => exact quiet_self
    | some t => exact addRule_move rfl hadd
  | toggle ownerId ruleId =>
    obtain rfl := Option.some.inj hs
    unfold handleToggle
    split
    · exact quiet_self
    · next r hr => exact .toggled r (findRule_mem hr)
  | deleteServer ownerId serverId =>
    obtain rfl := Option.some.inj hs
    unfold handleDelete
    split
    · refine .removed (fun r => decide (r.serverId = serverId)) rfl List.filter_sublist rfl rfl ?_
      intro t e h
      cases t with
      | system =>
        obtain ⟨m, hm, he⟩ := h
        exact ⟨m, List.mem_of_mem_filter hm, he⟩
      | docker =>
        obtain ⟨m, hm, he⟩ := h
        exact ⟨m, List.mem_of_mem_filter hm, he⟩
    · exact quiet_self
  | resolve reads now₁ now₂ =>
    obtain rfl := Option.some.inj hs
    exact .resolved reads now₁ now₂

/-! ### Tables that stay well formed -/

structure WellFormed (s : Db) : Prop extends Keyed s where
  ruleBelow : ∀ r ∈ s.rules, r.id < s.nextRule
  eventBelow : ∀ e ∈ s.events, e.id < s.nextEvent
  owned : ∀ e ∈ s.events, ∃ r ∈ s.rules, r.id = e.ruleId

theorem WellFormed.init (now : Instant) : WellFormed (init now) where
  rules := List.nodup_nil
  events := List.nodup_nil
  ruleBelow r hr := by cases hr
  eventBelow e he := by cases he
  owned e he := by cases he

theorem WellFormed.same {s s' : Db} (h : WellFormed s) (hsame : SameRows s s') :
    WellFormed s' := by
  obtain ⟨hr, he, hnr, hne, -, -⟩ := hsame
  refine ⟨⟨?_, ?_⟩, ?_, ?_, ?_⟩
  · rw [hr]
    exact h.rules
  · rw [he]
    exact h.events
  · rw [hr, hnr]
    exact h.ruleBelow
  · rw [he, hne]
    exact h.eventBelow
  · rw [hr, he]
    exact h.owned

/- Rewriting rules in place, ids kept. -/
theorem WellFormed.mapRules {s : Db} (h : WellFormed s) (f : AlertRule → AlertRule)
    (hf : ∀ r, (f r).id = r.id) : WellFormed { s with rules := s.rules.map f } := by
  have hids : (s.rules.map f).map AlertRule.id = s.rules.map AlertRule.id := by
    rw [List.map_map]
    exact List.map_congr_left fun r _ => hf r
  refine ⟨⟨?_, h.events⟩, ?_, h.eventBelow, ?_⟩
  · show ((s.rules.map f).map AlertRule.id).Nodup
    rw [hids]
    exact h.rules
  · intro r hr
    obtain ⟨q, hq, rfl⟩ := List.mem_map.mp hr
    rw [hf]
    exact h.ruleBelow q hq
  · intro e he
    obtain ⟨r, hr, hid⟩ := h.owned e he
    exact ⟨f r, List.mem_map_of_mem hr, (hf r).trans hid⟩

theorem WellFormed.mapEvents {s : Db} (h : WellFormed s) (f : AlertEvent → AlertEvent)
    (hf : ∀ e, (f e).id = e.id ∧ (f e).ruleId = e.ruleId) :
    WellFormed { s with events := s.events.map f } := by
  refine ⟨h.toKeyed.settled f fun e => (hf e).1, h.ruleBelow, ?_, ?_⟩
  · intro e he
    obtain ⟨q, hq, rfl⟩ := List.mem_map.mp he
    rw [(hf q).1]
    exact h.eventBelow q hq
  · intro e he
    obtain ⟨q, hq, rfl⟩ := List.mem_map.mp he
    rw [(hf q).2]
    exact h.owned q hq

theorem putRule_id (row r : AlertRule) : (if r.id = row.id then row else r).id = r.id := by
  split
  · next h => exact h.symm
  · rfl

theorem mem_putRule {s : Db} {row q : AlertRule} (h : q ∈ (s.putRule row).rules) :
    q = row ∨ q ∈ s.rules := by
  obtain ⟨r, hr, rfl⟩ := List.mem_map.mp h
  split
  · exact Or.inl rfl
  · exact Or.inr hr

/- Where a rule of the table after a step is from. -/
inductive Origin (s : Db) (q : AlertRule) : Label → Prop
  | kept {l} (mem : q ∈ s.rules) : Origin s q l
  | toggled {l} (r : AlertRule) (mem : r ∈ s.rules)
      (same : q = { r with isActive := !r.isActive }) : Origin s q l
  | triggered {l} (r : AlertRule) (evaluatedAt : Instant) (pending : List Pending)
      (mem : r ∈ s.rules) (same : q = trigger evaluatedAt pending r) : Origin s q l
  | created (ownerId : ℕ) (body data : AlertRuleCreate) (valid : body.validate = some data)
      (own : (s.fleet.servers.any fun r => r.id = data.serverId && r.ownerId = ownerId) = true)
      (row : flushRule (newRule s.nextRule ownerId data) = some q) :
      Origin s q (.create ownerId body)
  | patched (ownerId ruleId : ℕ) (body data : AlertRuleUpdate) (r : AlertRule)
      (valid : body.validate = some data) (found : s.findRule ownerId ruleId = some r)
      (row : updateRule data r = some q) : Origin s q (.patch ownerId ruleId body)
  | confirmed (ownerId : ℕ) (draft : RuleDraft)
      (row : flushRule (draft.rule s.nextRule ownerId) = some q) :
      Origin s q (.confirm ownerId draft)

theorem mem_addRule {s t : Db} {rule q : AlertRule} (h : s.addRule rule = some t)
    (hq : q ∈ t.rules) : flushRule rule = some q ∨ q ∈ s.rules := by
  obtain ⟨row, hrow, -, rfl⟩ := addRule_inv h
  rcases List.mem_cons.mp hq with rfl | hq
  · exact Or.inl hrow
  · exact Or.inr hq

theorem mem_handleToggle {s : Db} {ownerId ruleId : ℕ} {q : AlertRule}
    (hq : q ∈ (handleToggle ownerId ruleId s).rules) :
    q ∈ s.rules ∨ ∃ r ∈ s.rules, q = { r with isActive := !r.isActive } := by
  unfold handleToggle at hq
  split at hq
  · exact Or.inl hq
  · next r hr =>
    rcases mem_putRule hq with rfl | hq
    · exact Or.inr ⟨r, findRule_mem hr, rfl⟩
    · exact Or.inl hq

theorem mem_removeServer {s : Db} {serverId : ℕ} {q : AlertRule}
    (hq : q ∈ (s.removeServer serverId).rules) : q ∈ s.rules :=
  List.mem_of_mem_filter hq

theorem step_origin {s s' : Db} {l : Label} (hs : step cr floatStr attrs s l = some s')
    {q : AlertRule} (hq : q ∈ s'.rules) : Origin s q l := by
  cases l with
  | fleet l => exact .kept ((fleetStep_rows hs).1 ▸ hq)
  | store i =>
    simp only [step, storeIngest] at hs
    split at hs
    · split at hs
      · split at hs
        · obtain rfl := Option.some.inj hs
          exact .kept hq
        · obtain rfl := Option.some.inj hs
          exact .kept hq
      · obtain rfl := Option.some.inj hs
        exact .kept hq
    · cases hs
  | load i =>
    simp only [step, loadEvaluation] at hs
    split at hs
    · obtain rfl := Option.some.inj hs
      exact .kept hq
    · cases hs
  | commit i =>
    simp only [step, commitEvaluation] at hs
    split at hs
    · next reading evaluatedAt pending rest hev =>
      split at hs
      · obtain rfl := Option.some.inj hs
        obtain ⟨r, hr, rfl⟩ := List.mem_map.mp hq
        exact .triggered r evaluatedAt pending hr rfl
      · obtain rfl := Option.some.inj hs
        exact .kept hq
    · cases hs
  | fail i =>
    simp only [step] at hs
    split at hs
    · cases hs
    · obtain rfl := Option.some.inj hs
      exact .kept hq
  | create ownerId body =>
    obtain rfl := Option.some.inj hs
    unfold createAlertRule at hq
    split at hq
    · exact .kept hq
    · next data hdata =>
      split at hq
      · next hown =>
        split at hq
        · next t ht =>
          rcases mem_addRule ht hq with hrow | hq
          · exact .created ownerId body data hdata hown hrow
          · exact .kept hq
        · exact .kept hq
      · exact .kept hq
  | patch ownerId ruleId body =>
    obtain rfl := Option.some.inj hs
    unfold updateAlertRule at hq
    split at hq
    · exact .kept hq
    · next data hdata =>
      split at hq
      · exact .kept hq
      · next r hr =>
        split at hq
        · next row hrow =>
          rcases mem_putRule hq with rfl | hq
          · exact .patched ownerId ruleId body data r hdata hr hrow
          · exact .kept hq
        · exact .kept hq
  | delete ownerId ruleId =>
    obtain rfl := Option.some.inj hs
    unfold deleteAlertRule at hq
    split at hq
    · exact .kept hq
    · exact .kept (List.mem_of_mem_filter hq)
  | confirm ownerId draft =>
    obtain rfl := Option.some.inj hs
    unfold confirmDraft at hq
    cases hadd : s.addRule (draft.rule s.nextRule ownerId) with
    | none =>
      rw [hadd] at hq
      exact .kept hq
    | some t =>
      rw [hadd] at hq
      rcases mem_addRule hadd hq with hrow | hq
      · exact .confirmed ownerId draft hrow
      · exact .kept hq
  | toggle ownerId ruleId =>
    obtain rfl := Option.some.inj hs
    rcases mem_handleToggle hq with hq | ⟨r, hr, hsame⟩
    · exact .kept hq
    · exact .toggled r hr hsame
  | deleteServer ownerId serverId =>
    obtain rfl := Option.some.inj hs
    unfold handleDelete at hq
    split at hq
    · exact .kept (mem_removeServer hq)
    · exact .kept hq
  | resolve reads now₁ now₂ =>
    obtain rfl := Option.some.inj hs
    obtain ⟨events, hevents⟩ := runResolvers_only attrs reads now₁ now₂ s
    rw [hevents] at hq
    exact .kept hq

/- The only column a change of events touches is `resolved_at`, and it closes them. -/
def OnlyResolves (f : AlertEvent → AlertEvent) : Prop :=
  ∀ e, f e = e ∨ ∃ t, f e = { e with resolvedAt := some t }

theorem OnlyResolves.comp {f g : AlertEvent → AlertEvent} (hf : OnlyResolves f)
    (hg : OnlyResolves g) : OnlyResolves (g ∘ f) := by
  intro e
  show g (f e) = e ∨ ∃ t, g (f e) = { e with resolvedAt := some t }
  rcases hg (f e) with hsame | ⟨t, hset⟩
  · rw [hsame]
    exact hf e
  · rw [hset]
    rcases hf e with he | ⟨t', he⟩
    · rw [he]
      exact Or.inr ⟨t, rfl⟩
    · rw [he]
      exact Or.inr ⟨t, rfl⟩

theorem settleType_onlyResolves (attrs : Attributes) (reads : Reads) (ty : MetricType)
    (now : Instant) (s : Db) : OnlyResolves (settleType attrs reads ty now s) := by
  intro e
  rcases settleType_same attrs reads ty now s e with hsame | hset
  · exact Or.inl hsame
  · exact Or.inr ⟨now, hset⟩

theorem runResolvers_events {s : Db} (h : Keyed s) (reads : Reads) (now₁ now₂ : Instant) :
    ∃ f : AlertEvent → AlertEvent, OnlyResolves f ∧
      (runResolvers attrs reads now₁ now₂ s).2 = { s with events := s.events.map f } := by
  cases hsys : autoResolveSystemAlerts attrs reads now₁ s with
  | none => exact ⟨id, fun e => Or.inl rfl, by simp [runResolvers, hsys]⟩
  | some t =>
    have ht := autoResolveSystemAlerts_some h hsys
    have hfirst := settleType_onlyResolves attrs reads .system now₁ s
    cases hdock : autoResolveDockerAlerts attrs reads now₂ t with
    | none =>
      refine ⟨_, hfirst, ?_⟩
      simp only [runResolvers, hsys, hdock]
      exact ht
    | some u =>
      have hkeyed : Keyed t := by
        rw [ht]
        exact h.settled _ (settleType_id attrs reads .system now₁ s)
      have hu := autoResolveDockerAlerts_some hkeyed hdock
      refine ⟨_, hfirst.comp (settleType_onlyResolves attrs reads .docker now₂ t), ?_⟩
      have hevents : t.events = s.events.map (settleType attrs reads .system now₁ s) := by rw [ht]
      simp only [runResolvers, hsys, hdock]
      rw [hu, hevents, List.map_map, ht]

theorem removeRules_events {s : Db} {gone : AlertRule → Bool} {e : AlertEvent}
    (h : e ∈ (s.removeRules gone).events) :
    e ∈ s.events ∧ ∀ r ∈ s.rules, r.id = e.ruleId → gone r = false := by
  obtain ⟨he, hkept⟩ := List.mem_filter.mp h
  refine ⟨he, ?_⟩
  intro r hr hid
  rw [Bool.not_eq_true', List.any_eq_false] at hkept
  have hnot := hkept r hr
  rw [hid, decide_eq_true rfl, Bool.true_and, Bool.not_eq_true] at hnot
  exact hnot

/- Where the events after a move come from: the tables before it, or the commit of an
evaluation. -/
theorem move_events {s s' : Db} {l : Label} (h : Keyed s) (hm : Move attrs s l s') :
    ∀ e ∈ s'.events,
      (∃ q ∈ s.events, e = q ∨ ∃ t, e = { q with resolvedAt := some t }) ∨
      ∃ i reading evaluatedAt pending rest new, l = .commit i ∧
        s.evaluations i = .decided reading evaluatedAt pending rest ∧
        s.insertEvents reading evaluatedAt s.nextEvent pending = some new ∧
        s'.nextEvent = s.nextEvent + pending.length ∧ e ∈ new := by
  have hkept : ∀ e ∈ s.events, ∃ q ∈ s.events, e = q ∨ ∃ t, e = { q with resolvedAt := some t } :=
    fun e he => ⟨e, he, Or.inl rfl⟩
  intro e he
  cases hm with
  | quiet hsame => exact Or.inl (hkept e (hsame.2.1 ▸ he))
  | stored i server startedAt body fleet _ _ _ hsame => exact Or.inl (hkept e (hsame.2.1 ▸ he))
  | added row hid => exact Or.inl (hkept e he)
  | patched ownerId ruleId body data r row _ _ _ => exact Or.inl (hkept e he)
  | toggled r _ => exact Or.inl (hkept e he)
  | removed gone _ hsub _ _ _ => exact Or.inl (hkept e (removeRules_events (hsub.subset he)).1)
  | committed i reading evaluatedAt pending rest new hev hnew hsame =>
    have he' : e ∈ new ++ s.events := by
      rw [hsame.2.1] at he
      exact he
    rcases List.mem_append.mp he' with hin | hold
    · exact Or.inr ⟨i, reading, evaluatedAt, pending, rest, new, rfl, hev, hnew, hsame.2.2.2.1, hin⟩
    · exact Or.inl (hkept e hold)
  | resolved reads now₁ now₂ =>
    obtain ⟨f, hsame, hf⟩ := runResolvers_events h reads now₁ now₂
    rw [hf] at he
    obtain ⟨q, hq, rfl⟩ := List.mem_map.mp he
    exact Or.inl ⟨q, hq, hsame q⟩

theorem move_nextEvent {attrs : Attributes} {s s' : Db} {l : Label} (hm : Move attrs s l s') :
    s.nextEvent ≤ s'.nextEvent := by
  cases hm with
  | quiet hsame => exact hsame.2.2.2.1.ge
  | stored i server startedAt body fleet _ _ _ hsame => exact hsame.2.2.2.1.ge
  | added row hid => exact le_refl _
  | patched ownerId ruleId body data r row _ _ _ => exact le_refl _
  | toggled r _ => exact le_refl _
  | removed gone _ _ _ hnext _ => exact hnext.ge
  | committed i reading evaluatedAt pending rest new _ _ hsame =>
    rw [hsame.2.2.2.1]
    exact Nat.le_add_right _ _
  | resolved reads now₁ now₂ =>
    obtain ⟨events, hevents⟩ := runResolvers_only attrs reads now₁ now₂ s
    rw [hevents]

theorem WellFormed.added {s : Db} (h : WellFormed s) {row : AlertRule} (hid : row.id = s.nextRule) :
    WellFormed { s with rules := row :: s.rules, nextRule := s.nextRule + 1 } := by
  refine ⟨⟨?_, h.events⟩, ?_, h.eventBelow, ?_⟩
  · show (row.id :: s.rules.map AlertRule.id).Nodup
    refine List.nodup_cons.mpr ⟨?_, h.rules⟩
    intro hin
    obtain ⟨r, hr, hrid⟩ := List.mem_map.mp hin
    have hlt := h.ruleBelow r hr
    omega
  · intro r hr
    show r.id < s.nextRule + 1
    rcases List.mem_cons.mp hr with rfl | hr
    · omega
    · have hlt := h.ruleBelow r hr
      omega
  · intro e he
    obtain ⟨r, hr, hrid⟩ := h.owned e he
    exact ⟨r, List.mem_cons_of_mem _ hr, hrid⟩

theorem WellFormed.removed {s s' : Db} (h : WellFormed s) {gone : AlertRule → Bool}
    (hr : s'.rules = s.rules.filter (fun r => !gone r))
    (he : s'.events.Sublist (s.removeRules gone).events) (hnr : s'.nextRule = s.nextRule)
    (hne : s'.nextEvent = s.nextEvent) : WellFormed s' := by
  have hsub := he.trans (List.filter_sublist)
  refine ⟨⟨?_, ?_⟩, ?_, ?_, ?_⟩
  · rw [hr]
    exact h.rules.sublist (List.filter_sublist.map _)
  · exact h.events.sublist (hsub.map _)
  · intro r hmem
    rw [hr] at hmem
    rw [hnr]
    exact h.ruleBelow r (List.mem_of_mem_filter hmem)
  · intro e hmem
    rw [hne]
    exact h.eventBelow e (hsub.subset hmem)
  · intro e hmem
    obtain ⟨hmem', hkept⟩ := removeRules_events (he.subset hmem)
    obtain ⟨r, hrule, hid⟩ := h.owned e hmem'
    rw [hr]
    refine ⟨r, List.mem_filter.mpr ⟨hrule, ?_⟩, hid⟩
    rw [hkept r hrule hid]
    rfl

theorem WellFormed.inserted {s : Db} (h : WellFormed s) {reading : Reading} {createdAt : Instant}
    {pending : List Pending} {new : List AlertEvent}
    (hnew : s.insertEvents reading createdAt s.nextEvent pending = some new) :
    WellFormed { s with
      events := new ++ s.events
      nextEvent := s.nextEvent + pending.length } := by
  obtain ⟨hids, hrows⟩ := insertEvents_new hnew
  refine ⟨⟨h.rules, ?_⟩, h.ruleBelow, ?_, ?_⟩
  · show ((new ++ s.events).map AlertEvent.id).Nodup
    rw [List.map_append, hids]
    refine List.Nodup.append List.nodup_range' h.events ?_
    intro id hnewid hold
    obtain ⟨e, he, rfl⟩ := List.mem_map.mp hold
    have hlt := h.eventBelow e he
    have hge := (List.mem_range'_1.mp hnewid).1
    omega
  · intro e he
    show e.id < s.nextEvent + pending.length
    rcases List.mem_append.mp he with hnewe | hold
    · exact (insertEvents_id hnew hnewe).2
    · have hlt := h.eventBelow e hold
      omega
  · intro e he
    rcases List.mem_append.mp he with hnewe | hold
    · exact (hrows e hnewe).2
    · exact h.owned e hold

theorem WellFormed.move {s s' : Db} {l : Label} (h : WellFormed s) (hm : Move attrs s l s') :
    WellFormed s' := by
  cases hm with
  | quiet hsame => exact h.same hsame
  | stored i server startedAt body fleet _ _ _ hsame =>
    obtain ⟨hr, he, hnr, hne, -, -⟩ := hsame
    exact ⟨⟨hr ▸ h.rules, he ▸ h.events⟩, hr ▸ hnr ▸ h.ruleBelow, he ▸ hne ▸ h.eventBelow,
      hr ▸ he ▸ h.owned⟩
  | added row hid => exact h.added hid
  | patched ownerId ruleId body data r row _ _ _ => exact h.mapRules _ (putRule_id row)
  | toggled r _ => exact h.mapRules _ (putRule_id _)
  | removed gone hr he hnr hne _ => exact h.removed hr he hnr hne
  | committed i reading evaluatedAt pending rest new hev hnew hsame =>
    have hrules := (h.inserted hnew).mapRules (trigger evaluatedAt pending)
      fun r => (trigger_same evaluatedAt pending r).1
    exact hrules.same hsame
  | resolved reads now₁ now₂ =>
    obtain ⟨f, hsame, hf⟩ := runResolvers_events h.toKeyed reads now₁ now₂
    rw [hf]
    apply h.mapEvents f
    intro e
    rcases hsame e with he | ⟨t, he⟩
    · rw [he]
      exact ⟨rfl, rfl⟩
    · rw [he]
      exact ⟨rfl, rfl⟩

/-! ### Open events kept away from unordered rules -/

def Clear (attrs : Attributes) (s : Db) : Prop :=
  ∀ e ∈ s.events, ∀ r ∈ s.rules, ¬ Blocking attrs s e r

theorem Seen.congr {s s' : Db} (hm : s'.fleet.metrics = s.fleet.metrics)
    (hd : s'.fleet.dockerMetrics = s.fleet.dockerMetrics) (t : MetricType) (e : AlertEvent) :
    Seen s' t e ↔ Seen s t e := by
  cases t with
  | system => simp only [Seen, hm]
  | docker => simp only [Seen, hd]

theorem Clear.same {s s' : Db} (h : Clear attrs s) (hsame : SameRows s s') : Clear attrs s' := by
  obtain ⟨hr, he, -, -, hm, hd⟩ := hsame
  intro e hev r hrule hb
  rw [he] at hev
  rw [hr] at hrule
  obtain ⟨hopen, hid, hun, hseen⟩ := hb
  exact h e hev r hrule ⟨hopen, hid, hun, (Seen.congr hm hd _ e).mp hseen⟩

/- Whether a rule is ordered depends on its type, field and operator. -/
theorem Unordered.congr {r q : AlertRule} (ht : q.metricType = r.metricType)
    (hf : q.metricField = r.metricField) (ho : q.operator = r.operator) :
    Unordered attrs q ↔ Unordered attrs r := by
  unfold Unordered
  rw [ht, hf, ho]

theorem clear_move {s s' : Db} {l : Label} (hw : WellFormed s) (h : Clear attrs s)
    (hok : Harmless attrs s l) (hm : Move attrs s l s') : Clear attrs s' := by
  cases hm with
  | quiet hsame => exact h.same hsame
  | stored i server startedAt body fleet hreq hserver hstore hsame =>
    refine Clear.same ?_ hsame
    intro e he r hr hb
    obtain ⟨hopen, hid, hun, hseen⟩ := hb
    rcases (stored_seen hstore r.metricType e).mp hseen with hshows | hbefore
    · exact hok server startedAt body hreq hserver (Option.isSome_iff_exists.mpr ⟨fleet, hstore⟩)
        e he r hr hopen hid hun hshows
    · exact h e he r hr ⟨hopen, hid, hun, hbefore⟩
  | added row hid =>
    intro e he r hr hb
    rcases List.mem_cons.mp hr with rfl | hr
    · obtain ⟨q, hq, hqid⟩ := hw.owned e he
      have hlt := hw.ruleBelow q hq
      have heq := hb.2.1
      omega
    · exact h e he r hr hb
  | patched ownerId ruleId body data r row hdata hfind hrow =>
    intro e he q hq hb
    rcases mem_putRule hq with rfl | hq
    · obtain ⟨hopen, hid, hun, hseen⟩ := hb
      exact hok data r q hdata hfind hrow hun e he hopen
        (hid.symm.trans (updateRule_id hrow)) hseen
    · exact h e he q hq hb
  | toggled r hr =>
    intro e he q hq hb
    rcases mem_putRule hq with rfl | hq
    · exact h e he r hr hb
    · exact h e he q hq hb
  | removed gone hr hsub _ _ hseen =>
    intro e he r hrule hb
    rw [hr] at hrule
    have hev := (removeRules_events (hsub.subset he)).1
    exact h e hev r (List.mem_of_mem_filter hrule) ⟨hb.1, hb.2.1, hb.2.2.1, hseen _ _ hb.2.2.2⟩
  | committed i reading evaluatedAt pending rest new hev hnew hsame =>
    refine Clear.same ?_ hsame
    intro e he q hq hb
    obtain ⟨r, hr, rfl⟩ := List.mem_map.mp hq
    obtain ⟨hid, ht, hf, ho⟩ := trigger_same evaluatedAt pending r
    obtain ⟨hopen, hrid, hun, hseen⟩ := hb
    have hun' : Unordered attrs r := (Unordered.congr ht hf ho).mp hun
    rw [ht] at hseen
    rcases List.mem_append.mp he with hnewe | hold
    · exact hok reading evaluatedAt pending rest new hev hnew e hnewe r hr (hid.symm.trans hrid)
        hun' hseen
    · exact h e hold r hr ⟨hopen, hid.symm.trans hrid, hun', hseen⟩
  | resolved reads now₁ now₂ =>
    obtain ⟨f, hsame, hf⟩ := runResolvers_events hw.toKeyed reads now₁ now₂
    rw [hf]
    intro e he r hr hb
    obtain ⟨q, hq, rfl⟩ := List.mem_map.mp he
    rcases hsame q with hkept | ⟨t, hset⟩
    · rw [hkept] at hb
      exact h q hq r hr hb
    · have hopen := hb.1
      rw [hset] at hopen
      cases hopen

/-! ### A harmful step -/

theorem harmful_patch {s : Db} {ownerId ruleId : ℕ} {body : AlertRuleUpdate}
    (hn : ¬ Harmless attrs s (.patch ownerId ruleId body)) :
    ∃ s', step cr floatStr attrs s (.patch ownerId ruleId body) = some s' ∧
      ¬ Clear attrs s' := by
  simp only [Harmless, not_forall, not_not] at hn
  obtain ⟨data, r, row, hdata, hfind, hrow, hun, e, he, hopen, hid, hseen⟩ := hn
  have hstep : updateAlertRule ownerId ruleId body s = (.ok, s.putRule row) := by
    simp only [updateAlertRule, hdata, hfind, hrow]
  refine ⟨s.putRule row, ?_, ?_⟩
  · show some (updateAlertRule ownerId ruleId body s).2 = _
    rw [hstep]
  · intro hclear
    have hrid : r.id = row.id := (updateRule_id hrow).symm
    have hmem : row ∈ (s.putRule row).rules :=
      List.mem_map.mpr ⟨r, findRule_mem hfind, if_pos hrid⟩
    exact hclear e he row hmem ⟨hopen, (hid.trans hrid).symm, hun, hseen⟩

theorem harmful_store {s : Db} {i : ℕ} (hn : ¬ Harmless attrs s (.store i)) :
    ∃ s', step cr floatStr attrs s (.store i) = some s' ∧ ¬ Clear attrs s' := by
  simp only [Harmless, not_forall, not_not] at hn
  obtain ⟨server, startedAt, body, hreq, hserver, hstore, e, he, r, hr, hopen, hid, hun, hshows⟩ :=
    hn
  obtain ⟨fleet, hfleet⟩ := Option.isSome_iff_exists.mp hstore
  refine ⟨{ s.goto i (.evaluating (readings server.id body)) with
    fleet := fleet.answer i .created }, ?_, ?_⟩
  · simp only [step, storeIngest, hreq, hserver, hfleet]
    rfl
  · intro hclear
    have hseen : Seen { s with fleet } r.metricType e :=
      (stored_seen hfleet r.metricType e).mpr (Or.inl hshows)
    exact hclear e he r hr ⟨hopen, hid, hun, (Seen.congr rfl rfl r.metricType e).mpr hseen⟩

theorem harmful_commit {s : Db} {i : ℕ} (hn : ¬ Harmless attrs s (.commit i)) :
    ∃ s', step cr floatStr attrs s (.commit i) = some s' ∧ ¬ Clear attrs s' := by
  simp only [Harmless, not_forall, not_not] at hn
  obtain ⟨reading, evaluatedAt, pending, rest, new, hev, hnew, e, he, r, hr, hid, hun, hseen⟩ := hn
  refine ⟨{ s.goto i (.evaluating rest) with
    rules := s.rules.map (trigger evaluatedAt pending)
    events := new ++ s.events
    nextEvent := s.nextEvent + pending.length }, ?_, ?_⟩
  · simp only [step, commitEvaluation, hev, hnew]
  · intro hclear
    obtain ⟨htid, ht, hf, ho⟩ := trigger_same evaluatedAt pending r
    have hopen := ((insertEvents_new hnew).2 e he).1
    refine hclear e (List.mem_append_left _ he) (trigger evaluatedAt pending r)
      (List.mem_map_of_mem hr) ⟨hopen, htid.trans hid, (Unordered.congr ht hf ho).mpr hun, ?_⟩
    rw [ht]
    exact (Seen.congr rfl rfl r.metricType e).mpr hseen

theorem harmful_step {s : Db} {l : Label} (hw : WellFormed s) (hn : ¬ Harmless attrs s l) :
    ∃ s', step cr floatStr attrs s l = some s' ∧ ¬ ResolverSound attrs s' := by
  have hex : ∃ s', step cr floatStr attrs s l = some s' ∧ ¬ Clear attrs s' := by
    cases l with
    | patch ownerId ruleId body => exact harmful_patch hn
    | store i => exact harmful_store hn
    | commit i => exact harmful_commit hn
    | _ => exact absurd trivial hn
  obtain ⟨s', hs, hclear⟩ := hex
  refine ⟨s', hs, ?_⟩
  rw [resolverSound_iff (hw.move (step_move hs)).toKeyed]
  exact hclear

/- Over a whole run the resolvers finish and resolve exactly the due events in every
state exactly when every step of the run is harmless. -/
theorem resolvers_sound_iff_harmless (cr : Crypto) (floatStr : PyFloat → String)
    (attrs : Attributes) (now : Instant) (ls : List Label) :
    Runs.Throughout (step cr floatStr attrs) (ResolverSound attrs) (init now) ls ↔
      Runs.Along (step cr floatStr attrs) (Harmless attrs) (init now) ls := by
  constructor
  · exact Runs.along_of_throughout WellFormed (ResolverSound attrs) (Harmless attrs)
      (fun _ _ _ h hs => h.move (step_move hs)) (fun _ _ h hn => harmful_step h hn)
      (WellFormed.init now)
  · refine Runs.throughout_of_invariant (fun s => WellFormed s ∧ Clear attrs s)
      (ResolverSound attrs) (Harmless attrs) ?_ ?_ ?_
    · intro s l s' hinv hok hs
      exact ⟨hinv.1.move (step_move hs), clear_move hinv.1 hinv.2 hok (step_move hs)⟩
    · intro s hinv
      exact (resolverSound_iff hinv.1.toKeyed).mpr hinv.2
    · exact ⟨WellFormed.init now, fun e he => by cases he⟩

end

/- No name outside the columns. -/
def plainAttributes : Attributes := ⟨fun _ => .none, fun _ => .none⟩

def cpuBody (serverId : ℕ) : AlertRuleCreate :=
  { serverId, name := "cpu", metricType := .system, metricField := "cpu_percent", operator := .gt
    thresholdValue := .fin 80 }

def sample (i serverId : ℕ) (cpu : ℚ) : List Label :=
  [.fleet (.verify i ⟨serverId, "pwk_agent"⟩ (.metric ⟨.fin cpu, .fin 20, .fin 30, none⟩)),
    .store i, .load i]

/- Two users with one alert each; the second server recovers, the first user points his
rule at a timestamp. -/
def misdirectedRule : List Label :=
  [.fleet (.register 0 1 "web" "pwk_agent" "$2b$12$KeyKeyKeyKeyKeyKeyKeyu"),
    .fleet (.register 1 2 "db" "pwk_agent" "$2b$12$KeyKeyKeyKeyKeyKeyKeyu"),
    .create 1 (cpuBody 1), .create 2 (cpuBody 2)] ++
  sample 2 1 90 ++ [.commit 2] ++ sample 3 2 90 ++ [.commit 3, .fleet (.tick 60000000)] ++
  sample 4 2 10 ++ [.patch 1 1 { metricField := some (some "collected_at") }]

/- The pass raises, and the other user's recovered alert stays open. -/
theorem resolvers_stopped_by_misdirected_rule :
    ∃ s, Runs.run (step tabledCrypto Threshold.tabledFloatStr plainAttributes) (init 0)
        misdirectedRule = some s ∧
      (runResolvers plainAttributes Reads.first 0 0 s).1 = true ∧
      (runResolvers plainAttributes Reads.first 0 0 s).2.events = s.events ∧
      s.events.map (fun e => (e.ruleId, (settle plainAttributes Reads.first 0 0 s e).resolvedAt)) =
        [(2, some 0), (1, none)] ∧
      s.events.map AlertEvent.resolvedAt = [none, none] ∧
      ¬ ResolverSound plainAttributes s := by
  refine ⟨_, rfl, by decide, rfl, by decide, rfl, ?_⟩
  intro h
  have hraises := congrArg Prod.fst (h Reads.first 0 0)
  exact absurd hraises (by decide)

end PulseWatch.Alerts
