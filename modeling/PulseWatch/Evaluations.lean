import PulseWatch.AlertLifecycle

/-!
# Evaluations one after another

The two services of `app/services/threshold.py` as functions of the tables, for calls
that nothing comes between: the decision on one sample and its COMMIT, which inserts
the events and writes `last_triggered_at` of their rules. An evaluation of an ingest
request that is alone is such a call.
-/

namespace PulseWatch.Evaluations
open Alerts Threshold

/- The arguments of `evaluate_system_metrics` and `evaluate_docker_metrics`. -/
inductive Sample where
  | system (serverId : ℕ) (metricData : MetricData)
  | docker (serverId : ℕ) (containerName : String) (containerData : MetricData)
  deriving DecidableEq, Repr

structure Tables where
  rules : List AlertRule
  events : List AlertEvent
  nextEvent : ℕ
  deriving DecidableEq, Repr

def Sample.serverId : Sample → ℕ
  | .system s _ => s
  | .docker s _ _ => s

def Sample.container : Sample → Option String
  | .system _ _ => none
  | .docker _ c _ => some c

def Sample.data : Sample → MetricData
  | .system _ d => d
  | .docker _ _ d => d

/-- The rules a sample is checked against. -/
def Sample.concerns (x : Sample) (r : AlertRule) : Bool :=
  match x with
  | .system s _ => r.serverId = s ∧ r.metricType = .system ∧ r.isActive = true
  | .docker s c _ => (r.serverId = s ∧ r.metricType = .docker ∧ r.isActive = true) ∧
      (r.containerName = none ∨ r.containerName = some c)

/- The value that breaches the threshold of a rule. -/
def Sample.breach (x : Sample) (r : AlertRule) : Option PyFloat :=
  (x.data.get? r.metricField).filter fun value => compare value r.operator r.thresholdValue

section
variable (floatStr : PyFloat → String)

def Sample.pending (x : Sample) (now : Instant) (rules : List AlertRule) : List Pending :=
  match x with
  | .system s data => evaluateSystemMetrics floatStr data now (selectRules .system s rules)
  | .docker s name data =>
    evaluateDockerMetrics floatStr name data now (selectRules .docker s rules)

/- The INSERTs of a call, ids from the sequence. The foreign keys hold: the call has
just read the rules. -/
def insertRows (serverId : ℕ) (createdAt : Instant) : ℕ → List Pending → Option (List AlertEvent)
  | _, [] => some []
  | id, p :: ps =>
    match flushEvent (p.event id serverId createdAt) with
    | none => none
    | some e => (insertRows serverId createdAt (id + 1) ps).map (e :: ·)

def Tables.commit (t : Tables) (serverId : ℕ) (createdAt now : Instant) (pending : List Pending) :
    Option (List AlertEvent × Tables) :=
  (insertRows serverId createdAt t.nextEvent pending).map fun new =>
    (new, { rules := t.rules.map (trigger now pending)
            events := new ++ t.events
            nextEvent := t.nextEvent + pending.length })

/- A whole call with the events it returns; `none` when its COMMIT fails. `created_at`
is the start of the transaction, `now` the clock the call has read. -/
def Tables.evaluate (t : Tables) (x : Sample) (createdAt now : Instant) :
    Option (List AlertEvent × Tables) :=
  match x.pending floatStr now t.rules with
  | [] => some ([], t)
  | pending => t.commit x.serverId createdAt now pending

end

/-! ### Decisions rule by rule -/

theorem concerns_pending (floatStr : PyFloat → String) (x : Sample) (now : Instant)
    (rules : List AlertRule) : x.pending floatStr now rules =
      evaluate floatStr x.container x.data now (rules.filter x.concerns) := by
  cases x with
  | system s data => rfl
  | docker s name data =>
    simp only [Sample.pending, evaluateDockerMetrics, selectRules, List.filter_filter,
      Sample.container, Sample.data]
    congr 1
    refine List.filter_congr fun r _ => ?_
    simp only [Sample.concerns, ← Bool.decide_and]
    exact decide_eq_decide.mpr and_comm

theorem fires_breach (x : Sample) (now : Instant) (r : AlertRule) :
    fires x.data now r = if cooldownOver now r then x.breach r else none := by
  unfold fires Sample.breach
  cases x.data.get? r.metricField with
  | none => simp
  | some value =>
    cases hc : compare value r.operator r.thresholdValue with
    | false => simp [hc, Option.filter]
    | true => cases cooldownOver now r <;> simp [hc, Option.filter]

section
variable {f : AlertRule → Option Pending} (hf : ∀ q p, f q = some p → p.rule = q)
include hf

theorem filterMap_others {rules : List AlertRule} {id : ℕ} (h : ∀ q ∈ rules, q.id ≠ id) :
    (rules.filterMap f).filter (fun p => p.rule.id = id) = [] := by
  rw [List.filter_eq_nil_iff]
  intro p hp
  obtain ⟨q, hq, hqp⟩ := List.mem_filterMap.mp hp
  rw [hf q p hqp]
  simpa using h q hq

/- A rule with its own id takes part with its own decision only. -/
theorem filterMap_rule {rules : List AlertRule} (hids : (rules.map AlertRule.id).Nodup)
    {r : AlertRule} (hr : r ∈ rules) :
    (rules.filterMap f).filter (fun p => p.rule.id = r.id) = (f r).toList := by
  induction rules with
  | nil => cases hr
  | cons q rules ih =>
    have hcons := List.nodup_cons.mp hids
    rcases List.mem_cons.mp hr with rfl | hr
    · have hrest := filterMap_others hf fun q hq he =>
        hcons.1 (List.mem_map.mpr ⟨q, hq, he⟩)
      cases hfr : f r with
      | none => rw [List.filterMap_cons_none hfr, hrest]; rfl
      | some p =>
        rw [List.filterMap_cons_some hfr, List.filter_cons_of_pos (by simp [hf r p hfr]), hrest]
        rfl
    · have hne : q.id ≠ r.id := fun he => hcons.1 (List.mem_map.mpr ⟨r, hr, he.symm⟩)
      cases hfq : f q with
      | none => rw [List.filterMap_cons_none hfq, ih hcons.2 hr]
      | some p =>
        rw [List.filterMap_cons_some hfq, List.filter_cons_of_neg (by simp [hf q p hfq, hne]),
          ih hcons.2 hr]

end

/-- What a call decides about a rule. -/
def Sample.decision (floatStr : PyFloat → String) (x : Sample) (now : Instant) (r : AlertRule) :
    Option Pending :=
  if x.concerns r then (fires x.data now r).map fun value =>
    ⟨r, value, message floatStr x.container r value, x.container⟩
  else none

theorem decision_rule {floatStr : PyFloat → String} {x : Sample} {now : Instant} {q : AlertRule}
    {p : Pending} (h : x.decision floatStr now q = some p) : p.rule = q := by
  unfold Sample.decision at h
  split at h
  · obtain ⟨value, -, rfl⟩ := Option.map_eq_some_iff.mp h
    rfl
  · cases h

theorem pending_decisions (floatStr : PyFloat → String) (x : Sample) (now : Instant)
    (rules : List AlertRule) :
    x.pending floatStr now rules = rules.filterMap (x.decision floatStr now) := by
  rw [concerns_pending, evaluate, List.filterMap_filter]
  rfl

theorem pending_rule (floatStr : PyFloat → String) (x : Sample) (now : Instant)
    {rules : List AlertRule} (hids : (rules.map AlertRule.id).Nodup) {r : AlertRule}
    (hr : r ∈ rules) : (x.pending floatStr now rules).filter (fun p => p.rule.id = r.id) =
      (x.decision floatStr now r).toList := by
  rw [pending_decisions]
  exact filterMap_rule (fun _ _ => decision_rule) hids hr

/-! ### Commits that fit -/

/-- The row is one the table can hold. -/
def Stored (r : AlertRule) : Prop := flushRule r = some r

instance (r : AlertRule) : Decidable (Stored r) := inferInstanceAs (Decidable (_ = _))

theorem varchar_same {n : ℕ} {s : String} (h : PgText.varchar n s = some s) :
    s.toList.length ≤ n ∧ '\x00' ∉ s.toList := by
  refine ⟨PgText.varchar_length h, fun hnul => ?_⟩
  simp [PgText.varchar, hnul] at h

theorem Stored.texts {r : AlertRule} (h : Stored r) :
    PgText.varchar 255 r.name = some r.name ∧
      PgText.varchar 100 r.metricField = some r.metricField ∧
      PgText.varchar? 255 r.containerName = some r.containerName := by
  have hflushed := flushRule_flushed h
  exact ⟨hflushed.name, hflushed.metricField, hflushed.containerName⟩

/- The characters of a message. -/
theorem message_length (floatStr : PyFloat → String) (container : Option String) (r : AlertRule)
    (value : PyFloat) : (message floatStr container r value).toList.length =
      r.name.toList.length + 2 + ((container.map fun c => c.toList.length + 1).getD 0) +
        r.metricField.toList.length + 1 + (floatStr value).toList.length + 1 +
        r.operator.value.toList.length + 1 + (floatStr r.thresholdValue).toList.length := by
  cases container with
  | none =>
    simp [message, String.toList_append]
    omega
  | some c =>
    simp [message, String.toList_append]
    omega

theorem message_plain {floatStr : PyFloat → String} (hstr : ∀ x, '\x00' ∉ (floatStr x).toList)
    {container : Option String} (hc : ∀ c, container = some c → '\x00' ∉ c.toList) {r : AlertRule}
    (hr : Stored r) (value : PyFloat) :
    '\x00' ∉ (message floatStr container r value).toList := by
  have hname := (varchar_same hr.texts.1).2
  have hfield := (varchar_same hr.texts.2.1).2
  have hop : '\x00' ∉ r.operator.value.toList := by cases r.operator <;> decide
  cases container with
  | none =>
    simp [message, String.toList_append, hname, hfield, hop, hstr]
  | some c =>
    simp [message, String.toList_append, hname, hfield, hop, hstr, hc c rfl]

theorem operator_length (op : ThresholdOperator) : op.value.toList.length ≤ 3 := by
  cases op <;> decide

theorem varchar_fitting {n : ℕ} {s : String} (hs : s.toList.length ≤ n) (hnul : '\x00' ∉ s.toList) :
    PgText.varchar n s = some s := by
  rw [PgText.varchar, if_neg hnul, if_pos hs]

/- The event goes into its row as it is. -/
def Fits (p : Pending) : Prop :=
  PgText.varchar 500 p.message = some p.message ∧
    PgText.varchar? 255 p.containerName = some p.containerName

theorem flush_fits {p : Pending} (h : Fits p) (id serverId : ℕ) (createdAt : Instant) :
    flushEvent (p.event id serverId createdAt) = some (p.event id serverId createdAt) := by
  simp only [flushEvent, Pending.event, h.1, h.2]
  rfl

/-- The rows of a call, numbered. -/
def numbered (serverId : ℕ) (createdAt : Instant) : ℕ → List Pending → List AlertEvent
  | _, [] => []
  | id, p :: ps => p.event id serverId createdAt :: numbered serverId createdAt (id + 1) ps

theorem insertRows_fits {serverId : ℕ} {createdAt : Instant} {id : ℕ} {pending : List Pending}
    (h : ∀ p ∈ pending, Fits p) : insertRows serverId createdAt id pending =
      some (numbered serverId createdAt id pending) := by
  induction pending generalizing id with
  | nil => rfl
  | cons p ps ih =>
    rw [insertRows, flush_fits (h p List.mem_cons_self),
      ih fun q hq => h q (List.mem_cons_of_mem p hq)]
    rfl

/- A call whose events fit commits them. -/
theorem evaluate_fits {floatStr : PyFloat → String} {t : Tables} {x : Sample}
    {createdAt now : Instant} (h : ∀ p ∈ x.pending floatStr now t.rules, Fits p) :
    t.evaluate floatStr x createdAt now =
      some (numbered x.serverId createdAt t.nextEvent (x.pending floatStr now t.rules),
        { rules := t.rules.map (trigger now (x.pending floatStr now t.rules))
          events := numbered x.serverId createdAt t.nextEvent (x.pending floatStr now t.rules) ++
            t.events
          nextEvent := t.nextEvent + (x.pending floatStr now t.rules).length }) := by
  unfold Tables.evaluate
  split
  · next hnil =>
    have hsame : t.rules.map (trigger now []) = t.rules := List.map_id _
    rw [hnil, hsame]
    rfl
  · rw [Tables.commit, insertRows_fits h]
    rfl

theorem numbered_rule {serverId id : ℕ} {createdAt : Instant} {ps : List Pending} {e : AlertEvent}
    (h : e ∈ numbered serverId createdAt id ps) : ∃ p ∈ ps, p.rule.id = e.ruleId := by
  induction ps generalizing id with
  | nil => cases h
  | cons p ps ih =>
    rcases List.mem_cons.mp h with rfl | h
    · exact ⟨p, List.mem_cons_self, rfl⟩
    · obtain ⟨q, hq, hid⟩ := ih h
      exact ⟨q, List.mem_cons_of_mem p hq, hid⟩

/- The rows of one rule, apart from their ids. -/
theorem numbered_own (serverId : ℕ) (createdAt : Instant) (id ruleId : ℕ) (ps : List Pending) :
    ((numbered serverId createdAt id ps).filter (·.ruleId = ruleId)).map
        (fun e => { e with id := 0 }) =
      (ps.filter (·.rule.id = ruleId)).map fun p => p.event 0 serverId createdAt := by
  induction ps generalizing id with
  | nil => rfl
  | cons p ps ih =>
    have hrest := ih (id + 1)
    by_cases hid : p.rule.id = ruleId
    · rw [numbered, List.filter_cons_of_pos (by simp [Pending.event, hid]),
        List.filter_cons_of_pos (by simp [hid]), List.map_cons, List.map_cons, hrest]
      rfl
    · rw [numbered, List.filter_cons_of_neg (by simp [Pending.event, hid]),
        List.filter_cons_of_neg (by simp [hid]), hrest]

/- A rule that fired has the clock of the call as `last_triggered_at`. -/
theorem trigger_filter (now : Instant) (pending : List Pending) (r : AlertRule) :
    trigger now pending r = if pending.filter (·.rule.id = r.id) = [] then r
      else { r with lastTriggeredAt := some now } := by
  unfold trigger
  by_cases hnil : pending.filter (·.rule.id = r.id) = []
  · rw [if_pos hnil, if_neg]
    simpa [List.filter_eq_nil_iff] using hnil
  · rw [if_neg hnil, if_pos]
    simpa [List.filter_eq_nil_iff] using hnil

theorem flushRule_last (r : AlertRule) (last : Option Instant) :
    flushRule { r with lastTriggeredAt := last } =
      (flushRule r).map fun q => { q with lastTriggeredAt := last } := by
  simp only [flushRule, Option.bind_eq_bind, Option.pure_def, Option.map_bind, Option.map_some,
    Function.comp_def]

theorem stored_trigger {r : AlertRule} (h : flushRule r = some r) (now : Instant)
    (pending : List Pending) :
    flushRule (trigger now pending r) = some (trigger now pending r) := by
  unfold trigger
  split
  · rw [flushRule_last, h]
    rfl
  · exact h

/- An event of a stored system rule fits its row. -/
theorem system_fits (str : PyFloat.Str) {r : AlertRule} (hr : Stored r) (value : PyFloat) :
    Fits ⟨r, value, message str.toString none r value, none⟩ := by
  have hname := (varchar_same hr.texts.1).1
  have hfield := (varchar_same hr.texts.2.1).1
  have hop := operator_length r.operator
  have hvalue := str.short value
  have hthreshold := str.short r.thresholdValue
  have hlen : (message str.toString none r value).toList.length ≤ 500 := by
    rw [message_length]
    simp only [Option.map_none, Option.getD_none]
    omega
  have hplain : '\x00' ∉ (message str.toString none r value).toList :=
    message_plain str.plain (fun c hc => by cases hc) hr value
  exact ⟨varchar_fitting hlen hplain, rfl⟩

/-! ### An ingest request that is alone -/

def tables (s : Alerts.Db) : Tables := ⟨s.rules, s.events, s.nextEvent⟩

def Reading.sample : Reading → Sample
  | .system s cpu memory disk => .system s (Reading.system s cpu memory disk).data
  | .docker s name cpu usage limit => .docker s name (Reading.docker s name cpu usage limit).data

theorem sample_pending (floatStr : PyFloat → String) (reading : Reading) (now : Instant)
    (rules : List AlertRule) : (Reading.sample reading).pending floatStr now rules =
      reading.evaluate floatStr now (selectRules reading.metricType reading.serverId rules) := by
  cases reading with
  | system s cpu memory disk => rfl
  | docker s name cpu usage limit => rfl

theorem insertEvents_rows {s : Alerts.Db} {reading : Reading} {createdAt : Instant} {id : ℕ}
    {pending : List Pending} (hserver : s.hasServer reading.serverId = true)
    (hrules : ∀ p ∈ pending, ∃ r ∈ s.rules, r.id = p.rule.id) :
    s.insertEvents reading createdAt id pending =
      insertRows reading.serverId createdAt id pending := by
  induction pending generalizing id with
  | nil => rfl
  | cons p ps ih =>
    have hany : (s.rules.any fun r => r.id = p.rule.id) = true := by
      obtain ⟨r, hr, hid⟩ := hrules p List.mem_cons_self
      exact List.any_eq_true.mpr ⟨r, hr, decide_eq_true hid⟩
    rw [Db.insertEvents, insertRows, hserver, hany,
      ih fun q hq => hrules q (List.mem_cons_of_mem p hq)]
    rfl

/- The load and the commit of a request with nothing in between. -/
def ingestCall (floatStr : PyFloat → String) (i : ℕ) (s : Alerts.Db) : Option Alerts.Db :=
  (loadEvaluation floatStr i s).bind fun t =>
    match t.evaluations i with
    | .decided _ _ _ _ => commitEvaluation i t
    | _ => some t

/- They evaluate the next reading on the tables. -/
theorem ingest_alone {floatStr : PyFloat → String} {s : Alerts.Db} {i : ℕ} {reading : Reading}
    {rest : List Reading} (hi : s.evaluations i = .evaluating (reading :: rest))
    (hserver : s.hasServer reading.serverId = true) :
    ingestCall floatStr i s = some (
      match (tables s).evaluate floatStr (Reading.sample reading) s.fleet.now s.fleet.now with
      | some (_, t) => { s.goto i (.evaluating rest) with
          rules := t.rules, events := t.events, nextEvent := t.nextEvent }
      | none => s.goto i .idle) := by
  have hpending := sample_pending floatStr reading s.fleet.now s.rules
  simp only [ingestCall, loadEvaluation, hi, Option.bind_some, ← hpending]
  cases h : (Reading.sample reading).pending floatStr s.fleet.now s.rules with
  | nil =>
    have hnone : (tables s).evaluate floatStr (Reading.sample reading) s.fleet.now s.fleet.now =
        some ([], tables s) := by
      unfold Tables.evaluate
      rw [show (tables s).rules = s.rules from rfl, h]
    simp only [hnone, if_true, Db.goto, Function.update_self]
    rfl
  | cons p ps =>
    have hcommit : (tables s).evaluate floatStr (Reading.sample reading) s.fleet.now s.fleet.now =
        (tables s).commit (Reading.sample reading).serverId s.fleet.now s.fleet.now (p :: ps) := by
      unfold Tables.evaluate
      rw [show (tables s).rules = s.rules from rfl, h]
    have hrows : ∀ e, (s.goto i e).insertEvents reading s.fleet.now s.nextEvent (p :: ps) =
        insertRows (Reading.sample reading).serverId s.fleet.now s.nextEvent (p :: ps) := by
      intro e
      have hid : (Reading.sample reading).serverId = reading.serverId := by cases reading <;> rfl
      rw [hid]
      refine insertEvents_rows hserver fun q hq => ⟨q.rule, ?_, rfl⟩
      rw [← h, hpending] at hq
      exact (List.mem_filter.mp (Reading.mem_evaluate hq).1).1
    simp only [hcommit, List.cons_ne_nil, if_false, Db.goto, Function.update_self,
      commitEvaluation, Tables.commit]
    have hrow := hrows (.decided reading s.fleet.now (p :: ps) rest)
    simp only [Db.goto] at hrow
    rw [hrow]
    cases hnew : insertRows (Reading.sample reading).serverId s.fleet.now s.nextEvent (p :: ps) with
    | none => simp [tables, hnew]
    | some new => simp [tables, hnew]

end PulseWatch.Evaluations
