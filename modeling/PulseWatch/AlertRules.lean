import PulseWatch.Fleet
import PulseWatch.Lib.PyText
import PulseWatch.Threshold

/-!
# Alert rules and their events (`app/api/alerts.py`, `app/telegram_bot.py`)

The tables `alert_rules` and `alert_events` beside the fleet, with every path
that writes them: the REST rule handlers, the bot's `/createrule`, `/toggle` and
`/delete`, and the evaluation an ingest request runs after its commit. A handler
is its commit; what it has read before that commit is read again there.
-/

namespace PulseWatch.Alerts

open Threshold (Reading Pending)

/- app/schemas/alert_rule.py. In an update `none` is a field left unset and
`some none` an explicit null. -/
structure AlertRuleCreate where
  serverId : ℕ
  name : String
  metricType : MetricType
  metricField : String
  operator : ThresholdOperator
  thresholdValue : PyFloat
  containerName : Option String := none
  cooldownSeconds : ℤ := 300
  isActive : Bool := true
  notificationChannels : List String := ["telegram", "email"]
  deriving DecidableEq, Repr

structure AlertRuleUpdate where
  name : Option (Option String) := none
  metricType : Option (Option MetricType) := none
  metricField : Option (Option String) := none
  operator : Option (Option ThresholdOperator) := none
  thresholdValue : Option (Option PyFloat) := none
  containerName : Option (Option String) := none
  cooldownSeconds : Option (Option ℤ) := none
  isActive : Option (Option Bool) := none
  notificationChannels : Option (Option (List String)) := none
  deriving DecidableEq, Repr

inductive Response where
  | created
  | ok
  | noContent
  | notFound
  | unprocessable
  | serverError
  deriving DecidableEq, Repr

def allowedChannels : List String := ["telegram", "email"]

/- `none` is the ValueError. -/
def validateChannels (value : List String) : Option (List String) :=
  let cleaned := value.map fun v => PyText.lower (PyText.strip v)
  if cleaned.all (· ∈ allowedChannels) then some (PyText.unique cleaned) else none

/-- `Field(min_length=1, max_length=n)`. -/
def lengthOk (n : ℕ) (s : String) : Bool := 1 ≤ PyText.len s && PyText.len s ≤ n

def AlertRuleCreate.validate (data : AlertRuleCreate) : Option AlertRuleCreate :=
  if lengthOk 255 data.name && lengthOk 100 data.metricField && 0 ≤ data.cooldownSeconds then
    (validateChannels data.notificationChannels).map fun channels =>
      { data with notificationChannels := channels }
  else none

/-- A check that runs only on a value that is given and not null. -/
def given {A : Type} (check : A → Bool) : Option (Option A) → Bool
  | some (some v) => check v
  | _ => true

def AlertRuleUpdate.validate (data : AlertRuleUpdate) : Option AlertRuleUpdate :=
  if given (lengthOk 255) data.name && given (lengthOk 100) data.metricField &&
      given (fun n => 0 ≤ n) data.cooldownSeconds then
    match data.notificationChannels with
    | some (some value) => (validateChannels value).map fun channels =>
        { data with notificationChannels := some (some channels) }
    | _ => some data
  else none

/- `setattr` on a column that is NOT NULL: an explicit null fails the commit. -/
def setColumn {A : Type} (old : A) : Option (Option A) → Option A
  | none => some old
  | some v => v

def storeInt (n : ℤ) : Option ℤ := if -2147483648 ≤ n ∧ n ≤ 2147483647 then some n else none

/- The row as the table holds it, or the error of the commit. -/
def flushRule (r : AlertRule) : Option AlertRule := do
  let name ← PgText.varchar 255 r.name
  let metricField ← PgText.varchar 100 r.metricField
  let containerName ← PgText.varchar? 255 r.containerName
  let cooldownSeconds ← storeInt r.cooldownSeconds
  pure { r with name, metricField, containerName, cooldownSeconds }

/- The row `create_alert_rule` adds: the channels of the body are not passed on. -/
def newRule (id ownerId : ℕ) (data : AlertRuleCreate) : AlertRule :=
  { id, serverId := data.serverId, ownerId, name := data.name, metricType := data.metricType
    metricField := data.metricField, operator := data.operator
    thresholdValue := data.thresholdValue, containerName := data.containerName
    cooldownSeconds := data.cooldownSeconds, isActive := data.isActive }

/- The loop over `model_dump(exclude_unset=True)` and the commit. -/
def updateRule (data : AlertRuleUpdate) (r : AlertRule) : Option AlertRule := do
  let name ← setColumn r.name data.name
  let metricType ← setColumn r.metricType data.metricType
  let metricField ← setColumn r.metricField data.metricField
  let operator ← setColumn r.operator data.operator
  let thresholdValue ← setColumn r.thresholdValue data.thresholdValue
  let cooldownSeconds ← setColumn r.cooldownSeconds data.cooldownSeconds
  let isActive ← setColumn r.isActive data.isActive
  let notificationChannels ← setColumn r.notificationChannels data.notificationChannels
  flushRule { r with
    name, metricType, metricField, operator, thresholdValue, cooldownSeconds, isActive
    notificationChannels, containerName := data.containerName.getD r.containerName }

/- The fields the dialog of `/createrule` offers. -/
def systemMetricFields : List String := ["cpu_percent", "memory_percent", "disk_percent"]
def dockerMetricFields : List String := ["cpu_percent", "memory_usage_mb", "memory_limit_mb"]

def fieldsOf : MetricType → List String
  | .system => systemMetricFields
  | .docker => dockerMetricFields

/- A draft that has come to its last question. -/
structure RuleDraft where
  serverId : ℕ
  metricType : MetricType
  name : String
  nameOk : lengthOk 255 name = true
  metricField : String
  fieldOk : metricField ∈ fieldsOf metricType
  containerName : Option String
  operator : ThresholdOperator
  thresholdValue : PyFloat
  notificationChannels : List String

def RuleDraft.rule (draft : RuleDraft) (id ownerId : ℕ) : AlertRule :=
  { id, serverId := draft.serverId, ownerId, name := draft.name, metricType := draft.metricType
    metricField := draft.metricField, operator := draft.operator
    thresholdValue := draft.thresholdValue, containerName := draft.containerName
    notificationChannels := draft.notificationChannels }

/- What an ingest request still has to evaluate. A decided evaluation holds the rules
as it loaded them. -/
inductive Evaluation where
  | idle
  | evaluating (readings : List Reading)
  | decided (reading : Reading) (evaluatedAt : Instant) (pending : List Pending)
      (rest : List Reading)
  deriving DecidableEq, Repr

structure Db where
  fleet : Fleet.Sys
  rules : List AlertRule
  events : List AlertEvent
  nextRule : ℕ
  nextEvent : ℕ
  evaluations : ℕ → Evaluation

def init (now : Instant) : Db := ⟨Fleet.init now, [], [], 1, 1, fun _ => .idle⟩

def Db.findRule (s : Db) (ownerId ruleId : ℕ) : Option AlertRule :=
  s.rules.find? fun r => r.id = ruleId ∧ r.ownerId = ownerId

def Db.hasServer (s : Db) (serverId : ℕ) : Bool :=
  s.fleet.servers.any fun r => r.id = serverId

/- INSERT INTO alert_rules; the server must exist. -/
def Db.addRule (s : Db) (rule : AlertRule) : Option Db :=
  match flushRule rule with
  | some row =>
    if s.hasServer row.serverId then
      some { s with rules := row :: s.rules, nextRule := s.nextRule + 1 }
    else none
  | none => none

/-- `UPDATE alert_rules SET ... WHERE id = ...`. -/
def Db.putRule (s : Db) (row : AlertRule) : Db :=
  { s with rules := s.rules.map fun r => if r.id = row.id then row else r }

/- DELETE of a rule or of a server, with the cascades. -/
def Db.removeRules (s : Db) (gone : AlertRule → Bool) : Db :=
  { s with
    rules := s.rules.filter fun r => !gone r
    events := s.events.filter fun e => !(s.rules.any fun r => r.id = e.ruleId && gone r) }

def Db.removeServer (s : Db) (serverId : ℕ) : Db :=
  let t := s.removeRules fun r => r.serverId = serverId
  { t with
    events := t.events.filter fun e => e.serverId ≠ serverId
    fleet := { t.fleet with
      servers := t.fleet.servers.filter fun r => r.id ≠ serverId
      metrics := t.fleet.metrics.filter fun m => m.serverId ≠ serverId
      dockerMetrics := t.fleet.dockerMetrics.filter fun m => m.serverId ≠ serverId } }

def createAlertRule (ownerId : ℕ) (body : AlertRuleCreate) (s : Db) : Response × Db :=
  match body.validate with
  | none => (.unprocessable, s)
  | some data =>
    if s.fleet.servers.any fun r => r.id = data.serverId && r.ownerId = ownerId then
      match s.addRule (newRule s.nextRule ownerId data) with
      | some t => (.created, t)
      | none => (.serverError, s)
    else (.notFound, s)

def updateAlertRule (ownerId ruleId : ℕ) (body : AlertRuleUpdate) (s : Db) : Response × Db :=
  match body.validate with
  | none => (.unprocessable, s)
  | some data =>
    match s.findRule ownerId ruleId with
    | none => (.notFound, s)
    | some r =>
      match updateRule data r with
      | some row => (.ok, s.putRule row)
      | none => (.serverError, s)

def deleteAlertRule (ownerId ruleId : ℕ) (s : Db) : Response × Db :=
  match s.findRule ownerId ruleId with
  | none => (.notFound, s)
  | some r => (.noContent, s.removeRules fun q => q.id = r.id)

def confirmDraft (ownerId : ℕ) (draft : RuleDraft) (s : Db) : Db :=
  (s.addRule (draft.rule s.nextRule ownerId)).getD s

def handleToggle (ownerId ruleId : ℕ) (s : Db) : Db :=
  match s.findRule ownerId ruleId with
  | none => s
  | some r => s.putRule { r with isActive := !r.isActive }

/- `/delete <id> confirm`. -/
def handleDelete (ownerId serverId : ℕ) (s : Db) : Db :=
  if s.fleet.servers.any fun r => r.id = serverId && r.ownerId = ownerId then
    s.removeServer serverId
  else s

/-! ### Evaluation after ingest -/

def readings (serverId : ℕ) : Fleet.Submission → List Reading
  | .metric data => [.system serverId data.cpuPercent data.memoryPercent data.diskPercent]
  | .docker data => data.map fun item =>
      .docker serverId item.containerName item.cpuPercent item.memoryUsageMb item.memoryLimitMb

def flushEvent (e : AlertEvent) : Option AlertEvent := do
  let message ← PgText.varchar 500 e.message
  let containerName ← PgText.varchar? 255 e.containerName
  pure { e with message, containerName }

/- The INSERTs of one evaluation, ids from the sequence; each rule must still exist. -/
def Db.insertEvents (s : Db) (reading : Reading) (createdAt : Instant) :
    ℕ → List Pending → Option (List AlertEvent)
  | _, [] => some []
  | id, p :: ps =>
    match flushEvent (p.event id reading.serverId createdAt) with
    | none => none
    | some e =>
      if s.hasServer reading.serverId && s.rules.any fun r => r.id = p.rule.id then
        (s.insertEvents reading createdAt (id + 1) ps).map (e :: ·)
      else none

def Db.goto (s : Db) (i : ℕ) (e : Evaluation) : Db :=
  { s with evaluations := Function.update s.evaluations i e }

/- `last_triggered_at` of the rules that fired. -/
def trigger (at' : Instant) (pending : List Pending) (r : AlertRule) : AlertRule :=
  if pending.any fun p => p.rule.id = r.id then { r with lastTriggeredAt := some at' } else r

section
variable (floatStr : PyFloat → String)

/- SELECT of the rules and the decision for the next reading. -/
def loadEvaluation (i : ℕ) (s : Db) : Option Db :=
  match s.evaluations i with
  | .evaluating (reading :: rest) =>
    let rules := Threshold.selectRules reading.metricType reading.serverId s.rules
    let pending := reading.evaluate floatStr s.fleet.now rules
    some (s.goto i (if pending = [] then .evaluating rest
      else .decided reading s.fleet.now pending rest))
  | _ => none

end

/- The commit; any exception of it is swallowed together with the readings left. -/
def commitEvaluation (i : ℕ) (s : Db) : Option Db :=
  match s.evaluations i with
  | .decided reading evaluatedAt pending rest =>
    match s.insertEvents reading evaluatedAt s.nextEvent pending with
    | some new => some { s.goto i (.evaluating rest) with
        rules := s.rules.map (trigger evaluatedAt pending)
        events := new ++ s.events
        nextEvent := s.nextEvent + pending.length }
    | none => some (s.goto i .idle)
  | _ => none

end PulseWatch.Alerts
