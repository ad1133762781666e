import PulseWatch.Models

/-!
# Threshold rules (`app/services/threshold.py`)

What one evaluation of a metric against the rules of its server decides. The
two services differ in the rules they select, the container filter and the
container in the message; both are `evaluate` at their own values.
-/

namespace PulseWatch.Threshold

/- `_compare` on two floats. -/
def compare (actual : PyFloat) (operator : ThresholdOperator) (threshold : PyFloat) : Bool :=
  match operator with
  | .gt => PyFloat.lt threshold actual
  | .gte => PyFloat.le threshold actual
  | .lt => PyFloat.lt actual threshold
  | .lte => PyFloat.le actual threshold
  | .eq => PyFloat.eq actual threshold
  | .neq => !PyFloat.eq actual threshold

/- The `metric_data` dict. A key may hold `None`. -/
abbrev MetricData := List (String × Option PyFloat)

def MetricData.get? (data : MetricData) (field : String) : Option PyFloat :=
  (data.lookup field).join

/- What the ingest handlers pass to an evaluation. -/
inductive Reading where
  | system (serverId : ℕ) (cpuPercent memoryPercent diskPercent : PyFloat)
  | docker (serverId : ℕ) (containerName : String) (cpuPercent memoryUsageMb : PyFloat)
      (memoryLimitMb : Option PyFloat)
  deriving DecidableEq, Repr

def Reading.serverId : Reading → ℕ
  | .system s _ _ _ => s
  | .docker s _ _ _ _ => s

def Reading.metricType : Reading → MetricType
  | .system .. => .system
  | .docker .. => .docker

def Reading.container : Reading → Option String
  | .system .. => none
  | .docker _ c _ _ _ => some c

def Reading.data : Reading → MetricData
  | .system _ cpu memory disk =>
    [("cpu_percent", some cpu), ("memory_percent", some memory), ("disk_percent", some disk)]
  | .docker _ _ cpu usage limit =>
    [("cpu_percent", some cpu), ("memory_usage_mb", some usage), ("memory_limit_mb", limit)]

/- The SELECT of an evaluation. -/
def selectRules (metricType : MetricType) (serverId : ℕ) (rules : List AlertRule) :
    List AlertRule :=
  rules.filter fun r => r.serverId = serverId ∧ r.metricType = metricType ∧ r.isActive = true

/- The cooldown check: `elapsed < cooldown_seconds` skips the rule. Both sides are
exact, so the comparison is made in microseconds. -/
def cooldownOver (now : Instant) (rule : AlertRule) : Bool :=
  match rule.lastTriggeredAt with
  | none => true
  | some t => !decide (now - t < seconds rule.cooldownSeconds)

/-- The value a rule fires on. -/
def fires (data : MetricData) (now : Instant) (rule : AlertRule) : Option PyFloat :=
  match data.get? rule.metricField with
  | none => none
  | some value =>
    if !compare value rule.operator rule.thresholdValue then none
    else if !cooldownOver now rule then none
    else some value

/- An event to be inserted, with the rule as it was loaded. -/
structure Pending where
  rule : AlertRule
  value : PyFloat
  message : String
  containerName : Option String
  deriving DecidableEq, Repr

section
variable (floatStr : PyFloat → String)

def message (container : Option String) (rule : AlertRule) (value : PyFloat) : String :=
  rule.name ++ ": " ++ (container.map (· ++ " ")).getD "" ++ rule.metricField ++ "=" ++
    floatStr value ++ " " ++ rule.operator.value ++ " " ++ floatStr rule.thresholdValue

def evaluate (container : Option String) (data : MetricData) (now : Instant)
    (rules : List AlertRule) : List Pending :=
  rules.filterMap fun rule => (fires data now rule).map fun value =>
    ⟨rule, value, message floatStr container rule value, container⟩

def evaluateSystemMetrics (data : MetricData) (now : Instant) (rules : List AlertRule) :
    List Pending := evaluate floatStr none data now rules

def evaluateDockerMetrics (containerName : String) (data : MetricData) (now : Instant)
    (rules : List AlertRule) : List Pending :=
  evaluate floatStr (some containerName) data now
    (rules.filter fun r => r.containerName = none ∨ r.containerName = some containerName)

/-- The service an ingest handler calls. -/
def Reading.evaluate (reading : Reading) (now : Instant) (rules : List AlertRule) :
    List Pending :=
  match reading with
  | .system _ _ _ _ => evaluateSystemMetrics floatStr reading.data now rules
  | .docker _ name _ _ _ => evaluateDockerMetrics floatStr name reading.data now rules

end

/- The row inserted for a pending event. -/
def Pending.event (p : Pending) (id serverId : ℕ) (createdAt : Instant) : AlertEvent :=
  { id, ruleId := p.rule.id, serverId, metricValue := p.value
    thresholdValue := p.rule.thresholdValue, message := p.message
    containerName := p.containerName, createdAt }

/- The Celery tasks of `_enqueue_notifications`. -/
inductive Task where
  | sendTelegramAlert (eventId : ℕ)
  | sendEmailAlert (eventId : ℕ)
  deriving DecidableEq, Repr

def enqueueNotifications (eventId : ℕ) (channels : List String) : List Task :=
  (if "telegram" ∈ channels then [.sendTelegramAlert eventId] else []) ++
    (if "email" ∈ channels then [.sendEmailAlert eventId] else [])

/- A rule of the concrete runs, and Python's `str` on their floats. -/
def cpuRule : AlertRule :=
  { id := 1, serverId := 1, ownerId := 1, name := "cpu", metricType := .system
    metricField := "cpu_percent", operator := .gt, thresholdValue := .fin 80
    containerName := none }

def tabledFloatStr (x : PyFloat) : String :=
  if x = .fin 80 then "80.0" else if x = .fin 90 then "90.0" else "nan"

/-! ### What an evaluation guarantees -/

theorem fires_cooldownOver {data : MetricData} {now : Instant} {rule : AlertRule}
    {value : PyFloat} (h : fires data now rule = some value) : cooldownOver now rule = true := by
  unfold fires at h
  split at h
  · cases h
  · split at h
    · cases h
    · split at h
      · cases h
      · next hc => simpa using hc

/- An evaluated rule that fired is one of those loaded, and its cooldown was over
on the loaded copy. -/
theorem mem_evaluate {floatStr : PyFloat → String} {container : Option String}
    {data : MetricData} {now : Instant} {rules : List AlertRule} {p : Pending}
    (h : p ∈ evaluate floatStr container data now rules) :
    p.rule ∈ rules ∧ cooldownOver now p.rule = true := by
  obtain ⟨rule, hrule, hp⟩ := List.mem_filterMap.mp h
  obtain ⟨value, hv, rfl⟩ := Option.map_eq_some_iff.mp hp
  exact ⟨hrule, fires_cooldownOver hv⟩

/- Each rule gives at most one event: the rules of the events are a sublist. -/
theorem evaluate_rules (floatStr : PyFloat → String) (container : Option String)
    (data : MetricData) (now : Instant) (rules : List AlertRule) :
    ((evaluate floatStr container data now rules).map Pending.rule).Sublist rules := by
  induction rules with
  | nil => exact List.Sublist.slnil
  | cons rule rules ih =>
    unfold evaluate at ih ⊢
    cases hf : fires data now rule with
    | none =>
      rw [List.filterMap_cons_none (by rw [hf]; rfl)]
      exact ih.cons rule
    | some value =>
      rw [List.filterMap_cons_some (by rw [hf]; rfl)]
      exact ih.cons_cons rule

theorem Reading.mem_evaluate {floatStr : PyFloat → String} {reading : Reading} {now : Instant}
    {rules : List AlertRule} {p : Pending} (h : p ∈ reading.evaluate floatStr now rules) :
    p.rule ∈ rules ∧ cooldownOver now p.rule = true := by
  cases reading with
  | system s cpu memory disk => exact Threshold.mem_evaluate h
  | docker s name cpu usage limit =>
    obtain ⟨hmem, hover⟩ := Threshold.mem_evaluate h
    exact ⟨(List.mem_filter.mp hmem).1, hover⟩

theorem Reading.evaluate_rules (floatStr : PyFloat → String) (reading : Reading) (now : Instant)
    (rules : List AlertRule) :
    ((reading.evaluate floatStr now rules).map Pending.rule).Sublist rules := by
  cases reading with
  | system s cpu memory disk => exact Threshold.evaluate_rules _ _ _ _ _
  | docker s name cpu usage limit =>
    exact (Threshold.evaluate_rules _ _ _ _ _).trans List.filter_sublist

theorem cooldownOver_iff {now : Instant} {rule : AlertRule} :
    cooldownOver now rule = true ↔
      ∀ t, rule.lastTriggeredAt = some t → t + seconds rule.cooldownSeconds ≤ now := by
  unfold cooldownOver
  cases h : rule.lastTriggeredAt with
  | none => simp
  | some t =>
    simp only [Bool.not_eq_true', decide_eq_false_iff_not, Option.some.injEq, forall_eq',
      not_lt, le_sub_iff_add_le']

end PulseWatch.Threshold
