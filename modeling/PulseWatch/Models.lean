import PulseWatch.Lib.PgText
import PulseWatch.Lib.PyFloat

/-!
# Rows of the PulseWatch database (`app/models/*.py`)

One structure for each table, with the columns some modelled handler reads or
writes. Instants of PostgreSQL timestamps are microseconds since the epoch.
Sample values are generic in the number type `α`: thresholds compare Python
floats, aggregation computes over an ordered field.
-/

namespace PulseWatch

/-- `TIMESTAMP WITH TIME ZONE`, in microseconds. -/
abbrev Instant := ℤ

def seconds (n : ℤ) : Instant := n * 1000000
def minutes (n : ℤ) : Instant := seconds (n * 60)

structure User where
  id : ℕ
  email : String
  passwordHash : String
  telegramChatId : Option String := none
  emailAlertsEnabled : Bool := true
  totpSecret : Option String := none
  totpEnabled : Bool := false
  deriving DecidableEq, Repr

structure Server where
  id : ℕ
  name : String
  apiKeyHash : String
  ownerId : ℕ
  lastSeenAt : Option Instant := none
  isActive : Bool := true
  agentVersion : Option String := none
  paused : Bool := false
  deriving DecidableEq, Repr

structure Metric (α : Type) where
  id : ℕ
  serverId : ℕ
  cpuPercent : α
  memoryPercent : α
  diskPercent : α
  collectedAt : Instant
  deriving DecidableEq, Repr

/- app/models/docker_metric.py -/
structure DockerMetric (α : Type) where
  id : ℕ
  serverId : ℕ
  containerId : String
  containerName : String
  image : String
  status : String
  cpuPercent : α
  memoryUsageMb : α
  memoryLimitMb : Option α
  collectedAt : Instant
  deriving DecidableEq, Repr

/- app/models/metric_aggregate.py: the columns aggregated over the samples, and the
row. -/
inductive PeriodType where
  | fivemin
  | hourly
  | daily
  deriving DecidableEq, Repr

structure MetricStats (α : Type) where
  avgCpu : α
  minCpu : α
  maxCpu : α
  avgMemory : α
  minMemory : α
  maxMemory : α
  avgDisk : α
  minDisk : α
  maxDisk : α
  sampleCount : ℕ
  deriving DecidableEq, Repr

structure MetricAggregate (α : Type) extends MetricStats α where
  serverId : ℕ
  periodType : PeriodType
  periodStart : Instant
  periodEnd : Instant
  deriving DecidableEq, Repr

/- app/models/docker_aggregate.py -/
structure DockerStats (α : Type) where
  avgCpu : α
  minCpu : α
  maxCpu : α
  avgMemoryUsage : α
  maxMemoryUsage : α
  sampleCount : ℕ
  deriving DecidableEq, Repr

structure DockerAggregate (α : Type) extends DockerStats α where
  serverId : ℕ
  containerName : PgText.VarChar 255
  periodType : PeriodType
  periodStart : Instant
  periodEnd : Instant
  totalRxBytes : ℕ := 0
  totalTxBytes : ℕ := 0
  deriving DecidableEq, Repr

/- Request bodies: app/schemas/metric.py, app/schemas/docker_metric.py -/
structure MetricCreate where
  cpuPercent : PyFloat
  memoryPercent : PyFloat
  diskPercent : PyFloat
  agentVersion : Option String := none
  deriving DecidableEq, Repr

structure DockerMetricCreate where
  containerId : String
  containerName : String
  image : String
  status : String
  cpuPercent : PyFloat
  memoryUsageMb : PyFloat
  memoryLimitMb : Option PyFloat := none
  deriving DecidableEq, Repr

inductive MetricType where
  | system
  | docker
  deriving DecidableEq, Repr

inductive ThresholdOperator where
  | gt
  | gte
  | lt
  | lte
  | eq
  | neq
  deriving DecidableEq, Repr

/-- `ThresholdOperator.value`. -/
def ThresholdOperator.value : ThresholdOperator → String
  | .gt => "gt"
  | .gte => "gte"
  | .lt => "lt"
  | .lte => "lte"
  | .eq => "eq"
  | .neq => "neq"

/- app/models/alert_rule.py -/
structure AlertRule where
  id : ℕ
  serverId : ℕ
  ownerId : ℕ
  name : String
  metricType : MetricType
  metricField : String
  operator : ThresholdOperator
  thresholdValue : PyFloat
  containerName : Option String
  cooldownSeconds : ℤ := 300
  isActive : Bool := true
  notificationChannels : List String := ["telegram", "email"]
  lastTriggeredAt : Option Instant := none
  deriving DecidableEq, Repr

structure AlertEvent where
  id : ℕ
  ruleId : ℕ
  serverId : ℕ
  metricValue : PyFloat
  thresholdValue : PyFloat
  message : String
  containerName : Option String
  createdAt : Instant
  resolvedAt : Option Instant := none
  deriving DecidableEq, Repr

end PulseWatch
