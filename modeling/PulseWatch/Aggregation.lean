import PulseWatch.Lib.KeyedTable
import PulseWatch.Lib.PgSession
import PulseWatch.Models

/-!
# Aggregation (`app/services/aggregation.py`)

`aggregate_system_metrics`, `aggregate_docker_metrics` and
`aggregate_all_servers` as actions on one session. The transaction changes only
the two aggregate tables, so a session holds these; the servers and the raw
samples are read. Row ids and the `created_at` / `updated_at` stamps are left out.
-/

namespace PulseWatch.Aggregation

open PgSession PgText

inductive Statement where
  | systemSelect (serverId : ℕ)
  | systemUpsert (serverId : ℕ)
  | systemCommit (serverId : ℕ)
  | systemReselect (serverId : ℕ)
  | containers (serverId : ℕ)
  | dockerSelect (serverId : ℕ) (containerName : String)
  | dockerUpsert (serverId : ℕ) (containerName : String)
  | dockerReselect (serverId : ℕ) (containerName : String)
  | dockerCommit (serverId : ℕ)
  deriving DecidableEq, Repr

/- What PostgreSQL decides: its float aggregates, the order DISTINCT returns, and
the statements that fail for a reason outside the tables (a float overflow in an
aggregate, a lost lock, a driver exception). -/
structure Engine (α : Type) where
  avg : List α → α
  least : List α → α
  greatest : List α → α
  distinct : List String → List String
  mem_distinct : ∀ name names, name ∈ distinct names ↔ name ∈ names
  nodup_distinct : ∀ names, (distinct names).Nodup
  faults : Statement → Option Fault

structure Raw (α : Type) where
  servers : List Server
  metrics : List (Metric α)
  dockerMetrics : List (DockerMetric α)

structure Period where
  periodType : PeriodType
  periodStart : Instant
  periodEnd : Instant
  deriving DecidableEq, Repr

structure Tables (α : Type) where
  metricAggregates : List (MetricAggregate α)
  dockerAggregates : List (DockerAggregate α)
  deriving DecidableEq, Repr

section
variable {α : Type}

/- uq_metric_agg_server_period and uq_docker_agg_container_period. -/
def metricKey (r : MetricAggregate α) : ℕ × PeriodType × Instant :=
  (r.serverId, r.periodType, r.periodStart)

def dockerKey (r : DockerAggregate α) : ℕ × String × PeriodType × Instant :=
  (r.serverId, r.containerName.val, r.periodType, r.periodStart)

/- The SET lists of the upserts; `period_end` keeps its first value. -/
def metricMerge (old new : MetricAggregate α) : MetricAggregate α :=
  { old with toMetricStats := new.toMetricStats }

def dockerMerge (old new : DockerAggregate α) : DockerAggregate α :=
  { old with
    toDockerStats := new.toDockerStats
    totalRxBytes := new.totalRxBytes
    totalTxBytes := new.totalTxBytes }

def Tables.storeMetric (t : Tables α) (row : MetricAggregate α) : Tables α :=
  { t with metricAggregates := KeyedTable.upsert metricKey metricMerge row t.metricAggregates }

def Tables.storeDocker (t : Tables α) (row : DockerAggregate α) : Tables α :=
  { t with dockerAggregates := KeyedTable.upsert dockerKey dockerMerge row t.dockerAggregates }

/-- The rows of one server. -/
def Tables.ofServer (serverId : ℕ) (t : Tables α) : Tables α :=
  ⟨t.metricAggregates.filter fun r => r.serverId = serverId,
    t.dockerAggregates.filter fun r => r.serverId = serverId⟩

def Period.covers (p : Period) (t : Instant) : Prop := p.periodStart ≤ t ∧ t < p.periodEnd

instance (p : Period) (t : Instant) : Decidable (p.covers t) :=
  inferInstanceAs (Decidable (_ ∧ _))

variable (e : Engine α) (raw : Raw α) (p : Period)

def systemSamples (serverId : ℕ) : List (Metric α) :=
  raw.metrics.filter fun m => m.serverId = serverId ∧ p.covers m.collectedAt

def dockerSamples (serverId : ℕ) : List (DockerMetric α) :=
  raw.dockerMetrics.filter fun m => m.serverId = serverId ∧ p.covers m.collectedAt

def containerSamples (serverId : ℕ) (containerName : String) : List (DockerMetric α) :=
  (dockerSamples raw p serverId).filter fun m => m.containerName = containerName

def containerNames (serverId : ℕ) : List String :=
  e.distinct ((dockerSamples raw p serverId).map DockerMetric.containerName)

def systemStats (samples : List (Metric α)) : MetricStats α where
  avgCpu := e.avg (samples.map Metric.cpuPercent)
  minCpu := e.least (samples.map Metric.cpuPercent)
  maxCpu := e.greatest (samples.map Metric.cpuPercent)
  avgMemory := e.avg (samples.map Metric.memoryPercent)
  minMemory := e.least (samples.map Metric.memoryPercent)
  maxMemory := e.greatest (samples.map Metric.memoryPercent)
  avgDisk := e.avg (samples.map Metric.diskPercent)
  minDisk := e.least (samples.map Metric.diskPercent)
  maxDisk := e.greatest (samples.map Metric.diskPercent)
  sampleCount := samples.length

def dockerStats (samples : List (DockerMetric α)) : DockerStats α where
  avgCpu := e.avg (samples.map DockerMetric.cpuPercent)
  minCpu := e.least (samples.map DockerMetric.cpuPercent)
  maxCpu := e.greatest (samples.map DockerMetric.cpuPercent)
  avgMemoryUsage := e.avg (samples.map DockerMetric.memoryUsageMb)
  maxMemoryUsage := e.greatest (samples.map DockerMetric.memoryUsageMb)
  sampleCount := samples.length

/- The VALUES of the upserts. -/
def metricRow (serverId : ℕ) (stats : MetricStats α) : MetricAggregate α :=
  { toMetricStats := stats, serverId, periodType := p.periodType
    periodStart := p.periodStart, periodEnd := p.periodEnd }

def dockerRow (serverId : ℕ) (containerName : VarChar 255) (stats : DockerStats α) :
    DockerAggregate α :=
  { toDockerStats := stats, serverId, containerName, periodType := p.periodType
    periodStart := p.periodStart, periodEnd := p.periodEnd, totalRxBytes := 0, totalTxBytes := 0 }

def Tables.findMetric (t : Tables α) (serverId : ℕ) : Option (MetricAggregate α) :=
  KeyedTable.get? metricKey (serverId, p.periodType, p.periodStart) t.metricAggregates

def Tables.findDocker (t : Tables α) (serverId : ℕ) (containerName : String) :
    Option (DockerAggregate α) :=
  KeyedTable.get? dockerKey (serverId, containerName, p.periodType, p.periodStart)
    t.dockerAggregates

/-- `scalar_one()`: no row is an exception of the client. -/
def scalarOne {A : Type} : Option A → Act (Tables α) A
  | some row => pure row
  | none => raise .client

def aggregateSystemMetrics (serverId : ℕ) : Act (Tables α) (Option (MetricAggregate α)) := do
  let row ← select (e.faults (.systemSelect serverId)) fun _ =>
    systemStats e (systemSamples raw p serverId)
  if row.sampleCount = 0 then pure none
  else do
    write (e.faults (.systemUpsert serverId)) fun t => t.storeMetric (metricRow p serverId row)
    commit (e.faults (.systemCommit serverId))
    let found ← select (e.faults (.systemReselect serverId)) fun t => t.findMetric p serverId
    let agg ← scalarOne found
    pure (some agg)

/- The INSERT for one container; a name that does not fit its column fails. -/
def upsertContainer (serverId : ℕ) (containerName : String) (stats : DockerStats α) :
    Act (Tables α) Unit :=
  match VarChar.store 255 containerName with
  | none => write (e.faults (.dockerUpsert serverId containerName) <|> some .statement) id
  | some stored => write (e.faults (.dockerUpsert serverId containerName)) fun t =>
      t.storeDocker (dockerRow p serverId stored stats)

/- The body of the loop over the containers; `none` is its `continue`. -/
def aggregateContainer (serverId : ℕ) (containerName : String) :
    Act (Tables α) (Option (DockerAggregate α)) := do
  let row ← select (e.faults (.dockerSelect serverId containerName)) fun _ =>
    dockerStats e (containerSamples raw p serverId containerName)
  if row.sampleCount = 0 then pure none
  else do
    upsertContainer e p serverId containerName row
    let found ← select (e.faults (.dockerReselect serverId containerName)) fun t =>
      t.findDocker p serverId containerName
    let agg ← scalarOne found
    pure (some agg)

def aggregateContainers (serverId : ℕ) : List String → Act (Tables α) (List (DockerAggregate α))
  | [] => pure []
  | containerName :: names => do
    let agg? ← aggregateContainer e raw p serverId containerName
    let aggregates ← aggregateContainers serverId names
    pure (agg?.toList ++ aggregates)

def aggregateDockerMetrics (serverId : ℕ) : Act (Tables α) (List (DockerAggregate α)) := do
  let names ← select (e.faults (.containers serverId)) fun _ => containerNames e raw p serverId
  if names = [] then pure []
  else do
    let aggregates ← aggregateContainers e raw p serverId names
    commit (e.faults (.dockerCommit serverId))
    pure aggregates

/- The body of the `try` for one server. -/
def aggregateServer (serverId : ℕ) : Act (Tables α) Unit := do
  let _ ← aggregateSystemMetrics e raw p serverId
  let _ ← aggregateDockerMetrics e raw p serverId
  pure ()

def aggregateAllServers : Act (Tables α) Unit := do
  let serverIds ← select none fun _ => raw.servers.map Server.id
  batch (aggregateServer e raw p) serverIds

end
end PulseWatch.Aggregation
