import Mathlib.Logic.Function.Basic
import PulseWatch.Lib.PgText
import PulseWatch.Lib.Runs
import PulseWatch.Auth

/-!
# Servers, ingest and the heartbeat

Registration, API-key authentication, the two ingest handlers, pause and resume,
key rotation and `_run_heartbeat_check`, over one table of servers. A request is
two steps, the load of the server row and the commit; registration and a
heartbeat run are one (the two UPDATEs of a heartbeat touch different rows and
hold their locks until the commit).

After its commit an ingest handler evaluates the alert rules and publishes the
sample, swallowing every error; neither touches this state.
-/

namespace PulseWatch.Fleet

/- An API key `<server_id>.<secret>` taken apart. -/
structure ApiKey where
  serverId : ℕ
  secret : String
  deriving DecidableEq, Repr

inductive Submission where
  | metric (data : MetricCreate)
  | docker (data : List DockerMetricCreate)
  deriving DecidableEq, Repr

/- What the owner's requests change on a loaded server. -/
inductive Edit where
  | paused (value : Bool)
  | apiKey (secret salt : String)
  deriving DecidableEq, Repr

inductive Response where
  | created
  | paused
  | ok
  | unauthorized
  | notFound
  | conflict
  | serverError
  deriving DecidableEq, Repr

inductive Request where
  | idle
  | verified (server : Server) (startedAt : Instant) (body : Submission)
  | editing (server : Server) (edit : Edit)
  | answered (response : Response)
  deriving DecidableEq, Repr

inductive HeartbeatTask where
  | sendHeartbeatDown (serverId : ℕ)
  | sendHeartbeatRecovery (serverId : ℕ)
  deriving DecidableEq, Repr

/- The tables with their id sequences, the requests in flight and the Celery
queue. `secrets` holds the secret each server's owner was shown last; no handler
reads it. -/
structure Sys where
  now : Instant
  servers : List Server
  metrics : List (Metric PyFloat)
  dockerMetrics : List (DockerMetric PyFloat)
  nextServer : ℕ
  nextMetric : ℕ
  nextDockerMetric : ℕ
  requests : ℕ → Request
  tasks : List HeartbeatTask
  secrets : ℕ → Option String

def init (now : Instant) : Sys := ⟨now, [], [], [], 1, 1, 1, fun _ => .idle, [], fun _ => none⟩

inductive Label where
  | tick (microseconds : ℕ)
  | register (i ownerId : ℕ) (name secret salt : String)
  | verify (i : ℕ) (key : ApiKey) (body : Submission)
  | store (i : ℕ)
  | load (i ownerId serverId : ℕ) (edit : Edit)
  | save (i : ℕ)
  | heartbeat (startedAt : Instant)
  deriving DecidableEq, Repr

def Sys.goto (s : Sys) (i : ℕ) (r : Request) : Sys :=
  { s with requests := Function.update s.requests i r }

def Sys.answer (s : Sys) (i : ℕ) (r : Response) : Sys := s.goto i (.answered r)

/-- `UPDATE servers SET ... WHERE id = ...`. -/
def updateServer (id : ℕ) (f : Server → Server) (servers : List Server) : List Server :=
  servers.map fun r => if r.id = id then f r else r

section
variable (cr : Crypto)

/- `verify_api_key` on a key that parses. -/
def verifyApiKey (key : ApiKey) (servers : List Server) : Except Response Server :=
  match servers.find? fun r => r.id = key.serverId with
  | none => .error .unauthorized
  | some server =>
    if !server.isActive then .error .unauthorized
    else match cr.checkpw key.secret server.apiKeyHash with
      | none => .error .serverError
      | some false => .error .unauthorized
      | some true => .ok server

/- `agent_version` is assigned when it is given and differs from the loaded one;
the column is VARCHAR(64). -/
def newAgentVersion (server : Server) (data : MetricCreate) : Option (Option String) :=
  match data.agentVersion with
  | none => some none
  | some v =>
    if v ≠ "" ∧ some v ≠ server.agentVersion then (PgText.varchar 64 v).map some else some none

/- The commit of `submit_metric`: INSERT metrics, UPDATE servers. `now()` is the
start of the transaction, which is that of the load. -/
def storeMetric (s : Sys) (server : Server) (startedAt : Instant) (data : MetricCreate) :
    Option Sys :=
  (newAgentVersion server data).map fun version? => { s with
    metrics := ⟨s.nextMetric, server.id, data.cpuPercent, data.memoryPercent, data.diskPercent,
      startedAt⟩ :: s.metrics
    nextMetric := s.nextMetric + 1
    servers := updateServer server.id (fun r => { r with
      lastSeenAt := some startedAt
      agentVersion := version?.or r.agentVersion }) s.servers }

def dockerRow (serverId : ℕ) (startedAt : Instant) (id : ℕ) (item : DockerMetricCreate) :
    DockerMetric PyFloat :=
  { id, serverId, containerId := item.containerId, containerName := item.containerName
    image := item.image, status := item.status, cpuPercent := item.cpuPercent
    memoryUsageMb := item.memoryUsageMb, memoryLimitMb := item.memoryLimitMb
    collectedAt := startedAt }

def dockerRows (serverId : ℕ) (startedAt : Instant) : ℕ → List DockerMetricCreate →
    List (DockerMetric PyFloat)
  | _, [] => []
  | id, item :: items =>
    dockerRow serverId startedAt id item :: dockerRows serverId startedAt (id + 1) items

/-- The text columns take any string PostgreSQL can hold. -/
def DockerMetricCreate.storable (item : DockerMetricCreate) : Bool :=
  [item.containerId, item.containerName, item.image, item.status].all fun t =>
    (PgText.text t).isSome

/- The commit of `submit_docker_metrics`. -/
def storeDocker (s : Sys) (server : Server) (startedAt : Instant)
    (data : List DockerMetricCreate) : Option Sys :=
  if data.all DockerMetricCreate.storable then some { s with
    dockerMetrics := dockerRows server.id startedAt s.nextDockerMetric data ++ s.dockerMetrics
    nextDockerMetric := s.nextDockerMetric + data.length
    servers := updateServer server.id (fun r => { r with lastSeenAt := some startedAt })
      s.servers }
  else none

def storeSubmission (s : Sys) (server : Server) (startedAt : Instant) : Submission → Option Sys
  | .metric data => storeMetric s server startedAt data
  | .docker data => storeDocker s server startedAt data

/- The whole handler with nothing in between. -/
def submit (s : Sys) (key : ApiKey) (body : Submission) : Response × Sys :=
  match verifyApiKey cr key s.servers with
  | .error r => (r, s)
  | .ok server =>
    if server.paused then (.paused, s)
    else match storeSubmission s server s.now body with
      | some s' => (.created, s')
      | none => (.serverError, s)

/-- WHERE of the first UPDATE of `_run_heartbeat_check`; a NULL matches nothing. -/
def overdue (threshold : Instant) (r : Server) : Bool :=
  match r.lastSeenAt with
  | some t => decide (t < threshold) && r.isActive && !r.paused
  | none => false

/-- WHERE of the second. -/
def recovered (threshold : Instant) (r : Server) : Bool :=
  match r.lastSeenAt with
  | some t => decide (threshold ≤ t) && !r.isActive && !r.paused
  | none => false

def deactivate (threshold : Instant) (r : Server) : Server :=
  if overdue threshold r then { r with isActive := false } else r

def reactivate (threshold : Instant) (r : Server) : Server :=
  if recovered threshold r then { r with isActive := true } else r

/- `_run_heartbeat_check` with its threshold. -/
def runHeartbeatCheck (threshold : Instant) (s : Sys) : Sys :=
  let down := s.servers.filter (overdue threshold)
  let servers := s.servers.map (deactivate threshold)
  let up := servers.filter (recovered threshold)
  { s with
    servers := servers.map (reactivate threshold)
    tasks := s.tasks ++ down.map (fun r => .sendHeartbeatDown r.id) ++
      up.map (fun r => .sendHeartbeatRecovery r.id) }

def heartbeatThreshold (startedAt : Instant) : Instant := startedAt - minutes 5

/- Registration refuses a second server of the owner with this name; an edit is
committed as the one column it changes. -/
def step (s : Sys) : Label → Option Sys
  | .tick microseconds => some { s with now := s.now + (microseconds : ℤ) }
  | .register i ownerId name secret salt =>
    match s.requests i with
    | .idle =>
      match cr.hashpw secret salt, PgText.text name with
      | some hash, some name =>
        if s.servers.any fun r => r.ownerId = ownerId ∧ r.name = name then
          some (s.answer i .conflict)
        else some { s.answer i .created with
          servers := { id := s.nextServer, name, apiKeyHash := hash, ownerId } :: s.servers
          nextServer := s.nextServer + 1
          secrets := Function.update s.secrets s.nextServer (some secret) }
      | _, _ => some (s.answer i .serverError)
    | _ => none
  | .verify i key body =>
    match s.requests i with
    | .idle =>
      match verifyApiKey cr key s.servers with
      | .error r => some (s.answer i r)
      | .ok server =>
        some (if server.paused then s.answer i .paused else s.goto i (.verified server s.now body))
    | _ => none
  | .store i =>
    match s.requests i with
    | .verified server startedAt body =>
      match storeSubmission s server startedAt body with
      | some s' => some (s'.answer i .created)
      | none => some (s.answer i .serverError)
    | _ => none
  | .load i ownerId serverId edit =>
    match s.requests i with
    | .idle =>
      match s.servers.find? fun r => r.id = serverId ∧ r.ownerId = ownerId with
      | none => some (s.answer i .notFound)
      | some server => some (s.goto i (.editing server edit))
    | _ => none
  | .save i =>
    match s.requests i with
    | .editing server (.paused value) =>
      if server.paused = value then some (s.answer i .ok)
      else some { s.answer i .ok with
        servers := updateServer server.id (fun r => { r with paused := value }) s.servers }
    | .editing server (.apiKey secret salt) =>
      match cr.hashpw secret salt with
      | some hash => some { s.answer i .ok with
          servers := updateServer server.id (fun r => { r with apiKeyHash := hash }) s.servers
          secrets := Function.update s.secrets server.id (some secret) }
      | none => some (s.answer i .serverError)
    | _ => none
  | .heartbeat startedAt =>
    if startedAt ≤ s.now then some (runHeartbeatCheck (heartbeatThreshold startedAt) s) else none

end
end PulseWatch.Fleet
