import PulseWatch.Lib.PyText
import PulseWatch.Models

/-!
# The agent's Docker collector (`agent/collectors/docker_collector.py`)

With the loop of `agent/agent.py` that sends what it collects. Values of the Docker API
are JSON with whole numbers; float arithmetic is a parameter. A container's properties
and its `stats` are calls of the Docker client and may raise what the client or its HTTP
transport raises.
-/

namespace PulseWatch.Agent

inductive Json where
  | null
  | bool (b : Bool)
  | int (n : ℤ)
  | str (s : String)
  | list (l : List Json)
  | dict (d : List (String × Json))

/- `docker.errors.DockerException` with its subclasses, `requests.RequestException` with
its own, what Python raises on a value of an unexpected type, anything else. -/
inductive Exc where
  | dockerException (text : String)
  | requestException (text : String)
  | attributeError
  | typeError
  | overflowError
  | other
  deriving DecidableEq, Repr

def Exc.isDocker : Exc → Bool
  | .dockerException _ => true
  | _ => false

/- `a / b` of integers, and the two products of the CPU load; `none` is the OverflowError
of an integer that no float can hold. -/
structure FloatArith where
  div : ℤ → ℤ → Option PyFloat
  mulInt : PyFloat → ℤ → Option PyFloat
  hundred : PyFloat → PyFloat

def fits (value : Option PyFloat) : Except Exc PyFloat := value.elim (.error .overflowError) .ok

/-- Of a `docker.models.containers.Container`; `stats` is called with `stream=False`. -/
structure Container where
  shortId : String
  name : Except Exc (Option String)
  attrs : List (String × Json)
  status : Except Exc String
  stats : Except Exc Json

namespace Json

def truthy : Json → Bool
  | .null => false
  | .bool b => b
  | .int n => n ≠ 0
  | .str s => s ≠ ""
  | .list l => !l.isEmpty
  | .dict d => !d.isEmpty

def orElse (a b : Json) : Json := if a.truthy then a else b

def get (d : Json) (key : String) (default : Json) : Except Exc Json :=
  match d with
  | .dict entries => .ok ((entries.lookup key).getD default)
  | _ => .error .attributeError

/-- An operand of integer arithmetic or of a comparison. -/
def asInt : Json → Except Exc ℤ
  | .int n => .ok n
  | .bool b => .ok (if b then 1 else 0)
  | _ => .error .typeError

def len : Json → Except Exc ℤ
  | .str s => .ok s.length
  | .list l => .ok l.length
  | .dict d => .ok d.length
  | _ => .error .typeError

end Json

section
variable (fl : FloatArith)

def bytesInMb : ℤ := 1024 * 1024

def calculateCpuPercent (stats : Json) : Except Exc PyFloat := do
  let cpuStats ← stats.get "cpu_stats" (.dict [])
  let precpuStats ← stats.get "precpu_stats" (.dict [])
  let cpuUsage ← cpuStats.get "cpu_usage" (.dict [])
  let precpuUsage ← precpuStats.get "cpu_usage" (.dict [])
  let cpuTotal ← cpuUsage.get "total_usage" (.int 0)
  let precpuTotal ← precpuUsage.get "total_usage" (.int 0)
  let cpuDelta := (← cpuTotal.asInt) - (← precpuTotal.asInt)
  let systemCpu ← cpuStats.get "system_cpu_usage" (.int 0)
  let presystemCpu ← precpuStats.get "system_cpu_usage" (.int 0)
  let systemDelta := (← systemCpu.asInt) - (← presystemCpu.asInt)
  let online ← cpuStats.get "online_cpus" .null
  let onlineCpus ←
    if online.truthy then pure online
    else do
      let percpu ← cpuUsage.get "percpu_usage" .null
      let count ← (percpu.orElse (.list [])).len
      pure ((Json.int count).orElse (.int 1))
  if systemDelta ≤ 0 ∨ cpuDelta < 0 then pure (.fin 0)
  else do
    let share ← fits (fl.div cpuDelta systemDelta)
    let load ← fits (fl.mulInt share (← onlineCpus.asInt))
    pure (fl.hundred load)

def containerImage (container : Container) : Except Exc String := do
  let attrs := Json.dict container.attrs
  let config := (← attrs.get "Config" (.dict [])).orElse (.dict [])
  let image := ((← config.get "Image" .null).orElse (← attrs.get "Image" .null)).orElse (.str "")
  match image with
  | .str s =>
    pure (if PyText.startsWith s "sha256:" then String.ofList (s.toList.drop 7) else s)
  | _ => throw .attributeError

def containerMemoryLimitMb (container : Container) : Except Exc (Option PyFloat) := do
  let hostConfig := (← (Json.dict container.attrs).get "HostConfig" (.dict [])).orElse (.dict [])
  let memLimitBytes ← ((← hostConfig.get "Memory" .null).orElse (.int 0)).asInt
  if memLimitBytes ≤ 0 then pure none
  else do
    let limit ← fits (fl.div memLimitBytes bytesInMb)
    pure (some limit)

def collectOne (container : Container) : Except Exc DockerMetricCreate := do
  let containerId := container.shortId
  let containerName := (← container.name).getD ""
  let image ← containerImage container
  let status ← container.status
  if status ≠ "running" then do
    let memoryLimitMb ← containerMemoryLimitMb fl container
    pure { containerId, containerName, image, status
           cpuPercent := .fin 0, memoryUsageMb := .fin 0, memoryLimitMb }
  else do
    let stats ← container.stats
    let cpuPercent ← calculateCpuPercent fl stats
    let memoryStats := (← stats.get "memory_stats" (.dict [])).orElse (.dict [])
    let memoryUsageBytes ← ((← memoryStats.get "usage" (.int 0)).orElse (.int 0)).asInt
    let memoryUsageMb ← fits (fl.div memoryUsageBytes bytesInMb)
    let memoryLimitMb ← containerMemoryLimitMb fl container
    pure { containerId, containerName, image, status, cpuPercent, memoryUsageMb, memoryLimitMb }

/- `client.containers.list(all=True)` and `client.close()`. -/
structure Client where
  containers : Except Exc (List Container)
  close : Except Exc Unit

/- The `for` loop over the containers. -/
def collectAll : List Container → List DockerMetricCreate → Except Exc (List DockerMetricCreate)
  | [], metrics => .ok metrics
  | container :: rest, metrics =>
    match collectOne fl container with
    | .ok metric => collectAll rest (metrics ++ [metric])
    | .error e => if e.isDocker then collectAll rest metrics else .error e

def collectDockerMetrics (fromEnv : Except Exc Client) : Except Exc (List DockerMetricCreate) :=
  match fromEnv with
  | .error e => if e.isDocker then .ok [] else .error e
  | .ok client =>
    match client.containers with
    | .error e => if e.isDocker then client.close.map fun _ => [] else .error e
    | .ok containers => do
      let metrics ← collectAll fl containers []
      client.close
      pure metrics

/- The turns of `_metrics_loop` until it is stopped: what is sent of the containers, and
the exception that ends the task. The system metrics come first in each turn; a POST that
fails is logged by `MetricsSender`. -/
def metricsLoop : List (Except Exc Client) → List (List DockerMetricCreate) × Option Exc
  | [] => ([], none)
  | fromEnv :: rest =>
    match collectDockerMetrics fl fromEnv with
    | .ok payload => (payload :: (metricsLoop rest).1, (metricsLoop rest).2)
    | .error e => ([], some e)

end

/-! ### One container beside the others -/

section
variable (fl : FloatArith)

def listing (containers : List Container) : Except Exc Client := .ok ⟨.ok containers, .ok ()⟩

/- The records of the containers that could be collected. -/
def succeeded (containers : List Container) : List DockerMetricCreate :=
  containers.filterMap fun container => (collectOne fl container).toOption

/- No container fails with anything but a `DockerException`. -/
def Isolated (containers : List Container) : Prop :=
  ∀ container ∈ containers, ∀ e, collectOne fl container = .error e → e.isDocker = true

theorem collectAll_isolated {containers : List Container} (h : Isolated fl containers)
    (metrics : List DockerMetricCreate) :
    collectAll fl containers metrics = .ok (metrics ++ succeeded fl containers) := by
  induction containers generalizing metrics with
  | nil => rw [succeeded, List.filterMap_nil, List.append_nil, collectAll]
  | cons container rest ih =>
    have hrest := ih fun c hc => h c (List.mem_cons_of_mem _ hc)
    rw [collectAll, succeeded, List.filterMap_cons]
    cases hone : collectOne fl container with
    | ok metric =>
      dsimp only [Except.toOption]
      rw [hrest, List.append_assoc]
      rfl
    | error e =>
      dsimp only [Except.toOption]
      rw [if_pos (h container List.mem_cons_self e hone), hrest]
      rfl

theorem collectAll_escapes {containers : List Container} (h : ¬ Isolated fl containers)
    (metrics : List DockerMetricCreate) : ∃ e, collectAll fl containers metrics = .error e := by
  induction containers generalizing metrics with
  | nil => exact absurd (fun c hc => absurd hc List.not_mem_nil) h
  | cons container rest ih =>
    rw [collectAll]
    cases hone : collectOne fl container with
    | ok metric =>
      refine ih (fun hrest => h fun c hc e he => ?_) _
      rcases List.mem_cons.mp hc with rfl | hc
      · rw [hone] at he
        cases he
      · exact hrest c hc e he
    | error e =>
      by_cases hdocker : e.isDocker = true
      · dsimp only
        rw [if_pos hdocker]
        refine ih (fun hrest => h fun c hc e' he => ?_) _
        rcases List.mem_cons.mp hc with rfl | hc
        · obtain rfl := Except.error.inj (hone.symm.trans he)
          exact hdocker
        · exact hrest c hc e' he
      · dsimp only
        rw [if_neg hdocker]
        exact ⟨e, rfl⟩

theorem collect_isolated {containers : List Container} (h : Isolated fl containers) :
    collectDockerMetrics fl (listing containers) = .ok (succeeded fl containers) := by
  show (collectAll fl containers [] >>= fun metrics => _) = _
  rw [collectAll_isolated fl h, List.nil_append]
  rfl

theorem collect_escapes {containers : List Container} (h : ¬ Isolated fl containers) :
    ∃ e, collectDockerMetrics fl (listing containers) = .error e := by
  obtain ⟨e, he⟩ := collectAll_escapes fl h []
  refine ⟨e, ?_⟩
  show (collectAll fl containers [] >>= fun metrics => _) = _
  rw [he]
  rfl

/- A turn of the loop sends the records, or ends it. -/
theorem metricsLoop_isolated_iff (rounds : List (List Container)) :
    metricsLoop fl (rounds.map listing) = (rounds.map (succeeded fl), none) ↔
      ∀ containers ∈ rounds, Isolated fl containers := by
  induction rounds with
  | nil => exact iff_of_true rfl (fun _ h => absurd h List.not_mem_nil)
  | cons containers rest ih =>
    rw [List.map_cons, List.map_cons, List.forall_mem_cons, metricsLoop]
    by_cases h : Isolated fl containers
    · rw [collect_isolated fl h, ← ih]
      dsimp only
      rw [Prod.ext_iff, Prod.ext_iff, List.cons.injEq]
      exact ⟨fun hh => ⟨h, hh.1.2, hh.2⟩, fun hh => ⟨⟨rfl, hh.2.1⟩, hh.2.2⟩⟩
    · obtain ⟨e, he⟩ := collect_escapes fl h
      rw [he]
      exact iff_of_false (fun hh => by cases hh) (fun hh => h hh.1)

/- The records are those of the containers that could be collected, and no container ends
the loop, exactly if each that fails does so with a `DockerException`. -/
theorem collect_isolated_iff (containers : List Container) (rounds : List (List Container)) :
    (collectDockerMetrics fl (listing containers) = .ok (succeeded fl containers) ↔
      Isolated fl containers) ∧
    (metricsLoop fl (rounds.map listing) = (rounds.map (succeeded fl), none) ↔
      ∀ containers ∈ rounds, Isolated fl containers) := by
  refine ⟨⟨fun h => ?_, collect_isolated fl⟩, metricsLoop_isolated_iff fl rounds⟩
  by_contra hnot
  obtain ⟨e, he⟩ := collect_escapes fl hnot
  rw [he] at h
  cases h

end

/- A stopped container, and a running one whose `stats` is not answered in time. -/
def exited : Container where
  shortId := "0123456789ab"
  name := .ok (some "db")
  attrs := [("Config", .dict [("Image", .str "postgres:16")])]
  status := .ok "exited"
  stats := .error (.dockerException "409 Client Error")

def unresponsive : Container where
  shortId := "ba9876543210"
  name := .ok (some "web")
  attrs := [("Config", .dict [("Image", .str "nginx")])]
  status := .ok "running"
  stats := .error (.requestException "Read timed out. (read timeout=60)")

theorem timeout_ends_loop :
    (∀ fl, (collectOne fl exited).toOption.isSome = true) ∧
    (∀ fl, collectDockerMetrics fl (listing [exited, unresponsive]) =
      .error (.requestException "Read timed out. (read timeout=60)")) ∧
    ∀ fl, metricsLoop fl [listing [exited, unresponsive], listing [exited]] =
      ([], some (.requestException "Read timed out. (read timeout=60)")) :=
  ⟨fun _ => rfl, fun _ => rfl, fun _ => rfl⟩

end PulseWatch.Agent
