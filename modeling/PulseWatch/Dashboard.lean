import PulseWatch.Lib.GroupBy
import PulseWatch.Models

/-!
# The dashboard (`app/api/servers.py`)

The list `dashboard` builds when its cache has none: two set-based queries for all
servers of the user, joined in dictionaries. What the queries leave open, the order of
rows and the choice among metrics of one instant, is up to the database.
-/

namespace PulseWatch.Dashboard
open GroupBy

structure LatestMetric (α : Type) where
  cpuPercent : α
  memoryPercent : α
  diskPercent : α
  collectedAt : String
  deriving DecidableEq, Repr

structure ServerInfo (α : Type) where
  id : ℕ
  name : String
  isActive : Bool
  lastSeenAt : Option String
  agentVersion : Option String
  openAlertsCount : ℕ
  latestMetric : Option (LatestMetric α)
  deriving DecidableEq, Repr

/-- `ORDER BY collected_at DESC`. -/
def newestFirst {α : Type} (m : Metric α) : ℤᵒᵈ := OrderDual.toDual m.collectedAt

/- The choices of the database: the order of the servers, the numbering of the metrics of
each server, the order of the groups of events. -/
structure Database (α : Type) where
  scan : List Server → List Server
  scan_perm : ∀ rows, (scan rows).Perm rows
  numbering : Numbering (@Metric.serverId α) newestFirst
  grouping : Grouping AlertEvent.serverId List.length

instance {α : Type} : Inhabited (Database α) where
  default :=
    { scan := id
      scan_perm := fun _ => List.Perm.rfl
      numbering := mergeNumbering _ _
      grouping := dedupGrouping _ _ }

section
variable {α : Type} (isoformat : Instant → String) (db : Database α)

def latestMetric (m : Metric α) : LatestMetric α :=
  ⟨m.cpuPercent, m.memoryPercent, m.diskPercent, isoformat m.collectedAt⟩

/- The list `dashboard_data`. -/
def dashboardData (userId : ℕ) (servers : List Server) (metrics : List (Metric α))
    (events : List AlertEvent) : List (ServerInfo α) :=
  let servers := db.scan (servers.filter fun r => r.ownerId = userId)
  let serverIds := servers.map Server.id
  let latestMetrics : ℕ → Option (LatestMetric α) :=
    if serverIds = [] then fun _ => none
    else toDict ((firsts (db.numbering.number (metrics.filter fun m => m.serverId ∈ serverIds))).map
      fun m => (m.serverId, latestMetric isoformat m))
  let openAlerts : ℕ → Option ℕ :=
    if serverIds = [] then fun _ => none
    else toDict (db.grouping.group
      (events.filter fun e => e.serverId ∈ serverIds && e.resolvedAt.isNone))
  servers.map fun server =>
    { id := server.id
      name := server.name
      isActive := server.isActive
      lastSeenAt := server.lastSeenAt.map isoformat
      agentVersion := server.agentVersion
      openAlertsCount := (openAlerts server.id).getD 0
      latestMetric := latestMetrics server.id }

/-! ### One server at a time -/

/- The row of a server as it would be computed for this server alone. -/
structure Shows (metrics : List (Metric α)) (events : List AlertEvent) (server : Server)
    (info : ServerInfo α) : Prop where
  id : info.id = server.id
  name : info.name = server.name
  isActive : info.isActive = server.isActive
  lastSeenAt : info.lastSeenAt = server.lastSeenAt.map isoformat
  agentVersion : info.agentVersion = server.agentVersion
  openAlerts : info.openAlertsCount =
    events.countP fun e => e.serverId = server.id && e.resolvedAt.isNone
  noMetric : info.latestMetric = none ↔ ∀ m ∈ metrics, m.serverId ≠ server.id
  latest : ∀ shown, info.latestMetric = some shown → ∃ m ∈ metrics, m.serverId = server.id ∧
    (∀ m' ∈ metrics, m'.serverId = server.id → m'.collectedAt ≤ m.collectedAt) ∧
    shown = latestMetric isoformat m

/-! ### The joins -/

section
variable {isoformat} {db}

theorem latestMetrics_eq {metrics : List (Metric α)} {serverIds : List ℕ} {serverId : ℕ}
    (h : serverId ∈ serverIds) : ∃ first : Option (Metric α),
      toDict ((firsts (db.numbering.number (metrics.filter fun m => m.serverId ∈ serverIds))).map
        fun m => (m.serverId, latestMetric isoformat m)) serverId =
          first.map (latestMetric isoformat) ∧
      (first = none ↔ ∀ m ∈ metrics, m.serverId ≠ serverId) ∧
      ∀ m, first = some m → m ∈ metrics ∧ m.serverId = serverId ∧
        ∀ m' ∈ metrics, m'.serverId = serverId → m'.collectedAt ≤ m.collectedAt := by
  have hmem : ∀ m : Metric α, m.serverId = serverId →
      (m ∈ metrics.filter (fun m => m.serverId ∈ serverIds) ↔ m ∈ metrics) := by
    intro m hm
    rw [List.mem_filter, hm, decide_eq_true h, and_iff_left rfl]
  obtain ⟨first, hfirst, hnone, hmax⟩ :=
    (db.numbering.numbered (metrics.filter fun m => m.serverId ∈ serverIds)).first serverId
  refine ⟨first, ?_, ?_, ?_⟩
  · rw [toDict_map, hfirst]
    cases first with
    | none => rfl
    | some m => rfl
  · rw [hnone]
    constructor
    · exact fun hno m hm hid => hno m ((hmem m hid).mpr hm) hid
    · exact fun hno m hm => hno m (List.mem_filter.mp hm).1
  · intro m hm
    obtain ⟨⟨hin, hid⟩, hle⟩ := hmax m hm
    refine ⟨(hmem m hid).mp hin, hid, fun m' hm' hid' => ?_⟩
    exact OrderDual.toDual_le_toDual.mp (hle m' ((hmem m' hid').mpr hm') hid')

theorem openAlerts_eq {events : List AlertEvent} {serverIds : List ℕ} {serverId : ℕ}
    (h : serverId ∈ serverIds) :
    (toDict (db.grouping.group
      (events.filter fun e => e.serverId ∈ serverIds && e.resolvedAt.isNone)) serverId).getD 0 =
      events.countP fun e => e.serverId = serverId && e.resolvedAt.isNone := by
  rw [(db.grouping.grouped _).toDict, List.filter_filter]
  have hsame : (events.filter fun e => decide (e.serverId = serverId) &&
      (decide (e.serverId ∈ serverIds) && e.resolvedAt.isNone)) =
      events.filter fun e => e.serverId = serverId && e.resolvedAt.isNone := by
    refine List.filter_congr fun e _ => ?_
    by_cases hid : e.serverId = serverId
    · simp [hid, h]
    · simp [hid]
  rw [hsame, ← List.countP_eq_length_filter]
  split
  · rfl
  · next hno =>
    refine (List.countP_eq_zero.mpr fun e he hopen => hno ⟨e, ?_, ?_⟩).symm
    · simp only [Bool.and_eq_true, decide_eq_true_eq] at hopen
      rw [List.mem_filter]
      simp [he, hopen.1, hopen.2, h]
    · simp only [Bool.and_eq_true, decide_eq_true_eq] at hopen
      exact hopen.1

end

/- The list has one row for each server of the user and no other, each as it would be
computed for the server alone. -/
theorem dashboard_naive (userId : ℕ) (servers : List Server) (metrics : List (Metric α))
    (events : List AlertEvent) : ∃ own : List Server,
      own.Perm (servers.filter fun r => r.ownerId = userId) ∧
      List.Forall₂ (Shows isoformat metrics events) own
        (dashboardData isoformat db userId servers metrics events) := by
  let own := db.scan (servers.filter fun r => r.ownerId = userId)
  refine ⟨own, db.scan_perm _, ?_⟩
  rw [dashboardData, List.forall₂_map_right_iff, List.forall₂_same]
  intro server hserver
  have hid : server.id ∈ own.map Server.id := List.mem_map_of_mem hserver
  have hne : own.map Server.id ≠ [] := List.ne_nil_of_mem hid
  rw [if_neg hne, if_neg hne]
  obtain ⟨first, hlatest, hnone, hmax⟩ := @latestMetrics_eq α isoformat db metrics _ _ hid
  refine ⟨rfl, rfl, rfl, rfl, rfl, openAlerts_eq hid, ?_, ?_⟩
  · show _ = none ↔ _
    rw [hlatest, Option.map_eq_none_iff, hnone]
  · intro shown hshown
    obtain ⟨m, hm, rfl⟩ := Option.map_eq_some_iff.mp (hlatest.symm.trans hshown)
    obtain ⟨hin, hmid, hle⟩ := hmax m hm
    exact ⟨m, hin, hmid, hle, rfl⟩

end

end PulseWatch.Dashboard
