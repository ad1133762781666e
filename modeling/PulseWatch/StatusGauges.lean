import PulseWatch.AlertRules
import PulseWatch.Heartbeat
import PulseWatch.Lib.SqlTruth

/-!
# The gauges beside the heartbeat (`app/core/observability_refresh.py`)

`is_active` is a column that the heartbeat moves, the gauges ask for `last_seen_at`. A
server that was never seen is no concern of the heartbeat, and the gauges name it in a
condition of its own.
-/

namespace PulseWatch.StatusGauges
open Fleet

structure Gauges where
  users : ℕ
  paused : ℕ
  active : ℕ
  inactive : ℕ
  openAlerts : ℕ
  deriving DecidableEq, Repr

/-! ### The WHERE of each query -/

def pausedQ (r : Server) : Sql.Truth := some r.paused

def activeQ (threshold : Instant) (r : Server) : Sql.Truth :=
  Sql.and (some !r.paused) (Sql.compare (threshold ≤ ·) r.lastSeenAt)

def inactiveQ (threshold : Instant) (r : Server) : Sql.Truth :=
  Sql.and (some !r.paused)
    (Sql.or (Sql.isNull r.lastSeenAt) (Sql.compare (· < threshold) r.lastSeenAt))

/- `_refresh_once` with its threshold. -/
def refreshOnce (threshold : Instant) (users : List User) (servers : List Server)
    (events : List AlertEvent) : Gauges where
  users := users.length
  paused := Sql.count pausedQ servers
  active := Sql.count (activeQ threshold) servers
  inactive := Sql.count (inactiveQ threshold) servers
  openAlerts := Sql.count (fun e => Sql.isNull e.resolvedAt) events

/- The two UPDATEs ask of the same column what the gauges ask. -/
theorem overdue_eq (threshold : Instant) (r : Server) : overdue threshold r =
    Sql.isTrue (Sql.and (Sql.compare (· < threshold) r.lastSeenAt)
      (Sql.and (some r.isActive) (some !r.paused))) := by
  unfold overdue
  cases r.lastSeenAt with
  | none => simp
  | some t => simp [Bool.and_assoc]

theorem recovered_eq (threshold : Instant) (r : Server) : recovered threshold r =
    Sql.isTrue (Sql.and (Sql.compare (threshold ≤ ·) r.lastSeenAt)
      (Sql.and (some !r.isActive) (some !r.paused))) := by
  unfold recovered
  cases r.lastSeenAt with
  | none => simp
  | some t => simp [Bool.and_assoc]

/-! ### What the heartbeat leaves -/

/- An unpaused server that was seen has the flag its last sight asks for. -/
def Settled (threshold : Instant) (r : Server) : Prop :=
  r.paused = false → ∀ t, r.lastSeenAt = some t → r.isActive = decide (threshold ≤ t)

theorem settled_row (threshold : Instant) (r : Server) :
    Settled threshold (reactivate threshold (deactivate threshold r)) := by
  obtain ⟨id, name, apiKeyHash, ownerId, seen, active, version, paused⟩ := r
  simp only [Settled, reactivate, deactivate, overdue_eq, recovered_eq]
  cases paused with
  | true => cases active <;> simp
  | false =>
    cases seen with
    | none => cases active <;> simp
    | some t =>
      by_cases hlt : t < threshold
      · cases active <;> simp [hlt, hlt.not_ge]
      · cases active <;> simp [hlt, not_lt.mp hlt]

theorem settled_after (threshold : Instant) (s : Sys) :
    ∀ r ∈ (runHeartbeatCheck threshold s).servers, Settled threshold r := by
  intro r hr
  obtain ⟨q, hq, rfl⟩ := List.mem_map.mp hr
  obtain ⟨p, -, rfl⟩ := List.mem_map.mp hq
  exact settled_row threshold p

/-! ### The gauges of a settled table -/

section
variable {threshold : Instant} {r : Server}

theorem active_row (h : Settled threshold r) : Sql.isTrue (activeQ threshold r) =
    (!r.paused && r.isActive && r.lastSeenAt.isSome) := by
  rw [activeQ, Sql.isTrue_and, Sql.isTrue_some, Sql.isTrue_compare]
  cases hp : r.paused with
  | true => rfl
  | false =>
    cases hseen : r.lastSeenAt with
    | none => simp
    | some t => simp [h hp t hseen]

theorem inactive_row (h : Settled threshold r) : Sql.isTrue (inactiveQ threshold r) =
    (!r.paused && (!r.isActive || r.lastSeenAt.isNone)) := by
  rw [inactiveQ, Sql.isTrue_and, Sql.isTrue_some, Sql.isTrue_or, Sql.isTrue_isNull,
    Sql.isTrue_compare]
  cases hp : r.paused with
  | true => rfl
  | false =>
    cases hseen : r.lastSeenAt with
    | none => simp
    | some t =>
      by_cases hlt : t < threshold
      · simp [h hp t hseen, hlt, hlt.not_ge]
      · simp [h hp t hseen, hlt, not_lt.mp hlt]

/- The three conditions share the table out, whatever the heartbeat has done. -/
theorem gauges_partition (threshold : Instant) (users : List User) (servers : List Server)
    (events : List AlertEvent) :
    let g := refreshOnce threshold users servers events
    g.paused + g.active + g.inactive = servers.length := by
  refine Sql.count_partition fun r _ => ?_
  rw [pausedQ, activeQ, inactiveQ]
  cases r.paused with
  | true => simp
  | false =>
    cases r.lastSeenAt with
    | none => simp
    | some t =>
      by_cases hlt : t < threshold
      · simp [hlt, hlt.not_ge]
      · simp [hlt, not_lt.mp hlt]

end

/- After the heartbeat the active gauge counts the unpaused servers with `is_active` that
were seen, and the inactive one those without it and those that were never seen. -/
theorem gauges_after_heartbeat (threshold : Instant) (s : Sys) (users : List User)
    (events : List AlertEvent) :
    let servers := (runHeartbeatCheck threshold s).servers
    let g := refreshOnce threshold users servers events
    g.active = servers.countP (fun r => !r.paused && r.isActive && r.lastSeenAt.isSome) ∧
    g.inactive = servers.countP (fun r => !r.paused && !r.isActive) +
      servers.countP (fun r => !r.paused && r.isActive && r.lastSeenAt.isNone) ∧
    g.paused + g.active + g.inactive = servers.length := by
  intro servers g
  have hsettled := settled_after threshold s
  refine ⟨?_, ?_, gauges_partition threshold users servers events⟩
  · exact List.countP_congr fun r hr => by rw [active_row (hsettled r hr)]
  · have hcount : g.inactive =
        servers.countP fun r => !r.paused && (!r.isActive || r.lastSeenAt.isNone) :=
      List.countP_congr fun r hr => by rw [inactive_row (hsettled r hr)]
    rw [hcount]
    refine Sql.countP_add (fun r => ?_) servers
    cases r.paused <;> cases r.isActive <;> cases r.lastSeenAt <;> rfl

/- The active gauge falls short of the flags by the servers that were never seen. -/
theorem gauges_match_iff (threshold : Instant) (s : Sys) (users : List User)
    (events : List AlertEvent) :
    let servers := (runHeartbeatCheck threshold s).servers
    (refreshOnce threshold users servers events).active =
        servers.countP (fun r => !r.paused && r.isActive) ↔
      ∀ r ∈ servers, r.paused = false → r.isActive = true → r.lastSeenAt.isSome = true := by
  intro servers
  have hactive : (refreshOnce threshold users servers events).active =
      servers.countP fun r => !r.paused && r.isActive && r.lastSeenAt.isSome :=
    List.countP_congr fun r hr => by rw [active_row (settled_after threshold s r hr)]
  have hsum : (servers.countP fun r => !r.paused && r.isActive) =
      (servers.countP fun r => !r.paused && r.isActive && r.lastSeenAt.isSome) +
        servers.countP fun r => !r.paused && r.isActive && r.lastSeenAt.isNone := by
    refine Sql.countP_add (fun r => ?_) servers
    cases r.paused <;> cases r.isActive <;> cases r.lastSeenAt <;> rfl
  rw [hactive, hsum, left_eq_add, List.countP_eq_zero]
  refine forall₂_congr fun r _ => ?_
  cases r.paused <;> cases r.isActive <;> cases r.lastSeenAt <;> simp

/- One server that was registered and has not reported: the heartbeat leaves it active, and
its gauge is `inactive`. -/
def registeredOnly : Sys :=
  { init 0 with servers := [{ id := 1, name := "web", apiKeyHash := "", ownerId := 1 }] }

theorem unseen_counted_inactive :
    let servers := (runHeartbeatCheck (heartbeatThreshold 0) registeredOnly).servers
    let g := refreshOnce (heartbeatThreshold 0) [] servers []
    servers.countP (fun r => !r.paused && r.isActive) = 1 ∧ g.active = 0 ∧
    servers.countP (fun r => !r.paused && !r.isActive) = 0 ∧ g.inactive = 1 := by
  decide

end PulseWatch.StatusGauges
