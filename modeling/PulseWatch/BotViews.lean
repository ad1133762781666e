import PulseWatch.Lib.Joins
import PulseWatch.Mutes
import PulseWatch.TenantIsolation

/-!
# What the bot shows

`/status`, `/servers`, `/rules` and `/events` answer a chat from the same tables as the
API, by queries of their own: events are found over the owner of their server, where
the API goes by the owner of their rule. Each query of a handler sees the database at
its own moment.
-/

namespace PulseWatch.BotViews
open Alerts RuleLedger Runs OrderBy Joins TenantIsolation
open Mutes (muteChannels)
open TelegramBot (listAlertRules listAlertEvents)

/- The choices of the database and the texts of floats and instants. -/
structure Choices extends TenantIsolation.Choices where
  servers_perm : ∀ rows, (servers rows).Perm rows
  ruleRows : Sorter fun row : AlertRule × Server => row.1.id
  eventRows : Sorter fun row : (AlertEvent × AlertRule) × Server =>
    OrderDual.toDual row.1.1.createdAt
  str : PyFloat → String
  oneDigit : PyFloat → String
  strftime : Instant → String

def eventsLimit : ℕ := 10

/- What a command is answered; `none` is an exception of the handler. -/
inductive Command where
  | status
  | servers
  | rules
  | events (serverId : Option ℕ)
  deriving DecidableEq, Repr

section
variable (c : Choices) (u : ℕ)

def myServers (s : Db) : List Server := c.servers (s.fleet.servers.filter fun r => r.ownerId = u)

def noServers : String := "У тебя нет зарегистрированных серверов."

def lines (texts : List String) : String := "\n".intercalate texts

/-! ### `/status` -/

def latest (s : Db) (serverId : ℕ) : Option (Metric PyFloat) :=
  (c.metrics.sort (s.fleet.metrics.filter fun m => m.serverId = serverId)).head?

def openEvents (s : Db) (serverId : ℕ) : List AlertEvent :=
  s.events.filter fun e => e.serverId = serverId && e.resolvedAt.isNone

/- `ttl` is what `get_channel_mute_ttl` returns. -/
def statusLine (ttl : ℕ → String → Option ℕ) (server : Server) (latest : Option (Metric PyFloat))
    (openEvents : ℕ) : String :=
  let metricPart :=
    if server.paused then "⏸ paused"
    else match latest with
      | some m => "cpu=" ++ c.oneDigit m.cpuPercent ++ "% mem=" ++ c.oneDigit m.memoryPercent ++
          "% disk=" ++ c.oneDigit m.diskPercent ++ "%"
      | none => "нет данных"
  let muteParts := muteChannels.filterMap fun ch =>
    (ttl server.id ch).map fun ttl => PyText.take 2 ch ++ ":" ++ toString (ttl / 60) ++ "m"
  let mutePart := if muteParts = [] then "" else " 🔇" ++ " ".intercalate muteParts
  let alertPart := if openEvents = 0 then "" else " 🚨" ++ toString openEvents
  "• #" ++ toString server.id ++ " " ++ server.name ++ ": " ++ metricPart ++ alertPart ++ mutePart

/- The servers with the two queries about each. -/
def statusRows (s : ℕ → Db) : List (Server × Option (Metric PyFloat) × ℕ) :=
  (myServers c u (s 0)).mapIdx fun i server =>
    (server, latest c (s (2 * i + 1)) server.id, (openEvents (s (2 * i + 2)) server.id).length)

/-- `_handle_status`. -/
def handleStatus (ttl : ℕ → String → Option ℕ) (s : ℕ → Db) : String :=
  let rows := statusRows c u s
  if rows.isEmpty then noServers
  else lines (("📊 Серверы (" ++ toString rows.length ++ "):") ::
    rows.map fun row => statusLine c ttl row.1 row.2.1 row.2.2)

/-! ### `/servers`, `/rules` and `/events` -/

/-- `_handle_servers`. -/
def handleServers (s : Db) : String :=
  let servers := myServers c u s
  if servers.isEmpty then noServers
  else lines (("🖥 Серверы (" ++ toString servers.length ++ "):") ::
    servers.map fun server =>
      let seen := server.lastSeenAt.elim "ни разу" c.isoformat
      let state :=
        if server.paused then "⏸ paused" else if server.isActive then "✅ active" else "❌ down"
      "• #" ++ toString server.id ++ " " ++ server.name ++ " " ++ state ++ " last_seen=" ++ seen)

/- The rules with the servers they join. -/
def ruleRows (s : Db) : List (AlertRule × Server) :=
  c.ruleRows.sort (join (fun r v => v.id = r.serverId) (s.rules.filter fun r => r.ownerId = u)
    s.fleet.servers)

/-- `_handle_rules`. -/
def handleRules (s : Db) : String :=
  let rows := ruleRows c u s
  if rows.isEmpty then "У тебя нет правил."
  else lines (("📐 Правила (" ++ toString rows.length ++ "):") ::
    rows.map fun (rule, server) =>
      let state := if rule.isActive then "✅on" else "⏸off"
      "• #" ++ toString rule.id ++ " " ++ state ++ " [" ++ server.name ++ "] " ++ rule.name ++
        ": " ++ rule.metricField ++ " " ++ rule.operator.value ++ " " ++ c.str rule.thresholdValue)

/- The joins and WHERE of `_handle_events`. -/
def joinedEvents (serverId : Option ℕ) (s : Db) : List ((AlertEvent × AlertRule) × Server) :=
  (join (fun row v => v.id = row.1.serverId) (join (fun e r => r.id = e.ruleId) s.events s.rules)
    s.fleet.servers).filter fun row =>
      row.2.ownerId = u && serverId.all fun id => row.1.1.serverId = id

def eventRows (serverId : Option ℕ) (s : Db) : List ((AlertEvent × AlertRule) × Server) :=
  (c.eventRows.sort (joinedEvents u serverId s)).take eventsLimit

/-- `_handle_events` on a text of its pattern. An id that PostgreSQL has no INTEGER for is
an error of the query, and 0 is no id to name. -/
def handleEvents (serverId : Option ℕ) (s : Db) : Option String :=
  if serverId.all (· < 2 ^ 31) then
    let rows := eventRows c u serverId s
    let named := serverId.filter (· ≠ 0)
    if rows.isEmpty then
      some ("Событий" ++ named.elim "" (fun id => " для сервера #" ++ toString id) ++ " нет.")
    else
      let header := "📜 Последние события" ++
        named.elim "" fun id => " (для #" ++ toString id ++ ")"
      some (lines ((header ++ ", всего " ++ toString rows.length ++ ":") ::
        rows.map fun ((event, rule), server) =>
          let status := if event.resolvedAt.isSome then "✅resolved" else "🔥open"
          "• #" ++ toString event.id ++ " [" ++ server.name ++ "] " ++ rule.name ++ ": " ++
            c.str event.metricValue ++ " (порог " ++ c.str event.thresholdValue ++ ") | " ++
            status ++ " | " ++ c.strftime event.createdAt))
  else none

/- `s k` is the database the k-th query of the handler sees. -/
def reply (ttl : ℕ → String → Option ℕ) (s : ℕ → Db) : Command → Option String
  | .status => some (handleStatus c u ttl s)
  | .servers => some (handleServers c u (s 0))
  | .rules => some (handleRules c u (s 0))
  | .events serverId => handleEvents c u serverId (s 0)

end

/-! ### The rows of a reply are rows of the user -/

section
variable {c : Choices} {u : ℕ} {s : Db}

theorem myServers_own : myServers c u (view u s).db = myServers c u s := by
  unfold myServers
  have hown : (s.fleet.servers.filter fun r => decide (r.ownerId = u)).filter
      (fun r => decide (r.ownerId = u)) = s.fleet.servers.filter fun r => r.ownerId = u :=
    filter_own fun r _ hr => hr
  exact congrArg c.servers hown

theorem latest_own {serverId : ℕ} (h : owned u s.fleet.servers serverId = true) :
    latest c (view u s).db serverId = latest c s serverId := by
  have hown : (view u s).db.fleet.metrics.filter (fun m => m.serverId = serverId) =
      s.fleet.metrics.filter fun m => m.serverId = serverId :=
    filter_own fun m _ hm => by
      rw [of_decide_eq_true hm]
      exact h
  rw [latest, hown, latest]

theorem openEvents_own {serverId : ℕ} (h : owned u s.fleet.servers serverId = true) :
    openEvents (view u s).db serverId = openEvents s serverId :=
  filter_own fun e _ he => by
    rw [Bool.and_eq_true, decide_eq_true_eq] at he
    rw [he.1]
    exact h

/- A rule that an event on a server joins is of the owner of the server. -/
theorem rule_of_event (h : Kept s) {e : AlertEvent} {r : AlertRule} (he : e ∈ s.events)
    (hr : r ∈ s.rules) (hid : r.id = e.ruleId) :
    owned u s.fleet.servers e.serverId = true ↔ r.ownerId = u := by
  have hserver : r.serverId = e.serverId :=
    (h.sound.shown _ (List.mem_map_of_mem he)).2 (ruleKey r) (List.mem_map_of_mem hr) hid
  have hrule := h.owns_of_rule hr rfl
  rw [hserver] at hrule
  constructor
  · exact fun howned => h.owner_unique (owned_iff.mp howned) hrule
  · intro howner
    rw [howner] at hrule
    exact owned_iff.mpr hrule

theorem owned_of_server {v : Server} (hv : v ∈ s.fleet.servers) (howner : v.ownerId = u) :
    owned u s.fleet.servers v.id = true := by
  rw [owned_iff]
  exact ⟨v, hv, rfl, howner⟩

/- The server that has the id of one of the user is it. -/
theorem server_owner (h : Kept s) {v : Server} (hv : v ∈ s.fleet.servers)
    (howned : owned u s.fleet.servers v.id = true) : v.ownerId = u :=
  h.owner_unique (owned_iff.mp howned) ⟨v, hv, rfl, rfl⟩

theorem ruleRows_own (h : Kept s) : ruleRows c u (view u s).db = ruleRows c u s := by
  have hrules : (s.rules.filter fun r => decide (r.ownerId = u)).filter
      (fun r => decide (r.ownerId = u)) = s.rules.filter fun r => r.ownerId = u :=
    filter_own fun r _ hr => hr
  have hservers : join (fun r v => decide (v.id = r.serverId))
      (s.rules.filter fun r => r.ownerId = u) (s.fleet.servers.filter fun v => v.ownerId = u) =
      join (fun r v => decide (v.id = r.serverId)) (s.rules.filter fun r => r.ownerId = u)
        s.fleet.servers := by
    refine join_filter_right fun r hr v hv hid => ?_
    obtain ⟨hr, howner⟩ := List.mem_filter.mp hr
    rw [decide_eq_true_eq] at hid howner ⊢
    have hrule := owned_iff.mpr (h.owns_of_rule hr howner)
    rw [← hid] at hrule
    exact server_owner h hv hrule
  show c.ruleRows.sort (join _ ((s.rules.filter fun r => decide (r.ownerId = u)).filter
    fun r => decide (r.ownerId = u)) (s.fleet.servers.filter fun r => r.ownerId = u)) = _
  rw [hrules, hservers, ruleRows]

/- The query comes to the same over the rows of the user alone. -/
theorem joinedEvents_own (h : Kept s) (serverId : Option ℕ) :
    joinedEvents u serverId (view u s).db = joinedEvents u serverId s := by
  have hservers : (s.fleet.servers.filter fun v => decide (v.ownerId = u)).filter
      (fun v => decide (v.ownerId = u)) = s.fleet.servers.filter fun v => v.ownerId = u :=
    filter_own fun v _ hv => hv
  have hrules : join (fun e r => decide (r.id = e.ruleId))
      (s.events.filter fun e => owned u s.fleet.servers e.serverId)
      (s.rules.filter fun r => r.ownerId = u) =
      join (fun e r => decide (r.id = e.ruleId))
        (s.events.filter fun e => owned u s.fleet.servers e.serverId) s.rules := by
    refine join_filter_right fun e he r hr hid => ?_
    obtain ⟨he, howned⟩ := List.mem_filter.mp he
    rw [decide_eq_true_eq] at hid ⊢
    exact (rule_of_event h he hr hid).mp howned
  have hevents : join (fun (row : AlertEvent × AlertRule) v => decide (v.id = row.1.serverId))
      ((join (fun e r => decide (r.id = e.ruleId)) s.events s.rules).filter
        fun row => owned u s.fleet.servers row.1.serverId)
      (s.fleet.servers.filter fun v => v.ownerId = u) =
      join (fun (row : AlertEvent × AlertRule) v => decide (v.id = row.1.serverId))
        (join (fun e r => decide (r.id = e.ruleId)) s.events s.rules)
        (s.fleet.servers.filter fun v => v.ownerId = u) := by
    refine join_filter_left fun row _ v hv hid => ?_
    obtain ⟨hv, howner⟩ := List.mem_filter.mp hv
    rw [decide_eq_true_eq] at hid howner
    rw [← hid]
    exact owned_of_server hv howner
  have hwhere : ∀ t : Db, joinedEvents u serverId t =
      (join (fun (row : AlertEvent × AlertRule) v => decide (v.id = row.1.serverId))
        (join (fun e r => decide (r.id = e.ruleId)) t.events t.rules)
        (t.fleet.servers.filter fun v => v.ownerId = u)).filter
          fun row => serverId.all fun id => row.1.1.serverId = id := by
    intro t
    rw [← filter_snd_join, List.filter_filter, joinedEvents]
    exact List.filter_congr fun row _ => Bool.and_comm _ _
  rw [hwhere, hwhere]
  congr 1
  show join _ (join _ (s.events.filter fun e => owned u s.fleet.servers e.serverId)
    (s.rules.filter fun r => r.ownerId = u)) ((s.fleet.servers.filter
      fun v => decide (v.ownerId = u)).filter fun v => decide (v.ownerId = u)) = _
  have hbefore : (join (fun e r => decide (r.id = e.ruleId)) s.events s.rules).filter
      (fun row : AlertEvent × AlertRule => owned u s.fleet.servers row.1.serverId) =
      join (fun e r => decide (r.id = e.ruleId))
        (s.events.filter fun e => owned u s.fleet.servers e.serverId) s.rules :=
    filter_fst_join fun e : AlertEvent => owned u s.fleet.servers e.serverId
  rw [hservers, hrules, ← hevents, hbefore]

theorem statusRows_own {s : ℕ → Db} {v : View} (h : ∀ k, view u (s k) = v) :
    statusRows c u s = statusRows c u fun _ => v.db := by
  have hservers : myServers c u (s 0) = myServers c u v.db := by
    rw [← myServers_own, h]
  unfold statusRows
  rw [hservers, List.mapIdx_eq_mapIdx_iff]
  intro i hi
  have hmem := List.getElem_mem hi
  generalize (myServers c u v.db)[i] = server at hmem ⊢
  rw [← hservers] at hmem
  obtain ⟨hin, howner⟩ := List.mem_filter.mp ((c.servers_perm _).mem_iff.mp hmem)
  have howned : ∀ k, owned u (s k).fleet.servers server.id = true := by
    intro k
    have hown : ∀ j, owned u (s j).fleet.servers server.id = owned u v.servers server.id := by
      intro j
      rw [← owned_own, ← h j]
      rfl
    rw [hown, ← hown 0]
    exact owned_of_server hin (of_decide_eq_true howner)
  rw [← latest_own (howned _), ← openEvents_own (howned _), h, h]

/- Whatever the moments of its queries, a reply is that of a database with the rows of
the user alone. -/
theorem reply_own {s : ℕ → Db} {v : View} (ttl : ℕ → String → Option ℕ) (hs : ∀ k, Kept (s k))
    (h : ∀ k, view u (s k) = v) (cmd : Command) :
    reply c u ttl s cmd = reply c u ttl (fun _ => v.db) cmd := by
  cases cmd with
  | status => simp only [reply, handleStatus, statusRows_own h]
  | servers =>
    have hservers : myServers c u (s 0) = myServers c u v.db := by
      rw [← myServers_own, h]
    simp only [reply, handleServers, hservers]
  | rules =>
    have hrules : ruleRows c u (s 0) = ruleRows c u v.db := by
      rw [← ruleRows_own (hs 0), h]
    simp only [reply, handleRules, hrules]
  | events serverId =>
    have hevents : eventRows c u serverId (s 0) = eventRows c u serverId v.db := by
      rw [eventRows, ← joinedEvents_own (hs 0), h, eventRows]
    simp only [reply]
    unfold handleEvents
    rw [hevents]

/-! ### The bot and the API show the same -/

/- A line of `/status` and a row of the dashboard. -/
structure SameServer (c : Choices) (row : Server × Option (Metric PyFloat) × ℕ)
    (info : Dashboard.ServerInfo PyFloat) : Prop where
  id : info.id = row.1.id
  name : info.name = row.1.name
  openAlerts : info.openAlertsCount = row.2.2
  noMetric : info.latestMetric = none ↔ row.2.1 = none
  latest : ∀ m shown, row.2.1 = some m → info.latestMetric = some shown →
    shown.collectedAt = c.isoformat m.collectedAt

/- The dashboard is the list that is built on a cache miss. -/
structure Agrees (c : Choices) (u : ℕ) (s : Db) : Prop where
  status : ∀ row ∈ statusRows c u (fun _ => s), ∃ info ∈ Dashboard.dashboardData c.isoformat
    c.dashboard u s.fleet.servers s.fleet.metrics s.events, SameServer c row info
  dashboard : ∀ info ∈ Dashboard.dashboardData c.isoformat c.dashboard u s.fleet.servers
    s.fleet.metrics s.events, ∃ row ∈ statusRows c u (fun _ => s), SameServer c row info
  rules : Ordered AlertRule.id (listAlertRules u none s) ((ruleRows c u s).map Prod.fst)
  /- the first ten of an answer that `GET /alerts/events` may give -/
  events : ∀ serverId, ∃ result, Ordered (fun e : AlertEvent => OrderDual.toDual e.createdAt)
    (listAlertEvents u serverId none s) result ∧
      (eventRows c u serverId s).map (fun row => row.1.1) = result.take eventsLimit
  /- under the names of his own servers and rules -/
  ruleNames : ∀ row ∈ ruleRows c u s,
    row.2 ∈ s.fleet.servers ∧ row.2.ownerId = u ∧ row.2.id = row.1.serverId
  eventNames : ∀ serverId, ∀ row ∈ eventRows c u serverId s,
    (row.1.2 ∈ s.rules ∧ row.1.2.ownerId = u ∧ row.1.2.id = row.1.1.ruleId) ∧
      row.2 ∈ s.fleet.servers ∧ row.2.ownerId = u ∧ row.2.id = row.1.1.serverId

theorem latest_none {serverId : ℕ} :
    latest c s serverId = none ↔ ∀ m ∈ s.fleet.metrics, m.serverId ≠ serverId := by
  have hperm := (c.metrics.ordered (s.fleet.metrics.filter fun m => m.serverId = serverId)).perm
  rw [latest, List.head?_eq_none_iff]
  constructor
  · intro hnil m hm hid
    rw [hnil] at hperm
    have hin : m ∈ s.fleet.metrics.filter fun m => m.serverId = serverId :=
      List.mem_filter.mpr ⟨hm, decide_eq_true hid⟩
    exact List.not_mem_nil (hperm.mem_iff.mpr hin)
  · intro hno
    rw [← List.length_eq_zero_iff, hperm.length_eq, List.length_eq_zero_iff,
      List.filter_eq_nil_iff]
    exact fun m hm hid => hno m hm (of_decide_eq_true hid)

theorem latest_newest {serverId : ℕ} {m : Metric PyFloat} (h : latest c s serverId = some m) :
    (m ∈ s.fleet.metrics ∧ m.serverId = serverId) ∧
      ∀ m' ∈ s.fleet.metrics, m'.serverId = serverId → m'.collectedAt ≤ m.collectedAt := by
  have hordered := c.metrics.ordered (s.fleet.metrics.filter fun m => m.serverId = serverId)
  constructor
  · obtain ⟨hm, hid⟩ := List.mem_filter.mp (hordered.perm.mem_iff.mp (List.mem_of_head? h))
    exact ⟨hm, of_decide_eq_true hid⟩
  · intro m' hm' hid'
    have hle := hordered.head_le h (List.mem_filter.mpr ⟨hm', decide_eq_true hid'⟩)
    exact OrderDual.toDual_le_toDual.mp hle

theorem sameServer {server : Server} {info : Dashboard.ServerInfo PyFloat}
    (h : Dashboard.Shows c.isoformat s.fleet.metrics s.events server info) :
    SameServer c (server, latest c s server.id, (openEvents s server.id).length) info := by
  refine ⟨h.id, h.name, ?_, ?_, fun m shown hm hshown => ?_⟩
  · rw [h.openAlerts, List.countP_eq_length_filter, openEvents]
  · rw [h.noMetric, latest_none]
  · obtain ⟨⟨hin, hid⟩, hmax⟩ := latest_newest hm
    obtain ⟨m', hin', hid', hmax', rfl⟩ := h.latest shown hshown
    have hle := hmax m' hin' hid'
    have hge := hmax' m hin hid
    show c.isoformat m'.collectedAt = _
    rw [le_antisymm hle hge]

theorem statusRows_now (s : Db) : statusRows c u (fun _ => s) =
    (myServers c u s).map fun server =>
      (server, latest c s server.id, (openEvents s server.id).length) := by
  rw [statusRows, List.mapIdx_eq_iff]
  exact fun i => List.getElem?_map

theorem Kept.serverIds (h : Kept s) : (s.fleet.servers.map Server.id).Nodup := by
  have hids := h.sound.serverIds
  rwa [ledger, List.map_map] at hids

theorem Kept.ruleIds (h : Kept s) : (s.rules.map AlertRule.id).Nodup := by
  have hids := h.sound.ruleIds
  rwa [ledger, List.map_map] at hids

/- The rules of the user with their servers are his rules. -/
theorem ruleRows_rules (h : Kept s) :
    Ordered AlertRule.id (listAlertRules u none s) ((ruleRows c u s).map Prod.fst) := by
  have hrows : (join (fun r v => decide (v.id = r.serverId)) (s.rules.filter fun r => r.ownerId = u)
      s.fleet.servers).map Prod.fst = listAlertRules u none s := by
    rw [map_fst_join fun r _ => length_filter_key Server.id (Kept.serverIds h) fun v _ hv =>
      of_decide_eq_true hv]
    rw [List.filter_filter, listAlertRules]
    refine List.filter_congr fun r hr => ?_
    obtain ⟨v, hv, hid, -⟩ := h.owns_of_rule hr rfl
    have hany : s.fleet.servers.any (fun v => decide (v.id = r.serverId)) = true :=
      List.any_eq_true.mpr ⟨v, hv, decide_eq_true hid⟩
    rw [hany]
    simp
  rw [← hrows]
  exact (c.ruleRows.ordered _).map

/- Over the owner of the server or over the owner of the rule: the same events. -/
theorem joinedEvents_events (h : Kept s) (serverId : Option ℕ) :
    (joinedEvents u serverId s).map (fun row => row.1.1) = listAlertEvents u serverId none s := by
  have hwhere : joinedEvents u serverId s =
      join (fun (row : AlertEvent × AlertRule) v => decide (v.id = row.1.serverId))
        (join (fun e r => decide (r.id = e.ruleId))
          (s.events.filter fun e => serverId.all fun id => e.serverId = id) s.rules)
        (s.fleet.servers.filter fun v => v.ownerId = u) := by
    rw [← filter_snd_join, ← filter_fst_join fun e : AlertEvent => serverId.all fun id =>
      e.serverId = id, ← filter_fst_join fun row : AlertEvent × AlertRule =>
        serverId.all fun id => row.1.serverId = id, List.filter_filter]
    rfl
  have hids : ∀ row : AlertEvent × AlertRule, ((s.fleet.servers.filter fun v =>
      v.ownerId = u).filter fun v => decide (v.id = row.1.serverId)).length ≤ 1 := by
    intro row
    refine length_filter_key Server.id ?_ fun v _ hv => of_decide_eq_true hv
    exact (Kept.serverIds h).sublist (List.filter_sublist.map Server.id)
  have howned : ∀ row : AlertEvent × AlertRule, ((s.fleet.servers.filter fun v => v.ownerId = u).any
      fun v => decide (v.id = row.1.serverId)) = owned u s.fleet.servers row.1.serverId := by
    intro row
    rw [owned, List.any_filter]
    congr 1
    funext v
    exact Bool.and_comm _ _
  have hsplit : (fun row : (AlertEvent × AlertRule) × Server => row.1.1) =
      Prod.fst ∘ Prod.fst := rfl
  rw [hwhere, hsplit, ← List.map_map, map_fst_join fun row _ => hids row]
  simp only [howned]
  rw [filter_fst_join fun e : AlertEvent => owned u s.fleet.servers e.serverId,
    map_fst_join fun e _ => length_filter_key AlertRule.id (Kept.ruleIds h) fun r _ hr =>
      of_decide_eq_true hr, List.filter_filter, List.filter_filter, listAlertEvents]
  refine List.filter_congr fun e he => ?_
  have hrule : (s.rules.any (fun r => decide (r.id = e.ruleId)) &&
      owned u s.fleet.servers e.serverId) =
      s.rules.any fun r => decide (e.ruleId = r.id) && decide (r.ownerId = u) := by
    rw [Bool.eq_iff_iff, Bool.and_eq_true, List.any_eq_true, List.any_eq_true]
    constructor
    · rintro ⟨⟨r, hr, hid⟩, howner⟩
      have hid := of_decide_eq_true hid
      refine ⟨r, hr, ?_⟩
      simp [hid, (rule_of_event h he hr hid).mp howner]
    · rintro ⟨r, hr, hkey⟩
      simp only [Bool.and_eq_true, decide_eq_true_eq] at hkey
      exact ⟨⟨r, hr, decide_eq_true hkey.1.symm⟩, (rule_of_event h he hr hkey.1.symm).mpr hkey.2⟩
  rw [hrule]
  simp

theorem Kept.agrees (h : Kept s) (c : Choices) (u : ℕ) : Agrees c u s := by
  obtain ⟨own, hown, hrows⟩ := Dashboard.dashboard_naive c.isoformat c.dashboard u
    s.fleet.servers s.fleet.metrics s.events
  have hmine : ∀ server, server ∈ myServers c u s ↔ server ∈ own := by
    intro server
    rw [myServers, (c.servers_perm _).mem_iff, hown.mem_iff]
  rw [List.forall₂_iff_get] at hrows
  obtain ⟨hlength, hshows⟩ := hrows
  constructor
  · intro row hrow
    rw [statusRows_now] at hrow
    obtain ⟨server, hserver, rfl⟩ := List.mem_map.mp hrow
    obtain ⟨i, hi, rfl⟩ := List.getElem_of_mem ((hmine server).mp hserver)
    exact ⟨_, List.getElem_mem (hlength ▸ hi), sameServer (hshows i hi (hlength ▸ hi))⟩
  · intro info hinfo
    obtain ⟨i, hi, rfl⟩ := List.getElem_of_mem hinfo
    rw [statusRows_now]
    have hi' : i < own.length := hlength ▸ hi
    refine ⟨_, List.mem_map_of_mem ((hmine _).mpr (List.getElem_mem hi')), ?_⟩
    exact sameServer (hshows i hi' hi)
  · exact ruleRows_rules h
  · intro serverId
    refine ⟨_, ?_, List.map_take⟩
    rw [← joinedEvents_events h]
    exact Ordered.map (f := fun row : (AlertEvent × AlertRule) × Server => row.1.1)
      (c.eventRows.ordered _)
  · intro row hrow
    obtain ⟨hr, hv, hid⟩ := mem_join.mp ((c.ruleRows.ordered _).perm.mem_iff.mp hrow)
    obtain ⟨hr, howner⟩ := List.mem_filter.mp hr
    have hrule := owned_iff.mpr (h.owns_of_rule hr (of_decide_eq_true howner))
    rw [decide_eq_true_eq] at hid
    rw [← hid] at hrule
    exact ⟨hv, server_owner h hv hrule, hid⟩
  · intro serverId row hrow
    have hin := (c.eventRows.ordered _).perm.mem_iff.mp (List.mem_of_mem_take hrow)
    obtain ⟨hin, hwhere⟩ := List.mem_filter.mp hin
    obtain ⟨hin, hv, hid⟩ := mem_join.mp hin
    obtain ⟨he, hr, hrid⟩ := mem_join.mp hin
    simp only [Bool.and_eq_true, decide_eq_true_eq] at hwhere hid hrid
    have howned := owned_of_server hv hwhere.1
    rw [hid] at howned
    exact ⟨⟨hr, (rule_of_event h he hr hrid).mp howned, hrid⟩, hv, hwhere.1, hid⟩

/-! ### Whole runs -/

variable {cr : Crypto} {floatStr : PyFloat → String} {attrs : Attributes}

theorem kept_run {t : Db} {ls : List Label} (h : Kept s)
    (hls : Along (Alerts.step cr floatStr attrs) (fun t l => proper t l = true) s ls)
    (hr : run (Alerts.step cr floatStr attrs) s ls = some t) : Kept t :=
  run_invariant Kept (fun t l => proper t l = true) (fun _ _ _ h hok hs => h.step hok hs) h hls hr

/- In every state in which the dialog has given each rule to the owner of its server. -/
theorem bot_agrees_with_api (c : Choices) (u : ℕ) {now : Instant} {ls : List Label}
    (hls : Along (Alerts.step cr floatStr attrs) (fun t l => proper t l = true)
      (Alerts.init now) ls)
    (hr : run (Alerts.step cr floatStr attrs) (Alerts.init now) ls = some s) : Agrees c u s :=
  Kept.agrees (kept_run (Kept.init now) hls hr) c u

end

def plainChoices : Choices where
  toChoices := firstSeen
  servers_perm _ := List.Perm.rfl
  ruleRows := mergeSorter _
  eventRows := mergeSorter _
  str := Threshold.tabledFloatStr
  oneDigit := Threshold.tabledFloatStr
  strftime at' := toString at'

theorem alert_shown_by_both :
    ∃ s, run (Alerts.step tabledCrypto Threshold.tabledFloatStr plainAttributes)
        (Alerts.init 0) aliceAlone = some s ∧
      (eventRows plainChoices 1 none s).map (fun row => row.1.1.id) = [1] ∧
      Agrees plainChoices 1 s := by
  have hevents : (run (Alerts.step tabledCrypto Threshold.tabledFloatStr plainAttributes)
      (Alerts.init 0) aliceAlone).map (fun s =>
        (joinedEvents 1 none s).map fun row => row.1.1.id) = some [1] := by decide
  obtain ⟨s, hs, hids⟩ := Option.map_eq_some_iff.mp hevents
  refine ⟨s, hs, ?_, bot_agrees_with_api plainChoices 1 (by decide) hs⟩
  have hperm : ((plainChoices.eventRows.sort (joinedEvents 1 none s)).map
      fun row => row.1.1.id).Perm [1] :=
    hids ▸ (plainChoices.eventRows.ordered _).perm.map _
  rw [eventRows, List.map_take, List.perm_singleton.mp hperm]
  rfl

end PulseWatch.BotViews
