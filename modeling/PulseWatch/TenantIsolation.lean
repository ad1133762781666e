import PulseWatch.Dashboard
import PulseWatch.RuleOwners

/-!
# What other users' requests leave alone

Everything the API shows a user is computed from the rows that are theirs: their servers,
the samples and events of these, their rules. In a whole run no request of another user,
no sample of another user's server and no evaluation of one changes any of these rows,
so every answer stays as it was.
-/

namespace PulseWatch.TenantIsolation
open Alerts RuleLedger Runs OrderBy
open TelegramBot (Owns listAlertRules listAlertEvents mem_servers)

/-! ### The endpoints -/

/- What the queries leave to the database: the order of rows with one key. Servers are
listed in any order, rules by a column no handler reads. -/
structure Choices where
  isoformat : Instant → String
  dashboard : Dashboard.Database PyFloat
  servers : List Server → List Server
  rules : List AlertRule → List AlertRule
  events : Sorter fun e : AlertEvent => OrderDual.toDual e.createdAt
  metrics : Sorter fun m : Metric PyFloat => OrderDual.toDual m.collectedAt
  dockerMetrics : Sorter fun m : DockerMetric PyFloat => OrderDual.toDual m.collectedAt

/- `cached` is what Redis has for the key of the dashboard; a failed GET is a miss. -/
inductive Query where
  | listMyServers
  | dashboard (cached : Option (List (Dashboard.ServerInfo PyFloat)))
  | listAlertRules (serverId : Option ℕ)
  | getAlertRule (ruleId : ℕ)
  | listAlertEvents (serverId ruleId : Option ℕ) (limit : ℕ)
  | getAlertEvent (eventId : ℕ)
  | listServerMetrics (serverId limit : ℕ)
  | listServerDockerMetrics (serverId limit : ℕ) (containerId : Option String)

inductive Reply where
  | servers (rows : List Server)
  | dashboard (rows : List (Dashboard.ServerInfo PyFloat))
  | rules (rows : List AlertRule)
  | rule (row : AlertRule)
  | events (rows : List AlertEvent)
  | event (row : AlertEvent)
  | metrics (rows : List (Metric PyFloat))
  | dockerMetrics (rows : List (DockerMetric PyFloat))
  | notFound (detail : String)

/- `Server.id == server_id, Server.owner_id == user.id`. -/
def owned (u : ℕ) (servers : List Server) (serverId : ℕ) : Bool :=
  servers.any fun r => r.id = serverId && r.ownerId = u

def ofRule (u : ℕ) (rules : List AlertRule) (e : AlertEvent) : Bool :=
  rules.any fun r => e.ruleId = r.id && r.ownerId = u

section
variable (c : Choices) (u : ℕ) (s : Db)

def answer : Query → Reply
  | .listMyServers => .servers (c.servers (s.fleet.servers.filter fun r => r.ownerId = u))
  | .dashboard cached => .dashboard (cached.getD
      (Dashboard.dashboardData c.isoformat c.dashboard u s.fleet.servers s.fleet.metrics s.events))
  | .listAlertRules serverId => .rules (c.rules (listAlertRules u serverId s))
  | .getAlertRule ruleId =>
    match s.findRule u ruleId with
    | some r => .rule r
    | none => .notFound "Alert rule not found"
  | .listAlertEvents serverId ruleId limit =>
    .events ((c.events.sort (listAlertEvents u serverId ruleId s)).take limit)
  | .getAlertEvent eventId =>
    match s.events.find? fun e => e.id = eventId && ofRule u s.rules e with
    | some e => .event e
    | none => .notFound "Alert event not found"
  | .listServerMetrics serverId limit =>
    if owned u s.fleet.servers serverId then
      .metrics ((c.metrics.sort (s.fleet.metrics.filter fun m => m.serverId = serverId)).take limit)
    else .notFound "Server not found"
  | .listServerDockerMetrics serverId limit containerId =>
    if owned u s.fleet.servers serverId then
      .dockerMetrics ((c.dockerMetrics.sort (s.fleet.dockerMetrics.filter fun m =>
        m.serverId = serverId && containerId.all (· = m.containerId))).take limit)
    else .notFound "Server not found"

/-! ### The rows of a user -/

structure View where
  servers : List Server
  metrics : List (Metric PyFloat)
  dockerMetrics : List (DockerMetric PyFloat)
  rules : List AlertRule
  events : List AlertEvent

def view : View where
  servers := s.fleet.servers.filter fun r => r.ownerId = u
  metrics := s.fleet.metrics.filter fun m => owned u s.fleet.servers m.serverId
  dockerMetrics := s.fleet.dockerMetrics.filter fun m => owned u s.fleet.servers m.serverId
  rules := s.rules.filter fun r => r.ownerId = u
  events := s.events.filter fun e => owned u s.fleet.servers e.serverId

/- A database with the rows of the user alone. -/
def View.db (v : View) : Db :=
  { init 0 with
    fleet := { Fleet.init 0 with
      servers := v.servers, metrics := v.metrics, dockerMetrics := v.dockerMetrics }
    rules := v.rules, events := v.events }

end

/-! ### Answers come from the rows of the user -/

structure Kept (s : Db) : Prop where
  sound : (ledger s).Sound
  rules : (ledger s).Owned

section
variable {c : Choices} {u : ℕ} {s s' : Db}

theorem owned_iff {serverId : ℕ} : owned u s.fleet.servers serverId = true ↔ Owns s u serverId := by
  unfold owned Owns
  simp [List.any_eq_true]

theorem owned_own (servers : List Server) (serverId : ℕ) :
    owned u (servers.filter fun r => r.ownerId = u) serverId = owned u servers serverId := by
  unfold owned
  rw [List.any_filter]
  congr 1
  funext r
  by_cases h : r.ownerId = u <;> simp [h]

/- The event of a rule of the user is one of a server of the user. -/
theorem Kept.events (h : Kept s) {e : AlertEvent} (he : e ∈ s.events)
    (hr : ofRule u s.rules e = true) : owned u s.fleet.servers e.serverId = true := by
  obtain ⟨r, hr, hkey⟩ := List.any_eq_true.mp hr
  simp only [Bool.and_eq_true, decide_eq_true_eq] at hkey
  have hserver : r.serverId = e.serverId :=
    (h.sound.shown _ (List.mem_map_of_mem he)).2 (ruleKey r) (List.mem_map_of_mem hr) hkey.1.symm
  have howned := h.rules (ruleKey r) (List.mem_map_of_mem hr)
  rw [owned_iff, ← hserver, ← hkey.2]
  exact mem_servers.mp howned

theorem ofRule_own (rules : List AlertRule) (e : AlertEvent) :
    ofRule u (rules.filter fun r => r.ownerId = u) e = ofRule u rules e := by
  unfold ofRule
  rw [List.any_filter]
  congr 1
  funext r
  by_cases h : r.ownerId = u <;> simp [h]

/- Filtering with a condition the rows of the user meet loses none of them. -/
theorem filter_own {R : Type} {rows : List R} {p own : R → Bool}
    (h : ∀ r ∈ rows, p r = true → own r = true) : (rows.filter own).filter p = rows.filter p := by
  rw [List.filter_filter]
  refine List.filter_congr fun r hr => ?_
  cases hp : p r with
  | false => rfl
  | true => rw [h r hr hp, Bool.and_self]

theorem dashboard_own (servers : List Server) (metrics : List (Metric PyFloat))
    (events : List AlertEvent) :
    Dashboard.dashboardData c.isoformat c.dashboard u (servers.filter fun r => r.ownerId = u)
        (metrics.filter fun m => owned u servers m.serverId)
        (events.filter fun e => owned u servers e.serverId) =
      Dashboard.dashboardData c.isoformat c.dashboard u servers metrics events := by
  have hservers : (servers.filter fun r => decide (r.ownerId = u)).filter
      (fun r => decide (r.ownerId = u)) = servers.filter fun r => r.ownerId = u :=
    filter_own fun r _ hr => hr
  have hids : ∀ n, n ∈ (c.dashboard.scan (servers.filter fun r => r.ownerId = u)).map Server.id →
      owned u servers n = true := by
    intro n hn
    obtain ⟨r, hr, rfl⟩ := List.mem_map.mp hn
    obtain ⟨hmem, howner⟩ := List.mem_filter.mp ((c.dashboard.scan_perm _).mem_iff.mp hr)
    rw [owned, List.any_eq_true]
    exact ⟨r, hmem, by simpa using howner⟩
  generalize hscan : c.dashboard.scan (servers.filter fun r => r.ownerId = u) = scanned at hids
  have hmetrics : (metrics.filter fun m => owned u servers m.serverId).filter
      (fun m => decide (m.serverId ∈ scanned.map Server.id)) =
      metrics.filter fun m => m.serverId ∈ scanned.map Server.id :=
    filter_own fun m _ hm => hids m.serverId (of_decide_eq_true hm)
  have hevents : (events.filter fun e => owned u servers e.serverId).filter
      (fun e => decide (e.serverId ∈ scanned.map Server.id) && e.resolvedAt.isNone) =
      events.filter fun e => e.serverId ∈ scanned.map Server.id && e.resolvedAt.isNone :=
    filter_own fun e _ he => by
      rw [Bool.and_eq_true, decide_eq_true_eq] at he
      exact hids e.serverId he.1
  unfold Dashboard.dashboardData
  rw [hservers]
  simp only [hscan, hmetrics, hevents]

theorem find?_filter_own {R : Type} {rows : List R} {p own : R → Bool}
    (h : ∀ r ∈ rows, p r = true → own r = true) : (rows.filter own).find? p = rows.find? p := by
  rw [← List.head?_filter, filter_own h, List.head?_filter]

/- The answer is that of a database with nobody else in it. -/
theorem Kept.answer (h : Kept s) (c : Choices) (u : ℕ) (q : Query) :
    TenantIsolation.answer c u s q = TenantIsolation.answer c u (view u s).db q := by
  cases q with
  | listMyServers =>
    have hown : (s.fleet.servers.filter fun r => decide (r.ownerId = u)).filter
        (fun r => decide (r.ownerId = u)) = s.fleet.servers.filter fun r => r.ownerId = u :=
      filter_own fun r _ hr => hr
    exact congrArg (fun rows => Reply.servers (c.servers rows)) hown.symm
  | dashboard cached =>
    exact congrArg (fun rows => Reply.dashboard (cached.getD rows)) (dashboard_own _ _ _).symm
  | listAlertRules serverId =>
    have hown : listAlertRules u serverId (view u s).db = listAlertRules u serverId s :=
      filter_own fun r _ hr => by
        rw [Bool.and_eq_true] at hr
        exact hr.1
    simp only [TenantIsolation.answer, hown]
  | getAlertRule ruleId =>
    have hown : (view u s).db.findRule u ruleId = s.findRule u ruleId :=
      find?_filter_own fun r _ hr => by
        simp only [decide_eq_true_eq] at hr ⊢
        exact hr.2
    simp only [TenantIsolation.answer, hown]
  | listAlertEvents serverId ruleId limit =>
    have hown : listAlertEvents u serverId ruleId (view u s).db =
        listAlertEvents u serverId ruleId s := by
      have hrule : ∀ e : AlertEvent,
          ((view u s).db.rules.any fun r => e.ruleId = r.id && r.ownerId = u) =
            s.rules.any fun r => e.ruleId = r.id && r.ownerId = u := fun e => ofRule_own s.rules e
      unfold listAlertEvents
      simp only [hrule]
      refine filter_own fun e he hp => ?_
      rw [Bool.and_eq_true, Bool.and_eq_true] at hp
      exact h.events he hp.1.1
    simp only [TenantIsolation.answer, hown]
  | getAlertEvent eventId =>
    have hown : ((view u s).db.events.find? fun e =>
        e.id = eventId && ofRule u (view u s).db.rules e) =
        s.events.find? fun e => e.id = eventId && ofRule u s.rules e := by
      have hrule : ∀ e, ofRule u (view u s).db.rules e = ofRule u s.rules e :=
        fun e => ofRule_own s.rules e
      simp only [hrule]
      refine find?_filter_own fun e he hp => ?_
      rw [Bool.and_eq_true] at hp
      exact h.events he hp.2
    simp only [TenantIsolation.answer, hown]
  | listServerMetrics serverId limit =>
    have hserver : owned u (view u s).db.fleet.servers serverId =
        owned u s.fleet.servers serverId := owned_own _ _
    simp only [TenantIsolation.answer, hserver]
    split
    · next hin =>
      have hown : ((view u s).db.fleet.metrics.filter fun m => m.serverId = serverId) =
          s.fleet.metrics.filter fun m => m.serverId = serverId :=
        filter_own fun m _ hm => by
          rw [of_decide_eq_true hm]
          exact hin
      rw [hown]
    · rfl
  | listServerDockerMetrics serverId limit containerId =>
    have hserver : owned u (view u s).db.fleet.servers serverId =
        owned u s.fleet.servers serverId := owned_own _ _
    simp only [TenantIsolation.answer, hserver]
    split
    · next hin =>
      have hown : ((view u s).db.fleet.dockerMetrics.filter fun m =>
          m.serverId = serverId && containerId.all (· = m.containerId)) =
          s.fleet.dockerMetrics.filter fun m =>
            m.serverId = serverId && containerId.all (· = m.containerId) :=
        filter_own fun m _ hm => by
          rw [Bool.and_eq_true, decide_eq_true_eq] at hm
          rw [hm.1]
          exact hin
      rw [hown]
    · rfl

end

/-! ### The requests of others -/

/- A rule the dialog inserts goes to the owner of its server. -/
def proper (s : Db) : Label → Bool
  | .confirm ownerId draft =>
    (s.addRule (draft.rule s.nextRule ownerId)).isNone ||
      owned ownerId s.fleet.servers (draft.rule s.nextRule ownerId).serverId
  | _ => true

/- The server of a request in flight. -/
def target : Fleet.Request → Option ℕ
  | .verified server _ _ => some server.id
  | .editing server _ => some server.id
  | _ => none

def evaluated : Evaluation → Option ℕ
  | .decided reading _ _ _ => some reading.serverId
  | _ => none

def elsewhere (u : ℕ) (s : Db) (serverId : Option ℕ) : Bool :=
  serverId.all fun id => !owned u s.fleet.servers id

/- Neither a request of the user, nor one about a server of his, nor a periodic task. -/
def foreign (u : ℕ) (s : Db) : Label → Bool
  | .fleet (.register _ ownerId _ _ _) => ownerId ≠ u
  | .fleet (.save i) => elsewhere u s (target (s.fleet.requests i))
  | .fleet (.heartbeat _) => false
  | .fleet _ => true
  | .store i => elsewhere u s (target (s.fleet.requests i))
  | .load _ => true
  | .commit i => elsewhere u s (evaluated (s.evaluations i))
  | .fail _ => true
  | .create ownerId _ => ownerId ≠ u
  | .patch ownerId _ _ => ownerId ≠ u
  | .delete ownerId _ => ownerId ≠ u
  | .confirm ownerId _ => ownerId ≠ u
  | .toggle ownerId _ => ownerId ≠ u
  | .deleteServer ownerId _ => ownerId ≠ u
  | .resolve _ _ _ => false

/-! ### The tables stay in order -/

section
variable {cr : Crypto} {floatStr : PyFloat → String} {attrs : Attributes} {u : ℕ} {s s' : Db}

theorem Kept.init (now : Instant) : Kept (Alerts.init now) :=
  ⟨(TelegramBot.Inv.init now).sound, fun r hr => by cases hr⟩

theorem Kept.removeServer (h : Kept s) (serverId : ℕ) : Kept (s.removeServer serverId) := by
  obtain ⟨events, hsub, hledger⟩ := TelegramBot.ledger_removeServer s serverId
  refine ⟨?_, ?_⟩
  · rw [hledger]
    exact h.sound.dropServer serverId hsub
  · rw [hledger]
    exact h.rules.dropServer serverId events

theorem Kept.step {l : Label} (h : Kept s) (hok : proper s l = true)
    (hs : Alerts.step cr floatStr attrs s l = some s') : Kept s' := by
  cases hbot : TelegramBot.ofBot l with
  | false =>
    have hm := step_ledger h.sound hbot hs
    exact ⟨h.sound.move hm, h.rules.move hm⟩
  | true =>
    cases l with
    | confirm ownerId draft =>
      obtain rfl := Option.some.inj hs
      unfold confirmDraft
      cases hadd : s.addRule (draft.rule s.nextRule ownerId) with
      | none => exact h
      | some t =>
        obtain ⟨hledger, owner, hserver⟩ := addRule_ledger rfl hadd
        simp only [proper, hadd, Option.isNone_some, Bool.false_or] at hok
        have hown := mem_servers.mpr (owned_iff.mp hok)
        refine ⟨?_, ?_⟩
        · rw [Option.getD_some, hledger]
          exact h.sound.confirm hserver
        · rw [Option.getD_some, hledger]
          exact h.rules.confirm hown
    | toggle ownerId ruleId =>
      obtain rfl := Option.some.inj hs
      have hledger := TelegramBot.handleToggle_ledger h.sound ownerId ruleId
      refine ⟨?_, ?_⟩
      · rw [hledger]
        exact h.sound
      · rw [hledger]
        exact h.rules
    | deleteServer ownerId serverId =>
      obtain rfl := Option.some.inj hs
      unfold handleDelete
      split
      · exact h.removeServer serverId
      · exact h
    | _ => cases hbot

/-! ### The rows of a user under one step -/

theorem Kept.owner_unique (h : Kept s) {v serverId : ℕ} (hu : Owns s u serverId)
    (hv : Owns s v serverId) : v = u :=
  (h.sound.vouched (mem_servers.mpr hu)).2 v (mem_servers.mpr hv)

theorem Kept.owns_of_rule (h : Kept s) {r : AlertRule} (hr : r ∈ s.rules) (howner : r.ownerId = u) :
    Owns s u r.serverId :=
  howner ▸ mem_servers.mp (h.rules (ruleKey r) (List.mem_map_of_mem hr))

theorem Kept.rule_unique (h : Kept s) {r q : AlertRule} (hr : r ∈ s.rules) (hq : q ∈ s.rules)
    (hid : r.id = q.id) : ruleKey r = ruleKey q :=
  List.inj_on_of_nodup_map h.sound.ruleIds (List.mem_map_of_mem hr) (List.mem_map_of_mem hq) hid

/- The rows of the user are those of the state before. -/
theorem view_eq
    (hservers : s'.fleet.servers.filter (fun r => r.ownerId = u) =
      s.fleet.servers.filter fun r => r.ownerId = u)
    (hmetrics : s'.fleet.metrics.filter (fun m => owned u s.fleet.servers m.serverId) =
      s.fleet.metrics.filter fun m => owned u s.fleet.servers m.serverId)
    (hdocker : s'.fleet.dockerMetrics.filter (fun m => owned u s.fleet.servers m.serverId) =
      s.fleet.dockerMetrics.filter fun m => owned u s.fleet.servers m.serverId)
    (hrules : s'.rules.filter (fun r => r.ownerId = u) = s.rules.filter fun r => r.ownerId = u)
    (hevents : s'.events.filter (fun e => owned u s.fleet.servers e.serverId) =
      s.events.filter fun e => owned u s.fleet.servers e.serverId) : view u s' = view u s := by
  have howned : ∀ n, owned u s'.fleet.servers n = owned u s.fleet.servers n := by
    intro n
    rw [← owned_own s'.fleet.servers, hservers, owned_own]
  unfold view
  simp only [howned, hservers, hmetrics, hdocker, hrules, hevents]

theorem not_owns {serverId : Option ℕ} {id : ℕ} (h : elsewhere u s serverId = true)
    (hid : serverId = some id) : ¬ Owns s u id := by
  rw [hid, elsewhere, Option.all_some, Bool.not_eq_true'] at h
  rw [← owned_iff, h]
  exact Bool.false_ne_true

theorem not_owned {serverId : ℕ} (h : ¬ Owns s u serverId) :
    owned u s.fleet.servers serverId = false := by
  rw [← Bool.not_eq_true, owned_iff]
  exact h

/- Rewriting rows the filter has no use for. -/
theorem filter_map_own {R : Type} {rows : List R} {f : R → R} {own : R → Bool}
    (h : ∀ r ∈ rows, own (f r) = own r ∧ (own r = true → f r = r)) :
    (rows.map f).filter own = rows.filter own := by
  induction rows with
  | nil => rfl
  | cons r rows ih =>
    obtain ⟨hown, hsame⟩ := h r List.mem_cons_self
    have hrest := ih fun q hq => h q (List.mem_cons_of_mem r hq)
    rw [List.map_cons, List.filter_cons, List.filter_cons, hown, hrest]
    cases hr : own r with
    | false => rfl
    | true => rw [if_pos rfl, if_pos rfl, hsame hr]

/- New rows the filter has no use for. -/
theorem filter_append_own {R : Type} {new rows : List R} {own : R → Bool}
    (h : ∀ r ∈ new, own r = false) : (new ++ rows).filter own = rows.filter own := by
  have hnone : new.filter own = [] := by
    rw [List.filter_eq_nil_iff]
    intro r hr
    rw [h r hr]
    exact Bool.false_ne_true
  rw [List.filter_append, hnone, List.nil_append]

theorem updateServer_own {id : ℕ} {f : Server → Server} (hf : ∀ r, (f r).ownerId = r.ownerId)
    (hid : ¬ Owns s u id) :
    (Fleet.updateServer id f s.fleet.servers).filter (fun r => r.ownerId = u) =
      s.fleet.servers.filter fun r => r.ownerId = u := by
  unfold Fleet.updateServer
  refine filter_map_own fun r hr => ?_
  split
  · next heq =>
    refine ⟨by rw [hf], fun howner => ?_⟩
    exact absurd ⟨r, hr, heq, of_decide_eq_true howner⟩ hid
  · exact ⟨rfl, fun _ => rfl⟩

theorem putRule_own (h : Kept s) {row r : AlertRule} (hr : r ∈ s.rules) (hne : r.ownerId ≠ u)
    (hkey : ruleKey row = ruleKey r) :
    (s.putRule row).rules.filter (fun r => r.ownerId = u) =
      s.rules.filter fun r => r.ownerId = u := by
  refine filter_map_own fun q hq => ?_
  split
  · next hid =>
    have hrow : row.id = r.id := congrArg RuleKey.id hkey
    have hrowner : row.ownerId = r.ownerId := congrArg RuleKey.ownerId hkey
    have hqr := congrArg RuleKey.ownerId (h.rule_unique hq hr (hid.trans hrow))
    have hqowner : q.ownerId = r.ownerId := hqr
    rw [hrowner, hqowner]
    exact ⟨rfl, fun howner => absurd (of_decide_eq_true howner) hne⟩
  · exact ⟨rfl, fun _ => rfl⟩

/- `AlertRule.owner_id == user.id` of somebody else's lookup. -/
theorem found_foreign {ownerId ruleId : ℕ} {r : AlertRule} (h : s.findRule ownerId ruleId = some r)
    (hne : ownerId ≠ u) : r.ownerId ≠ u := by
  have hkey := List.find?_some h
  simp only [decide_eq_true_eq] at hkey
  rw [hkey.2]
  exact hne

theorem view_putRule (h : Kept s) {row r : AlertRule} (hr : r ∈ s.rules) (hne : r.ownerId ≠ u)
    (hkey : ruleKey row = ruleKey r) : view u (s.putRule row) = view u s :=
  view_eq rfl rfl rfl (putRule_own h hr hne hkey) rfl

theorem view_addRule {t : Db} {rule : AlertRule} (hne : rule.ownerId ≠ u)
    (h : s.addRule rule = some t) : view u t = view u s := by
  obtain ⟨row, hrow, -, rfl⟩ := addRule_inv h
  have howner : row.ownerId = rule.ownerId := congrArg RuleKey.ownerId (flushRule_key hrow)
  refine view_eq rfl rfl rfl ?_ rfl
  exact List.filter_cons_of_neg (by rw [howner, decide_eq_true_eq]; exact hne)

/- Deleting rules of somebody else takes their events only. -/
theorem view_removeRules (h : Kept s) {gone : AlertRule → Bool}
    (hgone : ∀ r ∈ s.rules, gone r = true → r.ownerId ≠ u) :
    view u (s.removeRules gone) = view u s := by
  refine view_eq rfl rfl rfl ?_ ?_
  · show (s.rules.filter fun r => !gone r).filter (fun r => decide (r.ownerId = u)) = _
    refine filter_own fun r hr howner => ?_
    cases hg : gone r with
    | false => rfl
    | true => exact absurd (of_decide_eq_true howner) (hgone r hr hg)
  · show (s.events.filter fun e => !(s.rules.any fun r => r.id = e.ruleId && gone r)).filter _ = _
    refine filter_own fun e he howned => ?_
    rw [Bool.not_eq_true', List.any_eq_false]
    intro r hr hkey
    simp only [Bool.and_eq_true, decide_eq_true_eq] at hkey
    have hserver : r.serverId = e.serverId := (h.sound.shown _ (List.mem_map_of_mem he)).2
      (ruleKey r) (List.mem_map_of_mem hr) hkey.1
    have hrule := h.owns_of_rule hr rfl
    rw [hserver] at hrule
    exact hgone r hr hkey.2 (h.owner_unique (owned_iff.mp howned) hrule)

theorem view_removeServer (h : Kept s) {serverId : ℕ} (hid : ¬ Owns s u serverId) :
    view u (s.removeServer serverId) = view u s := by
  have hgone : ∀ r ∈ s.rules, decide (r.serverId = serverId) = true → r.ownerId ≠ u :=
    fun r hr hserver howner => hid (of_decide_eq_true hserver ▸ h.owns_of_rule hr howner)
  have hne : ∀ n, owned u s.fleet.servers n = true → decide (n ≠ serverId) = true := by
    intro n hn
    rw [decide_eq_true_eq]
    intro heq
    exact hid (heq ▸ owned_iff.mp hn)
  rw [← view_removeRules h hgone]
  refine view_eq ?_ ?_ ?_ rfl ?_
  · refine filter_own fun r hr howner => hne r.id ?_
    rw [owned, List.any_eq_true]
    exact ⟨r, hr, by simpa using howner⟩
  · exact filter_own fun m _ hm => hne m.serverId hm
  · exact filter_own fun m _ hm => hne m.serverId hm
  · exact filter_own fun e _ he => hne e.serverId he

theorem dockerRows_server (serverId : ℕ) (startedAt : Instant) (id : ℕ)
    (data : List DockerMetricCreate) :
    ∀ m ∈ Fleet.dockerRows serverId startedAt id data, m.serverId = serverId := by
  induction data generalizing id with
  | nil =>
    intro m hm
    cases hm
  | cons item items ih =>
    intro m hm
    rcases List.mem_cons.mp hm with rfl | hm
    · rfl
    · exact ih (id + 1) m hm

/- A sample of somebody else's server. -/
theorem view_stored {server : Server} {startedAt : Instant} {body : Fleet.Submission}
    {fleet : Fleet.Sys} (hid : ¬ Owns s u server.id)
    (h : Fleet.storeSubmission s.fleet server startedAt body = some fleet) :
    view u { s with fleet } = view u s := by
  obtain ⟨version, hservers, -⟩ := Fleet.storeSubmission_row h
  have hown : fleet.servers.filter (fun r => r.ownerId = u) =
      s.fleet.servers.filter fun r => r.ownerId = u := by
    rw [hservers]
    exact updateServer_own (fun _ => rfl) hid
  have hnot := not_owned hid
  cases body with
  | metric data =>
    obtain ⟨version?, -, rfl⟩ := Option.map_eq_some_iff.mp h
    refine view_eq hown ?_ rfl rfl rfl
    exact List.filter_cons_of_neg (by rw [hnot]; exact Bool.false_ne_true)
  | docker data =>
    simp only [Fleet.storeSubmission, Fleet.storeDocker] at h
    split at h
    · obtain rfl := Option.some.inj h
      refine view_eq hown rfl ?_ rfl rfl
      refine filter_append_own fun m hm => ?_
      rw [dockerRows_server _ _ _ _ m hm]
      exact hnot
    · cases h

theorem insertEvents_server {reading : Threshold.Reading} {createdAt : Instant} {id : ℕ}
    {pending : List Threshold.Pending} {new : List AlertEvent}
    (h : s.insertEvents reading createdAt id pending = some new) :
    ∀ e ∈ new, e.serverId = reading.serverId := by
  intro e he
  have hkey : eventKey e ∈ pending.map fun p => (p.rule.id, reading.serverId) :=
    insertEvents_keys h ▸ List.mem_map_of_mem he
  obtain ⟨p, -, hp⟩ := List.mem_map.mp hkey
  exact (congrArg Prod.snd hp).symm

/- A rule of the user is none of those that fired on somebody else's server. -/
theorem trigger_own (h : Kept s) {i : ℕ} {reading : Threshold.Reading} {evaluatedAt : Instant}
    {pending : List Threshold.Pending} {rest : List Threshold.Reading}
    (hi : s.evaluations i = .decided reading evaluatedAt pending rest)
    (hid : ¬ Owns s u reading.serverId) :
    (s.rules.map (trigger evaluatedAt pending)).filter (fun r => r.ownerId = u) =
      s.rules.filter fun r => r.ownerId = u := by
  refine filter_map_own fun r hr => ?_
  have howner : (trigger evaluatedAt pending r).ownerId = r.ownerId := by
    unfold trigger
    split <;> rfl
  refine ⟨by rw [howner], fun hu => ?_⟩
  unfold trigger
  split
  · next hany =>
    obtain ⟨p, hp, hpid⟩ := List.any_eq_true.mp hany
    have hpending : (p.rule.id, reading.serverId) ∈ (ledger s).pending i := by
      simp only [ledger, hi, pendingKeys]
      exact List.mem_map_of_mem hp
    have hserver : r.serverId = reading.serverId := (h.sound.about i _ hpending).2 (ruleKey r)
      (List.mem_map_of_mem hr) (of_decide_eq_true hpid).symm
    exact absurd (hserver ▸ h.owns_of_rule hr (of_decide_eq_true hu)) hid
  · rfl

theorem view_fleetStep {l : Fleet.Label} (hf : foreign u s (.fleet l) = true)
    (hs : fleetStep cr s l = some s') : view u s' = view u s := by
  obtain ⟨hrules, hevents, -, -, hmetrics, hdocker⟩ := fleetStep_rows hs
  have hview : s'.fleet.servers.filter (fun r => r.ownerId = u) =
      s.fleet.servers.filter (fun r => r.ownerId = u) → view u s' = view u s := by
    intro hservers
    exact view_eq hservers (by rw [hmetrics]) (by rw [hdocker]) (by rw [hrules]) (by rw [hevents])
  apply hview
  unfold fleetStep at hs
  split at hs
  · cases hs
  · next hstore =>
    obtain ⟨fleet, hfleet, rfl⟩ := Option.map_eq_some_iff.mp hs
    cases l with
    | save i =>
      simp only [Fleet.step] at hfleet
      split at hfleet
      · next server value hi =>
        have hid : ¬ Owns s u server.id := not_owns hf (by rw [hi]; rfl)
        split at hfleet
        · obtain rfl := Option.some.inj hfleet
          rfl
        · obtain rfl := Option.some.inj hfleet
          exact updateServer_own (fun _ => rfl) hid
      · next server secret salt hi =>
        have hid : ¬ Owns s u server.id := not_owns hf (by rw [hi]; rfl)
        split at hfleet
        · obtain rfl := Option.some.inj hfleet
          exact updateServer_own (fun _ => rfl) hid
        · obtain rfl := Option.some.inj hfleet
          rfl
      · cases hfleet
    | register i ownerId name secret salt =>
      cases Fleet.step_written hfleet with
      | same hservers => exact congrArg _ hservers
      | registered r hid howner hactive hservers =>
        have hne : ¬ decide (r.ownerId = u) = true := by
          rw [decide_eq_true_eq, howner]
          exact of_decide_eq_true hf
        have hfilter := List.filter_cons_of_neg (p := fun r : Server => decide (r.ownerId = u))
          (l := s.fleet.servers) hne
        rw [← hservers] at hfilter
        exact hfilter
    | heartbeat startedAt => cases hf
    | store i => exact absurd rfl (hstore i)
    | _ =>
      cases Fleet.step_written hfleet with
      | same hservers => exact congrArg _ hservers

/- What others do is not in the view. -/
theorem Kept.view_step {l : Label} (h : Kept s) (hf : foreign u s l = true)
    (hs : Alerts.step cr floatStr attrs s l = some s') : view u s' = view u s := by
  cases l with
  | fleet l => exact view_fleetStep hf hs
  | store i =>
    simp only [Alerts.step, storeIngest] at hs
    split at hs
    · next server startedAt body hreq =>
      have hid : ¬ Owns s u server.id := not_owns hf (by rw [hreq]; rfl)
      split at hs
      · split at hs
        · next fleet hstore =>
          obtain rfl := Option.some.inj hs
          have hview : view u { s with fleet } = view u s := view_stored hid hstore
          exact hview
        · obtain rfl := Option.some.inj hs
          rfl
      · obtain rfl := Option.some.inj hs
        rfl
    · cases hs
  | load i =>
    simp only [Alerts.step, loadEvaluation] at hs
    split at hs
    · obtain rfl := Option.some.inj hs
      rfl
    · cases hs
  | commit i =>
    simp only [Alerts.step, commitEvaluation] at hs
    split at hs
    · next reading evaluatedAt pending rest hi =>
      have hid : ¬ Owns s u reading.serverId := not_owns hf (by rw [hi]; rfl)
      split at hs
      · next new hnew =>
        obtain rfl := Option.some.inj hs
        refine view_eq rfl rfl rfl (trigger_own h hi hid) ?_
        refine filter_append_own fun e he => ?_
        rw [insertEvents_server hnew e he]
        exact not_owned hid
      · obtain rfl := Option.some.inj hs
        rfl
    · cases hs
  | fail i =>
    simp only [Alerts.step] at hs
    split at hs
    · cases hs
    · obtain rfl := Option.some.inj hs
      rfl
  | create ownerId body =>
    obtain rfl := Option.some.inj hs
    unfold createAlertRule
    split
    · rfl
    · next data hdata =>
      split
      · split
        · next t ht =>
          have hne : (newRule s.nextRule ownerId data).ownerId ≠ u := of_decide_eq_true hf
          exact view_addRule hne ht
        · rfl
      · rfl
  | patch ownerId ruleId body =>
    obtain rfl := Option.some.inj hs
    unfold updateAlertRule
    split
    · rfl
    · split
      · rfl
      · next r hr =>
        split
        · next row hrow =>
          have hne := found_foreign hr (of_decide_eq_true hf)
          exact view_putRule h (findRule_mem hr) hne (updateRule_key hrow)
        · rfl
  | delete ownerId ruleId =>
    obtain rfl := Option.some.inj hs
    unfold deleteAlertRule
    split
    · rfl
    · next r hr =>
      refine view_removeRules h fun q hq hid => ?_
      have hkey := congrArg RuleKey.ownerId
        (h.rule_unique hq (findRule_mem hr) (of_decide_eq_true hid))
      have howner : q.ownerId = r.ownerId := hkey
      rw [howner]
      exact found_foreign hr (of_decide_eq_true hf)
  | confirm ownerId draft =>
    obtain rfl := Option.some.inj hs
    unfold confirmDraft
    cases hadd : s.addRule (draft.rule s.nextRule ownerId) with
    | none => rfl
    | some t =>
      have hne : (draft.rule s.nextRule ownerId).ownerId ≠ u := of_decide_eq_true hf
      exact view_addRule hne hadd
  | toggle ownerId ruleId =>
    obtain rfl := Option.some.inj hs
    unfold handleToggle
    split
    · rfl
    · next r hr =>
      have hne := found_foreign hr (of_decide_eq_true hf)
      exact view_putRule h (findRule_mem hr) hne rfl
  | deleteServer ownerId serverId =>
    obtain rfl := Option.some.inj hs
    unfold handleDelete
    split
    · next hany =>
      refine view_removeServer h fun hu => ?_
      exact of_decide_eq_true hf (h.owner_unique hu (owned_iff.mp hany))
    · rfl
  | resolve reads now₁ now₂ => cases hf

/-! ### Whole runs -/

/-- However the requests of others interleave, and whatever their agents send, every
answer to the user stays as it was, as long as nothing of his and no periodic task
runs and the bot's dialog gives each rule to the owner of its server. -/
theorem answers_unchanged_by_others (c : Choices) {now : Instant} {ls ms : List Label}
    (hls : Along (Alerts.step cr floatStr attrs) (fun t l => proper t l = true)
      (Alerts.init now) ls)
    (hr : run (Alerts.step cr floatStr attrs) (Alerts.init now) ls = some s)
    (hms : Along (Alerts.step cr floatStr attrs)
      (fun t l => proper t l = true ∧ foreign u t l = true) s ms)
    (hr' : run (Alerts.step cr floatStr attrs) s ms = some s') (q : Query) :
    answer c u s' q = answer c u s q := by
  have hkept : Kept s := run_invariant Kept (fun t l => proper t l = true)
    (fun _ _ _ h hok hs => h.step hok hs) (Kept.init now) hls hr
  have hinv : Kept s' ∧ view u s' = view u s := by
    refine run_invariant (fun t => Kept t ∧ view u t = view u s)
      (fun t l => proper t l = true ∧ foreign u t l = true) ?_ ⟨hkept, rfl⟩ hms hr'
    intro t l t' ht hok hs
    exact ⟨ht.1.step hok.1 hs, (ht.1.view_step hok.2 hs).trans ht.2⟩
  rw [hinv.1.answer, hinv.2, ← hkept.answer]

end

/- User 1 has a server with an open alert. -/
def aliceAlone : List Label :=
  [.fleet (.register 0 1 "web" "pwk_agent" "$2b$12$KeyKeyKeyKeyKeyKeyKeyu"),
    .create 1 (cpuBody 1)] ++
  sample 1 1 90 ++ [.commit 1]

/- User 2 moves in, fires an alert of his own, points the rule elsewhere and deletes it. -/
def bobMovesIn : List Label :=
  [.fleet (.register 2 2 "db" "pwk_agent" "$2b$12$KeyKeyKeyKeyKeyKeyKeyu"),
    .create 2 (cpuBody 2)] ++
  sample 3 2 90 ++ [.commit 3, .toggle 2 2, .patch 2 1 { name := some (some "hers") }]

def firstSeen : Choices where
  isoformat at' := toString at'
  dashboard := default
  servers := id
  rules := id
  events := mergeSorter _
  metrics := mergeSorter _
  dockerMetrics := mergeSorter _

theorem neighbour_unnoticed :
    ∃ s s', run (Alerts.step tabledCrypto Threshold.tabledFloatStr plainAttributes)
        (Alerts.init 0) aliceAlone = some s ∧
      run (Alerts.step tabledCrypto Threshold.tabledFloatStr plainAttributes) s bobMovesIn =
        some s' ∧
      (s.events.map AlertEvent.ruleId, s'.events.map AlertEvent.ruleId) = ([1], [2, 1]) ∧
      ∀ q, answer firstSeen 1 s' q = answer firstSeen 1 s q := by
  have hevents : ((run (Alerts.step tabledCrypto Threshold.tabledFloatStr plainAttributes)
        (Alerts.init 0) aliceAlone).bind fun s =>
      (run (Alerts.step tabledCrypto Threshold.tabledFloatStr plainAttributes) s bobMovesIn).map
        fun s' => (s.events.map AlertEvent.ruleId, s'.events.map AlertEvent.ruleId)) =
      some ([1], [2, 1]) := by decide
  have halong : ((run (Alerts.step tabledCrypto Threshold.tabledFloatStr plainAttributes)
        (Alerts.init 0) aliceAlone).map fun s =>
      decide (Along (Alerts.step tabledCrypto Threshold.tabledFloatStr plainAttributes)
        (fun t l => proper t l = true ∧ foreign 1 t l = true) s bobMovesIn)) = some true := by
    decide
  obtain ⟨s, hs, hevents⟩ := Option.bind_eq_some_iff.mp hevents
  obtain ⟨s', hs', hevents⟩ := Option.map_eq_some_iff.mp hevents
  rw [hs, Option.map_some, Option.some.injEq, decide_eq_true_eq] at halong
  exact ⟨s, s', hs, hs', hevents,
    answers_unchanged_by_others firstSeen (by decide) hs halong hs'⟩

end PulseWatch.TenantIsolation
