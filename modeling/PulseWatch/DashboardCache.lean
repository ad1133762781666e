import PulseWatch.AlertRules
import PulseWatch.Dashboard
import PulseWatch.Lib.Runs
import PulseWatch.RedisClient

/-!
# The cached dashboard (`app/api/servers.py`)

`dashboard` answers from Redis for ten seconds after somebody has computed the list of
this user. A request that finds nothing runs its queries one after the other, each in a
snapshot of its own, and writes the list back; no commit removes it. Errors of Redis
count as a miss, and a write that fails is given up. The awaits of all requests and the
commits of everything else interleave.
-/

namespace PulseWatch.DashboardCache
open Runs ExpiringStore RedisClient Alerts Dashboard

abbrev Info := ServerInfo PyFloat

/-! ### The queries of the handler -/

section
variable (isoformat : Instant → String) (db : Database PyFloat)

def selectServers (userId : ℕ) (servers : List Server) : List Server :=
  db.scan (servers.filter fun r => r.ownerId = userId)

def latestMetrics (serverIds : List ℕ) (metrics : List (Metric PyFloat)) :
    ℕ → Option (LatestMetric PyFloat) :=
  GroupBy.toDict ((GroupBy.firsts (db.numbering.number
    (metrics.filter fun m => m.serverId ∈ serverIds))).map
      fun m => (m.serverId, latestMetric isoformat m))

def openAlerts (serverIds : List ℕ) (events : List AlertEvent) : ℕ → Option ℕ :=
  GroupBy.toDict (db.grouping.group
    (events.filter fun e => e.serverId ∈ serverIds && e.resolvedAt.isNone))

/- The loop over the servers. -/
def build (servers : List Server) (latestMetrics : ℕ → Option (LatestMetric PyFloat))
    (openAlerts : ℕ → Option ℕ) : List Info :=
  servers.map fun server =>
    { id := server.id
      name := server.name
      isActive := server.isActive
      lastSeenAt := server.lastSeenAt.map isoformat
      agentVersion := server.agentVersion
      openAlertsCount := (openAlerts server.id).getD 0
      latestMetric := latestMetrics server.id }

/- Without servers there are no further queries. -/
theorem build_queries (userId : ℕ) (servers : List Server) (metrics : List (Metric PyFloat))
    (events : List AlertEvent) :
    build isoformat (selectServers db userId servers)
        (latestMetrics isoformat db ((selectServers db userId servers).map Server.id) metrics)
        (openAlerts db ((selectServers db userId servers).map Server.id) events) =
      dashboardData isoformat db userId servers metrics events := by
  by_cases h : (selectServers db userId servers).map Server.id = []
  · have hnone : selectServers db userId servers = [] := List.map_eq_nil_iff.mp h
    have hscan : db.scan (servers.filter fun r => r.ownerId = userId) = [] := hnone
    simp only [dashboardData, hnone, hscan, build, List.map_nil]
  · have hids : ¬ (db.scan (servers.filter fun r => r.ownerId = userId)).map Server.id = [] := h
    simp only [dashboardData, if_neg hids]
    rfl

end

/-! ### Requests -/

/- What a request holds between two awaits. -/
inductive Place where
  | idle
  | missed (userId : ℕ)
  | selected (userId : ℕ) (servers : List Server)
  | measured (userId : ℕ) (servers : List Server)
      (latestMetrics : ℕ → Option (LatestMetric PyFloat))
  | built (userId : ℕ) (dashboardData : List Info)
  | answered (userId : ℕ) (rows : List Info) (answeredAt : ℕ)

/- `now` is the clock of Redis, in milliseconds; of its keys the store has the
dashboards, their JSON parsed. -/
structure Sys where
  db : Db
  now : ℕ
  redis : Store RedisKey (List Info) ℕ
  requests : ℕ → Place

def start (db : Db) (now : ℕ) : Sys := ⟨db, now, [], fun _ => .idle⟩

/- `commit` is what any other request or task makes of the tables. `down` says that the
GET raises, `stored` whether the SET was carried out. -/
inductive Label where
  | commit (db : Db)
  | tick (milliseconds : ℕ)
  | evict (userId : ℕ)
  | look (i userId : ℕ) (down : Bool)
  | selectServers (i : ℕ)
  | selectMetrics (i : ℕ)
  | selectAlerts (i : ℕ)
  | cache (i : ℕ) (stored : Bool)

def Sys.goto (s : Sys) (i : ℕ) (p : Place) : Sys :=
  { s with requests := Function.update s.requests i p }

def getCachedDashboard (s : Sys) (userId : ℕ) : Option (List Info) :=
  get? s.now (.dashboard userId) s.redis

/-- `ttl=10`. -/
def cacheDashboard (s : Sys) (userId : ℕ) (rows : List Info) : Sys :=
  { s with redis := set (.dashboard userId) rows (expiry s.now 10) s.redis }

section
variable (isoformat : Instant → String) (db : Database PyFloat)

def step (s : Sys) : Label → Option Sys
  | .commit db => some { s with db }
  | .tick milliseconds => some { s with now := s.now + milliseconds }
  | .evict userId => some { s with redis := del (.dashboard userId) s.redis }
  | .look i userId down =>
    match s.requests i with
    | .idle =>
      match if down then none else getCachedDashboard s userId with
      | some rows => some (s.goto i (.answered userId rows s.now))
      | none => some (s.goto i (.missed userId))
    | _ => none
  | .selectServers i =>
    match s.requests i with
    | .missed userId =>
      match selectServers db userId s.db.fleet.servers with
      | [] => some (s.goto i (.built userId []))
      | servers => some (s.goto i (.selected userId servers))
    | _ => none
  | .selectMetrics i =>
    match s.requests i with
    | .selected userId servers => some (s.goto i (.measured userId servers
        (latestMetrics isoformat db (servers.map Server.id) s.db.fleet.metrics)))
    | _ => none
  | .selectAlerts i =>
    match s.requests i with
    | .measured userId servers latest => some (s.goto i (.built userId
        (build isoformat servers latest (openAlerts db (servers.map Server.id) s.db.events))))
    | _ => none
  | .cache i stored =>
    match s.requests i with
    | .built userId rows =>
      let t := s.goto i (.answered userId rows s.now)
      some (if stored then cacheDashboard t userId rows else t)
    | _ => none

end

/-! ### Where the rows are from -/

section
variable (isoformat : Instant → String) (db : Database PyFloat) (init : Sys) (ls : List Label)
  (i userId : ℕ)

/- What request `i` has read by one query, by two, and by all of them. -/
def Selected (servers : List Server) : Prop :=
  Took (step isoformat db) init ls fun _ s l =>
    l = .selectServers i ∧ servers = selectServers db userId s.db.fleet.servers

def Measured (servers : List Server) (latest : ℕ → Option (LatestMetric PyFloat)) : Prop :=
  Took (step isoformat db) init ls fun p s l => l = .selectMetrics i ∧
    Selected isoformat db init p i userId servers ∧
      latest = latestMetrics isoformat db (servers.map Server.id) s.db.fleet.metrics

def Loaded (rows : List Info) : Prop :=
  (rows = [] ∧ Selected isoformat db init ls i userId []) ∨
    Took (step isoformat db) init ls fun p s l => l = .selectAlerts i ∧ ∃ servers latest,
      Measured isoformat db init p i userId servers latest ∧
        rows = build isoformat servers latest (openAlerts db (servers.map Server.id) s.db.events)

/- The SET of a request that had read the rows, ten seconds before the deadline. -/
def Cached (rows : List Info) (deadline : ℕ) : Prop :=
  ∃ j, Took (step isoformat db) init ls fun p s l => l = .cache j true ∧
    Loaded isoformat db init p j userId rows ∧ deadline = expiry s.now 10

def Given (rows : List Info) (answeredAt : ℕ) : Prop :=
  Loaded isoformat db init ls i userId rows ∨
    ∃ j, Took (step isoformat db) init ls fun p s l => l = .cache j true ∧
      Loaded isoformat db init p j userId rows ∧ s.now ≤ answeredAt ∧
        answeredAt ≤ expiry s.now 10

/- What a request holds, it has read. -/
def Held : Place → Prop
  | .idle => True
  | .missed _ => True
  | .selected userId servers => Selected isoformat db init ls i userId servers
  | .measured userId servers latest => Measured isoformat db init ls i userId servers latest
  | .built userId rows => Loaded isoformat db init ls i userId rows
  | .answered userId rows answeredAt => Given isoformat db init ls i userId rows answeredAt

structure Traced (s : Sys) : Prop where
  requests : ∀ i, Held isoformat db init ls i (s.requests i)
  entries : ∀ userId, ∀ e ∈ s.redis, e.key = .dashboard userId →
    Cached isoformat db init ls userId e.value e.deadline
  clock : ∀ p t, p <+: ls → run (step isoformat db) init p = some t → t.now ≤ s.now

end

/-! ### One step -/

section
variable {isoformat : Instant → String} {db : Database PyFloat} {init s s' : Sys}
  {ls : List Label}

theorem Loaded.later {i userId : ℕ} {rows : List Info}
    (h : Loaded isoformat db init ls i userId rows) (ms : List Label) :
    Loaded isoformat db init (ls ++ ms) i userId rows :=
  h.imp (And.imp_right fun h => Took.later h ms) fun h => Took.later h ms

theorem Cached.later {userId deadline : ℕ} {rows : List Info}
    (h : Cached isoformat db init ls userId rows deadline) (ms : List Label) :
    Cached isoformat db init (ls ++ ms) userId rows deadline := by
  obtain ⟨j, h⟩ := h
  exact ⟨j, Took.later h ms⟩

theorem Held.later {i : ℕ} {place : Place} (h : Held isoformat db init ls i place)
    (ms : List Label) : Held isoformat db init (ls ++ ms) i place := by
  cases place with
  | idle => trivial
  | missed userId => trivial
  | selected userId servers => exact Took.later h ms
  | measured userId servers latest => exact Took.later h ms
  | built userId rows => exact Loaded.later h ms
  | answered userId rows answeredAt =>
    rcases h with hown | ⟨j, hcached⟩
    · exact Or.inl (hown.later ms)
    · exact Or.inr ⟨j, Took.later hcached ms⟩

theorem held_goto {i : ℕ} {place : Place} {requests : ℕ → Place}
    (h : ∀ j, Held isoformat db init ls j (requests j))
    (hp : Held isoformat db init ls i place) :
    ∀ j, Held isoformat db init ls j (Function.update requests i place j) := by
  intro j
  by_cases hj : j = i
  · subst hj
    rw [Function.update_self]
    exact hp
  · rw [Function.update_of_ne hj]
    exact h j

theorem clock_snoc {l : Label} (hr : run (step isoformat db) init (ls ++ [l]) = some s')
    (h : ∀ p t, p <+: ls → run (step isoformat db) init p = some t → t.now ≤ s.now)
    (hnow : s.now ≤ s'.now) (p : List Label) (t : Sys) (hp : p <+: ls ++ [l])
    (ht : run (step isoformat db) init p = some t) : t.now ≤ s'.now := by
  rcases List.prefix_concat_iff.mp hp with rfl | hp
  · rw [← Option.some.inj (hr.symm.trans ht)]
  · exact (h p t hp ht).trans hnow

/- Something outside the requests, which writes no entry. -/
theorem Traced.outside {l : Label} (h : Traced isoformat db init ls s)
    (hr : run (step isoformat db) init (ls ++ [l]) = some s') (hreq : s'.requests = s.requests)
    (hredis : ∀ e ∈ s'.redis, e ∈ s.redis) (hnow : s.now ≤ s'.now) :
    Traced isoformat db init (ls ++ [l]) s' where
  requests i := by
    rw [hreq]
    exact Held.later (h.requests i) [l]
  entries userId e he hk := (h.entries userId e (hredis e he) hk).later [l]
  clock := clock_snoc hr h.clock hnow

/- A request goes on with what it has read now, and may write it back. -/
theorem Traced.moved {l : Label} {i : ℕ} {place : Place} (h : Traced isoformat db init ls s)
    (hr : run (step isoformat db) init (ls ++ [l]) = some s')
    (hp : Held isoformat db init (ls ++ [l]) i place)
    (hreq : s'.requests = Function.update s.requests i place)
    (hredis : ∀ userId, ∀ e ∈ s'.redis, e.key = .dashboard userId →
      e ∈ s.redis ∨ Cached isoformat db init (ls ++ [l]) userId e.value e.deadline)
    (hnow : s'.now = s.now) : Traced isoformat db init (ls ++ [l]) s' where
  requests j := by
    rw [hreq]
    exact held_goto (fun j => Held.later (h.requests j) [l]) hp j
  entries userId e he hk := by
    rcases hredis userId e he hk with he | hcached
    · exact (h.entries userId e he hk).later [l]
    · exact hcached
  clock := clock_snoc hr h.clock hnow.ge

theorem Traced.goto {l : Label} {i : ℕ} {place : Place} (h : Traced isoformat db init ls s)
    (hr : run (step isoformat db) init (ls ++ [l]) = some (s.goto i place))
    (hp : Held isoformat db init (ls ++ [l]) i place) :
    Traced isoformat db init (ls ++ [l]) (s.goto i place) :=
  h.moved hr hp rfl (fun _ _ he _ => Or.inl he) rfl

theorem Traced.step {l : Label} (hr : run (step isoformat db) init ls = some s)
    (h : Traced isoformat db init ls s) (hs : DashboardCache.step isoformat db s l = some s') :
    Traced isoformat db init (ls ++ [l]) s' := by
  have hr' : run (DashboardCache.step isoformat db) init (ls ++ [l]) = some s' := by
    rw [run_snoc, hr]
    exact hs
  cases l with
  | commit db' =>
    obtain rfl := Option.some.inj hs
    exact h.outside hr' rfl (fun _ he => he) (Nat.le_refl _)
  | tick milliseconds =>
    obtain rfl := Option.some.inj hs
    exact h.outside hr' rfl (fun _ he => he) (Nat.le_add_right _ _)
  | evict userId =>
    obtain rfl := Option.some.inj hs
    exact h.outside hr' rfl (fun _ he => (mem_del he).1) (Nat.le_refl _)
  | look i userId down =>
    simp only [DashboardCache.step] at hs
    split at hs
    · split at hs
      · next rows hrows =>
        obtain rfl := Option.some.inj hs
        refine h.goto hr' ?_
        cases down with
        | true => cases hrows
        | false =>
          obtain ⟨e, he, hk, rfl, hlive⟩ := get?_mem hrows
          obtain ⟨j, p, t, m, hp, ht, hm, hloaded, hdeadline⟩ := h.entries userId e he hk
          have hnow := h.clock p t ((List.prefix_append p [m]).trans hp) ht
          refine Or.inr ⟨j, Took.later ⟨p, t, m, hp, ht, hm, hloaded, hnow, ?_⟩ _⟩
          exact hdeadline ▸ hlive
      · obtain rfl := Option.some.inj hs
        exact h.goto hr' trivial
    · cases hs
  | selectServers i =>
    simp only [DashboardCache.step] at hs
    split at hs
    · next userId hreq =>
      split at hs
      · next hnone =>
        obtain rfl := Option.some.inj hs
        exact h.goto hr' (Or.inl ⟨rfl, Took.here hr ⟨rfl, hnone.symm⟩⟩)
      · obtain rfl := Option.some.inj hs
        exact h.goto hr' (Took.here hr ⟨rfl, rfl⟩)
    · cases hs
  | selectMetrics i =>
    simp only [DashboardCache.step] at hs
    split at hs
    · next userId servers hreq =>
      obtain rfl := Option.some.inj hs
      have hheld := h.requests i
      rw [hreq] at hheld
      exact h.goto hr' (Took.here hr ⟨rfl, hheld, rfl⟩)
    · cases hs
  | selectAlerts i =>
    simp only [DashboardCache.step] at hs
    split at hs
    · next userId servers latest hreq =>
      obtain rfl := Option.some.inj hs
      have hheld := h.requests i
      rw [hreq] at hheld
      exact h.goto hr' (Or.inr (Took.here hr ⟨rfl, servers, latest, hheld, rfl⟩))
    · cases hs
  | cache i stored =>
    simp only [DashboardCache.step] at hs
    split at hs
    · next userId rows hreq =>
      obtain rfl := Option.some.inj hs
      have hheld := h.requests i
      rw [hreq] at hheld
      have hown : ∀ stored, Held isoformat db init (ls ++ [.cache i stored]) i
          (.answered userId rows s.now) := fun stored => Or.inl (Loaded.later hheld _)
      cases stored with
      | false => exact h.goto hr' (hown false)
      | true =>
        refine h.moved hr' (hown true) rfl (fun v e he hk => ?_) rfl
        rcases mem_set he with rfl | ⟨he, -⟩
        · obtain rfl : userId = v := RedisKey.dashboard.inj hk
          exact Or.inr ⟨i, Took.here hr ⟨rfl, hheld, rfl⟩⟩
        · exact Or.inl he
    · cases hs

theorem Traced.start (tables : Db) (now : ℕ) :
    Traced isoformat db (start tables now) [] (start tables now) where
  requests _ := trivial
  entries _ e he := by cases he
  clock p t hp ht := by
    obtain rfl := List.prefix_nil.mp hp
    rw [← Option.some.inj ht]

/-! ### Whole runs -/

/- Request `i` has read the rows: one for each server the user owned at its first query,
with the metrics and the open alerts of its second and third; without servers there are
no further queries. -/
def Reads (isoformat : Instant → String) (db : Database PyFloat) (init : Sys) (ls : List Label)
    (i userId : ℕ) (rows : List Info) : Prop :=
  (rows = [] ∧ Took (step isoformat db) init ls fun _ s l =>
    l = .selectServers i ∧ ∀ r ∈ s.db.fleet.servers, r.ownerId ≠ userId) ∨
  Took (step isoformat db) init ls fun p₃ s₃ l₃ => l₃ = .selectAlerts i ∧
    Took (step isoformat db) init p₃ fun p₂ s₂ l₂ => l₂ = .selectMetrics i ∧
      Took (step isoformat db) init p₂ fun _ s₁ l₁ => l₁ = .selectServers i ∧
        ∃ own : List Server, own.Perm (s₁.db.fleet.servers.filter fun r => r.ownerId = userId) ∧
          List.Forall₂ (Shows isoformat s₂.db.fleet.metrics s₃.db.events) own rows

/- The rows of an answer, told from the tables. -/
theorem Loaded.reads {i userId : ℕ} {rows : List Info}
    (h : Loaded isoformat db init ls i userId rows) :
    Reads isoformat db init ls i userId rows := by
  rcases h with ⟨rfl, hnone⟩ | hrows
  · refine Or.inl ⟨rfl, Took.imp hnone fun p s l => ?_⟩
    rintro ⟨rfl, hscan⟩
    refine ⟨rfl, fun r hr howner => ?_⟩
    have hmem := (db.scan_perm (s.db.fleet.servers.filter fun r => r.ownerId = userId)).mem_iff
      (a := r)
    rw [← selectServers, ← hscan] at hmem
    exact absurd (hmem.mpr (List.mem_filter.mpr ⟨hr, decide_eq_true howner⟩)) List.not_mem_nil
  · refine Or.inr (Took.imp hrows fun p₃ s₃ l₃ => ?_)
    rintro ⟨rfl, servers, latest, hmeasured, rfl⟩
    refine ⟨rfl, Took.imp hmeasured fun p₂ s₂ l₂ => ?_⟩
    rintro ⟨rfl, hselected, rfl⟩
    refine ⟨rfl, Took.imp hselected fun p₁ s₁ l₁ => ?_⟩
    rintro ⟨rfl, rfl⟩
    rw [build_queries]
    exact ⟨rfl, dashboard_naive isoformat db userId _ _ _⟩

/-- In whatever order requests and commits interleave and however Redis fails, the rows of an
answer were read for this user by the queries of one request: of the answering one, or of
one that set the cache at most ten seconds before. -/
theorem dashboard_at_most_ten_seconds_old (tables : Db) (now : ℕ)
    (hr : run (step isoformat db) (DashboardCache.start tables now) ls = some s) {i userId : ℕ}
    {rows : List Info} {answeredAt : ℕ} (ha : s.requests i = .answered userId rows answeredAt) :
    Reads isoformat db (DashboardCache.start tables now) ls i userId rows ∨
      ∃ j, Took (step isoformat db) (DashboardCache.start tables now) ls fun p t l =>
        l = .cache j true ∧ t.now ≤ answeredAt ∧ answeredAt ≤ t.now + 10000 ∧
          Reads isoformat db (DashboardCache.start tables now) p j userId rows := by
  have htraced := run_history (Traced isoformat db (DashboardCache.start tables now))
    (Traced.start tables now) (fun ls s l s' hls h hs => h.step hls hs) hr
  have hheld := htraced.requests i
  rw [ha] at hheld
  rcases hheld with hown | ⟨j, hcached⟩
  · exact Or.inl hown.reads
  · refine Or.inr ⟨j, Took.imp hcached fun p t l => ?_⟩
    rintro ⟨rfl, hloaded, hle, hage⟩
    exact ⟨rfl, hle, hage, hloaded.reads⟩

end

/- One server; it has an open alert once the list is cached. -/
def oneServer : Db :=
  { Alerts.init 0 with
    fleet := { Fleet.init 0 with
      servers := [{ id := 1, name := "web", apiKeyHash := "", ownerId := 1 }] } }

def oneAlert : Db :=
  { oneServer with
    events := [⟨1, 1, 1, .fin 90, .fin 80, "cpu_percent=90.0 gt 80.0", none, 0, none⟩] }

def lookTwice : List Label :=
  [.look 0 1 false, .selectServers 0, .selectMetrics 0, .selectAlerts 0, .cache 0 true,
    .commit oneAlert, .tick 10000, .look 1 1 false]

def Place.shown : Place → Option (ℕ × List ℕ × ℕ)
  | .answered userId rows answeredAt =>
    some (userId, rows.map ServerInfo.openAlertsCount, answeredAt)
  | _ => none

theorem shown_answered {place : Place} {userId : ℕ} {counts : List ℕ} {answeredAt : ℕ}
    (h : place.shown = some (userId, counts, answeredAt)) :
    ∃ rows, place = .answered userId rows answeredAt ∧
      rows.map ServerInfo.openAlertsCount = counts := by
  cases place with
  | answered u rows t =>
    simp only [Place.shown, Option.some.injEq, Prod.mk.injEq] at h
    obtain ⟨rfl, rfl, rfl⟩ := h
    exact ⟨rows, rfl, rfl⟩
  | _ => cases h

/- The alert is on no second answer yet, which is ten seconds old. -/
theorem second_answer_ten_seconds_old : ∃ s rows,
    run (step (fun t => toString t) default) (start oneServer 0) lookTwice = some s ∧
      s.requests 1 = .answered 1 rows 10000 ∧ rows.map ServerInfo.openAlertsCount = [0] ∧
      (Reads (fun t => toString t) default (start oneServer 0) lookTwice 1 1 rows ∨
        ∃ j, Took (step (fun t => toString t) default) (start oneServer 0) lookTwice fun p t l =>
          l = .cache j true ∧ t.now ≤ 10000 ∧ 10000 ≤ t.now + 10000 ∧
            Reads (fun t => toString t) default (start oneServer 0) p j 1 rows) := by
  have hshown : ((run (step (fun t => toString t) default) (start oneServer 0) lookTwice).bind
      fun s => (s.requests 1).shown) = some (1, [0], 10000) := by decide +kernel
  obtain ⟨s, hs, hshown⟩ := Option.bind_eq_some_iff.mp hshown
  obtain ⟨rows, hrows, hcounts⟩ := shown_answered hshown
  exact ⟨s, rows, hs, hrows, hcounts, dashboard_at_most_ten_seconds_old oneServer 0 hs hrows⟩

end PulseWatch.DashboardCache
