import PulseWatch.AlertRules
import PulseWatch.ExportWindows
import PulseWatch.Lib.OrderBy
import PulseWatch.Lib.Routing

/-!
# The CSV export of alert events

`GET /alerts/events/export` as a request: the routes of `app/main.py` in the order they
are registered, the two handlers of `/alerts/events/...` and the query of the export.
-/

namespace PulseWatch.AlertExport
open Routing PyDatetime OrderBy Alerts Exports

/-! ### The routes -/

/- What FastAPI adds by itself, then the handlers. -/
inductive Endpoint where
  | openapi
  | swaggerUi
  | swaggerUiRedirect
  | redoc
  | registerUser
  | login
  | refreshTokens
  | forgotPassword
  | resetPassword
  | logout
  | readMe
  | linkTelegram
  | toggleEmailAlerts
  | setupTotp
  | enableTotp
  | disableTotp
  | createTelegramLinkCode
  | registerServer
  | listMyServers
  | rotateApiKey
  | dashboard
  | getSystemAggregates
  | getDockerAggregates
  | listServerMetrics
  | listServerDockerMetrics
  | exportSystemMetrics
  | exportDockerMetrics
  | exportLogs
  | createAlertRule
  | listAlertRules
  | getAlertRule
  | updateAlertRule
  | deleteAlertRule
  | listAlertEvents
  | getAlertEvent
  | exportAlertEvents
  | submitMetric
  | submitDockerMetrics
  | receiveAlertmanagerWebhook
  | listMyAudit
  | prometheus
  | health
  | staticFiles
  | root
  | resetPasswordPage
  deriving DecidableEq, Repr

abbrev Router := List (Route Endpoint)

def route (m : Method) (path : List Segment) (endpoint : Endpoint) : Route Endpoint :=
  ⟨some [m], path, endpoint⟩

def docs : Router :=
  [⟨some [.get, .head], [.literal "openapi.json"], .openapi⟩,
    ⟨some [.get, .head], [.literal "docs"], .swaggerUi⟩,
    ⟨some [.get, .head], [.literal "docs", .literal "oauth2-redirect"], .swaggerUiRedirect⟩,
    ⟨some [.get, .head], [.literal "redoc"], .redoc⟩]

def authRouter : Router :=
  [route .post [.literal "register"] .registerUser,
    route .post [.literal "login"] .login,
    route .post [.literal "refresh"] .refreshTokens,
    route .post [.literal "forgot-password"] .forgotPassword,
    route .post [.literal "reset-password"] .resetPassword,
    route .post [.literal "logout"] .logout,
    route .get [.literal "me"] .readMe,
    route .patch [.literal "me", .literal "telegram"] .linkTelegram,
    route .patch [.literal "me", .literal "email-alerts"] .toggleEmailAlerts,
    route .post [.literal "me", .literal "totp", .literal "setup"] .setupTotp,
    route .post [.literal "me", .literal "totp", .literal "enable"] .enableTotp,
    route .post [.literal "me", .literal "totp", .literal "disable"] .disableTotp,
    route .post [.literal "me", .literal "telegram", .literal "code"] .createTelegramLinkCode]

def serversRouter : Router :=
  [route .post [.literal "register"] .registerServer,
    route .get [.literal "me"] .listMyServers,
    route .post [.param "server_id", .literal "rotate-key"] .rotateApiKey,
    route .get [.literal "dashboard"] .dashboard,
    route .get [.param "server_id", .literal "metrics", .literal "aggregate"] .getSystemAggregates,
    route .get [.param "server_id", .literal "docker-metrics", .literal "aggregate"]
      .getDockerAggregates,
    route .get [.param "server_id", .literal "metrics"] .listServerMetrics,
    route .get [.param "server_id", .literal "docker-metrics"] .listServerDockerMetrics,
    route .get [.param "server_id", .literal "metrics", .literal "export"] .exportSystemMetrics,
    route .get [.param "server_id", .literal "docker-metrics", .literal "export"]
      .exportDockerMetrics,
    route .get [.param "server_id", .literal "logs", .literal "export"] .exportLogs]

def alertsRouter : Router :=
  [route .post [.literal "rules"] .createAlertRule,
    route .get [.literal "rules"] .listAlertRules,
    route .get [.literal "rules", .param "rule_id"] .getAlertRule,
    route .patch [.literal "rules", .param "rule_id"] .updateAlertRule,
    route .delete [.literal "rules", .param "rule_id"] .deleteAlertRule,
    route .get [.literal "events"] .listAlertEvents,
    route .get [.literal "events", .param "event_id"] .getAlertEvent,
    route .get [.literal "events", .literal "export"] .exportAlertEvents]

def metricsRouter : Router := [route .post [] .submitMetric]
def dockerMetricsRouter : Router := [route .post [] .submitDockerMetrics]
def alertmanagerRouter : Router := [route .post [.literal "webhook"] .receiveAlertmanagerWebhook]
def auditRouter : Router := [route .get [.literal "me"] .listMyAudit]

/-- `REST_ROUTERS`. -/
def restRouters : List (Router × String) :=
  [(authRouter, "auth"), (serversRouter, "servers"), (alertsRouter, "alerts"),
    (metricsRouter, "metrics"), (dockerMetricsRouter, "docker-metrics"),
    (alertmanagerRouter, "alertmanager"), (auditRouter, "audit")]

def includeRouter (router : Router) (under : List String) : Router :=
  router.map fun r => { r with path := under.map .literal ++ r.path }

/- The routes that take HTTP requests; those of the web sockets take none. -/
def routes : Router :=
  docs ++
  (restRouters.flatMap fun r => includeRouter r.1 ["v1", r.2] ++ includeRouter r.1 [r.2]) ++
  [route .get [.literal "metrics", .literal "prometheus"] .prometheus,
    route .get [.literal "health"] .health,
    ⟨none, [.literal "static", .rest], .staticFiles⟩,
    route .get [.literal ""] .root,
    route .get [.literal "reset-password"] .resetPasswordPage]

/- Under the version and without it. -/
def exportPath : Bool → List String
  | true => ["v1", "alerts", "events", "export"]
  | false => ["alerts", "events", "export"]

theorem dispatch_exportPath (v : Bool) :
    dispatch routes .get (exportPath v) = .handled .getAlertEvent [("event_id", "export")] := by
  cases v <;> rfl

/-- No request is handed to the export, whatever its method and path. -/
theorem export_hidden (m : Method) (path : List String) (params : List (String × String)) :
    dispatch routes m path ≠ .handled .exportAlertEvents params :=
  dispatch_hidden (by decide) m path params

/-! ### The handlers -/

/- pydantic's `int` of a path parameter: a text without a digit is none. -/
structure IntParser where
  parse : String → Option ℤ
  digit : ∀ text n, parse text = some n → ∃ c ∈ text.toList, c.isDigit = true

/- The query parameters of the export. -/
structure EventQuery where
  start : Option Datetime := none
  stop : Option Datetime := none
  serverId : Option ℤ := none
  ruleId : Option ℤ := none
  onlyOpen : Bool := false

structure CsvRow where
  id : ℕ
  serverId : ℕ
  serverName : String
  ruleId : ℕ
  ruleName : String
  containerName : String
  metricValue : PyFloat
  thresholdValue : PyFloat
  status : String
  createdAt : Instant
  resolvedAt : Option Instant
  message : String
  deriving DecidableEq, Repr

/- `raised` is answered with 500; `elsewhere` is what the other handlers answer. -/
inductive Response where
  | unprocessable (loc : List String)
  | badRequest (detail : String)
  | notFound (detail : String)
  | methodNotAllowed
  | event (e : AlertEvent)
  | csv (rows : List CsvRow)
  | raised
  | elsewhere (endpoint : Endpoint)
  deriving DecidableEq, Repr

def csvRow (e : AlertEvent) (ruleName serverName : String) : CsvRow :=
  { id := e.id, serverId := e.serverId, serverName, ruleId := e.ruleId, ruleName
    containerName := e.containerName.getD "", metricValue := e.metricValue
    thresholdValue := e.thresholdValue
    status := if e.resolvedAt.isSome then "resolved" else "open"
    createdAt := e.createdAt, resolvedAt := e.resolvedAt, message := e.message }

abbrev Joined := AlertEvent × AlertRule × Server

def joins (s : Db) (e : AlertEvent) : List Joined :=
  (s.rules.filter fun r => r.id = e.ruleId).flatMap fun r =>
    (s.fleet.servers.filter fun v => v.id = e.serverId).map fun v => (e, r, v)

def joined (s : Db) : List Joined := s.events.flatMap (joins s)

/- The conditions on the event. -/
def EventQuery.admits (q : EventQuery) (start stop : Instant) (e : AlertEvent) : Bool :=
  start ≤ e.createdAt && e.createdAt ≤ stop && q.serverId.all (fun n : ℤ => n = e.serverId) &&
    q.ruleId.all (fun n : ℤ => n = e.ruleId) && (!q.onlyOpen || e.resolvedAt.isNone)

/- An id beyond 32 bits is no parameter of the query. -/
def EventQuery.bindable (q : EventQuery) : Bool :=
  q.serverId.all (fun n => (storeInt n).isSome) && q.ruleId.all fun n => (storeInt n).isSome

def getAlertEvent (parser : IntParser) (s : Db) (userId : ℕ) (eventId : String) : Response :=
  match parser.parse eventId with
  | none => .unprocessable ["path", "event_id"]
  | some id =>
    if (storeInt id).isNone then .raised
    else match s.events.find? fun e =>
        e.id = id && s.rules.any fun r => r.id = e.ruleId && r.ownerId = userId with
      | some e => .event e
      | none => .notFound "Alert event not found"

section
variable (parser : IntParser) (driver : Driver)
  (sorter : Sorter fun row : Joined => row.1.createdAt) (now : {t : ℤ // InRange t}) (s : Db)
  (userId : ℕ) (q : EventQuery)

def exportEvents : Response :=
  match Exports.exportAlertEvents driver now q.start q.stop with
  | .badRequest detail => .badRequest detail
  | .streamed _ start stop =>
    if q.bindable then
      .csv ((sorter.sort ((joined s).filter fun row =>
        row.2.1.ownerId = userId && q.admits start stop row.1)).map fun row =>
          csvRow row.1 row.2.1.name row.2.2.name)
    else .raised
  | _ => .raised

/- An authenticated GET. -/
def respond (path : List String) : Response :=
  match dispatch routes .get path with
  | .handled .getAlertEvent params =>
    getAlertEvent parser s userId ((params.lookup "event_id").getD "")
  | .handled .exportAlertEvents _ => exportEvents driver sorter now s userId q
  | .handled endpoint _ => .elsewhere endpoint
  | .methodNotAllowed => .methodNotAllowed
  | .notFound => .notFound "Not Found"

/- The window as instants. -/
def EventQuery.lastInstant : Instant := (q.stop.getD (Datetime.nowUtc now)).utc

def EventQuery.firstInstant : Instant :=
  (q.start.map Datetime.utc).getD (q.lastInstant now - days 7)

/- The events the export is asked for. -/
def wanted : List AlertEvent :=
  s.events.filter fun e => (s.rules.any fun r => r.id = e.ruleId && r.ownerId = userId) &&
    q.admits (q.firstInstant now) (q.lastInstant now) e

/- A CSV of those events, each once, by `created_at`. -/
def Answers (r : Response) : Prop :=
  ∃ rows : List Joined, r = .csv (rows.map fun row => csvRow row.1 row.2.1.name row.2.2.name) ∧
    Ordered AlertEvent.createdAt (wanted now s userId q) (rows.map Prod.fst)

end

/-! ### The query -/

/- Primary and foreign keys. -/
structure Referential (s : Db) : Prop where
  rules : (s.rules.map AlertRule.id).Nodup
  servers : (s.fleet.servers.map Server.id).Nodup
  rule : ∀ e ∈ s.events, ∃ r ∈ s.rules, r.id = e.ruleId
  server : ∀ e ∈ s.events, ∃ v ∈ s.fleet.servers, v.id = e.serverId

theorem filter_key {R : Type} {key : R → ℕ} {rows : List R} (h : (rows.map key).Nodup) {r : R}
    (hr : r ∈ rows) : (rows.filter fun x => key x = key r) = [r] := by
  induction rows with
  | nil => cases hr
  | cons x rows ih =>
    obtain ⟨hx, hrows⟩ := List.nodup_cons.mp h
    rcases List.mem_cons.mp hr with rfl | hr
    · rw [List.filter_cons_of_pos (by simp), List.filter_eq_nil_iff.mpr]
      intro y hy hkey
      exact hx (of_decide_eq_true hkey ▸ List.mem_map_of_mem hy)
    · have hne : key x ≠ key r := fun heq => hx (heq ▸ List.mem_map_of_mem hr)
      rw [List.filter_cons_of_neg (by simpa using hne)]
      exact ih hrows hr

theorem joined_events {s : Db} (h : Referential s) (p : AlertEvent → Bool) (userId : ℕ) :
    ((joined s).filter fun row => row.2.1.ownerId = userId && p row.1).map Prod.fst =
      s.events.filter fun e =>
        (s.rules.any fun r => r.id = e.ruleId && r.ownerId = userId) && p e := by
  have hone : ∀ e ∈ s.events,
      ((joins s e).filter fun row => row.2.1.ownerId = userId && p row.1).map Prod.fst =
      if ((s.rules.any fun r => r.id = e.ruleId && r.ownerId = userId) && p e) = true then [e]
      else [] := by
    intro e he
    obtain ⟨r, hr, hrid⟩ := h.rule e he
    obtain ⟨v, hv, hvid⟩ := h.server e he
    have hany : (s.rules.any fun r => r.id = e.ruleId && r.ownerId = userId) =
        decide (r.ownerId = userId) := by
      rw [← List.any_filter, ← hrid, filter_key h.rules hr]
      simp
    rw [hany, joins, ← hrid, ← hvid, filter_key h.rules hr, filter_key h.servers hv]
    cases hp : (decide (r.ownerId = userId) && p e) <;> simp [hp]
  unfold joined
  rw [List.filter_flatMap, List.map_flatMap]
  generalize s.events = events at hone
  induction events with
  | nil => rfl
  | cons e events ih =>
    rw [List.flatMap_cons, hone e List.mem_cons_self,
      ih fun x hx => hone x (List.mem_cons_of_mem e hx), List.filter_cons]
    split <;> rfl

/-- The handler itself would answer: its joins lose and repeat no event. -/
theorem exportEvents_answers {driver : Driver}
    {sorter : Sorter fun row : Joined => row.1.createdAt} {now : {t : ℤ // InRange t}} {s : Db}
    (h : Referential s) (userId : ℕ) {q : EventQuery} (hq : q.bindable = true)
    (hw : Exports.exportAlertEvents driver now q.start q.stop =
      .streamed .alertEvents (q.firstInstant now) (q.lastInstant now)) :
    Answers now s userId q (exportEvents driver sorter now s userId q) := by
  unfold exportEvents
  simp only [hw, hq, if_true]
  refine ⟨_, rfl, ?_⟩
  have hsorted := sorter.ordered ((joined s).filter fun row =>
    row.2.1.ownerId = userId && q.admits (q.firstInstant now) (q.lastInstant now) row.1)
  refine ⟨?_, List.pairwise_map.mpr hsorted.sorted⟩
  rw [wanted, ← joined_events h]
  exact hsorted.perm.map Prod.fst

/-! ### The request -/

theorem export_not_int (parser : IntParser) : parser.parse "export" = none := by
  cases h : parser.parse "export" with
  | none => rfl
  | some n =>
    obtain ⟨c, hc, hdigit⟩ := parser.digit "export" n h
    have hnone : ("export".toList.all fun c => !c.isDigit) = true := by decide
    have hnot := List.all_eq_true.mp hnone c hc
    rw [hdigit] at hnot
    cases hnot

/-- Every request for the export, whatever its query, is refused over `event_id`. -/
theorem export_never_answers (parser : IntParser) (driver : Driver)
    (sorter : Sorter fun row : Joined => row.1.createdAt) (now : {t : ℤ // InRange t}) (s : Db)
    (userId : ℕ) (q : EventQuery) (v : Bool) :
    respond parser driver sorter now s userId q (exportPath v) =
        .unprocessable ["path", "event_id"] ∧
      ¬ Answers now s userId q (respond parser driver sorter now s userId q (exportPath v)) := by
  have hrefused : respond parser driver sorter now s userId q (exportPath v) =
      .unprocessable ["path", "event_id"] := by
    unfold respond
    rw [dispatch_exportPath]
    show getAlertEvent parser s userId "export" = _
    rw [getAlertEvent, export_not_int]
  refine ⟨hrefused, ?_⟩
  rw [hrefused]
  rintro ⟨rows, hrows, -⟩
  cases hrows

def decimal : IntParser where
  parse text :=
    if text.toList.any Char.isDigit && text.toList.all Char.isDigit then
      some (text.toList.foldl (fun n c => 10 * n + (c.toNat - 48 : ℕ)) 0)
    else none
  digit text n h := by
    split at h
    · next hdigits =>
      rw [Bool.and_eq_true] at hdigits
      exact List.any_eq_true.mp hdigits.1
    · cases h

/- A server and a rule of user 1, with one open event at the epoch. -/
def oneEvent : Db :=
  { init 0 with
    fleet := { Fleet.init 0 with servers := [⟨1, "web", "hash", 1, none, true, none, false⟩] }
    rules := [⟨1, 1, 1, "cpu", .system, "cpu_percent", .gt, .fin 80, none, 300, true, [], none⟩]
    events := [⟨1, 1, 1, .fin 90, .fin 80, "cpu", none, 0, none⟩] }

/- The event of the last seven days is asked for, and `event_id` is found fault with. -/
theorem export_taken_for_event_id :
    wanted epoch oneEvent 1 {} = [⟨1, 1, 1, .fin 90, .fin 80, "cpu", none, 0, none⟩] ∧
      respond decimal utcDriver (mergeSorter _) epoch oneEvent 1 {} (exportPath false) =
        .unprocessable ["path", "event_id"] ∧
      ¬ Answers epoch oneEvent 1 {}
        (respond decimal utcDriver (mergeSorter _) epoch oneEvent 1 {} (exportPath false)) := by
  have hrefused : respond decimal utcDriver (mergeSorter _) epoch oneEvent 1 {}
      (exportPath false) = .unprocessable ["path", "event_id"] := by
    unfold respond
    rw [dispatch_exportPath]
    rfl
  refine ⟨by decide, hrefused, ?_⟩
  rw [hrefused]
  rintro ⟨rows, hrows, -⟩
  cases hrows

end PulseWatch.AlertExport
