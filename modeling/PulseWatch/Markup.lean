import PulseWatch.Lib.Html
import PulseWatch.NotificationTasks

/-!
# The markup of the messages

Of `_format_message`, `_send_email` and `_send_heartbeat` in
`app/tasks/notification_tasks.py` and of `_format_admin_message` in
`app/api/alertmanager.py`. Every message is a template of tags and texts whose texts are
escaped; whoever reads it finds the tags of the template and the texts as they were.
-/

namespace PulseWatch

namespace Alertmanager
open PyText

/- The values of a payload. -/
inductive Json where
  | null
  | bool (b : Bool)
  | int (n : ℤ)
  | float (x : PyFloat)
  | str (s : String)
  | list (l : List Json)
  | dict (d : List (String × Json))

namespace Json

def truthy : Json → Bool
  | null => false
  | bool b => b
  | int n => n ≠ 0
  | float x => x ≠ .fin 0
  | str s => s ≠ ""
  | list l => !l.isEmpty
  | dict d => !d.isEmpty

/-- `a or b`. -/
def orElse (a b : Json) : Json := if a.truthy then a else b

/-- `d.get(key, default)`; `none` is the AttributeError of a value without `get`. -/
def get (d : Json) (key : String) (default : Json) : Option Json :=
  match d with
  | dict entries => some ((entries.lookup key).getD default)
  | _ => none

/-- `str(x)`, where `shown` is what Python shows of a value that is no text. -/
def toStr (shown : Json → String) : Json → String
  | str s => s
  | v => shown v

/-- `html.escape(x)`, which a value that is no text has no `replace` for. -/
def escape : Json → Option String
  | str s => some (htmlEscape s)
  | _ => none

end Json

/- What the message shows of an alert. -/
structure Shown where
  state : String
  name : String
  severity : String
  summary : String
  deriving DecidableEq, Repr

def emoji (overallStatus : Json) : String :=
  match overallStatus with
  | .str "firing" => "🔥"
  | _ => "✅"

section
variable (shown : Json → String)

def readAlert (alert : Json) : Option Shown := do
  let labels := (← alert.get "labels" (.dict [])).orElse (.dict [])
  let annotations := (← alert.get "annotations" (.dict [])).orElse (.dict [])
  let name := (← labels.get "alertname" (.str "?")).toStr shown
  let severity := (← labels.get "severity" (.str "?")).toStr shown
  let description ← annotations.get "description" (.str "")
  let summary := ((← annotations.get "summary" .null).orElse description).toStr shown
  let state := (← alert.get "status" (.str "?")).toStr shown
  return { state, name, severity, summary }

def line (a : Shown) : String :=
  "• [" ++ htmlEscape a.state ++ "] <b>" ++ htmlEscape a.name ++ "</b> (" ++
  htmlEscape a.severity ++ "): " ++ htmlEscape a.summary

def formatAdminMessage (overallStatus : Json) (alerts : List Json) : Option String := do
  let status ← overallStatus.escape
  let lines ← alerts.mapM fun alert => (readAlert shown alert).map line
  return "\n".intercalate
    (("<b>" ++ emoji overallStatus ++ " Alertmanager: " ++ status ++ "</b>") :: lines)

end

end Alertmanager

namespace Markup
open Html PyText Alertmanager
open NotificationTasks hiding Json

/-! ### The documents -/

section
variable {Body : Type} (pk : Packages Body)

def alertDoc (event : AlertEvent) (rule : AlertRule) (server : Server) : Doc :=
  ⟨"", [("b", "🚨 Алерт: " ++ rule.name), ("/b", "\nСервер: "), ("code", server.name),
    ("/code", "\nМетрика: "), ("code", rule.metricField), ("/code", " = "),
    ("b", pk.floatStr event.metricValue), ("/b", "\nПорог: "), ("code", rule.operator.value),
    ("/code", " " ++ pk.floatStr event.thresholdValue ++ "\nВремя: " ++
      pk.isoformat event.createdAt)]⟩

def heartbeatTextDoc (recovered : Bool) (server : Server) : Doc :=
  ⟨NotificationTasks.emoji recovered ++ " ",
    [("b", "Сервер " ++ server.name ++ " " ++ statusText recovered), ("/b", "\nid: "),
      ("code", toString server.id), ("/code", "\nlast seen: " ++ lastSeen pk server)]⟩

def heartbeatHtmlDoc (recovered : Bool) (server : Server) : Doc :=
  ⟨"", [("p", NotificationTasks.emoji recovered ++ " "), ("b", server.name),
    ("/b", " " ++ statusText recovered ++ "."), ("/p", ""),
    ("p", "last seen: " ++ lastSeen pk server), ("/p", "")]⟩

end

/- The lines of the alerts, from the newline in front of each. -/
def linesDoc : List Shown → String × List (String × String)
  | [] => ("", [])
  | a :: alerts =>
    ("\n• [" ++ a.state ++ "] ",
      ("b", a.name) :: ("/b", " (" ++ a.severity ++ "): " ++ a.summary ++ (linesDoc alerts).1) ::
        (linesDoc alerts).2)

def adminDoc (status : String) (alerts : List Shown) : Doc :=
  ⟨"", ("b", Alertmanager.emoji (.str status) ++ " Alertmanager: " ++ status) ::
    ("/b", (linesDoc alerts).1) :: (linesDoc alerts).2⟩

def alertTags : List String :=
  ["b", "/b", "code", "/code", "code", "/code", "b", "/b", "code", "/code"]

def heartbeatTextTags : List String := ["b", "/b", "code", "/code"]

def heartbeatHtmlTags : List String := ["p", "b", "/b", "/p", "p", "/p"]

/- The heading and `n` alerts. -/
def adminTags (n : ℕ) : List String := (List.replicate (n + 1) ["b", "/b"]).flatten

/-! ### The messages are their documents, escaped -/

section
variable {Body : Type} (pk : Packages Body)

theorem value_harmless (op : ThresholdOperator) : Harmless op.value := by
  cases op <;> decide

theorem formatMessage_eq (hfloat : ∀ x, Harmless (pk.floatStr x))
    (hiso : ∀ t, Harmless (pk.isoformat t)) (event : AlertEvent) (rule : AlertRule)
    (server : Server) : formatMessage pk event rule server =
      ((alertDoc pk event rule server).map htmlEscape).render := by
  rw [← String.toList_inj]
  unfold formatMessage
  simp [alertDoc, Doc.map, Doc.render, toList_renderRest, toList_htmlEscape,
    escapeChar_of_notMem, specials, toList_harmless (hfloat _), toList_harmless (hiso _),
    toList_harmless (value_harmless _)]

theorem emoji_harmless (recovered : Bool) : Harmless (NotificationTasks.emoji recovered) := by
  cases recovered <;> simp [Harmless, NotificationTasks.emoji, specials]

theorem statusText_harmless (recovered : Bool) : Harmless (statusText recovered) := by
  cases recovered <;> simp [Harmless, statusText, specials]

theorem id_harmless (n : ℕ) : Harmless (toString n) := by
  intro c hc hspecial
  rw [Nat.toString_eq_repr, Nat.toList_repr] at hc
  have hdigit := Nat.isDigit_of_mem_toDigits (by decide) (by decide) hc
  have hall : ∀ d ∈ specials, d.isDigit = false := by simp [specials]
  rw [hall c hspecial] at hdigit
  cases hdigit

theorem heartbeatText_eq (recovered : Bool) (server : Server) :
    heartbeatText pk recovered server =
      ((heartbeatTextDoc pk recovered server).map htmlEscape).render := by
  have hid : (Nat.toDigits 10 server.id).flatMap escapeChar = Nat.toDigits 10 server.id := by
    simpa using toList_harmless (id_harmless server.id)
  rw [← String.toList_inj]
  unfold heartbeatText
  simp [heartbeatTextDoc, Doc.map, Doc.render, toList_renderRest, toList_htmlEscape,
    escapeChar_of_notMem, specials, toList_harmless (emoji_harmless _),
    toList_harmless (statusText_harmless _), hid]

theorem heartbeatHtml_eq (recovered : Bool) (server : Server) :
    heartbeatHtml pk recovered server =
      ((heartbeatHtmlDoc pk recovered server).map htmlEscape).render := by
  rw [← String.toList_inj]
  unfold heartbeatHtml
  simp [heartbeatHtmlDoc, Doc.map, Doc.render, toList_renderRest, toList_htmlEscape,
    escapeChar_of_notMem, specials, toList_harmless (emoji_harmless _),
    toList_harmless (statusText_harmless _)]

end

/- The lines joined: each alert with a newline in front of it. -/
theorem toList_lines (first : String) (lines : List String) :
    ("\n".intercalate (first :: lines)).toList =
      first.toList ++ lines.flatMap fun l => '\n' :: l.toList := by
  induction lines generalizing first with
  | nil => simp
  | cons l lines ih =>
    rw [String.intercalate_cons_cons, String.toList_append, String.toList_append, ih]
    simp

theorem linesDoc_eq (alerts : List Shown) :
    (linesDoc alerts).1.toList.flatMap escapeChar ++
        (Doc.renderRest ((linesDoc alerts).2.map fun p => (p.1, htmlEscape p.2))).toList =
      (alerts.map line).flatMap fun l => '\n' :: l.toList := by
  induction alerts with
  | nil => rfl
  | cons a alerts ih =>
    rw [List.map_cons, List.flatMap_cons, ← ih]
    unfold line
    simp [linesDoc, toList_renderRest, toList_htmlEscape, escapeChar_of_notMem, specials]

/- The message of the alerts that were read. -/
theorem adminDoc_eq (status : String) (alerts : List Shown) :
    "\n".intercalate (("<b>" ++ Alertmanager.emoji (.str status) ++ " Alertmanager: " ++
        htmlEscape status ++ "</b>") :: alerts.map line) =
      ((adminDoc status alerts).map htmlEscape).render := by
  have hemoji : Harmless (Alertmanager.emoji (.str status)) := by
    unfold Alertmanager.emoji
    split <;> simp [Harmless, specials]
  rw [← String.toList_inj, toList_lines, ← linesDoc_eq]
  simp [adminDoc, Doc.map, Doc.render, toList_renderRest, toList_htmlEscape,
    escapeChar_of_notMem, specials, toList_harmless hemoji]

theorem mapM_line (shown : Json → String) (alerts : List Json) :
    (alerts.mapM fun alert => (readAlert shown alert).map line) =
      (alerts.mapM (readAlert shown)).map fun fields => fields.map line := by
  induction alerts with
  | nil => rfl
  | cons alert alerts ih =>
    rw [List.mapM_cons, List.mapM_cons, ih]
    cases readAlert shown alert with
    | none => rfl
    | some a => cases alerts.mapM (readAlert shown) <;> rfl

theorem formatAdminMessage_eq (shown : Json → String) (status : String) (alerts : List Json) :
    formatAdminMessage shown (.str status) alerts =
      (alerts.mapM (readAlert shown)).map fun fields =>
        ((adminDoc status fields).map htmlEscape).render := by
  unfold formatAdminMessage
  rw [mapM_line]
  cases alerts.mapM (readAlert shown) with
  | none => rfl
  | some fields => exact congrArg some (adminDoc_eq status fields)

/-! ### What is read of them -/

theorem linesDoc_tags (alerts : List Shown) : (linesDoc alerts).2.map Prod.fst =
    (List.replicate alerts.length ["b", "/b"]).flatten := by
  induction alerts with
  | nil => rfl
  | cons a alerts ih =>
    rw [linesDoc, List.map_cons, List.map_cons, ih, List.length_cons, List.replicate_succ,
      List.flatten_cons]
    rfl

theorem adminDoc_tags (status : String) (alerts : List Shown) :
    (adminDoc status alerts).tags = adminTags alerts.length := by
  rw [Doc.tags, adminDoc, List.map_cons, List.map_cons, linesDoc_tags]
  rfl

theorem isTag_adminTags (n : ℕ) : ∀ t ∈ adminTags n, IsTag t := by
  intro t ht
  obtain ⟨l, hl, ht⟩ := List.mem_flatten.mp ht
  have hlist : ∀ t ∈ ["b", "/b"], IsTag t := by decide
  rw [List.eq_of_mem_replicate hl] at ht
  exact hlist t ht

/- An object whose labels and annotations, where there are any, are objects. -/
def IsAlert (alert : Json) : Prop :=
  ∃ entries, alert = .dict entries ∧ ∀ key ∈ ["labels", "annotations"],
    ∀ v, entries.lookup key = some v → v.truthy = true → ∃ d, v = .dict d

theorem readAlert_isSome (shown : Json → String) {alert : Json} (h : IsAlert alert) :
    (readAlert shown alert).isSome := by
  obtain ⟨entries, rfl, hkeys⟩ := h
  have hdict : ∀ key ∈ ["labels", "annotations"],
      ∃ d, ((entries.lookup key).getD (.dict [])).orElse (.dict []) = .dict d := by
    intro key hkey
    cases hv : entries.lookup key with
    | none => exact ⟨[], rfl⟩
    | some v =>
      rw [Option.getD_some, Json.orElse]
      split
      · next htruthy => exact hkeys key hkey v hv htruthy
      · exact ⟨[], rfl⟩
  obtain ⟨labels, hlabels⟩ := hdict "labels" (by decide)
  obtain ⟨annotations, hannotations⟩ := hdict "annotations" (by decide)
  unfold readAlert
  simp [Json.get, hlabels, hannotations]

theorem formatAdminMessage_isSome (shown : Json → String) (status : String)
    {alerts : List Json} (h : ∀ alert ∈ alerts, IsAlert alert) :
    (formatAdminMessage shown (.str status) alerts).isSome := by
  have hread : (alerts.mapM (readAlert shown)).isSome := by
    induction alerts with
    | nil => rfl
    | cons alert alerts ih =>
      obtain ⟨a, ha⟩ := Option.isSome_iff_exists.mp
        (readAlert_isSome shown (h alert List.mem_cons_self))
      obtain ⟨fields, hfields⟩ := Option.isSome_iff_exists.mp
        (ih fun x hx => h x (List.mem_cons_of_mem alert hx))
      rw [List.mapM_cons, ha, hfields]
      rfl
  rw [formatAdminMessage_eq, Option.isSome_map]
  exact hread

/- Whatever was escaped into a message. -/
theorem formatAdminMessage_some {shown : Json → String} {overallStatus : Json}
    {alerts : List Json} {html : String}
    (h : formatAdminMessage shown overallStatus alerts = some html) :
    ∃ status fields, overallStatus = .str status ∧
      alerts.mapM (readAlert shown) = some fields ∧
      html = ((adminDoc status fields).map htmlEscape).render := by
  cases overallStatus with
  | str status =>
    rw [formatAdminMessage_eq, Option.map_eq_some_iff] at h
    obtain ⟨fields, hfields, rfl⟩ := h
    exact ⟨status, fields, rfl, hfields, rfl⟩
  | _ => cases h

theorem length_mapM {A B : Type} {f : A → Option B} {xs : List A} {ys : List B}
    (h : xs.mapM f = some ys) : ys.length = xs.length := by
  induction xs generalizing ys with
  | nil =>
    cases h
    rfl
  | cons x xs ih =>
    rw [List.mapM_cons] at h
    obtain ⟨y, hy, h⟩ := Option.bind_eq_some_iff.mp h
    obtain ⟨zs, hzs, h⟩ := Option.bind_eq_some_iff.mp h
    cases h
    rw [List.length_cons, List.length_cons, ih hzs]

section
variable {Body : Type} (pk : Packages Body)

theorem formatMessage_shows (refs : CharRefs) (hfloat : ∀ x, Harmless (pk.floatStr x))
    (hiso : ∀ t, Harmless (pk.isoformat t)) (event : AlertEvent) (rule : AlertRule)
    (server : Server) :
    Shows refs (formatMessage pk event rule server) alertTags
        (alertDoc pk event rule server).texts ∧
      ShowsLines refs (replace '\n' "<br>" (formatMessage pk event rule server)) alertTags
        (alertDoc pk event rule server) := by
  have htags : ∀ t ∈ (alertDoc pk event rule server).tags, IsTag t := by
    change ∀ t ∈ alertTags, IsTag t
    decide
  rw [formatMessage_eq pk hfloat hiso]
  exact ⟨shows_escaped refs htags, showsLines_escaped refs htags⟩

theorem heartbeat_shows (refs : CharRefs) (recovered : Bool) (server : Server) :
    Shows refs (heartbeatText pk recovered server) heartbeatTextTags
        (heartbeatTextDoc pk recovered server).texts ∧
      Shows refs (heartbeatHtml pk recovered server) heartbeatHtmlTags
        (heartbeatHtmlDoc pk recovered server).texts := by
  have htext : ∀ t ∈ (heartbeatTextDoc pk recovered server).tags, IsTag t := by
    change ∀ t ∈ heartbeatTextTags, IsTag t
    decide
  have hhtml : ∀ t ∈ (heartbeatHtmlDoc pk recovered server).tags, IsTag t := by
    change ∀ t ∈ heartbeatHtmlTags, IsTag t
    decide
  rw [heartbeatText_eq, heartbeatHtml_eq]
  exact ⟨shows_escaped refs htext, shows_escaped refs hhtml⟩

theorem formatAdminMessage_shows (refs : CharRefs) {shown : Json → String}
    {overallStatus : Json} {alerts : List Json} {html : String}
    (h : formatAdminMessage shown overallStatus alerts = some html) :
    ∃ status fields, overallStatus = .str status ∧
      alerts.mapM (readAlert shown) = some fields ∧
      Shows refs html (adminTags alerts.length) (adminDoc status fields).texts := by
  obtain ⟨status, fields, rfl, hfields, rfl⟩ := formatAdminMessage_some h
  have htags : ∀ t ∈ (adminDoc status fields).tags, IsTag t := by
    rw [adminDoc_tags]
    exact isTag_adminTags fields.length
  have hshows := shows_escaped refs htags
  rw [adminDoc_tags, length_mapM hfields] at hshows
  exact ⟨status, fields, rfl, hfields, hshows⟩

end

/- A reader of the five references only. -/
def fiveRefs : CharRefs where
  expand r :=
    if r = "amp;".toList then ['&']
    else if r = "lt;".toList then ['<']
    else if r = "gt;".toList then ['>']
    else if r = "quot;".toList then ['"']
    else if r = "#x27;".toList then ['\'']
    else '&' :: r
  amp := rfl
  lt := rfl
  gt := rfl
  quot := rfl
  apos := rfl

def plainEvent : AlertEvent where
  id := 1
  ruleId := 1
  serverId := 1
  metricValue := .fin 0
  thresholdValue := .fin 0
  message := ""
  containerName := none
  createdAt := 0

def plainRule (name : String) : AlertRule where
  id := 1
  serverId := 1
  ownerId := 1
  name := name
  metricType := .system
  metricField := "cpu_percent"
  operator := .gt
  thresholdValue := .fin 0
  containerName := none

def plainServer : Server := { id := 1, name := "web", apiKeyHash := "", ownerId := 1 }

theorem plain_floatStr (x : PyFloat) : Harmless (plainPackages.floatStr x) := by
  change Harmless "0.0"
  decide

theorem plain_isoformat (t : Instant) : Harmless (plainPackages.isoformat t) := by
  change Harmless "1970-01-01T00:00:00+00:00"
  decide

/- In every message a reader finds the tags of its template, and in the texts around them
the strings it was made of; in an email once each `br` is read as a newline. -/
theorem messages_show {Body : Type} (pk : Packages Body) (refs : CharRefs)
    (hfloat : ∀ x, Harmless (pk.floatStr x)) (hiso : ∀ t, Harmless (pk.isoformat t)) :
    (∀ event rule server,
      Shows refs (formatMessage pk event rule server) alertTags
        (alertDoc pk event rule server).texts ∧
      ShowsLines refs (replace '\n' "<br>" (formatMessage pk event rule server)) alertTags
        (alertDoc pk event rule server)) ∧
    (∀ recovered server,
      Shows refs (heartbeatText pk recovered server) heartbeatTextTags
        (heartbeatTextDoc pk recovered server).texts ∧
      Shows refs (heartbeatHtml pk recovered server) heartbeatHtmlTags
        (heartbeatHtmlDoc pk recovered server).texts) ∧
    ∀ (shown : Json → String) (overallStatus : Json) (alerts : List Json),
      (∀ html, formatAdminMessage shown overallStatus alerts = some html →
        ∃ status fields, overallStatus = .str status ∧
          alerts.mapM (readAlert shown) = some fields ∧
          Shows refs html (adminTags alerts.length) (adminDoc status fields).texts) ∧
      ∀ status, overallStatus = .str status → (∀ alert ∈ alerts, IsAlert alert) →
        (formatAdminMessage shown overallStatus alerts).isSome := by
  refine ⟨formatMessage_shows pk refs hfloat hiso, heartbeat_shows pk refs, ?_⟩
  intro shown overallStatus alerts
  constructor
  · intro html h
    exact formatAdminMessage_shows refs h
  · rintro status rfl halerts
    exact formatAdminMessage_isSome shown status halerts

theorem messages_show_quoted :
    let name := "<b>\"Tom & Jerry's\"</b>\n&lt;"
    Shows fiveRefs (formatMessage plainPackages plainEvent (plainRule name) plainServer) alertTags
        (alertDoc plainPackages plainEvent (plainRule name) plainServer).texts ∧
      (alertDoc plainPackages plainEvent (plainRule name) plainServer).texts[1]? =
        some ("🚨 Алерт: " ++ name) :=
  ⟨((messages_show plainPackages fiveRefs plain_floatStr plain_isoformat).1 _ _ _).1, rfl⟩

/- In an email a newline of the rule's name is a tag more than a name without one has. -/
theorem name_adds_break :
    Harmless "ab" ∧
    (parse (replace '\n' "<br>"
      (formatMessage plainPackages plainEvent (plainRule "a\nb") plainServer))).tags ≠
    (parse (replace '\n' "<br>"
      (formatMessage plainPackages plainEvent (plainRule "ab") plainServer))).tags := by
  have htags (name : String) := (formatMessage_shows plainPackages fiveRefs plain_floatStr
    plain_isoformat plainEvent (plainRule name) plainServer).2.broken
  rw [htags, htags]
  decide

end Markup

end PulseWatch
