import PulseWatch.Lib.Effects
import PulseWatch.RuleConstraints
import PulseWatch.RuleDialog

/-!
# How the `/createrule` dialog answers (`_process_rule_draft`)

`RuleDialog` follows the draft; here is the whole handler with the questions it asks and
the statements it sends. What it meets in the database is whatever the other processes
have left there by then. A reply that Telegram does not take is logged by `_send`.
-/

namespace PulseWatch.RuleDialog
open Effects Alerts TelegramBot
open RuleConstraints (Plain flushRule_isSome_iff varchar_isSome_short varchar?_isSome_iff)

/- What ends the handler without a reply: the ValueError of `int`, a KeyError, the
driver's error for an id that is no 32-bit integer, the error of an INSERT, that of a
refresh that finds no row. -/
inductive Raised where
  | valueError
  | keyError
  | outOfRange
  | rejected
  | notRefreshed
  deriving DecidableEq, Repr

/- The tables at a statement of the handler. -/
structure Tables where
  servers : List Server
  users : List User
  nextRule : ℕ
  ids : ∀ r ∈ servers, (storeInt r.id).isSome = true

/- One call makes one SELECT, or one INSERT with its COMMIT and then a SELECT of the new
row; `refreshed` is the table of rules at that last one. -/
structure World where
  tables : Tables
  refreshed : List AlertRule

inductive Call where
  | setRuleDraft (draft : JsonDraft)
  | clearRuleDraft
  | commit (rule : AlertRule)
  | send (text : String)
  deriving DecidableEq, Repr

abbrev Program (A : Type) := Act World Call Raised A

/-- How a run ends, and what it has done. -/
abbrev Outcome := Except Raised Unit × List Call

def setRuleDraft (draft : JsonDraft) : Program Unit := call (.setRuleDraft draft) fun _ => .ok ()

def clearRuleDraft : Program Unit := call .clearRuleDraft fun _ => .ok ()

def send (text : String) : Program Unit := call (.send text) fun _ => .ok ()

/- A value, or what computing it raises. -/
def orRaise {A : Type} (e : Raised) (value : Option A) : Except Raised A :=
  value.elim (.error e) .ok

/-- `select(Server).where(Server.id == server_id, Server.owner_id == user.id)`. -/
def Tables.select (userId serverId : ℕ) (t : Tables) : Except Raised (Option Server) :=
  if (storeInt serverId).isSome then .ok (ownServer userId serverId t.servers)
  else .error .outOfRange

/- The row as INSERT leaves it; `server_id` and `owner_id` are foreign keys. -/
def Tables.insert (t : Tables) (rule : AlertRule) : Option AlertRule :=
  (flushRule rule).bind fun row =>
    if (t.servers.any fun r => r.id = row.serverId) && t.users.any fun u => u.id = row.ownerId then
      some row
    else none

section
variable (py : PyStr) (floatStr : PyFloat → String)

/- `data["operator"]` and the others of the summary; `none` is a KeyError. -/
def summary (data : Data) : Option String := do
  let channels ← list? data "notification_channels"
  let metricType ← str? data "metric_type"
  let serverId ← int? data "server_id"
  let serverName ← str? data "server_name"
  let name ← str? data "name"
  let metricField ← str? data "metric_field"
  let operator ← str? data "operator"
  let thresholdValue ← num? data "threshold_value"
  let channelsStr := if channels = [] then "—" else ", ".intercalate channels
  let containerPart :=
    if metricType = "docker" then
      "\n  контейнер: " ++ (PyText.present (str? data "container_name")).getD "любой"
    else ""
  pure ("Проверь:\n" ++ "  сервер: #" ++ toString serverId ++ " " ++ serverName ++ "\n" ++
    "  имя: " ++ name ++ "\n" ++ "  тип: " ++ metricType ++ containerPart ++ "\n" ++
    "  условие: " ++ metricField ++ " " ++ operator ++ " " ++ floatStr thresholdValue ++ "\n" ++
    "  каналы: " ++ channelsStr ++ "\n" ++ "Создать? y / n")

def serverStep (userId : ℕ) (text : String) (data : Data) : Program Unit :=
  if !py.isdigit text then send "❌ Нужно число — id сервера."
  else do
    let serverId ← ask fun _ => orRaise .valueError (py.int text)
    let server ← ask fun w => w.tables.select userId serverId
    match server with
    | none => send "❌ Сервер не найден или не твой. Введи id ещё раз."
    | some server => do
      setRuleDraft (chooseServer serverId server ⟨"server", data⟩)
      send ("Тип метрики? " ++ " / ".intercalate (metricTypes.map Prod.fst))

def metricTypeStep (text : String) (data : Data) : Program Unit :=
  let mt := py.lower text
  if mt ∈ metricTypes.map Prod.fst then do
    setRuleDraft ⟨"name", put "metric_type" (.str mt) data⟩
    send "Как назвать правило? (свободный текст)"
  else send ("❌ Допустимо: " ++ ", ".intercalate (metricTypes.map Prod.fst))

def nameStep (text : String) (data : Data) : Program Unit :=
  if text = "" ∨ 255 < PyText.len text then send "❌ Имя должно быть от 1 до 255 символов."
  else do
    setRuleDraft ⟨"metric", put "name" (.str text) data⟩
    let metricType ← ask fun _ => orRaise .keyError (str? data "metric_type")
    send ("Какая метрика? Доступно: " ++ ", ".intercalate (fieldsFor metricType))

def askOperator : String :=
  "Оператор? " ++ ", ".intercalate (operators.map ThresholdOperator.value)

def metricStep (text : String) (data : Data) : Program Unit := do
  let metric := py.lower text
  let metricType ← ask fun _ => orRaise .keyError (str? data "metric_type")
  if metric ∈ fieldsFor metricType then
    let data := put "metric_field" (.str metric) data
    if metricType = "docker" then do
      setRuleDraft ⟨"container", data⟩
      send "Имя контейнера? Введи точное имя или `*` чтобы правило применялось к любому контейнеру."
    else do
      setRuleDraft ⟨"operator", data⟩
      send askOperator
  else send ("❌ Допустимо: " ++ ", ".intercalate (fieldsFor metricType))

def containerStep (text : String) (data : Data) : Program Unit :=
  if text = "" then send "❌ Имя контейнера или `*`."
  else do
    let containerName := if text = "*" then .null else .str (PyText.take 255 text)
    setRuleDraft ⟨"operator", put "container_name" containerName data⟩
    send askOperator

def operatorStep (text : String) (data : Data) : Program Unit :=
  let op := py.lower text
  if op ∈ operators.map ThresholdOperator.value then do
    setRuleDraft ⟨"threshold", put "operator" (.str op) data⟩
    send "Порог? (число, например 80 или 0.75)"
  else send ("❌ Допустимо: " ++ ", ".intercalate (operators.map ThresholdOperator.value))

def thresholdStep (text : String) (data : Data) : Program Unit :=
  match py.float text with
  | none => send "❌ Не понимаю, нужно число."
  | some value => do
    setRuleDraft ⟨"channels", put "threshold_value" (.num value) data⟩
    send "Куда слать уведомления? telegram / email / both / none"

def channelsStep (text : String) (data : Data) : Program Unit :=
  match channelPresets.lookup (py.lower text) with
  | none => send "❌ Допустимо: telegram, email, both, none"
  | some channels => do
    let data := put "notification_channels" (.list channels) data
    setRuleDraft ⟨"confirm", data⟩
    let text ← ask fun _ => orRaise .keyError (summary floatStr data)
    send text

/- From `AlertRule(...)` on. -/
def createRule (userId : ℕ) (data : Data) : Program Unit := do
  let rule ← ask fun w => orRaise .keyError (ruleOf w.tables.nextRule userId data)
  let row ← ask fun w => orRaise .rejected (w.tables.insert rule)
  call (.commit row) fun _ => .ok ()
  let row ← ask fun w => orRaise .notRefreshed (w.refreshed.find? (·.id = row.id))
  clearRuleDraft
  send ("✅ Правило #" ++ toString row.id ++ " «" ++ row.name ++ "» создано.")

def confirmStep (userId : ℕ) (text : String) (data : Data) : Program Unit :=
  if py.lower text ∈ ["n", "no", "нет"] then do
    clearRuleDraft
    send "Отменено, ничего не создал."
  else if py.lower text ∈ ["y", "yes", "да"] then createRule userId data
  else send "Ответь y или n."

/- `_process_rule_draft`. -/
def answer (userId : ℕ) (text : String) (draft : JsonDraft) : Program Unit :=
  let text := PyText.strip text
  match draft.step with
  | "server" => serverStep py userId text draft.data
  | "metric_type" => metricTypeStep py text draft.data
  | "name" => nameStep text draft.data
  | "metric" => metricStep py text draft.data
  | "container" => containerStep text draft.data
  | "operator" => operatorStep py text draft.data
  | "threshold" => thresholdStep py text draft.data
  | "channels" => channelsStep py floatStr text draft.data
  | "confirm" => confirmStep py userId text draft.data
  | _ => do
    clearRuleDraft
    send "Что-то пошло не так, черновик сброшен. /createrule чтобы начать заново."

end

/-! ### What an answer should lead to -/

def steps : List String :=
  ["server", "metric_type", "name", "metric", "container", "operator", "threshold", "channels",
    "confirm"]

/- A later step of the dialog. -/
def Advances (draft next : JsonDraft) : Prop :=
  steps.idxOf draft.step < steps.idxOf next.step ∧ Shaped next

/- The handler returns with one reply sent, and has moved the draft on, left it as it was
or cleared it. -/
inductive Handled (draft : JsonDraft) : Outcome → Prop where
  | again (reply : String) : Handled draft (.ok (), [.send reply])
  | advanced (next : JsonDraft) (reply : String) (h : Advances draft next) :
      Handled draft (.ok (), [.setRuleDraft next, .send reply])
  | cancelled (reply : String) : Handled draft (.ok (), [.clearRuleDraft, .send reply])
  | created (row : AlertRule) (reply : String) :
      Handled draft (.ok (), [.commit row, .clearRuleDraft, .send reply])

section
variable (py : PyStr) (floatStr : PyFloat → String) (w : World) (userId : ℕ)

/- The texts the question of a step asks for. -/
def Valid (draft : JsonDraft) (text : String) : Prop :=
  let text := PyText.strip text
  match draft.step with
  | "server" => py.isdigit text = true ∧ ∃ server ∈ w.tables.servers,
      server.ownerId = userId ∧ py.int text = some server.id
  | "metric_type" => py.lower text ∈ metricTypes.map Prod.fst
  | "name" => lengthOk 255 text = true
  | "metric" => ∃ metricType, str? draft.data "metric_type" = some metricType ∧
      py.lower text ∈ fieldsFor metricType
  | "container" => text ≠ ""
  | "operator" => py.lower text ∈ operators.map ThresholdOperator.value
  | "threshold" => (py.float text).isSome = true
  | "channels" => py.lower text ∈ channelPresets.map Prod.fst
  | "confirm" => py.lower text ∈ ["n", "no", "нет", "y", "yes", "да"]
  | _ => False

/- There are valid answers, and every one of them raises. -/
def Stuck (draft : JsonDraft) : Prop :=
  (∃ text, Valid py w userId draft text) ∧ ∀ text, Valid py w userId draft text →
    ∃ e, ((answer py floatStr userId text draft).run w).1 = .error e

/- The INSERT finds the server and the user, the texts hold no NUL, and the refresh finds
the row. -/
structure Insertable (data : Data) : Prop where
  server : ∃ r ∈ w.tables.servers, int? data "server_id" = some r.id
  user : ∃ u ∈ w.tables.users, u.id = userId
  name : ∀ s, str? data "name" = some s → '\x00' ∉ s.toList
  container : ∀ s, str? data "container_name" = some s → '\x00' ∉ s.toList
  kept : ∃ r ∈ w.refreshed, r.id = w.tables.nextRule

/- Digits that `int` reads and the driver takes, and at the end a rule that can be
inserted. -/
def Answerable (draft : JsonDraft) (text : String) : Prop :=
  (draft.step = "server" → py.isdigit (PyText.strip text) = true →
    ∃ n, py.int (PyText.strip text) = some n ∧ (storeInt n).isSome = true) ∧
  (draft.step = "confirm" → py.lower (PyText.strip text) ∉ ["n", "no", "нет"] →
    py.lower (PyText.strip text) ∈ ["y", "yes", "да"] → Insertable w userId draft.data)

end

/-! ### The handler and the dialog -/

theorem run_orRaise {A B : Type} (e : Raised) (v : A) (k : A → Program B) (w : World) :
    ((ask fun _ => orRaise e (some v)) >>= k).run w = (k v).run w := run_bind_ask w rfl

/- What a run of the handler makes of the dialog's next move. -/
inductive Does (w : World) (userId : ℕ) (draft : JsonDraft) : Option Reply → Outcome → Prop where
  | raised (e : Raised) : Does w userId draft none (.error e, [])
  | again (reply : String) : Does w userId draft (some .again) (.ok (), [.send reply])
  | save (next : JsonDraft) (reply : String) :
      Does w userId draft (some (.save next)) (.ok (), [.setRuleDraft next, .send reply])
  | outOfRange (n : ℕ) (h : (storeInt n).isSome = false) :
      Does w userId draft (some (.select n)) (.error .outOfRange, [])
  | unknown (n : ℕ) (reply : String) (h : (storeInt n).isSome = true)
      (hs : ownServer userId n w.tables.servers = none) :
      Does w userId draft (some (.select n)) (.ok (), [.send reply])
  | found (n : ℕ) (server : Server) (reply : String) (h : (storeInt n).isSome = true)
      (hs : ownServer userId n w.tables.servers = some server) :
      Does w userId draft (some (.select n))
        (.ok (), [.setRuleDraft (chooseServer n server draft), .send reply])
  | insert (data : Data) :
      Does w userId draft (some (.insert data)) ((createRule userId data).run w)
  | clear (reply : String) :
      Does w userId draft (some .clear) (.ok (), [.clearRuleDraft, .send reply])

section
variable (py : PyStr) (floatStr : PyFloat → String) (w : World) (userId : ℕ) (text : String)
  (data : Data)

theorem server_does : Does w userId ⟨"server", data⟩
    (processRuleDraft py text ⟨"server", data⟩)
    ((serverStep py userId (PyText.strip text) data).run w) := by
  show Does w userId ⟨"server", data⟩ (if py.isdigit (PyText.strip text) then
    (py.int (PyText.strip text)).map Reply.select else some .again) _
  unfold serverStep
  cases hdigit : py.isdigit (PyText.strip text) with
  | false => exact .again _
  | true =>
    cases hint : py.int (PyText.strip text) with
    | none => exact .raised _
    | some n =>
      show Does w userId ⟨"server", data⟩ (some (.select n)) _
      cases hfit : (storeInt n).isSome with
      | false =>
        have hselect : w.tables.select userId n = .error .outOfRange := by
          rw [Tables.select, hfit]
          rfl
        rw [Bool.not_true, if_neg Bool.false_ne_true, run_orRaise, run_bind_error w hselect]
        exact .outOfRange n hfit
      | true =>
        have hselect : w.tables.select userId n =
            .ok (ownServer userId n w.tables.servers) := by
          rw [Tables.select, hfit]
          rfl
        rw [Bool.not_true, if_neg Bool.false_ne_true, run_orRaise, run_bind_ask w hselect]
        cases hserver : ownServer userId n w.tables.servers with
        | none => exact .unknown n _ hfit hserver
        | some server => exact .found n server _ hfit hserver

theorem metricType_does : Does w userId ⟨"metric_type", data⟩
    (processRuleDraft py text ⟨"metric_type", data⟩)
    ((metricTypeStep py (PyText.strip text) data).run w) := by
  show Does w userId ⟨"metric_type", data⟩
    (if py.lower (PyText.strip text) ∈ metricTypes.map Prod.fst then some (.save ⟨"name",
      put "metric_type" (.str (py.lower (PyText.strip text))) data⟩) else some .again) _
  unfold metricTypeStep
  by_cases h : py.lower (PyText.strip text) ∈ metricTypes.map Prod.fst
  · rw [if_pos h, if_pos h]
    exact .save _ _
  · rw [if_neg h, if_neg h]
    exact .again _

theorem name_does {metricType : String} (ht : str? data "metric_type" = some metricType) :
    Does w userId ⟨"name", data⟩ (processRuleDraft py text ⟨"name", data⟩)
      ((nameStep (PyText.strip text) data).run w) := by
  show Does w userId ⟨"name", data⟩
    (if PyText.strip text = "" ∨ 255 < PyText.len (PyText.strip text) then some .again
      else some (.save ⟨"metric", put "name" (.str (PyText.strip text)) data⟩)) _
  unfold nameStep
  rw [ht]
  by_cases h : PyText.strip text = "" ∨ 255 < PyText.len (PyText.strip text)
  · rw [if_pos h, if_pos h]
    exact .again _
  · rw [if_neg h, if_neg h]
    exact .save _ _

theorem metric_does : Does w userId ⟨"metric", data⟩
    (processRuleDraft py text ⟨"metric", data⟩)
    ((metricStep py (PyText.strip text) data).run w) := by
  show Does w userId ⟨"metric", data⟩ ((str? data "metric_type").map fun metricType =>
    if py.lower (PyText.strip text) ∈ fieldsFor metricType then
      if metricType = "docker" then Reply.save ⟨"container",
        put "metric_field" (.str (py.lower (PyText.strip text))) data⟩
      else Reply.save ⟨"operator",
        put "metric_field" (.str (py.lower (PyText.strip text))) data⟩
    else Reply.again) _
  simp only [metricStep]
  cases ht : str? data "metric_type" with
  | none => exact .raised _
  | some metricType =>
    rw [run_orRaise, Option.map_some]
    by_cases h : py.lower (PyText.strip text) ∈ fieldsFor metricType
    · rw [if_pos h, if_pos h]
      by_cases hd : metricType = "docker"
      · rw [if_pos hd, if_pos hd]
        exact .save _ _
      · rw [if_neg hd, if_neg hd]
        exact .save _ _
    · rw [if_neg h, if_neg h]
      exact .again _

theorem container_does : Does w userId ⟨"container", data⟩
    (processRuleDraft py text ⟨"container", data⟩)
    ((containerStep (PyText.strip text) data).run w) := by
  show Does w userId ⟨"container", data⟩ (if PyText.strip text = "" then some .again
    else some (.save ⟨"operator", put "container_name"
      (if PyText.strip text = "*" then .null else .str (PyText.take 255 (PyText.strip text)))
      data⟩)) _
  unfold containerStep
  by_cases h : PyText.strip text = ""
  · rw [if_pos h, if_pos h]
    exact .again _
  · rw [if_neg h, if_neg h]
    exact .save _ _

theorem operator_does : Does w userId ⟨"operator", data⟩
    (processRuleDraft py text ⟨"operator", data⟩)
    ((operatorStep py (PyText.strip text) data).run w) := by
  show Does w userId ⟨"operator", data⟩
    (if py.lower (PyText.strip text) ∈ operators.map ThresholdOperator.value then
      some (.save ⟨"threshold", put "operator" (.str (py.lower (PyText.strip text))) data⟩)
    else some .again) _
  unfold operatorStep
  by_cases h : py.lower (PyText.strip text) ∈ operators.map ThresholdOperator.value
  · rw [if_pos h, if_pos h]
    exact .save _ _
  · rw [if_neg h, if_neg h]
    exact .again _

theorem threshold_does : Does w userId ⟨"threshold", data⟩
    (processRuleDraft py text ⟨"threshold", data⟩)
    ((thresholdStep py (PyText.strip text) data).run w) := by
  show Does w userId ⟨"threshold", data⟩ (match py.float (PyText.strip text) with
    | none => some .again
    | some value => some (.save ⟨"channels", put "threshold_value" (.num value) data⟩)) _
  unfold thresholdStep
  cases py.float (PyText.strip text) with
  | none => exact .again _
  | some value => exact .save _ _

theorem channels_does (hs : ∀ channels,
    (summary floatStr (put "notification_channels" (.list channels) data)).isSome = true) :
    Does w userId ⟨"channels", data⟩ (processRuleDraft py text ⟨"channels", data⟩)
      ((channelsStep py floatStr (PyText.strip text) data).run w) := by
  show Does w userId ⟨"channels", data⟩
    (match channelPresets.lookup (py.lower (PyText.strip text)) with
    | none => some .again
    | some channels =>
      some (.save ⟨"confirm", put "notification_channels" (.list channels) data⟩)) _
  unfold channelsStep
  cases channelPresets.lookup (py.lower (PyText.strip text)) with
  | none => exact .again _
  | some channels =>
    obtain ⟨reply, hreply⟩ := Option.isSome_iff_exists.mp (hs channels)
    simp only [hreply]
    exact .save _ _

theorem confirm_does : Does w userId ⟨"confirm", data⟩
    (processRuleDraft py text ⟨"confirm", data⟩)
    ((confirmStep py userId (PyText.strip text) data).run w) := by
  show Does w userId ⟨"confirm", data⟩
    (if py.lower (PyText.strip text) ∈ ["n", "no", "нет"] then some .clear
      else if py.lower (PyText.strip text) ∈ ["y", "yes", "да"] then some (.insert data)
      else some .again) _
  unfold confirmStep
  by_cases hn : py.lower (PyText.strip text) ∈ ["n", "no", "нет"]
  · rw [if_pos hn, if_pos hn]
    exact .clear _
  · rw [if_neg hn, if_neg hn]
    by_cases hy : py.lower (PyText.strip text) ∈ ["y", "yes", "да"]
    · rw [if_pos hy, if_pos hy]
      exact .insert data
    · rw [if_neg hy, if_neg hy]
      exact .again _

/- The keys of a draft that has come to its last question but one. -/
theorem summary_confirm (d : Measured) (c : Option String) (op : ThresholdOperator)
    (value : PyFloat) (channels : List String) :
    (summary floatStr (confirmData d c op value channels)).isSome = true := by
  cases hd : d.metricType with
  | system =>
    simp [summary, list?, str?, int?, num?, confirmData, channelsData, thresholdData,
      containerData, measuredData, namedData, chosenData, List.lookup_cons, hd]
  | docker =>
    simp [summary, list?, str?, int?, num?, confirmData, channelsData, thresholdData,
      containerData, measuredData, namedData, chosenData, List.lookup_cons, hd]

/-- The handler makes the move of the dialog. -/
theorem answer_does {draft : JsonDraft} (h : Shaped draft) :
    Does w userId draft (processRuleDraft py text draft)
      ((answer py floatStr userId text draft).run w) := by
  obtain ⟨t, rfl, ht⟩ := h
  cases t with
  | server => exact server_does py w userId text []
  | metricType d => exact metricType_does py w userId text _
  | name d mt =>
    have hanswer (data : Data) : answer py floatStr userId text ⟨"name", data⟩ =
        nameStep (PyText.strip text) data := rfl
    have htype : str? (chosenData d ++ [("metric_type", .str (metricTypeValue mt))])
        "metric_type" = some (metricTypeValue mt) := by
      simp [str?, chosenData, List.lookup_cons]
    rw [encode, hanswer]
    exact name_does py w userId text _ htype
  | metric d => exact metric_does py w userId text _
  | container d =>
    have hanswer (data : Data) : answer py floatStr userId text ⟨"container", data⟩ =
        containerStep (PyText.strip text) data := rfl
    rw [encode, hanswer]
    exact container_does py w userId text _
  | operator d c => exact operator_does py w userId text _
  | threshold d c op => exact threshold_does py w userId text _
  | channels d c op value =>
    refine channels_does py floatStr w userId text _ fun channels => ?_
    rw [put_channels]
    exact summary_confirm floatStr d c op value channels
  | confirm d => exact confirm_does py w userId text _

end

/- Every answer that moves the dialog on moves it to a later step. -/
theorem turn_later {text : String} {t t' : Draft} (h : Turn text t (.next t')) :
    steps.idxOf (encode t).step < steps.idxOf (encode t').step := by
  cases h with
  | metricType => exact (by decide : steps.idxOf "metric_type" < steps.idxOf "name")
  | name => exact (by decide : steps.idxOf "name" < steps.idxOf "metric")
  | docker => exact (by decide : steps.idxOf "metric" < steps.idxOf "container")
  | system => exact (by decide : steps.idxOf "metric" < steps.idxOf "operator")
  | container => exact (by decide : steps.idxOf "container" < steps.idxOf "operator")
  | operator => exact (by decide : steps.idxOf "operator" < steps.idxOf "threshold")
  | threshold => exact (by decide : steps.idxOf "threshold" < steps.idxOf "channels")
  | channels => exact (by decide : steps.idxOf "channels" < steps.idxOf "confirm")

theorem Handled.returns {draft : JsonDraft} {r : Outcome} (h : Handled draft r) :
    r.1 = .ok () := by
  cases h <;> rfl

theorem not_handled {draft : JsonDraft} {e : Raised} {calls : List Call} :
    ¬ Handled draft (.error e, calls) := by
  intro h
  cases h.returns

/-! ### The new rule -/

theorem insert_isSome {t : Tables} {rule : AlertRule} (h : WellFormed rule)
    (hcooldown : rule.cooldownSeconds = 300) :
    (t.insert rule).isSome = true ↔ ((∃ r ∈ t.servers, r.id = rule.serverId) ∧
      ∃ u ∈ t.users, u.id = rule.ownerId) ∧ Plain rule.name ∧
        ∀ c, rule.containerName = some c → Plain c := by
  have hflush : (flushRule rule).isSome = true ↔
      Plain rule.name ∧ ∀ c, rule.containerName = some c → Plain c := by
    have hfield : Plain rule.metricField := by
      have hmem := h.metricField
      revert hmem
      cases rule.metricType with
      | system =>
        simpa [fieldsOf, systemMetricFields] using by rintro (h | h | h) <;> rw [h] <;> decide
      | docker =>
        simpa [fieldsOf, dockerMetricFields] using by rintro (h | h | h) <;> rw [h] <;> decide
    rw [flushRule_isSome_iff, varchar_isSome_short (lengthOk_le h.name),
      varchar_isSome_short (fieldsOf_length _ _ h.metricField), varchar?_isSome_iff, hcooldown]
    constructor
    · rintro ⟨hname, -, hcontainer, -⟩
      exact ⟨hname, fun c hc => (hcontainer c hc).1⟩
    · rintro ⟨hname, hcontainer⟩
      exact ⟨hname, hfield, fun c hc => ⟨hcontainer c hc, Or.inl (h.container c hc).2⟩, rfl⟩
  rw [← hflush, Tables.insert]
  cases hf : flushRule rule with
  | none => simp
  | some row =>
    obtain rfl := h.flush hf
    simp only [Option.bind_some, Option.isSome_some, and_true]
    split
    · next hkeys =>
      simp only [Bool.and_eq_true, List.any_eq_true, decide_eq_true_eq] at hkeys
      simpa using hkeys
    · next hkeys =>
      simp only [Bool.and_eq_true, List.any_eq_true, decide_eq_true_eq] at hkeys
      simpa using hkeys

theorem insert_row {t : Tables} {rule row : AlertRule} (h : WellFormed rule)
    (hi : t.insert rule = some row) : row = rule := by
  obtain ⟨row', hflush, hkeys⟩ := Option.bind_eq_some_iff.mp hi
  split at hkeys
  · obtain rfl := Option.some.inj hkeys
    exact h.flush hflush
  · cases hkeys

theorem containerOf_str {data : Data} {c : Option String} (h : containerOf data = some c) :
    str? data "container_name" = c := by
  unfold containerOf at h
  unfold str?
  split at h
  · next hl =>
    rw [hl]
    exact Option.some.inj h
  · next hl =>
    rw [hl]
    exact Option.some.inj h
  · next s hl =>
    rw [hl]
    exact Option.some.inj h
  · cases h

/- The rule of a finished dialog is inserted, or the handler raises. -/
theorem createRule_handled {w : World} {userId : ℕ} {draft : JsonDraft} {d : Ready}
    (h : Sane (.confirm d)) : Handled draft ((createRule userId (readyData d)).run w) ↔
      Insertable w userId (readyData d) := by
  obtain ⟨hserver, -, hname, -, hcontainer, -⟩ := readyData_lookup d h
  have hrule := ruleOf_readyData w.tables.nextRule userId d h
  have hwell := rule_wellFormed w.tables.nextRule userId d h
  have hint : int? (readyData d) "server_id" = some d.rule.serverId := by rw [int?, hserver]
  have hstr : str? (readyData d) "name" = some d.rule.name := by rw [str?, hname]
  have hc := containerOf_str hcontainer
  have hinsert := insert_isSome (t := w.tables) hwell rfl
  have hiff : Insertable w userId (readyData d) ↔
      (w.tables.insert (d.rule.rule w.tables.nextRule userId)).isSome = true ∧
        ∃ r ∈ w.refreshed, r.id = w.tables.nextRule := by
    rw [hinsert]
    constructor
    · intro hi
      obtain ⟨r, hr, hid⟩ := hi.server
      rw [hint] at hid
      refine ⟨⟨⟨⟨r, hr, (Option.some.inj hid).symm⟩, hi.user⟩, hi.name _ hstr, ?_⟩, hi.kept⟩
      exact fun c hcc => hi.container c (hc.trans hcc)
    · rintro ⟨⟨⟨⟨r, hr, hid⟩, huser⟩, hplain, hcplain⟩, hkept⟩
      refine ⟨⟨r, hr, hint.trans (congrArg some hid.symm)⟩, huser, ?_, ?_, hkept⟩
      · intro s hs
        obtain rfl := Option.some.inj (hstr.symm.trans hs)
        exact hplain
      · exact fun s hs => hcplain s (hc.symm.trans hs)
  rw [hiff]
  unfold createRule
  cases hrow : w.tables.insert (d.rule.rule w.tables.nextRule userId) with
  | none =>
    rw [run_bind_ask w (v := d.rule.rule w.tables.nextRule userId) (by rw [hrule]; rfl),
      run_bind_error w (e := .rejected) (by rw [run_ask, hrow]; rfl)]
    simp [not_handled]
  | some row =>
    obtain rfl := insert_row hwell hrow
    rw [run_bind_ask w (v := d.rule.rule w.tables.nextRule userId) (by rw [hrule]; rfl),
      run_bind_ask w (v := d.rule.rule w.tables.nextRule userId) (by rw [hrow]; rfl)]
    cases hkept : w.refreshed.find? (·.id = w.tables.nextRule) with
    | none =>
      have hgone : ¬ ∃ r ∈ w.refreshed, r.id = w.tables.nextRule := by
        rintro ⟨r, hr, hid⟩
        have hno := List.find?_eq_none.mp hkept r hr
        exact absurd (decide_eq_true hid) hno
      rw [run_bind_ok w rfl, run_bind_error w (e := .notRefreshed) (by
        show orRaise .notRefreshed (w.refreshed.find? (·.id = w.tables.nextRule)) = _
        rw [hkept]
        rfl)]
      exact ⟨fun hh => absurd hh not_handled, fun hh => absurd hh.2 hgone⟩
    | some r =>
      have hid : r.id = w.tables.nextRule := by simpa using List.find?_some hkept
      rw [run_bind_ok w rfl, run_bind_ask w (v := r) (by
        show orRaise .notRefreshed (w.refreshed.find? (·.id = w.tables.nextRule)) = _
        rw [hkept]
        rfl)]
      exact ⟨fun _ => ⟨rfl, r, List.mem_of_find?_eq_some hkept, hid⟩, fun _ => .created _ _⟩

/-! ### Every draft of every run -/

section
variable (py : PyStr) (floatStr : PyFloat → String) (w : World) (userId : ℕ)

theorem handled_server (text : String) :
    Handled (encode .server) ((answer py floatStr userId text (encode .server)).run w) ↔
      Answerable py w userId (encode .server) text := by
  have hdoes := @answer_does py floatStr w userId text (encode .server)
    ⟨.server, rfl, trivial⟩
  have hmove : processRuleDraft py text (encode .server) =
      if py.isdigit (PyText.strip text) then (py.int (PyText.strip text)).map Reply.select
      else some .again := rfl
  have hshaped : ∀ n server, processRuleDraft py text (encode .server) = some (.select n) →
      Shaped (chooseServer n server (encode .server)) := by
    intro n server hp
    refine @advance_shaped py (encode .server) _ ⟨text, some server⟩
      ⟨.server, rfl, trivial⟩ ?_
    rw [advance, hp]
    rfl
  have hanswerable : Answerable py w userId (encode .server) text ↔
      (py.isdigit (PyText.strip text) = true →
        ∃ n, py.int (PyText.strip text) = some n ∧ (storeInt n).isSome = true) := by
    refine ⟨fun h => h.1 rfl, fun h => ⟨fun _ => h, fun hs => ?_⟩⟩
    exact absurd hs (by decide)
  rw [hanswerable]
  generalize (answer py floatStr userId text (encode .server)).run w = r at hdoes ⊢
  cases hdigit : py.isdigit (PyText.strip text) with
  | false =>
    rw [hmove, hdigit] at hdoes
    cases hdoes
    exact ⟨fun _ h => (by cases h), fun _ => .again _⟩
  | true =>
    cases hint : py.int (PyText.strip text) with
    | none =>
      rw [hmove, hdigit, hint] at hdoes
      cases hdoes
      refine ⟨fun h => absurd h not_handled, fun h => ?_⟩
      obtain ⟨n, hn, -⟩ := h rfl
      cases hn
    | some n =>
      have hselect : processRuleDraft py text (encode .server) = some (.select n) := by
        rw [hmove, hdigit, hint]
        rfl
      rw [hselect] at hdoes
      cases hdoes with
      | outOfRange _ hfit =>
        refine ⟨fun h => absurd h not_handled, fun h => ?_⟩
        obtain ⟨m, hm, hstore⟩ := h rfl
        obtain rfl := Option.some.inj hm
        rw [hfit] at hstore
        cases hstore
      | unknown _ _ hfit hs => exact ⟨fun _ _ => ⟨n, rfl, hfit⟩, fun _ => .again _⟩
      | found _ server _ hfit hs =>
        refine ⟨fun _ _ => ⟨n, rfl, hfit⟩, fun _ => .advanced _ _ ⟨?_, hshaped n server hselect⟩⟩
        exact (by decide : steps.idxOf "server" < steps.idxOf "metric_type")

theorem handled_confirm {d : Ready} (h : Sane (.confirm d)) (text : String) :
    Handled (encode (.confirm d))
        ((answer py floatStr userId text (encode (.confirm d))).run w) ↔
      Answerable py w userId (encode (.confirm d)) text := by
  have hdoes := @answer_does py floatStr w userId text (encode (.confirm d))
    ⟨.confirm d, rfl, h⟩
  have hmove : processRuleDraft py text (encode (.confirm d)) =
      if py.lower (PyText.strip text) ∈ ["n", "no", "нет"] then some .clear
      else if py.lower (PyText.strip text) ∈ ["y", "yes", "да"] then
        some (.insert (readyData d))
      else some .again := rfl
  have hanswerable : Answerable py w userId (encode (.confirm d)) text ↔
      (py.lower (PyText.strip text) ∉ ["n", "no", "нет"] →
        py.lower (PyText.strip text) ∈ ["y", "yes", "да"] →
        Insertable w userId (readyData d)) := by
    refine ⟨fun hh => hh.2 rfl, fun hh => ⟨fun hs => ?_, fun _ => hh⟩⟩
    exact absurd hs (by decide : ("confirm" : String) ≠ "server")
  rw [hanswerable]
  generalize (answer py floatStr userId text (encode (.confirm d))).run w = r at hdoes ⊢
  by_cases hno : py.lower (PyText.strip text) ∈ ["n", "no", "нет"]
  · rw [hmove, if_pos hno] at hdoes
    cases hdoes
    exact ⟨fun _ hn => absurd hno hn, fun _ => .cancelled _⟩
  · by_cases hyes : py.lower (PyText.strip text) ∈ ["y", "yes", "да"]
    · rw [hmove, if_neg hno, if_pos hyes] at hdoes
      cases hdoes
      rw [createRule_handled h]
      exact ⟨fun hi _ _ => hi, fun hi => hi hno hyes⟩
    · rw [hmove, if_neg hno, if_neg hyes] at hdoes
      cases hdoes
      exact ⟨fun _ _ hy => absurd hy hyes, fun _ => .again _⟩

/- Only `int` can raise on the way to a move. -/
theorem processRuleDraft_returns {text : String} {t : Draft} (hs : t ≠ .server) :
    TelegramBot.processRuleDraft py text t ≠ none := by
  cases t with
  | server => exact absurd rfl hs
  | metric d =>
    simp only [TelegramBot.processRuleDraft]
    split
    · split
      · exact Option.some_ne_none _
      · exact Option.some_ne_none _
    · exact Option.some_ne_none _
  | confirm d =>
    simp only [TelegramBot.processRuleDraft]
    split
    · exact Option.some_ne_none _
    · split
      · exact Option.some_ne_none _
      · exact Option.some_ne_none _
  | _ =>
    simp only [TelegramBot.processRuleDraft]
    split
    · exact Option.some_ne_none _
    · exact Option.some_ne_none _

/- No question between the first and the last lets an answer raise. -/
theorem handled_between {t : Draft} (h : Sane t) (hs : t ≠ .server) (hc : ∀ d, t ≠ .confirm d)
    (text : String) :
    Handled (encode t) ((answer py floatStr userId text (encode t)).run w) := by
  have hdoes := answer_does py floatStr w userId text ⟨t, rfl, h⟩
  have hmove := process_encode py text h
  have hshaped : ∀ next, processRuleDraft py text (encode t) = some (.save next) →
      Shaped next := by
    intro next hp
    refine @advance_shaped py (encode t) _ ⟨text, none⟩ ⟨t, rfl, h⟩ ?_
    rw [advance, hp]
  generalize (answer py floatStr userId text (encode t)).run w = r at hdoes ⊢
  cases ha : TelegramBot.processRuleDraft py (PyText.strip text) t with
  | none => exact absurd ha (processRuleDraft_returns py hs)
  | some a =>
    have hturn := processRuleDraft_turn ha
    rw [ha, Option.map_some] at hmove
    rw [hmove] at hdoes
    cases hturn with
    | again =>
      cases hdoes
      exact .again _
    | lookUp => exact absurd rfl hs
    | cancelled d => exact absurd rfl (hc d)
    | create d => exact absurd rfl (hc d)
    | _ =>
      cases hdoes
      exact .advanced _ _ ⟨turn_later (processRuleDraft_turn ha), hshaped _ hmove⟩

theorem handled_iff {draft : JsonDraft} (h : Shaped draft) (text : String) :
    Handled draft ((answer py floatStr userId text draft).run w) ↔
      Answerable py w userId draft text := by
  obtain ⟨t, rfl, ht⟩ := h
  cases t with
  | server => exact handled_server py floatStr w userId text
  | confirm d => exact handled_confirm py floatStr w userId ht text
  | _ =>
    refine ⟨fun _ => ⟨fun hs => ?_, fun hs => ?_⟩, fun _ => handled_between py floatStr w userId ht
      (by intro hc; cases hc) (by intro d hc; cases hc) text⟩
    · exact absurd hs (show _ ≠ _ by simp [encode])
    · exact absurd hs (show _ ≠ _ by simp [encode])

/- Some valid answer of every question goes through: the id of a server, and `n` at the
end. -/
theorem not_stuck (hn : py.lower "n" = "n") {draft : JsonDraft} (h : Shaped draft) :
    ¬ Stuck py floatStr w userId draft := by
  rintro ⟨⟨text, hvalid⟩, hraises⟩
  have hgood : ∃ text, Valid py w userId draft text ∧ Answerable py w userId draft text := by
    by_cases hc : draft.step = "confirm"
    · have hno : py.lower (PyText.strip "n") ∈ ["n", "no", "нет"] := by
        rw [(by decide : PyText.strip "n" = "n"), hn]
        exact List.mem_cons_self
      refine ⟨"n", ?_, fun hs => absurd (hs.symm.trans hc) (by decide),
        fun _ hlate => absurd hno hlate⟩
      simp only [Valid, hc]
      exact List.mem_append_left ["y", "yes", "да"] hno
    · refine ⟨text, hvalid, fun hs _ => ?_, fun hs => absurd hs hc⟩
      simp only [Valid, hs] at hvalid
      obtain ⟨-, server, hserver, -, hint⟩ := hvalid
      exact ⟨server.id, hint, w.tables.ids server hserver⟩
  obtain ⟨good, hvalid', hanswerable⟩ := hgood
  obtain ⟨e, he⟩ := hraises good hvalid'
  have hok := ((handled_iff py floatStr w userId h good).mpr hanswerable).returns
  rw [hok] at he
  cases he

end

theorem stored_shaped {py : PyStr} {now : Instant} {ls : List Label} {s : State}
    (hr : Runs.run (step py) (init now) ls = some s) {chatId : ℤ} {draft : JsonDraft}
    (hd : s.getRuleDraft chatId = some draft) : Shaped draft := by
  have hinv : Inv py s := Runs.reachable_invariant (Inv py) (fun _ _ _ hi hs => hi.step hs)
    (Inv.init now) ⟨ls, hr⟩
  obtain ⟨e, he, rfl, rfl, -⟩ := ExpiringStore.get?_mem hd
  exact (hinv.stored e he).shaped

/- An answer to a stored draft is handled, and the dialog not stuck, exactly if it is
answerable. -/
theorem handled_iff_answerable {py : PyStr} (hn : py.lower "n" = "n") (now : Instant)
    (ls : List Label) {s : State} (hr : Runs.run (step py) (init now) ls = some s) {chatId : ℤ}
    {draft : JsonDraft} (hd : s.getRuleDraft chatId = some draft) (floatStr : PyFloat → String)
    (w : World) (userId : ℕ) (text : String) :
    (Handled draft ((answer py floatStr userId text draft).run w) ∧
      ¬ Stuck py floatStr w userId draft) ↔ Answerable py w userId draft text := by
  have hshaped := stored_shaped hr hd
  rw [handled_iff py floatStr w userId hshaped text]
  exact and_iff_left (not_stuck py floatStr w userId hn hshaped)

/- A dialog just opened. -/
def opening : List Label :=
  [.world [{ id := 1, email := "a", passwordHash := "", telegramChatId := some "5" }]
      [{ id := 1, name := "web", apiKeyHash := "", ownerId := 1 }],
    .message 5 "/createrule", .bot, .bot, .bot, .bot]

def openingWorld : World where
  tables :=
    { servers := [{ id := 1, name := "web", apiKeyHash := "", ownerId := 1 }]
      users := [{ id := 1, email := "a", passwordHash := "", telegramChatId := some "5" }]
      nextRule := 1
      ids := by decide }
  refreshed := []

theorem opening_handled : ∃ s, Runs.run (step asciiStr) (init 0) opening = some s ∧
    s.getRuleDraft 5 = some ⟨"server", []⟩ ∧
    Handled ⟨"server", []⟩
      ((answer asciiStr (fun _ => "") 1 "1" ⟨"server", []⟩).run openingWorld) := by
  obtain ⟨s, hrun⟩ : ∃ s, Runs.run (step asciiStr) (init 0) opening = some s := ⟨_, rfl⟩
  have hdraft : s.getRuleDraft 5 = some ⟨"server", []⟩ := by
    obtain rfl := Option.some.inj (hrun.symm.trans (by rfl))
    decide
  refine ⟨s, hrun, hdraft, ?_⟩
  exact ((handled_iff_answerable (by decide) 0 opening hrun hdraft (fun _ => "") openingWorld 1
    "1").mpr ⟨fun _ _ => ⟨1, by decide, by decide⟩, fun hs => absurd hs (by decide)⟩).1

/- `"²".isdigit()` is true and `int("²")` raises. -/
theorem superscript_unanswered : ∃ s,
    Runs.run (step (unicodeStr PyText.lower fun _ => none)) (init 0) opening = some s ∧
    s.getRuleDraft 5 = some ⟨"server", []⟩ ∧
    (answer (unicodeStr PyText.lower fun _ => none) (fun _ => "") 1 "\u00B2"
      ⟨"server", []⟩).run openingWorld = (.error .valueError, []) ∧
    ¬ Handled ⟨"server", []⟩ ((answer (unicodeStr PyText.lower fun _ => none) (fun _ => "") 1
      "\u00B2" ⟨"server", []⟩).run openingWorld) := by
  have hrun : (answer (unicodeStr PyText.lower fun _ => none) (fun _ => "") 1 "\u00B2"
      ⟨"server", []⟩).run openingWorld = (.error .valueError, []) := by decide
  refine ⟨_, rfl, rfl, hrun, ?_⟩
  rw [hrun]
  exact not_handled

end PulseWatch.RuleDialog
