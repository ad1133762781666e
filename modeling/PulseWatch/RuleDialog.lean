import PulseWatch.TelegramBot

/-!
# The dialog of `/createrule` (`app/telegram_bot.py`, `app/redis_client.py`)

Between two messages of a chat the dialog is a JSON text in Redis: the step it
stands at and a dict that grows by one key with each answer. The code reads the
dict by its keys, so a missing one is a KeyError and a stale one goes unnoticed.
`TelegramBot.Draft` is the dialog as it is meant, one constructor for each step.
-/

namespace PulseWatch.RuleDialog
open ExpiringStore Alerts TelegramBot

/- The JSON values of a draft. -/
inductive Json where
  | null
  | int (n : ℕ)
  | num (x : PyFloat)
  | str (s : String)
  | list (l : List String)
  deriving DecidableEq, Repr

/-- A dict with its keys in the order of insertion. -/
abbrev Data := List (String × Json)

/-- `data[key] = value`. -/
def put (key : String) (value : Json) : Data → Data
  | [] => [(key, value)]
  | entry :: data => if entry.1 = key then (key, value) :: data else entry :: put key value data

section
variable (data : Data) (key : String)

/- `data[key]` where an `int`, a `float`, a `str` or a list is wanted. -/
def int? : Option ℕ := match data.lookup key with
  | some (.int n) => some n
  | _ => none

def num? : Option PyFloat := match data.lookup key with
  | some (.num x) => some x
  | _ => none

def str? : Option String := match data.lookup key with
  | some (.str s) => some s
  | _ => none

def list? : Option (List String) := match data.lookup key with
  | some (.list l) => some l
  | _ => none

end

/-- `{"step": ..., "data": {...}}`. -/
structure JsonDraft where
  step : String
  data : Data
  deriving DecidableEq, Repr

/- What an answer makes the handler do next; the reply alone is `again`. -/
inductive Reply where
  | again
  | save (draft : JsonDraft)
  | select (serverId : ℕ)
  | insert (data : Data)
  | clear
  deriving DecidableEq, Repr

/- `_SYSTEM_METRIC_FIELDS if data["metric_type"] == "system" else _DOCKER_METRIC_FIELDS` -/
def fieldsFor (metricType : String) : List String :=
  if metricType = "system" then systemMetricFields else dockerMetricFields

/- `_process_rule_draft` up to its next await; `none` is an exception. -/
def processRuleDraft (py : PyStr) (text : String) (draft : JsonDraft) : Option Reply :=
  let text := PyText.strip text
  let data := draft.data
  match draft.step with
  | "server" =>
    if py.isdigit text then (py.int text).map .select else some .again
  | "metric_type" =>
    let mt := py.lower text
    if mt ∈ metricTypes.map Prod.fst then
      some (.save ⟨"name", put "metric_type" (.str mt) data⟩)
    else some .again
  | "name" =>
    if text = "" ∨ 255 < PyText.len text then some .again
    else some (.save ⟨"metric", put "name" (.str text) data⟩)
  | "metric" =>
    let metric := py.lower text
    (str? data "metric_type").map fun metricType =>
      if metric ∈ fieldsFor metricType then
        let data := put "metric_field" (.str metric) data
        if metricType = "docker" then .save ⟨"container", data⟩ else .save ⟨"operator", data⟩
      else .again
  | "container" =>
    if text = "" then some .again
    else
      let containerName := if text = "*" then .null else .str (PyText.take 255 text)
      some (.save ⟨"operator", put "container_name" containerName data⟩)
  | "operator" =>
    let op := py.lower text
    if op ∈ operators.map ThresholdOperator.value then
      some (.save ⟨"threshold", put "operator" (.str op) data⟩)
    else some .again
  | "threshold" => match py.float text with
    | none => some .again
    | some value => some (.save ⟨"channels", put "threshold_value" (.num value) data⟩)
  | "channels" => match channelPresets.lookup (py.lower text) with
    | none => some .again
    | some channels =>
      some (.save ⟨"confirm", put "notification_channels" (.list channels) data⟩)
  | "confirm" =>
    if py.lower text ∈ ["n", "no", "нет"] then some .clear
    else if py.lower text ∈ ["y", "yes", "да"] then some (.insert data)
    else some .again
  | _ => some .clear

/- After the SELECT of the server step. -/
def chooseServer (serverId : ℕ) (server : Server) (draft : JsonDraft) : JsonDraft :=
  ⟨"metric_type", put "server_name" (.str server.name)
    (put "server_id" (.int serverId) draft.data)⟩

/- The keys the confirm step reads with `data[...]`, the summary before it included. -/
def requiredKeys : List String :=
  ["server_id", "server_name", "name", "metric_type", "metric_field", "operator",
    "threshold_value", "notification_channels"]

/- `data.get("container_name")`; a value that is no string fails the INSERT. -/
def containerOf (data : Data) : Option (Option String) :=
  match data.lookup "container_name" with
  | none | some .null => some none
  | some (.str s) => some (some s)
  | _ => none

/- `AlertRule(...)` of the confirm step; `none` is a KeyError, a ValueError of an
enumeration or a value of the wrong type. -/
def ruleOf (id ownerId : ℕ) (data : Data) : Option AlertRule := do
  let serverId ← int? data "server_id"
  let name ← str? data "name"
  let metricType ← (str? data "metric_type").bind fun v => metricTypes.lookup v
  let metricField ← str? data "metric_field"
  let operator ← (str? data "operator").bind fun v => operators.find? fun op => op.value = v
  let thresholdValue ← num? data "threshold_value"
  let containerName ← containerOf data
  let notificationChannels ← list? data "notification_channels"
  pure { id, serverId, ownerId, name, metricType, metricField, operator, thresholdValue
         containerName, notificationChannels }

/-! ### The machine -/

/- An answer that moved a dialog on, with the server its SELECT found. -/
structure Said where
  text : String
  server : Option Server := none
  deriving DecidableEq, Repr

/- What happened to the dialogs, newest first. Nothing reads it. -/
inductive Entry where
  | opened (chatId : ℤ)
  | answered (chatId : ℤ) (said : Said)
  | closed (chatId : ℤ)
  deriving DecidableEq, Repr

/- The await the bot stands at; `text` is the message in hand. -/
inductive Place where
  | idle
  | finding (chatId : ℤ) (text : String)
  | cancelling (chatId : ℤ)
  | reading (userId : ℕ) (chatId : ℤ) (text : String)
  | leaving (userId : ℕ) (chatId : ℤ) (text : String)
  | listing (userId : ℕ) (chatId : ℤ)
  | opening (chatId : ℤ)
  | selecting (userId : ℕ) (chatId : ℤ) (text : String) (serverId : ℕ) (draft : JsonDraft)
  | saving (chatId : ℤ) (said : Said) (draft : JsonDraft)
  | inserting (userId : ℕ) (chatId : ℤ) (data : Data)
  | clearing (chatId : ℤ)
  deriving DecidableEq, Repr

structure State where
  now : Instant
  users : List User
  servers : List Server
  drafts : Store ℤ JsonDraft Instant
  rules : List AlertRule
  nextRule : ℕ
  place : Place
  journal : List Entry

def init (now : Instant) : State := ⟨now, [], [], [], [], 1, .idle, []⟩

/- `world` is whatever the other processes, and the commands that are no part of the
dialog, do to the two tables; `abort` an exception of an await. -/
inductive Label where
  | tick (microseconds : ℕ)
  | world (users : List User) (servers : List Server)
  | message (chatId : ℤ) (text : String)
  | bot
  | abort

section
variable (s : State)

def State.goto (place : Place) : State := { s with place }

def State.note (entry : Entry) : State := { s with journal := entry :: s.journal }

def State.setRuleDraft (chatId : ℤ) (draft : JsonDraft) : State :=
  { s with drafts := set chatId draft (s.now + seconds 600) s.drafts }

def State.getRuleDraft (chatId : ℤ) : Option JsonDraft := get? s.now chatId s.drafts

def State.clearRuleDraft (chatId : ℤ) : State :=
  { s with drafts := del chatId s.drafts }.note (.closed chatId)

/- INSERT and COMMIT of the new rule; its server must exist. -/
def State.addRule (userId : ℕ) (data : Data) : Option State :=
  ((ruleOf s.nextRule userId data).bind flushRule).bind fun row =>
    if s.servers.any fun r => r.id = row.serverId then
      some { s with rules := row :: s.rules, nextRule := s.nextRule + 1 }
    else none

end

section
variable (py : PyStr)

/- `_handle_message` up to its first await. -/
def handleMessage (chatId : ℤ) (text : String) : Place :=
  if chatId = 0 ∨ text = "" ∨ PyText.startsWith text "/start" then .idle
  else .finding chatId text

/- The branches of the dispatcher that touch a draft; `/status`, `/servers`, `/mute`,
`/rules`, `/toggle`, `/delete`, `/events`, `/pause`, `/resume` are tested before. -/
def dispatch (userId : ℕ) (chatId : ℤ) (text : String) : Place :=
  if PyText.startsWith text "/createrule" then .listing userId chatId else .idle

/- After `get_rule_draft`. -/
def resume (userId : ℕ) (chatId : ℤ) (text : String) : Option JsonDraft → Place
  | some draft =>
    if PyText.startsWith text "/" then .leaving userId chatId text
    else match processRuleDraft py text draft with
      | none | some .again => .idle
      | some (.save draft') => .saving chatId { text } draft'
      | some (.select serverId) => .selecting userId chatId text serverId draft
      | some (.insert data) => .inserting userId chatId data
      | some .clear => .clearing chatId
  | none => dispatch userId chatId text

def ownServer (userId serverId : ℕ) (servers : List Server) : Option Server :=
  servers.find? fun r => r.id = serverId ∧ r.ownerId = userId

/-- The await the bot stands at, and the code up to the next one. -/
def botStep (s : State) : Option State :=
  match s.place with
  | .idle => none
  | .finding chatId text => match findUserByChatId chatId s.users with
    | .one user =>
      if PyText.startsWith text "/cancel" then some (s.goto (.cancelling chatId))
      else some (s.goto (.reading user.id chatId text))
    | _ => some (s.goto .idle)
  | .cancelling chatId => some ((s.clearRuleDraft chatId).goto .idle)
  | .reading userId chatId text =>
    some (s.goto (resume py userId chatId text (s.getRuleDraft chatId)))
  | .leaving userId chatId text =>
    some ((s.clearRuleDraft chatId).goto (dispatch userId chatId text))
  | .listing userId chatId =>
    if s.servers.any fun r => r.ownerId = userId then some (s.goto (.opening chatId))
    else some (s.goto .idle)
  | .opening chatId =>
    some (((s.setRuleDraft chatId ⟨"server", []⟩).note (.opened chatId)).goto .idle)
  | .selecting userId chatId text serverId draft =>
    match ownServer userId serverId s.servers with
    | some server =>
      some (s.goto (.saving chatId ⟨text, some server⟩ (chooseServer serverId server draft)))
    | none => some (s.goto .idle)
  | .saving chatId said draft =>
    some (((s.setRuleDraft chatId draft).note (.answered chatId said)).goto .idle)
  | .inserting userId chatId data => match s.addRule userId data with
    | some t => some (t.goto (.clearing chatId))
    | none => some (s.goto .idle)
  | .clearing chatId => some ((s.clearRuleDraft chatId).goto .idle)

def step (s : State) : Label → Option State
  | .tick microseconds => some { s with now := s.now + (microseconds : ℤ) }
  | .world users servers => some { s with users, servers }
  | .message chatId text => match s.place with
    | .idle => some (s.goto (handleMessage chatId text))
    | _ => none
  | .bot => botStep py s
  | .abort => match s.place with
    | .idle => none
    | _ => some (s.goto .idle)

end

/-! ### What the dialog guarantees -/

/- A rule as the dialog may insert it. -/
structure WellFormed (r : AlertRule) : Prop where
  metricField : r.metricField ∈ fieldsOf r.metricType
  system : r.metricType = .system → r.containerName = none
  container : ∀ c, r.containerName = some c → c ≠ "" ∧ PyText.len c ≤ 255
  operator : r.operator ∈ operators
  channels : r.notificationChannels ∈ channelPresets.map Prod.snd
  name : lengthOk 255 r.name = true

/- The answers of the chat's dialog: none is open before the first `opened`, and
`closed` ends it. -/
def dialogOf (chatId : ℤ) : List Entry → Option (List Said)
  | [] => none
  | .opened c :: entries => if c = chatId then some [] else dialogOf chatId entries
  | .answered c said :: entries =>
    if c = chatId then (dialogOf chatId entries).map (· ++ [said]) else dialogOf chatId entries
  | .closed c :: entries => if c = chatId then none else dialogOf chatId entries

section
variable (py : PyStr)

/-- The draft an answer leads to. -/
def advance (draft : JsonDraft) (said : Said) : Option JsonDraft :=
  match processRuleDraft py said.text draft with
  | some (.save draft') => some draft'
  | some (.select serverId) => said.server.map fun server => chooseServer serverId server draft
  | _ => none

/- The draft as the answers alone make it, from the empty dict on. -/
def replay (said : List Said) : Option JsonDraft := said.foldlM (advance py) ⟨"server", []⟩

/- At the confirm insert the dict is complete, is made of the answers of this dialog
and of nothing else, and gives a well-formed rule; so is every rule inserted. -/
structure DialogSound (s : State) : Prop where
  complete : ∀ userId chatId data, s.place = .inserting userId chatId data →
    ∀ key ∈ requiredKeys, (data.lookup key).isSome = true
  fresh : ∀ userId chatId data, s.place = .inserting userId chatId data →
    ∃ said, dialogOf chatId s.journal = some said ∧ replay py said = some ⟨"confirm", data⟩
  builds : ∀ userId chatId data, s.place = .inserting userId chatId data →
    ∃ rule, ruleOf s.nextRule userId data = some rule ∧ WellFormed rule
  inserted : ∀ r ∈ s.rules, WellFormed r

end

/-! ### The dict of each step -/

def metricTypeValue : MetricType → String
  | .system => "system"
  | .docker => "docker"

def containerValue : Option String → Json
  | none => .null
  | some c => .str c

def chosenData (d : Chosen) : Data :=
  [("server_id", .int d.serverId), ("server_name", .str d.serverName)]

def namedData (d : Named) : Data :=
  chosenData d.toChosen ++ [("metric_type", .str (metricTypeValue d.metricType)),
    ("name", .str d.name)]

def measuredData (d : Measured) : Data :=
  namedData d.toNamed ++ [("metric_field", .str d.metricField)]

/- The container question is put for docker rules only. -/
def containerData (d : Measured) (containerName : Option String) : Data :=
  measuredData d ++ match d.metricType with
    | .system => []
    | .docker => [("container_name", containerValue containerName)]

def thresholdData (d : Measured) (containerName : Option String) (op : ThresholdOperator) :
    Data := containerData d containerName ++ [("operator", .str op.value)]

def channelsData (d : Measured) (containerName : Option String) (op : ThresholdOperator)
    (value : PyFloat) : Data :=
  thresholdData d containerName op ++ [("threshold_value", .num value)]

def confirmData (d : Measured) (containerName : Option String) (op : ThresholdOperator)
    (value : PyFloat) (channels : List String) : Data :=
  channelsData d containerName op value ++ [("notification_channels", .list channels)]

def Ready.measured (data : Ready) : Measured :=
  { data.toChosen with
    metricType := data.rule.metricType, name := data.rule.name, nameOk := data.rule.nameOk
    metricField := data.rule.metricField, fieldOk := data.rule.fieldOk }

def readyData (data : Ready) : Data :=
  confirmData (Ready.measured data) data.rule.containerName data.rule.operator
    data.rule.thresholdValue data.rule.notificationChannels

def encode : Draft → JsonDraft
  | .server => ⟨"server", []⟩
  | .metricType d => ⟨"metric_type", chosenData d⟩
  | .name d mt => ⟨"name", chosenData d ++ [("metric_type", .str (metricTypeValue mt))]⟩
  | .metric d => ⟨"metric", namedData d⟩
  | .container d => ⟨"container", measuredData d⟩
  | .operator d c => ⟨"operator", containerData d c⟩
  | .threshold d c op => ⟨"threshold", thresholdData d c op⟩
  | .channels d c op value => ⟨"channels", channelsData d c op value⟩
  | .confirm d => ⟨"confirm", readyData d⟩

def encodeAnswer : Answer → Reply
  | .again => .again
  | .next draft => .save (encode draft)
  | .lookUp serverId => .select serverId
  | .create d => .insert (readyData d)
  | .cancelled => .clear

theorem put_new {key : String} {value : Json} {data : Data} (h : key ∉ data.map Prod.fst) :
    put key value data = data ++ [(key, value)] := by
  induction data with
  | nil => rfl
  | cons entry data ih =>
    rw [List.map_cons, List.mem_cons, not_or] at h
    rw [put, if_neg (Ne.symm h.1), ih h.2]
    rfl

/- The keys present before each answer. -/
section
variable (d : Measured) (c : Option String) (op : ThresholdOperator) (value : PyFloat)

theorem put_container (hd : d.metricType = .docker) :
    put "container_name" (containerValue c) (measuredData d) = containerData d c := by
  rw [put_new (by simp [measuredData, namedData, chosenData])]
  simp only [containerData, hd]

theorem put_operator : put "operator" (.str op.value) (containerData d c) =
    thresholdData d c op := by
  refine put_new ?_
  cases hd : d.metricType with
  | system => simp [containerData, measuredData, namedData, chosenData, hd]
  | docker => simp [containerData, measuredData, namedData, chosenData, hd]

theorem put_threshold : put "threshold_value" (.num value) (thresholdData d c op) =
    channelsData d c op value := by
  refine put_new ?_
  cases hd : d.metricType with
  | system => simp [thresholdData, containerData, measuredData, namedData, chosenData, hd]
  | docker => simp [thresholdData, containerData, measuredData, namedData, chosenData, hd]

theorem put_channels (channels : List String) :
    put "notification_channels" (.list channels) (channelsData d c op value) =
      confirmData d c op value channels := by
  refine put_new ?_
  cases hd : d.metricType with
  | system =>
    simp [channelsData, thresholdData, containerData, measuredData, namedData, chosenData, hd]
  | docker =>
    simp [channelsData, thresholdData, containerData, measuredData, namedData, chosenData, hd]

end

/-! ### The dict and the typed dialog agree -/

theorem lengthOk_iff (text : String) :
    lengthOk 255 text = true ↔ ¬ (text = "" ∨ 255 < PyText.len text) := by
  have hlen : PyText.len text = 0 ↔ text = "" := by
    simp [PyText.len, List.length_eq_zero_iff, String.toList_eq_nil_iff]
  rw [not_or, ← hlen]
  simp only [lengthOk, Bool.and_eq_true, decide_eq_true_eq]
  omega

theorem metricTypes_lookup (v : String) :
    metricTypes.lookup v =
      if v = "system" then some .system else if v = "docker" then some .docker else none := by
  by_cases hs : v = "system"
  · subst hs
    rfl
  · by_cases hd : v = "docker"
    · subst hd
      rfl
    · have hs' : (v == "system") = false := beq_eq_false_iff_ne.mpr hs
      have hd' : (v == "docker") = false := beq_eq_false_iff_ne.mpr hd
      simp [metricTypes, List.lookup_cons, hs, hd, hs', hd']

theorem operators_find (v : String) :
    (∃ op, operators.find? (fun op => op.value = v) = some op ∧ op.value = v ∧
      v ∈ operators.map ThresholdOperator.value) ∨
    (operators.find? (fun op => op.value = v) = none ∧
      v ∉ operators.map ThresholdOperator.value) := by
  cases hf : operators.find? fun op => op.value = v with
  | none =>
    refine Or.inr ⟨rfl, ?_⟩
    intro hmem
    obtain ⟨op, hop, rfl⟩ := List.mem_map.mp hmem
    have hno := List.find?_eq_none.mp hf op hop
    simp at hno
  | some op =>
    have hv : op.value = v := by simpa using List.find?_some hf
    exact Or.inl ⟨op, rfl, hv, List.mem_map.mpr ⟨op, List.mem_of_find?_eq_some hf, hv⟩⟩

theorem str?_metricType (d : Named) :
    str? (namedData d) "metric_type" = some (metricTypeValue d.metricType) := by
  simp [str?, namedData, chosenData, List.lookup_cons]

theorem fieldsFor_value (t : MetricType) : fieldsFor (metricTypeValue t) = fieldsOf t := by
  cases t with
  | system => rfl
  | docker => rfl

/- One lemma for each step; its `show` is the branch of the code. -/
section
variable (py : PyStr) (text : String)

theorem process_server : processRuleDraft py text (encode .server) =
    (TelegramBot.processRuleDraft py (PyText.strip text) .server).map encodeAnswer := by
  show (if py.isdigit (PyText.strip text) then (py.int (PyText.strip text)).map Reply.select
    else some Reply.again) = _
  simp only [TelegramBot.processRuleDraft]
  split
  · rw [Option.map_map]
    rfl
  · rfl

theorem process_metricType (d : Chosen) : processRuleDraft py text (encode (.metricType d)) =
    (TelegramBot.processRuleDraft py (PyText.strip text) (.metricType d)).map encodeAnswer := by
  show (if py.lower (PyText.strip text) ∈ metricTypes.map Prod.fst then
      some (Reply.save ⟨"name",
        put "metric_type" (.str (py.lower (PyText.strip text))) (chosenData d)⟩)
    else some Reply.again) = _
  simp only [TelegramBot.processRuleDraft, metricTypes_lookup]
  have hput : ∀ v, put "metric_type" (.str v) (chosenData d) =
      chosenData d ++ [("metric_type", .str v)] := fun v => put_new (by simp [chosenData])
  by_cases hs : py.lower (PyText.strip text) = "system"
  · simp [hs, metricTypes, encodeAnswer, encode, hput, metricTypeValue]
  · by_cases hd : py.lower (PyText.strip text) = "docker"
    · simp [hd, metricTypes, encodeAnswer, encode, hput, metricTypeValue]
    · simp [hs, hd, metricTypes, encodeAnswer]

theorem process_name (d : Chosen) (mt : MetricType) :
    processRuleDraft py text (encode (.name d mt)) =
      (TelegramBot.processRuleDraft py (PyText.strip text) (.name d mt)).map encodeAnswer := by
  have hbranch (data : Data) : processRuleDraft py text ⟨"name", data⟩ =
      if PyText.strip text = "" ∨ 255 < PyText.len (PyText.strip text) then some .again
      else some (.save ⟨"metric", put "name" (.str (PyText.strip text)) data⟩) := rfl
  rw [encode, hbranch]
  simp only [TelegramBot.processRuleDraft]
  by_cases hn : lengthOk 255 (PyText.strip text) = true
  · rw [if_neg ((lengthOk_iff _).mp hn), dif_pos hn]
    rw [put_new (by simp [chosenData])]
    simp [encodeAnswer, encode, namedData]
  · have hbad : PyText.strip text = "" ∨ 255 < PyText.len (PyText.strip text) := by
      by_contra h
      exact hn ((lengthOk_iff _).mpr h)
    rw [if_pos hbad, dif_neg hn]
    rfl

theorem process_metric (d : Named) : processRuleDraft py text (encode (.metric d)) =
    (TelegramBot.processRuleDraft py (PyText.strip text) (.metric d)).map encodeAnswer := by
  show ((str? (namedData d) "metric_type").map fun metricType =>
    if py.lower (PyText.strip text) ∈ fieldsFor metricType then
      if metricType = "docker" then Reply.save ⟨"container",
        put "metric_field" (.str (py.lower (PyText.strip text))) (namedData d)⟩
      else Reply.save ⟨"operator",
        put "metric_field" (.str (py.lower (PyText.strip text))) (namedData d)⟩
    else Reply.again) = _
  simp only [TelegramBot.processRuleDraft, str?_metricType, fieldsFor_value, Option.map_some]
  by_cases hf : py.lower (PyText.strip text) ∈ fieldsOf d.metricType
  · have hput : put "metric_field" (.str (py.lower (PyText.strip text))) (namedData d) =
        measuredData { d with metricField := py.lower (PyText.strip text), fieldOk := hf } :=
      put_new (by simp [namedData, chosenData])
    rw [if_pos hf, dif_pos hf, hput]
    have ht : d.metricType = .system ∨ d.metricType = .docker := by
      cases d.metricType with
      | system => exact Or.inl rfl
      | docker => exact Or.inr rfl
    rcases ht with ht | ht
    · simp [metricTypeValue, encodeAnswer, encode, containerData, ht]
    · simp [metricTypeValue, encodeAnswer, encode, ht]
  · rw [if_neg hf, dif_neg hf]
    rfl

/- A container is asked for docker rules only. -/
theorem process_container (d : Measured) (hd : d.metricType = .docker) :
    processRuleDraft py text (encode (.container d)) =
      (TelegramBot.processRuleDraft py (PyText.strip text) (.container d)).map encodeAnswer := by
  show (if PyText.strip text = "" then some Reply.again
    else some (Reply.save ⟨"operator", put "container_name"
      (if PyText.strip text = "*" then .null else .str (PyText.take 255 (PyText.strip text)))
      (measuredData d)⟩)) = _
  simp only [TelegramBot.processRuleDraft]
  by_cases he : PyText.strip text = ""
  · rw [if_pos he, if_pos he]
    rfl
  · rw [if_neg he, if_neg he]
    have hput := fun c => put_container d c hd
    by_cases hstar : PyText.strip text = "*"
    · simp [hstar, encodeAnswer, encode, ← hput, containerValue]
    · simp [hstar, encodeAnswer, encode, ← hput, containerValue]

theorem process_operator (d : Measured) (c : Option String) :
    processRuleDraft py text (encode (.operator d c)) =
      (TelegramBot.processRuleDraft py (PyText.strip text) (.operator d c)).map encodeAnswer := by
  show (if py.lower (PyText.strip text) ∈ operators.map ThresholdOperator.value then
      some (Reply.save ⟨"threshold",
        put "operator" (.str (py.lower (PyText.strip text))) (containerData d c)⟩)
    else some Reply.again) = _
  simp only [TelegramBot.processRuleDraft]
  rcases operators_find (py.lower (PyText.strip text)) with ⟨op, hop, hv, hmem⟩ | ⟨hno, hmem⟩
  · rw [if_pos hmem, hop, ← hv, put_operator]
    rfl
  · rw [if_neg hmem, hno]
    rfl

theorem process_threshold (d : Measured) (c : Option String) (op : ThresholdOperator) :
    processRuleDraft py text (encode (.threshold d c op)) =
      (TelegramBot.processRuleDraft py (PyText.strip text) (.threshold d c op)).map
        encodeAnswer := by
  show (match py.float (PyText.strip text) with
    | none => some Reply.again
    | some value => some (Reply.save ⟨"channels",
        put "threshold_value" (.num value) (thresholdData d c op)⟩)) = _
  simp only [TelegramBot.processRuleDraft]
  cases py.float (PyText.strip text) with
  | none => rfl
  | some value => simp [put_threshold, encodeAnswer, encode]

theorem process_channels (d : Measured) (c : Option String) (op : ThresholdOperator)
    (value : PyFloat) : processRuleDraft py text (encode (.channels d c op value)) =
      (TelegramBot.processRuleDraft py (PyText.strip text) (.channels d c op value)).map
        encodeAnswer := by
  show (match channelPresets.lookup (py.lower (PyText.strip text)) with
    | none => some Reply.again
    | some channels => some (Reply.save ⟨"confirm",
        put "notification_channels" (.list channels) (channelsData d c op value)⟩)) = _
  simp only [TelegramBot.processRuleDraft]
  cases channelPresets.lookup (py.lower (PyText.strip text)) with
  | none => rfl
  | some channels =>
    simp only [put_channels, encodeAnswer, encode, Option.map_some]
    rfl

theorem process_confirm (d : Ready) : processRuleDraft py text (encode (.confirm d)) =
    (TelegramBot.processRuleDraft py (PyText.strip text) (.confirm d)).map encodeAnswer := by
  show (if py.lower (PyText.strip text) ∈ ["n", "no", "нет"] then some Reply.clear
    else if py.lower (PyText.strip text) ∈ ["y", "yes", "да"] then
      some (Reply.insert (readyData d))
    else some Reply.again) = _
  simp only [TelegramBot.processRuleDraft]
  split
  · rfl
  · split
    · rfl
    · rfl

end

/- What the types of the dialog leave open: the container question is reached by docker
rules only, a system rule has no container, and a container's name fits its column. -/
def ContainerOk (t : MetricType) (c : Option String) : Prop :=
  (t = .system → c = none) ∧ ∀ name, c = some name → name ≠ "" ∧ PyText.len name ≤ 255

def Sane : Draft → Prop
  | .container d => d.metricType = .docker
  | .operator d c => ContainerOk d.metricType c
  | .threshold d c _ => ContainerOk d.metricType c
  | .channels d c _ _ => ContainerOk d.metricType c
  | .confirm d => ContainerOk d.rule.metricType d.rule.containerName ∧
      d.rule.notificationChannels ∈ channelPresets.map Prod.snd
  | _ => True

/-- The dict machine does what the typed dialog does. -/
theorem process_encode (py : PyStr) (text : String) {t : Draft} (h : Sane t) :
    processRuleDraft py text (encode t) =
      (TelegramBot.processRuleDraft py (PyText.strip text) t).map encodeAnswer := by
  cases t with
  | server => exact process_server py text
  | metricType d => exact process_metricType py text d
  | name d mt => exact process_name py text d mt
  | metric d => exact process_metric py text d
  | container d => exact process_container py text d h
  | operator d c => exact process_operator py text d c
  | threshold d c op => exact process_threshold py text d c op
  | channels d c op value => exact process_channels py text d c op value
  | confirm d => exact process_confirm py text d

theorem mem_operators (op : ThresholdOperator) : op ∈ operators := by
  cases op <;> decide

theorem containerOk_take (t : MetricType) (text : String) (ht : t = .docker) (hne : text ≠ "") :
    ContainerOk t (if text = "*" then none else some (PyText.take 255 text)) := by
  refine ⟨fun hs => absurd (hs.symm.trans ht) (by decide), ?_⟩
  intro name hname
  split at hname
  · cases hname
  · obtain rfl := Option.some.inj hname
    have hpos : text.toList ≠ [] := fun h => hne (String.toList_eq_nil_iff.mp h)
    constructor
    · intro he
      have hnil : (PyText.take 255 text).toList = [] := String.toList_eq_nil_iff.mpr he
      simp [PyText.take] at hnil
      exact hne hnil
    · simp only [PyText.len, PyText.take, String.toList_ofList, List.length_take]
      omega

/- What an answer can do to the typed dialog. -/
inductive Turn (text : String) : Draft → Answer → Prop where
  | again (t : Draft) : Turn text t .again
  | lookUp (serverId : ℕ) : Turn text .server (.lookUp serverId)
  | metricType (d : Chosen) (mt : MetricType) : Turn text (.metricType d) (.next (.name d mt))
  | name (d : Chosen) (mt : MetricType) (n : Named) : Turn text (.name d mt) (.next (.metric n))
  | docker (d : Measured) (hd : d.metricType = .docker) :
      Turn text (.metric d.toNamed) (.next (.container d))
  | system (d : Measured) : Turn text (.metric d.toNamed) (.next (.operator d none))
  | container (d : Measured) (hne : text ≠ "") : Turn text (.container d)
      (.next (.operator d (if text = "*" then none else some (PyText.take 255 text))))
  | operator (d : Measured) (c : Option String) (op : ThresholdOperator) :
      Turn text (.operator d c) (.next (.threshold d c op))
  | threshold (d : Measured) (c : Option String) (op : ThresholdOperator) (value : PyFloat) :
      Turn text (.threshold d c op) (.next (.channels d c op value))
  | channels (d : Measured) (c : Option String) (op : ThresholdOperator) (value : PyFloat)
      (channels : List String) (hc : channels ∈ channelPresets.map Prod.snd) :
      Turn text (.channels d c op value) (.next (.confirm (d.ready c op value channels)))
  | cancelled (d : Ready) : Turn text (.confirm d) .cancelled
  | create (d : Ready) : Turn text (.confirm d) (.create d)

theorem processRuleDraft_turn {py : PyStr} {text : String} {t : Draft} {a : Answer}
    (h : TelegramBot.processRuleDraft py text t = some a) : Turn text t a := by
  cases t with
  | server =>
    simp only [TelegramBot.processRuleDraft] at h
    split at h
    · obtain ⟨id, -, rfl⟩ := Option.map_eq_some_iff.mp h
      exact .lookUp id
    · cases h
      exact .again _
  | metric d =>
    simp only [TelegramBot.processRuleDraft] at h
    split at h
    · next fieldOk =>
      split at h
      · next hd =>
        cases h
        exact .docker { d with metricField := py.lower text, fieldOk } hd
      · cases h
        exact .system { d with metricField := py.lower text, fieldOk }
    · cases h
      exact .again _
  | channels d c op value =>
    simp only [TelegramBot.processRuleDraft] at h
    split at h
    · next channels hc =>
      cases h
      obtain ⟨l, l', hpresets, -⟩ := List.lookup_eq_some_iff.mp hc
      have hmem : (py.lower text, channels) ∈ channelPresets := by
        rw [hpresets]
        exact List.mem_append_right _ List.mem_cons_self
      exact .channels d c op value channels (List.mem_map_of_mem (f := Prod.snd) hmem)
    · cases h
      exact .again _
  | confirm d =>
    simp only [TelegramBot.processRuleDraft] at h
    split at h
    · cases h
      exact .cancelled d
    · split at h
      · cases h
        exact .create d
      · cases h
        exact .again _
  | container d =>
    simp only [TelegramBot.processRuleDraft] at h
    split at h
    · cases h
      exact .again _
    · next hne =>
      cases h
      exact .container d hne
  | metricType d =>
    simp only [TelegramBot.processRuleDraft] at h
    split at h
    · cases h
      exact .metricType d _
    · cases h
      exact .again _
  | name d mt =>
    simp only [TelegramBot.processRuleDraft] at h
    split at h
    · cases h
      exact .name d mt _
    · cases h
      exact .again _
  | operator d c =>
    simp only [TelegramBot.processRuleDraft] at h
    split at h
    · cases h
      exact .operator d c _
    · cases h
      exact .again _
  | threshold d c op =>
    simp only [TelegramBot.processRuleDraft] at h
    split at h
    · cases h
      exact .threshold d c op _
    · cases h
      exact .again _

theorem sane_next {text : String} {t t' : Draft} (h : Sane t) (ht : Turn text t (.next t')) :
    Sane t' := by
  cases ht with
  | metricType d mt => trivial
  | name d mt n => trivial
  | docker d hd => exact hd
  | system d => exact ⟨fun _ => rfl, fun name hn => by cases hn⟩
  | container d hne => exact containerOk_take d.metricType text h hne
  | operator d c op => exact h
  | threshold d c op value => exact h
  | channels d c op value channels hc => exact ⟨h, hc⟩

/-- The draft is that of a sane dialog. -/
def Shaped (draft : JsonDraft) : Prop := ∃ t, encode t = draft ∧ Sane t

section
variable {py : PyStr}

theorem advance_shaped {draft draft' : JsonDraft} {said : Said} (h : Shaped draft)
    (ha : advance py draft said = some draft') : Shaped draft' := by
  obtain ⟨t, rfl, ht⟩ := h
  unfold advance at ha
  rw [process_encode py said.text ht] at ha
  cases hp : TelegramBot.processRuleDraft py (PyText.strip said.text) t with
  | none => simp [hp] at ha
  | some a =>
    have hturn := processRuleDraft_turn hp
    rw [hp] at ha
    cases a with
    | again => cases ha
    | next t' =>
      obtain rfl := Option.some.inj ha
      exact ⟨t', rfl, sane_next ht hturn⟩
    | lookUp serverId =>
      obtain ⟨server, -, rfl⟩ := Option.map_eq_some_iff.mp ha
      cases hturn
      exact ⟨.metricType ⟨serverId, server.name, 0⟩, rfl, trivial⟩
    | create d => cases ha
    | cancelled => cases ha

theorem replay_snoc (said : List Said) (last : Said) :
    replay py (said ++ [last]) = (replay py said).bind fun d => advance py d last := by
  unfold replay
  rw [List.foldlM_append]
  cases said.foldlM (advance py) ⟨"server", []⟩ with
  | none => rfl
  | some d => simp

theorem replay_shaped {said : List Said} {draft : JsonDraft} (h : replay py said = some draft) :
    Shaped draft := by
  have hrun : ∀ (said : List Said) (d : JsonDraft), Shaped d →
      said.foldlM (advance py) d = some draft → Shaped draft := by
    intro said
    induction said with
    | nil =>
      intro d hd hfold
      obtain rfl := Option.some.inj hfold
      exact hd
    | cons first said ih =>
      intro d hd hfold
      rw [List.foldlM_cons] at hfold
      obtain ⟨d', hd', hrest⟩ := Option.bind_eq_some_iff.mp hfold
      exact ih d' (advance_shaped hd hd') hrest
  exact hrun said ⟨"server", []⟩ ⟨.server, rfl, trivial⟩ h

end

/-! ### The dict of the confirm step -/

theorem confirm_step {draft : JsonDraft} (h : Shaped draft) (hs : draft.step = "confirm") :
    ∃ d, draft.data = readyData d ∧ Sane (.confirm d) := by
  obtain ⟨t, rfl, ht⟩ := h
  cases t with
  | confirm d => exact ⟨d, rfl, ht⟩
  | _ => simp [encode] at hs

theorem readyData_complete (d : Ready) :
    ∀ key ∈ requiredKeys, ((readyData d).lookup key).isSome = true := by
  intro key hkey
  rw [List.lookup_isSome_iff]
  simp only [requiredKeys, List.mem_cons, List.not_mem_nil, or_false] at hkey
  simp only [readyData, confirmData, channelsData, thresholdData, containerData, measuredData,
    namedData, chosenData]
  rcases hkey with rfl | rfl | rfl | rfl | rfl | rfl | rfl | rfl <;> simp

theorem operators_value (op : ThresholdOperator) :
    operators.find? (fun o => o.value = op.value) = some op := by
  cases op <;> decide

theorem readyData_lookup (d : Ready) (h : Sane (.confirm d)) :
    (readyData d).lookup "server_id" = some (.int d.rule.serverId) ∧
      (readyData d).lookup "metric_type" = some (.str (metricTypeValue d.rule.metricType)) ∧
      (readyData d).lookup "name" = some (.str d.rule.name) ∧
      (readyData d).lookup "metric_field" = some (.str d.rule.metricField) ∧
      containerOf (readyData d) = some d.rule.containerName ∧
      (readyData d).lookup "operator" = some (.str d.rule.operator.value) ∧
      (readyData d).lookup "threshold_value" = some (.num d.rule.thresholdValue) ∧
      (readyData d).lookup "notification_channels" = some (.list d.rule.notificationChannels) := by
  have hserver := d.sameServer
  have hnone := h.1.1
  cases ht : d.rule.metricType with
  | system =>
    simp [readyData, confirmData, channelsData, thresholdData, containerData, measuredData,
      namedData, chosenData, Ready.measured, List.lookup_cons, containerOf, ht, hserver, hnone ht]
  | docker =>
    cases hc : d.rule.containerName with
    | none =>
      simp [readyData, confirmData, channelsData, thresholdData, containerData, measuredData,
        namedData, chosenData, Ready.measured, List.lookup_cons, containerOf, containerValue, ht,
        hc, hserver]
    | some c =>
      simp [readyData, confirmData, channelsData, thresholdData, containerData, measuredData,
        namedData, chosenData, Ready.measured, List.lookup_cons, containerOf, containerValue, ht,
        hc, hserver]

theorem metricTypes_value (t : MetricType) : metricTypes.lookup (metricTypeValue t) = some t := by
  cases t <;> rfl

/- The dict that the dialog filled gives the rule the typed dialog stands for. -/
theorem ruleOf_readyData (id ownerId : ℕ) (d : Ready) (h : Sane (.confirm d)) :
    ruleOf id ownerId (readyData d) = some (d.rule.rule id ownerId) := by
  obtain ⟨hserver, htype, hname, hfield, hcontainer, hop, hvalue, hchannels⟩ :=
    readyData_lookup d h
  simp only [ruleOf, int?, str?, num?, list?, hserver, htype, hname, hfield, hcontainer, hop,
    hvalue, hchannels, Option.bind_some, metricTypes_value, operators_value, Option.bind_eq_bind]
  rfl

theorem rule_wellFormed (id ownerId : ℕ) (d : Ready) (h : Sane (.confirm d)) :
    WellFormed (d.rule.rule id ownerId) where
  metricField := d.rule.fieldOk
  system := h.1.1
  container := h.1.2
  operator := mem_operators _
  channels := h.2
  name := d.rule.nameOk

/-! ### The invariant -/

section
variable (py : PyStr)

/-- The draft is what the answers of the chat's dialog make. -/
def Tracks (journal : List Entry) (chatId : ℤ) (draft : JsonDraft) : Prop :=
  ∃ said, dialogOf chatId journal = some said ∧ replay py said = some draft

/- What the bot has in hand belongs to the dialog of the chat. -/
def InHand (journal : List Entry) : Place → Prop
  | .selecting _ chatId text serverId draft =>
    Tracks py journal chatId draft ∧ processRuleDraft py text draft = some (.select serverId)
  | .saving chatId said draft => ∃ old, Tracks py journal chatId old ∧
      advance py old said = some draft
  | .inserting _ chatId data => Tracks py journal chatId ⟨"confirm", data⟩
  | _ => True

structure Inv (s : State) : Prop where
  stored : ∀ e ∈ s.drafts, Tracks py s.journal e.key e.value
  inHand : InHand py s.journal s.place
  inserted : ∀ r ∈ s.rules, WellFormed r

end

/-- The chat an entry is about. -/
def Entry.chatId : Entry → ℤ
  | .opened c => c
  | .answered c _ => c
  | .closed c => c

theorem dialogOf_other {chatId : ℤ} {entry : Entry} (h : entry.chatId ≠ chatId)
    (journal : List Entry) : dialogOf chatId (entry :: journal) = dialogOf chatId journal := by
  cases entry with
  | opened c => exact if_neg h
  | answered c said => exact if_neg h
  | closed c => exact if_neg h

section
variable {py : PyStr}

theorem Tracks.other {journal : List Entry} {chatId : ℤ} {draft : JsonDraft} {entry : Entry}
    (h : Tracks py journal chatId draft) (hne : entry.chatId ≠ chatId) :
    Tracks py (entry :: journal) chatId draft := by
  obtain ⟨said, hsaid, hreplay⟩ := h
  exact ⟨said, by rw [dialogOf_other hne]; exact hsaid, hreplay⟩

theorem tracks_opened (journal : List Entry) (chatId : ℤ) :
    Tracks py (.opened chatId :: journal) chatId ⟨"server", []⟩ :=
  ⟨[], if_pos rfl, rfl⟩

theorem Tracks.answered {journal : List Entry} {chatId : ℤ} {old draft : JsonDraft} {said : Said}
    (h : Tracks py journal chatId old) (ha : advance py old said = some draft) :
    Tracks py (.answered chatId said :: journal) chatId draft := by
  obtain ⟨before, hbefore, hreplay⟩ := h
  refine ⟨before ++ [said], ?_, ?_⟩
  · rw [dialogOf, if_pos rfl, hbefore]
    rfl
  · rw [replay_snoc, hreplay]
    exact ha

theorem Tracks.shaped {journal : List Entry} {chatId : ℤ} {draft : JsonDraft}
    (h : Tracks py journal chatId draft) : Shaped draft := by
  obtain ⟨said, -, hreplay⟩ := h
  exact replay_shaped hreplay

theorem insert_confirm {text : String} {draft : JsonDraft} {data : Data} (h : Shaped draft)
    (hp : processRuleDraft py text draft = some (.insert data)) : draft = ⟨"confirm", data⟩ := by
  obtain ⟨t, rfl, ht⟩ := h
  rw [process_encode py text ht] at hp
  obtain ⟨a, ha, hdata⟩ := Option.map_eq_some_iff.mp hp
  cases processRuleDraft_turn ha with
  | create d =>
    cases hdata
    rfl
  | _ => cases hdata

theorem dispatch_inHand (journal : List Entry) (userId : ℕ) (chatId : ℤ) (text : String) :
    InHand py journal (dispatch userId chatId text) := by
  unfold dispatch
  split
  · trivial
  · trivial

theorem resume_inHand {journal : List Entry} {userId : ℕ} {chatId : ℤ} {text : String}
    {draft : Option JsonDraft} (h : ∀ d, draft = some d → Tracks py journal chatId d) :
    InHand py journal (resume py userId chatId text draft) := by
  cases draft with
  | none => exact dispatch_inHand journal userId chatId text
  | some d =>
    have hd := h d rfl
    simp only [resume]
    split
    · trivial
    · split
      · trivial
      · trivial
      · next draft' hp =>
        refine ⟨d, hd, ?_⟩
        rw [advance, hp]
      · next serverId hp => exact ⟨hd, hp⟩
      · next data hp =>
        rw [insert_confirm hd.shaped hp] at hd
        exact hd
      · trivial

end

/- The columns of a well-formed rule hold its values unchanged. -/
theorem WellFormed.flush {r row : AlertRule} (h : WellFormed r) (hf : flushRule r = some row) :
    row = r := by
  obtain ⟨hname, hfield, hcontainer, hcooldown, hsame⟩ := flushRule_flushed hf
  have hkept : row.containerName = r.containerName := by
    cases hc : r.containerName with
    | none =>
      rw [hc] at hcontainer
      exact (Option.some.inj hcontainer).symm
    | some c =>
      rw [hc] at hcontainer
      obtain ⟨c', hc', hrow⟩ := Option.map_eq_some_iff.mp hcontainer
      rw [← hrow, PgText.varchar_fits hc' (h.container c hc).2]
  rw [hsame, PgText.varchar_fits hname (lengthOk_le h.name),
    PgText.varchar_fits hfield (fieldsOf_length _ _ h.metricField), hkept, storeInt_some hcooldown]

theorem addRule_row {s t : State} {userId : ℕ} {data : Data} (h : s.addRule userId data = some t) :
    ∃ rule row, ruleOf s.nextRule userId data = some rule ∧ flushRule rule = some row ∧
      t = { s with rules := row :: s.rules, nextRule := s.nextRule + 1 } := by
  obtain ⟨row, hrow, ht⟩ := Option.bind_eq_some_iff.mp h
  obtain ⟨rule, hrule, hflush⟩ := Option.bind_eq_some_iff.mp hrow
  split at ht
  · exact ⟨rule, row, hrule, hflush, (Option.some.inj ht).symm⟩
  · cases ht

section
variable {py : PyStr} {s s' : State}

/-- At the confirm insert the dict is that of a finished dialog. -/
theorem Inv.confirmed (h : Inv py s) {userId : ℕ} {chatId : ℤ} {data : Data}
    (hp : s.place = .inserting userId chatId data) :
    ∃ d, data = readyData d ∧ Sane (.confirm d) := by
  have hhand := h.inHand
  rw [hp] at hhand
  exact confirm_step (Tracks.shaped hhand) rfl

theorem Inv.sound (h : Inv py s) : DialogSound py s where
  complete := by
    intro userId chatId data hp
    obtain ⟨d, rfl, -⟩ := h.confirmed hp
    exact readyData_complete d
  fresh := by
    intro userId chatId data hp
    have hhand := h.inHand
    rw [hp] at hhand
    exact hhand
  builds := by
    intro userId chatId data hp
    obtain ⟨d, rfl, hd⟩ := h.confirmed hp
    exact ⟨_, ruleOf_readyData s.nextRule userId d hd, rule_wellFormed s.nextRule userId d hd⟩
  inserted := h.inserted

theorem Inv.init (now : Instant) : Inv py (init now) :=
  ⟨fun _ he => absurd he List.not_mem_nil, trivial, fun _ hr => absurd hr List.not_mem_nil⟩

/- The bot goes on, drafts, rules and dialogs as they were. -/
theorem Inv.quiet (h : Inv py s) (hd : s'.drafts = s.drafts) (hr : s'.rules = s.rules)
    (hj : s'.journal = s.journal) (hp : InHand py s.journal s'.place) : Inv py s' := by
  refine ⟨?_, ?_, ?_⟩
  · rw [hd, hj]
    exact h.stored
  · rw [hj]
    exact hp
  · rw [hr]
    exact h.inserted

theorem Inv.set (h : Inv py s) {chatId : ℤ} {draft : JsonDraft} {entry : Entry}
    (hc : entry.chatId = chatId) (ht : Tracks py (entry :: s.journal) chatId draft) :
    Inv py (((s.setRuleDraft chatId draft).note entry).goto .idle) := by
  refine ⟨?_, trivial, h.inserted⟩
  intro e he
  rcases mem_set he with rfl | ⟨he, hne⟩
  · exact ht
  · exact (h.stored e he).other fun hk => hne (hk.symm.trans hc)

theorem Inv.clear (h : Inv py s) (chatId : ℤ) {place : Place}
    (hp : ∀ journal, InHand py journal place) :
    Inv py ((s.clearRuleDraft chatId).goto place) := by
  refine ⟨?_, hp _, h.inserted⟩
  intro e he
  obtain ⟨he, hne⟩ := mem_del he
  exact (h.stored e he).other fun hk => hne hk.symm

/-- One await of the bot keeps the invariant. -/
theorem Inv.botStep (h : Inv py s) (hs : botStep py s = some s') : Inv py s' := by
  have hhand := h.inHand
  unfold RuleDialog.botStep at hs
  cases hp : s.place with
  | idle => simp [hp] at hs
  | finding chatId text =>
    simp only [hp] at hs
    split at hs
    · split at hs
      · obtain rfl := Option.some.inj hs
        exact h.quiet rfl rfl rfl trivial
      · obtain rfl := Option.some.inj hs
        exact h.quiet rfl rfl rfl trivial
    · obtain rfl := Option.some.inj hs
      exact h.quiet rfl rfl rfl trivial
  | cancelling chatId =>
    simp only [hp] at hs
    obtain rfl := Option.some.inj hs
    exact h.clear chatId fun _ => trivial
  | reading userId chatId text =>
    simp only [hp] at hs
    obtain rfl := Option.some.inj hs
    refine h.quiet rfl rfl rfl (resume_inHand ?_)
    intro d hd
    obtain ⟨e, he, rfl, rfl, -⟩ := get?_mem hd
    exact h.stored e he
  | leaving userId chatId text =>
    simp only [hp] at hs
    obtain rfl := Option.some.inj hs
    exact h.clear chatId fun journal => dispatch_inHand journal userId chatId text
  | listing userId chatId =>
    simp only [hp] at hs
    split at hs
    · obtain rfl := Option.some.inj hs
      exact h.quiet rfl rfl rfl trivial
    · obtain rfl := Option.some.inj hs
      exact h.quiet rfl rfl rfl trivial
  | opening chatId =>
    simp only [hp] at hs
    obtain rfl := Option.some.inj hs
    exact h.set rfl (tracks_opened s.journal chatId)
  | selecting userId chatId text serverId draft =>
    rw [hp] at hhand
    simp only [hp] at hs
    split at hs
    · obtain rfl := Option.some.inj hs
      refine h.quiet rfl rfl rfl ⟨draft, hhand.1, ?_⟩
      rw [advance, hhand.2]
      rfl
    · obtain rfl := Option.some.inj hs
      exact h.quiet rfl rfl rfl trivial
  | saving chatId said draft =>
    rw [hp] at hhand
    obtain ⟨old, hold, ha⟩ := hhand
    simp only [hp] at hs
    obtain rfl := Option.some.inj hs
    exact h.set rfl (hold.answered ha)
  | inserting userId chatId data =>
    simp only [hp] at hs
    split at hs
    · next t ht =>
      obtain rfl := Option.some.inj hs
      obtain ⟨rule, row, hrule, hflush, rfl⟩ := addRule_row ht
      refine ⟨h.stored, trivial, ?_⟩
      intro r hr
      rcases List.mem_cons.mp hr with rfl | hr
      · obtain ⟨rule', hrule', hwell⟩ := h.sound.builds userId chatId data hp
        obtain rfl := Option.some.inj (hrule.symm.trans hrule')
        rw [hwell.flush hflush]
        exact hwell
      · exact h.inserted r hr
    · obtain rfl := Option.some.inj hs
      exact h.quiet rfl rfl rfl trivial
  | clearing chatId =>
    simp only [hp] at hs
    obtain rfl := Option.some.inj hs
    exact h.clear chatId fun _ => trivial

theorem Inv.step {l : Label} (h : Inv py s) (hs : step py s l = some s') : Inv py s' := by
  cases l with
  | tick microseconds =>
    obtain rfl := Option.some.inj hs
    exact h.quiet rfl rfl rfl h.inHand
  | world users servers =>
    obtain rfl := Option.some.inj hs
    exact h.quiet rfl rfl rfl h.inHand
  | message chatId text =>
    simp only [RuleDialog.step] at hs
    split at hs
    · obtain rfl := Option.some.inj hs
      refine h.quiet rfl rfl rfl ?_
      show InHand py s.journal (handleMessage chatId text)
      unfold handleMessage
      split
      · trivial
      · trivial
    · cases hs
  | bot => exact h.botStep hs
  | abort =>
    simp only [RuleDialog.step] at hs
    split at hs
    · cases hs
    · obtain rfl := Option.some.inj hs
      exact h.quiet rfl rfl rfl trivial

end

/- Whatever the messages, the other processes and the clock do. -/
theorem dialog_sound (py : PyStr) (now : Instant) (ls : List Label) :
    Runs.Throughout (step py) (DialogSound py) (init now) ls :=
  Runs.throughout_of_invariant (Inv py) (DialogSound py) (fun _ _ => True)
    (fun _ _ _ hi _ hs => hi.step hs) (fun _ hi => hi.sound) (Inv.init now)
    (Runs.along_true _ ls)

/- A docker dialog given up after its second answer and a system one after it. -/
example : ((Runs.run (step asciiStr) (init 0)
    (.world [{ id := 1, email := "a", passwordHash := "", telegramChatId := some "5" }]
      [{ id := 1, name := "web", apiKeyHash := "", ownerId := 1 }] ::
    [("/createrule", 4), ("1", 4), ("docker", 3), ("/createrule", 5), ("1", 4), ("System", 3),
      ("cpu", 3), ("cpu_percent", 3), ("gt", 3), ("80", 3), ("both", 3), ("y", 4)].flatMap
        fun m => .message 5 m.1 :: List.replicate m.2 .bot)).map
    fun s => s.rules.map fun r => (r.metricType, r.metricField, r.containerName)) =
      some [(.system, "cpu_percent", none)] := by decide

end PulseWatch.RuleDialog
