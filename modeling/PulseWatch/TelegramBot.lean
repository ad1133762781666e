import PulseWatch.AlertLifecycle
import PulseWatch.Lib.PyInt
import PulseWatch.RedisClient

/-!
# The Telegram bot and the linking of chats (`app/telegram_bot.py`, `app/api/auth.py`)

The bot is one process that takes the messages in turn; a step of it runs one
awaited Redis command or database statement together with the code up to the
next one. Beside it run the REST calls: registration of users, `link_telegram`
(load and commit of the row), the link codes, and every handler of the alert
machine. An exception anywhere in a message is logged and the message dropped.

Commands that write none of this state (`/status`, `/mute`, ...) only end; `/pause`
and `/resume` are the fleet's `load` and `save`.
-/

namespace PulseWatch.TelegramBot
open ExpiringStore RedisClient Alerts

/- What the dialog uses of Python's strings beyond `PyText`; `none` is the
ValueError. `decimal` is the value of a word matched by `\d+`. -/
structure PyStr where
  lower : String → String
  isdigit : String → Bool
  int : String → Option ℕ
  decimal : String → Option ℕ
  float : String → Option PyFloat

/-! ### The draft of `/createrule` -/

/- The answer to the first question. `chosenBy` is the user it was checked for; the
stored draft has no such field, and nothing reads it. -/
structure Chosen where
  serverId : ℕ
  serverName : String
  chosenBy : ℕ
  deriving DecidableEq, Repr

structure Named extends Chosen where
  metricType : MetricType
  name : String
  nameOk : lengthOk 255 name = true

structure Measured extends Named where
  metricField : String
  fieldOk : metricField ∈ fieldsOf metricType

structure Ready extends Chosen where
  rule : RuleDraft
  sameServer : rule.serverId = serverId

/- `{"step": ..., "data": ...}`, one constructor for each step. -/
inductive Draft where
  | server
  | metricType (data : Chosen)
  | name (data : Chosen) (metricType : MetricType)
  | metric (data : Named)
  | container (data : Measured)
  | operator (data : Measured) (containerName : Option String)
  | threshold (data : Measured) (containerName : Option String) (operator : ThresholdOperator)
  | channels (data : Measured) (containerName : Option String) (operator : ThresholdOperator)
      (thresholdValue : PyFloat)
  | confirm (data : Ready)

def Draft.chosen : Draft → Option Chosen
  | .server => none
  | .metricType data => some data
  | .name data _ => some data
  | .metric data => some data.toChosen
  | .container data => some data.toChosen
  | .operator data _ => some data.toChosen
  | .threshold data _ _ => some data.toChosen
  | .channels data _ _ _ => some data.toChosen
  | .confirm data => some data.toChosen

def Measured.ready (data : Measured) (containerName : Option String)
    (operator : ThresholdOperator) (thresholdValue : PyFloat)
    (notificationChannels : List String) : Ready :=
  { data.toChosen with
    rule := { serverId := data.serverId, metricType := data.metricType, name := data.name
              nameOk := data.nameOk, metricField := data.metricField, fieldOk := data.fieldOk
              containerName, operator, thresholdValue, notificationChannels }
    sameServer := rfl }

/- What one answer leads to: the question again, the next question, a query for
the server, the new rule, the end of the dialog. -/
inductive Answer where
  | again
  | next (draft : Draft)
  | lookUp (serverId : ℕ)
  | create (data : Ready)
  | cancelled

def metricTypes : List (String × MetricType) := [("system", .system), ("docker", .docker)]

def operators : List ThresholdOperator := [.gt, .gte, .lt, .lte, .eq, .neq]

def channelPresets : List (String × List String) :=
  [("telegram", ["telegram"]), ("email", ["email"]), ("both", ["telegram", "email"]),
    ("none", [])]

/- `_process_rule_draft` on a stripped text; `none` is an exception. -/
def processRuleDraft (py : PyStr) (text : String) : Draft → Option Answer
  | .server =>
    if py.isdigit text then (py.int text).map .lookUp else some .again
  | .metricType data => match metricTypes.lookup (py.lower text) with
    | some metricType => some (.next (.name data metricType))
    | none => some .again
  | .name data metricType =>
    if nameOk : lengthOk 255 text = true then
      some (.next (.metric { data with metricType, name := text, nameOk }))
    else some .again
  | .metric data =>
    if fieldOk : py.lower text ∈ fieldsOf data.metricType then
      let data : Measured := { data with metricField := py.lower text, fieldOk }
      match data.metricType with
      | .docker => some (.next (.container data))
      | .system => some (.next (.operator data none))
    else some .again
  | .container data =>
    if text = "" then some .again
    else some (.next (.operator data (if text = "*" then none else some (PyText.take 255 text))))
  | .operator data containerName =>
    match operators.find? fun op => op.value = py.lower text with
    | some op => some (.next (.threshold data containerName op))
    | none => some .again
  | .threshold data containerName op => match py.float text with
    | some value => some (.next (.channels data containerName op value))
    | none => some .again
  | .channels data containerName op value => match channelPresets.lookup (py.lower text) with
    | some channels => some (.next (.confirm (data.ready containerName op value channels)))
    | none => some .again
  | .confirm data =>
    if py.lower text ∈ ["n", "no", "нет"] then some .cancelled
    else if py.lower text ∈ ["y", "yes", "да"] then some (.create data)
    else some .again

/-! ### The state -/

/- Decoded values of the bot's Redis keys. -/
inductive BotValue where
  | userId (n : ℕ)
  | serverId (n : ℕ)
  | draft (d : Draft)

/- The await the bot stands at, with the locals it still needs. -/
inductive Bot where
  | idle
  | starting (chatId : ℤ) (code : String)
  | linking (userId : ℕ) (chatId : ℤ)
  | finding (chatId : ℤ) (text : String)
  | found (userId : ℕ) (chatId : ℤ) (text : String)
  | leaving (userId : ℕ) (chatId : ℤ) (text : String)
  | listing (userId : ℕ) (chatId : ℤ)
  | choosing (userId : ℕ) (chatId : ℤ) (serverId : ℕ)
  | saving (chatId : ℤ) (draft : Draft)
  | confirming (userId : ℕ) (chatId : ℤ) (data : Ready)
  | clearing (chatId : ℤ)
  | toggling (userId ruleId : ℕ)
  | deleting (userId : ℕ) (chatId : ℤ) (serverId : ℕ) (isConfirm : Bool)
  | remembering (chatId : ℤ) (serverId : ℕ)
  | checking (chatId : ℤ) (serverId : ℕ)
  | dropping (serverId : ℕ)

/- A `link_telegram` request: the row as `get_current_user` loaded it. -/
inductive Patch where
  | idle
  | loaded (user : User) (chatId : Option String)

structure State where
  users : List User
  nextUser : ℕ
  db : Db
  redis : Store RedisKey BotValue Instant
  bot : Bot
  patches : ℕ → Patch

def init (now : Instant) : State := ⟨[], 1, Alerts.init now, [], .idle, fun _ => .idle⟩

inductive Label where
  | registerUser (email passwordHash : String)
  | linkCode (userId : ℕ) (code : String)
  | load (i userId : ℕ) (chatId : Option String)
  | save (i : ℕ)
  | rest (l : Alerts.Label)
  | message (chatId : ℤ) (text : String)
  | bot
  | abort

/-! ### Linking -/

/- `TelegramLink.validate_chat_id`; `none` is the ValueError. -/
def validateChatId (py : PyStr) : Option String → Option (Option String)
  | none => some none
  | some v =>
    let v := PyText.strip v
    if v ≠ "" ∧ py.isdigit (PyText.lstrip '-' v) ∧ v ≠ "-" then some (some v) else none

/-- `UPDATE users SET telegram_chat_id = ... WHERE id = ...`. -/
def setChatId (userId : ℕ) (chatId : Option String) (users : List User) : List User :=
  users.map fun u => if u.id = userId then { u with telegramChatId := chatId } else u

def linkUser (userId : ℕ) (chatId : ℤ) (users : List User) : List User :=
  setChatId userId (some (toString chatId)) users

inductive Lookup where
  | nobody
  | one (user : User)
  | multipleResultsFound
  deriving DecidableEq, Repr

/-- `_find_user_by_chat_id`. -/
def findUserByChatId (chatId : ℤ) (users : List User) : Lookup :=
  match users.filter fun u => u.telegramChatId = some (toString chatId) with
  | [] => .nobody
  | [u] => .one u
  | _ => .multipleResultsFound

/- The commit of `link_telegram`: a value equal to the loaded one gives no UPDATE. -/
def saveChatId (user : User) (chatId : Option String) (users : List User) : List User :=
  if chatId = user.telegramChatId then users
  else match PgText.varchar? 64 chatId with
    | some value => setChatId user.id value users
    | none => users

/-! ### Redis -/

section
variable (s : State)

def State.setKey (k : RedisKey) (v : BotValue) (ttlSeconds : ℤ) : State :=
  { s with redis := set k v (s.db.fleet.now + seconds ttlSeconds) s.redis }

def State.delKey (k : RedisKey) : State := { s with redis := del k s.redis }

def State.getKey (k : RedisKey) : Option BotValue := get? s.db.fleet.now k s.redis

def State.goto (b : Bot) : State := { s with bot := b }

def State.storeTgLinkCode (code : String) (userId : ℕ) : State :=
  s.setKey (.tgLink code) (.userId userId) 600

/- GET and DEL in one pipeline. -/
def State.consumeTgLinkCode (code : String) : Option ℕ × State :=
  (match s.getKey (.tgLink code) with
    | some (.userId n) => some n
    | _ => none,
    s.delKey (.tgLink code))

def State.setPendingDelete (chatId : ℤ) (serverId : ℕ) : State :=
  s.setKey (.pendingDelete chatId) (.serverId serverId) 60

def State.consumePendingDelete (chatId : ℤ) (serverId : ℕ) : Bool × State :=
  (match s.getKey (.pendingDelete chatId) with
    | some (.serverId n) => n = serverId
    | _ => false,
    s.delKey (.pendingDelete chatId))

def State.setRuleDraft (chatId : ℤ) (draft : Draft) : State :=
  s.setKey (.ruleDraft chatId) (.draft draft) 600

def State.getRuleDraft (chatId : ℤ) : Option Draft :=
  match s.getKey (.ruleDraft chatId) with
  | some (.draft d) => some d
  | _ => none

def State.clearRuleDraft (chatId : ℤ) : State := s.delKey (.ruleDraft chatId)

end

/-! ### The bot -/

section
variable (py : PyStr)

/- `_handle_message` up to its first await. -/
def handleMessage (chatId : ℤ) (text : String) : Bot :=
  if chatId = 0 ∨ text = "" then .idle
  else if PyText.startsWith text "/start" then
    match PyText.split text with
    | ["/start", code] => .starting chatId code
    | _ => .idle
  else .finding chatId text

/- The commands, up to their first await. -/
def dispatch (userId : ℕ) (chatId : ℤ) (text : String) : Bot :=
  match PyText.split text with
  | ["/toggle", id] => match py.decimal id with
    | some ruleId => .toggling userId ruleId
    | none => .idle
  | ["/delete", id] => match py.decimal id with
    | some serverId => .deleting userId chatId serverId false
    | none => .idle
  | ["/delete", id, "confirm"] => match py.decimal id with
    | some serverId => .deleting userId chatId serverId true
    | none => .idle
  | _ => if PyText.startsWith text "/createrule" then .listing userId chatId else .idle

/- After `get_rule_draft`. -/
def resumeDraft (userId : ℕ) (chatId : ℤ) (text : String) : Option Draft → Bot
  | some draft =>
    if PyText.startsWith text "/" then .leaving userId chatId text
    else match processRuleDraft py (PyText.strip text) draft with
      | none => .idle
      | some .again => .idle
      | some (.next draft') => .saving chatId draft'
      | some (.lookUp serverId) => .choosing userId chatId serverId
      | some (.create data) => .confirming userId chatId data
      | some .cancelled => .clearing chatId
  | none => if PyText.startsWith text "/" then dispatch py userId chatId text else .idle

/- The server of this id, if it is the user's. -/
def ownServer (userId serverId : ℕ) (s : Db) : Option Server :=
  s.fleet.servers.find? fun r => r.id = serverId ∧ r.ownerId = userId

/-- The await the bot stands at, and the code up to the next one. -/
def botStep (s : State) : Option State :=
  match s.bot with
  | .idle => none
  | .starting chatId code => match s.consumeTgLinkCode code with
    | (some userId, t) => some (t.goto (.linking userId chatId))
    | (none, t) => some (t.goto .idle)
  | .linking userId chatId =>
    some ({ s with users := linkUser userId chatId s.users }.goto .idle)
  | .finding chatId text => match findUserByChatId chatId s.users with
    | .one user => some (s.goto (.found user.id chatId text))
    | _ => some (s.goto .idle)
  | .found userId chatId text =>
    if PyText.startsWith text "/cancel" then some ((s.clearRuleDraft chatId).goto .idle)
    else some (s.goto (resumeDraft py userId chatId text (s.getRuleDraft chatId)))
  | .leaving userId chatId text =>
    some ((s.clearRuleDraft chatId).goto (dispatch py userId chatId text))
  | .listing userId chatId =>
    if s.db.fleet.servers.any fun r => r.ownerId = userId then
      some (s.goto (.saving chatId .server))
    else some (s.goto .idle)
  | .choosing userId chatId serverId => match ownServer userId serverId s.db with
    | some server => some (s.goto (.saving chatId (.metricType ⟨serverId, server.name, userId⟩)))
    | none => some (s.goto .idle)
  | .saving chatId draft => some ((s.setRuleDraft chatId draft).goto .idle)
  | .confirming userId chatId data =>
    match s.db.addRule (data.rule.rule s.db.nextRule userId) with
    | some db => some ({ s with db }.goto (.clearing chatId))
    | none => some (s.goto .idle)
  | .clearing chatId => some ((s.clearRuleDraft chatId).goto .idle)
  | .toggling userId ruleId => some ({ s with db := handleToggle userId ruleId s.db }.goto .idle)
  | .deleting userId chatId serverId isConfirm => match ownServer userId serverId s.db with
    | some _ => some (s.goto (if isConfirm then .checking chatId serverId
        else .remembering chatId serverId))
    | none => some (s.goto .idle)
  | .remembering chatId serverId => some ((s.setPendingDelete chatId serverId).goto .idle)
  | .checking chatId serverId => match s.consumePendingDelete chatId serverId with
    | (true, t) => some (t.goto (.dropping serverId))
    | (false, t) => some (t.goto .idle)
  | .dropping serverId => some ({ s with db := s.db.removeServer serverId }.goto .idle)

end

/- The labels of the alert machine that are the bot's own. -/
def ofBot : Alerts.Label → Bool
  | .confirm _ _ => true
  | .toggle _ _ => true
  | .deleteServer _ _ => true
  | _ => false

section
variable (py : PyStr) (cr : Crypto) (floatStr : PyFloat → String) (attrs : Attributes)

def step (s : State) : Label → Option State
  | .registerUser email passwordHash =>
    if s.users.any fun u => u.email = email then none
    else some { s with
      users := { id := s.nextUser, email, passwordHash } :: s.users
      nextUser := s.nextUser + 1 }
  | .linkCode userId code =>
    if s.users.any fun u => u.id = userId then some (s.storeTgLinkCode code userId) else none
  | .load i userId chatId => match s.patches i, validateChatId py chatId with
    | .idle, some chatId => (s.users.find? fun u => u.id = userId).map fun user =>
        { s with patches := Function.update s.patches i (.loaded user chatId) }
    | _, _ => none
  | .save i => match s.patches i with
    | .loaded user chatId => some { s with
        users := saveChatId user chatId s.users
        patches := Function.update s.patches i .idle }
    | .idle => none
  | .rest l =>
    if ofBot l then none
    else (Alerts.step cr floatStr attrs s.db l).map fun db => { s with db }
  | .message chatId text => match s.bot with
    | .idle => some (s.goto (handleMessage chatId text))
    | _ => none
  | .bot => botStep py s
  | .abort => match s.bot with
    | .idle => none
    | _ => some (s.goto .idle)

end

/- What one await of the bot writes besides Redis and its own place. -/
inductive BotWrites (s s' : State) : Prop where
  | nothing (db : s'.db = s.db) (users : s'.users = s.users) (next : s'.nextUser = s.nextUser)
  | chat (userId : ℕ) (chatId : ℤ) (place : s.bot = .linking userId chatId) (db : s'.db = s.db)
  | rule (userId : ℕ) (chatId : ℤ) (data : Ready) (place : s.bot = .confirming userId chatId data)
      (db : s.db.addRule (data.rule.rule s.db.nextRule userId) = some s'.db)
      (users : s'.users = s.users) (next : s'.nextUser = s.nextUser)
  | toggled (userId ruleId : ℕ) (place : s.bot = .toggling userId ruleId)
      (db : s'.db = handleToggle userId ruleId s.db) (users : s'.users = s.users)
      (next : s'.nextUser = s.nextUser)
  | deleted (serverId : ℕ) (place : s.bot = .dropping serverId)
      (db : s'.db = s.db.removeServer serverId) (users : s'.users = s.users)
      (next : s'.nextUser = s.nextUser)

theorem botStep_writes {py : PyStr} {s s' : State} (h : botStep py s = some s') :
    BotWrites s s' := by
  unfold botStep at h
  cases hb : s.bot with
  | idle => simp [hb] at h
  | linking userId chatId =>
    simp only [hb, Option.some.injEq] at h
    subst h
    exact .chat userId chatId hb rfl
  | confirming userId chatId data =>
    simp only [hb] at h
    split at h
    · next db hdb =>
      obtain rfl := Option.some.inj h
      exact .rule userId chatId data hb hdb rfl rfl
    · obtain rfl := Option.some.inj h
      exact .nothing rfl rfl rfl
  | toggling userId ruleId =>
    simp only [hb, Option.some.injEq] at h
    subst h
    exact .toggled userId ruleId hb rfl rfl rfl
  | dropping serverId =>
    simp only [hb, Option.some.injEq] at h
    subst h
    exact .deleted serverId hb rfl rfl rfl
  | starting chatId code =>
    simp only [hb] at h
    split at h
    · next userId t ht =>
      obtain rfl := Option.some.inj h
      obtain ⟨-, rfl⟩ := Prod.mk.inj ht
      exact .nothing rfl rfl rfl
    · next t ht =>
      obtain rfl := Option.some.inj h
      obtain ⟨-, rfl⟩ := Prod.mk.inj ht
      exact .nothing rfl rfl rfl
  | checking chatId serverId =>
    simp only [hb] at h
    split at h
    · next t ht =>
      obtain rfl := Option.some.inj h
      obtain ⟨-, rfl⟩ := Prod.mk.inj ht
      exact .nothing rfl rfl rfl
    · next t ht =>
      obtain rfl := Option.some.inj h
      obtain ⟨-, rfl⟩ := Prod.mk.inj ht
      exact .nothing rfl rfl rfl
  | finding chatId text | found userId chatId text | listing userId chatId
  | choosing userId chatId serverId | deleting userId chatId serverId isConfirm =>
    simp only [hb] at h
    split at h
    · obtain rfl := Option.some.inj h
      exact .nothing rfl rfl rfl
    · obtain rfl := Option.some.inj h
      exact .nothing rfl rfl rfl
  | leaving userId chatId text | saving chatId draft | clearing chatId
  | remembering chatId serverId =>
    simp only [hb, Option.some.injEq] at h
    subst h
    exact .nothing rfl rfl rfl

/-! ### Drafts in hand -/

def Bot.draft : Bot → Option Draft
  | .saving _ draft => some draft
  | .confirming _ _ data => some (.confirm data)
  | _ => none

/- A draft in Redis or in the bot's hands. -/
def State.Holds (s : State) (d : Draft) : Prop :=
  (∃ e ∈ s.redis, e.value = .draft d) ∨ s.bot.draft = some d

/- Where a draft held after a step of the bot is from. -/
inductive Drafted (py : PyStr) (s : State) (d : Draft) : Prop where
  | held (mem : s.Holds d)
  | opened (same : d = .server)
  | chosen (userId : ℕ) (chatId : ℤ) (serverId : ℕ) (server : Server)
      (place : s.bot = .choosing userId chatId serverId)
      (own : ownServer userId serverId s.db = some server)
      (same : d = .metricType ⟨serverId, server.name, userId⟩)
  | answered (text : String) (old : Draft) (mem : s.Holds old)
      (answer : processRuleDraft py text old = some (.next d))
  | confirmed (text : String) (old : Draft) (data : Ready) (mem : s.Holds old)
      (answer : processRuleDraft py text old = some (.create data)) (same : d = .confirm data)

/- Redis and the bot's hands change without a new draft. -/
theorem Holds.of_same {s s' : State} {d : Draft} (hb : s'.bot.draft = none)
    (hr : ∀ e ∈ s'.redis, e.value = .draft d → e ∈ s.redis) (h : s'.Holds d) : s.Holds d := by
  rcases h with ⟨e, he, hv⟩ | h
  · exact Or.inl ⟨e, hr e he hv, hv⟩
  · rw [hb] at h
    cases h

theorem getRuleDraft_mem {s : State} {chatId : ℤ} {d : Draft} (h : s.getRuleDraft chatId = some d) :
    ∃ e ∈ s.redis, e.value = .draft d := by
  unfold State.getRuleDraft State.getKey at h
  split at h
  · next d' hk =>
    obtain ⟨e, he, -, hv, -⟩ := get?_mem hk
    obtain rfl := Option.some.inj h
    exact ⟨e, he, hv⟩
  · cases h

theorem dispatch_draft (py : PyStr) (userId : ℕ) (chatId : ℤ) (text : String) :
    (dispatch py userId chatId text).draft = none := by
  unfold dispatch
  split
  · split <;> rfl
  · split <;> rfl
  · split <;> rfl
  · split <;> rfl

theorem handleMessage_draft (chatId : ℤ) (text : String) :
    (handleMessage chatId text).draft = none := by
  unfold handleMessage
  split
  · rfl
  · split
    · split <;> rfl
    · rfl

/- An answer leads to the draft it was given to. -/
theorem resumeDraft_drafted {py : PyStr} {s : State} {userId : ℕ} {chatId : ℤ} {text : String}
    {d : Draft} (h : (resumeDraft py userId chatId text (s.getRuleDraft chatId)).draft = some d) :
    Drafted py s d := by
  cases hold : s.getRuleDraft chatId with
  | none =>
    simp only [hold, resumeDraft] at h
    split at h
    · rw [dispatch_draft] at h
      cases h
    · cases h
  | some old =>
    have hmem : s.Holds old := Or.inl (getRuleDraft_mem hold)
    simp only [hold, resumeDraft] at h
    split at h
    · cases h
    · split at h
      · cases h
      · cases h
      · next draft' ha =>
        obtain rfl := Option.some.inj h
        exact .answered (PyText.strip text) old hmem ha
      · cases h
      · next data ha =>
        obtain rfl := Option.some.inj h
        exact .confirmed (PyText.strip text) old data hmem ha rfl
      · cases h

theorem botStep_drafts {py : PyStr} {s s' : State} {d : Draft} (h : botStep py s = some s')
    (hd : s'.Holds d) : Drafted py s d := by
  have hquiet : ∀ t : State, t = s' → t.bot.draft = none →
      (∀ e ∈ t.redis, e.value = .draft d → e ∈ s.redis) → Drafted py s d :=
    fun t ht hb hr => .held (Holds.of_same hb hr (ht ▸ hd))
  unfold botStep at h
  cases hb : s.bot with
  | idle => simp [hb] at h
  | starting chatId code =>
    simp only [hb] at h
    split at h
    · next userId t ht =>
      obtain ⟨-, rfl⟩ := Prod.mk.inj ht
      exact hquiet _ (Option.some.inj h) rfl fun e he _ => (mem_del he).1
    · next t ht =>
      obtain ⟨-, rfl⟩ := Prod.mk.inj ht
      exact hquiet _ (Option.some.inj h) rfl fun e he _ => (mem_del he).1
  | checking chatId serverId =>
    simp only [hb] at h
    split at h
    · next t ht =>
      obtain ⟨-, rfl⟩ := Prod.mk.inj ht
      exact hquiet _ (Option.some.inj h) rfl fun e he _ => (mem_del he).1
    · next t ht =>
      obtain ⟨-, rfl⟩ := Prod.mk.inj ht
      exact hquiet _ (Option.some.inj h) rfl fun e he _ => (mem_del he).1
  | linking userId chatId | toggling userId ruleId | dropping serverId =>
    simp only [hb] at h
    exact hquiet _ (Option.some.inj h) rfl fun e he _ => he
  | finding chatId text | confirming userId chatId data =>
    simp only [hb] at h
    split at h
    · exact hquiet _ (Option.some.inj h) rfl fun e he _ => he
    · exact hquiet _ (Option.some.inj h) rfl fun e he _ => he
  | found userId chatId text =>
    simp only [hb] at h
    split at h
    · exact hquiet _ (Option.some.inj h) rfl fun e he _ => (mem_del he).1
    · obtain rfl := Option.some.inj h
      rcases hd with hd | hd
      · exact .held (Or.inl hd)
      · exact resumeDraft_drafted hd
  | leaving userId chatId text =>
    simp only [hb] at h
    exact hquiet _ (Option.some.inj h) (dispatch_draft py userId chatId text)
      fun e he _ => (mem_del he).1
  | clearing chatId =>
    simp only [hb] at h
    exact hquiet _ (Option.some.inj h) rfl fun e he _ => (mem_del he).1
  | listing userId chatId =>
    simp only [hb] at h
    split at h
    · obtain rfl := Option.some.inj h
      rcases hd with hd | hd
      · exact .held (Or.inl hd)
      · exact .opened (Option.some.inj hd).symm
    · exact hquiet _ (Option.some.inj h) rfl fun e he _ => he
  | choosing userId chatId serverId =>
    simp only [hb] at h
    split at h
    · next server hown =>
      obtain rfl := Option.some.inj h
      rcases hd with hd | hd
      · exact .held (Or.inl hd)
      · exact .chosen userId chatId serverId server hb hown (Option.some.inj hd).symm
    · exact hquiet _ (Option.some.inj h) rfl fun e he _ => he
  | saving chatId draft =>
    simp only [hb] at h
    obtain rfl := Option.some.inj h
    rcases hd with ⟨e, he, hv⟩ | hd
    · rcases mem_set he with rfl | ⟨he, -⟩
      · refine .held (Or.inr ?_)
        rw [hb]
        cases hv
        rfl
      · exact .held (Or.inl ⟨e, he, hv⟩)
    · cases hd
  | remembering chatId serverId =>
    simp only [hb] at h
    refine hquiet _ (Option.some.inj h) rfl fun e he hv => ?_
    rcases mem_set he with rfl | ⟨he, -⟩
    · cases hv
    · exact he
  | deleting userId chatId serverId isConfirm =>
    simp only [hb] at h
    split at h
    · refine hquiet _ (Option.some.inj h) ?_ fun e he _ => he
      cases isConfirm <;> rfl
    · exact hquiet _ (Option.some.inj h) rfl fun e he _ => he

section
variable {py : PyStr} {cr : Crypto} {floatStr : PyFloat → String} {attrs : Attributes}
  {s s' : State} {l : Label}

/- Beside the bot's own steps only those of the alert machine write its tables. -/
theorem beside_db (hl : l ≠ .bot) (h : step py cr floatStr attrs s l = some s') :
    s'.db = s.db ∨ ∃ m, l = .rest m ∧ ofBot m = false ∧
      Alerts.step cr floatStr attrs s.db m = some s'.db := by
  cases l with
  | registerUser email passwordHash =>
    simp only [step] at h
    split at h
    · cases h
    · obtain rfl := Option.some.inj h
      exact Or.inl rfl
  | linkCode userId code =>
    simp only [step] at h
    split at h
    · obtain rfl := Option.some.inj h
      exact Or.inl rfl
    · cases h
  | load i userId chatId =>
    simp only [step] at h
    split at h
    · obtain ⟨user, -, rfl⟩ := Option.map_eq_some_iff.mp h
      exact Or.inl rfl
    · cases h
  | save i =>
    simp only [step] at h
    split at h
    · obtain rfl := Option.some.inj h
      exact Or.inl rfl
    · cases h
  | rest m =>
    simp only [step] at h
    split at h
    · cases h
    · next hm =>
      obtain ⟨db, hdb, rfl⟩ := Option.map_eq_some_iff.mp h
      exact Or.inr ⟨m, rfl, by simpa using hm, hdb⟩
  | message chatId text =>
    simp only [step] at h
    split at h
    · obtain rfl := Option.some.inj h
      exact Or.inl rfl
    · cases h
  | bot => exact absurd rfl hl
  | abort =>
    simp only [step] at h
    split at h
    · cases h
    · obtain rfl := Option.some.inj h
      exact Or.inl rfl

/- Beside the bot's own steps nothing writes a draft. -/
theorem beside_drafts {d : Draft} (hl : l ≠ .bot)
    (h : step py cr floatStr attrs s l = some s') (hd : s'.Holds d) : s.Holds d := by
  cases l with
  | registerUser email passwordHash =>
    simp only [step] at h
    split at h
    · cases h
    · obtain rfl := Option.some.inj h
      exact hd
  | linkCode userId code =>
    simp only [step] at h
    split at h
    · obtain rfl := Option.some.inj h
      rcases hd with ⟨e, he, hv⟩ | hd
      · rcases mem_set he with rfl | ⟨he, -⟩
        · cases hv
        · exact Or.inl ⟨e, he, hv⟩
      · exact Or.inr hd
    · cases h
  | load i userId chatId =>
    simp only [step] at h
    split at h
    · obtain ⟨user, -, rfl⟩ := Option.map_eq_some_iff.mp h
      exact hd
    · cases h
  | save i =>
    simp only [step] at h
    split at h
    · obtain rfl := Option.some.inj h
      exact hd
    · cases h
  | rest l =>
    simp only [step] at h
    split at h
    · cases h
    · obtain ⟨db, -, rfl⟩ := Option.map_eq_some_iff.mp h
      exact hd
  | message chatId text =>
    simp only [step] at h
    split at h
    · obtain rfl := Option.some.inj h
      exact @Holds.of_same s (s.goto (handleMessage chatId text)) d
        (handleMessage_draft chatId text) (fun e he _ => he) hd
    · cases h
  | bot => exact absurd rfl hl
  | abort =>
    simp only [step] at h
    split at h
    · cases h
    · obtain rfl := Option.some.inj h
      exact @Holds.of_same s (s.goto .idle) d rfl (fun e he _ => he) hd

end

/- Python's methods on the ASCII texts of the concrete runs. -/
def digits (s : String) : Option ℕ :=
  if s ≠ "" ∧ s.toList.all Char.isDigit then
    some (s.toList.foldl (fun n c => 10 * n + (c.toNat - 48)) 0)
  else none

def asciiStr : PyStr where
  lower := PyText.lower
  isdigit s := (digits s).isSome
  int := digits
  decimal := digits
  float s := (digits s).map fun n => .fin n

/- And on any text, with `lower` and `float` left open. -/
def unicodeStr (lower : String → String) (float : String → Option PyFloat) : PyStr where
  lower
  isdigit := PyInt.isdigit
  int s := (PyInt.int s).map Int.toNat
  decimal s := (PyInt.int s).map Int.toNat
  float

/- A message and the awaits of its handler. -/
def say (chatId : ℤ) (text : String) (awaits : ℕ) : List Label :=
  .message chatId text :: List.replicate awaits .bot

end PulseWatch.TelegramBot
