import PulseWatch.Lib.Effects
import PulseWatch.Lib.PyText
import PulseWatch.Models
import PulseWatch.RedisClient

/-!
# The notification tasks (`app/tasks/notification_tasks.py`)

With `app/services/telegram.py` and `app/services/email_alert.py`. An alert has a task
for each channel, which Celery repeats when its channel failed; a heartbeat task serves
Telegram first and then, in the same function, the email. Counters and log lines are
left out.
-/

namespace PulseWatch.NotificationTasks
open Effects PyText RedisClient

/- What the packages raise, as far as the code tells it apart: `httpx.HTTPError`,
`ValueError`, `aiosmtplib.SMTPException`, `OSError`, anything else. -/
inductive Fault where
  | httpError (text : String)
  | valueError
  | smtpException (text : String)
  | osError (text : String)
  | other
  deriving DecidableEq, Repr

inductive Exc where
  | telegramNotConfigured (text : String)
  | telegramSend (text : String)
  | emailNotConfigured (text : String)
  | emailSend (text : String)
  | outside (f : Fault)
  deriving DecidableEq, Repr

structure SmtpSettings where
  host : Option String
  port : ℕ := 587
  user : Option String := none
  password : Option String := none
  fromAddress : Option String := none
  useTls : Bool := true
  deriving DecidableEq, Repr

structure Settings where
  telegramBotToken : Option String
  telegramApiUrl : String := "https://api.telegram.org"
  smtp : SmtpSettings
  deriving DecidableEq, Repr

structure Db where
  events : List AlertEvent
  rules : List AlertRule
  servers : List Server
  users : List User
  deriving DecidableEq, Repr

/- The POST of `send_message`. -/
structure Request where
  url : String
  chatId : String
  text : String
  parseMode : Option String
  deriving DecidableEq, Repr

structure Mail where
  sender : String
  recipient : String
  subject : String
  html : String
  text : String
  deriving DecidableEq, Repr

/- What leaves the worker: a request to the Telegram API, a mail for the SMTP server. -/
inductive Call where
  | telegram (r : Request)
  | smtp (settings : SmtpSettings) (mail : Mail)
  deriving DecidableEq, Repr

def Call.isTelegram : Call → Bool
  | .telegram _ => true
  | .smtp _ _ => false

def Call.isMail : Call → Bool
  | .telegram _ => false
  | .smtp _ _ => true

inductive Json where
  | null
  | bool (b : Bool)
  | num (x : PyFloat)
  | str (s : String)
  | list (l : List Json)
  | dict (d : List (String × Json))

section
variable (Body : Type)

structure Response where
  statusCode : ℕ
  body : Body

/- What a task run meets. Redis answers `EXISTS` or fails, key by key; the Telegram API
and the SMTP server answer any request as they like. -/
structure World where
  settings : Settings
  db : Db
  redis : RedisKey → Except Fault ℕ
  telegram : Request → Except Fault (Response Body)
  smtp : SmtpSettings → Mail → Except Fault Unit

/- The packages' own functions: `response.json()` and `response.text`, the headers of
an `EmailMessage`, `str` of a parsed value, of a float and of a datetime. -/
structure Packages where
  json : Body → Except Fault Json
  text : Body → String
  emailMessage : Mail → Except Fault Unit
  str : Json → String
  floatStr : PyFloat → String
  isoformat : Instant → String

end

variable {Body : Type} (pk : Packages Body)

abbrev Program (Body A : Type) := Act (World Body) Call Exc A

/-- An exception of a package. -/
def lift {A : Type} (x : Except Fault A) : Except Exc A := x.mapError .outside

@[simp] theorem lift_ok {A : Type} (v : A) : lift (.ok v) = .ok v := rfl

@[simp] theorem lift_error {A : Type} (f : Fault) :
    lift (.error f : Except Fault A) = .error (.outside f) := rfl

/-! ### The two channels -/

/- A body that is no JSON or no dict is an empty dict. -/
def safeJson (response : Response Body) : Program Body (List (String × Json)) :=
  attempt
    (do
      let data ← ask fun _ => lift (pk.json response.body)
      match data with
      | .dict d => pure d
      | _ => pure [])
    fun
      | .outside .valueError => some (pure [])
      | _ => none

def request (settings : Settings) (token chatId text : String) : Request :=
  { url := settings.telegramApiUrl ++ "/bot" ++ token ++ "/sendMessage", chatId, text
    parseMode := some "HTML" }

/- `await client.post(...)` in its `try`. -/
def post (r : Request) : Program Body (Response Body) :=
  attempt (call (.telegram r) fun w => lift (w.telegram r)) fun
    | .outside (.httpError e) =>
      some (raise (.telegramSend ("Сетевая ошибка при отправке в Telegram: " ++ e)))
    | _ => none

/- What `send_message` does with the answer. -/
def readAnswer (response : Response Body) : Program Body Json :=
  if response.statusCode ≠ 200 then do
    let body ← safeJson pk response
    let description := ((body.lookup "description").map pk.str).getD (pk.text response.body)
    raise (.telegramSend ("Telegram вернул " ++ toString response.statusCode ++ ": " ++
      description))
  else ask fun _ => lift (pk.json response.body)

def sendMessage (chatId text : String) : Program Body Json := do
  let settings ← ask fun w => .ok w.settings
  match present settings.telegramBotToken with
  | none => raise (.telegramNotConfigured "TELEGRAM_BOT_TOKEN не задан в настройках")
  | some token => do
    let response ← post (request settings token chatId text)
    readAnswer pk response

/-- `settings.smtp_from_address or settings.smtp_user`. -/
def SmtpSettings.sender (s : SmtpSettings) : Option String :=
  present (present s.fromAddress <|> s.user)

def sendEmail (recipient subject htmlBody textBody : String) : Program Body Unit := do
  let settings ← ask fun w => .ok w.settings.smtp
  if (present settings.host).isNone then
    raise (.emailNotConfigured "SMTP_HOST не задан в настройках")
  else match settings.sender with
    | none => raise (.emailNotConfigured
        "Не задан SMTP_FROM_ADDRESS и нет SMTP_USER — некому подписать письмо")
    | some sender =>
      let mail : Mail := ⟨sender, recipient, subject, htmlBody, textBody⟩
      ask fun _ => lift (pk.emailMessage mail)
      attempt (call (.smtp settings mail) fun w => lift (w.smtp settings mail)) fun
        | .outside (.smtpException e) => some (raise (.emailSend ("SMTP error: " ++ e)))
        | .outside (.osError e) => some (raise (.emailSend ("Сетевая ошибка SMTP: " ++ e)))
        | _ => none

def isChannelMuted (serverId : ℕ) (channel : String) : Program Body Bool :=
  ask fun w => lift ((w.redis (.mute serverId channel)).map (· == 1))

/-! ### Alerts -/

def Db.alertRow (db : Db) (eventId : ℕ) : Option (AlertEvent × AlertRule × Server × User) := do
  let event ← db.events.find? (·.id = eventId)
  let rule ← db.rules.find? (·.id = event.ruleId)
  let server ← db.servers.find? (·.id = event.serverId)
  let user ← db.users.find? (·.id = server.ownerId)
  return (event, rule, server, user)

def formatMessage (event : AlertEvent) (rule : AlertRule) (server : Server) : String :=
  "<b>🚨 Алерт: " ++ htmlEscape rule.name ++ "</b>\n" ++
  "Сервер: <code>" ++ htmlEscape server.name ++ "</code>\n" ++
  "Метрика: <code>" ++ htmlEscape rule.metricField ++ "</code> " ++
  "= <b>" ++ pk.floatStr event.metricValue ++ "</b>\n" ++
  "Порог: <code>" ++ rule.operator.value ++ "</code> " ++ pk.floatStr event.thresholdValue ++
  "\n" ++ "Время: " ++ pk.isoformat event.createdAt

def formatText (event : AlertEvent) (rule : AlertRule) (server : Server) : String :=
  "PulseWatch alert: " ++ rule.name ++ "\n" ++
  "Server: " ++ server.name ++ "\n" ++
  "Metric: " ++ rule.metricField ++ " = " ++ pk.floatStr event.metricValue ++ "\n" ++
  "Threshold: " ++ rule.operator.value ++ " " ++ pk.floatStr event.thresholdValue ++ "\n" ++
  "Time: " ++ pk.isoformat event.createdAt ++ "\n"

/- `_send`. -/
def send (eventId : ℕ) : Program Body Unit := do
  let row ← ask fun w => .ok (w.db.alertRow eventId)
  match row with
  | none => pure ()
  | some (event, rule, server, user) =>
    match present user.telegramChatId with
    | none => pure ()
    | some chatId =>
      let muted ← isChannelMuted server.id "telegram"
      if muted then pure ()
      else
        attempt (sendMessage pk chatId (formatMessage pk event rule server) >>= fun _ => pure ())
          fun
          | .telegramNotConfigured _ => some (pure ())
          | _ => none

/- `_send_email`. -/
def sendEmailAlert (eventId : ℕ) : Program Body Unit := do
  let row ← ask fun w => .ok (w.db.alertRow eventId)
  match row with
  | none => pure ()
  | some (event, rule, server, user) =>
    if user.emailAlertsEnabled = false then pure ()
    else do
      let muted ← isChannelMuted server.id "email"
      if muted then pure ()
      else
        attempt (sendEmail pk user.email ("[PulseWatch] " ++ rule.name ++ " — " ++ server.name)
            (replace '\n' "<br>" (formatMessage pk event rule server))
            (formatText pk event rule server))
          fun
          | .emailNotConfigured _ => some (pure ())
          | _ => none

/-! ### Heartbeat -/

def Db.serverRow (db : Db) (serverId : ℕ) : Option (Server × User) := do
  let server ← db.servers.find? (·.id = serverId)
  let user ← db.users.find? (·.id = server.ownerId)
  return (server, user)

def emoji (recovered : Bool) : String := if recovered then "✅" else "⚠️"

def statusText (recovered : Bool) : String := if recovered then "снова в строю" else "не отвечает"

def lastSeen (server : Server) : String := (server.lastSeenAt.map pk.isoformat).getD "ни разу"

def heartbeatText (recovered : Bool) (server : Server) : String :=
  emoji recovered ++ " <b>Сервер " ++ htmlEscape server.name ++ " " ++ statusText recovered ++
  "</b>\n" ++ "id: <code>" ++ toString server.id ++ "</code>\n" ++
  "last seen: " ++ htmlEscape (lastSeen pk server)

/- The Telegram part of `_send_heartbeat`. -/
def heartbeatTelegram (recovered : Bool) (server : Server) (user : User) : Program Body Unit :=
  match present user.telegramChatId with
  | none => pure ()
  | some chatId => do
    let muted ← isChannelMuted server.id "telegram"
    if muted then pure ()
    else
      attempt (sendMessage pk chatId (heartbeatText pk recovered server) >>= fun _ => pure ())
        fun
        | .telegramNotConfigured _ => some (pure ())
        | .telegramSend _ => some (pure ())
        | _ => none

def heartbeatSubject (recovered : Bool) (server : Server) : String :=
  "[PulseWatch] " ++ server.name ++ " " ++ statusText recovered

def heartbeatHtml (recovered : Bool) (server : Server) : String :=
  "<p>" ++ emoji recovered ++ " <b>" ++ htmlEscape server.name ++ "</b> " ++
  statusText recovered ++ ".</p>" ++ "<p>last seen: " ++ htmlEscape (lastSeen pk server) ++ "</p>"

def heartbeatPlain (recovered : Bool) (server : Server) : String :=
  emoji recovered ++ " " ++ server.name ++ " " ++ statusText recovered ++ ". last seen: " ++
  lastSeen pk server

/- Its email part. -/
def heartbeatEmail (recovered : Bool) (server : Server) (user : User) : Program Body Unit :=
  if user.emailAlertsEnabled = false then pure ()
  else do
    let muted ← isChannelMuted server.id "email"
    if muted then pure ()
    else
      attempt (sendEmail pk user.email (heartbeatSubject recovered server)
          (heartbeatHtml pk recovered server) (heartbeatPlain pk recovered server))
        fun
        | .emailNotConfigured _ => some (pure ())
        | .emailSend _ => some (pure ())
        | _ => none

def sendHeartbeat (serverId : ℕ) (recovered : Bool) : Program Body Unit := do
  let row ← ask fun w => .ok (w.db.serverRow serverId)
  match row with
  | none => pure ()
  | some (server, user) => do
    heartbeatTelegram pk recovered server user
    heartbeatEmail pk recovered server user

/-! ### Jobs -/

/- The Celery tasks. -/
inductive Job where
  | sendTelegramAlert (eventId : ℕ)
  | sendEmailAlert (eventId : ℕ)
  | sendHeartbeatDown (serverId : ℕ)
  | sendHeartbeatRecovery (serverId : ℕ)
  deriving DecidableEq, Repr

/- All calls of a job; `ws i` is the world its attempt `i` meets. `autoretry_for` names
the failure of the task's own channel, `max_retries` is 5. -/
def Job.perform : Job → (ℕ → World Body) → List Call
  | .sendTelegramAlert eventId => retried (fun | .telegramSend _ => true | _ => false)
      (send pk eventId) 5
  | .sendEmailAlert eventId => retried (fun | .emailSend _ => true | _ => false)
      (NotificationTasks.sendEmailAlert pk eventId) 5
  | .sendHeartbeatDown serverId => retried (fun _ => false) (sendHeartbeat pk serverId false) 0
  | .sendHeartbeatRecovery serverId => retried (fun _ => false) (sendHeartbeat pk serverId true) 0

/-! ### The two sides -/

/- The user without what belongs to one of the channels. -/
def forgetChat (u : User) : User := { u with telegramChatId := none }
def forgetEmail (u : User) : User := { u with email := "", emailAlertsEnabled := false }

/- The worlds differ at most in the chat links, the Telegram mutes, the settings of the
bot and what the Telegram API answers. -/
structure SameBesideTelegram (w w' : World Body) : Prop where
  smtpSettings : w.settings.smtp = w'.settings.smtp
  events : w.db.events = w'.db.events
  rules : w.db.rules = w'.db.rules
  servers : w.db.servers = w'.db.servers
  users : w.db.users.map forgetChat = w'.db.users.map forgetChat
  redis : ∀ k, (∀ serverId, k ≠ .mute serverId "telegram") → w.redis k = w'.redis k
  smtp : w.smtp = w'.smtp

/- And at most in the users' addresses and switches, the email mutes, the SMTP settings
and what the SMTP server answers. -/
structure SameBesideEmail (w w' : World Body) : Prop where
  token : w.settings.telegramBotToken = w'.settings.telegramBotToken
  apiUrl : w.settings.telegramApiUrl = w'.settings.telegramApiUrl
  events : w.db.events = w'.db.events
  rules : w.db.rules = w'.db.rules
  servers : w.db.servers = w'.db.servers
  users : w.db.users.map forgetEmail = w'.db.users.map forgetEmail
  redis : ∀ k, (∀ serverId, k ≠ .mute serverId "email") → w.redis k = w'.redis k
  telegram : w.telegram = w'.telegram

/- `response.json()` raises what the caller does not expect. -/
def Unreadable (r : Response Body) : Prop :=
  ∃ f, pk.json r.body = .error f ∧ (r.statusCode = 200 ∨ f ≠ .valueError)

/- The POST fails outside HTTP, or its answer is unreadable. -/
def PostUncaught (chatId text : String) (w : World Body) : Prop :=
  ∃ token, present w.settings.telegramBotToken = some token ∧
    match w.telegram (request w.settings token chatId text) with
    | .error f => ∀ t, f ≠ .httpError t
    | .ok r => Unreadable pk r

/- The POST for a linked and unmuted chat fails outside HTTP, or its answer is
unreadable; or Redis does not say whether the chat is muted. -/
def TelegramUncaught (recovered : Bool) (server : Server) (user : User) (w : World Body) : Prop :=
  ∃ chatId, present user.telegramChatId = some chatId ∧
    ((∃ f, w.redis (.mute server.id "telegram") = .error f) ∨
      ∃ n token, w.redis (.mute server.id "telegram") = .ok n ∧ n ≠ 1 ∧
        present w.settings.telegramBotToken = some token ∧
        match w.telegram (request w.settings token chatId (heartbeatText pk recovered server)) with
        | .error f => ∀ text, f ≠ .httpError text
        | .ok r => Unreadable pk r)

/- Nothing on the side of the email keeps it back. -/
def EmailDue (recovered : Bool) (server : Server) (user : User) (w : World Body) : Prop :=
  user.emailAlertsEnabled = true ∧
    (∃ n, w.redis (.mute server.id "email") = .ok n ∧ n ≠ 1) ∧
    (present w.settings.smtp.host).isSome = true ∧
    ∃ sender, w.settings.smtp.sender = some sender ∧
      pk.emailMessage ⟨sender, user.email, heartbeatSubject recovered server,
        heartbeatHtml pk recovered server, heartbeatPlain pk recovered server⟩ = .ok ()

/- The server and the transition of a heartbeat task. -/
def Job.heartbeat : Job → Option (ℕ × Bool)
  | .sendHeartbeatDown serverId => some (serverId, false)
  | .sendHeartbeatRecovery serverId => some (serverId, true)
  | _ => none

/- A heartbeat task whose email is due. -/
def Job.EmailWaits (job : Job) (w : World Body) : Prop :=
  ∃ serverId recovered server user, job.heartbeat = some (serverId, recovered) ∧
    w.db.serverRow serverId = some (server, user) ∧ EmailDue pk recovered server user w

def Job.TelegramEscapes (job : Job) (w : World Body) : Prop :=
  ∃ serverId recovered server user, job.heartbeat = some (serverId, recovered) ∧
    w.db.serverRow serverId = some (server, user) ∧
    TelegramUncaught pk recovered server user w

/-! ### Rows -/

theorem find_strip {us us' : List User} {strip : User → User} (hid : ∀ u, (strip u).id = u.id)
    (hu : us.map strip = us'.map strip) (userId : ℕ) :
    (us.find? (·.id = userId)).map strip = (us'.find? (·.id = userId)).map strip := by
  have hfind : ∀ l : List User, (l.find? (·.id = userId)).map strip =
      (l.map strip).find? (·.id = userId) := by
    intro l
    rw [List.find?_map]
    congr 2
    funext u
    simp only [Function.comp_apply, hid]
  rw [hfind, hfind, hu]

/- What the joins read of the user comes from one row. -/
theorem serverRow_map (db : Db) (strip : User → User) (serverId : ℕ) :
    (db.serverRow serverId).map (Prod.map id strip) =
      (db.servers.find? (·.id = serverId)).bind fun server =>
        ((db.users.find? (·.id = server.ownerId)).map strip).map (Prod.mk server) := by
  unfold Db.serverRow
  cases db.servers.find? (·.id = serverId) with
  | none => rfl
  | some server =>
    cases h : db.users.find? (·.id = server.ownerId) with
    | none => simp [h]
    | some user => simp [h]

theorem alertRow_map (db : Db) (strip : User → User) (eventId : ℕ) :
    (db.alertRow eventId).map (Prod.map id (Prod.map id (Prod.map id strip))) =
      (db.events.find? (·.id = eventId)).bind fun event =>
        (db.rules.find? (·.id = event.ruleId)).bind fun rule =>
          ((db.serverRow event.serverId).map (Prod.map id strip)).map fun row =>
            (event, rule, row) := by
  unfold Db.alertRow
  cases db.events.find? (·.id = eventId) with
  | none => rfl
  | some event =>
    cases hrule : db.rules.find? (·.id = event.ruleId) with
    | none => simp [hrule]
    | some rule =>
      simp only [Option.bind_eq_bind, hrule, Option.bind_some, Db.serverRow, Option.map_bind]
      congr 1
      funext server
      simp only [Function.comp_apply]
      cases db.users.find? (·.id = server.ownerId) with
      | none => rfl
      | some user => rfl

theorem serverRow_strip {db db' : Db} {strip : User → User} (hid : ∀ u, (strip u).id = u.id)
    (hs : db.servers = db'.servers) (hu : db.users.map strip = db'.users.map strip)
    (serverId : ℕ) : (db.serverRow serverId).map (Prod.map id strip) =
      (db'.serverRow serverId).map (Prod.map id strip) := by
  have hfind := find_strip hid hu
  simp only [serverRow_map, hs, hfind]

theorem alertRow_strip {db db' : Db} {strip : User → User} (hid : ∀ u, (strip u).id = u.id)
    (he : db.events = db'.events) (hr : db.rules = db'.rules) (hs : db.servers = db'.servers)
    (hu : db.users.map strip = db'.users.map strip) (eventId : ℕ) :
    (db.alertRow eventId).map (Prod.map id (Prod.map id (Prod.map id strip))) =
      (db'.alertRow eventId).map (Prod.map id (Prod.map id (Prod.map id strip))) := by
  have hrow := serverRow_strip hid hs hu
  simp only [alertRow_map, he, hr, hrow]

/- What is left of a user without his chat, or without his email. -/
theorem forgetChat_keeps {u u' : User} (h : forgetChat u = forgetChat u') :
    u.email = u'.email ∧ u.emailAlertsEnabled = u'.emailAlertsEnabled := by
  have hemail : (forgetChat u).email = (forgetChat u').email := congrArg User.email h
  have hon : (forgetChat u).emailAlertsEnabled = (forgetChat u').emailAlertsEnabled :=
    congrArg User.emailAlertsEnabled h
  exact ⟨hemail, hon⟩

theorem forgetEmail_keeps {u u' : User} (h : forgetEmail u = forgetEmail u') :
    u.telegramChatId = u'.telegramChatId := by
  have hchat : (forgetEmail u).telegramChatId = (forgetEmail u').telegramChatId :=
    congrArg User.telegramChatId h
  exact hchat

/-! ### What each party sees -/

section
variable {pk}

/- Redis is asked for the other channel's mute only by the other channel. -/
theorem SameBesideTelegram.muted {w w' : World Body} (h : SameBesideTelegram w w')
    (serverId : ℕ) : w.redis (.mute serverId "email") = w'.redis (.mute serverId "email") :=
  h.redis _ fun id he => absurd (RedisKey.mute.inj he).2 (by decide)

theorem SameBesideEmail.muted {w w' : World Body} (h : SameBesideEmail w w')
    (serverId : ℕ) : w.redis (.mute serverId "telegram") = w'.redis (.mute serverId "telegram") :=
  h.redis _ fun id he => absurd (RedisKey.mute.inj he).2 (by decide)

theorem safeJson_silent (p : Call → Bool) (response : Response Body) :
    Silent p (safeJson pk response) := by
  refine Silent.attempt (Silent.bind (Silent.ask _) fun data => ?_) fun e b hb => ?_
  · split
    · exact Silent.pure _
    · exact Silent.pure _
  · split at hb
    · obtain rfl := Option.some.inj hb
      exact Silent.pure _
    · cases hb

theorem sendMessage_silent (chatId text : String) :
    Silent Call.isMail (sendMessage pk chatId text) := by
  refine Silent.bind (Silent.ask _) fun settings => ?_
  split
  · exact Silent.raise _
  · refine Silent.bind (Silent.attempt (Silent.call rfl _) fun e b hb => ?_) fun response => ?_
    · split at hb
      · obtain rfl := Option.some.inj hb
        exact Silent.raise _
      · cases hb
    · exact Silent.ite (Silent.bind (safeJson_silent _ response) fun body => Silent.raise _)
        (Silent.ask _)

theorem sendEmail_silent (recipient subject htmlBody textBody : String) :
    Silent Call.isTelegram (sendEmail pk recipient subject htmlBody textBody) := by
  refine Silent.bind (Silent.ask _) fun settings => Silent.ite (Silent.raise _) ?_
  split
  · exact Silent.raise _
  · refine Silent.bind (Silent.ask _) fun _ => Silent.attempt (Silent.call rfl _) fun e b hb => ?_
    split at hb
    · obtain rfl := Option.some.inj hb
      exact Silent.raise _
    · obtain rfl := Option.some.inj hb
      exact Silent.raise _
    · cases hb

theorem safeJson_alike (p : Call → Bool) (R : World Body → World Body → Prop)
    (response : Response Body) : Alike p R (safeJson pk response) := by
  refine Alike.attempt (Alike.bind (Alike.ask fun _ _ _ => rfl) fun data => ?_) fun e b hb => ?_
  · split
    · exact Alike.pure _
    · exact Alike.pure _
  · split at hb
    · obtain rfl := Option.some.inj hb
      exact Alike.pure _
    · cases hb

theorem sendMessage_alike (p : Call → Bool) (chatId text : String) :
    Alike p SameBesideEmail (sendMessage pk chatId text) := by
  refine Alike.askPart (fun s => (s.telegramBotToken, s.telegramApiUrl))
    (fun w w' h => by simp [Except.map, h.token, h.apiUrl]) (fun v v' hv => ?_) fun settings => ?_
  · obtain ⟨htoken, hurl⟩ := Prod.mk.inj hv
    simp only [htoken, request, hurl]
  · split
    · exact Alike.raise _
    · refine Alike.bind (Alike.attempt (Alike.call _ fun w w' h => by rw [h.telegram])
        fun e b hb => ?_) fun response => ?_
      · split at hb
        · obtain rfl := Option.some.inj hb
          exact Alike.raise _
        · cases hb
      · exact Alike.ite (Alike.bind (safeJson_alike p _ response) fun body => Alike.raise _)
          (Alike.ask fun _ _ _ => rfl)

theorem sendEmail_alike (p : Call → Bool) (recipient subject htmlBody textBody : String) :
    Alike p SameBesideTelegram (sendEmail pk recipient subject htmlBody textBody) := by
  refine Alike.bind (Alike.ask fun w w' h => by rw [h.smtpSettings]) fun settings =>
    Alike.ite (Alike.raise _) ?_
  split
  · exact Alike.raise _
  · refine Alike.bind (Alike.ask fun _ _ _ => rfl) fun _ => Alike.attempt
      (Alike.call _ fun w w' h => by rw [h.smtp]) fun e b hb => ?_
    split at hb
    · obtain rfl := Option.some.inj hb
      exact Alike.raise _
    · obtain rfl := Option.some.inj hb
      exact Alike.raise _
    · cases hb

/-! ### Alerts: one task for each channel -/

theorem send_silent (eventId : ℕ) : Silent Call.isMail (send pk eventId) := by
  refine Silent.bind (Silent.ask _) fun row => ?_
  split
  · exact Silent.pure _
  · split
    · exact Silent.pure _
    · refine Silent.bind (Silent.ask _) fun muted => Silent.ite (Silent.pure _) ?_
      refine Silent.attempt (Silent.bind (sendMessage_silent _ _) fun _ => Silent.pure _)
        fun e b hb => ?_
      split at hb
      · obtain rfl := Option.some.inj hb
        exact Silent.pure _
      · cases hb

theorem sendEmailAlert_silent (eventId : ℕ) :
    Silent Call.isTelegram (sendEmailAlert pk eventId) := by
  refine Silent.bind (Silent.ask _) fun row => ?_
  split
  · exact Silent.pure _
  · refine Silent.ite (Silent.pure _) (Silent.bind (Silent.ask _) fun muted =>
      Silent.ite (Silent.pure _) ?_)
    refine Silent.attempt (sendEmail_silent _ _ _ _) fun e b hb => ?_
    split at hb
    · obtain rfl := Option.some.inj hb
      exact Silent.pure _
    · cases hb

theorem send_alike (eventId : ℕ) :
    Alike Call.isTelegram SameBesideEmail (send pk eventId) := by
  refine Alike.askPart (Option.map (Prod.map id (Prod.map id (Prod.map id forgetEmail))))
    (fun w w' h => congrArg Except.ok (alertRow_strip (fun u => (rfl : (forgetEmail u).id = u.id))
      h.events h.rules h.servers h.users _)) (fun v v' hv => ?_) fun row => ?_
  · rcases v with - | ⟨event, rule, server, user⟩
    · rw [Option.map_eq_none_iff.mp hv.symm]
    · obtain ⟨⟨event', rule', server', user'⟩, rfl, h⟩ := Option.map_eq_some_iff.mp hv.symm
      obtain ⟨rfl, rfl, rfl, hu⟩ : event' = event ∧ rule' = rule ∧ server' = server ∧
          forgetEmail user' = forgetEmail user := by
        simpa only [Prod.map_apply, id_eq, Prod.mk.injEq] using h
      have hchat := forgetEmail_keeps hu
      simp only [hchat]
  · split
    · exact Alike.pure _
    · split
      · exact Alike.pure _
      · refine Alike.bind (Alike.ask fun w w' h => by rw [h.muted]) fun muted =>
          Alike.ite (Alike.pure _) ?_
        refine Alike.attempt (Alike.bind (sendMessage_alike _ _ _) fun _ => Alike.pure _)
          fun e b hb => ?_
        split at hb
        · obtain rfl := Option.some.inj hb
          exact Alike.pure _
        · cases hb

theorem sendEmailAlert_alike (eventId : ℕ) :
    Alike Call.isMail SameBesideTelegram (sendEmailAlert pk eventId) := by
  refine Alike.askPart (Option.map (Prod.map id (Prod.map id (Prod.map id forgetChat))))
    (fun w w' h => congrArg Except.ok (alertRow_strip (fun u => (rfl : (forgetChat u).id = u.id))
      h.events h.rules h.servers h.users _)) (fun v v' hv => ?_) fun row => ?_
  · rcases v with - | ⟨event, rule, server, user⟩
    · rw [Option.map_eq_none_iff.mp hv.symm]
    · obtain ⟨⟨event', rule', server', user'⟩, rfl, h⟩ := Option.map_eq_some_iff.mp hv.symm
      obtain ⟨rfl, rfl, rfl, hu⟩ : event' = event ∧ rule' = rule ∧ server' = server ∧
          forgetChat user' = forgetChat user := by
        simpa only [Prod.map_apply, id_eq, Prod.mk.injEq] using h
      obtain ⟨hemail, hon⟩ := forgetChat_keeps hu
      simp only [hemail, hon]
  · split
    · exact Alike.pure _
    · refine Alike.ite (Alike.pure _) (Alike.bind (Alike.ask fun w w' h => by rw [h.muted])
        fun muted => Alike.ite (Alike.pure _) ?_)
      refine Alike.attempt (sendEmail_alike _ _ _ _ _) fun e b hb => ?_
      split at hb
      · obtain rfl := Option.some.inj hb
        exact Alike.pure _
      · cases hb

/-! ### Heartbeat: one function for both -/

theorem heartbeatTelegram_silent (recovered : Bool) (server : Server) (user : User) :
    Silent Call.isMail (heartbeatTelegram pk recovered server user) := by
  unfold heartbeatTelegram
  split
  · exact Silent.pure _
  · refine Silent.bind (Silent.ask _) fun muted => Silent.ite (Silent.pure _) ?_
    refine Silent.attempt (Silent.bind (sendMessage_silent _ _) fun _ => Silent.pure _)
      fun e b hb => ?_
    split at hb
    · obtain rfl := Option.some.inj hb
      exact Silent.pure _
    · obtain rfl := Option.some.inj hb
      exact Silent.pure _
    · cases hb

theorem heartbeatEmail_silent (recovered : Bool) (server : Server) (user : User) :
    Silent Call.isTelegram (heartbeatEmail pk recovered server user) := by
  refine Silent.ite (Silent.pure _) (Silent.bind (Silent.ask _) fun muted =>
    Silent.ite (Silent.pure _) ?_)
  refine Silent.attempt (sendEmail_silent _ _ _ _) fun e b hb => ?_
  split at hb
  · obtain rfl := Option.some.inj hb
    exact Silent.pure _
  · obtain rfl := Option.some.inj hb
    exact Silent.pure _
  · cases hb

theorem heartbeatTelegram_alike (recovered : Bool) (server : Server) (user : User) :
    Alike Call.isTelegram SameBesideEmail (heartbeatTelegram pk recovered server user) := by
  unfold heartbeatTelegram
  split
  · exact Alike.pure _
  · refine Alike.bind (Alike.ask fun w w' h => by rw [h.muted]) fun muted =>
      Alike.ite (Alike.pure _) ?_
    refine Alike.attempt (Alike.bind (sendMessage_alike _ _ _) fun _ => Alike.pure _)
      fun e b hb => ?_
    split at hb
    · obtain rfl := Option.some.inj hb
      exact Alike.pure _
    · obtain rfl := Option.some.inj hb
      exact Alike.pure _
    · cases hb

theorem heartbeatEmail_alike (recovered : Bool) (server : Server) (user : User) :
    Alike Call.isMail SameBesideTelegram (heartbeatEmail pk recovered server user) := by
  refine Alike.ite (Alike.pure _) (Alike.bind (Alike.ask fun w w' h => by rw [h.muted])
    fun muted => Alike.ite (Alike.pure _) ?_)
  refine Alike.attempt (sendEmail_alike _ _ _ _ _) fun e b hb => ?_
  split at hb
  · obtain rfl := Option.some.inj hb
    exact Alike.pure _
  · obtain rfl := Option.some.inj hb
    exact Alike.pure _
  · cases hb

/- The email of a heartbeat is the rest after a silent part. -/
theorem heartbeat_mails {serverId : ℕ} {recovered : Bool} {w : World Body} {server : Server}
    {user : User} (hrow : w.db.serverRow serverId = some (server, user)) :
    seen Call.isMail (sendHeartbeat pk serverId recovered) w =
      match ((heartbeatTelegram pk recovered server user).run w).1 with
      | .ok _ => seen Call.isMail (heartbeatEmail pk recovered server user) w
      | .error _ => [] := by
  have htelegram : Silent Call.isMail (heartbeatTelegram pk recovered server user) :=
    heartbeatTelegram_silent recovered server user
  rw [sendHeartbeat, seen_after_silent (Silent.ask _)]
  simp only [run_ask, hrow]
  refine (seen_after_silent htelegram (fun _ => heartbeatEmail pk recovered server user) w).trans ?_
  cases ((heartbeatTelegram pk recovered server user).run w).1 with
  | ok v => rfl
  | error e => rfl

/- Its Telegram message comes before everything else. -/
theorem heartbeat_telegrams {serverId : ℕ} {recovered : Bool} {w : World Body} {server : Server}
    {user : User} (hrow : w.db.serverRow serverId = some (server, user)) :
    seen Call.isTelegram (sendHeartbeat pk serverId recovered) w =
      seen Call.isTelegram (heartbeatTelegram pk recovered server user) w := by
  rw [sendHeartbeat, seen_after_silent (Silent.ask _)]
  simp only [run_ask, hrow]
  exact seen_before_silent _ (fun _ => heartbeatEmail_silent recovered server user) w

theorem heartbeat_silent {p : Call → Bool} {serverId : ℕ} {recovered : Bool} {w : World Body}
    (hrow : w.db.serverRow serverId = none) :
    seen p (sendHeartbeat pk serverId recovered) w = [] := by
  rw [sendHeartbeat, seen_after_silent (Silent.ask _)]
  simp only [run_ask, hrow]
  rfl

end

/-! ### Which exceptions leave the Telegram part -/

/- `_safe_json` raises what `response.json()` raises besides a ValueError. -/
theorem safeJson_raises (response : Response Body) (w : World Body) (e : Exc) :
    ((safeJson pk response).run w).1 = .error e ↔
      ∃ f, e = .outside f ∧ pk.json response.body = .error f ∧ f ≠ .valueError := by
  unfold safeJson
  cases h : pk.json response.body with
  | ok data => cases data <;> simp [attempt, run_bind, lift, Except.mapError]
  | error f =>
    cases f <;> simp [attempt, run_bind, lift, Except.mapError, eq_comm]

/- What a heartbeat expects of `send_message`. -/
def Exc.expected : Exc → Bool
  | .telegramNotConfigured _ => true
  | .telegramSend _ => true
  | _ => false

def Escapes {A : Type} (out : Except Exc A) : Prop := ∃ e, out = .error e ∧ e.expected = false

theorem escapes_ok {A : Type} (v : A) : ¬ Escapes (.ok v) := fun ⟨_, he, _⟩ => by cases he

theorem escapes_error {A : Type} (e : Exc) :
    Escapes (.error e : Except Exc A) ↔ e.expected = false :=
  ⟨fun ⟨_, he, hexp⟩ => Except.error.inj he ▸ hexp, fun h => ⟨e, rfl, h⟩⟩

theorem readAnswer_escapes (r : Response Body) (w : World Body) :
    Escapes ((readAnswer pk r).run w).1 ↔ Unreadable pk r := by
  unfold readAnswer Unreadable
  by_cases hs : r.statusCode = 200
  · rw [if_neg (not_not.mpr hs), run_ask]
    cases pk.json r.body with
    | ok v => simpa using escapes_ok v
    | error f => simpa [hs] using (escapes_error (.outside f)).mpr rfl
  · rw [if_pos hs]
    have hraises := safeJson_raises pk r w
    cases hb : ((safeJson pk r).run w).1 with
    | ok body =>
      rw [run_bind_ok w hb, run_raise, escapes_error]
      refine ⟨Bool.noConfusion, ?_⟩
      rintro ⟨f, hf, hstatus | hvalue⟩
      · exact absurd hstatus hs
      · have hraise := (hraises (.outside f)).mpr ⟨f, rfl, hf, hvalue⟩
        cases hb.symm.trans hraise
    | error e =>
      obtain ⟨f, rfl, hf, hvalue⟩ := (hraises e).mp hb
      rw [run_bind_error w hb, escapes_error]
      exact iff_of_true rfl ⟨f, hf, Or.inr hvalue⟩

theorem post_ok {r : Request} {w : World Body} {response : Response Body}
    (h : w.telegram r = .ok response) : ((post r).run w).1 = .ok response := by
  simp [post, attempt, h]

theorem post_error {r : Request} {w : World Body} {f : Fault} (h : w.telegram r = .error f) :
    ∃ e, ((post r).run w).1 = .error e ∧ (e.expected = false ↔ ∀ t, f ≠ .httpError t) := by
  cases f <;> simp [post, attempt, h, Exc.expected]

theorem sendMessage_escapes (chatId text : String) (w : World Body) :
    Escapes ((sendMessage pk chatId text).run w).1 ↔ PostUncaught pk chatId text w := by
  unfold PostUncaught
  rw [sendMessage, run_bind_ask w (v := w.settings) rfl]
  cases present w.settings.telegramBotToken with
  | none => simp [escapes_error, Exc.expected]
  | some token =>
    simp only [Option.some.injEq, exists_eq_left']
    cases hr : w.telegram (request w.settings token chatId text) with
    | ok r =>
      rw [run_bind_ok w (post_ok hr)]
      exact readAnswer_escapes pk r w
    | error f =>
      obtain ⟨e, hpost, hexp⟩ := post_error hr
      rw [run_bind_error w hpost, escapes_error]
      exact hexp

/- The `try` of a heartbeat around `send_message`. -/
theorem telegramTry_escapes (chatId text : String) (w : World Body) :
    (∃ e, ((attempt (sendMessage pk chatId text >>= fun _ => pure ()) fun
        | .telegramNotConfigured _ => some (pure ())
        | .telegramSend _ => some (pure ())
        | _ => none).run w).1 = .error e) ↔ PostUncaught pk chatId text w := by
  rw [← sendMessage_escapes]
  cases hout : ((sendMessage pk chatId text).run w).1 with
  | ok v =>
    rw [run_attempt_ok w (v := ()) (by rw [run_bind_ok w hout]; rfl)]
    exact iff_of_false (fun ⟨_, he⟩ => by cases he) (escapes_ok v)
  | error e =>
    rw [run_attempt_error w (e := e) (by rw [run_bind_error w hout]), escapes_error]
    cases e with
    | telegramNotConfigured t => simp [Exc.expected]
    | telegramSend t => simp [Exc.expected]
    | emailNotConfigured t => simp [Exc.expected]
    | emailSend t => simp [Exc.expected]
    | outside f => simp [Exc.expected]

/- Only an unexpected exception of `send_message` or of Redis leaves the first part. -/
theorem heartbeatTelegram_escapes (recovered : Bool) (server : Server) (user : User)
    (w : World Body) :
    (∃ e, ((heartbeatTelegram pk recovered server user).run w).1 = .error e) ↔
      TelegramUncaught pk recovered server user w := by
  unfold heartbeatTelegram TelegramUncaught
  cases present user.telegramChatId with
  | none => simp
  | some chatId =>
    simp only [Option.some.injEq, exists_eq_left']
    cases hmute : w.redis (.mute server.id "telegram") with
    | error f =>
      rw [run_bind_error w (by rw [isChannelMuted, run_ask, hmute]; rfl)]
      simp
    | ok n =>
      rw [isChannelMuted, run_bind_ask w (v := n == 1) (by rw [hmute]; rfl)]
      by_cases hn : n = 1
      · simp [hn]
      · rw [if_neg (by simpa using hn), telegramTry_escapes]
        simp [hn, PostUncaught]

/-! ### Which emails are due -/

/- `send_email` hands over one mail once the settings and the headers are fine. -/
theorem sendEmail_mails (recipient subject htmlBody textBody : String) (w : World Body) :
    seen Call.isMail (sendEmail pk recipient subject htmlBody textBody) w ≠ [] ↔
      (present w.settings.smtp.host).isSome = true ∧
      ∃ sender, w.settings.smtp.sender = some sender ∧
        pk.emailMessage ⟨sender, recipient, subject, htmlBody, textBody⟩ = .ok () := by
  rw [sendEmail, seen_after_silent (Silent.ask _)]
  simp only [run_ask]
  cases present w.settings.smtp.host with
  | none => simp [Silent.raise _ w]
  | some host =>
    cases w.settings.smtp.sender with
    | none => simp [Silent.raise _ w]
    | some sender =>
      simp only [Option.isNone_some, Bool.false_eq_true, if_false, Option.isSome_some, true_and,
        Option.some.injEq, exists_eq_left']
      rw [seen_after_silent (Silent.ask _)]
      simp only [run_ask]
      cases pk.emailMessage ⟨sender, recipient, subject, htmlBody, textBody⟩ with
      | error f => simp
      | ok v =>
        simp only [lift_ok]
        rw [seen_attempt]
        · simp [seen, Call.isMail]
        · intro e b hb
          split at hb
          · obtain rfl := Option.some.inj hb
            exact Silent.raise _
          · obtain rfl := Option.some.inj hb
            exact Silent.raise _
          · cases hb

theorem heartbeatEmail_due (recovered : Bool) (server : Server) (user : User) (w : World Body) :
    seen Call.isMail (heartbeatEmail pk recovered server user) w ≠ [] ↔
      EmailDue pk recovered server user w := by
  unfold heartbeatEmail EmailDue
  cases user.emailAlertsEnabled with
  | false => simp [Silent.pure _ w]
  | true =>
    simp only [Bool.true_eq_false, if_false, true_and]
    rw [isChannelMuted, seen_after_silent (Silent.ask _), run_ask]
    cases w.redis (.mute server.id "email") with
    | error f => simp [Except.map]
    | ok n =>
      by_cases hn : n = 1
      · simp [Except.map, hn, Silent.pure _ w]
      · simp only [Except.map, lift_ok, beq_eq_false_iff_ne.mpr hn, Bool.false_eq_true, if_false]
        rw [seen_attempt, sendEmail_mails]
        · simp [hn]
        · intro e b hb
          split at hb
          · obtain rfl := Option.some.inj hb
            exact Silent.pure _
          · obtain rfl := Option.some.inj hb
            exact Silent.pure _
          · cases hb

/-! ### The two channels of a job -/

/-- The mails of a job, and its Telegram messages. -/
def Job.mails (job : Job) (ws : ℕ → World Body) : List Call :=
  (job.perform pk ws).filter Call.isMail

def Job.telegrams (job : Job) (ws : ℕ → World Body) : List Call :=
  (job.perform pk ws).filter Call.isTelegram

theorem SameBesideTelegram.serverRow {w w' : World Body} (h : SameBesideTelegram w w')
    {serverId : ℕ} {server : Server} {user : User}
    (hrow : w.db.serverRow serverId = some (server, user)) :
    ∃ user', w'.db.serverRow serverId = some (server, user') ∧ user'.email = user.email ∧
      user'.emailAlertsEnabled = user.emailAlertsEnabled := by
  have hstrip := serverRow_strip (fun u => (rfl : (forgetChat u).id = u.id)) h.servers h.users
    serverId
  rw [hrow] at hstrip
  obtain ⟨⟨server', user'⟩, hrow', he⟩ := Option.map_eq_some_iff.mp hstrip.symm
  obtain ⟨rfl, hu⟩ : server' = server ∧ forgetChat user' = forgetChat user := by
    simpa only [Prod.map_apply, id_eq, Prod.mk.injEq] using he
  obtain ⟨hemail, hon⟩ := forgetChat_keeps hu
  exact ⟨user', hrow', hemail, hon⟩

theorem SameBesideEmail.serverRow {w w' : World Body} (h : SameBesideEmail w w')
    {serverId : ℕ} {server : Server} {user : User}
    (hrow : w.db.serverRow serverId = some (server, user)) :
    ∃ user', w'.db.serverRow serverId = some (server, user') ∧
      user'.telegramChatId = user.telegramChatId := by
  have hstrip := serverRow_strip (fun u => (rfl : (forgetEmail u).id = u.id)) h.servers h.users
    serverId
  rw [hrow] at hstrip
  obtain ⟨⟨server', user'⟩, hrow', he⟩ := Option.map_eq_some_iff.mp hstrip.symm
  obtain ⟨rfl, hu⟩ : server' = server ∧ forgetEmail user' = forgetEmail user := by
    simpa only [Prod.map_apply, id_eq, Prod.mk.injEq] using he
  exact ⟨user', hrow', forgetEmail_keeps hu⟩

theorem heartbeat_lost {serverId : ℕ} {recovered : Bool} {w : World Body} {server : Server}
    {user : User} (hrow : w.db.serverRow serverId = some (server, user))
    (hesc : TelegramUncaught pk recovered server user w) :
    seen Call.isMail (sendHeartbeat pk serverId recovered) w = [] := by
  obtain ⟨e, he⟩ := (heartbeatTelegram_escapes pk recovered server user w).mpr hesc
  rw [heartbeat_mails hrow, he]

theorem heartbeat_kept {serverId : ℕ} {recovered : Bool} {w : World Body} {server : Server}
    {user : User} (hrow : w.db.serverRow serverId = some (server, user))
    (hesc : ¬ TelegramUncaught pk recovered server user w) :
    seen Call.isMail (sendHeartbeat pk serverId recovered) w =
      seen Call.isMail (heartbeatEmail pk recovered server user) w := by
  rw [heartbeat_mails hrow]
  split
  · rfl
  · next e he =>
    exact absurd ((heartbeatTelegram_escapes pk recovered server user w).mp ⟨e, he⟩) hesc

/- Two heartbeats with different Telegram sides send the same mails, unless one of the
Telegram parts alone takes a due email with it. -/
theorem heartbeat_mails_same {w w' : World Body} (h : SameBesideTelegram w w') {serverId : ℕ}
    {recovered : Bool} {server : Server} {user user' : User}
    (hrow : w.db.serverRow serverId = some (server, user))
    (hrow' : w'.db.serverRow serverId = some (server, user')) (hemail : user'.email = user.email)
    (hon : user'.emailAlertsEnabled = user.emailAlertsEnabled) :
    seen Call.isMail (sendHeartbeat pk serverId recovered) w =
        seen Call.isMail (sendHeartbeat pk serverId recovered) w' ↔
      (EmailDue pk recovered server user w → (TelegramUncaught pk recovered server user w ↔
        TelegramUncaught pk recovered server user' w')) := by
  have hsame : seen Call.isMail (heartbeatEmail pk recovered server user') w' =
      seen Call.isMail (heartbeatEmail pk recovered server user) w := by
    have hprogram : heartbeatEmail pk recovered server user' =
        heartbeatEmail pk recovered server user := by
      unfold heartbeatEmail
      rw [hemail, hon]
    rw [hprogram]
    exact (heartbeatEmail_alike recovered server user w w' h).2.symm
  have hnone : seen Call.isMail (heartbeatEmail pk recovered server user) w = [] ↔
      ¬ EmailDue pk recovered server user w := by
    rw [← heartbeatEmail_due, not_not]
  by_cases hesc : TelegramUncaught pk recovered server user w
  · rw [heartbeat_lost pk hrow hesc]
    by_cases hesc' : TelegramUncaught pk recovered server user' w'
    · rw [heartbeat_lost pk hrow' hesc']
      exact iff_of_true rfl fun _ => iff_of_true hesc hesc'
    · rw [heartbeat_kept pk hrow' hesc', hsame, eq_comm, hnone]
      exact ⟨fun hdue h => absurd h hdue, fun himp hdue => hesc' ((himp hdue).mp hesc)⟩
  · rw [heartbeat_kept pk hrow hesc]
    by_cases hesc' : TelegramUncaught pk recovered server user' w'
    · rw [heartbeat_lost pk hrow' hesc', hnone]
      exact ⟨fun hdue h => absurd h hdue, fun himp hdue => hesc ((himp hdue).mpr hesc')⟩
    · rw [heartbeat_kept pk hrow' hesc', hsame]
      exact iff_of_true rfl fun _ => iff_of_false hesc hesc'

theorem heartbeat_telegrams_same {w w' : World Body} (h : SameBesideEmail w w') {serverId : ℕ}
    {recovered : Bool} : seen Call.isTelegram (sendHeartbeat pk serverId recovered) w =
      seen Call.isTelegram (sendHeartbeat pk serverId recovered) w' := by
  have hstrip := serverRow_strip (fun u => (rfl : (forgetEmail u).id = u.id)) h.servers h.users
    serverId
  cases hrow : w.db.serverRow serverId with
  | none =>
    rw [hrow] at hstrip
    rw [heartbeat_silent hrow, heartbeat_silent (Option.map_eq_none_iff.mp hstrip.symm)]
  | some row =>
    obtain ⟨server, user⟩ := row
    obtain ⟨user', hrow', hchat⟩ := h.serverRow hrow
    have hprogram : heartbeatTelegram pk recovered server user' =
        heartbeatTelegram pk recovered server user := by
      unfold heartbeatTelegram
      rw [hchat]
    rw [heartbeat_telegrams hrow, heartbeat_telegrams hrow', hprogram]
    exact (heartbeatTelegram_alike recovered server user w w' h).2

theorem heartbeat_job {job : Job} {serverId : ℕ} {recovered : Bool}
    (hjob : job.heartbeat = some (serverId, recovered)) (p : Call → Bool) (ws : ℕ → World Body) :
    (job.perform pk ws).filter p = seen p (sendHeartbeat pk serverId recovered) (ws 0) := by
  cases job with
  | sendTelegramAlert eventId => cases hjob
  | sendEmailAlert eventId => cases hjob
  | sendHeartbeatDown id =>
    obtain ⟨rfl, rfl⟩ := Prod.mk.inj (Option.some.inj hjob)
    rfl
  | sendHeartbeatRecovery id =>
    obtain ⟨rfl, rfl⟩ := Prod.mk.inj (Option.some.inj hjob)
    rfl

theorem heartbeat_job_mails {job : Job} {serverId : ℕ} {recovered : Bool}
    (hjob : job.heartbeat = some (serverId, recovered)) {ws ws' : ℕ → World Body}
    (h : SameBesideTelegram (ws 0) (ws' 0)) :
    job.mails pk ws = job.mails pk ws' ↔ (job.EmailWaits pk (ws 0) →
      (job.TelegramEscapes pk (ws 0) ↔ job.TelegramEscapes pk (ws' 0))) := by
  unfold Job.mails
  rw [heartbeat_job pk hjob, heartbeat_job pk hjob]
  cases hrow : (ws 0).db.serverRow serverId with
  | none =>
    have hstrip := serverRow_strip (fun u => (rfl : (forgetChat u).id = u.id)) h.servers h.users
      serverId
    rw [hrow] at hstrip
    rw [heartbeat_silent hrow, heartbeat_silent (Option.map_eq_none_iff.mp hstrip.symm)]
    refine iff_of_true rfl ?_
    rintro ⟨id, rec', server, user, hjob', hrow', -⟩
    obtain ⟨rfl, -⟩ := Prod.mk.inj (Option.some.inj (hjob.symm.trans hjob'))
    cases hrow.symm.trans hrow'
  | some row =>
    obtain ⟨server, user⟩ := row
    obtain ⟨user', hrow', hemail, hon⟩ := h.serverRow hrow
    rw [heartbeat_mails_same pk h hrow hrow' hemail hon]
    simp [Job.EmailWaits, Job.TelegramEscapes, hjob, hrow, hrow', and_assoc]

/- Whether and which emails a job sends does not depend on the Telegram side, exactly
unless a due email waits for a Telegram part that raises in one of the runs alone. Its
Telegram messages never depend on the email side. -/
theorem channels_independent_iff (pk : Packages Body) (job : Job) (ws ws' : ℕ → World Body) :
    ((∀ i, SameBesideTelegram (ws i) (ws' i)) →
      (job.mails pk ws = job.mails pk ws' ↔ (job.EmailWaits pk (ws 0) →
        (job.TelegramEscapes pk (ws 0) ↔ job.TelegramEscapes pk (ws' 0))))) ∧
    ((∀ i, SameBesideEmail (ws i) (ws' i)) → job.telegrams pk ws = job.telegrams pk ws') := by
  constructor
  · intro h
    cases hjob : job.heartbeat with
    | some b => exact heartbeat_job_mails pk hjob (h 0)
    | none =>
      refine iff_of_true ?_ ?_
      · cases job with
        | sendTelegramAlert eventId =>
          exact ((send_silent eventId).retried _ _ ws).trans
            ((send_silent eventId).retried _ _ ws').symm
        | sendEmailAlert eventId => exact (sendEmailAlert_alike eventId).retried _ _ h
        | sendHeartbeatDown id => cases hjob
        | sendHeartbeatRecovery id => cases hjob
      · rintro ⟨id, recovered, server, user, hjob', -⟩
        cases hjob.symm.trans hjob'
  · intro h
    cases job with
    | sendTelegramAlert eventId => exact (send_alike eventId).retried _ _ h
    | sendEmailAlert eventId =>
      exact ((sendEmailAlert_silent eventId).retried _ _ ws).trans
        ((sendEmailAlert_silent eventId).retried _ _ ws').symm
    | sendHeartbeatDown id => exact heartbeat_telegrams_same pk (h 0)
    | sendHeartbeatRecovery id => exact heartbeat_telegrams_same pk (h 0)

/- An empty text is no JSON. -/
def plainPackages : Packages String where
  json body := if body = "" then .error .valueError else .ok .null
  text body := body
  emailMessage _ := .ok ()
  str _ := "null"
  floatStr _ := "0.0"
  isoformat _ := "1970-01-01T00:00:00+00:00"

def linkedUser (chatId : Option String) : User :=
  { id := 1, email := "owner@example.com", passwordHash := "", telegramChatId := chatId }

/- The Telegram API answers 200 with an empty body. -/
def emptyAnswer (chatId : Option String) : World String where
  settings :=
    { telegramBotToken := some "1:token", smtp := { host := some "mail", user := some "pw" } }
  db :=
    { events := [], rules := [], users := [linkedUser chatId]
      servers := [{ id := 1, name := "web", apiKeyHash := "", ownerId := 1 }] }
  redis _ := .ok 0
  telegram _ := .ok ⟨200, ""⟩
  smtp _ _ := .ok ()

/- With a linked chat the owner gets no email, without one he gets it. -/
theorem heartbeat_email_lost :
    SameBesideTelegram (emptyAnswer (some "7")) (emptyAnswer none) ∧
    (Job.sendHeartbeatDown 1).mails plainPackages (fun _ => emptyAnswer (some "7")) = [] ∧
    ((Job.sendHeartbeatDown 1).mails plainPackages (fun _ => emptyAnswer none)).length = 1 ∧
    ((Job.sendHeartbeatDown 1).telegrams plainPackages
      (fun _ => emptyAnswer (some "7"))).length = 1 := by
  refine ⟨⟨rfl, rfl, rfl, rfl, rfl, fun _ _ => rfl, rfl⟩, by decide, by decide, by decide⟩

end PulseWatch.NotificationTasks
