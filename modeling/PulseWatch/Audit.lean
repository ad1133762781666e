import PulseWatch.Lib.OrmSession
import PulseWatch.RuleLedger
import PulseWatch.Sessions

/-!
# Audited requests (`app/services/audit.py` and the handlers that call it)

`record_audit` swallows the failure of its own write and rolls back the session of
the request. The handlers of `/auth/register`, of creating and updating a rule and
of rotating a key read the row they have just committed after that; with it
expired they raise. An operation is one commit, on the data its handler has
read; `auditFails` says whether the write of the audit row raises. Rate limits, and the
`is_active` and `created_at` columns, are left out.
-/

namespace PulseWatch.Audit

open OrmSession RedisClient

/- The `meta` dictionaries of the audited actions. -/
inductive Meta where
  | email (value : String)
  | reason (value : String)
  | fields (names : List String)
  deriving DecidableEq, Repr

/- app/models/audit_log.py -/
structure AuditLog where
  userId : Option ℕ
  action : String
  resourceType : Option String := none
  resourceId : Option ℕ := none
  ipAddress : Option String := none
  info : Option Meta := none
  deriving DecidableEq, Repr

structure Data where
  now : ℕ
  users : List User
  nextUser : ℕ
  redis : Redis
  alerts : Alerts.Db
  auditLog : List AuditLog

inductive HttpError where
  | http (status : ℕ) (detail : String)
  | validation
  | unhandled
  deriving DecidableEq, Repr

structure UserRead where
  id : ℕ
  email : String
  telegramChatId : Option String
  emailAlertsEnabled : Bool
  totpEnabled : Bool
  deriving DecidableEq, Repr

structure ServerWithKey where
  id : ℕ
  name : String
  isActive : Bool
  paused : Bool
  lastSeenAt : Option Instant
  agentVersion : Option String
  apiKey : Fleet.ApiKey
  deriving DecidableEq, Repr

/- A token pair is the subject of both tokens and the jti of the refresh token. -/
inductive Body where
  | detail (text : String)
  | validationErrors
  | user (user : UserRead)
  | token (subject : ℕ) (jti : String)
  | rule (rule : AlertRule)
  | server (server : ServerWithKey)
  | ok
  | empty
  deriving DecidableEq, Repr

structure Response where
  status : ℕ
  body : Body
  deriving DecidableEq, Repr

abbrev Handler (A : Type) := Act Data HttpError A

def recordAudit (auditFails : Bool) (entry : AuditLog) : Handler Unit :=
  bestEffort auditFails fun d => { d with auditLog := entry :: d.auditLog }

/- `scalar_one_or_none()` of a SELECT of one entity. -/
def scalarOneOrNone {R : Type} (query : Data → Option R) : Handler (Option (Ref R)) := do
  match ← select query with
  | none => pure none
  | some row => do
    let instance' ← track row
    pure (some instance')

/- The attributes of an instance that was found. -/
def loadedRow {R : Type} : Option (Ref R) → Handler (Option R)
  | none => pure none
  | some instance' => do
    let row ← get instance' id
    pure (some row)

def findUser (userId : ℕ) (d : Data) : Option User := d.users.find? fun u => u.id = userId

def findUserByEmail (email : String) (d : Data) : Option User :=
  d.users.find? fun u => u.email = email

def findServer (serverId ownerId : ℕ) (d : Data) : Option Server :=
  d.alerts.fleet.servers.find? fun r => r.id = serverId ∧ r.ownerId = ownerId

/- `get_current_user`; `subject` is the user id of a token that decodes. -/
def getCurrentUser (subject : Option ℕ) : Handler (Ref User) := do
  let refused := HttpError.http 401 "Could not validate credentials"
  match subject with
  | none => raise refused
  | some userId => do
    match ← scalarOneOrNone (findUser userId) with
    | none => raise refused
    | some user => pure user

/-! ### Commits -/

def emailTaken : HttpError := .http 409 "Пользователь с таким email уже существует"

/- INSERT INTO users; `meanwhile` are users committed since the check of the
e-mail, and the unique index sees them. -/
def insertUser (email passwordHash : String) (meanwhile : List User) (d : Data) :
    Except HttpError (User × Data) :=
  match PgText.text email with
  | none => .error .unhandled
  | some email =>
    let users := meanwhile ++ d.users
    if users.any fun u => u.email = email then .error emailTaken
    else
      let row : User := { id := d.nextUser, email, passwordHash }
      .ok (row, { d with users := row :: users, nextUser := d.nextUser + 1 })

/- The table and the unique index take the e-mail. -/
def emailFree (email : String) (meanwhile : List User) (d : Data) : Bool :=
  (PgText.text email).isSome && !(meanwhile ++ d.users).any fun u => u.email = email

def insertRule (ownerId : ℕ) (data : Alerts.AlertRuleCreate) (d : Data) :
    Except HttpError (AlertRule × Data) :=
  let rule := Alerts.newRule d.alerts.nextRule ownerId data
  match Alerts.flushRule rule, d.alerts.addRule rule with
  | some row, some alerts => .ok (row, { d with alerts })
  | _, _ => .error .unhandled

def saveRule (data : Alerts.AlertRuleUpdate) (rule : AlertRule) (d : Data) :
    Except HttpError (AlertRule × Data) :=
  match Alerts.updateRule data rule with
  | some row => .ok (row, { d with alerts := d.alerts.putRule row })
  | none => .error .unhandled

def saveKey (secret hash : String) (server : Server) (d : Data) :
    Except HttpError (Server × Data) :=
  let fleet := { d.alerts.fleet with
    servers := Fleet.updateServer server.id (fun r => { r with apiKeyHash := hash })
      d.alerts.fleet.servers
    secrets := Function.update d.alerts.fleet.secrets server.id (some secret) }
  .ok ({ server with apiKeyHash := hash }, { d with alerts := { d.alerts with fleet } })

/- `hash_password`; bcrypt raises on some passwords. -/
def hashPassword (cr : Crypto) (password salt : String) : Handler String :=
  match cr.hashpw password salt with
  | some hash => pure hash
  | none => raise .unhandled

/-! ### Handlers -/

def readUser (u : User) : UserRead :=
  { id := u.id, email := u.email, telegramChatId := u.telegramChatId
    emailAlertsEnabled := u.emailAlertsEnabled, totpEnabled := u.totpEnabled }

def readServer (secret : String) (r : Server) : ServerWithKey :=
  { id := r.id, name := r.name, isActive := r.isActive, paused := r.paused
    lastSeenAt := r.lastSeenAt, agentVersion := r.agentVersion, apiKey := ⟨r.id, secret⟩ }

/- The keys of `model_dump(exclude_unset=True)`. -/
def updateFields (data : Alerts.AlertRuleUpdate) : List String :=
  [("name", data.name.isSome), ("metric_type", data.metricType.isSome),
    ("metric_field", data.metricField.isSome), ("operator", data.operator.isSome),
    ("threshold_value", data.thresholdValue.isSome),
    ("container_name", data.containerName.isSome),
    ("cooldown_seconds", data.cooldownSeconds.isSome), ("is_active", data.isActive.isSome),
    ("notification_channels", data.notificationChannels.isSome)].filterMap
      fun f => if f.2 then some f.1 else none

section
variable (cfg : Settings) (cr : Crypto) (auditFails : Bool)

def registerUser (ip : Option String) (email password salt : String) (meanwhile : List User) :
    Handler Response := do
  match ← scalarOneOrNone (findUserByEmail email) with
  | some _ => raise emailTaken
  | none => do
    let hash ← hashPassword cr password salt
    let row ← change (insertUser email hash meanwhile)
    let newUser ← track row
    let userId ← get newUser User.id
    recordAudit auditFails { userId := some userId, action := "register", ipAddress := ip }
    let user ← get newUser readUser
    pure ⟨201, .user user⟩

def login (ip : Option String) (email password : String) (totpCode : Option String)
    (jti : String) : Handler Response := do
  let user ← scalarOneOrNone (findUserByEmail email)
  let row ← loadedRow user
  let now ← select Data.now
  match Auth.loginCheck cr row password totpCode now with
  | .serverError => raise .unhandled
  | .incorrectCredentials => do
    recordAudit auditFails
      { userId := row.map User.id, action := "login_failed", ipAddress := ip
        info := some (.email email) }
    raise (.http 401 "Incorrect email or password")
  | .totpRequired => raise (.http 401 "TOTP_REQUIRED")
  | .invalidTotp => do
    recordAudit auditFails
      { userId := row.map User.id, action := "login_failed", ipAddress := ip
        info := some (.reason "invalid_totp") }
    raise (.http 401 "Invalid TOTP code")
  | .accepted userId => do
    change fun d => .ok ((), { d with
      redis := storeRefreshJti d.now userId jti cfg.refreshTtl d.redis })
    recordAudit auditFails { userId := some userId, action := "login", ipAddress := ip }
    pure ⟨200, .token userId jti⟩

def resetPassword (ip : Option String) (token newPassword salt : String) : Handler Response := do
  if newPassword.toList.length < 6 then
    raise (.http 422 "Пароль должен быть не короче 6 символов")
  else do
    let userId? ← change fun d =>
      let out := consumePasswordResetToken d.now token d.redis
      .ok (out.1, { d with redis := out.2 })
    match userId? with
    | none => raise (.http 400 "Токен сброса невалиден или истёк")
    | some userId => do
      match ← scalarOneOrNone (findUser userId) with
      | none => raise (.http 400 "Юзер не найден")
      | some _ => do
        let hash ← hashPassword cr newPassword salt
        change fun d => .ok ((), { d with
          users := Sessions.setPasswordHash userId hash d.users })
        change fun d => .ok ((), { d with
          redis := d.redis.filter fun e => !matchesRefresh userId e.key })
        recordAudit auditFails
          { userId := some userId, action := "password_reset", ipAddress := ip }
        pure ⟨200, .ok⟩

def createAlertRule (subject : Option ℕ) (body : Alerts.AlertRuleCreate) : Handler Response := do
  let currentUser ← getCurrentUser subject
  match body.validate with
  | none => raise .validation
  | some data => do
    let ownerId ← get currentUser User.id
    match ← scalarOneOrNone (findServer data.serverId ownerId) with
    | none => raise (.http 404 "Server not found")
    | some _ => do
      let row ← change (insertRule ownerId data)
      let rule ← track row
      let ruleId ← get rule AlertRule.id
      recordAudit auditFails
        { userId := some ownerId, action := "rule_create", resourceType := some "rule"
          resourceId := some ruleId }
      let read ← get rule id
      pure ⟨201, .rule read⟩

def updateAlertRule (subject : Option ℕ) (ruleId : ℕ) (body : Alerts.AlertRuleUpdate) :
    Handler Response := do
  let currentUser ← getCurrentUser subject
  match body.validate with
  | none => raise .validation
  | some data => do
    let ownerId ← get currentUser User.id
    match ← scalarOneOrNone fun d => d.alerts.findRule ownerId ruleId with
    | none => raise (.http 404 "Alert rule not found")
    | some rule => do
      let loaded ← get rule id
      let row ← change (saveRule data loaded)
      let rule := { rule with row }
      let ruleId ← get rule AlertRule.id
      recordAudit auditFails
        { userId := some ownerId, action := "rule_update", resourceType := some "rule"
          resourceId := some ruleId, info := some (.fields (updateFields data)) }
      let read ← get rule id
      pure ⟨200, .rule read⟩

def deleteAlertRule (subject : Option ℕ) (ruleId : ℕ) : Handler Response := do
  let currentUser ← getCurrentUser subject
  let ownerId ← get currentUser User.id
  match ← scalarOneOrNone fun d => d.alerts.findRule ownerId ruleId with
  | none => raise (.http 404 "Alert rule not found")
  | some rule => do
    let ruleIdAudit ← get rule AlertRule.id
    change fun d => .ok ((), { d with
      alerts := d.alerts.removeRules fun r => r.id = ruleIdAudit })
    recordAudit auditFails
      { userId := some ownerId, action := "rule_delete", resourceType := some "rule"
        resourceId := some ruleIdAudit }
    pure ⟨204, .empty⟩

def rotateApiKey (subject : Option ℕ) (serverId : ℕ) (secret salt : String) :
    Handler Response := do
  let currentUser ← getCurrentUser subject
  let ownerId ← get currentUser User.id
  match ← scalarOneOrNone (findServer serverId ownerId) with
  | none => raise (.http 404 "Server not found")
  | some server => do
    let hash ← hashPassword cr secret salt
    let loaded ← get server id
    let row ← change (saveKey secret hash loaded)
    let server := { server with row }
    let id' ← get server Server.id
    recordAudit auditFails
      { userId := some ownerId, action := "server_rotate_key", resourceType := some "server"
        resourceId := some id' }
    let read ← get server (readServer secret)
    pure ⟨200, .server read⟩

end

/-! ### The audited endpoints -/

inductive Request where
  | register (ip : Option String) (email password salt : String) (meanwhile : List User)
  | login (ip : Option String) (email password : String) (totpCode : Option String)
      (jti : String)
  | resetPassword (ip : Option String) (token newPassword salt : String)
  | createRule (subject : Option ℕ) (body : Alerts.AlertRuleCreate)
  | updateRule (subject : Option ℕ) (ruleId : ℕ) (body : Alerts.AlertRuleUpdate)
  | deleteRule (subject : Option ℕ) (ruleId : ℕ)
  | rotateKey (subject : Option ℕ) (serverId : ℕ) (secret salt : String)

section
variable (cfg : Settings) (cr : Crypto) (auditFails : Bool)

def handle : Request → Handler Response
  | .register ip email password salt meanwhile =>
    registerUser cr auditFails ip email password salt meanwhile
  | .login ip email password totpCode jti => login cfg cr auditFails ip email password totpCode jti
  | .resetPassword ip token newPassword salt =>
    resetPassword cr auditFails ip token newPassword salt
  | .createRule subject body => createAlertRule auditFails subject body
  | .updateRule subject ruleId body => updateAlertRule auditFails subject ruleId body
  | .deleteRule subject ruleId => deleteAlertRule auditFails subject ruleId
  | .rotateKey subject serverId secret salt =>
    rotateApiKey cr auditFails subject serverId secret salt

def serverError : Response := ⟨500, .detail "Internal Server Error"⟩

/- What the client receives; the response model is filled outside an await. -/
def toResponse : Except (Raised HttpError) Response → Response
  | .ok response => response
  | .error (.app (.http status detail)) => ⟨status, .detail detail⟩
  | .error (.app .validation) => ⟨422, .validationErrors⟩
  | .error (.app .unhandled) => serverError
  | .error .lazyLoad => serverError

def answer (req : Request) (d : Data) : Response :=
  toResponse ((handle cfg cr auditFails req).run (Session.fresh d)).1

/- The data after the request. -/
def after (req : Request) (d : Data) : Data :=
  ((handle cfg cr auditFails req).run (Session.fresh d)).2.db

/- The user of a token. -/
def currentUser (subject : Option ℕ) (d : Data) : Option User :=
  subject.bind fun userId => findUser userId d

/- The requests that commit a row and answer with it: a registration, a new rule, an
edited rule or a rotated key that no check refuses. -/
def AnswersWithRow : Request → Data → Bool
  | .register _ email password salt meanwhile, d =>
    emailFree email meanwhile d && (cr.hashpw password salt).isSome
  | .createRule subject body, d =>
    (currentUser subject d).any fun user => body.validate.any fun data =>
      let rule := Alerts.newRule d.alerts.nextRule user.id data
      (findServer data.serverId user.id d).isSome && (Alerts.flushRule rule).isSome
  | .updateRule subject ruleId body, d =>
    (currentUser subject d).any fun user => body.validate.any fun data =>
      (d.alerts.findRule user.id ruleId).any fun rule => (Alerts.updateRule data rule).isSome
  | .rotateKey subject serverId secret salt, d =>
    (currentUser subject d).any fun user =>
      (findServer serverId user.id d).isSome && (cr.hashpw secret salt).isSome
  | .login .., _ => false
  | .resetPassword .., _ => false
  | .deleteRule .., _ => false

/-! ### Handlers that end with the audit write -/

theorem login_agree (fails fails' : Bool) (ip : Option String) (email password : String)
    (totpCode : Option String) (jti : String) :
    Agree (login cfg cr fails ip email password totpCode jti)
      (login cfg cr fails' ip email password totpCode jti) := by
  unfold login
  refine Agree.bind _ fun user => Agree.bind _ fun row => Agree.bind _ fun now => ?_
  cases Auth.loginCheck cr row password totpCode now with
  | serverError => exact Agree.refl _
  | incorrectCredentials => exact bestEffort_detached _ _ _ (Detached.raise _)
  | totpRequired => exact Agree.refl _
  | invalidTotp => exact bestEffort_detached _ _ _ (Detached.raise _)
  | accepted userId =>
    exact Agree.bind _ fun _ => bestEffort_detached _ _ _ (Detached.pure _)

theorem resetPassword_agree (fails fails' : Bool) (ip : Option String)
    (token newPassword salt : String) :
    Agree (resetPassword cr fails ip token newPassword salt)
      (resetPassword cr fails' ip token newPassword salt) := by
  unfold resetPassword
  split
  · exact Agree.refl _
  · refine Agree.bind _ fun userId? => ?_
    cases userId? with
    | none => exact Agree.refl _
    | some userId =>
      refine Agree.bind _ fun user? => ?_
      cases user? with
      | none => exact Agree.refl _
      | some user =>
        refine Agree.bind _ fun hash => Agree.bind _ fun _ => Agree.bind _ fun _ => ?_
        exact bestEffort_detached _ _ _ (Detached.pure _)

theorem deleteAlertRule_agree (fails fails' : Bool) (subject : Option ℕ) (ruleId : ℕ) :
    Agree (deleteAlertRule fails subject ruleId) (deleteAlertRule fails' subject ruleId) := by
  unfold deleteAlertRule
  refine Agree.bind _ fun currentUser => Agree.bind _ fun ownerId => Agree.bind _ fun rule? => ?_
  cases rule? with
  | none => exact Agree.refl _
  | some rule =>
    refine Agree.bind _ fun ruleId => Agree.bind _ fun _ => ?_
    exact bestEffort_detached _ _ _ (Detached.pure _)

/-! ### Handlers that answer with a row -/

@[simp] theorem run_scalarOneOrNone {R : Type} (query : Data → Option R) (s : Session Data) :
    (scalarOneOrNone query).run s = match query s.db with
      | none => (.ok none, s)
      | some row => (.ok (some ⟨s.instances, row⟩), { s with instances := s.instances + 1 }) := by
  unfold scalarOneOrNone
  cases h : query s.db <;> simp [h]

@[simp] theorem run_hashPassword (password salt : String) (s : Session Data) :
    (hashPassword cr password salt).run s = match cr.hashpw password salt with
      | some hash => (.ok hash, s)
      | none => (.error (.app .unhandled), s) := by
  unfold hashPassword
  cases cr.hashpw password salt <;> rfl

@[simp] theorem run_recordAudit (entry : AuditLog) (s : Session Data) :
    (recordAudit auditFails entry).run s = (.ok (), if auditFails then
      { s with expired := fun i => s.expired i || decide (i < s.instances) }
      else { s with db := { s.db with auditLog := entry :: s.db.auditLog } }) :=
  run_bestEffort s auditFails _

@[simp] theorem run_getCurrentUser (subject : Option ℕ) (s : Session Data) :
    (getCurrentUser subject).run s = match currentUser subject s.db with
      | none => (.error (.app (.http 401 "Could not validate credentials")), s)
      | some row => (.ok ⟨s.instances, row⟩, { s with instances := s.instances + 1 }) := by
  unfold getCurrentUser currentUser
  cases subject with
  | none => rfl
  | some userId => cases h : findUser userId s.db <;> simp [h]

/- What a failed audit write does to the answer of a handler: it replaces the row by an
error, or it does nothing. -/
def Follows (withRow : Bool) (handler : Bool → Handler Response) (d : Data) : Prop :=
  let outcome fails := ((handler fails).run (Session.fresh d)).1
  if withRow then
    outcome true = .error .lazyLoad ∧ ∃ response, outcome false = .ok response ∧
      (response.status = 200 ∨ response.status = 201)
  else outcome true = outcome false

theorem emailFree_iff (email hash : String) (meanwhile : List User) (d : Data) :
    emailFree email meanwhile d = true ↔ ∃ out, insertUser email hash meanwhile d = .ok out := by
  unfold emailFree insertUser PgText.text
  by_cases hn : '\x00' ∈ email.toList
  · simp [hn]
  · by_cases ht : (meanwhile ++ d.users).any (fun u => u.email = email) = true
    · simp [hn, ht]
    · simp [hn, ht]

theorem registerUser_follows (ip : Option String) (email password salt : String)
    (meanwhile : List User) (d : Data) :
    Follows (AnswersWithRow cr (.register ip email password salt meanwhile) d)
      (fun fails => registerUser cr fails ip email password salt meanwhile) d := by
  unfold registerUser Follows AnswersWithRow
  cases hu : findUserByEmail email d with
  | some user =>
    have htaken : emailFree email meanwhile d = false := by
      have hmem := List.mem_of_find?_eq_some hu
      have heq := List.find?_some hu
      simp only [decide_eq_true_eq] at heq
      simp only [emailFree, List.any_append, Bool.and_eq_false_iff, Bool.not_eq_false',
        Bool.or_eq_true, List.any_eq_true]
      exact Or.inr (Or.inr ⟨user, hmem, by simpa using heq⟩)
    simp [Session.fresh, hu, htaken]
  | none =>
    cases hp : cr.hashpw password salt with
    | none => simp [Session.fresh, hu, hp]
    | some hash =>
      have hfree := emailFree_iff email hash meanwhile d
      cases hr : insertUser email hash meanwhile d with
      | error e =>
        have hf : emailFree email meanwhile d = false := by simpa [hr] using hfree
        simp [Session.fresh, hu, hp, hr, hf]
      | ok out =>
        have hf : emailFree email meanwhile d = true := hfree.mpr ⟨out, hr⟩
        simp [Session.fresh, hu, hp, hr, hf]

theorem insertRule_ok_iff {ownerId : ℕ} {data : Alerts.AlertRuleCreate} {d : Data} {server : Server}
    (hs : findServer data.serverId ownerId d = some server) :
    (∃ out, insertRule ownerId data d = .ok out) ↔
      (Alerts.flushRule (Alerts.newRule d.alerts.nextRule ownerId data)).isSome = true := by
  unfold insertRule Alerts.Db.addRule
  cases hf : Alerts.flushRule (Alerts.newRule d.alerts.nextRule ownerId data) with
  | none => simp [hf]
  | some row =>
    have hid : row.serverId = data.serverId := by
      have hkey := RuleLedger.flushRule_key hf
      exact congrArg RuleLedger.RuleKey.serverId hkey
    have hmem := List.mem_of_find?_eq_some hs
    have heq := List.find?_some hs
    simp only [Bool.decide_and, Bool.and_eq_true, decide_eq_true_eq] at heq
    have hhas : d.alerts.hasServer row.serverId = true := by
      rw [hid, Alerts.Db.hasServer, List.any_eq_true]
      exact ⟨server, hmem, by simpa using heq.1⟩
    simp [hf, hhas]

theorem createAlertRule_follows (subject : Option ℕ) (body : Alerts.AlertRuleCreate) (d : Data) :
    Follows (AnswersWithRow cr (.createRule subject body) d)
      (fun fails => createAlertRule fails subject body) d := by
  unfold createAlertRule Follows AnswersWithRow
  cases hu : currentUser subject d with
  | none => simp [Session.fresh, hu]
  | some user =>
    cases hb : body.validate with
    | none => simp [Session.fresh, hu, hb]
    | some data =>
      cases hs : findServer data.serverId user.id d with
      | none => simp [Session.fresh, hu, hb, hs]
      | some server =>
        have hfree := insertRule_ok_iff hs
        cases hr : insertRule user.id data d with
        | error e =>
          have hf : (Alerts.flushRule
              (Alerts.newRule d.alerts.nextRule user.id data)).isSome = false := by
            simpa [hr] using hfree
          simp [Session.fresh, hu, hb, hs, hr, hf]
        | ok out =>
          have hf := hfree.mp ⟨out, hr⟩
          simp [Session.fresh, hu, hb, hs, hr, hf]

theorem updateAlertRule_follows (subject : Option ℕ) (ruleId : ℕ)
    (body : Alerts.AlertRuleUpdate) (d : Data) :
    Follows (AnswersWithRow cr (.updateRule subject ruleId body) d)
      (fun fails => updateAlertRule fails subject ruleId body) d := by
  unfold updateAlertRule Follows AnswersWithRow
  cases hu : currentUser subject d with
  | none => simp [Session.fresh, hu]
  | some user =>
    cases hb : body.validate with
    | none => simp [Session.fresh, hu, hb]
    | some data =>
      cases hs : d.alerts.findRule user.id ruleId with
      | none => simp [Session.fresh, hu, hb, hs]
      | some rule =>
        cases hr : Alerts.updateRule data rule with
        | none => simp [Session.fresh, hu, hb, hs, hr, saveRule]
        | some row => simp [Session.fresh, hu, hb, hs, hr, saveRule]

theorem rotateApiKey_follows (subject : Option ℕ) (serverId : ℕ) (secret salt : String) (d : Data) :
    Follows (AnswersWithRow cr (.rotateKey subject serverId secret salt) d)
      (fun fails => rotateApiKey cr fails subject serverId secret salt) d := by
  unfold rotateApiKey Follows AnswersWithRow
  cases hu : currentUser subject d with
  | none => simp [Session.fresh, hu]
  | some user =>
    cases hs : findServer serverId user.id d with
    | none => simp [Session.fresh, hu, hs]
    | some server =>
      cases hp : cr.hashpw secret salt with
      | none => simp [Session.fresh, hu, hs, hp]
      | some hash => simp [Session.fresh, hu, hs, hp, saveKey]

theorem handle_follows (req : Request) (d : Data) :
    Follows (AnswersWithRow cr req d) (fun fails => handle cfg cr fails req) d := by
  cases req with
  | register ip email password salt meanwhile =>
    exact registerUser_follows cr ip email password salt meanwhile d
  | login ip email password totpCode jti =>
    exact login_agree cfg cr true false ip email password totpCode jti _
  | resetPassword ip token newPassword salt =>
    exact resetPassword_agree cr true false ip token newPassword salt _
  | createRule subject body => exact createAlertRule_follows cr subject body d
  | updateRule subject ruleId body => exact updateAlertRule_follows cr subject ruleId body d
  | deleteRule subject ruleId => exact deleteAlertRule_agree true false subject ruleId _
  | rotateKey subject serverId secret salt =>
    exact rotateApiKey_follows cr subject serverId secret salt d

/- The answer is the same whether the audit row is written or not, for all requests
but the ones that commit a row and answer with it. -/
theorem same_answer_iff_no_row (req : Request) (d : Data) :
    answer cfg cr true req d = answer cfg cr false req d ↔ AnswersWithRow cr req d = false := by
  have h := handle_follows cfg cr req d
  unfold answer
  cases hrow : AnswersWithRow cr req d with
  | false =>
    rw [hrow] at h
    have h : ((handle cfg cr true req).run (Session.fresh d)).1 =
      ((handle cfg cr false req).run (Session.fresh d)).1 := h
    simp [h]
  | true =>
    rw [hrow] at h
    obtain ⟨hlost, response, hok, hstatus⟩ := h
    have hlost : ((handle cfg cr true req).run (Session.fresh d)).1 = .error .lazyLoad := hlost
    have hok : ((handle cfg cr false req).run (Session.fresh d)).1 = .ok response := hok
    rw [hlost, hok]
    have : serverError ≠ response := by
      rintro rfl
      simp [serverError] at hstatus
    simpa [toResponse] using this

/- Nobody has registered yet. -/
def noUsers : Data := ⟨0, [], 1, [], Alerts.init 0, []⟩

def aliceRegisters : Request :=
  .register none "alice@example.com" "new-secret" "$2b$12$NewNewNewNewNewNewNewu" []

/- The user exists and can log in, the client is told that the server failed. -/
theorem registration_answered_with_error :
    answer {} tabledCrypto false aliceRegisters noUsers =
        ⟨201, .user ⟨1, "alice@example.com", none, true, false⟩⟩ ∧
      answer {} tabledCrypto true aliceRegisters noUsers = serverError ∧
      ((after {} tabledCrypto true aliceRegisters noUsers).users.map fun u => u.id) = [1] := by
  decide

end

end PulseWatch.Audit
