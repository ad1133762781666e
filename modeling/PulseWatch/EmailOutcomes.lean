import PulseWatch.AlertRules
import PulseWatch.NotificationTasks

/-!
# How an attempt of the email task ends (`_send_email`)

Here with the counter `notifications_sent_total` that `NotificationTasks` leaves out: an
increment is a call beside those that leave the worker. An `EmailMessage` refuses a
header value that `str.splitlines` cuts into several lines; a line break at its very end
is none.
-/

namespace PulseWatch.NotificationTasks
open Effects PyText RedisClient

/-- `labels(channel="email", status=...)`. -/
inductive Status where
  | success
  | skipped
  | failed
  deriving DecidableEq, Repr

section
variable {Body : Type}

abbrev Counting (Body A : Type) := Act (World Body) (Call ⊕ Status) Exc A

def inc (status : Status) : Counting Body Unit := call (.inr status) fun _ => .ok ()

/- The `try` around `send_email`. -/
def countMail (sending : Program Body Unit) : Counting Body Unit :=
  attempt
    (do
      sending.mapCalls .inl
      inc .success)
    fun
    | .emailNotConfigured _ => some (inc .skipped)
    | .emailSend text => some (do
        inc .failed
        raise (.emailSend text))
    | _ => none

variable (pk : Packages Body)

/- `_send_email`. -/
def sendEmailCounted (eventId : ℕ) : Counting Body Unit := do
  let row ← ask fun w => .ok (w.db.alertRow eventId)
  match row with
  | none => pure ()
  | some (event, rule, server, user) =>
    if user.emailAlertsEnabled = false then inc .skipped
    else do
      let muted ← (isChannelMuted server.id "email").mapCalls .inl
      if muted then inc .skipped
      else
        countMail (sendEmail pk user.email ("[PulseWatch] " ++ rule.name ++ " — " ++ server.name)
          (replace '\n' "<br>" (formatMessage pk event rule server))
          (formatText pk event rule server))

end

/- `msg[name] = value`: the lines are counted, then the field parses the value. -/
def setHeader (parse : String → Except Fault Unit) (value : String) : Except Fault Unit :=
  if 1 < (splitlines value).length then .error .valueError else parse value

/- `msg["From"] = ...` and the two others. What `email` makes of an address header is
`address`; a subject is any text. -/
def emailMessage (address : String → Except Fault Unit) (mail : Mail) : Except Fault Unit := do
  setHeader address mail.sender
  setHeader address mail.recipient
  setHeader (fun _ => .ok ()) mail.subject

/-- Caught around `aiosmtplib.send`. -/
def Fault.isRefusal : Fault → Bool
  | .smtpException _ => true
  | .osError _ => true
  | _ => false

/- The three ways to end, each with its one status. -/
inductive Settled : Except Exc Unit × List (Call ⊕ Status) → Prop where
  | success (settings : SmtpSettings) (mail : Mail) :
      Settled (.ok (), [.inl (.smtp settings mail), .inr .success])
  | skipped : Settled (.ok (), [.inr .skipped])
  | failed (settings : SmtpSettings) (mail : Mail) (text : String) :
      Settled (.error (.emailSend text), [.inl (.smtp settings mail), .inr .failed])

section
variable {Body : Type} (pk : Packages Body) (address : String → Except Fault Unit)

def alertMail (event : AlertEvent) (rule : AlertRule) (server : Server) (user : User)
    (sender : String) : Mail :=
  ⟨sender, user.email, "[PulseWatch] " ++ rule.name ++ " — " ++ server.name,
    replace '\n' "<br>" (formatMessage pk event rule server), formatText pk event rule server⟩

/- The subject of an alert is of one line: its rule's name has no line break, its
server's name at most one, at the end. -/
def OneLineSubject (rule : AlertRule) (server : Server) : Prop :=
  rule.name.toList.any isLineBreak = false ∧ (splitlines server.name).length ≤ 1

instance (rule : AlertRule) (server : Server) : Decidable (OneLineSubject rule server) :=
  inferInstanceAs (Decidable (_ ∧ _))

/- The user has opted out; or Redis answers, and the server is muted, or no mail can be
sent, or the addresses and the names make a mail and SMTP fails by refusal only. -/
def Concludes (w : World Body) (event : AlertEvent) (rule : AlertRule) (server : Server)
    (user : User) : Prop :=
  user.emailAlertsEnabled = false ∨ ∃ n, w.redis (.mute server.id "email") = .ok n ∧
    (n = 1 ∨ ∀ sender, (present w.settings.smtp.host).isSome = true →
      w.settings.smtp.sender = some sender →
        (∀ s ∈ [sender, user.email], (splitlines s).length ≤ 1 ∧ address s = .ok ()) ∧
        OneLineSubject rule server ∧
        ∀ f, w.smtp w.settings.smtp (alertMail pk event rule server user sender) = .error f →
          f.isRefusal = true)

/-! ### The counter beside the calls -/

/- Without the increments it is the task of `NotificationTasks`. -/
theorem counted_adds (eventId : ℕ) :
    Adds Sum.getLeft? (sendEmailCounted pk eventId) (sendEmailAlert pk eventId) := by
  have hinc : ∀ status, Adds (W := World Body) (E := Exc) Sum.getLeft? (inc status) (pure ()) :=
    fun status => Adds.call rfl
  have hcalls : ∀ {A : Type} (a : Program Body A),
      Adds (D := Call ⊕ Status) Sum.getLeft? (a.mapCalls Sum.inl) a :=
    fun a => Adds.mapCalls (g := Sum.getLeft?) (f := Sum.inl) (fun _ => rfl) a
  refine Adds.bind (Adds.ask _) fun row => ?_
  rcases row with _ | ⟨event, rule, server, user⟩
  · exact Adds.pure ()
  · refine Adds.ite (hinc .skipped) (Adds.bind (hcalls _) fun muted => ?_)
    refine Adds.ite (hinc .skipped) ?_
    refine Adds.attempt (Adds.last (hcalls _) rfl) fun e => ?_
    cases e with
    | emailNotConfigured text => exact hinc .skipped
    | emailSend text => exact Adds.bind (hinc .failed) fun _ => Adds.raise _
    | _ => exact Adds.raise _

/-! ### How `send_email` ends -/

section
variable {recipient subject htmlBody textBody : String} {w : World Body}

def handedOver : Except Fault Unit → Except Exc Unit
  | .ok () => .ok ()
  | .error (.smtpException e) => .error (.emailSend ("SMTP error: " ++ e))
  | .error (.osError e) => .error (.emailSend ("Сетевая ошибка SMTP: " ++ e))
  | .error f => .error (.outside f)

theorem sendEmail_unconfigured (h : (present w.settings.smtp.host).isSome = true →
    w.settings.smtp.sender = none) :
    ∃ text, (sendEmail pk recipient subject htmlBody textBody).run w =
      (.error (.emailNotConfigured text), []) := by
  unfold sendEmail
  rw [run_bind_ask w (v := w.settings.smtp) rfl]
  cases hhost : present w.settings.smtp.host with
  | none => exact ⟨_, rfl⟩
  | some host =>
    rw [h (by rw [hhost]; rfl)]
    exact ⟨_, rfl⟩

section
variable {sender : String} (hhost : (present w.settings.smtp.host).isSome = true)
  (hsender : w.settings.smtp.sender = some sender)
include hhost hsender

theorem sendEmail_refused {f : Fault}
    (h : pk.emailMessage ⟨sender, recipient, subject, htmlBody, textBody⟩ = .error f) :
    (sendEmail pk recipient subject htmlBody textBody).run w = (.error (.outside f), []) := by
  unfold sendEmail
  rw [run_bind_ask w (v := w.settings.smtp) rfl, hsender,
    if_neg (by simp [Option.isSome_iff_ne_none.mp hhost])]
  exact run_bind_error w (by rw [run_ask, h]; rfl)

theorem sendEmail_handed
    (h : pk.emailMessage ⟨sender, recipient, subject, htmlBody, textBody⟩ = .ok ()) :
    (sendEmail pk recipient subject htmlBody textBody).run w =
      (handedOver (w.smtp w.settings.smtp ⟨sender, recipient, subject, htmlBody, textBody⟩),
        [.smtp w.settings.smtp ⟨sender, recipient, subject, htmlBody, textBody⟩]) := by
  unfold sendEmail
  rw [run_bind_ask w (v := w.settings.smtp) rfl, hsender,
    if_neg (by simp [Option.isSome_iff_ne_none.mp hhost])]
  show (ask _ >>= _).run w = _
  rw [run_bind_ask w (v := ()) (by rw [h]; rfl)]
  cases hsmtp : w.smtp w.settings.smtp ⟨sender, recipient, subject, htmlBody, textBody⟩ with
  | ok v => exact run_attempt_ok w (v := ()) (by rw [run_call, hsmtp]; rfl)
  | error f =>
    rw [run_attempt_error w (e := .outside f) (by rw [run_call, hsmtp]; rfl)]
    cases f with
    | _ => rfl

end

/- Not configured, a message that is not built, or one handed to SMTP. -/
theorem sendEmail_cases (recipient subject htmlBody textBody : String) (w : World Body) :
    (((present w.settings.smtp.host).isSome = true → w.settings.smtp.sender = none) ∧
      ∃ text, (sendEmail pk recipient subject htmlBody textBody).run w =
        (.error (.emailNotConfigured text), [])) ∨
    ∃ sender, (present w.settings.smtp.host).isSome = true ∧
      w.settings.smtp.sender = some sender ∧
      let mail : Mail := ⟨sender, recipient, subject, htmlBody, textBody⟩
      ((∃ f, pk.emailMessage mail = .error f ∧
          (sendEmail pk recipient subject htmlBody textBody).run w = (.error (.outside f), [])) ∨
        (pk.emailMessage mail = .ok () ∧
          (sendEmail pk recipient subject htmlBody textBody).run w =
            (handedOver (w.smtp w.settings.smtp mail), [.smtp w.settings.smtp mail]))) := by
  by_cases hhost : (present w.settings.smtp.host).isSome = true
  · cases hsender : w.settings.smtp.sender with
    | none => exact .inl ⟨fun _ => rfl, sendEmail_unconfigured pk fun _ => hsender⟩
    | some sender =>
      refine .inr ⟨sender, hhost, rfl, ?_⟩
      cases hmsg : pk.emailMessage ⟨sender, recipient, subject, htmlBody, textBody⟩ with
      | error f => exact .inl ⟨f, hmsg, sendEmail_refused pk hhost hsender hmsg⟩
      | ok v => exact .inr ⟨hmsg, sendEmail_handed pk hhost hsender hmsg⟩
  · have hnone : (present w.settings.smtp.host).isSome = true → w.settings.smtp.sender = none :=
      fun h => absurd h hhost
    exact .inl ⟨hnone, sendEmail_unconfigured pk hnone⟩

end

/-! ### The one status of an attempt -/

section
variable {sending : Program Body Unit} {calls : List Call} {w : World Body}

theorem countMail_ok (h : sending.run w = (.ok (), calls)) :
    (countMail sending).run w = (.ok (), calls.map .inl ++ [.inr .success]) := by
  have hsent : (sending.mapCalls Sum.inl >>= fun _ => inc .success).run w =
      (.ok (), calls.map .inl ++ [.inr .success]) := by
    rw [run_bind_ok w (v := ()) (by rw [run_mapCalls, h]), run_mapCalls, h]
    rfl
  rw [countMail, run_attempt_ok w (v := ()) (by rw [hsent]), hsent]

theorem countMail_error {e : Exc} (h : sending.run w = (.error e, calls)) :
    (countMail sending).run w = match e with
      | .emailNotConfigured _ => (.ok (), calls.map .inl ++ [.inr .skipped])
      | .emailSend text => (.error (.emailSend text), calls.map .inl ++ [.inr .failed])
      | e => (.error e, calls.map .inl) := by
  have hsent : (sending.mapCalls Sum.inl >>= fun _ => inc .success).run w =
      (.error e, calls.map .inl) := by
    rw [run_bind_error w (e := e) (by rw [run_mapCalls, h]), run_mapCalls, h]
  rw [countMail, run_attempt_error w (e := e) (by rw [hsent]), hsent]
  cases e with
  | _ => rfl

end

/- No status is counted when the exception is none of the expected ones. -/
theorem not_settled {f : Fault} {calls : List (Call ⊕ Status)} :
    ¬ Settled (.error (.outside f), calls) := by
  intro h
  cases h

theorem settled_handed (settings : SmtpSettings) (mail : Mail) (answer : Except Fault Unit)
    {sending : Program Body Unit} {w : World Body}
    (h : sending.run w = (handedOver answer, [.smtp settings mail])) :
    Settled ((countMail sending).run w) ↔ ∀ f, answer = .error f → f.isRefusal = true := by
  cases answer with
  | ok v =>
    rw [countMail_ok h]
    exact iff_of_true (.success settings mail) (fun f hf => by cases hf)
  | error f =>
    cases f with
    | smtpException e =>
      rw [countMail_error h]
      exact iff_of_true (.failed settings mail _) (fun f hf => by cases hf; rfl)
    | osError e =>
      rw [countMail_error h]
      exact iff_of_true (.failed settings mail _) (fun f hf => by cases hf; rfl)
    | _ =>
      rw [countMail_error h]
      exact iff_of_false not_settled (fun hf => by cases hf _ rfl)

theorem setHeader_ok_iff (parse : String → Except Fault Unit) (value : String) :
    setHeader parse value = .ok () ↔ (splitlines value).length ≤ 1 ∧ parse value = .ok () := by
  unfold setHeader
  by_cases h : 1 < (splitlines value).length
  · rw [if_pos h]
    exact iff_of_false (fun hok => by cases hok) (fun hok => absurd hok.1 (by omega))
  · rw [if_neg h]
    exact (and_iff_right (by omega)).symm

theorem emailMessage_ok_iff (mail : Mail) : emailMessage address mail = .ok () ↔
    (∀ s ∈ [mail.sender, mail.recipient], (splitlines s).length ≤ 1 ∧ address s = .ok ()) ∧
      (splitlines mail.subject).length ≤ 1 := by
  have hsubject := setHeader_ok_iff (fun _ => .ok ()) mail.subject
  rw [and_iff_left rfl] at hsubject
  simp only [List.forall_mem_cons, List.not_mem_nil, false_implies, implies_true, and_true,
    ← setHeader_ok_iff, ← hsubject, emailMessage]
  cases hsender : setHeader address mail.sender with
  | error f => exact iff_of_false (fun h => by cases h) (fun h => by cases h.1.1)
  | ok u =>
    cases hto : setHeader address mail.recipient with
    | error f => exact iff_of_false (fun h => by cases h) (fun h => by cases h.1.2)
    | ok v => exact (and_iff_right ⟨rfl, rfl⟩).symm

theorem subject_lines (rule : AlertRule) (server : Server) :
    (splitlines ("[PulseWatch] " ++ rule.name ++ " — " ++ server.name)).length ≤ 1 ↔
      OneLineSubject rule server := by
  have hopen : "[PulseWatch] ".toList.any isLineBreak = false := by decide
  have hdash : " — ".toList.any isLineBreak = false := by decide
  simp only [splitlines, String.toList_append, List.append_assoc, OneLineSubject]
  rw [linesFrom_append hopen]
  cases h : rule.name.toList.any isLineBreak with
  | true =>
    refine iff_of_false ?_ fun hone => by cases hone.1
    have htwo := two_lines h (d := ' ') rfl ("[PulseWatch] ".toList.reverse ++ [])
      ("— ".toList ++ server.name.toList)
    exact Nat.not_le.mpr htwo
  | false =>
    rw [linesFrom_append h, linesFrom_append hdash, one_line_congr _ []]
    exact (and_iff_right rfl).symm

theorem alertMail_settled (hm : ∀ mail, pk.emailMessage mail = emailMessage address mail)
    (w : World Body) (event : AlertEvent) (rule : AlertRule) (server : Server) (user : User) :
    Settled ((countMail (sendEmail pk user.email
      ("[PulseWatch] " ++ rule.name ++ " — " ++ server.name)
      (replace '\n' "<br>" (formatMessage pk event rule server))
      (formatText pk event rule server))).run w) ↔
    ∀ sender, (present w.settings.smtp.host).isSome = true →
      w.settings.smtp.sender = some sender →
        (∀ s ∈ [sender, user.email], (splitlines s).length ≤ 1 ∧ address s = .ok ()) ∧
        OneLineSubject rule server ∧
        ∀ f, w.smtp w.settings.smtp (alertMail pk event rule server user sender) = .error f →
          f.isRefusal = true := by
  rcases sendEmail_cases pk user.email ("[PulseWatch] " ++ rule.name ++ " — " ++ server.name)
    (replace '\n' "<br>" (formatMessage pk event rule server)) (formatText pk event rule server) w
    with ⟨hnone, text, hrun⟩ | ⟨sender, hhost, hsender, hsent⟩
  · rw [countMail_error hrun]
    refine iff_of_true .skipped fun sender hhost hsender => ?_
    rw [hnone hhost] at hsender
    cases hsender
  · have hplain : ((∀ s ∈ [sender, user.email], (splitlines s).length ≤ 1 ∧ address s = .ok ()) ∧
        OneLineSubject rule server) ↔
        emailMessage address (alertMail pk event rule server user sender) = .ok () := by
      rw [emailMessage_ok_iff, ← subject_lines]
      rfl
    rcases hsent with ⟨f, hmsg, hrun⟩ | ⟨hmsg, hrun⟩
    · rw [hm] at hmsg
      rw [countMail_error hrun]
      refine iff_of_false not_settled fun h => ?_
      obtain ⟨haddresses, hsubject, -⟩ := h sender hhost hsender
      have hok := hmsg.symm.trans (hplain.mp ⟨haddresses, hsubject⟩)
      cases hok
    · rw [hm] at hmsg
      rw [settled_handed _ _ _ hrun]
      constructor
      · intro hf sender' _ hsender'
        obtain rfl := Option.some.inj (hsender.symm.trans hsender')
        exact ⟨(hplain.mpr hmsg).1, (hplain.mpr hmsg).2, hf⟩
      · exact fun hf => (hf sender hhost hsender).2.2

end

/- A rule on the CPU load, and its alert at a server whose owner can be mailed. -/
def cpuRule (name : String) : Alerts.AlertRuleCreate :=
  { serverId := 1, name, metricType := .system, metricField := "cpu_percent", operator := .gt
    thresholdValue := .fin 90 }

def cpuAlert (name : String) : World String where
  settings :=
    { telegramBotToken := none, smtp := { host := some "mail", user := some "pw@example.com" } }
  db :=
    { events :=
        [{ id := 1, ruleId := 1, serverId := 1, metricValue := .fin 95, thresholdValue := .fin 90
           message := "", containerName := none, createdAt := 0 }]
      rules := [Alerts.newRule 1 1 (cpuRule name)]
      servers := [{ id := 1, name := "web", apiKeyHash := "", ownerId := 1 }]
      users := [{ id := 1, email := "owner@example.com", passwordHash := "" }] }
  redis _ := .ok 0
  telegram _ := .ok ⟨200, ""⟩
  smtp _ _ := .ok ()

def checkedPackages : Packages String :=
  { plainPackages with emailMessage := emailMessage fun _ => .ok () }

end PulseWatch.NotificationTasks
