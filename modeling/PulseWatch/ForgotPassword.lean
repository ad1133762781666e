import PulseWatch.Auth
import PulseWatch.EmailOutcomes

/-!
# What `POST /auth/forgot-password` answers (`app/api/auth.py`)

The whole handler, with the SELECT, the SET of the token and the mail; an exception that
leaves it is answered by 500. Requests over the rate limit, which counts by address of
the client, never get here.
-/

namespace PulseWatch.ForgotPassword
open Effects PyText NotificationTasks

structure Response where
  status : ℕ
  body : String
  deriving DecidableEq, Repr

inductive Call where
  | storePasswordResetToken (token : String) (userId ttlSeconds : ℕ)
  | mail (call : NotificationTasks.Call)
  deriving DecidableEq, Repr

/- Redis answers the SET as it likes. -/
structure World (Body : Type) extends NotificationTasks.World Body where
  frontendBaseUrl : String
  tokenTtlSeconds : ℕ
  set : String → ℕ → ℕ → Except Fault Unit

/-- `select(User).where(User.email == email)`; a NUL is refused. -/
def selectByEmail (email : String) (users : List User) : Except Exc (Option User) :=
  if '\x00' ∈ email.toList then .error (.outside .other) else .ok (users.find? (·.email = email))

section
variable {Body : Type} (pk : Packages Body) (token email : String)

def subject : String := "[PulseWatch] Сброс пароля"

def link (frontendBaseUrl : String) : String :=
  frontendBaseUrl ++ "/reset-password?token=" ++ token

def htmlBody (link : String) : String :=
  "<p>Ты запросил сброс пароля для PulseWatch.</p>" ++
  "<p><a href=\"" ++ link ++ "\">Открой эту ссылку</a> чтобы установить новый пароль. " ++
  "Ссылка действительна 1 час.</p>" ++
  "<p>Если ты не запрашивал сброс — просто игнорируй это письмо.</p>"

def textBody (link : String) : String := "Сброс пароля: " ++ link ++ " (1 час)"

/- The `try` around `send_email`. -/
def mailLink (sending : Program Body Unit) : Act (World Body) Call Exc Unit :=
  attempt ((sending.mapCalls Call.mail).within World.toWorld) fun
    | .emailNotConfigured _ => some (pure ())
    | .emailSend _ => some (pure ())
    | _ => none

/- `forgot_password`; `token` is what `secrets.token_urlsafe(32)` returns. -/
def forgotPassword : Act (World Body) Call Exc Unit := do
  let user ← ask fun w => selectByEmail email w.db.users
  match user with
  | none => pure ()
  | some user => do
    let ttl ← ask fun w => .ok w.tokenTtlSeconds
    call (.storePasswordResetToken token user.id ttl) fun w => lift (w.set token user.id ttl)
    let base ← ask fun w => .ok w.frontendBaseUrl
    mailLink (sendEmail pk user.email subject (htmlBody (link token base))
      (textBody (link token base)))

def respond : Except Exc Unit → Response
  | .ok () => ⟨200, "\x7b\"status\":\"ok\"\x7d"⟩
  | .error _ => ⟨500, "Internal Server Error"⟩

def response (w : World Body) : Response := respond ((forgotPassword pk token email).run w).1

def resetMail (w : World Body) (user : User) (sender : String) : Mail :=
  ⟨sender, user.email, subject, htmlBody (link token w.frontendBaseUrl),
    textBody (link token w.frontendBaseUrl)⟩

/- The SELECT is refused; or a user has the address, and Redis does not take the token, or
his mail can be sent but is not built, or SMTP fails other than by refusal. -/
def Fails (w : World Body) : Prop :=
  '\x00' ∈ email.toList ∨ ∃ user, w.db.users.find? (·.email = email) = some user ∧
    ((∃ f, w.set token user.id w.tokenTtlSeconds = .error f) ∨
      ∃ sender, (present w.settings.smtp.host).isSome = true ∧
        w.settings.smtp.sender = some sender ∧
        ((∃ f, pk.emailMessage (resetMail token w user sender) = .error f) ∨
          ∃ f, w.smtp w.settings.smtp (resetMail token w user sender) = .error f ∧
            f.isRefusal = false))

end

/-! ### When the handler raises -/

section
variable {Body : Type} {pk : Packages Body} {w : World Body}

theorem mailLink_ok {sending : Program Body Unit}
    (h : (sending.run w.toWorld).1 = .ok ()) : ((mailLink sending).run w).1 = .ok () := by
  rw [mailLink, run_attempt_ok w (v := ()) h]

theorem mailLink_error {sending : Program Body Unit} {e : Exc}
    (h : (sending.run w.toWorld).1 = .error e) : ((mailLink sending).run w).1 = match e with
      | .emailNotConfigured _ => .ok ()
      | .emailSend _ => .ok ()
      | e => .error e := by
  rw [mailLink, run_attempt_error w (e := e) h]
  cases e with
  | _ => rfl

theorem mailLink_raises (recipient subject htmlBody textBody : String) :
    (∃ e, ((mailLink (sendEmail pk recipient subject htmlBody textBody)).run w).1 = .error e) ↔
    ∃ sender, (present w.settings.smtp.host).isSome = true ∧ w.settings.smtp.sender = some sender ∧
      ((∃ f, pk.emailMessage ⟨sender, recipient, subject, htmlBody, textBody⟩ = .error f) ∨
        ∃ f, w.smtp w.settings.smtp ⟨sender, recipient, subject, htmlBody, textBody⟩ = .error f ∧
          f.isRefusal = false) := by
  rcases sendEmail_cases pk recipient subject htmlBody textBody w.toWorld with
    ⟨hnone, text, hrun⟩ | ⟨sender, hhost, hsender, hsent⟩
  · rw [mailLink_error (congrArg Prod.fst hrun)]
    refine iff_of_false (fun ⟨e, he⟩ => by cases he) ?_
    rintro ⟨sender, hhost, hsender, -⟩
    rw [hnone hhost] at hsender
    cases hsender
  · have honly : ∀ {P : String → Prop}, (∃ sender, (present w.settings.smtp.host).isSome = true ∧
        w.settings.smtp.sender = some sender ∧ P sender) ↔ P sender := by
      intro P
      constructor
      · rintro ⟨sender', -, hsender', h⟩
        obtain rfl := Option.some.inj (hsender.symm.trans hsender')
        exact h
      · exact fun h => ⟨sender, hhost, hsender, h⟩
    rw [honly]
    rcases hsent with ⟨f, hmsg, hrun⟩ | ⟨hmsg, hrun⟩
    · rw [mailLink_error (congrArg Prod.fst hrun)]
      exact iff_of_true ⟨_, rfl⟩ (.inl ⟨f, hmsg⟩)
    · have hout := congrArg Prod.fst hrun
      cases hsmtp : w.smtp w.settings.smtp ⟨sender, recipient, subject, htmlBody, textBody⟩ with
      | ok v =>
        rw [hsmtp] at hout
        rw [mailLink_ok hout]
        simp [hmsg]
      | error f =>
        rw [hsmtp] at hout
        cases f with
        | _ => simp [mailLink_error hout, hmsg, Fault.isRefusal]

variable (pk) (w) (token email : String)

theorem raises_iff_fails :
    (∃ e, ((forgotPassword pk token email).run w).1 = .error e) ↔ Fails pk token email w := by
  unfold forgotPassword Fails
  by_cases hnul : '\x00' ∈ email.toList
  · rw [run_bind_error w (e := .outside .other) (by rw [run_ask, selectByEmail, if_pos hnul])]
    exact iff_of_true ⟨_, rfl⟩ (.inl hnul)
  · rw [run_bind_ask w (v := w.db.users.find? (·.email = email))
      (by rw [selectByEmail, if_neg hnul]), or_iff_right hnul]
    cases hfind : w.db.users.find? (·.email = email) with
    | none => exact iff_of_false (fun ⟨e, he⟩ => by cases he) (by simp)
    | some user =>
      simp only [Option.some.injEq, exists_eq_left']
      rw [run_bind_ask w (v := w.tokenTtlSeconds) rfl]
      cases hset : w.set token user.id w.tokenTtlSeconds with
      | error f =>
        rw [run_bind_error w (e := .outside f) (by rw [run_call, hset]; rfl)]
        exact iff_of_true ⟨_, rfl⟩ (.inl ⟨f, rfl⟩)
      | ok v =>
        rw [run_bind_ok w (v := ()) (by rw [run_call, hset]; rfl),
          run_bind_ask w (v := w.frontendBaseUrl) rfl]
        rw [or_iff_right (fun ⟨f, hf⟩ => by cases hf)]
        exact mailLink_raises _ _ _ _

/- The answer is one of two, and 500 exactly where the handler raises. -/
theorem response_cases :
    (Fails pk token email w ∧ response pk token email w = ⟨500, "Internal Server Error"⟩) ∨
    (¬ Fails pk token email w ∧
      response pk token email w = ⟨200, "\x7b\"status\":\"ok\"\x7d"⟩) := by
  rw [← raises_iff_fails, response]
  cases ((forgotPassword pk token email).run w).1 with
  | ok v => exact .inr ⟨(fun ⟨e, he⟩ => by cases he), rfl⟩
  | error e => exact .inl ⟨⟨e, rfl⟩, rfl⟩

/- Two emails are answered alike exactly if both requests fail or none does. -/
theorem same_response_iff (token' email' : String) :
    response pk token email w = response pk token' email' w ↔
      (Fails pk token email w ↔ Fails pk token' email' w) := by
  rcases response_cases pk w token email with ⟨h, hr⟩ | ⟨h, hr⟩
  · rcases response_cases pk w token' email' with ⟨h', hr'⟩ | ⟨h', hr'⟩
    · rw [hr, hr']
      exact iff_of_true rfl (iff_of_true h h')
    · rw [hr, hr']
      exact iff_of_false (by decide) (fun hiff => h' (hiff.mp h))
  · rcases response_cases pk w token' email' with ⟨h', hr'⟩ | ⟨h', hr'⟩
    · rw [hr, hr']
      exact iff_of_false (by decide) (fun hiff => h (hiff.mpr h'))
    · rw [hr, hr']
      exact iff_of_true rfl (iff_of_false h h')

end

/- Redis is down; `alice@example.com` has an account. -/
def redisDown : World String where
  toWorld :=
    { settings := { telegramBotToken := none, smtp := { host := none } }
      db := { events := [], rules := [], servers := [], users := [alice] }
      redis _ := .error .other
      telegram _ := .ok ⟨200, ""⟩
      smtp _ _ := .ok () }
  frontendBaseUrl := "http://localhost:8000"
  tokenTtlSeconds := 3600
  set _ _ _ := .error .other

theorem redis_down_reveals :
    response plainPackages "t" "alice@example.com" redisDown = ⟨500, "Internal Server Error"⟩ ∧
    response plainPackages "t" "bob@example.com" redisDown =
      ⟨200, "\x7b\"status\":\"ok\"\x7d"⟩ := by
  decide

end PulseWatch.ForgotPassword
