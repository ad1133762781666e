import PulseWatch.Models

/-!
# Passwords, login checks and the second factor (`app/api/auth.py`)

The decisions of `login` and of the three TOTP endpoints, as functions of the
user row the handler has loaded. bcrypt and pyotp are third-party code and enter
as `Crypto`; a raised `ValueError` (bcrypt refuses passwords over 72 bytes) is
`none`.
-/

namespace PulseWatch

structure Crypto where
  hashpw : String → String → Option String
  checkpw : String → String → Option Bool
  /-- `pyotp.TOTP(secret).verify(code, valid_window=1)` at a time in milliseconds. -/
  totpVerify : String → String → ℕ → Bool

/- Values of bcrypt (cost 12) and of pyotp (30 s steps) on the inputs of the
concrete runs below: password, salt, hash; secret, time step, code. -/
def bcryptValues : List (String × String × String) :=
  [("old-secret", "$2b$12$OldOldOldOldOldOldOldu",
      "$2b$12$OldOldOldOldOldOldOlduxrvnUNg3QlNIP8ysNc3qTd5wV.Tii0y"),
    ("new-secret", "$2b$12$NewNewNewNewNewNewNewu",
      "$2b$12$NewNewNewNewNewNewNewuUCggcO.dhkxpCueMYjBSH2yPTdtlPym"),
    ("pwk_agent", "$2b$12$KeyKeyKeyKeyKeyKeyKeyu",
      "$2b$12$KeyKeyKeyKeyKeyKeyKeyuesVTu4TTnTcmKD3ndIxeuApLoYmkWve")]

def totpValues : List (String × ℕ × String) :=
  [("JBSWY3DPEHPK3PXPJBSWY3DPEHPK3PXP", 0, "702218"),
    ("GEZDGNBVGY3TQOJQGEZDGNBVGY3TQOJQ", 1, "287082")]

def tabledCrypto : Crypto where
  hashpw p salt := (bcryptValues.find? fun r => r.1 = p ∧ r.2.1 = salt).map (·.2.2)
  checkpw p h := some (bcryptValues.any fun r => r.1 = p ∧ r.2.2 = h)
  totpVerify sec code now := totpValues.any fun r =>
    r.1 = sec ∧ r.2.2 = code ∧ r.2.1 ≤ now / 30000 + 1 ∧ now / 30000 ≤ r.2.1 + 1

/-- The user of the concrete runs; the password is `old-secret`. -/
def alice : User :=
  { id := 1, email := "alice@example.com"
    passwordHash := "$2b$12$OldOldOldOldOldOldOlduxrvnUNg3QlNIP8ysNc3qTd5wV.Tii0y" }

namespace Auth
variable (cr : Crypto)

/- Python truthiness of a nullable string. -/
def truthy : Option String → Bool
  | none => false
  | some s => s ≠ ""

inductive LoginResult where
  | accepted (userId : ℕ)
  | incorrectCredentials
  | totpRequired
  | invalidTotp
  | serverError
  deriving DecidableEq, Repr

/- Steps 1 to 2.5 of `login` (auth.py:103-133): the row found for the e-mail,
the password, then the code when the second factor is on. -/
def loginCheck (user : Option User) (password : String) (totpCode : Option String) (now : ℕ) :
    LoginResult :=
  match user with
  | none => .incorrectCredentials
  | some u =>
    match cr.checkpw password u.passwordHash with
    | none => .serverError
    | some false => .incorrectCredentials
    | some true =>
      if u.totpEnabled && truthy u.totpSecret then
        if !truthy totpCode then .totpRequired
        else if cr.totpVerify (u.totpSecret.getD "") (totpCode.getD "") now then .accepted u.id
        else .invalidTotp
      else .accepted u.id

/- What `pyotp.random_base32()` returns. -/
structure Base32Secret where
  value : String
  length : value.toList.length = 32
  alphabet : ∀ c ∈ value.toList, c ∈ "ABCDEFGHIJKLMNOPQRSTUVWXYZ234567".toList
  deriving DecidableEq, Repr

theorem inBase32 {s : String}
    (h : (s.toList.all fun c => "ABCDEFGHIJKLMNOPQRSTUVWXYZ234567".toList.contains c) = true) :
    ∀ c ∈ s.toList, c ∈ "ABCDEFGHIJKLMNOPQRSTUVWXYZ234567".toList := by
  intro c hc
  have hall := List.all_eq_true.mp h c hc
  exact List.contains_iff_mem.mp hall

theorem Base32Secret.ne_empty (sec : Base32Secret) : sec.value ≠ "" := by
  intro h
  have hlen := sec.length
  rw [h] at hlen
  cases hlen

/- The columns of `users` the TOTP endpoints change, on the loaded copy.
`none` is an HTTP error: the session is closed without a commit. -/
def setupTotp (secret : Base32Secret) (u : User) : Option User :=
  some { u with totpSecret := some secret.value, totpEnabled := false }

def enableTotp (code : String) (now : ℕ) (u : User) : Option User :=
  if !truthy u.totpSecret then none
  else if !cr.totpVerify (u.totpSecret.getD "") code now then none
  else some { u with totpEnabled := true }

def disableTotp (password : String) (u : User) : Option User :=
  match cr.checkpw password u.passwordHash with
  | some true => some { u with totpSecret := none, totpEnabled := false }
  | some false => none
  | none => none

/- SQLAlchemy's unit of work: the UPDATE of a commit names only the columns
whose value differs from the loaded one, and leaves the others as the row has
them by then. -/
def flushColumn {α : Type} [DecidableEq α] (loaded modified row : α) : α :=
  if modified = loaded then row else modified

def flushTotp (loaded modified row : User) : User :=
  { row with
    totpSecret := flushColumn loaded.totpSecret modified.totpSecret row.totpSecret
    totpEnabled := flushColumn loaded.totpEnabled modified.totpEnabled row.totpEnabled }

@[simp] theorem flushColumn_same {α : Type} [DecidableEq α] (loaded row : α) :
    flushColumn loaded loaded row = row := by simp [flushColumn]

@[simp] theorem flushColumn_fresh {α : Type} [DecidableEq α] (row modified : α) :
    flushColumn row modified row = modified := by
  unfold flushColumn
  split
  · next h => exact h.symm
  · rfl

theorem flushColumn_cases {α : Type} [DecidableEq α] (loaded modified row : α) :
    (modified = loaded ∧ flushColumn loaded modified row = row) ∨
      (modified ≠ loaded ∧ flushColumn loaded modified row = modified) := by
  by_cases h : modified = loaded
  · exact Or.inl ⟨h, by simp [flushColumn, h]⟩
  · exact Or.inr ⟨h, by simp [flushColumn, h]⟩

/- What an accepted login means while both TOTP columns are set. -/
theorem loginCheck_accepted_totp {u : User} {sec : String} (hsec : u.totpSecret = some sec)
    (hne : sec ≠ "") (hon : u.totpEnabled = true) {password : String} {code : Option String}
    {now id : ℕ} (h : loginCheck cr (some u) password code now = .accepted id) :
    ∃ c, code = some c ∧ cr.totpVerify sec c now = true := by
  unfold loginCheck at h
  cases hp : cr.checkpw password u.passwordHash with
  | none => simp [hp] at h
  | some b =>
    cases b with
    | false => simp [hp] at h
    | true =>
      cases code with
      | none => simp [hp, hon, hsec, truthy, hne] at h
      | some c =>
        refine ⟨c, rfl, ?_⟩
        by_contra hv
        simp only [Bool.not_eq_true] at hv
        by_cases hc : c = "" <;> simp [hp, hon, hsec, truthy, hne, hc, hv] at h

/- With the flag down, or the secret missing, the password alone is enough. -/
theorem loginCheck_password_only {u : User} (hoff : (u.totpEnabled && truthy u.totpSecret) = false)
    {password : String} (hp : cr.checkpw password u.passwordHash = some true)
    (code : Option String) (now : ℕ) :
    loginCheck cr (some u) password code now = .accepted u.id := by
  simp [loginCheck, hp, hoff]

theorem enableTotp_some {code : String} {now : ℕ} {u u' : User}
    (h : enableTotp cr code now u = some u') :
    ∃ sec, u.totpSecret = some sec ∧ sec ≠ "" ∧ cr.totpVerify sec code now = true ∧
      u' = { u with totpEnabled := true } := by
  unfold enableTotp at h
  cases hs : u.totpSecret with
  | none => simp [hs, truthy] at h
  | some sec =>
    by_cases hne : sec = ""
    · simp [hs, truthy, hne] at h
    · cases hv : cr.totpVerify sec code now with
      | false => simp [hs, truthy, hne, hv] at h
      | true =>
        refine ⟨sec, rfl, hne, hv, ?_⟩
        simp [hs, truthy, hne, hv] at h
        exact h.symm

theorem disableTotp_some {password : String} {u u' : User}
    (h : disableTotp cr password u = some u') :
    cr.checkpw password u.passwordHash = some true ∧
      u' = { u with totpSecret := none, totpEnabled := false } := by
  unfold disableTotp at h
  split at h
  · next hp => exact ⟨hp, (Option.some.inj h).symm⟩
  · cases h
  · cases h

end Auth
end PulseWatch
