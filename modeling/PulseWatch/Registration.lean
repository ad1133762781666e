import Mathlib.Data.List.Nodup
import PulseWatch.Auth
import PulseWatch.ForgotPassword
import PulseWatch.Lib.KeyedTable

/-!
# From registration to login (`app/api/auth.py`)

`POST /auth/register` reads the address as an `EmailStr`, which pydantic returns in
normalised form; `POST /auth/login` and `POST /auth/forgot-password` look for the string
they are given. FastAPI takes an empty field of a form for a missing one.
-/

namespace PulseWatch.Registration
open Effects
open PulseWatch.ForgotPassword (selectByEmail)

/- The table of users; `id` is its key and `email` unique. -/
structure Users where
  rows : List User
  ids : (rows.map User.id).Nodup
  emails : (rows.map User.email).Nodup

/- Answers of `register_user`: 201 with the row, 409, 422, 500. -/
inductive Registered where
  | created (row : User)
  | conflict
  | unprocessable
  | serverError
  deriving DecidableEq, Repr

/- Answers of `login`. -/
inductive LoggedIn where
  | unprocessable
  | checked (result : Auth.LoginResult)
  deriving DecidableEq, Repr

section
variable (cr : Crypto) (emailStr : String → Option String)

/- `email` is a VARCHAR without a length and unique. -/
def insertUser (row : User) (users : List User) : Registered :=
  match PgText.text row.email with
  | none => .serverError
  | some email =>
    if users.any (·.email = email) then .conflict else .created { row with email }

def userRead : Registered → Registered
  | .created row => if (emailStr row.email).isSome then .created row else .serverError
  | answer => answer

/- `register_user`; another registration may be committed between its SELECT and its
INSERT. -/
def registerUser (email password salt : String) (newId : ℕ) (found users : List User) :
    Registered :=
  match emailStr email with
  | none => .unprocessable
  | some email =>
    match selectByEmail email found with
    | .error _ => .serverError
    | .ok (some _) => .conflict
    | .ok none =>
      match cr.hashpw password salt with
      | none => .serverError
      | some passwordHash =>
        userRead emailStr (insertUser { id := newId, email, passwordHash } users)

/- `login` up to the tokens; `Form()` of `username` and of `password` is required. -/
def login (username password : String) (totpCode : Option String) (now : ℕ) (users : List User) :
    LoggedIn :=
  if username = "" ∨ password = "" then .unprocessable
  else match selectByEmail username users with
    | .error _ => .checked .serverError
    | .ok user => .checked (Auth.loginCheck cr user password totpCode now)

end

/-! ### The row a registration leaves -/

section
variable {cr : Crypto} {emailStr : String → Option String} {email password salt : String}
  {newId : ℕ} {found users : List User} {row : User}

theorem insertUser_created {new : User} (h : insertUser new users = .created row) :
    row = new ∧ '\x00' ∉ new.email.toList := by
  unfold insertUser PgText.text at h
  by_cases hnul : '\x00' ∈ new.email.toList
  · rw [if_pos hnul] at h
    cases h
  · rw [if_neg hnul] at h
    dsimp only at h
    split at h
    · cases h
    · exact ⟨(Registered.created.inj h).symm, hnul⟩

theorem registerUser_created
    (h : registerUser cr emailStr email password salt newId found users = .created row) :
    emailStr email = some row.email ∧ cr.hashpw password salt = some row.passwordHash ∧
      row.totpEnabled = false ∧ '\x00' ∉ row.email.toList := by
  unfold registerUser at h
  cases hemail : emailStr email with
  | none =>
    rw [hemail] at h
    cases h
  | some normalized =>
    rw [hemail] at h
    dsimp only at h
    split at h
    · cases h
    · cases h
    · cases hhash : cr.hashpw password salt with
      | none =>
        rw [hhash] at h
        cases h
      | some hash =>
        rw [hhash] at h
        dsimp only at h
        let new : User := { id := newId, email := normalized, passwordHash := hash }
        cases hins : insertUser new users with
        | created inserted =>
          obtain ⟨rfl, hnul⟩ := insertUser_created hins
          rw [hins, userRead] at h
          split at h
          · obtain rfl := Registered.created.inj h
            exact ⟨rfl, rfl, rfl, hnul⟩
          · cases h
        | _ =>
          rw [hins] at h
          cases h

end

/-! ### Looking for it -/

namespace Users
variable (users : Users) {row other : User}

theorem find_email (h : row ∈ users.rows) :
    users.rows.find? (·.email = row.email) = some row :=
  KeyedTable.get?_of_mem users.emails h rfl

theorem email_of_id (h : row ∈ users.rows) {email : String}
    (hf : users.rows.find? (·.email = email) = some other) (hid : other.id = row.id) :
    row.email = email := by
  obtain rfl := List.inj_on_of_nodup_map users.ids (List.mem_of_find?_eq_some hf) h hid
  simpa using List.find?_some hf

end Users

theorem loginCheck_id {cr : Crypto} {user : User} {password : String} {code : Option String}
    {now userId : ℕ}
    (h : Auth.loginCheck cr (some user) password code now = .accepted userId) :
    user.id = userId := by
  unfold Auth.loginCheck at h
  dsimp only at h
  split at h
  · cases h
  · cases h
  · split at h
    · split at h
      · cases h
      · split at h
        · exact Auth.LoginResult.accepted.inj h
        · cases h
    · exact Auth.LoginResult.accepted.inj h

section
variable {cr : Crypto} {users : Users} {row : User} {email password : String}

theorem login_accepted {code : Option String} {now : ℕ} (h : row ∈ users.rows)
    (hl : login cr email password code now users.rows = .checked (.accepted row.id)) :
    email ≠ "" ∧ password ≠ "" ∧ row.email = email := by
  unfold login at hl
  by_cases hempty : email = "" ∨ password = ""
  · rw [if_pos hempty] at hl
    cases hl
  · rw [if_neg hempty] at hl
    refine ⟨fun he => hempty (.inl he), fun hp => hempty (.inr hp), ?_⟩
    unfold selectByEmail at hl
    split at hl
    · cases hl
    · next user hselect =>
      split at hselect
      · cases hselect
      · obtain rfl := Except.ok.inj hselect
        cases hf : users.rows.find? (·.email = email) with
        | none =>
          rw [hf] at hl
          cases hl
        | some other =>
          rw [hf] at hl
          exact users.email_of_id h hf (loginCheck_id (LoggedIn.checked.inj hl))

/- With the string as it is stored, the login of a row without a second factor is that of
its password. -/
theorem login_stored (h : row ∈ users.rows) (hoff : row.totpEnabled = false)
    (hnul : '\x00' ∉ row.email.toList) (hp : cr.checkpw password row.passwordHash = some true)
    (hne : row.email ≠ "") (hpne : password ≠ "") (code : Option String) (now : ℕ) :
    login cr row.email password code now users.rows = .checked (.accepted row.id) := by
  have hempty : ¬ (row.email = "" ∨ password = "") := not_or.mpr ⟨hne, hpne⟩
  rw [login, if_neg hempty, selectByEmail, if_neg hnul, users.find_email h]
  exact congrArg _ (Auth.loginCheck_password_only cr (by rw [hoff]; rfl) hp code now)

end

/-! ### Forgot password -/

theorem forgot_finds {Body : Type} (pk : NotificationTasks.Packages Body) (token : String)
    {w : ForgotPassword.World Body} {users : Users} (hw : w.db.users = users.rows) {row : User}
    (h : row ∈ users.rows) (hnul : '\x00' ∉ row.email.toList) :
    ((ForgotPassword.forgotPassword pk token row.email).run w).2.head? =
      some (.storePasswordResetToken token row.id w.tokenTtlSeconds) := by
  have hselect : selectByEmail row.email w.db.users = .ok (some row) := by
    rw [selectByEmail, if_neg hnul, hw, users.find_email h]
  unfold ForgotPassword.forgotPassword
  rw [run_bind_ask w hselect]
  dsimp only
  rw [run_bind_ask w (v := w.tokenTtlSeconds) rfl]
  exact head_call_bind w _ _ _

/- Registered, a user logs in and finds his account with the strings he has registered
with exactly if neither is empty and the address is in normalised form. -/
theorem registered_returns_iff {cr : Crypto} {emailStr : String → Option String}
    (hcr : ∀ password salt hash, cr.hashpw password salt = some hash →
      cr.checkpw password hash = some true)
    {email password salt : String} {newId : ℕ} {found users : List User} {row : User}
    (hr : registerUser cr emailStr email password salt newId found users = .created row)
    {later : Users} (hrow : row ∈ later.rows) (code : Option String) (now : ℕ) {Body : Type}
    (pk : NotificationTasks.Packages Body) (token : String) {w : ForgotPassword.World Body}
    (hw : w.db.users = later.rows) :
    (login cr email password code now later.rows = .checked (.accepted row.id) ∧
      ((ForgotPassword.forgotPassword pk token email).run w).2.head? =
        some (.storePasswordResetToken token row.id w.tokenTtlSeconds)) ↔
      email ≠ "" ∧ password ≠ "" ∧ emailStr email = some email := by
  obtain ⟨hemail, hhash, hoff, hnul⟩ := registerUser_created hr
  have hp := hcr _ _ _ hhash
  constructor
  · rintro ⟨hl, -⟩
    obtain ⟨hne, hpne, rfl⟩ := login_accepted hrow hl
    exact ⟨hne, hpne, hemail⟩
  · rintro ⟨hne, hpne, hnormal⟩
    obtain rfl := Option.some.inj (hemail.symm.trans hnormal)
    exact ⟨login_stored hrow hoff hnul hp hne hpne code now, forgot_finds pk token hw hrow hnul⟩

/- `EmailStr` on addresses of plain ASCII words around one `@`. -/
def plainEmailStr (s : String) : Option String :=
  match s.toList.splitOn '@' with
  | [localPart, domain] =>
    if localPart = [] ∨ domain = [] then none
    else some (String.ofList (localPart ++ '@' :: domain.map Char.toLower))
  | _ => none

theorem tabledCrypto_checks (password salt hash : String)
    (h : tabledCrypto.hashpw password salt = some hash) :
    tabledCrypto.checkpw password hash = some true := by
  obtain ⟨r, hr, rfl⟩ := Option.map_eq_some_iff.mp h
  have hkey := List.find?_some hr
  simp only [decide_eq_true_eq] at hkey
  refine congrArg some (List.any_eq_true.mpr ⟨r, List.mem_of_find?_eq_some hr, ?_⟩)
  simpa using hkey.1

def bcryptSalt : String := "$2b$12$OldOldOldOldOldOldOldu"

def aliceOnly : Users := ⟨[alice], List.nodup_singleton _, List.nodup_singleton _⟩

def aliceWorld : ForgotPassword.World String :=
  { ForgotPassword.redisDown with set := fun _ _ _ => .ok () }

theorem alice_returns :
    login tabledCrypto "alice@example.com" "old-secret" none 0 aliceOnly.rows =
      .checked (.accepted 1) ∧
    ((ForgotPassword.forgotPassword NotificationTasks.plainPackages "t" "alice@example.com").run
      aliceWorld).2.head? = some (.storePasswordResetToken "t" 1 3600) := by
  have hr : registerUser tabledCrypto plainEmailStr "alice@example.com" "old-secret" bcryptSalt 1
      [] [] = .created alice := by decide
  have hrow : alice ∈ aliceOnly.rows := List.mem_singleton_self alice
  have hw : aliceWorld.db.users = aliceOnly.rows := rfl
  exact (registered_returns_iff tabledCrypto_checks hr hrow none 0 NotificationTasks.plainPackages
    "t" hw).mpr ⟨by decide, by decide, by decide⟩

/- Registered as `alice@EXAMPLE.com`, Alice is unknown under the address she has typed. -/
theorem upper_case_domain_lost :
    registerUser tabledCrypto plainEmailStr "alice@EXAMPLE.com" "old-secret" bcryptSalt 1 [] [] =
      .created alice ∧
    login tabledCrypto "alice@EXAMPLE.com" "old-secret" none 0 aliceOnly.rows =
      .checked .incorrectCredentials ∧
    (ForgotPassword.forgotPassword NotificationTasks.plainPackages "t" "alice@EXAMPLE.com").run
      aliceWorld = (.ok (), []) := by
  refine ⟨by decide, by decide, by decide⟩

end PulseWatch.Registration
