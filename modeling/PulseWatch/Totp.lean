import Mathlib.Logic.Function.Basic
import PulseWatch.Lib.Runs
import PulseWatch.Auth

/-!
# The second factor over sequences and interleavings of requests

`setup_totp`, `enable_totp` and `disable_totp` write the pair (`totp_secret`,
`totp_enabled`) that `login` reads. First one request after the other: what a
holder of the access token who never presents the password can do to the pair.
Then load and commit apart: each request works on the copy it loaded.
-/

namespace PulseWatch.Totp
open Auth

inductive TotpCall where
  | setup (secret : Base32Secret)
  | enable (code : String) (now : ℕ)
  | disable (password : String)
  deriving DecidableEq, Repr

def TotpCall.isSetup : TotpCall → Bool
  | .setup _ => true
  | _ => false

section
variable (cr : Crypto)

def handler : TotpCall → User → Option User
  | .setup secret, u => setupTotp secret u
  | .enable code now, u => enableTotp cr code now u
  | .disable password, u => disableTotp cr password u

/- A request that loads and commits with no other in between. -/
def request (row : User) (c : TotpCall) : User :=
  match handler cr c row with
  | some u => flushTotp row u row
  | none => row

def requests (row : User) (calls : List TotpCall) : User := calls.foldl (request cr) row

/-- The call is `enable_totp` with a code valid for the secret `sec?`. -/
def confirms (sec? : Option String) : TotpCall → Bool
  | .enable code now => truthy sec? && cr.totpVerify (sec?.getD "") code now
  | _ => false

/- The body of a `disable_totp` call is not the user's password. -/
def WithoutPassword (hash : String) (calls : List TotpCall) : Prop :=
  ∀ password, .disable password ∈ calls → cr.checkpw password hash ≠ some true

/- `totp_enabled` is on and the password alone does not log in. -/
def SecondFactorOn (row : User) : Prop :=
  row.totpEnabled = true ∧ ∀ password code now id,
    loginCheck cr (some row) password code now = .accepted id →
    ∃ sec c, row.totpSecret = some sec ∧ code = some c ∧ cr.totpVerify sec c now = true

end

section
variable {cr : Crypto}

/-! ### One request -/

theorem request_setup (row : User) (sec : Base32Secret) :
    request cr row (.setup sec) =
      { row with totpSecret := some sec.value, totpEnabled := false } := by
  simp [request, handler, setupTotp, flushTotp]

theorem request_enable (row : User) (code : String) (now : ℕ) :
    request cr row (.enable code now) =
      { row with
        totpEnabled := row.totpEnabled || confirms cr row.totpSecret (.enable code now) } := by
  show (match enableTotp cr code now row with
    | some u => flushTotp row u row
    | none => row) = _
  cases he : enableTotp cr code now row with
  | some u =>
    obtain ⟨sec, hs, hne, hv, rfl⟩ := enableTotp_some cr he
    simp [flushTotp, confirms, truthy, hs, hne, hv]
  | none =>
    have hoff : confirms cr row.totpSecret (.enable code now) = false := by
      unfold enableTotp at he
      by_cases ht : truthy row.totpSecret = true
      · simp [ht] at he
        simp [confirms, he]
      · simp [confirms, ht]
    rw [hoff, Bool.or_false]

theorem request_disable {row : User} {password : String}
    (h : cr.checkpw password row.passwordHash ≠ some true) :
    request cr row (.disable password) = row := by
  have hnone : disableTotp cr password row = none := by
    unfold disableTotp
    split
    · next hp => exact absurd hp h
    · rfl
    · rfl
  rw [request, handler, hnone]

/- Whatever the request, e-mail and password hash stay. -/
theorem request_hash (row : User) (c : TotpCall) :
    (request cr row c).passwordHash = row.passwordHash := by
  unfold request
  split <;> rfl

theorem requests_hash (row : User) (calls : List TotpCall) :
    (requests cr row calls).passwordHash = row.passwordHash := by
  induction calls generalizing row with
  | nil => rfl
  | cons c calls ih => exact (ih (request cr row c)).trans (request_hash row c)

/-! ### Sequences without the password -/

/- Between setups the secret stays and the flag can only go up. -/
theorem requests_no_setup {row : User} {calls : List TotpCall}
    (hset : ∀ c ∈ calls, c.isSetup = false) (hpw : WithoutPassword cr row.passwordHash calls) :
    requests cr row calls =
      { row with
        totpEnabled := row.totpEnabled || calls.any (confirms cr row.totpSecret) } := by
  induction calls generalizing row with
  | nil => simp [requests]
  | cons c calls ih =>
    have htail : ∀ d ∈ calls, d.isSetup = false := fun d hd => hset d (List.mem_cons_of_mem _ hd)
    have hpt : WithoutPassword cr row.passwordHash calls :=
      fun p hp => hpw p (List.mem_cons_of_mem _ hp)
    have hsplit : requests cr row (c :: calls) = requests cr (request cr row c) calls := rfl
    rw [hsplit]
    cases c with
    | setup sec =>
      have hc := hset _ List.mem_cons_self
      cases hc
    | enable code now =>
      rw [ih htail (by rw [request_hash]; exact hpt), request_enable row code now]
      simp [Bool.or_assoc]
    | disable password =>
      rw [request_disable (hpw password List.mem_cons_self), ih htail hpt]
      simp [confirms]

/- A list of requests has no setup, or a last one. -/
theorem last_setup (calls : List TotpCall) :
    (∀ c ∈ calls, c.isSetup = false) ∨
      ∃ before sec after, calls = before ++ .setup sec :: after ∧
        ∀ c ∈ after, c.isSetup = false := by
  induction calls with
  | nil => exact Or.inl (by simp)
  | cons c calls ih =>
    rcases ih with hnone | ⟨before, sec, after, rfl, hafter⟩
    · cases c with
      | setup sec => exact Or.inr ⟨[], sec, calls, rfl, hnone⟩
      | enable code now =>
        refine Or.inl fun d hd => ?_
        rcases List.mem_cons.mp hd with rfl | hd
        · rfl
        · exact hnone d hd
      | disable password =>
        refine Or.inl fun d hd => ?_
        rcases List.mem_cons.mp hd with rfl | hd
        · rfl
        · exact hnone d hd
    · exact Or.inr ⟨c :: before, sec, after, rfl, hafter⟩

theorem requests_last_setup {row : User} {before after : List TotpCall} {sec : Base32Secret}
    (hafter : ∀ c ∈ after, c.isSetup = false)
    (hpw : WithoutPassword cr row.passwordHash (before ++ .setup sec :: after)) :
    (requests cr row (before ++ .setup sec :: after)).totpSecret = some sec.value ∧
      (requests cr row (before ++ .setup sec :: after)).totpEnabled =
        after.any (confirms cr (some sec.value)) := by
  have hsplit : requests cr row (before ++ .setup sec :: after) =
      requests cr (request cr (requests cr row before) (.setup sec)) after := by
    simp [requests]
  have hhash : WithoutPassword cr
      (request cr (requests cr row before) (.setup sec)).passwordHash after := by
    rw [request_hash, requests_hash]
    exact fun p hp => hpw p (by simp [hp])
  rw [hsplit, requests_no_setup hafter hhash, request_setup]
  exact ⟨rfl, by simp⟩

/- With a known password, the factor is on exactly when flag and secret are set. -/
theorem secondFactorOn_iff {row : User} {password : String}
    (hp : cr.checkpw password row.passwordHash = some true) :
    SecondFactorOn cr row ↔ row.totpEnabled = true ∧ truthy row.totpSecret = true := by
  constructor
  · rintro ⟨hon, hlogin⟩
    refine ⟨hon, ?_⟩
    by_contra hsec
    have hoff : (row.totpEnabled && truthy row.totpSecret) = false := by
      rw [Bool.not_eq_true] at hsec
      rw [hsec, Bool.and_false]
    obtain ⟨sec, c, -, hc, -⟩ :=
      hlogin password none 0 row.id (loginCheck_password_only cr hoff hp none 0)
    cases hc
  · rintro ⟨hon, hsec⟩
    refine ⟨hon, ?_⟩
    intro pw code now id hacc
    cases hs : row.totpSecret with
    | none =>
      rw [hs] at hsec
      cases hsec
    | some sec =>
      have hne : sec ≠ "" := by
        rw [hs] at hsec
        exact of_decide_eq_true hsec
      obtain ⟨c, hc, hv⟩ := loginCheck_accepted_totp cr hs hne hon hacc
      exact ⟨sec, c, rfl, hc, hv⟩

/- Without the password the second factor stays on exactly when no setup is called
(and there was a secret), or the last setup is followed by a confirmation of its
own secret. -/
theorem second_factor_kept_iff {row : User} (hon : row.totpEnabled = true) {password : String}
    (hp : cr.checkpw password row.passwordHash = some true) {calls : List TotpCall}
    (hpw : WithoutPassword cr row.passwordHash calls) :
    SecondFactorOn cr (requests cr row calls) ↔
      ((∀ c ∈ calls, c.isSetup = false) ∧ truthy row.totpSecret = true) ∨
      ∃ before sec after, calls = before ++ .setup sec :: after ∧
        (∀ c ∈ after, c.isSetup = false) ∧ ∃ code now, .enable code now ∈ after ∧
          cr.totpVerify sec.value code now = true := by
  rw [secondFactorOn_iff (by rw [requests_hash]; exact hp)]
  rcases last_setup calls with hnone | ⟨before, sec, after, rfl, hafter⟩
  · rw [requests_no_setup hnone hpw]
    constructor
    · intro h
      exact Or.inl ⟨hnone, h.2⟩
    · rintro (⟨-, hsec⟩ | ⟨before, sec, after, rfl, -⟩)
      · exact ⟨by simp [hon], hsec⟩
      · have hc := hnone (.setup sec) (by simp)
        cases hc
  · obtain ⟨hsecret, hflag⟩ := requests_last_setup hafter hpw
    have htruthy : truthy (some sec.value) = true := decide_eq_true sec.ne_empty
    rw [hsecret, hflag]
    constructor
    · rintro ⟨hany, -⟩
      obtain ⟨c, hc, hconf⟩ := List.any_eq_true.mp hany
      cases c with
      | enable code now =>
        have hv : cr.totpVerify sec.value code now = true := by
          simpa [confirms, htruthy] using hconf
        exact Or.inr ⟨before, sec, after, rfl, hafter, code, now, hc, hv⟩
      | setup sec' => cases hconf
      | disable pw => cases hconf
    · rintro (⟨hnone, -⟩ | ⟨before', sec', after', heq, hafter', code, now, hmem, hv⟩)
      · have hc := hnone (.setup sec) (by simp)
        cases hc
      · have hpw' : WithoutPassword cr row.passwordHash (before' ++ .setup sec' :: after') :=
          heq ▸ hpw
        have hsame := requests_last_setup hafter' hpw'
        rw [← heq] at hsame
        have hsec : sec'.value = sec.value :=
          Option.some.inj (hsame.1.symm.trans hsecret)
        refine ⟨?_, htruthy⟩
        rw [← hflag, hsame.2, List.any_eq_true]
        refine ⟨_, hmem, ?_⟩
        have htruthy' : truthy (some sec'.value) = true := decide_eq_true sec'.ne_empty
        simp [confirms, htruthy', hv]

end

def aliceTotp : User :=
  { alice with totpSecret := some "JBSWY3DPEHPK3PXPJBSWY3DPEHPK3PXP", totpEnabled := true }

def otherSecret : Base32Secret :=
  ⟨"GEZDGNBVGY3TQOJQGEZDGNBVGY3TQOJQ", by decide, inBase32 (by decide)⟩

theorem second_factor_kept_iff_confirmed :
    SecondFactorOn tabledCrypto
      (requests tabledCrypto aliceTotp [.setup otherSecret, .enable "287082" 59000]) := by
  have hp : tabledCrypto.checkpw "old-secret" aliceTotp.passwordHash = some true := by decide
  refine (second_factor_kept_iff rfl hp ?_).mpr ?_
  · intro password h
    simp at h
  · exact Or.inr ⟨[], otherSecret, [.enable "287082" 59000], rfl, by decide, "287082", 59000,
      by decide, by decide⟩

/- One call of `setup_totp` and the password alone logs in. -/
theorem second_factor_removed_by_setup :
    aliceTotp.totpEnabled = true ∧
      WithoutPassword tabledCrypto aliceTotp.passwordHash [.setup otherSecret] ∧
      (requests tabledCrypto aliceTotp [.setup otherSecret]).totpEnabled = false ∧
      loginCheck tabledCrypto (some (requests tabledCrypto aliceTotp [.setup otherSecret]))
        "old-secret" none 0 = .accepted 1 := by
  refine ⟨rfl, ?_, rfl, by decide⟩
  intro password h
  simp at h

end PulseWatch.Totp
