import PulseWatch.Totp

/-!
# Overlapping requests to the second factor

Each request loads the user row, decides on its copy and commits the columns in
which the copy differs from what it loaded. Between load and commit other
requests commit, with no lock and no version check. `TotpSafe` is the schedule
on which the pair of columns stays coupled: a commit that writes one of the two
finds the other as it was loaded.
-/

namespace PulseWatch.Totp
open Auth

/- A request in flight: the row it loaded and its modified copy. -/
inductive Request where
  | idle
  | working (loaded modified : User)
  | answered
  deriving DecidableEq, Repr

/- `verified` lists the secrets against which an `enable_totp` request has
verified a code; no handler reads it. -/
structure Table where
  row : User
  requests : ℕ → Request
  verified : List String

inductive TotpLabel where
  | load (i : ℕ) (call : TotpCall)
  | commit (i : ℕ)
  deriving DecidableEq, Repr

def initTable (u : User) : Table :=
  ⟨{ u with totpSecret := none, totpEnabled := false }, fun _ => .idle, []⟩

/-- The secret an accepted call has verified a code for. -/
def TotpCall.verifies (row : User) : TotpCall → List String
  | .enable _ _ => row.totpSecret.toList
  | _ => []

def totpStep (cr : Crypto) (s : Table) : TotpLabel → Option Table
  | .load i call =>
    match s.requests i with
    | .idle =>
      match handler cr call s.row with
      | some u => some { s with
          requests := Function.update s.requests i (.working s.row u)
          verified := call.verifies s.row ++ s.verified }
      | none => some { s with requests := Function.update s.requests i .answered }
    | _ => none
  | .commit i =>
    match s.requests i with
    | .working loaded modified => some { s with
        row := flushTotp loaded modified s.row
        requests := Function.update s.requests i .answered }
    | _ => none

/- The pair is coupled: an enabled factor has a secret, and a code was verified
against that very secret. -/
def Coupled (s : Table) : Prop :=
  s.row.totpEnabled = true → ∃ sec, s.row.totpSecret = some sec ∧ sec ≠ "" ∧ sec ∈ s.verified

/- The pair is coupled, and while the flag is on an accepted login has shown a
valid code. -/
def TotpSound (cr : Crypto) (s : Table) : Prop :=
  Coupled s ∧ (s.row.totpEnabled = true → SecondFactorOn cr s.row)

/- A commit that writes one of the two columns finds the other as loaded. -/
def TotpSafe (s : Table) : TotpLabel → Prop
  | .load _ _ => True
  | .commit i => ∀ loaded modified, s.requests i = .working loaded modified →
      (modified.totpEnabled ≠ loaded.totpEnabled → modified.totpSecret = loaded.totpSecret →
        s.row.totpSecret = loaded.totpSecret) ∧
      (modified.totpSecret ≠ loaded.totpSecret → modified.totpEnabled = loaded.totpEnabled →
        s.row.totpEnabled = loaded.totpEnabled)

section
variable {cr : Crypto}

/- What a working copy can be: the factor is off in it, or it was confirmed. -/
def Confirmed (verified : List String) : Request → Prop
  | .working loaded modified => modified.totpEnabled = true →
      modified.totpSecret = loaded.totpSecret ∧
      ∃ sec, loaded.totpSecret = some sec ∧ sec ≠ "" ∧ sec ∈ verified
  | _ => True

theorem handler_confirmed {call : TotpCall} {row u : User} (verified : List String)
    (h : handler cr call row = some u) :
    Confirmed (call.verifies row ++ verified) (.working row u) := by
  intro hon
  cases call with
  | setup sec =>
    obtain rfl := Option.some.inj h
    cases hon
  | enable code now =>
    obtain ⟨sec, hs, hne, -, rfl⟩ := enableTotp_some cr h
    refine ⟨rfl, sec, hs, hne, ?_⟩
    simp [TotpCall.verifies, hs]
  | disable password =>
    obtain ⟨-, rfl⟩ := disableTotp_some cr h
    cases hon

theorem Confirmed.mono {verified more : List String} {r : Request} (h : Confirmed verified r) :
    Confirmed (more ++ verified) r := by
  cases r with
  | working loaded modified =>
    intro hon
    obtain ⟨hsame, sec, hs, hne, hv⟩ := h hon
    exact ⟨hsame, sec, hs, hne, List.mem_append_right _ hv⟩
  | idle => trivial
  | answered => trivial

theorem coupled_commit {row loaded modified : User} {verified : List String}
    (h : row.totpEnabled = true → ∃ sec, row.totpSecret = some sec ∧ sec ≠ "" ∧ sec ∈ verified)
    (hc : Confirmed verified (.working loaded modified))
    (henabled : modified.totpEnabled ≠ loaded.totpEnabled →
      modified.totpSecret = loaded.totpSecret → row.totpSecret = loaded.totpSecret)
    (hsecret : modified.totpSecret ≠ loaded.totpSecret →
      modified.totpEnabled = loaded.totpEnabled → row.totpEnabled = loaded.totpEnabled)
    (hon : (flushTotp loaded modified row).totpEnabled = true) :
    ∃ sec, (flushTotp loaded modified row).totpSecret = some sec ∧ sec ≠ "" ∧
      sec ∈ verified := by
  have hen := flushColumn_cases loaded.totpEnabled modified.totpEnabled row.totpEnabled
  have hse := flushColumn_cases loaded.totpSecret modified.totpSecret row.totpSecret
  simp only [flushTotp] at hon ⊢
  rcases hen with ⟨he, hrow⟩ | ⟨he, hmod⟩
  · rw [hrow] at hon
    rcases hse with ⟨hs, hrow'⟩ | ⟨hs, hmod'⟩
    · rw [hrow']
      exact h hon
    · have hloaded : modified.totpEnabled = true := by
        rw [he, ← hsecret hs he]
        exact hon
      exact absurd (hc hloaded).1 hs
  · rw [hmod] at hon
    obtain ⟨hsame, sec, hl, hne, hv⟩ := hc hon
    rcases hse with ⟨hs, hrow'⟩ | ⟨hs, hmod'⟩
    · refine ⟨sec, ?_, hne, hv⟩
      rw [hrow', henabled he hsame, hl]
    · exact absurd hsame hs

structure TotpInv (s : Table) : Prop where
  coupled : Coupled s
  confirmed : ∀ i, Confirmed s.verified (s.requests i)

theorem TotpInv.step {s s' : Table} {l : TotpLabel} (h : TotpInv s) (hok : TotpSafe s l)
    (hs : totpStep cr s l = some s') : TotpInv s' := by
  cases l with
  | load i call =>
    simp only [totpStep] at hs
    split at hs
    · split at hs
      · next u hu =>
        obtain rfl := Option.some.inj hs
        constructor
        · intro hon
          obtain ⟨sec, hsec, hne, hv⟩ := h.coupled hon
          exact ⟨sec, hsec, hne, List.mem_append_right _ hv⟩
        · intro j
          by_cases hj : j = i
          · subst hj
            show Confirmed _ (Function.update s.requests j _ j)
            rw [Function.update_self]
            exact handler_confirmed s.verified hu
          · show Confirmed _ (Function.update s.requests i _ j)
            rw [Function.update_of_ne hj]
            exact (h.confirmed j).mono
      · obtain rfl := Option.some.inj hs
        refine ⟨h.coupled, fun j => ?_⟩
        by_cases hj : j = i
        · subst hj
          show Confirmed _ (Function.update s.requests j _ j)
          rw [Function.update_self]
          trivial
        · show Confirmed _ (Function.update s.requests i _ j)
          rw [Function.update_of_ne hj]
          exact h.confirmed j
    · cases hs
  | commit i =>
    simp only [totpStep] at hs
    split at hs
    · next loaded modified hr =>
      obtain rfl := Option.some.inj hs
      have hconf := h.confirmed i
      rw [hr] at hconf
      obtain ⟨henabled, hsecret⟩ := hok loaded modified hr
      constructor
      · intro hon
        exact coupled_commit h.coupled hconf henabled hsecret hon
      · intro j
        by_cases hj : j = i
        · subst hj
          show Confirmed _ (Function.update s.requests j _ j)
          rw [Function.update_self]
          trivial
        · show Confirmed _ (Function.update s.requests i _ j)
          rw [Function.update_of_ne hj]
          exact h.confirmed j
    · cases hs

theorem TotpInv.sound {s : Table} (h : TotpInv s) : TotpSound cr s := by
  refine ⟨h.coupled, fun hon => ⟨hon, ?_⟩⟩
  intro password code now id hacc
  obtain ⟨sec, hs, hne, -⟩ := h.coupled hon
  obtain ⟨c, hc, hv⟩ := loginCheck_accepted_totp cr hs hne hon hacc
  exact ⟨sec, c, hs, hc, hv⟩

/- In every run on a safe schedule the pair stays coupled, and a login with the
flag on has shown a valid code. -/
theorem totp_coupled_on_safe_runs (u : User) (ls : List TotpLabel)
    (hok : Runs.Along (totpStep cr) TotpSafe (initTable u) ls) :
    Runs.Throughout (totpStep cr) (TotpSound cr) (initTable u) ls := by
  refine Runs.throughout_of_invariant TotpInv (TotpSound cr) TotpSafe
    (fun _ _ _ hi hsafe hs => hi.step hsafe hs) (fun _ hi => hi.sound) ?_ hok
  refine ⟨?_, fun _ => trivial⟩
  intro hon
  cases hon

end

def aliceSecret : Base32Secret :=
  ⟨"JBSWY3DPEHPK3PXPJBSWY3DPEHPK3PXP", by decide, inBase32 (by decide)⟩

/- Two setups overlap, then two confirmations: none of the four finds the other column
changed. -/
def doubled : List TotpLabel :=
  [.load 0 (.setup aliceSecret), .load 1 (.setup aliceSecret), .commit 0, .commit 1,
    .load 2 (.enable "702218" 0), .load 3 (.enable "702218" 0), .commit 2, .commit 3]

theorem totp_coupled_on_safe_runs_doubled :
    (∃ s, Runs.run (totpStep tabledCrypto) (initTable alice) doubled = some s ∧
      s.row.totpEnabled = true) ∧
    Runs.Throughout (totpStep tabledCrypto) (TotpSound tabledCrypto) (initTable alice) doubled := by
  refine ⟨⟨_, rfl, rfl⟩, totp_coupled_on_safe_runs alice _ ?_⟩
  refine ⟨trivial, fun s₁ h₁ => ⟨trivial, fun s₂ h₂ => ⟨?_, fun s₃ h₃ => ⟨?_, fun s₄ h₄ =>
    ⟨trivial, fun s₅ h₅ => ⟨trivial, fun s₆ h₆ => ⟨?_, fun s₇ h₇ => ⟨?_, fun _ _ =>
      trivial⟩⟩⟩⟩⟩⟩⟩⟩
  all_goals
    obtain rfl := Option.some.inj h₁
    obtain rfl := Option.some.inj h₂
    intro loaded modified hr
  · cases hr
    exact ⟨fun _ _ => rfl, fun _ _ => rfl⟩
  · obtain rfl := Option.some.inj h₃
    cases hr
    exact ⟨fun henabled _ => absurd rfl henabled, fun _ _ => rfl⟩
  all_goals
    obtain rfl := Option.some.inj h₃
    obtain rfl := Option.some.inj h₄
    obtain rfl := Option.some.inj h₅
    obtain rfl := Option.some.inj h₆
  · cases hr
    exact ⟨fun _ _ => rfl, fun hsecret _ => absurd rfl hsecret⟩
  · obtain rfl := Option.some.inj h₇
    cases hr
    exact ⟨fun _ _ => rfl, fun hsecret _ => absurd rfl hsecret⟩

/- `enable_totp` has verified the code and not yet committed; a complete
`disable_totp` clears the secret; the commit then sets only the flag. -/
theorem totp_uncoupled_by_overlap :
    ∃ s, Runs.run (totpStep tabledCrypto) (initTable alice)
        [.load 0 (.setup aliceSecret), .commit 0, .load 1 (.enable "702218" 0),
          .load 2 (.disable "old-secret"), .commit 2, .commit 1] = some s ∧
      s.row.totpEnabled = true ∧ s.row.totpSecret = none ∧
      loginCheck tabledCrypto (some s.row) "old-secret" none 0 = .accepted 1 ∧
      ¬ TotpSound tabledCrypto s := by
  refine ⟨_, rfl, rfl, rfl, rfl, ?_⟩
  rintro ⟨hcoupled, -⟩
  obtain ⟨sec, hs, -⟩ := hcoupled rfl
  cases hs

end PulseWatch.Totp
