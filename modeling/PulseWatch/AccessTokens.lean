import PulseWatch.SessionReset

/-!
# Access tokens

`login` and `refresh_tokens` answer with an access token beside the refresh token, and
`get_current_user` takes it without a look at Redis: until it expires nothing revokes
it. What the whitelist says of refresh tokens is carried over to the access tokens that
come with them: where each of them is from, and how long the tokens of a session that
has ended still open the API.
-/

namespace PulseWatch.AccessTokens
open Sessions RedisClient Runs

/- An access JWT: the claims `sub` and `exp`. `pair` is the refresh token of the same
answer, which no handler reads off it. -/
structure Access where
  sub : ℕ
  exp : ℕ
  pair : Minted
  deriving DecidableEq, Repr

inductive Token where
  | access (a : Access)
  | refresh (m : Minted)
  deriving DecidableEq, Repr

/-- `get_current_user`; `none` is its 401. -/
def getCurrentUser (now : ℕ) (users : List User) : Token → Option User
  | .refresh _ => none
  | .access a => if now / 1000 ≤ a.exp then users.find? fun u => u.id = a.sub else none

/- `made` holds the access token among the variables of a call, `handed` those that were
returned. -/
structure State where
  sys : Sys
  made : ℕ → Option Access
  handed : List Access

def start (now : ℕ) (users : List User) : State := ⟨Sessions.init now users, fun _ => none, []⟩

section
variable (cfg : Settings) (cr : Crypto)

def accessTtl : ℕ := cfg.accessTokenExpireMinutes * 60

/-- `create_access_token`. -/
def createAccessToken (now subject : ℕ) (pair : Minted) : Access :=
  ⟨subject, now / 1000 + accessTtl cfg, pair⟩

/- The two handlers make the access token where they make the refresh token, and
return both. -/
def State.pass (t : State) (s : Sys) : Label → State
  | .loginStore c _ | .refreshRotate c _ =>
    { t with
      sys := s
      made := Function.update t.made c
        ((s.calls c).owns.map fun m => createAccessToken cfg t.sys.now m.sub m) }
  | .loginReturn c | .refreshMark c =>
    { t with sys := s, handed := (t.made c).toList ++ t.handed }
  | _ => { t with sys := s }

def step (t : State) (l : Label) : Option State :=
  (Sessions.step cfg cr t.sys l).map fun s => t.pass cfg s l

end

/-- The refresh token a call will return or has returned. -/
def issues : Call → Option Minted
  | .loginStored m | .loggedIn m => some m
  | .rotated _ k _ | .refreshed _ k _ _ => some k
  | _ => none

theorem owns_of_issues {p : Call} {m : Minted} (h : issues p = some m) : p.owns = some m := by
  cases p with
  | loginStored | loggedIn | rotated | refreshed => exact h
  | _ => cases h

theorem issues_of_delivered {p : Call} {m : Minted} (h : p.delivered = some m) :
    issues p = some m := by
  cases p with
  | loggedIn | refreshed => exact h
  | _ => cases h

/-! ### One step of a session -/

section
variable {cfg : Settings} {cr : Crypto} {s s' : Sys} {l : Label}

/- A call keeps the token it has made, and a reset that has answered stays as it is. -/
theorem call_kept (hs : Sessions.step cfg cr s l = some s') (c : ℕ) :
    (∀ m, (s.calls c).owns = some m → (s'.calls c).owns = some m) ∧
    ∀ u cm b, s.calls c = .resetDone u cm b → s'.calls c = .resetDone u cm b := by
  have moved : ∀ d p, s'.calls = Function.update s.calls d p →
      (∀ m, (s.calls d).owns = some m → p.owns = some m) →
      (∀ u cm b, s.calls d ≠ .resetDone u cm b) →
      (∀ m, (s.calls c).owns = some m → (s'.calls c).owns = some m) ∧
      ∀ u cm b, s.calls c = .resetDone u cm b → s'.calls c = .resetDone u cm b := by
    intro d p hcalls howns hdone
    by_cases hd : c = d
    · subst hd
      rw [hcalls, Function.update_self]
      exact ⟨howns, fun u cm b h => absurd h (hdone u cm b)⟩
    · rw [hcalls, Function.update_of_ne hd]
      exact ⟨fun m h => h, fun u cm b h => h⟩
  cases step_move cfg cr hs with
  | tick ms => exact ⟨fun m h => h, fun u cm b h => h⟩
  | loggedIn _ hc | refreshed _ _ _ hc | refused _ _ _ hc =>
    refine moved _ _ rfl ?_ ?_
    · rw [hc]
      exact fun m h => h
    · rw [hc]
      simp
  | revoked _ _ _ hc _ | loginFailed _ hc | loginVerified _ hc _ | expired hc _ _
  | reuseFound hc _ _ _ | unused hc _ _ _ | forgottenNobody hc | resetTooShort hc
  | resetCommitted _ _ _ hc _ | resetFailed _ _ _ hc | loginStored _ _ hc _ | forgotten _ hc
  | rotated _ _ hc _ _ | stale _ _ hc _ _ | loggedOut hc _ | resetConsumed _ hc _
  | resetUnknown hc | reuseScan _ _ hc | resetScan _ _ hc | reuseRefused _ _ _ _ hc _
  | resetDone _ _ _ _ hc _ =>
    refine moved _ _ rfl ?_ ?_
    · rw [hc]
      intro m h
      cases h
    · rw [hc]
      simp

/- How a call comes to a token that it will return. -/
inductive Issue (cfg : Settings) (s : Sys) (c : ℕ) : Label → Minted → Prop
  | login {jti} (u v : ℕ) (place : s.calls c = .loginVerified u v) :
      Issue cfg s c (.loginStore c jti) (mint cfg s c u jti jti v)
  | exchange {jti} (n : Minted) (ck : Stamp) (place : s.calls c = .unused n ck)
      (valid : isRefreshJtiValid s.now n.sub n.jti s.redis = true) :
      Issue cfg s c (.refreshRotate c jti) (mint cfg s c n.sub jti n.family n.verified)

theorem issues_step (hs : Sessions.step cfg cr s l = some s') {c : ℕ} {m : Minted}
    (h : issues (s'.calls c) = some m) : issues (s.calls c) = some m ∨ Issue cfg s c l m := by
  have moved : ∀ d p, s'.calls = Function.update s.calls d p →
      (issues p = some m → issues (s.calls d) = some m ∨ Issue cfg s d l m) →
      issues (s.calls c) = some m ∨ Issue cfg s c l m := by
    intro d p hcalls hp
    by_cases hd : c = d
    · subst hd
      rw [hcalls, Function.update_self] at h
      exact hp h
    · rw [hcalls, Function.update_of_ne hd] at h
      exact Or.inl h
  cases step_move cfg cr hs with
  | tick ms => exact Or.inl h
  | loginStored u v hc hf =>
    refine moved _ _ rfl fun hp => Or.inr ?_
    obtain rfl := Option.some.inj hp
    exact .login u v hc
  | rotated n ck hc hf hv =>
    refine moved _ _ rfl fun hp => Or.inr ?_
    obtain rfl := Option.some.inj hp
    exact .exchange n ck hc hv
  | loggedIn _ hc | refreshed _ _ _ hc =>
    refine moved _ _ rfl fun hp => Or.inl ?_
    rw [hc]
    exact hp
  | revoked _ _ _ hc _ | loginFailed _ hc | loginVerified _ hc _ | expired hc _ _
  | reuseFound hc _ _ _ | unused hc _ _ _ | forgottenNobody hc | resetTooShort hc
  | resetCommitted _ _ _ hc _ | resetFailed _ _ _ hc | forgotten _ hc | stale _ _ hc _ _
  | refused _ _ _ hc | loggedOut hc _ | resetConsumed _ hc _ | resetUnknown hc
  | reuseScan _ _ hc | resetScan _ _ hc | reuseRefused _ _ _ _ hc _ | resetDone _ _ _ _ hc _ =>
    refine moved _ _ rfl fun hp => ?_
    cases hp

theorem issue_deadline {c : ℕ} {m : Minted} (h : Issue cfg s c l m)
    (hs : Sessions.step cfg cr s l = some s') :
    ExpiringStore.deadline? m.key s'.redis = some (expiry s.now cfg.refreshTtl) := by
  cases h with
  | login u v place =>
    cases step_move cfg cr hs with
    | loginStored u' v' hc hf =>
      rw [place] at hc
      obtain ⟨rfl, rfl⟩ := Call.loginVerified.inj hc
      exact ExpiringStore.deadline?_set_self _ _ _ _
  | exchange n ck place valid =>
    cases step_move cfg cr hs with
    | rotated n' ck' hc hf hv =>
      rw [place] at hc
      obtain ⟨rfl, rfl⟩ := Call.unused.inj hc
      exact deadline_rotate_new _ _ _ _ _ _
    | stale n' ck' hc hf hv =>
      rw [place] at hc
      obtain ⟨rfl, rfl⟩ := Call.unused.inj hc
      rw [valid] at hv
      cases hv

/- The deadline of a session that exists is never moved. -/
theorem deadline_step (hs : Sessions.step cfg cr s l = some s') {m : Minted} (hm : m ∈ s.minted) :
    ExpiringStore.deadline? m.key s'.redis = ExpiringStore.deadline? m.key s.redis ∨
      ExpiringStore.deadline? m.key s'.redis = none := by
  have hfresh : ∀ u jti, s.fresh jti = true → m.key ≠ .refresh u jti := by
    intro u jti hf he
    injection he with _ hj
    exact fresh_ne hf m hm hj
  cases step_move cfg cr hs with
  | loginStored u v hc hf => exact Or.inl (ExpiringStore.deadline?_set_ne _ _ _ _ _ (hfresh _ _ hf))
  | rotated n ck hc hf hv | stale n ck hc hf hv =>
    rw [rotatePipeline, ExpiringStore.deadline?_set_ne _ _ _ _ _ (hfresh _ _ hf)]
    exact deadline_del _ _ _
  | refreshed | forgotten =>
    refine Or.inl (ExpiringStore.deadline?_set_ne _ _ _ _ _ ?_)
    intro he
    cases he
  | refused | revoked | resetConsumed | resetUnknown => exact deadline_del _ _ _
  | @loggedOut c n hc hn =>
    cases hx : n.unexpired s.now with
    | false => exact Or.inl rfl
    | true => exact deadline_del _ _ _
  | _ => exact Or.inl rfl

end

/-! ### Where a token is from -/

section
variable (cfg : Settings) (cr : Crypto) (now : ℕ) (users : List User)

/- A login has passed its checks for the user. -/
def Verified (ls : List Label) (u : ℕ) : Prop :=
  Took (Sessions.step cfg cr) (Sessions.init now users) ls fun _ s l =>
    ∃ c email password code, l = .loginVerify c email password code ∧
      Auth.loginCheck cr (s.users.find? fun x => x.email = email) password code s.now =
        .accepted u

/- The token was made at that time: for a login, or in exchange for a token that was made
not longer ago than the whitelist remembers, and was on it. -/
inductive Granted : List Label → Minted → ℕ → Prop
  | login {ls p : List Label} {s : Sys} {c u v : ℕ} {jti : String}
      (before : p ++ [.loginStore c jti] <+: ls)
      (reached : run (Sessions.step cfg cr) (Sessions.init now users) p = some s)
      (place : s.calls c = .loginVerified u v) (verified : Verified cfg cr now users p u) :
      Granted ls (mint cfg s c u jti jti v) s.now
  | exchange {ls p : List Label} {s : Sys} {c made : ℕ} {jti : String} {n : Minted} {ck : Stamp}
      (before : p ++ [.refreshRotate c jti] <+: ls)
      (reached : run (Sessions.step cfg cr) (Sessions.init now users) p = some s)
      (place : s.calls c = .unused n ck)
      (valid : isRefreshJtiValid s.now n.sub n.jti s.redis = true)
      (inTime : s.now ≤ expiry made cfg.refreshTtl) (granted : Granted p n made) :
      Granted ls (mint cfg s c n.sub jti n.family n.verified) s.now

/- The tokens that calls return, with what the whitelist remembers of them. -/
structure Traced (ls : List Label) (s : Sys) : Prop where
  verified : ∀ c u v, s.calls c = .loginVerified u v → Verified cfg cr now users ls u
  issued : ∀ c m, issues (s.calls c) = some m → ∃ made, Granted cfg cr now users ls m made ∧
    made ≤ s.now ∧ m.exp = made / 1000 + cfg.refreshTtl ∧
    ∀ d, ExpiringStore.deadline? m.key s.redis = some d → d = expiry made cfg.refreshTtl

end

section
variable {cfg : Settings} {cr : Crypto} {now : ℕ} {users : List User} {ls : List Label}
  {s s' : Sys} {l : Label}

theorem Granted.later {m : Minted} {made : ℕ} (h : Granted cfg cr now users ls m made)
    (ms : List Label) : Granted cfg cr now users (ls ++ ms) m made := by
  cases h with
  | login before reached place verified =>
    exact .login (before.trans (List.prefix_append ls ms)) reached place verified
  | exchange before reached place valid inTime granted =>
    exact .exchange (before.trans (List.prefix_append ls ms)) reached place valid inTime granted

theorem verified_step (h : Traced cfg cr now users ls s)
    (hr : run (Sessions.step cfg cr) (Sessions.init now users) ls = some s)
    (hs : Sessions.step cfg cr s l = some s') {c u v : ℕ}
    (hc : s'.calls c = .loginVerified u v) : Verified cfg cr now users (ls ++ [l]) u := by
  have moved : ∀ d p, s'.calls = Function.update s.calls d p →
      (p = .loginVerified u v → Verified cfg cr now users (ls ++ [l]) u) →
      Verified cfg cr now users (ls ++ [l]) u := by
    intro d p hcalls hp
    by_cases hd : c = d
    · subst hd
      rw [hcalls, Function.update_self] at hc
      exact hp hc
    · rw [hcalls, Function.update_of_ne hd] at hc
      exact (h.verified c u v hc).later [l]
  cases step_move cfg cr hs with
  | tick ms => exact (h.verified c u v hc).later _
  | @loginVerified d email password code w hd hcheck =>
    refine moved _ _ rfl fun hp => ?_
    obtain ⟨rfl, -⟩ := Call.loginVerified.inj hp
    exact .here hr ⟨d, email, password, code, rfl, hcheck⟩
  | _ =>
    refine moved _ _ rfl fun hp => ?_
    cases hp

theorem Traced.step (h : Traced cfg cr now users ls s) (hl : Ledger s)
    (hr : run (Sessions.step cfg cr) (Sessions.init now users) ls = some s)
    (hs : Sessions.step cfg cr s l = some s') : Traced cfg cr now users (ls ++ [l]) s' := by
  refine ⟨fun c u v hc => verified_step h hr hs hc, fun c m hm => ?_⟩
  rcases issues_step hs hm with hold | hnew
  · obtain ⟨made, hgranted, hle, hexp, hdeadline⟩ := h.issued c m hold
    refine ⟨made, hgranted.later [l], hle.trans (now_step hs), hexp, fun d hd => ?_⟩
    rcases deadline_step hs (hl.owner c m (owns_of_issues hold)).1 with hsame | hnone
    · exact hdeadline d (hsame ▸ hd)
    · rw [hnone] at hd
      cases hd
  · have hdeadline : ∀ d, ExpiringStore.deadline? m.key s'.redis = some d →
        d = expiry s.now cfg.refreshTtl := by
      intro d hd
      rw [issue_deadline hnew hs] at hd
      exact (Option.some.inj hd).symm
    cases hnew with
    | login u v hc =>
      exact ⟨s.now, .login (List.prefix_refl _) hr hc (h.verified c u v hc), now_step hs, rfl,
        hdeadline⟩
    | exchange n ck hc hv =>
      have hreturned : n ∈ s.returned := hl.presented c n (by rw [hc]; rfl)
      obtain ⟨made, hgranted, -, -, hold⟩ :=
        h.issued n.maker n (issues_of_delivered (hl.handed n hreturned))
      obtain ⟨d, hd, hle⟩ := (ExpiringStore.alive_iff _ _ _).mp hv
      have hin : s.now ≤ expiry made cfg.refreshTtl := hold d hd ▸ hle
      exact ⟨s.now, .exchange (List.prefix_refl _) hr hc hv hin hgranted, now_step hs, rfl,
        hdeadline⟩

theorem traced_run
    (hr : run (Sessions.step cfg cr) (Sessions.init now users) ls = some s) :
    (Ledger s ∧ Heirs s.calls) ∧ Traced cfg cr now users ls s := by
  refine run_history
    (fun ls s => (Ledger s ∧ Heirs s.calls) ∧ Traced cfg cr now users ls s) ?_ ?_ hr
  · refine ⟨⟨Ledger.init now users, ?_⟩, ?_, ?_⟩
    · intro c m k hk
      cases hk
    · intro c u v hc
      cases hc
    · intro c m hm
      cases hm
  · rintro ls s l s' hr ⟨⟨hl, hh⟩, ht⟩ hs
    exact ⟨⟨hl.step hh hs, heirs_step hh hs⟩, ht.step hl hr hs⟩

/-! ### The pairs -/

/- What an access token has in common with the refresh token it came with. -/
def Fits (cfg : Settings) (a : Access) : Prop :=
  a.sub = a.pair.sub ∧ a.exp + cfg.refreshTtl = a.pair.exp + accessTtl cfg

structure Paired (cfg : Settings) (t : State) : Prop where
  made : ∀ c a, t.made c = some a → (t.sys.calls c).owns = some a.pair ∧ Fits cfg a
  handed : ∀ a ∈ t.handed, a.pair ∈ t.sys.returned ∧ Fits cfg a

variable {t t' : State}

theorem step_sys (hs : step cfg cr t l = some t') :
    Sessions.step cfg cr t.sys l = some t'.sys := by
  obtain ⟨s, hsys, rfl⟩ := Option.map_eq_some_iff.mp hs
  have hpass : (t.pass cfg s l).sys = s := by
    cases l <;> rfl
  rw [hsys, hpass]

theorem run_sys {ls : List Label} (hr : run (step cfg cr) t ls = some t') :
    run (Sessions.step cfg cr) t.sys ls = some t'.sys := by
  induction ls generalizing t with
  | nil => exact congrArg (Option.map State.sys) hr
  | cons l ls ih =>
    obtain ⟨u, hu, hrest⟩ := run_cons hr
    exact Option.bind_eq_some_iff.mpr ⟨u.sys, step_sys hu, ih hrest⟩

theorem Paired.make (h : Paired cfg t) {s : Sys} (hs : Sessions.step cfg cr t.sys l = some s)
    (c : ℕ) (hexp : ∀ m, (s.calls c).owns = some m → m.exp = t.sys.now / 1000 + cfg.refreshTtl) :
    Paired cfg { t with
      sys := s
      made := Function.update t.made c
        ((s.calls c).owns.map fun m => createAccessToken cfg t.sys.now m.sub m) } where
  made d a ha := by
    by_cases hd : d = c
    · subst hd
      dsimp only at ha
      rw [Function.update_self] at ha
      obtain ⟨m, hm, rfl⟩ := Option.map_eq_some_iff.mp ha
      refine ⟨hm, rfl, ?_⟩
      have hm := hexp m hm
      simp only [createAccessToken]
      omega
    · dsimp only at ha
      rw [Function.update_of_ne hd] at ha
      exact ⟨(call_kept hs d).1 _ (h.made d a ha).1, (h.made d a ha).2⟩
  handed a ha := ⟨returned_step hs (h.handed a ha).1, (h.handed a ha).2⟩

theorem Paired.keep (h : Paired cfg t) {s : Sys} (hs : Sessions.step cfg cr t.sys l = some s) :
    Paired cfg { t with sys := s } where
  made d a ha := ⟨(call_kept hs d).1 _ (h.made d a ha).1, (h.made d a ha).2⟩
  handed a ha := ⟨returned_step hs (h.handed a ha).1, (h.handed a ha).2⟩

theorem Paired.hand (h : Paired cfg t) {s : Sys} (hs : Sessions.step cfg cr t.sys l = some s)
    (c : ℕ) (hin : ∀ m, (t.sys.calls c).owns = some m → m ∈ s.returned) :
    Paired cfg { t with sys := s, handed := (t.made c).toList ++ t.handed } where
  made := (h.keep hs).made
  handed a ha := by
    rcases List.mem_append.mp ha with hnew | hold
    · have hmade := h.made c a (Option.mem_toList.mp hnew)
      exact ⟨hin a.pair hmade.1, hmade.2⟩
    · exact (h.keep hs).handed a hold

theorem Paired.step (h : Paired cfg t) (hs : step cfg cr t l = some t') : Paired cfg t' := by
  obtain ⟨s, hsys, rfl⟩ := Option.map_eq_some_iff.mp hs
  cases l with
  | loginStore c jti =>
    refine h.make hsys c fun m hm => ?_
    cases step_move cfg cr hsys with
    | loginStored u v hc hf =>
      dsimp only at hm
      rw [Sys.goto_self] at hm
      obtain rfl := Option.some.inj hm
      rfl
  | refreshRotate c jti =>
    refine h.make hsys c fun m hm => ?_
    cases step_move cfg cr hsys with
    | rotated n ck hc hf hv | stale n ck hc hf hv =>
      dsimp only at hm
      rw [Sys.goto_self] at hm
      obtain rfl := Option.some.inj hm
      rfl
  | loginReturn c =>
    refine h.hand hsys c fun m hm => ?_
    cases step_move cfg cr hsys with
    | loggedIn n hc =>
      rw [hc] at hm
      obtain rfl := Option.some.inj hm
      exact List.mem_cons_self
  | refreshMark c =>
    refine h.hand hsys c fun m hm => ?_
    cases step_move cfg cr hsys with
    | refreshed n new ck hc =>
      rw [hc] at hm
      obtain rfl := Option.some.inj hm
      exact List.mem_cons_self
  | _ => exact h.keep hsys

theorem paired_run {ls : List Label} (hr : run (step cfg cr) (start now users) ls = some t) :
    Paired cfg t := by
  refine reachable_invariant (Paired cfg) (fun _ _ _ h hs => h.step hs) ⟨?_, ?_⟩ ⟨ls, hr⟩
  · intro c a ha
    cases ha
  · intro a ha
    cases ha

/-! ### What an access token rests on -/

theorem getCurrentUser_some {now : ℕ} {users : List User} {a : Access} {u : User}
    (h : getCurrentUser now users (.access a) = some u) :
    now / 1000 ≤ a.exp ∧ u ∈ users ∧ u.id = a.sub := by
  simp only [getCurrentUser] at h
  split at h
  · next hexp =>
    exact ⟨hexp, List.mem_of_find?_eq_some h, by simpa using List.find?_some h⟩
  · cases h

/- Whoever is let in holds an access token that was made, half an hour ago at most, for
a login that passed its checks, or along a chain of exchanges that began with one. -/
theorem access_goes_back_to_login {ls : List Label} {t : State}
    (hr : run (step cfg cr) (start now users) ls = some t) {a : Access} (ha : a ∈ t.handed)
    {u : User} (hu : getCurrentUser t.sys.now t.sys.users (.access a) = some u) :
    ∃ made, Granted cfg cr now users ls a.pair made ∧ u.id = a.pair.sub ∧ made ≤ t.sys.now ∧
      t.sys.now / 1000 ≤ made / 1000 + accessTtl cfg := by
  obtain ⟨⟨hl, -⟩, htraced⟩ := traced_run (run_sys hr)
  obtain ⟨hpair, hsub, hexp⟩ := (paired_run hr).handed a ha
  obtain ⟨made, hgranted, hle, hmade, -⟩ :=
    htraced.issued _ _ (issues_of_delivered (hl.handed a.pair hpair))
  obtain ⟨hvalid, -, hid⟩ := getCurrentUser_some hu
  refine ⟨made, hgranted, hid.trans hsub, hle, ?_⟩
  omega

/- The access token of `aliceLogin`, in its last second. -/
theorem let_in_after_half_an_hour : ∃ t made,
    run (step {} tabledCrypto) (start 0 [alice]) (aliceLogin ++ [.tick 1800999]) = some t ∧
      getCurrentUser t.sys.now t.sys.users (.access ⟨1, 1800, aliceToken⟩) = some alice ∧
      Granted {} tabledCrypto 0 [alice] (aliceLogin ++ [.tick 1800999]) aliceToken made := by
  have hrun : run (step {} tabledCrypto) (start 0 [alice]) (aliceLogin ++ [.tick 1800999]) =
    some _ := rfl
  obtain ⟨made, hgranted, -⟩ := access_goes_back_to_login hrun (a := ⟨1, 1800, aliceToken⟩)
    List.mem_cons_self (u := alice) rfl
  exact ⟨_, made, hrun, rfl, hgranted⟩

/-! ### Sessions that have ended -/

/- A kind of sessions, by user, family and login. -/
abbrev Kind := ℕ → String → ℕ → Prop

/- The whitelist has no token of the kind but what waits for its rollback. -/
def Over (Q : Kind) (s : Sys) : Prop :=
  ∀ m ∈ s.minted, Q m.sub m.family m.verified →
    ExpiringStore.alive s.now m.key s.redis = true → (s.calls m.maker).pending = true

/- No login opens a session of the kind. -/
def NoneNew (Q : Kind) (s : Sys) : Label → Prop
  | .loginStore c jti => s.fresh jti = true → ∀ u v, s.calls c = .loginVerified u v → ¬ Q u jti v
  | _ => True

variable {Q : Kind}

theorem Over.refused (h : Over Q s) (hl : Ledger s) {m : Minted} (hm : m ∈ s.returned)
    (hQ : Q m.sub m.family m.verified) : isRefreshJtiValid s.now m.sub m.jti s.redis = false := by
  by_contra hvalid
  have hpending := h m (hl.returned_minted hm) hQ (Bool.not_eq_false _ ▸ hvalid)
  rw [Call.settled_of_delivered (hl.handed m hm)] at hpending
  cases hpending

theorem Over.step (h : Over Q s) (hl : Ledger s) (hh : Heirs s.calls) (hok : NoneNew Q s l)
    (hs : Sessions.step cfg cr s l = some s') : Over Q s' := by
  intro m hm hQ halive
  have old : m ∈ s.minted → (s'.calls m.maker).pending = true := by
    intro hold
    by_contra hset
    have hsettled : Settled s m := settled_before hl hh hs hold (Bool.eq_false_iff.mpr hset) halive
    have hpending := h m hold hQ (alive_before hs hold halive)
    rw [hsettled] at hpending
    cases hpending
  cases step_move cfg cr hs with
  | loginStored u v hc hf =>
    rcases List.mem_cons.mp hm with rfl | hold
    · exact absurd hQ (hok hf u v hc)
    · exact old hold
  | rotated n ck hc hf hv =>
    rcases List.mem_cons.mp hm with rfl | hold
    · have hreturned : n ∈ s.returned := hl.presented _ n (by rw [hc]; rfl)
      rw [h.refused hl hreturned hQ] at hv
      cases hv
    · exact old hold
  | stale n ck hc hf hv =>
    rcases List.mem_cons.mp hm with rfl | hold
    · show Call.pending (Sys.calls (Sys.goto s _ _) _) = true
      rw [mint, Sys.goto_self]
      rfl
    · exact old hold
  | _ => exact old hm

/- No call gets hold of a younger token of the kind. -/
theorem over_run {ls : List Label} (h : Over Q s) (hl : Ledger s) (hh : Heirs s.calls)
    {limit : ℕ} (hlimit : ∀ c m, issues (s.calls c) = some m → m.exp ≤ limit)
    (hok : Along (Sessions.step cfg cr) (NoneNew Q) s ls)
    (hr : run (Sessions.step cfg cr) s ls = some s') :
    (Ledger s' ∧ Heirs s'.calls) ∧ Over Q s' ∧ ∀ c m, issues (s'.calls c) = some m →
      Q m.sub m.family m.verified → m.exp ≤ limit := by
  refine run_invariant (fun s => (Ledger s ∧ Heirs s.calls) ∧ Over Q s ∧
    ∀ c m, issues (s.calls c) = some m → Q m.sub m.family m.verified → m.exp ≤ limit)
    (NoneNew Q) ?_ ⟨⟨hl, hh⟩, h, fun c m hm _ => hlimit c m hm⟩ hok hr
  rintro s l s' ⟨⟨hl, hh⟩, hover, hold⟩ hok hs
  refine ⟨⟨hl.step hh hs, heirs_step hh hs⟩, hover.step hl hh hok hs, fun c m hm hQ => ?_⟩
  rcases issues_step hs hm with hbefore | hnew
  · exact hold c m hbefore hQ
  · cases hnew with
    | login u v hc =>
      cases step_move cfg cr hs with
      | loginStored u' v' hc' hf => exact absurd hQ (hok hf u v hc)
    | exchange n ck hc hv =>
      have hreturned : n ∈ s.returned := hl.presented c n (by rw [hc]; rfl)
      rw [hover.refused hl hreturned hQ] at hv
      cases hv

/- What clients can still do with the tokens of sessions that were over at that time. -/
structure Ended (cfg : Settings) (Q : Kind) (time : ℕ) (t : State) : Prop where
  exchanges : ∀ m ∈ t.sys.returned, Q m.sub m.family m.verified →
    isRefreshJtiValid t.sys.now m.sub m.jti t.sys.redis = false
  requests : ∀ a ∈ t.handed, Q a.pair.sub a.pair.family a.pair.verified → ∀ u,
    getCurrentUser t.sys.now t.sys.users (.access a) = some u →
      t.sys.now / 1000 ≤ time / 1000 + accessTtl cfg

theorem ended_run {ls ms : List Label} (hr : run (step cfg cr) (start now users) ls = some t)
    (h : Over Q t.sys) (hok : Along (Sessions.step cfg cr) (NoneNew Q) t.sys ms)
    (hr' : run (step cfg cr) t ms = some t') : Ended cfg Q t.sys.now t' := by
  obtain ⟨⟨hl, hh⟩, htraced⟩ := traced_run (run_sys hr)
  have hlimit : ∀ c m, issues (t.sys.calls c) = some m →
      m.exp ≤ t.sys.now / 1000 + cfg.refreshTtl := by
    intro c m hm
    obtain ⟨made, -, hle, hexp, -⟩ := htraced.issued c m hm
    omega
  obtain ⟨⟨hl', -⟩, hover, hexp⟩ := over_run h hl hh hlimit hok (run_sys hr')
  have hwhole : run (step cfg cr) (start now users) (ls ++ ms) = some t' := by
    rw [run_append, hr]
    exact hr'
  refine ⟨fun m hm hQ => hover.refused hl' hm hQ, fun a ha hQ u hu => ?_⟩
  obtain ⟨hpair, -, hfits⟩ := (paired_run hwhole).handed a ha
  have hle := hexp _ _ (issues_of_delivered (hl'.handed a.pair hpair)) hQ
  have hvalid := (getCurrentUser_some hu).1
  omega

theorem unexpired_of_valid {ls : List Label}
    (hr : run (Sessions.step cfg cr) (Sessions.init now users) ls = some s) {m : Minted}
    (hm : m ∈ s.returned) (hvalid : isRefreshJtiValid s.now m.sub m.jti s.redis = true) :
    m.unexpired s.now = true := by
  obtain ⟨⟨hl, -⟩, htraced⟩ := traced_run hr
  obtain ⟨made, -, -, hexp, hdeadline⟩ :=
    htraced.issued _ _ (issues_of_delivered (hl.handed m hm))
  obtain ⟨d, hd, hle⟩ := (ExpiringStore.alive_iff _ _ _).mp hvalid
  have hd := hdeadline d hd
  simp only [Minted.unexpired, expiry, decide_eq_true_eq] at *
  omega

/- Logging out with the token of a session that is open. -/
theorem over_of_logout {ls : List Label}
    (hr : run (Sessions.step cfg cr) (Sessions.init now users) ls = some s) {c : ℕ} {m : Minted}
    (hvalid : isRefreshJtiValid s.now m.sub m.jti s.redis = true)
    (hs : Sessions.step cfg cr s (.logout c m) = some s') :
    Over (fun _ family _ => family = m.family) s' := by
  obtain ⟨⟨hl, hh⟩, -⟩ := traced_run hr
  intro n hn hfamily halive
  by_contra hset
  cases step_move cfg cr hs with
  | loggedOut hc hm =>
    have hsettled := settled_before hl hh hs hn (Bool.eq_false_iff.mpr hset) halive
    have hopen := alive_before hs hn halive
    have hsame : n = m := hl.single n hn m (hl.returned_minted hm) hfamily
      (stored_of_alive hopen) (stored_of_alive hvalid) hsettled
      (Call.settled_of_delivered (hl.handed m hm))
    subst hsame
    have hdead : ExpiringStore.alive s.now n.key (revokeRefreshJti n.sub n.jti s.redis) = false :=
      ExpiringStore.not_alive_del _ _ _
    dsimp only at halive
    rw [unexpired_of_valid hr hm hvalid, if_pos rfl] at halive
    exact absurd (hdead.symm.trans halive) Bool.false_ne_true

theorem family_closed {ls : List Label} (hl : Ledger s) (hh : Heirs s.calls) {f : String}
    (hroot : ∃ r ∈ s.minted, r.jti = f) :
    Along (Sessions.step cfg cr) (NoneNew fun _ family _ => family = f) s ls := by
  refine along_of_invariant
    (fun s => (Ledger s ∧ Heirs s.calls) ∧ ∃ r ∈ s.minted, r.jti = f) ?_ ?_
    ⟨⟨hl, hh⟩, hroot⟩ (along_true s ls)
  · rintro s l s' ⟨⟨hl, hh⟩, r, hr, hjti⟩ - hs
    refine ⟨⟨hl.step hh hs, heirs_step hh hs⟩, r, ?_, hjti⟩
    rcases minted_step hs with hsame | ⟨k, hnew, -⟩
    · exact hsame ▸ hr
    · exact hnew ▸ List.mem_cons_of_mem k hr
  · rintro s l ⟨-, r, hr, hjti⟩ -
    cases l with
    | loginStore c jti =>
      intro hf u v hc hfamily
      exact fresh_ne hf r hr (hjti.trans hfamily.symm)
    | _ => trivial

/- Whoever logs out with the token of an open session leaves nobody in it: none of its
tokens is exchanged again, and its access tokens open the API for half an hour at most. -/
theorem logout_ends_session {ls ms : List Label}
    (hr : run (step cfg cr) (start now users) ls = some t) {c : ℕ} {m : Minted}
    (hvalid : isRefreshJtiValid t.sys.now m.sub m.jti t.sys.redis = true)
    (hr' : run (step cfg cr) t (.logout c m :: ms) = some t') :
    Ended cfg (fun _ family _ => family = m.family) t.sys.now t' := by
  obtain ⟨t₁, ht₁, hrest⟩ := run_cons hr'
  have hs := step_sys ht₁
  have hrun : run (step cfg cr) (start now users) (ls ++ [.logout c m]) = some t₁ := by
    rw [run_snoc, hr]
    exact ht₁
  obtain ⟨⟨hl, hh⟩, -⟩ := traced_run (run_sys hrun)
  have hnow : t₁.sys.now = t.sys.now ∧ m ∈ t₁.sys.returned := by
    have hmove := step_move cfg cr hs
    generalize t₁.sys = s₁ at hmove
    cases hmove with
    | loggedOut hc hm => exact ⟨rfl, hm⟩
  have hroot := hl.rooted m (hl.returned_minted hnow.2)
  have hended := ended_run hrun (over_of_logout (run_sys hr) hvalid hs)
    (family_closed hl hh hroot) hrest
  rwa [hnow.1] at hended

theorem logged_out_after_login : ∃ t, run (step {} tabledCrypto) (start 0 [alice])
    (aliceLogin ++ [.logout 3 aliceToken, .tick 1800999]) = some t ∧
      getCurrentUser t.sys.now t.sys.users (.access ⟨1, 1800, aliceToken⟩) = some alice ∧
      Ended {} (fun _ family _ => family = "j0") 0 t := by
  have hlogin : run (step {} tabledCrypto) (start 0 [alice]) aliceLogin = some _ := rfl
  have hlogout : run (step {} tabledCrypto) (start 0 [alice])
    (aliceLogin ++ [.logout 3 aliceToken, .tick 1800999]) = some _ := rfl
  exact ⟨_, hlogout, rfl, logout_ends_session hlogin (c := 3) (m := aliceToken) rfl
    (show run (step {} tabledCrypto) _ [.logout 3 aliceToken, .tick 1800999] = some _ from rfl)⟩

/- A reset of the password that has answered, on a schedule on which no login or exchange
slips past it: the sessions opened with the old password are over. -/
theorem reset_locks_out {ls ms : List Label}
    (hsafe : Along (Sessions.step cfg cr) ResetSafe (Sessions.init now users) ls)
    (hr : run (step cfg cr) (start now users) ls = some t) {r u cm b : ℕ}
    (hdone : t.sys.calls r = .resetDone u cm b)
    (hsafe' : Along (Sessions.step cfg cr) ResetSafe t.sys ms)
    (hr' : run (step cfg cr) t ms = some t') :
    Ended cfg (fun sub _ verified => sub = u ∧ verified < cm) t.sys.now t' := by
  have hresetting : (t.sys.calls r).resetting = some (u, cm, []) := by
    rw [hdone]
    rfl
  have hpurging : Purging t.sys := by
    have hall : (Ledger t.sys ∧ Heirs t.sys.calls) ∧ Purging t.sys := by
      refine run_invariant (fun s => (Ledger s ∧ Heirs s.calls) ∧ Purging s) ResetSafe ?_ ?_ hsafe
        (run_sys hr)
      · rintro s l s' ⟨⟨hl, hh⟩, hp⟩ hok hs
        exact ⟨⟨hl.step hh hs, heirs_step hh hs⟩, hp.step hl hh hok hs⟩
      · refine ⟨⟨Ledger.init now users, ?_⟩, ?_⟩
        · intro c m k hk
          cases hk
        · intro r u cm keys hr
          cases hr
    exact hall.2
  refine ended_run hr ?_ ?_ hr'
  · rintro m hm ⟨hu, hv⟩ halive
    by_contra hset
    exact absurd (hpurging r u cm [] hresetting m hm ⟨hu, hv⟩ (Bool.eq_false_iff.mpr hset) halive)
      List.not_mem_nil
  · refine along_of_invariant (fun s => s.calls r = .resetDone u cm b) ?_ ?_ hdone hsafe'
    · intro s l s' hdone _ hs
      exact (call_kept hs r).2 u cm b hdone
    · intro s l hdone hok
      cases l with
      | loginStore c jti =>
        rintro - w v hc ⟨hw, hv⟩
        have hle := hok w v hc r cm [] (by rw [hdone, hw]; rfl)
        omega
      | _ => trivial

theorem locked_out_after_reset : ∃ t,
    run (step {} tabledCrypto) (start 0 [alice]) (aliceResetAfterLogin ++ [.tick 1800999]) =
      some t ∧
    getCurrentUser t.sys.now t.sys.users (.access ⟨1, 1800, aliceToken⟩) ≠ none ∧
    Ended {} (fun sub _ verified => sub = 1 ∧ verified < 5) 0 t := by
  have hreset : run (step {} tabledCrypto) (start 0 [alice]) aliceResetAfterLogin = some _ := rfl
  have hlater : run (step {} tabledCrypto) (start 0 [alice])
    (aliceResetAfterLogin ++ [.tick 1800999]) = some _ := rfl
  have hsafe : Along (Sessions.step {} tabledCrypto) ResetSafe (Sessions.init 0 [alice])
      aliceResetAfterLogin := by
    refine ⟨trivial, fun s₁ h₁ => ?_⟩
    obtain rfl := Option.some.inj h₁
    refine ⟨?_, fun s₂ h₂ => ?_⟩
    · intro u v _ r cm keys hr
      have hnone := role_update Call.resetting (Sessions.init 0 [alice]).calls 0
        (.loginVerified 1 0) rfl r
      cases hnone.symm.trans hr
    · exact ⟨trivial, fun _ _ => ⟨trivial, fun _ _ => ⟨trivial, fun _ _ => ⟨trivial, fun _ _ =>
        ⟨trivial, fun _ _ => ⟨trivial, fun _ _ => ⟨trivial, fun _ _ => trivial⟩⟩⟩⟩⟩⟩⟩
  exact ⟨_, hlater, nofun, reset_locks_out hsafe hreset (r := 2) rfl
    (by exact ⟨trivial, fun _ _ => trivial⟩)
    (show run (step {} tabledCrypto) _ [.tick 1800999] = some _ from rfl)⟩

end

end PulseWatch.AccessTokens
