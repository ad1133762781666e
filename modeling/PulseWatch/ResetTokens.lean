import PulseWatch.SessionReset

/-!
# Password-reset tokens

`forgot_password` stores each token under a key of its own and `reset_password`
removes only the key of the token it is given. A log beside the session machine
keeps which tokens were issued, which were consumed and which changed a password;
from it follows how long each token lives, whatever happens to the others.
-/

namespace PulseWatch.ResetTokens
open Sessions RedisClient ExpiringStore

/- A token `forgot_password` stored: for whom, at which step and clock reading. -/
structure Issue where
  token : String
  userId : ℕ
  step : ℕ
  time : ℕ
  deriving DecidableEq, Repr

/- A token `consume_password_reset_token` returned a user for, and to which call. -/
structure Spend where
  call : ℕ
  token : String
  userId : ℕ
  time : ℕ
  deriving DecidableEq, Repr

/- A committed password change and the token its call had consumed. -/
structure Change where
  call : ℕ
  token : String
  userId : ℕ
  step : ℕ
  deriving DecidableEq, Repr

structure Log where
  issued : List Issue := []
  spent : List Spend := []
  changed : List Change := []

def Log.Spent (g : Log) (token : String) : Prop := ∃ p ∈ g.spent, p.token = token

/- What the step from `s` to `s'` adds to the log. -/
def Log.note (g : Log) (s s' : Sys) : Label → Log
  | .forgot _ email token =>
    match s.users.find? fun u => u.email = email with
    | some u => { g with issued := ⟨token, u.id, s.clock, s.now⟩ :: g.issued }
    | none => g
  | .resetConsume c token _ =>
    match s'.calls c with
    | .resetConsumed u _ => { g with spent := ⟨c, token, u, s.now⟩ :: g.spent }
    | _ => g
  | .resetCommit c _ =>
    match s'.calls c with
    | .resetCommitted u k =>
      { g with changed := ((g.spent.filter fun p => p.call = c).map fun p =>
          ⟨c, p.token, u, k⟩) ++ g.changed }
    | _ => g
  | _ => g

structure Tracked where
  sys : Sys
  log : Log

def start (now : ℕ) (users : List User) : Tracked := ⟨Sessions.init now users, {}⟩

/- `secrets.token_urlsafe(32)` does not repeat itself. -/
def Tracked.fresh (t : Tracked) : Label → Bool
  | .forgot _ _ token => !(t.log.issued.map Issue.token).contains token
  | _ => true

section
variable (cfg : Settings) (cr : Crypto)

def Tracked.step (t : Tracked) (l : Label) : Option Tracked :=
  if t.fresh l then (Sessions.step cfg cr t.sys l).map fun s => ⟨s, t.log.note t.sys s l⟩
  else none

end

/- What a presented token is worth. -/
def Tracked.redeems (t : Tracked) (token : String) : Option ℕ :=
  (consumePasswordResetToken t.sys.now token t.sys.redis).1

/- Once a reset of a user's password is committed, no token issued to that user
before it changes the password again. -/
def Superseding (t : Tracked) : Prop :=
  ∀ i ∈ t.log.issued, ∀ a ∈ t.log.changed, ∀ b ∈ t.log.changed,
    a.userId = i.userId → i.step < a.step → a.step < b.step → b.token ≠ i.token

/- The tokens live and die on their own. -/
structure Independent (cfg : Settings) (t : Tracked) : Prop where
  redeems : ∀ token u, t.redeems token = some u ↔
    ∃ i ∈ t.log.issued, i.token = token ∧ i.userId = u ∧ ¬ t.log.Spent token ∧
      t.sys.now ≤ expiry i.time cfg.passwordResetTokenTtlSeconds
  /- Every committed reset stands in the log, -/
  recorded : ∀ c u k, t.sys.calls c = .resetCommitted u k →
    ∃ a ∈ t.log.changed, a.call = c ∧ a.userId = u ∧ a.step = k
  /- changed the password of the user its token was issued to, by a token
  consumed in time, -/
  entitled : ∀ a ∈ t.log.changed, ∃ i ∈ t.log.issued, i.token = a.token ∧
    i.userId = a.userId ∧ ∃ p ∈ t.log.spent, p.call = a.call ∧ p.token = a.token ∧
      i.time ≤ p.time ∧ p.time ≤ expiry i.time cfg.passwordResetTokenTtlSeconds
  /- and its token is of no more use to anyone. -/
  once : ∀ a ∈ t.log.changed, ∀ b ∈ t.log.changed, a.token = b.token → a = b
  dead : ∀ a ∈ t.log.changed, t.redeems a.token = none

/-! ### One step -/

def aside : Call → Prop
  | .idle | .resetConsumed _ _ | .resetCommitted _ _ => False
  | _ => True

def ofReset : Label → Bool
  | .forgot .. | .resetConsume .. | .resetCommit .. => true
  | _ => false

/- A step that issues, consumes and commits nothing: a live token stays, and no
entry appears. -/
structure Quiet (t t' : Tracked) : Prop where
  log : t'.log = t.log
  now : t.sys.now ≤ t'.sys.now
  found : ∀ token e, find? (.passwordReset token) t'.sys.redis = some e →
    find? (.passwordReset token) t.sys.redis = some e
  live : ∀ token n d, find? (.passwordReset token) t.sys.redis
      = some ⟨.passwordReset token, .userId n, d⟩ → t'.sys.now ≤ d →
    find? (.passwordReset token) t'.sys.redis = some ⟨.passwordReset token, .userId n, d⟩
  calls : ∀ c, t'.sys.calls c = t.sys.calls c ∨ aside (t'.sys.calls c)

inductive Turn (cfg : Settings) (t : Tracked) : Tracked → Prop
  | issued (c token) (u : User) : t.sys.calls c = .idle →
      (∀ i ∈ t.log.issued, i.token ≠ token) →
      Turn cfg t ⟨{ t.sys.goto c .forgotten with
          redis := storePasswordResetToken t.sys.now token u.id cfg.passwordResetTokenTtlSeconds
            t.sys.redis },
        { t.log with issued := ⟨token, u.id, t.sys.clock, t.sys.now⟩ :: t.log.issued }⟩
  | spent (c token pw u) : t.sys.calls c = .idle → t.redeems token = some u →
      Turn cfg t ⟨{ t.sys.goto c (.resetConsumed u pw) with
          redis := (consumePasswordResetToken t.sys.now token t.sys.redis).2 },
        { t.log with spent := ⟨c, token, u, t.sys.now⟩ :: t.log.spent }⟩
  | changed (c u pw hash) : t.sys.calls c = .resetConsumed u pw →
      Turn cfg t ⟨{ t.sys.goto c (.resetCommitted u t.sys.clock) with
          users := setPasswordHash u hash t.sys.users },
        { t.log with changed := ((t.log.spent.filter fun p => p.call = c).map fun p =>
            ⟨c, p.token, u, t.sys.clock⟩) ++ t.log.changed }⟩
  | quiet {t'} : Quiet t t' → Turn cfg t t'

theorem redeems_eq (t : Tracked) (token : String) (u : ℕ) :
    t.redeems token = some u ↔ ∃ e, find? (.passwordReset token) t.sys.redis = some e ∧
      e.value = .userId u ∧ t.sys.now ≤ e.deadline := by
  unfold Tracked.redeems consumePasswordResetToken get?
  cases hf : find? (.passwordReset token) t.sys.redis with
  | none => simp
  | some e =>
    by_cases hd : t.sys.now ≤ e.deadline
    · cases hv : e.value <;> simp [hd, hv]
    · simp [hd]

section
variable {cfg : Settings} {cr : Crypto} {t t' : Tracked}

theorem quiet_goto {s : Sys} {c : ℕ} {p : Call}
    (hcalls : s.calls = Function.update t.sys.calls c p) (hp : aside p)
    (hnow : s.now = t.sys.now)
    (hr : ∀ token, find? (.passwordReset token) s.redis =
      find? (.passwordReset token) t.sys.redis) : Quiet t ⟨s, t.log⟩ := by
  refine ⟨rfl, Nat.le_of_eq hnow.symm, ?_, ?_, ?_⟩
  · intro token e he
    rw [← hr token]
    exact he
  · intro token n d he _
    show find? (.passwordReset token) s.redis = _
    rw [hr token]
    exact he
  · intro x
    show s.calls x = t.sys.calls x ∨ aside (s.calls x)
    rw [hcalls]
    by_cases hx : x = c
    · subst hx
      rw [Function.update_self]
      exact Or.inr hp
    · rw [Function.update_of_ne hx]
      exact Or.inl rfl

theorem quiet_refused {c : ℕ} {status : ℕ} {token : String}
    (hn : t.redeems token = none) :
    Quiet t ⟨{ t.sys.goto c (.failed status) with
      redis := (consumePasswordResetToken t.sys.now token t.sys.redis).2 }, t.log⟩ := by
  refine ⟨rfl, Nat.le_refl _, ?_, ?_, ?_⟩
  · intro x e he
    by_cases hx : x = token
    · subst hx
      have hnone := find?_del_self (V := RedisValue) (T := ℕ) (RedisKey.passwordReset x)
        t.sys.redis
      cases hnone.symm.trans he
    · have hk : RedisKey.passwordReset x ≠ .passwordReset token := by
        intro h
        exact hx (RedisKey.passwordReset.inj h)
      exact (find?_del_ne _ _ t.sys.redis hk).symm.trans he
  · intro x n d he hd
    have hx : x ≠ token := by
      rintro rfl
      have hs := (redeems_eq t x n).mpr ⟨_, he, rfl, hd⟩
      rw [hn] at hs
      cases hs
    have hk : RedisKey.passwordReset x ≠ .passwordReset token := by
      intro h
      exact hx (RedisKey.passwordReset.inj h)
    exact (find?_del_ne _ _ t.sys.redis hk).trans he
  · intro x
    by_cases hx : x = c
    · subst hx
      exact Or.inr (by simp [aside])
    · exact Or.inl (Sys.goto_ne t.sys hx _)

theorem quiet_other {l : Label} {s : Sys} (hs : Sessions.step cfg cr t.sys l = some s)
    (hl : ofReset l = false) : Quiet t ⟨s, t.log⟩ := by
  have hset : ∀ token (k : RedisKey) v d (r : Redis), (∀ x, k ≠ .passwordReset x) →
      find? (.passwordReset token) (set k v d r) = find? (.passwordReset token) r := by
    intro token k v d r hk
    exact find?_set_ne _ _ _ _ _ (Ne.symm (hk token))
  have hdel : ∀ token (k : RedisKey) (r : Redis), (∀ x, k ≠ .passwordReset x) →
      find? (.passwordReset token) (del k r) = find? (.passwordReset token) r := by
    intro token k r hk
    exact find?_del_ne _ _ _ (Ne.symm (hk token))
  cases step_move cfg cr hs with
  | tick ms =>
    exact ⟨rfl, Nat.le_add_right _ _, fun _ _ h => h, fun _ _ _ h _ => h, fun _ => Or.inl rfl⟩
  | loggedOut hc hm =>
    refine quiet_goto rfl trivial rfl fun token => ?_
    dsimp only
    split
    · exact hdel _ _ _ (by intro x hx; cases hx)
    · rfl
  | rotated | stale =>
    refine quiet_goto rfl trivial rfl fun token => ?_
    dsimp only [rotatePipeline]
    rw [hset _ _ _ _ _ (by intro x hx; cases hx), hdel _ _ _ (by intro x hx; cases hx)]
  | loginStored | refreshed =>
    exact quiet_goto rfl trivial rfl fun token => hset _ _ _ _ _ (by intro x hx; cases hx)
  | refused =>
    exact quiet_goto rfl trivial rfl fun token => hdel _ _ _ (by intro x hx; cases hx)
  | revoked why began scan hc hk =>
    refine quiet_goto rfl trivial rfl fun token => hdel _ _ _ ?_
    rintro x rfl
    cases hk
  | forgotten | forgottenNobody | resetTooShort | resetConsumed | resetUnknown | resetCommitted
  | resetFailed => cases hl
  | loginFailed | loginVerified | loggedIn | expired | reuseFound | unused | reuseScan
  | resetScan | reuseRefused | resetDone => exact quiet_goto rfl trivial rfl fun _ => rfl

theorem step_turn {l : Label} (h : t.step cfg cr l = some t') : Turn cfg t t' := by
  unfold Tracked.step at h
  split at h
  · next hfresh =>
    obtain ⟨s, hs, rfl⟩ := Option.map_eq_some_iff.mp h
    cases l with
    | forgot c email token =>
      simp only [Sessions.step] at hs
      split at hs
      · next hc =>
        split at hs
        · next u hu =>
          obtain rfl := Option.some.inj hs
          simp only [Log.note, hu]
          refine .issued c token u hc ?_
          intro i hi he
          simp only [Tracked.fresh, Bool.not_eq_true', List.contains_eq_mem,
            decide_eq_false_iff_not] at hfresh
          exact hfresh (he ▸ List.mem_map_of_mem hi)
        · next hu =>
          obtain rfl := Option.some.inj hs
          simp only [Log.note, hu]
          exact .quiet (quiet_goto rfl trivial rfl fun _ => rfl)
      · cases hs
    | resetConsume c token pw =>
      simp only [Sessions.step] at hs
      split at hs
      · next hc =>
        split at hs
        · obtain rfl := Option.some.inj hs
          simp only [Log.note, Sys.goto_self]
          exact .quiet (quiet_goto rfl trivial rfl fun _ => rfl)
        · obtain rfl := Option.some.inj hs
          cases hu : (consumePasswordResetToken t.sys.now token t.sys.redis).1 with
          | none =>
            simp only [Log.note, Sys.goto_self]
            exact .quiet (quiet_refused hu)
          | some u =>
            simp only [Log.note, Sys.goto_self]
            exact .spent c token pw u hc hu
      · cases hs
    | resetCommit c salt =>
      simp only [Sessions.step] at hs
      split at hs
      · next u pw hc =>
        split at hs
        · split at hs
          · next hash hh =>
            obtain rfl := Option.some.inj hs
            simp only [Log.note, Sys.goto_self]
            exact .changed c u pw hash hc
          · obtain rfl := Option.some.inj hs
            simp only [Log.note, Sys.goto_self]
            exact .quiet (quiet_goto rfl trivial rfl fun _ => rfl)
        · obtain rfl := Option.some.inj hs
          simp only [Log.note, Sys.goto_self]
          exact .quiet (quiet_goto rfl trivial rfl fun _ => rfl)
      · cases hs
    | tick | loginVerify | loginStore | loginReturn | refreshCheck | refreshRotate | refreshMark
    | refreshRollback | revokeBegin | revokeDelete | revokeEnd | logout =>
      exact .quiet (quiet_other hs rfl)
  · cases h

/-! ### Every run -/

def Issue.entry (cfg : Settings) (i : Issue) : Entry RedisKey RedisValue ℕ :=
  ⟨.passwordReset i.token, .userId i.userId, expiry i.time cfg.passwordResetTokenTtlSeconds⟩

/- The unspent tokens are the reset keys, as long as they live; consumed ones are
spent by one call each, which commits at most once. -/
structure Sound (cfg : Settings) (t : Tracked) : Prop where
  stored : ∀ token e, find? (.passwordReset token) t.sys.redis = some e →
    ∃ i ∈ t.log.issued, i.token = token ∧ e = i.entry cfg ∧ ¬ t.log.Spent token
  kept : ∀ i ∈ t.log.issued, ¬ t.log.Spent i.token → t.sys.now ≤ (i.entry cfg).deadline →
    find? (.passwordReset i.token) t.sys.redis = some (i.entry cfg)
  past : ∀ i ∈ t.log.issued, i.time ≤ t.sys.now
  spends : ∀ p ∈ t.log.spent, ∃ i ∈ t.log.issued, i.token = p.token ∧ i.userId = p.userId ∧
    i.time ≤ p.time ∧ p.time ≤ (i.entry cfg).deadline
  token_once : ∀ p ∈ t.log.spent, ∀ q ∈ t.log.spent, p.token = q.token → p = q
  call_once : ∀ p ∈ t.log.spent, ∀ q ∈ t.log.spent, p.call = q.call → p = q
  busy : ∀ p ∈ t.log.spent, t.sys.calls p.call ≠ .idle
  holding : ∀ c u pw, t.sys.calls c = .resetConsumed u pw →
    (∃ p ∈ t.log.spent, p.call = c ∧ p.userId = u) ∧ ∀ a ∈ t.log.changed, a.call ≠ c
  recorded : ∀ c u k, t.sys.calls c = .resetCommitted u k →
    ∃ a ∈ t.log.changed, a.call = c ∧ a.userId = u ∧ a.step = k
  changes : ∀ a ∈ t.log.changed,
    ∃ p ∈ t.log.spent, p.call = a.call ∧ p.token = a.token ∧ p.userId = a.userId
  change_once : ∀ a ∈ t.log.changed, ∀ b ∈ t.log.changed, a.call = b.call → a = b

theorem sound_start (now : ℕ) (users : List User) : Sound cfg (start now users) where
  stored := by intro token e he; cases he
  kept := by intro i hi; cases hi
  past := by intro i hi; cases hi
  spends := by intro p hp; cases hp
  token_once := by intro p hp; cases hp
  call_once := by intro p hp; cases hp
  busy := by intro p hp; cases hp
  holding := by intro c u pw hc; cases hc
  recorded := by intro c u k hc; cases hc
  changes := by intro a ha; cases ha
  change_once := by intro a ha; cases ha

theorem key_ne {x y : String} (h : x ≠ y) : RedisKey.passwordReset x ≠ .passwordReset y := by
  intro he
  exact h (RedisKey.passwordReset.inj he)

namespace Sound

theorem quiet (h : Sound cfg t) (hq : Quiet t t') : Sound cfg t' := by
  have hidle : ∀ c, t'.sys.calls c = .idle → t.sys.calls c = .idle := by
    intro c hc
    rcases hq.calls c with he | ha
    · rw [← he]
      exact hc
    · rw [hc] at ha
      exact ha.elim
  refine ⟨?_, ?_, ?_, ?_, ?_, ?_, ?_, ?_, ?_, ?_, ?_⟩
  · intro token e he
    rw [hq.log]
    exact h.stored token e (hq.found token e he)
  · intro i hi hn hd
    rw [hq.log] at hi hn
    exact hq.live _ _ _ (h.kept i hi hn (hq.now.trans hd)) hd
  · intro i hi
    rw [hq.log] at hi
    exact (h.past i hi).trans hq.now
  · rw [hq.log]
    exact h.spends
  · rw [hq.log]
    exact h.token_once
  · rw [hq.log]
    exact h.call_once
  · intro p hp hc
    rw [hq.log] at hp
    exact h.busy p hp (hidle p.call hc)
  · intro c u pw hc
    rw [hq.log]
    rcases hq.calls c with he | ha
    · exact h.holding c u pw (he ▸ hc)
    · rw [hc] at ha
      exact ha.elim
  · intro c u k hc
    rw [hq.log]
    rcases hq.calls c with he | ha
    · exact h.recorded c u k (he ▸ hc)
    · rw [hc] at ha
      exact ha.elim
  · rw [hq.log]
    exact h.changes
  · rw [hq.log]
    exact h.change_once

theorem unspent_fresh (h : Sound cfg t) {token : String}
    (hnew : ∀ i ∈ t.log.issued, i.token ≠ token) : ¬ t.log.Spent token := by
  rintro ⟨p, hp, rfl⟩
  obtain ⟨i, hi, ht, -⟩ := h.spends p hp
  exact hnew i hi ht

theorem issued (h : Sound cfg t) {c : ℕ} {token : String} {u : User}
    (hnew : ∀ i ∈ t.log.issued, i.token ≠ token) :
    Sound cfg ⟨{ t.sys.goto c .forgotten with
        redis := storePasswordResetToken t.sys.now token u.id cfg.passwordResetTokenTtlSeconds
          t.sys.redis },
      { t.log with issued := ⟨token, u.id, t.sys.clock, t.sys.now⟩ :: t.log.issued }⟩ := by
  have hunspent := h.unspent_fresh hnew
  have hcall : ∀ x p, (t.sys.goto c .forgotten).calls x = p → p ≠ .forgotten →
      t.sys.calls x = p := by
    intro x p hx hp
    by_cases hxc : x = c
    · subst hxc
      rw [Sys.goto_self] at hx
      exact absurd hx.symm hp
    · rw [Sys.goto_ne _ hxc] at hx
      exact hx
  refine ⟨?_, ?_, ?_, ?_, h.token_once, h.call_once, ?_, ?_, ?_, h.changes, h.change_once⟩
  · intro x e he
    by_cases hx : x = token
    · subst hx
      have hself := find?_set_self (RedisKey.passwordReset x) (RedisValue.userId u.id)
        (expiry t.sys.now cfg.passwordResetTokenTtlSeconds) t.sys.redis
      obtain rfl := Option.some.inj (hself.symm.trans he)
      exact ⟨_, List.mem_cons_self, rfl, rfl, hunspent⟩
    · have hother := (find?_set_ne _ _ (RedisValue.userId u.id)
        (expiry t.sys.now cfg.passwordResetTokenTtlSeconds) t.sys.redis (key_ne hx)).symm.trans he
      obtain ⟨i, hi, hrest⟩ := h.stored x e hother
      exact ⟨i, List.mem_cons_of_mem _ hi, hrest⟩
  · intro i hi hn hd
    rcases List.mem_cons.mp hi with rfl | hi
    · exact find?_set_self _ _ _ _
    · exact (find?_set_ne _ _ _ _ t.sys.redis (key_ne (hnew i hi))).trans (h.kept i hi hn hd)
  · intro i hi
    rcases List.mem_cons.mp hi with rfl | hi
    · exact Nat.le_refl _
    · exact h.past i hi
  · intro p hp
    obtain ⟨i, hi, hrest⟩ := h.spends p hp
    exact ⟨i, List.mem_cons_of_mem _ hi, hrest⟩
  · intro p hp hc
    exact h.busy p hp (hcall _ _ hc (by intro hx; cases hx))
  · intro x v pw hx
    exact h.holding x v pw (hcall _ _ hx (by intro hx; cases hx))
  · intro x v k hx
    exact h.recorded x v k (hcall _ _ hx (by intro hx; cases hx))

theorem spent (h : Sound cfg t) {c u : ℕ} {token pw : String} (hc : t.sys.calls c = .idle)
    (hr : t.redeems token = some u) :
    Sound cfg ⟨{ t.sys.goto c (.resetConsumed u pw) with
        redis := (consumePasswordResetToken t.sys.now token t.sys.redis).2 },
      { t.log with spent := ⟨c, token, u, t.sys.now⟩ :: t.log.spent }⟩ := by
  obtain ⟨e, he, hv, hd⟩ := (redeems_eq t token u).mp hr
  obtain ⟨i, hi, hit, rfl, hunspent⟩ := h.stored token e he
  have hiu : i.userId = u := RedisValue.userId.inj hv
  have hfirst : ∀ p ∈ t.log.spent, p.token ≠ token := by
    intro p hp ht
    exact hunspent ⟨p, hp, ht⟩
  have hnew : ∀ p ∈ t.log.spent, p.call ≠ c := by
    intro p hp hpc
    exact h.busy p hp (hpc ▸ hc)
  refine ⟨?_, ?_, h.past, ?_, ?_, ?_, ?_, ?_, ?_, ?_, h.change_once⟩
  · intro x e' hx
    by_cases hxt : x = token
    · subst hxt
      have hnone := find?_del_self (V := RedisValue) (T := ℕ) (RedisKey.passwordReset x)
        t.sys.redis
      cases hnone.symm.trans hx
    · have hother := (find?_del_ne _ _ t.sys.redis (key_ne hxt)).symm.trans hx
      obtain ⟨j, hj, hjt, hje, hjs⟩ := h.stored x e' hother
      refine ⟨j, hj, hjt, hje, ?_⟩
      rintro ⟨p, hp, hpx⟩
      rcases List.mem_cons.mp hp with rfl | hp
      · exact hxt hpx.symm
      · exact hjs ⟨p, hp, hpx⟩
  · intro j hj hn hjd
    have hjt : j.token ≠ token := by
      intro hjt
      exact hn ⟨_, List.mem_cons_self, hjt.symm⟩
    have hj' := h.kept j hj (fun ⟨p, hp, hpj⟩ => hn ⟨p, List.mem_cons_of_mem _ hp, hpj⟩) hjd
    exact (find?_del_ne _ _ t.sys.redis (key_ne hjt)).trans hj'
  · intro p hp
    rcases List.mem_cons.mp hp with rfl | hp
    · exact ⟨i, hi, hit, hiu, h.past i hi, hd⟩
    · exact h.spends p hp
  · intro p hp q hq hpq
    rcases List.mem_cons.mp hp with rfl | hp <;> rcases List.mem_cons.mp hq with rfl | hq
    · rfl
    · exact absurd hpq.symm (hfirst q hq)
    · exact absurd hpq (hfirst p hp)
    · exact h.token_once p hp q hq hpq
  · intro p hp q hq hpq
    rcases List.mem_cons.mp hp with rfl | hp <;> rcases List.mem_cons.mp hq with rfl | hq
    · rfl
    · exact absurd hpq.symm (hnew q hq)
    · exact absurd hpq (hnew p hp)
    · exact h.call_once p hp q hq hpq
  · intro p hp hidle
    by_cases hpc : p.call = c
    · rw [hpc] at hidle
      simp at hidle
    · rcases List.mem_cons.mp hp with rfl | hp
      · exact hpc rfl
      · exact h.busy p hp ((Sys.goto_ne _ hpc _).symm.trans hidle)
  · intro x v pw' hx
    by_cases hxc : x = c
    · subst hxc
      simp only [Sys.goto_self, Call.resetConsumed.injEq] at hx
      refine ⟨⟨_, List.mem_cons_self, rfl, hx.1⟩, ?_⟩
      intro a ha hax
      obtain ⟨p, hp, hpa, -⟩ := h.changes a ha
      exact hnew p hp (hpa.trans hax)
    · obtain ⟨⟨p, hp, hrest⟩, hch⟩ := h.holding x v pw' ((Sys.goto_ne _ hxc _).symm.trans hx)
      exact ⟨⟨p, List.mem_cons_of_mem _ hp, hrest⟩, hch⟩
  · intro x v k hx
    by_cases hxc : x = c
    · subst hxc
      simp at hx
    · exact h.recorded x v k ((Sys.goto_ne _ hxc _).symm.trans hx)
  · intro a ha
    obtain ⟨p, hp, hrest⟩ := h.changes a ha
    exact ⟨p, List.mem_cons_of_mem _ hp, hrest⟩

theorem changed (h : Sound cfg t) {c u : ℕ} {pw hash : String}
    (hc : t.sys.calls c = .resetConsumed u pw) :
    Sound cfg ⟨{ t.sys.goto c (.resetCommitted u t.sys.clock) with
        users := setPasswordHash u hash t.sys.users },
      { t.log with changed := ((t.log.spent.filter fun p => p.call = c).map fun p =>
          ⟨c, p.token, u, t.sys.clock⟩) ++ t.log.changed }⟩ := by
  obtain ⟨⟨p, hp, hpc, hpu⟩, hfirst⟩ := h.holding c u pw hc
  have hnew : ∀ a, a ∈ ((t.log.spent.filter fun q => q.call = c).map fun q =>
      (⟨c, q.token, u, t.sys.clock⟩ : Change)) ↔ a = ⟨c, p.token, u, t.sys.clock⟩ := by
    intro a
    constructor
    · intro ha
      obtain ⟨q, hq, rfl⟩ := List.mem_map.mp ha
      obtain ⟨hq, hqc⟩ := List.mem_filter.mp hq
      have hqp := h.call_once q hq p hp ((of_decide_eq_true hqc).trans hpc.symm)
      rw [hqp]
    · rintro rfl
      exact List.mem_map.mpr ⟨p, List.mem_filter.mpr ⟨hp, decide_eq_true hpc⟩, rfl⟩
  refine ⟨h.stored, h.kept, h.past, h.spends, h.token_once, h.call_once, ?_, ?_, ?_, ?_, ?_⟩
  · intro q hq hidle
    by_cases hqc : q.call = c
    · rw [hqc] at hidle
      simp at hidle
    · exact h.busy q hq ((Sys.goto_ne _ hqc _).symm.trans hidle)
  · intro x v pw' hx
    by_cases hxc : x = c
    · subst hxc
      simp at hx
    · obtain ⟨hspend, hch⟩ := h.holding x v pw' ((Sys.goto_ne _ hxc _).symm.trans hx)
      refine ⟨hspend, ?_⟩
      intro a ha
      rcases List.mem_append.mp ha with ha | ha
      · obtain rfl := (hnew a).mp ha
        exact Ne.symm hxc
      · exact hch a ha
  · intro x v k hx
    by_cases hxc : x = c
    · subst hxc
      simp only [Sys.goto_self, Call.resetCommitted.injEq] at hx
      obtain ⟨rfl, rfl⟩ := hx
      exact ⟨_, List.mem_append_left _ ((hnew _).mpr rfl), rfl, rfl, rfl⟩
    · obtain ⟨a, ha, hrest⟩ := h.recorded x v k ((Sys.goto_ne _ hxc _).symm.trans hx)
      exact ⟨a, List.mem_append_right _ ha, hrest⟩
  · intro a ha
    rcases List.mem_append.mp ha with ha | ha
    · obtain rfl := (hnew a).mp ha
      exact ⟨p, hp, hpc, rfl, hpu⟩
    · exact h.changes a ha
  · intro a ha b hb hab
    rcases List.mem_append.mp ha with ha | ha <;> rcases List.mem_append.mp hb with hb | hb
    · rw [(hnew a).mp ha, (hnew b).mp hb]
    · obtain rfl := (hnew a).mp ha
      exact absurd hab.symm (hfirst b hb)
    · obtain rfl := (hnew b).mp hb
      exact absurd hab (hfirst a ha)
    · exact h.change_once a ha b hb hab

theorem step {l : Label} (h : Sound cfg t) (hs : t.step cfg cr l = some t') : Sound cfg t' := by
  cases step_turn hs with
  | issued c token u hc hnew => exact h.issued hnew
  | spent c token pw u hc hr => exact h.spent hc hr
  | changed c u pw hash hc => exact h.changed hc
  | quiet hq => exact h.quiet hq

theorem redeems_iff (h : Sound cfg t) (token : String) (u : ℕ) :
    t.redeems token = some u ↔
      ∃ i ∈ t.log.issued, i.token = token ∧ i.userId = u ∧ ¬ t.log.Spent token ∧
        t.sys.now ≤ expiry i.time cfg.passwordResetTokenTtlSeconds := by
  rw [redeems_eq]
  constructor
  · rintro ⟨e, he, hv, hd⟩
    obtain ⟨i, hi, hit, rfl, hn⟩ := h.stored token e he
    exact ⟨i, hi, hit, RedisValue.userId.inj hv, hn, hd⟩
  · rintro ⟨i, hi, rfl, rfl, hn, hd⟩
    exact ⟨_, h.kept i hi hn hd, rfl, hd⟩

theorem independent (h : Sound cfg t) : Independent cfg t where
  redeems := h.redeems_iff
  recorded := h.recorded
  entitled := by
    intro a ha
    obtain ⟨p, hp, hpc, hpt, hpu⟩ := h.changes a ha
    obtain ⟨i, hi, hit, hiu, hlow, hhigh⟩ := h.spends p hp
    exact ⟨i, hi, hit.trans hpt, hiu.trans hpu, p, hp, hpc, hpt, hlow, hhigh⟩
  once := by
    intro a ha b hb hab
    obtain ⟨p, hp, hpc, hpt, -⟩ := h.changes a ha
    obtain ⟨q, hq, hqc, hqt, -⟩ := h.changes b hb
    have hpq := h.token_once p hp q hq (hpt.trans (hab.trans hqt.symm))
    exact h.change_once a ha b hb (hpc.symm.trans ((congrArg Spend.call hpq).trans hqc))
  dead := by
    intro a ha
    obtain ⟨p, hp, -, hpt, -⟩ := h.changes a ha
    cases hr : t.redeems a.token with
    | none => rfl
    | some u =>
      obtain ⟨i, hi, hit, hiu, hn, hd⟩ := (h.redeems_iff a.token u).mp hr
      exact absurd ⟨p, hp, hpt⟩ hn

end Sound

end

/- In every run each token is worth its user until it is consumed or its TTL is
over, whatever the other tokens do, and it changes that user's password at most
once. -/
theorem tokens_independent (cfg : Settings) (cr : Crypto) (now : ℕ) (users : List User)
    (ls : List Label) :
    Runs.Throughout (Tracked.step cfg cr) (Independent cfg) (start now users) ls :=
  Runs.throughout_of_invariant (Sound cfg) (Independent cfg) (fun _ _ => True)
    (fun _ _ _ h _ hs => h.step hs) (fun _ h => h.independent) (sound_start now users)
    (Runs.along_true _ ls)

/- Two links are mailed to alice; a reset with the first one is answered. -/
def aliceTwoLinks : List Label :=
  [.forgot 1 "alice@example.com" "t1", .forgot 2 "alice@example.com" "t2",
    .resetConsume 3 "t1" "new-secret", .resetCommit 3 "$2b$12$NewNewNewNewNewNewNewu",
    .revokeBegin 3, .revokeEnd 3]

/- The other link then sets the password back. -/
theorem older_token_resets_again :
    ∃ t t', Runs.run (Tracked.step {} tabledCrypto) (start 0 [alice]) aliceTwoLinks = some t ∧
      t.sys.calls 3 = .resetDone 1 3 4 ∧ t.redeems "t2" = some 1 ∧
      Runs.run (Tracked.step {} tabledCrypto) t [.resetConsume 4 "t2" "old-secret",
        .resetCommit 4 "$2b$12$OldOldOldOldOldOldOldu"] = some t' ∧
      t'.sys.users.map User.passwordHash ≠ t.sys.users.map User.passwordHash ∧
      ¬ Superseding t' := by
  refine ⟨_, _, rfl, rfl, rfl, rfl, by decide, ?_⟩
  intro h
  exact h ⟨"t2", 1, 1, 0⟩ (by decide) ⟨3, "t1", 1, 3⟩ (by decide) ⟨4, "t2", 1, 7⟩ (by decide)
    rfl (by decide) (by decide) rfl

end PulseWatch.ResetTokens
