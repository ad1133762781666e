import PulseWatch.Sessions

/-!
# What one step of the session protocol can do

`Move` lists every transition once, with its guard; `step_move` is the only
place that unfolds `step`. The roles of a call (the token it made, delivered,
exchanged, holds for rollback, presented) are functions of its phase, so that a
transition that changes no role needs no argument of its own.
-/

namespace PulseWatch.Sessions
open RedisClient ExpiringStore

variable (cfg : Settings) (cr : Crypto)

inductive Move (s : Sys) : Label → Sys → Prop
  | tick (ms) : Move s (.tick ms) { s with now := s.now + ms, clock := s.clock + 1 }
  | loginFailed {c email password code} (status) : s.calls c = .idle →
      Move s (.loginVerify c email password code) (s.goto c (.failed status))
  | loginVerified {c email password code} (u) : s.calls c = .idle →
      Auth.loginCheck cr (s.users.find? fun u => u.email = email) password code s.now
        = .accepted u →
      Move s (.loginVerify c email password code) (s.goto c (.loginVerified u s.clock))
  | loginStored {c jti} (u v) : s.calls c = .loginVerified u v → s.fresh jti = true →
      Move s (.loginStore c jti)
        { s.goto c (.loginStored (mint cfg s c u jti jti v)) with
          redis := storeRefreshJti s.now u jti cfg.refreshTtl s.redis
          minted := mint cfg s c u jti jti v :: s.minted }
  | loggedIn {c} (m) : s.calls c = .loginStored m →
      Move s (.loginReturn c) { s.goto c (.loggedIn m) with returned := m :: s.returned }
  | expired {c m} : s.calls c = .idle → m ∈ s.returned → m.unexpired s.now = false →
      Move s (.refreshCheck c m) (s.goto c (.failed 401))
  | reuseFound {c m} : s.calls c = .idle → m ∈ s.returned → m.unexpired s.now = true →
      isRefreshJtiUsed s.now m.sub m.jti s.redis = true →
      Move s (.refreshCheck c m) (s.goto c (.reuseFound m s.stamp))
  | unused {c m} : s.calls c = .idle → m ∈ s.returned → m.unexpired s.now = true →
      isRefreshJtiUsed s.now m.sub m.jti s.redis = false →
      Move s (.refreshCheck c m) (s.goto c (.unused m s.stamp))
  | rotated {c jti} (m ck) : s.calls c = .unused m ck → s.fresh jti = true →
      isRefreshJtiValid s.now m.sub m.jti s.redis = true →
      Move s (.refreshRotate c jti)
        { s.goto c (.rotated m (mint cfg s c m.sub jti m.family m.verified) ck) with
          redis := (rotatePipeline s.now m.sub m.jti jti cfg.refreshTtl s.redis).2
          minted := mint cfg s c m.sub jti m.family m.verified :: s.minted }
  | stale {c jti} (m ck) : s.calls c = .unused m ck → s.fresh jti = true →
      isRefreshJtiValid s.now m.sub m.jti s.redis = false →
      Move s (.refreshRotate c jti)
        { s.goto c (.stale m (mint cfg s c m.sub jti m.family m.verified) ck) with
          redis := (rotatePipeline s.now m.sub m.jti jti cfg.refreshTtl s.redis).2
          minted := mint cfg s c m.sub jti m.family m.verified :: s.minted }
  | refreshed {c} (m new ck) : s.calls c = .rotated m new ck →
      Move s (.refreshMark c)
        { s.goto c (.refreshed m new ck s.stamp) with
          redis := markRefreshUsed s.now m.sub m.jti cfg.refreshTtl s.redis
          returned := new :: s.returned }
  | refused {c} (m new ck) : s.calls c = .stale m new ck →
      Move s (.refreshRollback c)
        { s.goto c (.refused m new ck) with redis := revokeRefreshJti m.sub new.jti s.redis }
  | reuseScan {c} (m ck) : s.calls c = .reuseFound m ck →
      Move s (.revokeBegin c)
        (s.goto c (.revoking (.reuse m ck) s.clock (scanRefresh s.now m.sub s.redis)))
  | resetScan {c} (u cm) : s.calls c = .resetCommitted u cm →
      Move s (.revokeBegin c)
        (s.goto c (.revoking (.reset u cm) s.clock (scanRefresh s.now u s.redis)))
  | revoked {c key} (why began scan) : s.calls c = .revoking why began scan →
      matchesRefresh why.user key = true →
      Move s (.revokeDelete c key)
        { s.goto c (.revoking why began scan) with redis := del key s.redis }
  | reuseRefused {c} (m ck began scan) : s.calls c = .revoking (.reuse m ck) began scan →
      (∀ k ∈ scan, alive s.now k s.redis = false) →
      Move s (.revokeEnd c) (s.goto c (.reuseRefused m ck began))
  | resetDone {c} (u cm began scan) : s.calls c = .revoking (.reset u cm) began scan →
      (∀ k ∈ scan, alive s.now k s.redis = false) →
      Move s (.revokeEnd c) (s.goto c (.resetDone u cm began))
  | loggedOut {c m} : s.calls c = .idle → m ∈ s.returned →
      Move s (.logout c m)
        { s.goto c .loggedOut with
          redis := if m.unexpired s.now then revokeRefreshJti m.sub m.jti s.redis else s.redis }
  | forgotten {c email token} (u : User) : s.calls c = .idle →
      Move s (.forgot c email token) { s.goto c .forgotten with
        redis := storePasswordResetToken s.now token u.id cfg.passwordResetTokenTtlSeconds
          s.redis }
  | forgottenNobody {c email token} : s.calls c = .idle →
      Move s (.forgot c email token) (s.goto c .forgotten)
  | resetTooShort {c token pw} : s.calls c = .idle →
      Move s (.resetConsume c token pw) (s.goto c (.failed 422))
  | resetConsumed {c token pw} (u) : s.calls c = .idle →
      (consumePasswordResetToken s.now token s.redis).1 = some u →
      Move s (.resetConsume c token pw) { s.goto c (.resetConsumed u pw) with
        redis := (consumePasswordResetToken s.now token s.redis).2 }
  | resetUnknown {c token pw} : s.calls c = .idle →
      Move s (.resetConsume c token pw) { s.goto c (.failed 400) with
        redis := (consumePasswordResetToken s.now token s.redis).2 }
  | resetCommitted {c salt} (u pw hash) : s.calls c = .resetConsumed u pw →
      cr.hashpw pw salt = some hash →
      Move s (.resetCommit c salt) { s.goto c (.resetCommitted u s.clock) with
        users := setPasswordHash u hash s.users }
  | resetFailed {c salt} (u pw status) : s.calls c = .resetConsumed u pw →
      Move s (.resetCommit c salt) (s.goto c (.failed status))

theorem step_move {s s' : Sys} {l : Label} (h : step cfg cr s l = some s') :
    Move cfg cr s l s' := by
  cases l with
  | tick ms => exact Option.some.inj h ▸ .tick ms
  | loginVerify c email password code =>
    simp only [step] at h
    split at h
    · next hc =>
      split at h
      · next u hu => exact Option.some.inj h ▸ .loginVerified u hc hu
      · exact Option.some.inj h ▸ .loginFailed 500 hc
      · exact Option.some.inj h ▸ .loginFailed 401 hc
    · cases h
  | loginStore c jti =>
    simp only [step] at h
    split at h
    · next u v hc =>
      split at h
      · next hf => exact Option.some.inj h ▸ .loginStored u v hc hf
      · cases h
    · cases h
  | loginReturn c =>
    simp only [step] at h
    split at h
    · next m hc => exact Option.some.inj h ▸ .loggedIn m hc
    · cases h
  | refreshCheck c m =>
    simp only [step] at h
    split at h
    · next hc =>
      split at h
      · next hm =>
        split at h
        · next hx =>
          split at h
          · next hu => exact Option.some.inj h ▸ .reuseFound hc hm hx hu
          · next hu =>
            exact Option.some.inj h ▸ .unused hc hm hx (Bool.not_eq_true _ ▸ hu)
        · next hx => exact Option.some.inj h ▸ .expired hc hm (Bool.not_eq_true _ ▸ hx)
      · cases h
    · cases h
  | refreshRotate c jti =>
    simp only [step] at h
    split at h
    · next m ck hc =>
      split at h
      · next hf =>
        rw [rotate_hit] at h
        cases hv : isRefreshJtiValid s.now m.sub m.jti s.redis with
        | true =>
          simp only [hv, if_true] at h
          exact Option.some.inj h ▸ .rotated m ck hc hf hv
        | false =>
          simp only [hv, Bool.false_eq_true, if_false] at h
          exact Option.some.inj h ▸ .stale m ck hc hf hv
      · cases h
    · cases h
  | refreshMark c =>
    simp only [step] at h
    split at h
    · next m new ck hc => exact Option.some.inj h ▸ .refreshed m new ck hc
    · cases h
  | refreshRollback c =>
    simp only [step] at h
    split at h
    · next m new ck hc => exact Option.some.inj h ▸ .refused m new ck hc
    · cases h
  | revokeBegin c =>
    simp only [step] at h
    split at h
    · next m ck hc => exact Option.some.inj h ▸ .reuseScan m ck hc
    · next u cm hc => exact Option.some.inj h ▸ .resetScan u cm hc
    · cases h
  | revokeDelete c key =>
    simp only [step] at h
    split at h
    · next why began scan hc =>
      split at h
      · next hk => exact Option.some.inj h ▸ .revoked why began scan hc hk
      · cases h
    · cases h
  | revokeEnd c =>
    simp only [step] at h
    split at h
    · next why began scan hc =>
      split at h
      · next hall =>
        have hgone : ∀ k ∈ scan, alive s.now k s.redis = false := by
          intro k hk
          simpa using List.all_eq_true.mp hall k hk
        cases why with
        | reuse m ck => exact Option.some.inj h ▸ .reuseRefused m ck began scan hc hgone
        | reset u cm => exact Option.some.inj h ▸ .resetDone u cm began scan hc hgone
      · cases h
    · cases h
  | logout c m =>
    simp only [step] at h
    split at h
    · next hc =>
      split at h
      · next hm => exact Option.some.inj h ▸ .loggedOut hc hm
      · cases h
    · cases h
  | forgot c email token =>
    simp only [step] at h
    split at h
    · next hc =>
      split at h
      · next u hu => exact Option.some.inj h ▸ .forgotten u hc
      · exact Option.some.inj h ▸ .forgottenNobody hc
    · cases h
  | resetConsume c token pw =>
    simp only [step] at h
    split at h
    · next hc =>
      split at h
      · exact Option.some.inj h ▸ .resetTooShort hc
      · cases hu : (consumePasswordResetToken s.now token s.redis).1 with
        | none =>
          simp only [hu] at h
          exact Option.some.inj h ▸ .resetUnknown hc
        | some u =>
          simp only [hu] at h
          exact Option.some.inj h ▸ .resetConsumed u hc hu
    · cases h
  | resetCommit c salt =>
    simp only [step] at h
    split at h
    · next u pw hc =>
      split at h
      · split at h
        · next hash hh => exact Option.some.inj h ▸ .resetCommitted u pw hash hc hh
        · exact Option.some.inj h ▸ .resetFailed u pw 500 hc
      · exact Option.some.inj h ▸ .resetFailed u pw 400 hc
    · cases h

/-! ### What every step does -/

section
variable {cfg : Settings} {cr : Crypto} {s s' : Sys} {l : Label}

theorem now_step (hs : step cfg cr s l = some s') : s.now ≤ s'.now := by
  cases step_move cfg cr hs with
  | tick ms => exact Nat.le_add_right _ _
  | _ => exact Nat.le_refl _

/- Tokens are only ever added, stamped with the step that makes them. -/
theorem minted_step (hs : step cfg cr s l = some s') :
    s'.minted = s.minted ∨ ∃ k, s'.minted = k :: s.minted ∧ k.born = s.clock := by
  cases step_move cfg cr hs with
  | loginStored | rotated | stale => exact Or.inr ⟨_, rfl, rfl⟩
  | _ => exact Or.inl rfl

theorem returned_step (hs : step cfg cr s l = some s') {m : Minted} (hm : m ∈ s.returned) :
    m ∈ s'.returned := by
  cases step_move cfg cr hs with
  | loggedIn | refreshed => exact List.mem_cons_of_mem _ hm
  | _ => exact hm

theorem fresh_ne {jti : String} (hf : s.fresh jti = true) : ∀ m ∈ s.minted, m.jti ≠ jti := by
  intro m hm he
  have hmem : jti ∈ s.minted.map Minted.jti := he ▸ List.mem_map_of_mem hm
  simp [Sys.fresh] at hf
  obtain ⟨x, hx, hxj⟩ := List.mem_map.mp hmem
  exact hf x hx hxj

theorem gone_later {k : RedisKey} (hnow : s.now ≤ s'.now)
    (hd : deadline? k s'.redis = deadline? k s.redis ∨ deadline? k s'.redis = none)
    (hg : alive s.now k s.redis = false) : alive s'.now k s'.redis = false := by
  rw [← Bool.not_eq_true] at hg ⊢
  intro ha
  obtain ⟨d, hd', hle⟩ := (alive_iff _ _ _).mp ha
  rcases hd with hd | hd
  · exact hg ((alive_iff _ _ _).mpr ⟨d, hd ▸ hd', hnow.trans hle⟩)
  · rw [hd] at hd'
    cases hd'

theorem deadline_del (k x : RedisKey) (r : Redis) :
    deadline? k (del x r) = deadline? k r ∨ deadline? k (del x r) = none := by
  by_cases h : k = x
  · exact Or.inr (h ▸ deadline?_del_self k r)
  · exact Or.inl (deadline?_del_ne _ _ _ h)

/- A session that has ended never comes back: only fresh jtis are stored. -/
theorem gone_step (hs : step cfg cr s l = some s') {m : Minted} (hm : m ∈ s.minted)
    (hg : alive s.now m.key s.redis = false) : alive s'.now m.key s'.redis = false := by
  refine gone_later (now_step hs) ?_ hg
  have hrotate : ∀ u old jti, s.fresh jti = true →
      deadline? m.key (rotatePipeline s.now u old jti cfg.refreshTtl s.redis).2 =
        deadline? m.key s.redis ∨
      deadline? m.key (rotatePipeline s.now u old jti cfg.refreshTtl s.redis).2 = none := by
    intro u old jti hf
    have hne : m.key ≠ .refresh u jti := by
      intro he
      injection he with _ hj
      exact fresh_ne hf m hm hj
    rw [rotatePipeline, deadline?_set_ne _ _ _ _ _ hne]
    exact deadline_del _ _ _
  cases step_move cfg cr hs with
  | loginStored u v hc hf =>
    refine Or.inl (deadline?_set_ne _ _ _ _ _ ?_)
    intro he
    injection he with _ hj
    exact fresh_ne hf m hm hj
  | rotated n ck hc hf hv | stale n ck hc hf hv => exact hrotate _ _ _ hf
  | refreshed | forgotten => exact Or.inl (deadline?_set_ne _ _ _ _ _ (by intro he; cases he))
  | refused | revoked | resetConsumed | resetUnknown => exact deadline_del _ _ _
  | @loggedOut c n hc hn =>
    cases hx : n.unexpired s.now with
    | false => exact Or.inl rfl
    | true =>
      simp only [if_true]
      exact deadline_del _ _ _
  | _ => exact Or.inl rfl

end

theorem role_update {α : Type} (role : Call → α) (calls : ℕ → Call) (c : ℕ) (p : Call)
    (h : role p = role (calls c)) (x : ℕ) :
    role (Function.update calls c p x) = role (calls x) := by
  by_cases hx : x = c
  · subst hx
    rw [Function.update_self, h]
  · rw [Function.update_of_ne hx]

end PulseWatch.Sessions
