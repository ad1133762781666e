import PulseWatch.SessionSweeps

/-!
# Reuse detection

When does a second presentation of an exchanged refresh token take the branch
that revokes every session of the user? The used marker is written in a round
trip after the exchange and lives for the TTL from then on, so exactly the
presenters whose check falls into that window are caught. The revocation itself
ends every session only where none is stored behind its SCAN (`SweepSafe`).
-/

namespace PulseWatch.Sessions
open RedisClient ExpiringStore

/-- The token a call found unused, and when it looked. -/
def Call.checked : Call → Option (Minted × Stamp)
  | .unused m ck | .rotated m _ ck | .refreshed m _ ck _ | .stale m _ ck | .refused m _ ck =>
    some (m, ck)
  | _ => none

/-- The token a call found used, and when it looked. -/
def Call.caught : Call → Option (Minted × Stamp)
  | .reuseFound m ck | .revoking (.reuse m ck) _ _ | .reuseRefused m ck _ => some (m, ck)
  | _ => none

/-- The token a call has marked used, and when. -/
def Call.marked : Call → Option (Minted × Stamp)
  | .refreshed m _ _ mk => some (m, mk)
  | _ => none

def Call.markerRoles (p : Call) :
    Option (Minted × Stamp) × Option (Minted × Stamp) × Option (Minted × Stamp) :=
  (p.checked, p.caught, p.marked)

theorem Call.spent_of_marked {p : Call} {m : Minted} {mk : Stamp} (h : p.marked = some (m, mk)) :
    p.spent = some m := by
  cases p with
  | refreshed m' k ck mk' =>
    obtain ⟨rfl, rfl⟩ := Prod.mk.inj (Option.some.inj h)
    rfl
  | _ => cases h

theorem Call.unchecked_of_caught {p : Call} {x : Minted × Stamp} (h : p.caught = some x) :
    p.checked = none := by
  cases p <;> first | rfl | cases h

/-- The check at `ck` falls into the life of a marker written at `mk`. -/
def Stamp.inLife (ttl : ℕ) (mk ck : Stamp) : Prop :=
  mk.step < ck.step ∧ ck.time ≤ expiry mk.time ttl

/-! ### The markers -/

structure Markers (ttl : ℕ) (s : Sys) : Prop where
  past : ∀ c m ck, (s.calls c).checked = some (m, ck) → ck.step < s.clock
  marked_past : ∀ c m mk, (s.calls c).marked = some (m, mk) → mk.step < s.clock
  marker : ∀ c m mk, (s.calls c).marked = some (m, mk) →
    deadline? m.usedKey s.redis = some (expiry mk.time ttl)
  written : ∀ u j, Stored s.redis (.refreshUsed u j) →
    ∃ c m mk, (s.calls c).marked = some (m, mk) ∧ m.sub = u ∧ m.jti = j
  missed : ∀ c m ck, (s.calls c).checked = some (m, ck) →
    ∀ a mk, (s.calls a).marked = some (m, mk) → ¬ Stamp.inLife ttl mk ck
  caught : ∀ c m ck, (s.calls c).caught = some (m, ck) →
    ∃ a mk, (s.calls a).marked = some (m, mk) ∧ Stamp.inLife ttl mk ck

namespace Markers

theorem init (ttl now : ℕ) (users : List User) : Markers ttl (init now users) := by
  constructor <;> simp [Sessions.init, Stored, deadline?, ExpiringStore.find?, Call.checked,
    Call.marked, Call.caught]

theorem quiet {ttl : ℕ} {s s' : Sys} (h : Markers ttl s) {c : ℕ} {p : Call}
    (hclock : s.clock ≤ s'.clock)
    (hk : ∀ u j, deadline? (.refreshUsed u j) s'.redis = deadline? (.refreshUsed u j) s.redis)
    (hc : s'.calls = Function.update s.calls c p)
    (hroles : p.markerRoles = (s.calls c).markerRoles) : Markers ttl s' := by
  have checked := fun x => role_update Call.checked s.calls c p (congrArg (·.1) hroles) x
  have hcaught := fun x => role_update Call.caught s.calls c p (congrArg (·.2.1) hroles) x
  have marked := fun x => role_update Call.marked s.calls c p (congrArg (·.2.2) hroles) x
  constructor
  case past =>
    intro x m ck hx
    rw [hc, checked] at hx
    exact (h.past x m ck hx).trans_le hclock
  case marked_past =>
    intro x m mk hx
    rw [hc, marked] at hx
    exact (h.marked_past x m mk hx).trans_le hclock
  case marker =>
    intro x m mk hx
    rw [hc, marked] at hx
    exact (hk _ _).trans (h.marker x m mk hx)
  case written =>
    intro u j hst
    rw [Stored, hk] at hst
    obtain ⟨x, m, mk, hx, hm⟩ := h.written u j hst
    exact ⟨x, m, mk, by rw [hc, marked]; exact hx, hm⟩
  case missed =>
    intro x m ck hx a mk ha
    rw [hc, checked] at hx
    rw [hc, marked] at ha
    exact h.missed x m ck hx a mk ha
  case caught =>
    intro x m ck hx
    rw [hc, hcaught] at hx
    obtain ⟨a, mk, ha, hlife⟩ := h.caught x m ck hx
    exact ⟨a, mk, by rw [hc, marked]; exact ha, hlife⟩

theorem used_iff {ttl : ℕ} {s : Sys} (h : Markers ttl s) {a : ℕ} {m : Minted} {mk : Stamp}
    (ha : (s.calls a).marked = some (m, mk)) :
    isRefreshJtiUsed s.now m.sub m.jti s.redis = true ↔ Stamp.inLife ttl mk s.stamp := by
  have hd := h.marker a m mk ha
  have hpast := h.marked_past a m mk ha
  rw [isRefreshJtiUsed, alive_iff]
  constructor
  · rintro ⟨d, hd', hle⟩
    rw [Minted.usedKey] at hd
    rw [hd] at hd'
    exact ⟨hpast, Option.some.inj hd' ▸ hle⟩
  · intro hlife
    exact ⟨_, hd, hlife.2⟩

theorem presenting {ttl : ℕ} {s : Sys} (h : Markers ttl s) (hl : Ledger s) {c : ℕ} {m : Minted}
    {p : Call} (hc : s.calls c = .idle) (hm : m ∈ s.returned)
    (hp : (p = .unused m s.stamp ∧ isRefreshJtiUsed s.now m.sub m.jti s.redis = false) ∨
      (p = .reuseFound m s.stamp ∧ isRefreshJtiUsed s.now m.sub m.jti s.redis = true)) :
    Markers ttl (s.goto c p) := by
  have hpm : p.marked = (s.calls c).marked := by
    rw [hc]
    rcases hp with ⟨rfl, -⟩ | ⟨rfl, -⟩ <;> rfl
  have marked := fun x => role_update Call.marked s.calls c p hpm x
  have other : ∀ x, x ≠ c → (s.goto c p).calls x = s.calls x :=
    fun x hx => Function.update_of_ne hx _ _
  have self : (s.goto c p).calls c = p := Function.update_self _ _ _
  constructor
  case past =>
    intro x n ck hx
    by_cases hxc : x = c
    · subst hxc
      rw [self] at hx
      rcases hp with ⟨rfl, -⟩ | ⟨rfl, -⟩
      · obtain ⟨-, rfl⟩ := Prod.mk.inj (Option.some.inj hx)
        exact Nat.lt_succ_self _
      · cases hx
    · rw [other x hxc] at hx
      exact (h.past x n ck hx).trans (Nat.lt_succ_self _)
  case marked_past =>
    intro x n mk hx
    have hold : (s.calls x).marked = some (n, mk) := (marked x).symm.trans hx
    exact (h.marked_past x n mk hold).trans (Nat.lt_succ_self _)
  case marker =>
    intro x n mk hx
    exact h.marker x n mk ((marked x).symm.trans hx)
  case written =>
    intro u j hst
    obtain ⟨x, n, mk, hx, hn⟩ := h.written u j hst
    exact ⟨x, n, mk, (marked x).trans hx, hn⟩
  case missed =>
    intro x n ck hx a mk ha
    have hmk : (s.calls a).marked = some (n, mk) := (marked a).symm.trans ha
    by_cases hxc : x = c
    · subst hxc
      rw [self] at hx
      rcases hp with ⟨rfl, hun⟩ | ⟨rfl, -⟩
      · obtain ⟨rfl, rfl⟩ := Prod.mk.inj (Option.some.inj hx)
        intro hlife
        rw [(h.used_iff hmk).mpr hlife] at hun
        cases hun
      · cases hx
    · rw [other x hxc] at hx
      exact h.missed x n ck hx a mk hmk
  case caught =>
    intro x n ck hx
    by_cases hxc : x = c
    · subst hxc
      rw [self] at hx
      rcases hp with ⟨rfl, -⟩ | ⟨rfl, hus⟩
      · cases hx
      · obtain ⟨rfl, rfl⟩ := Prod.mk.inj (Option.some.inj hx)
        obtain ⟨a, n, mk, ha, hsub, hjti⟩ := h.written m.sub m.jti (stored_of_alive hus)
        have hn := hl.returned_minted
          (hl.presented a n (Call.presents_of_spent (Call.spent_of_marked ha)))
        obtain rfl := hl.jti_inj n hn m (hl.returned_minted hm) hjti
        exact ⟨a, mk, (marked a).trans ha, (h.used_iff ha).mp hus⟩
    · rw [other x hxc] at hx
      obtain ⟨a, mk, ha, hlife⟩ := h.caught x n ck hx
      exact ⟨a, mk, (marked a).trans ha, hlife⟩

/- SET refresh_used. No other call has marked the token: a jti is exchanged once. -/
theorem marking {cfg : Settings} {s s' : Sys} (h : Markers cfg.refreshTtl s) (hl : Ledger s)
    {c : ℕ} {m k : Minted} {ck : Stamp} (hc : s.calls c = .rotated m k ck)
    (hclock : s'.clock = s.clock + 1)
    (hredis : s'.redis = markRefreshUsed s.now m.sub m.jti cfg.refreshTtl s.redis)
    (hcalls : s'.calls = Function.update s.calls c (.refreshed m k ck s.stamp)) :
    Markers cfg.refreshTtl s' := by
  have checked := fun x =>
    role_update Call.checked s.calls c (.refreshed m k ck s.stamp) (by rw [hc]; rfl) x
  have hcaught := fun x =>
    role_update Call.caught s.calls c (.refreshed m k ck s.stamp) (by rw [hc]; rfl) x
  have other : ∀ x, x ≠ c → s'.calls x = s.calls x := by
    intro x hx
    rw [hcalls, Function.update_of_ne hx]
  have self : (s'.calls c).marked = some (m, s.stamp) := by
    rw [hcalls, Function.update_self]
    rfl
  have hspent : (s.calls c).spent = some m := by
    rw [hc]
    rfl
  have hmm := hl.returned_minted (hl.presented c m (Call.presents_of_spent hspent))
  have foreign : ∀ x n mk, (s.calls x).marked = some (n, mk) → n.jti ≠ m.jti := by
    intro x n mk hx hj
    have hns := Call.spent_of_marked hx
    have hn := hl.returned_minted (hl.presented x n (Call.presents_of_spent hns))
    obtain rfl := hl.jti_inj n hn m hmm hj
    obtain rfl := hl.spent_once x c n hns hspent
    rw [hc] at hx
    cases hx
  have kept : ∀ x, x ≠ c → ∀ n mk, (s'.calls x).marked = some (n, mk) →
      (s.calls x).marked = some (n, mk) := by
    intro x hx n mk hxm
    rw [other x hx] at hxm
    exact hxm
  have fromSelf : ∀ n mk, (s'.calls c).marked = some (n, mk) → m = n ∧ s.stamp = mk := by
    intro n mk hx
    rw [self] at hx
    exact Prod.mk.inj (Option.some.inj hx)
  constructor
  case past =>
    intro x n nk hx
    rw [hcalls, checked] at hx
    have hlt := h.past x n nk hx
    omega
  case marked_past =>
    intro x n mk hx
    by_cases hxc : x = c
    · subst hxc
      obtain ⟨-, rfl⟩ := fromSelf n mk hx
      show s.clock < s'.clock
      omega
    · have hlt := h.marked_past x n mk (kept x hxc n mk hx)
      omega
  case marker =>
    intro x n mk hx
    by_cases hxc : x = c
    · subst hxc
      obtain ⟨rfl, rfl⟩ := fromSelf n mk hx
      rw [hredis]
      exact deadline?_set_self _ _ _ _
    · have hold := kept x hxc n mk hx
      have hne : n.usedKey ≠ m.usedKey := by
        intro he
        injection he with _ hj
        exact foreign x n mk hold hj
      rw [hredis]
      exact (deadline?_set_ne _ _ _ _ _ hne).trans (h.marker x n mk hold)
  case written =>
    intro u j hst
    by_cases hk : RedisKey.refreshUsed u j = m.usedKey
    · injection hk with hu hj
      exact ⟨c, m, s.stamp, self, hu.symm, hj.symm⟩
    · rw [hredis] at hst
      obtain ⟨x, n, mk, hx, hn⟩ := h.written u j (stored_set hk hst)
      have hxc : x ≠ c := by
        rintro rfl
        rw [hc] at hx
        cases hx
      exact ⟨x, n, mk, by rw [other x hxc]; exact hx, hn⟩
  case missed =>
    intro x n nk hx a mk ha
    rw [hcalls, checked] at hx
    by_cases hac : a = c
    · subst hac
      obtain ⟨rfl, rfl⟩ := fromSelf n mk ha
      have hlt := h.past x _ nk hx
      intro hlife
      exact absurd hlife.1 (Nat.lt_asymm hlt)
    · exact h.missed x n nk hx a mk (kept a hac n mk ha)
  case caught =>
    intro x n nk hx
    rw [hcalls, hcaught] at hx
    obtain ⟨a, mk, ha, hlife⟩ := h.caught x n nk hx
    have hac : a ≠ c := by
      rintro rfl
      rw [hc] at ha
      cases ha
    exact ⟨a, mk, by rw [other a hac]; exact ha, hlife⟩

section
variable {cfg : Settings} {cr : Crypto}

theorem step {s s' : Sys} {l : Label} (h : Markers cfg.refreshTtl s) (hl : Ledger s)
    (hs : step cfg cr s l = some s') : Markers cfg.refreshTtl s' := by
  have hmove := step_move cfg cr hs
  cases hmove with
  | tick ms =>
    exact h.quiet (c := 0) (p := s.calls 0) (Nat.le_succ _) (fun _ _ => rfl)
      (Function.update_eq_self 0 s.calls).symm rfl
  | reuseFound hc hm hx hu => exact h.presenting hl hc hm (Or.inr ⟨rfl, hu⟩)
  | unused hc hm hx hu => exact h.presenting hl hc hm (Or.inl ⟨rfl, hu⟩)
  | refreshed m new ck hc => exact h.marking hl hc rfl rfl rfl
  | loginFailed _ hc | loginVerified _ hc _ | expired hc _ _ | reuseScan _ _ hc
  | resetScan _ _ hc | reuseRefused _ _ _ _ hc _ | resetDone _ _ _ _ hc _ | forgottenNobody hc
  | resetTooShort hc | resetCommitted _ _ _ hc _ | resetFailed _ _ _ hc | loggedIn _ hc =>
    exact h.quiet (Nat.le_succ _) (fun _ _ => rfl) rfl (by rw [hc]; rfl)
  | loginStored u v hc hf =>
    exact h.quiet (Nat.le_succ _)
      (fun _ _ => deadline?_set_ne _ _ _ _ _ (by intro he; cases he)) rfl (by rw [hc]; rfl)
  | forgotten u hc =>
    exact h.quiet (Nat.le_succ _)
      (fun _ _ => deadline?_set_ne _ _ _ _ _ (by intro he; cases he)) rfl (by rw [hc]; rfl)
  | rotated m ck hc hf hv | stale m ck hc hf hv =>
    exact h.quiet (Nat.le_succ _)
      (fun _ _ => deadline_rotate _ _ _ _ _ _ _ (by intro he; cases he) (by intro he; cases he))
      rfl (by rw [hc]; rfl)
  | refused m new ck hc =>
    exact h.quiet (Nat.le_succ _) (fun _ _ => deadline?_del_ne _ _ _ (by intro he; cases he))
      rfl (by rw [hc]; rfl)
  | @revoked c key why began scan hc hk =>
    have hkey : ∀ u j, RedisKey.refreshUsed u j ≠ key := by
      rintro u j rfl
      cases hk
    exact h.quiet (Nat.le_succ _) (fun u j => deadline?_del_ne _ _ _ (hkey u j)) rfl
      (by rw [hc])
  | @loggedOut c m hc hm =>
    refine h.quiet (Nat.le_succ _) ?_ rfl (by rw [hc]; rfl)
    intro u j
    cases hx : m.unexpired s.now with
    | false => simp only [Bool.false_eq_true, if_false]
    | true =>
      simp only [if_true]
      exact deadline?_del_ne _ _ _ (by intro he; cases he)
  | resetConsumed _ hc _ | resetUnknown hc =>
    exact h.quiet (Nat.le_succ _) (fun _ _ => deadline?_del_ne _ _ _ (by intro he; cases he))
      rfl (by rw [hc]; rfl)

end
end Markers

/-! ### The sweep behind the reuse branch -/

/- No login and no exchange stores a session of the user while the revocation of a
reuse runs. -/
def SweepSafe (s : Sys) : Label → Prop
  | .loginStore c _ => ∀ u v, s.calls c = .loginVerified u v →
      ∀ r m ck b scan, s.calls r = .revoking (.reuse m ck) b scan → m.sub ≠ u
  | .refreshRotate c _ => ∀ n nk, s.calls c = .unused n nk →
      isRefreshJtiValid s.now n.sub n.jti s.redis = true →
      ∀ r m ck b scan, s.calls r = .revoking (.reuse m ck) b scan → m.sub ≠ n.sub
  | _ => True

/-- No refresh session of the user is alive. -/
def Revoked (s : Sys) (u : ℕ) : Prop :=
  ∀ n ∈ s.minted, n.sub = u → Settled s n → alive s.now n.key s.redis = false

/- The scan of a running revocation has every session of its user in hand. -/
def Cornered (s : Sys) : Prop :=
  ∀ r m ck scan, (s.calls r).sweeping = some (.reuse m ck, scan) →
    Covers s (fun n => n.sub = m.sub) scan

section
variable {cfg : Settings} {cr : Crypto} {s s' : Sys} {l : Label}

theorem Cornered.step (h : Cornered s) (hl : Ledger s) (hh : Heirs s.calls)
    (hok : SweepSafe s l) (hs : Sessions.step cfg cr s l = some s') : Cornered s' := by
  intro r m ck scan hr
  rcases sweeping_step hs hr with hold | ⟨-, rfl, hnow, hredis⟩
  · refine (h r m ck scan hold).step hl hh hs ?_
    intro n hn hnew hsub hset
    obtain ⟨b, hp⟩ := Call.revoking_of_sweeping hold
    rcases settled_new hs hn hnew hset with
      ⟨c, jti, u, v, rfl, hc, hu, -⟩ | ⟨c, jti, k, kk, rfl, hc, hv, hu, -⟩
    · exact hok u v hc r m ck b scan hp (hsub.symm.trans hu)
    · exact hok k kk hc hv r m ck b scan hp (hsub.symm.trans hu)
  · exact covers_scan hnow hredis fun n hn => hn

theorem revoked_at_end {now : ℕ} {users : List User} {ls : List Label}
    (hsafe : Runs.Along (step cfg cr) SweepSafe (init now users) ls)
    (hrun : Runs.run (step cfg cr) (init now users) ls = some s) {c : ℕ} {m : Minted}
    {ck : Stamp} (hc : (s.calls c).swept = some (.reuse m ck)) :
    Runs.Took (step cfg cr) (init now users) ls
      fun _ t l => l = .revokeEnd c ∧ Revoked t m.sub := by
  have hall := Runs.run_history
    (fun ls s => Runs.Along (step cfg cr) SweepSafe (init now users) ls →
      ((Ledger s ∧ Heirs s.calls) ∧ Cornered s) ∧
        ∀ c m ck, (s.calls c).swept = some (.reuse m ck) →
          Runs.Took (step cfg cr) (init now users) ls
            fun _ t l => l = .revokeEnd c ∧ Revoked t m.sub) ?_ ?_ hrun hsafe
  · exact hall.2 c m ck hc
  · intro _
    refine ⟨⟨⟨Ledger.init now users, ?_⟩, ?_⟩, ?_⟩
    · intro c m k hk
      cases hk
    · intro r m ck scan hr
      cases hr
    · intro c m ck hc
      cases hc
  · intro ls t l t' hr ih hs ha
    obtain ⟨hbefore, hok⟩ := Runs.along_snoc ha hr
    obtain ⟨⟨⟨hl, hh⟩, hcorner⟩, htook⟩ := ih hbefore
    refine ⟨⟨⟨hl.step hh hs, heirs_step hh hs⟩, hcorner.step hl hh hok hs⟩, ?_⟩
    intro c m ck hc
    rcases swept_step hs hc with hold | ⟨scan, rfl, hsw, hgone, -, -⟩
    · exact (htook c m ck hold).later [l]
    · exact Runs.Took.here hr ⟨rfl, (hcorner c m ck scan hsw).over hgone⟩

end

/-! ### Exactly which presentations are caught -/

/- Call `c` is on the reuse branch for `m`: it is about to revoke, is revoking,
or has answered 401 with every session of the user gone when its revocation ended. -/
def ReuseBranch (cfg : Settings) (cr : Crypto) (s₀ : Sys) (ls : List Label) (s : Sys) (c : ℕ)
    (m : Minted) : Prop :=
  (∃ ck, s.calls c = .reuseFound m ck) ∨
    (∃ ck b scan, s.calls c = .revoking (.reuse m ck) b scan) ∨
    (∃ ck b, s.calls c = .reuseRefused m ck b) ∧
      Runs.Took (step cfg cr) s₀ ls fun _ t l => l = .revokeEnd c ∧ Revoked t m.sub

/-- Call `c` has looked for the used marker of `m` at `ck`. -/
def Presented (s : Sys) (c : ℕ) (m : Minted) (ck : Stamp) : Prop :=
  (s.calls c).checked = some (m, ck) ∨ (s.calls c).caught = some (m, ck)

section
variable {cfg : Settings} {cr : Crypto}

theorem protocol_reachable {now : ℕ} {users : List User} {s : Sys}
    (h : Runs.Reachable (step cfg cr) (init now users) s) :
    Ledger s ∧ Markers cfg.refreshTtl s := by
  have hall : (Ledger s ∧ Heirs s.calls) ∧ Markers cfg.refreshTtl s := by
    refine Runs.reachable_invariant
      (fun t => (Ledger t ∧ Heirs t.calls) ∧ Markers cfg.refreshTtl t) ?_ ?_ h
    · rintro t l t' ⟨⟨hl, hh⟩, hm⟩ hs
      exact ⟨⟨hl.step hh hs, heirs_step hh hs⟩, hm.step hl hs⟩
    · refine ⟨⟨Ledger.init now users, ?_⟩, Markers.init _ now users⟩
      intro c m k hk
      cases hk
  exact ⟨hall.1.1, hall.2⟩

theorem ReuseBranch.caught {s₀ s : Sys} {ls : List Label} {c : ℕ} {m : Minted}
    (h : ReuseBranch cfg cr s₀ ls s c m) : ∃ ck, (s.calls c).caught = some (m, ck) := by
  rcases h with ⟨ck, hc⟩ | ⟨ck, b, scan, hc⟩ | ⟨⟨ck, b, hc⟩, -⟩ <;> exact ⟨ck, by rw [hc]; rfl⟩

theorem reuseBranch_of_caught {now : ℕ} {users : List User} {s : Sys} {ls : List Label}
    (hsafe : Runs.Along (step cfg cr) SweepSafe (init now users) ls)
    (hrun : Runs.run (step cfg cr) (init now users) ls = some s) {c : ℕ} {m : Minted}
    {ck : Stamp} (hc : (s.calls c).caught = some (m, ck)) :
    ReuseBranch cfg cr (init now users) ls s c m := by
  cases hp : s.calls c with
  | reuseFound n nk =>
    rw [hp] at hc
    obtain ⟨rfl, rfl⟩ := Prod.mk.inj (Option.some.inj hc)
    exact Or.inl ⟨_, hp⟩
  | revoking why b scan =>
    rw [hp] at hc
    cases why with
    | reuse n nk =>
      obtain ⟨rfl, rfl⟩ := Prod.mk.inj (Option.some.inj hc)
      exact Or.inr (Or.inl ⟨_, b, scan, hp⟩)
    | reset u cm => cases hc
  | reuseRefused n nk b =>
    rw [hp] at hc
    obtain ⟨rfl, rfl⟩ := Prod.mk.inj (Option.some.inj hc)
    have hswept : (s.calls c).swept = some (.reuse n nk) := by
      rw [hp]
      rfl
    exact Or.inr (Or.inr ⟨⟨_, b, hp⟩, revoked_at_end hsafe hrun hswept⟩)
  | _ =>
    rw [hp] at hc
    cases hc

/- The call can always go on to its 401, by steps of its own. -/
theorem ReuseBranch.answers {now : ℕ} {users : List User} {s : Sys} {ls : List Label}
    (hrun : Runs.run (step cfg cr) (init now users) ls = some s) {c : ℕ} {m : Minted}
    (h : ReuseBranch cfg cr (init now users) ls s c m) :
    ∃ ms t, (∀ l ∈ ms, l.sweeps c = true) ∧ Runs.run (step cfg cr) s ms = some t ∧
      ∃ ck b, t.calls c = .reuseRefused m ck b := by
  have hown : ScansOwn s := scansOwn_reachable ⟨ls, hrun⟩
  rcases h with ⟨ck, hc⟩ | ⟨ck, b, scan, hc⟩ | ⟨⟨ck, b, hc⟩, -⟩
  · obtain ⟨t, hs⟩ : ∃ t, step cfg cr s (.revokeBegin c) = some t := by
      simp only [step, hc]
      exact ⟨_, rfl⟩
    have htc : t.calls c =
        .revoking (.reuse m ck) s.clock (scanRefresh s.now m.sub s.redis) := by
      simp only [step, hc] at hs
      rw [← Option.some.inj hs, Sys.goto_self]
    obtain ⟨ms, t', hms, hrun', hc'⟩ := (hown.step hs).completes htc
    refine ⟨.revokeBegin c :: ms, t', ?_, ?_, ck, s.clock, hc'⟩
    · intro l hl
      rcases List.mem_cons.mp hl with rfl | hl
      · exact decide_eq_true rfl
      · exact hms l hl
    · rw [Runs.run, hs]
      exact hrun'
  · obtain ⟨ms, t, hms, hrun', hc'⟩ := hown.completes hc
    exact ⟨ms, t, hms, hrun', ck, b, hc'⟩
  · exact ⟨[], s, fun l hl => (by cases hl), rfl, ck, b, hc⟩

/- On a safe schedule a second presentation takes the reuse branch exactly when its
check finds the marker of the first: after that call's SET refresh_used and within
the marker's TTL. On the branch the call's own steps lead to its 401. -/
theorem reuse_caught_iff {now : ℕ} {users : List User} {s : Sys} {ls : List Label}
    (hsafe : Runs.Along (step cfg cr) SweepSafe (init now users) ls)
    (hrun : Runs.run (step cfg cr) (init now users) ls = some s) {a c : ℕ} {m k : Minted}
    {ak mk ck : Stamp} (ha : s.calls a = .refreshed m k ak mk) (hc : Presented s c m ck) :
    (ReuseBranch cfg cr (init now users) ls s c m ↔
      mk.step < ck.step ∧ ck.time ≤ expiry mk.time cfg.refreshTtl) ∧
    (ReuseBranch cfg cr (init now users) ls s c m →
      ∃ ms t, (∀ l ∈ ms, l.sweeps c = true) ∧ Runs.run (step cfg cr) s ms = some t ∧
        ∃ ck b, t.calls c = .reuseRefused m ck b) := by
  refine ⟨?_, fun h => h.answers hrun⟩
  obtain ⟨hl, hmarkers⟩ := protocol_reachable ⟨ls, hrun⟩
  have hmarked : (s.calls a).marked = some (m, mk) := by
    rw [ha]
    rfl
  constructor
  · intro hbranch
    obtain ⟨ck', hck'⟩ := hbranch.caught
    have hck : ck' = ck := by
      rcases hc with hc | hc
      · rw [Call.unchecked_of_caught hck'] at hc
        cases hc
      · rw [hck'] at hc
        exact (Prod.mk.inj (Option.some.inj hc)).2
    obtain ⟨a', mk', ha', hlife⟩ := hmarkers.caught c m ck' hck'
    have haa := hl.spent_once a' a m (Call.spent_of_marked ha') (Call.spent_of_marked hmarked)
    rw [haa, hmarked] at ha'
    obtain ⟨-, rfl⟩ := Prod.mk.inj (Option.some.inj ha')
    rw [← hck]
    exact hlife
  · intro hlife
    rcases hc with hc | hc
    · exact absurd hlife (hmarkers.missed c m ck hc a mk hmarked)
    · exact reuseBranch_of_caught hsafe hrun hc

/- One call revokes at most, and stores no session stands against it. -/
def SingleSweep (d : ℕ) (s : Sys) : Label → Prop
  | .revokeBegin c => c = d
  | .loginStore _ _ | .refreshRotate _ _ => s.calls d = .idle
  | _ => True

instance (d : ℕ) (s : Sys) : ∀ l, Decidable (SingleSweep d s l)
  | .revokeBegin c => inferInstanceAs (Decidable (c = d))
  | .loginStore _ _ | .refreshRotate _ _ => inferInstanceAs (Decidable (s.calls d = .idle))
  | .tick _ | .loginVerify _ _ _ _ | .loginReturn _ | .refreshCheck _ _ | .refreshMark _
  | .refreshRollback _ | .revokeDelete _ _ | .revokeEnd _ | .logout _ _ | .forgot _ _ _
  | .resetConsume _ _ _ | .resetCommit _ _ => inferInstanceAs (Decidable True)

theorem sweepSafe_of_single {d now : ℕ} {users : List User} {ls : List Label}
    (h : Runs.Along (step cfg cr) (SingleSweep d) (init now users) ls) :
    Runs.Along (step cfg cr) SweepSafe (init now users) ls := by
  refine Runs.along_of_invariant (fun s => ∀ r, r ≠ d → (s.calls r).sweeping = none) ?_ ?_
    (fun _ _ => rfl) h
  · intro s l s' hnone hok hs r hr
    rw [Option.eq_none_iff_forall_ne_some]
    rintro ⟨why, scan⟩ hsw
    rcases sweeping_step hs hsw with hold | ⟨rfl, -⟩
    · cases (hnone r hr).symm.trans hold
    · exact hr hok
  · intro s l hnone hok
    have idle : s.calls d = .idle →
        ∀ r m ck b scan, s.calls r ≠ .revoking (.reuse m ck) b scan := by
      intro hd r m ck b scan hr
      by_cases hrd : r = d
      · rw [hrd, hd] at hr
        cases hr
      · have hn := hnone r hrd
        rw [hr] at hn
        cases hn
    cases l with
    | loginStore c jti => exact fun u v _ r m ck b scan hr => absurd hr (idle hok r m ck b scan)
    | refreshRotate c jti =>
      exact fun n nk _ _ r m ck b scan hr => absurd hr (idle hok r m ck b scan)
    | _ => trivial

/- Alice logs in on a second device, and the token of the first one is presented once
more after it was exchanged. -/
def aliceReplay : List Label :=
  [.loginVerify 3 "alice@example.com" "old-secret" none, .loginStore 3 "j2", .loginReturn 3,
    .refreshCheck 2 aliceToken, .revokeBegin 2, .revokeDelete 2 (.refresh 1 "j1"),
    .revokeDelete 2 (.refresh 1 "j2"), .revokeEnd 2]

theorem reuse_caught_iff_replay :
    ∃ s, Runs.run (step {} tabledCrypto) (init 0 [alice])
        (aliceLogin ++ aliceRefresh ++ aliceReplay) = some s ∧
      Runs.Along (step {} tabledCrypto) SweepSafe (init 0 [alice])
        (aliceLogin ++ aliceRefresh ++ aliceReplay) ∧
      Presented s 2 aliceToken ⟨9, 0⟩ ∧
      ReuseBranch {} tabledCrypto (init 0 [alice]) (aliceLogin ++ aliceRefresh ++ aliceReplay) s 2
        aliceToken := by
  have hrun : Runs.run (step {} tabledCrypto) (init 0 [alice])
    (aliceLogin ++ aliceRefresh ++ aliceReplay) = some _ := rfl
  have hsafe : Runs.Along (step {} tabledCrypto) SweepSafe (init 0 [alice])
      (aliceLogin ++ aliceRefresh ++ aliceReplay) := sweepSafe_of_single (d := 2) (by decide)
  refine ⟨_, rfl, hsafe, Or.inr rfl, ?_⟩
  have hiff := reuse_caught_iff hsafe hrun (a := 1) (c := 2) (m := aliceToken) rfl (Or.inr rfl)
  exact hiff.1.mpr (by decide)

/- The token of the second device is exchanged while the scan runs: the new session
outlives the 401. -/
example : ((Runs.run (step {} tabledCrypto) (init 0 [alice])
    (aliceLogin ++ aliceRefresh ++ [.loginVerify 3 "alice@example.com" "old-secret" none,
      .loginStore 3 "j2", .loginReturn 3, .refreshCheck 4 ⟨1, "j2", 604800, "j2", 3, 6, 7⟩,
      .refreshCheck 2 aliceToken, .revokeBegin 2, .refreshRotate 4 "j3",
      .revokeDelete 2 (.refresh 1 "j1"), .revokeDelete 2 (.refresh 1 "j2"), .revokeEnd 2])).map
    fun s => isRefreshJtiValid s.now 1 "j3" s.redis) = some true := by decide

/- Two presentations overlap: both find the token unused, the first exchanges
it, the second gets the plain 401 and every session stays. -/
theorem reuse_missed_by_overlap :
    ∃ s, Runs.run (step {} tabledCrypto) (init 0 [alice]) (aliceLogin ++
        [.refreshCheck 1 aliceToken, .refreshCheck 2 aliceToken, .refreshRotate 1 "j1",
          .refreshMark 1, .refreshRotate 2 "j2", .refreshRollback 2]) = some s ∧
      Exchanged s 1 aliceToken ∧ aliceToken.unexpired s.now = true ∧
      Presented s 2 aliceToken ⟨4, 0⟩ ∧
      (∃ k ck, s.calls 2 = .refused aliceToken k ck) ∧
      ¬ ReuseBranch {} tabledCrypto (init 0 [alice]) (aliceLogin ++
        [.refreshCheck 1 aliceToken, .refreshCheck 2 aliceToken, .refreshRotate 1 "j1",
          .refreshMark 1, .refreshRotate 2 "j2", .refreshRollback 2]) s 2 aliceToken ∧
      isRefreshJtiValid s.now 1 "j1" s.redis = true := by
  refine ⟨_, rfl, ⟨_, _, _, rfl⟩, rfl, Or.inl rfl, ⟨_, _, rfl⟩, ?_, rfl⟩
  intro h
  obtain ⟨ck, hck⟩ := h.caught
  cases hck

end
end PulseWatch.Sessions
