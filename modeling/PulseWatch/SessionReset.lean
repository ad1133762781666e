import PulseWatch.SessionSweeps

/-!
# Sessions after a password reset

`reset_password` commits the new hash and then scans Redis. A login that read the
old row stores its session whenever it gets there, and a rotation moves a session
to a key the scan may never see; the schedule that avoids both is `ResetSafe`,
and under it no session opened with the old password outlives the reset.
-/

namespace PulseWatch.Sessions
open RedisClient ExpiringStore

/- A reset that has begun its scan: its user, the step of its commit and the keys
it has still to account for, none once it has answered. -/
def Call.resetting : Call → Option (ℕ × ℕ × List RedisKey)
  | .revoking (.reset u cm) _ scan => some (u, cm, scan)
  | .resetDone u cm _ => some (u, cm, [])
  | _ => none

theorem Call.resetting_cases {p : Call} {u cm : ℕ} {keys : List RedisKey}
    (h : p.resetting = some (u, cm, keys)) :
    (∃ b, p = .revoking (.reset u cm) b keys) ∨ ∃ b, p = .resetDone u cm b ∧ keys = [] := by
  cases p with
  | revoking why b scan =>
    cases why with
    | reuse m ck => cases h
    | reset v cv =>
      cases h
      exact Or.inl ⟨b, rfl⟩
  | resetDone v cv b =>
    cases h
    exact Or.inr ⟨b, rfl, rfl⟩
  | _ => cases h

/- Every login that loaded the row before the commit stores its jti before the
scan begins, and no refresh exchanges a token of such a login during the scan. -/
def ResetSafe (s : Sys) : Label → Prop
  | .loginStore c _ => ∀ u v, s.calls c = .loginVerified u v →
      ∀ r cm keys, (s.calls r).resetting = some (u, cm, keys) → cm ≤ v
  | .refreshRotate c _ => ∀ m ck, s.calls c = .unused m ck →
      isRefreshJtiValid s.now m.sub m.jti s.redis = true →
      ∀ r cm b scan, s.calls r = .revoking (.reset m.sub cm) b scan → cm ≤ m.verified
  | _ => True

/- After a finished reset no token that goes back to a login on the old password
can be exchanged. -/
def ResetSound (s : Sys) : Prop :=
  ∀ r u cm b, s.calls r = .resetDone u cm b →
    ∀ m ∈ s.returned, m.sub = u → m.verified < cm → ¬ Exchangeable s m

/- The sessions of the old password still alive are among the keys the reset has
to account for. -/
def Purging (s : Sys) : Prop :=
  ∀ r u cm keys, (s.calls r).resetting = some (u, cm, keys) →
    Covers s (fun m => m.sub = u ∧ m.verified < cm) keys

section
variable {cfg : Settings} {cr : Crypto} {s s' : Sys} {l : Label}

theorem resetting_step (hs : step cfg cr s l = some s') {r u cm : ℕ} {keys : List RedisKey}
    (hr : (s'.calls r).resetting = some (u, cm, keys)) :
    (s.calls r).resetting = some (u, cm, keys) ∨
      (keys = scanRefresh s.now u s.redis ∧ s'.now = s.now ∧ s'.redis = s.redis) ∨
      ∃ scan, (s.calls r).resetting = some (u, cm, scan) ∧ keys = [] ∧
        (∀ k ∈ scan, alive s.now k s.redis = false) ∧ s'.now = s.now ∧ s'.redis = s.redis := by
  have from_sweeping : ∀ scan, (s.calls r).sweeping = some (.reset u cm, scan) →
      (s.calls r).resetting = some (u, cm, scan) := by
    intro scan hsw
    obtain ⟨b, hc⟩ := Call.revoking_of_sweeping hsw
    rw [hc]
    rfl
  rcases Call.resetting_cases hr with ⟨b, hp⟩ | ⟨b, hp, rfl⟩
  · have hsw : (s'.calls r).sweeping = some (.reset u cm, keys) := by
      rw [hp]
      rfl
    rcases sweeping_step hs hsw with hold | ⟨-, hk, hnow, hredis⟩
    · exact Or.inl (from_sweeping keys hold)
    · exact Or.inr (Or.inl ⟨hk, hnow, hredis⟩)
  · have hswept : (s'.calls r).swept = some (.reset u cm) := by
      rw [hp]
      rfl
    rcases swept_step hs hswept with hold | ⟨scan, -, hsw, hall, hnow, hredis⟩
    · cases hc : s.calls r with
      | resetDone v cv d =>
        rw [hc] at hold
        cases hold
        exact Or.inl rfl
      | _ =>
        rw [hc] at hold
        cases hold
    · exact Or.inr (Or.inr ⟨scan, from_sweeping scan hsw, rfl, hall, hnow, hredis⟩)

namespace Purging

theorem rotation_settles (h : Purging s) (hl : Ledger s) {c r u cm : ℕ} {jti : String}
    {keys : List RedisKey} {n : Minted} {ck : Stamp} (hok : ResetSafe s (.refreshRotate c jti))
    (hc : s.calls c = .unused n ck)
    (hv : isRefreshJtiValid s.now n.sub n.jti s.redis = true)
    (hr : (s.calls r).resetting = some (u, cm, keys)) (hu : n.sub = u) : cm ≤ n.verified := by
  by_contra hlt
  have hnr : n ∈ s.returned := hl.presented c n (by rw [hc]; rfl)
  have hin : n.key ∈ keys := h r u cm keys hr n (hl.returned_minted hnr)
    ⟨hu, Nat.not_le.mp hlt⟩ (Call.settled_of_delivered (hl.handed n hnr)) hv
  rcases Call.resetting_cases hr with ⟨b, hp⟩ | ⟨b, -, rfl⟩
  · exact hlt (hok n ck hc hv r cm b keys (hu ▸ hp))
  · exact absurd hin List.not_mem_nil

theorem none_new (h : Purging s) (hl : Ledger s) (hok : ResetSafe s l)
    (hs : Sessions.step cfg cr s l = some s') {r u cm : ℕ} {keys : List RedisKey}
    (hr : (s.calls r).resetting = some (u, cm, keys)) :
    ∀ m ∈ s'.minted, m ∉ s.minted → m.sub = u ∧ m.verified < cm → ¬ Settled s' m := by
  rintro m hm hnew ⟨hu, hlt⟩ hset
  rcases settled_new hs hm hnew hset with
    ⟨c, jti, v, t, rfl, hc, hsub, hver⟩ | ⟨c, jti, n, ck, rfl, hc, hv, hsub, hver⟩
  · have hle := hok v t hc r cm keys (by rw [hr, ← hu, hsub])
    omega
  · have hle := h.rotation_settles hl hok hc hv hr (by rw [← hsub, hu])
    omega

theorem step (h : Purging s) (hl : Ledger s) (hh : Heirs s.calls) (hok : ResetSafe s l)
    (hs : Sessions.step cfg cr s l = some s') : Purging s' := by
  intro r u cm keys hr
  rcases resetting_step hs hr with
    hold | ⟨rfl, hnow, hredis⟩ | ⟨scan, hold, rfl, hall, hnow, hredis⟩
  · exact (h r u cm keys hold).step hl hh hs (h.none_new hl hok hs hold)
  · exact covers_scan hnow hredis fun m hm => hm.1
  · have hcovers := (h r u cm scan hold).step hl hh hs (h.none_new hl hok hs hold)
    have hover := hcovers.over (by rwa [hnow, hredis])
    intro m hm hk hset ha
    rw [hover m hm hk hset] at ha
    cases ha

theorem sound (h : Purging s) (hl : Ledger s) : ResetSound s := by
  intro r u cm b hr m hm hu hv ha
  have hin := h r u cm [] (by rw [hr]; rfl) m (hl.returned_minted hm) ⟨hu, hv⟩
    (Call.settled_of_delivered (hl.handed m hm)) ha
  exact absurd hin List.not_mem_nil

end Purging

/- In every run on a `ResetSafe` schedule no session of the old password can be
exchanged once a reset has returned. -/
theorem reset_ends_old_sessions (now : ℕ) (users : List User) (ls : List Label)
    (hok : Runs.Along (step cfg cr) ResetSafe (init now users) ls) :
    Runs.Throughout (step cfg cr) ResetSound (init now users) ls := by
  refine Runs.throughout_of_invariant (fun t => (Ledger t ∧ Heirs t.calls) ∧ Purging t)
    ResetSound ResetSafe ?_ (fun t ht => ht.2.sound ht.1.1) ?_ hok
  · rintro t l t' ⟨⟨hl, hh⟩, hp⟩ hsafe hs
    exact ⟨⟨hl.step hh hs, heirs_step hh hs⟩, hp.step hl hh hsafe hs⟩
  · refine ⟨⟨Ledger.init now users, ?_⟩, ?_⟩
    · intro c m k hk
      cases hk
    · intro r u cm keys hr
      cases hr

end

def aliceReset : List Label :=
  [.forgot 1 "alice@example.com" "tok", .resetConsume 2 "tok" "new-secret",
    .resetCommit 2 "$2b$12$NewNewNewNewNewNewNewu", .revokeBegin 2]

def aliceResetAfterLogin : List Label :=
  aliceLogin ++ aliceReset ++ [.revokeDelete 2 (.refresh 1 "j0"), .revokeEnd 2]

theorem reset_ends_old_sessions_after_login :
    Runs.Throughout (step {} tabledCrypto) ResetSound (init 0 [alice]) aliceResetAfterLogin := by
  refine reset_ends_old_sessions 0 [alice] aliceResetAfterLogin ?_
  refine ⟨trivial, fun s₁ h₁ => ?_⟩
  obtain rfl := Option.some.inj h₁
  refine ⟨?_, fun s₂ h₂ => ?_⟩
  · intro u v _ r cm keys hr
    have hnone := role_update Call.resetting (init 0 [alice]).calls 0 (.loginVerified 1 0) rfl r
    cases hnone.symm.trans hr
  obtain rfl := Option.some.inj h₂
  exact ⟨trivial, fun _ _ => ⟨trivial, fun _ _ => ⟨trivial, fun _ _ => ⟨trivial, fun _ _ =>
    ⟨trivial, fun _ _ => ⟨trivial, fun _ _ => ⟨trivial, fun _ _ => trivial⟩⟩⟩⟩⟩⟩⟩

/- A login that checked the old password stores its session after the reset has
answered, and the token it returns is exchanged. -/
theorem reset_missed_by_late_login :
    ∃ s, Runs.run (step {} tabledCrypto) (init 0 [alice])
        (.loginVerify 0 "alice@example.com" "old-secret" none :: aliceReset ++
          [.revokeEnd 2, .loginStore 0 "j0", .loginReturn 0,
            .refreshCheck 3 ⟨1, "j0", 604800, "j0", 0, 0, 6⟩, .refreshRotate 3 "j1",
            .refreshMark 3]) = some s ∧
      s.calls 2 = .resetDone 1 3 4 ∧ Exchanged s 3 ⟨1, "j0", 604800, "j0", 0, 0, 6⟩ ∧
      ¬ ResetSound s := by
  refine ⟨_, rfl, rfl, ⟨_, _, _, rfl⟩, ?_⟩
  intro h
  exact h 2 1 3 4 rfl ⟨1, "j1", 604800, "j0", 3, 0, 9⟩ (by decide) rfl (by decide) rfl

end PulseWatch.Sessions
