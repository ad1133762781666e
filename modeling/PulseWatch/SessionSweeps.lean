import PulseWatch.SessionLedger

/-!
# What a revocation accounts for

`revoke_all_refresh_for_user` deletes the keys its SCAN returned. Whether that ends
every session of a kind is a question about the keys the scan has in hand: they cover
the sessions still alive until a step stores a new one.
-/

namespace PulseWatch.Sessions
open RedisClient ExpiringStore

/-- The token is not one that waits for its rollback. -/
def Settled (s : Sys) (m : Minted) : Prop := (s.calls m.maker).pending = false

/- The keys contain every session of the kind that is still alive. -/
def Covers (s : Sys) (kind : Minted → Prop) (keys : List RedisKey) : Prop :=
  ∀ m ∈ s.minted, kind m → Settled s m → alive s.now m.key s.redis = true → m.key ∈ keys

theorem covers_scan {s s' : Sys} {u : ℕ} (hnow : s'.now = s.now) (hredis : s'.redis = s.redis)
    {kind : Minted → Prop} (hkind : ∀ m, kind m → m.sub = u) :
    Covers s' kind (scanRefresh s.now u s.redis) := by
  intro m _ hm _ ha
  rw [hnow, hredis] at ha
  exact (mem_scanRefresh _ _ _ _).mpr ⟨ha, m.jti, hkind m hm ▸ rfl⟩

theorem Covers.over {s : Sys} {kind : Minted → Prop} {keys : List RedisKey}
    (h : Covers s kind keys) (hgone : ∀ k ∈ keys, alive s.now k s.redis = false) :
    ∀ m ∈ s.minted, kind m → Settled s m → alive s.now m.key s.redis = false := by
  intro m hm hk hset
  by_contra ha
  exact ha (hgone _ (h m hm hk hset (by simpa using ha)))

section
variable {cfg : Settings} {cr : Crypto} {s s' : Sys} {l : Label}

theorem alive_before (hs : step cfg cr s l = some s') {m : Minted} (hm : m ∈ s.minted)
    (ha : alive s'.now m.key s'.redis = true) : alive s.now m.key s.redis = true := by
  by_contra hd
  rw [gone_step hs hm (Bool.not_eq_true _ ▸ hd)] at ha
  cases ha

/- Only the rollback settles a token that waited for it, and it removes its key. -/
theorem settled_before (hl : Ledger s) (hh : Heirs s.calls) (hs : step cfg cr s l = some s')
    {m : Minted} (hm : m ∈ s.minted) (hset : Settled s' m)
    (ha : alive s'.now m.key s'.redis = true) : Settled s m := by
  have quiet : ∀ c p, s'.calls = Function.update s.calls c p →
      p.pending = (s.calls c).pending → Settled s m := by
    intro c p hc hp
    rw [Settled, hc, role_update Call.pending s.calls c p hp] at hset
    exact hset
  cases step_move cfg cr hs with
  | tick ms => exact hset
  | @refused c n new ck hc =>
    by_cases hmc : m.maker = c
    · have hown := hl.owned m hm
      rw [hmc, hc] at hown
      obtain rfl := Option.some.inj hown
      have hsub := (hh c n new (by rw [hc]; rfl)).1
      rw [Minted.key, hsub] at ha
      have hdel := not_alive_del s.now (.refresh n.sub new.jti) s.redis
      exact absurd (hdel.symm.trans ha) Bool.false_ne_true
    · rw [Settled] at hset ⊢
      have hother : (Function.update s.calls c (.refused n new ck)) m.maker = s.calls m.maker :=
        Function.update_of_ne hmc _ _
      exact hother ▸ hset
  | @stale c jti n ck hc hf hv =>
    by_cases hmc : m.maker = c
    · have hown := hl.owned m hm
      rw [hmc, hc] at hown
      cases hown
    · rw [Settled] at hset ⊢
      have hother : (Function.update s.calls c
          (.stale n (mint cfg s c n.sub jti n.family n.verified) ck)) m.maker =
            s.calls m.maker := Function.update_of_ne hmc _ _
      exact hother ▸ hset
  | revoked why began scan hc hk => exact quiet _ _ rfl (by rw [hc])
  | loginFailed _ hc | loginVerified _ hc _ | expired hc _ _ | reuseFound hc _ _ _
  | unused hc _ _ _ | forgottenNobody hc | resetTooShort hc | resetCommitted _ _ _ hc _
  | resetFailed _ _ _ hc | loggedIn _ hc | loginStored _ _ hc _ | forgotten _ hc
  | rotated _ _ hc _ _ | refreshed _ _ _ hc | loggedOut hc _ | resetConsumed _ hc _
  | resetUnknown hc | reuseScan _ _ hc | resetScan _ _ hc | reuseRefused _ _ _ _ hc _
  | resetDone _ _ _ _ hc _ =>
    exact quiet _ _ rfl (by rw [hc]; rfl)

/- A session appears by the SET of a login or by an exchange of a valid token. -/
theorem settled_new (hs : step cfg cr s l = some s') {m : Minted} (hm : m ∈ s'.minted)
    (hnew : m ∉ s.minted) (hset : Settled s' m) :
    (∃ c jti u v, l = .loginStore c jti ∧ s.calls c = .loginVerified u v ∧ m.sub = u ∧
      m.verified = v) ∨
    ∃ c jti n ck, l = .refreshRotate c jti ∧ s.calls c = .unused n ck ∧
      isRefreshJtiValid s.now n.sub n.jti s.redis = true ∧ m.sub = n.sub ∧
      m.verified = n.verified := by
  cases step_move cfg cr hs with
  | @loginStored c jti u v hc hf =>
    obtain rfl := (List.mem_cons.mp hm).resolve_right hnew
    exact Or.inl ⟨c, jti, u, v, rfl, hc, rfl, rfl⟩
  | @rotated c jti n ck hc hf hv =>
    obtain rfl := (List.mem_cons.mp hm).resolve_right hnew
    exact Or.inr ⟨c, jti, n, ck, rfl, hc, hv, rfl, rfl⟩
  | @stale c jti n ck hc hf hv =>
    -- the new key waits for its rollback
    obtain rfl := (List.mem_cons.mp hm).resolve_right hnew
    have hpend : ((s.goto c (.stale n (mint cfg s c n.sub jti n.family n.verified) ck)).calls
        c).pending = false := hset
    rw [Sys.goto_self] at hpend
    cases hpend
  | _ => exact absurd hm hnew

theorem Covers.step {kind : Minted → Prop} {keys : List RedisKey} (h : Covers s kind keys)
    (hl : Ledger s) (hh : Heirs s.calls) (hs : Sessions.step cfg cr s l = some s')
    (hnew : ∀ m ∈ s'.minted, m ∉ s.minted → kind m → ¬ Settled s' m) : Covers s' kind keys := by
  intro m hm hk hset ha
  by_cases hold : m ∈ s.minted
  · exact h m hold hk (settled_before hl hh hs hold hset ha) (alive_before hs hold ha)
  · exact absurd hset (hnew m hm hold hk)

/-! ### A revocation runs to its end -/

def Call.sweeping : Call → Option (Why × List RedisKey)
  | .revoking why _ scan => some (why, scan)
  | _ => none

theorem Call.revoking_of_sweeping {p : Call} {why : Why} {scan : List RedisKey}
    (h : p.sweeping = some (why, scan)) : ∃ b, p = .revoking why b scan := by
  cases p with
  | revoking w b k =>
    obtain ⟨rfl, rfl⟩ := Prod.mk.inj (Option.some.inj h)
    exact ⟨b, rfl⟩
  | _ => cases h

/- What becomes of a revocation in one step, and where it comes from. -/
theorem sweeping_step (hs : step cfg cr s l = some s') {r : ℕ} {why : Why}
    {scan : List RedisKey} (hr : (s'.calls r).sweeping = some (why, scan)) :
    (s.calls r).sweeping = some (why, scan) ∨
      l = .revokeBegin r ∧ scan = scanRefresh s.now why.user s.redis ∧ s'.now = s.now ∧
        s'.redis = s.redis := by
  have quiet : ∀ c p, s'.calls = Function.update s.calls c p →
      p.sweeping = (s.calls c).sweeping → (s.calls r).sweeping = some (why, scan) := by
    intro c p hc hp
    rw [hc, role_update Call.sweeping s.calls c p hp] at hr
    exact hr
  have leaving : ∀ c p, s'.calls = Function.update s.calls c p → p.sweeping = none →
      (s.calls r).sweeping = some (why, scan) := by
    intro c p hc hp
    by_cases hrc : r = c
    · rw [hc, hrc, Function.update_self, hp] at hr
      cases hr
    · rwa [hc, Function.update_of_ne hrc] at hr
  have scanning : ∀ c w b, s' = s.goto c (.revoking w b (scanRefresh s.now w.user s.redis)) →
      (s.calls r).sweeping = some (why, scan) ∨
        Label.revokeBegin c = .revokeBegin r ∧ scan = scanRefresh s.now why.user s.redis ∧
          s'.now = s.now ∧ s'.redis = s.redis := by
    rintro c w b rfl
    by_cases hrc : r = c
    · subst hrc
      rw [Sys.goto_self] at hr
      obtain ⟨rfl, rfl⟩ := Prod.mk.inj (Option.some.inj hr)
      exact Or.inr ⟨rfl, rfl, rfl, rfl⟩
    · rw [Sys.goto_ne _ hrc] at hr
      exact Or.inl hr
  cases step_move cfg cr hs with
  | tick ms => exact Or.inl hr
  | reuseScan m ck hc => exact scanning _ (.reuse m ck) _ rfl
  | resetScan u cm hc => exact scanning _ (.reset u cm) _ rfl
  | revoked why began scan hc hk => exact Or.inl (quiet _ _ rfl (by rw [hc]))
  | _ => exact Or.inl (leaving _ _ rfl rfl)

def Call.swept : Call → Option Why
  | .reuseRefused m ck _ => some (.reuse m ck)
  | .resetDone u cm _ => some (.reset u cm)
  | _ => none

theorem swept_step (hs : step cfg cr s l = some s') {r : ℕ} {why : Why}
    (hr : (s'.calls r).swept = some why) :
    (s.calls r).swept = some why ∨
      ∃ scan, l = .revokeEnd r ∧ (s.calls r).sweeping = some (why, scan) ∧
        (∀ k ∈ scan, alive s.now k s.redis = false) ∧ s'.now = s.now ∧ s'.redis = s.redis := by
  have leaving : ∀ c p, s'.calls = Function.update s.calls c p → p.swept = none →
      (s.calls r).swept = some why := by
    intro c p hc hp
    by_cases hrc : r = c
    · rw [hc, hrc, Function.update_self, hp] at hr
      cases hr
    · rwa [hc, Function.update_of_ne hrc] at hr
  have ending : ∀ c p w b scan, s' = s.goto c p → p.swept = some w →
      s.calls c = .revoking w b scan → (∀ k ∈ scan, alive s.now k s.redis = false) →
      (s.calls r).swept = some why ∨
        ∃ scan, Label.revokeEnd c = .revokeEnd r ∧ (s.calls r).sweeping = some (why, scan) ∧
          (∀ k ∈ scan, alive s.now k s.redis = false) ∧ s'.now = s.now ∧ s'.redis = s.redis := by
    rintro c p w b scan rfl hp hc hall
    by_cases hrc : r = c
    · subst hrc
      rw [Sys.goto_self, hp] at hr
      obtain rfl := Option.some.inj hr
      exact Or.inr ⟨scan, rfl, by rw [hc]; rfl, hall, rfl, rfl⟩
    · rw [Sys.goto_ne _ hrc] at hr
      exact Or.inl hr
  cases step_move cfg cr hs with
  | tick ms => exact Or.inl hr
  | reuseRefused m ck b scan hc hall => exact ending _ _ _ b scan rfl rfl hc hall
  | resetDone u cm b scan hc hall => exact ending _ _ _ b scan rfl rfl hc hall
  | _ => exact Or.inl (leaving _ _ rfl rfl)

/- SCAN matches only keys of the user. -/
def ScansOwn (s : Sys) : Prop :=
  ∀ c why scan, (s.calls c).sweeping = some (why, scan) →
    ∀ k ∈ scan, matchesRefresh why.user k = true

theorem ScansOwn.step (h : ScansOwn s) (hs : Sessions.step cfg cr s l = some s') :
    ScansOwn s' := by
  intro c why scan hc k hk
  rcases sweeping_step hs hc with hold | ⟨-, rfl, -, -⟩
  · exact h c why scan hold k hk
  · obtain ⟨-, j, rfl⟩ := (mem_scanRefresh _ _ _ _).mp hk
    exact decide_eq_true rfl

theorem scansOwn_reachable {now : ℕ} {users : List User}
    (h : Runs.Reachable (Sessions.step cfg cr) (init now users) s) : ScansOwn s := by
  refine Runs.reachable_invariant ScansOwn (fun _ _ _ hi hs => hi.step hs) ?_ h
  intro c why scan hc
  cases hc

/-- A step of the revocation of call `c`. -/
def Label.sweeps (c : ℕ) : Label → Bool
  | .revokeBegin d | .revokeDelete d _ | .revokeEnd d => d = c
  | _ => false

/- A revocation can always run to its end: one DEL for each key of its scan. -/
theorem deletions (cfg : Settings) (cr : Crypto) {s : Sys} {c : ℕ} {why : Why} {b : ℕ}
    {scan : List RedisKey} (hc : s.calls c = .revoking why b scan) (ks : List RedisKey)
    (hks : ∀ k ∈ ks, matchesRefresh why.user k = true) :
    ∃ s', Runs.run (Sessions.step cfg cr) s (ks.map (.revokeDelete c)) = some s' ∧
      s'.calls c = .revoking why b scan ∧ s'.now = s.now ∧
      (∀ k ∈ ks, alive s'.now k s'.redis = false) ∧
      ∀ k, alive s.now k s.redis = false → alive s'.now k s'.redis = false := by
  induction ks generalizing s with
  | nil => exact ⟨s, rfl, hc, rfl, by simp, fun _ hk => hk⟩
  | cons k ks ih =>
    let t : Sys := { s.goto c (.revoking why b scan) with redis := del k s.redis }
    have hstep : Sessions.step cfg cr s (.revokeDelete c k) = some t := by
      simp only [Sessions.step, hc, hks k List.mem_cons_self, if_true]
      rfl
    have htc : t.calls c = .revoking why b scan := Function.update_self _ _ _
    obtain ⟨s', hrun, hc', hnow, hgone, hkeep⟩ :=
      ih htc fun x hx => hks x (List.mem_cons_of_mem _ hx)
    refine ⟨s', ?_, hc', hnow, ?_, ?_⟩
    · rw [List.map_cons, Runs.run, hstep]
      exact hrun
    · intro x hx
      rcases List.mem_cons.mp hx with rfl | hx
      · exact hkeep x (not_alive_del _ _ _)
      · exact hgone x hx
    · intro x hx
      have hgone : alive t.now x t.redis = false :=
        gone_later (Nat.le_refl s.now) (deadline_del x k s.redis) hx
      exact hkeep x hgone

theorem ScansOwn.completes (h : ScansOwn s) {c : ℕ} {m : Minted} {ck : Stamp} {b : ℕ}
    {scan : List RedisKey} (hc : s.calls c = .revoking (.reuse m ck) b scan) :
    ∃ ms t, (∀ l ∈ ms, l.sweeps c = true) ∧ Runs.run (Sessions.step cfg cr) s ms = some t ∧
      t.calls c = .reuseRefused m ck b := by
  have hown := h c (.reuse m ck) scan (by rw [hc]; rfl)
  obtain ⟨t, hrun, htc, -, hgone, -⟩ := deletions cfg cr hc scan hown
  refine ⟨scan.map (.revokeDelete c) ++ [.revokeEnd c], t.goto c (.reuseRefused m ck b), ?_, ?_,
    Function.update_self _ _ _⟩
  · intro l hl
    rcases List.mem_append.mp hl with hl | hl
    · obtain ⟨k, -, rfl⟩ := List.mem_map.mp hl
      exact decide_eq_true rfl
    · obtain rfl := List.mem_singleton.mp hl
      exact decide_eq_true rfl
  have hall : (scan.all fun k => !alive t.now k t.redis) = true := by
    rw [List.all_eq_true]
    intro k hk
    rw [hgone k hk]
    rfl
  rw [Runs.run_append, hrun]
  show (Sessions.step cfg cr t (.revokeEnd c)).bind (fun u => Runs.run _ u []) = _
  rw [Sessions.step, htc]
  simp only [hall, if_true]
  rfl

end
end PulseWatch.Sessions
