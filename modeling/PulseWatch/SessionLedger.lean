import PulseWatch.SessionMoves

/-!
# The session ledger

One invariant over the whitelist, the tokens made so far and the calls in
flight. It holds in every reachable state and carries the two session laws:
a refresh jti is exchanged at most once, and of the tokens descending from one
login at most one that a client holds can still be exchanged.

`rotate_refresh_jti` installs the successor before it knows whether the
predecessor was valid; until the rollback that key is stored but `pending`, and
no client ever gets its token.
-/

namespace PulseWatch.Sessions
open RedisClient ExpiringStore

/-! ### Roles of a call -/

/-- The token the call has minted. -/
def Call.owns : Call → Option Minted
  | .loginStored m | .loggedIn m => some m
  | .rotated _ k _ | .refreshed _ k _ _ | .stale _ k _ | .refused _ k _ => some k
  | _ => none

/-- The token the call has returned to its client. -/
def Call.delivered : Call → Option Minted
  | .loggedIn m => some m
  | .refreshed _ k _ _ => some k
  | _ => none

/-- The token the call has exchanged. -/
def Call.spent : Call → Option Minted
  | .rotated m _ _ | .refreshed m _ _ _ => some m
  | _ => none

/-- The call holds a successor it still has to roll back. -/
def Call.pending : Call → Bool
  | .stale _ _ _ => true
  | _ => false

/-- The token presented to `/auth/refresh`. -/
def Call.presents : Call → Option Minted
  | .unused m _ | .rotated m _ _ | .refreshed m _ _ _ | .stale m _ _ | .refused m _ _
  | .reuseFound m _ | .revoking (.reuse m _) _ _ | .reuseRefused m _ _ => some m
  | _ => none

/-- What the ledger reads off a call, apart from the token presented. -/
def Call.roles (p : Call) : Option Minted × Option Minted × Option Minted × Bool :=
  (p.owns, p.delivered, p.spent, p.pending)

/-- The token presented and its successor. -/
def Call.heir : Call → Option (Minted × Minted)
  | .rotated m k _ | .refreshed m k _ _ | .stale m k _ | .refused m k _ => some (m, k)
  | _ => none

theorem Call.owns_of_delivered {p : Call} {m : Minted} (h : p.delivered = some m) :
    p.owns = some m := by
  cases p <;> simp_all [Call.delivered, Call.owns]

theorem Call.settled_of_delivered {p : Call} {m : Minted} (h : p.delivered = some m) :
    p.pending = false := by
  cases p <;> simp_all [Call.delivered, Call.pending]

theorem Call.presents_of_spent {p : Call} {m : Minted} (h : p.spent = some m) :
    p.presents = some m := by
  cases p <;> simp_all [Call.spent, Call.presents]

/-! ### Successors

A rotated token belongs to the same user and login as the one it replaces. -/

def Heirs (calls : ℕ → Call) : Prop :=
  ∀ c m k, (calls c).heir = some (m, k) →
    k.sub = m.sub ∧ k.family = m.family ∧ k.verified = m.verified

theorem heirs_update {calls : ℕ → Call} (h : Heirs calls) {c : ℕ} {p : Call}
    (hp : ∀ m k, p.heir = some (m, k) →
      k.sub = m.sub ∧ k.family = m.family ∧ k.verified = m.verified) :
    Heirs (Function.update calls c p) := by
  intro x m k hx
  by_cases hxc : x = c
  · subst hxc
    rw [Function.update_self] at hx
    exact hp m k hx
  · rw [Function.update_of_ne hxc] at hx
    exact h x m k hx

theorem heirs_step {cfg : Settings} {cr : Crypto} {s s' : Sys} {l : Label} (h : Heirs s.calls)
    (hs : step cfg cr s l = some s') : Heirs s'.calls := by
  have hmove := step_move cfg cr hs
  cases hmove with
  | tick => exact h
  | rotated m ck hc | stale m ck hc =>
    refine heirs_update h ?_
    intro m' k hk
    obtain ⟨rfl, rfl⟩ := Prod.mk.inj (Option.some.inj hk)
    exact ⟨rfl, rfl, rfl⟩
  | refreshed m new ck hc | refused m new ck hc =>
    refine heirs_update h ?_
    intro m' k hk
    exact h _ m' k (by rw [hc]; exact hk)
  | _ =>
    refine heirs_update h ?_
    intro m k hk
    cases hk

/- What a call has delivered is in the clients' hands. -/
def Delivered (s : Sys) : Prop := ∀ c m, (s.calls c).delivered = some m → m ∈ s.returned

theorem delivered_step {cfg : Settings} {cr : Crypto} {s s' : Sys} {l : Label} (h : Delivered s)
    (hs : step cfg cr s l = some s') : Delivered s' := by
  have quiet : ∀ c p, s'.calls = Function.update s.calls c p → p.delivered = none →
      Delivered s' := by
    intro c p hc hp x m hx
    rw [hc] at hx
    by_cases hxc : x = c
    · subst hxc
      rw [Function.update_self, hp] at hx
      cases hx
    · rw [Function.update_of_ne hxc] at hx
      exact returned_step hs (h x m hx)
  have handing : ∀ c p k, s'.calls = Function.update s.calls c p → p.delivered = some k →
      k ∈ s'.returned → Delivered s' := by
    intro c p k hc hp hk x m hx
    rw [hc] at hx
    by_cases hxc : x = c
    · subst hxc
      rw [Function.update_self, hp] at hx
      exact Option.some.inj hx ▸ hk
    · rw [Function.update_of_ne hxc] at hx
      exact returned_step hs (h x m hx)
  have hmove := step_move cfg cr hs
  cases hmove with
  | tick => exact h
  | loggedIn m hc | refreshed _ m _ hc => exact handing _ _ m rfl rfl List.mem_cons_self
  | _ => exact quiet _ _ rfl rfl

/-! ### The invariant -/

/-- The key is in Redis, expired or not. -/
def Stored (r : Redis) (k : RedisKey) : Prop := deadline? k r ≠ none

theorem stored_of_alive {now : ℕ} {r : Redis} {k : RedisKey} (h : alive now k r = true) :
    Stored r k := by
  obtain ⟨d, hd, -⟩ := (alive_iff _ _ _).mp h
  simp [Stored, hd]

theorem stored_set {r : Redis} {k x : RedisKey} {v : RedisValue} {d : ℕ} (hx : x ≠ k)
    (h : Stored (set k v d r) x) : Stored r x := by
  rw [Stored, deadline?_set_ne _ _ _ _ _ hx] at h
  exact h

theorem not_stored_del (r : Redis) (k : RedisKey) : ¬ Stored (del k r) k := by
  rw [Stored, deadline?_del_self]
  exact fun hn => hn rfl

theorem stored_del {r : Redis} {k x : RedisKey} (h : Stored (del k r) x) : Stored r x := by
  by_cases hx : x = k
  · exact absurd (hx ▸ h) (not_stored_del r k)
  · rw [Stored, deadline?_del_ne _ _ _ hx] at h
    exact h

theorem stored_rotate {now u ttl : ℕ} {old new : String} {r : Redis} {x : RedisKey}
    (hx : x ≠ .refresh u new) (h : Stored (rotatePipeline now u old new ttl r).2 x) :
    Stored r x ∧ x ≠ .refresh u old := by
  have hdel := stored_set hx h
  refine ⟨stored_del hdel, ?_⟩
  rintro rfl
  exact not_stored_del _ _ hdel

/- A session key found after a store or a rotation is an old one or the new one. -/
theorem stored_or_set {u x d : ℕ} {j jti : String} {v : RedisValue} {r : Redis}
    (h : Stored (set (.refresh u jti) v d r) (.refresh x j)) :
    Stored r (.refresh x j) ∨ (x = u ∧ j = jti) := by
  by_cases hx : RedisKey.refresh x j = .refresh u jti
  · injection hx with hxu hxj
    exact Or.inr ⟨hxu, hxj⟩
  · exact Or.inl (stored_set hx h)

theorem stored_or_rotated {now u ttl x : ℕ} {old new j : String} {r : Redis}
    (h : Stored (rotatePipeline now u old new ttl r).2 (.refresh x j)) :
    Stored r (.refresh x j) ∨ (x = u ∧ j = new) := by
  rcases stored_or_set h with hold | hnew
  · exact Or.inl (stored_del hold)
  · exact Or.inr hnew

structure Ledger (s : Sys) : Prop where
  jti_inj : ∀ m ∈ s.minted, ∀ n ∈ s.minted, m.jti = n.jti → m = n
  rooted : ∀ m ∈ s.minted, ∃ r ∈ s.minted, r.jti = m.family
  stored : ∀ u j, Stored s.redis (.refresh u j) → ∃ m ∈ s.minted, m.sub = u ∧ m.jti = j
  owned : ∀ m ∈ s.minted, (s.calls m.maker).owns = some m
  owner : ∀ c m, (s.calls c).owns = some m → m ∈ s.minted ∧ m.maker = c
  handed : ∀ m ∈ s.returned, (s.calls m.maker).delivered = some m
  presented : ∀ c m, (s.calls c).presents = some m → m ∈ s.returned
  spent_gone : ∀ c m, (s.calls c).spent = some m → ¬ Stored s.redis m.key
  spent_once : ∀ c d m, (s.calls c).spent = some m → (s.calls d).spent = some m → c = d
  single : ∀ m ∈ s.minted, ∀ n ∈ s.minted, m.family = n.family →
    Stored s.redis m.key → Stored s.redis n.key →
    (s.calls m.maker).pending = false → (s.calls n.maker).pending = false → m = n

namespace Ledger

theorem returned_minted {s : Sys} (h : Ledger s) {m : Minted} (hm : m ∈ s.returned) :
    m ∈ s.minted :=
  (h.owner _ _ (Call.owns_of_delivered (h.handed m hm))).1

theorem init (now : ℕ) (users : List User) : Ledger (init now users) := by
  constructor <;> simp [Sessions.init, Stored, deadline?, ExpiringStore.find?, Call.owns,
    Call.presents, Call.spent]

/- Transitions that touch no role: tokens, their owners and the exchanges stay,
and of the session keys some may disappear. -/
theorem quiet {s s' : Sys} (h : Ledger s) {c : ℕ} {p : Call}
    (hm : s'.minted = s.minted) (hr : s'.returned = s.returned)
    (hk : ∀ u j, Stored s'.redis (.refresh u j) → Stored s.redis (.refresh u j))
    (hc : s'.calls = Function.update s.calls c p)
    (hroles : p.roles = (s.calls c).roles)
    (hpre : ∀ m, p.presents = some m → m ∈ s.returned) : Ledger s' := by
  have owns := fun x => role_update Call.owns s.calls c p (congrArg (·.1) hroles) x
  have delivered := fun x =>
    role_update Call.delivered s.calls c p (congrArg (·.2.1) hroles) x
  have spent := fun x => role_update Call.spent s.calls c p (congrArg (·.2.2.1) hroles) x
  have pending := fun x =>
    role_update Call.pending s.calls c p (congrArg (·.2.2.2) hroles) x
  constructor
  case jti_inj => rw [hm]; exact h.jti_inj
  case rooted => rw [hm]; exact h.rooted
  case stored =>
    intro u j hst
    rw [hm]
    exact h.stored u j (hk u j hst)
  case owned =>
    intro m hmem
    rw [hc, owns]
    exact h.owned m (hm ▸ hmem)
  case owner =>
    intro x m hx
    rw [hc, owns] at hx
    rw [hm]
    exact h.owner x m hx
  case handed =>
    intro m hmem
    rw [hc, delivered]
    exact h.handed m (hr ▸ hmem)
  case presented =>
    intro x m hx
    rw [hr]
    rw [hc] at hx
    by_cases hxc : x = c
    · subst hxc
      rw [Function.update_self] at hx
      exact hpre m hx
    · rw [Function.update_of_ne hxc] at hx
      exact h.presented x m hx
  case spent_gone =>
    intro x m hx hst
    rw [hc, spent] at hx
    exact h.spent_gone x m hx (hk _ _ hst)
  case spent_once =>
    intro x y m hx hy
    rw [hc, spent] at hx hy
    exact h.spent_once x y m hx hy
  case single =>
    intro m hmm n hnn hf hsm hsn hpm hpn
    rw [hc, pending] at hpm hpn
    rw [hm] at hmm hnn
    exact h.single m hmm n hnn hf (hk _ _ hsm) (hk _ _ hsn) hpm hpn

/- A newly minted token: its jti is fresh, its family is its own jti or that of
an older token, its key is stored, and its maker has just begun to own it. -/
theorem minting {s s' : Sys} (h : Ledger s) {c : ℕ} {p : Call} {k : Minted}
    (hfresh : ∀ m ∈ s.minted, m.jti ≠ k.jti)
    (hroot : k.family = k.jti ∨ ∃ r ∈ s.minted, r.jti = k.family)
    (hmaker : k.maker = c)
    (hm : s'.minted = k :: s.minted) (hr : s'.returned = s.returned)
    (hk : ∀ u j, Stored s'.redis (.refresh u j) →
      Stored s.redis (.refresh u j) ∨ (u = k.sub ∧ j = k.jti))
    (hc : s'.calls = Function.update s.calls c p)
    (ho : p.owns = some k) (hidle : (s.calls c).owns = none)
    (hsp : ∀ m, p.spent = some m → ¬ Stored s'.redis m.key ∧ ∀ d, (s.calls d).spent ≠ some m)
    (hspc : (s.calls c).spent = none)
    (hpre : ∀ m, p.presents = some m → m ∈ s.returned)
    (hsingle : p.pending = false → ∀ m ∈ s.minted, m.family = k.family →
      Stored s'.redis m.key → (s.calls m.maker).pending = false → False) : Ledger s' := by
  have other : ∀ m ∈ s.minted, m.maker ≠ c := by
    intro m hmem he
    have hown := h.owned m hmem
    rw [he, hidle] at hown
    cases hown
  have kept : ∀ m ∈ s.minted, Stored s'.redis m.key → Stored s.redis m.key := by
    intro m hmem hst
    rcases hk m.sub m.jti hst with hold | ⟨-, hj⟩
    · exact hold
    · exact absurd hj (hfresh m hmem)
  constructor
  case jti_inj =>
    rw [hm]
    intro m hmem n hnmem hj
    rcases List.mem_cons.mp hmem with rfl | hm1 <;> rcases List.mem_cons.mp hnmem with rfl | hn1
    · rfl
    · exact absurd hj.symm (hfresh n hn1)
    · exact absurd hj (hfresh m hm1)
    · exact h.jti_inj m hm1 n hn1 hj
  case rooted =>
    rw [hm]
    intro m hmem
    rcases List.mem_cons.mp hmem with rfl | hmem
    · rcases hroot with hself | ⟨r, hr', hrj⟩
      · exact ⟨m, List.mem_cons_self, hself.symm⟩
      · exact ⟨r, List.mem_cons_of_mem _ hr', hrj⟩
    · obtain ⟨r, hr', hrj⟩ := h.rooted m hmem
      exact ⟨r, List.mem_cons_of_mem _ hr', hrj⟩
  case stored =>
    intro u j hst
    rw [hm]
    rcases hk u j hst with hold | ⟨hu, hj⟩
    · obtain ⟨m, hmem, hmu, hmj⟩ := h.stored u j hold
      exact ⟨m, List.mem_cons_of_mem _ hmem, hmu, hmj⟩
    · exact ⟨k, List.mem_cons_self, hu.symm, hj.symm⟩
  case owned =>
    rw [hm, hc]
    intro m hmem
    rcases List.mem_cons.mp hmem with rfl | hmem
    · rw [hmaker, Function.update_self, ho]
    · rw [Function.update_of_ne (other m hmem)]
      exact h.owned m hmem
  case owner =>
    rw [hm, hc]
    intro x m hx
    by_cases hxc : x = c
    · subst hxc
      rw [Function.update_self, ho] at hx
      cases hx
      exact ⟨List.mem_cons_self, hmaker⟩
    · rw [Function.update_of_ne hxc] at hx
      exact ⟨List.mem_cons_of_mem _ (h.owner x m hx).1, (h.owner x m hx).2⟩
  case handed =>
    rw [hr, hc]
    intro m hmem
    rw [Function.update_of_ne (other m (h.returned_minted hmem))]
    exact h.handed m hmem
  case presented =>
    rw [hr, hc]
    intro x m hx
    by_cases hxc : x = c
    · subst hxc
      rw [Function.update_self] at hx
      exact hpre m hx
    · rw [Function.update_of_ne hxc] at hx
      exact h.presented x m hx
  case spent_gone =>
    intro x m hx hst
    rw [hc] at hx
    by_cases hxc : x = c
    · subst hxc
      rw [Function.update_self] at hx
      exact (hsp m hx).1 hst
    · rw [Function.update_of_ne hxc] at hx
      have hmem := h.returned_minted (h.presented x m (Call.presents_of_spent hx))
      exact h.spent_gone x m hx (kept m hmem hst)
  case spent_once =>
    rw [hc]
    intro x y m hx hy
    by_cases hxc : x = c <;> by_cases hyc : y = c
    · rw [hxc, hyc]
    · subst hxc
      rw [Function.update_self] at hx
      rw [Function.update_of_ne hyc] at hy
      exact absurd hy ((hsp m hx).2 y)
    · subst hyc
      rw [Function.update_self] at hy
      rw [Function.update_of_ne hxc] at hx
      exact absurd hx ((hsp m hy).2 x)
    · rw [Function.update_of_ne hxc] at hx
      rw [Function.update_of_ne hyc] at hy
      exact h.spent_once x y m hx hy
  case single =>
    rw [hm, hc]
    intro m hmem n hnmem hf hsm hsn hpm hpn
    rcases List.mem_cons.mp hmem with rfl | hm1 <;> rcases List.mem_cons.mp hnmem with rfl | hn1
    · rfl
    · rw [hmaker, Function.update_self] at hpm
      rw [Function.update_of_ne (other n hn1)] at hpn
      exact (hsingle hpm n hn1 hf.symm hsn hpn).elim
    · rw [hmaker, Function.update_self] at hpn
      rw [Function.update_of_ne (other m hm1)] at hpm
      exact (hsingle hpn m hm1 hf hsm hpm).elim
    · rw [Function.update_of_ne (other m hm1)] at hpm
      rw [Function.update_of_ne (other n hn1)] at hpn
      exact h.single m hm1 n hn1 hf (kept m hm1 hsm) (kept n hn1 hsn) hpm hpn

/- A call hands the token it owns to its client. -/
theorem delivering {s s' : Sys} (h : Ledger s) {c : ℕ} {p : Call} {k : Minted}
    (hm : s'.minted = s.minted) (hr : s'.returned = k :: s.returned)
    (hk : ∀ u j, Stored s'.redis (.refresh u j) → Stored s.redis (.refresh u j))
    (hc : s'.calls = Function.update s.calls c p)
    (ho : (s.calls c).owns = some k) (hpo : p.owns = some k) (hpd : p.delivered = some k)
    (hs : p.spent = (s.calls c).spent) (hset : (s.calls c).pending = false)
    (hpre : p.presents = (s.calls c).presents) : Ledger s' := by
  have hpp : p.pending = (s.calls c).pending := by
    rw [hset]
    exact Call.settled_of_delivered hpd
  have owns := fun x => role_update Call.owns s.calls c p (hpo.trans ho.symm) x
  have spent := fun x => role_update Call.spent s.calls c p hs x
  have pending := fun x => role_update Call.pending s.calls c p hpp x
  have presents := fun x => role_update Call.presents s.calls c p hpre x
  constructor
  case jti_inj => rw [hm]; exact h.jti_inj
  case rooted => rw [hm]; exact h.rooted
  case stored =>
    intro u j hst
    rw [hm]
    exact h.stored u j (hk u j hst)
  case owned =>
    intro m hmem
    rw [hc, owns]
    exact h.owned m (hm ▸ hmem)
  case owner =>
    intro x m hx
    rw [hc, owns] at hx
    rw [hm]
    exact h.owner x m hx
  case handed =>
    rw [hr, hc]
    intro m hmem
    rcases List.mem_cons.mp hmem with rfl | hmem
    · rw [(h.owner c m ho).2, Function.update_self, hpd]
    · by_cases hmc : m.maker = c
      · have hmk := (Call.owns_of_delivered (h.handed m hmem)).symm
        rw [hmc, ho] at hmk
        rw [hmc, Function.update_self, hpd, hmk]
      · rw [Function.update_of_ne hmc]
        exact h.handed m hmem
  case presented =>
    intro x m hx
    rw [hc, presents] at hx
    rw [hr]
    exact List.mem_cons_of_mem _ (h.presented x m hx)
  case spent_gone =>
    intro x m hx hst
    rw [hc, spent] at hx
    exact h.spent_gone x m hx (hk _ _ hst)
  case spent_once =>
    intro x y m hx hy
    rw [hc, spent] at hx hy
    exact h.spent_once x y m hx hy
  case single =>
    intro m hmm n hnn hf hsm hsn hpm hpn
    rw [hc, pending] at hpm hpn
    rw [hm] at hmm hnn
    exact h.single m hmm n hnn hf (hk _ _ hsm) (hk _ _ hsn) hpm hpn

/-! ### Every transition keeps the ledger -/

section
variable {cfg : Settings} {cr : Crypto}

/- A call at `goto` presents what it presented before. -/
theorem presented_from {s : Sys} (h : Ledger s) {c : ℕ} {p q : Call} (hc : s.calls c = q)
    (hpq : p.presents = q.presents) (m : Minted) (hm : p.presents = some m) :
    m ∈ s.returned := by
  refine h.presented c m ?_
  rw [hc, ← hpq, hm]

/- The rollback: the successor's key goes, and with it the need to hold it. -/
theorem rollback {s s' : Sys} (h : Ledger s) {c : ℕ} {m k : Minted} {ck : Stamp}
    (hc : s.calls c = .stale m k ck) (hsub : k.sub = m.sub)
    (hm : s'.minted = s.minted) (hr : s'.returned = s.returned)
    (hredis : s'.redis = revokeRefreshJti m.sub k.jti s.redis)
    (hcalls : s'.calls = Function.update s.calls c (.refused m k ck)) : Ledger s' := by
  have hkey : k.key = .refresh m.sub k.jti := by rw [Minted.key, hsub]
  have hgone : ¬ Stored s'.redis k.key := by
    rw [hredis, hkey]
    exact not_stored_del _ _
  have hk : ∀ x, Stored s'.redis x → Stored s.redis x := by
    intro x hst
    rw [hredis] at hst
    exact stored_del hst
  have owns := fun x => role_update Call.owns s.calls c (.refused m k ck) (by rw [hc]; rfl) x
  have delivered := fun x =>
    role_update Call.delivered s.calls c (.refused m k ck) (by rw [hc]; rfl) x
  have spent := fun x => role_update Call.spent s.calls c (.refused m k ck) (by rw [hc]; rfl) x
  have presents := fun x =>
    role_update Call.presents s.calls c (.refused m k ck) (by rw [hc]; rfl) x
  have settled : ∀ n ∈ s.minted, Stored s'.redis n.key →
      (s'.calls n.maker).pending = false → (s.calls n.maker).pending = false := by
    intro n hn hst hp
    by_cases hnc : n.maker = c
    · have hown := h.owned n hn
      rw [hnc, hc] at hown
      have hkn : k = n := Option.some.inj hown
      rw [← hkn] at hst
      exact absurd hst hgone
    · rw [hcalls, Function.update_of_ne hnc] at hp
      exact hp
  constructor
  case jti_inj => rw [hm]; exact h.jti_inj
  case rooted => rw [hm]; exact h.rooted
  case stored =>
    intro u j hst
    rw [hm]
    exact h.stored u j (hk _ hst)
  case owned =>
    intro n hn
    rw [hcalls, owns]
    exact h.owned n (hm ▸ hn)
  case owner =>
    intro x n hx
    rw [hcalls, owns] at hx
    rw [hm]
    exact h.owner x n hx
  case handed =>
    intro n hn
    rw [hcalls, delivered]
    exact h.handed n (hr ▸ hn)
  case presented =>
    intro x n hx
    rw [hcalls, presents] at hx
    rw [hr]
    exact h.presented x n hx
  case spent_gone =>
    intro x n hx hst
    rw [hcalls, spent] at hx
    exact h.spent_gone x n hx (hk _ hst)
  case spent_once =>
    intro x y n hx hy
    rw [hcalls, spent] at hx hy
    exact h.spent_once x y n hx hy
  case single =>
    intro n hn o ho hf hsn hso hpn hpo
    rw [hm] at hn ho
    exact h.single n hn o ho hf (hk _ hsn) (hk _ hso) (settled n hn hsn hpn)
      (settled o ho hso hpo)

theorem step {s s' : Sys} {l : Label} (h : Ledger s) (heirs : Heirs s.calls)
    (hs : step cfg cr s l = some s') : Ledger s' := by
  have hmove := step_move cfg cr hs
  cases hmove with
  | tick ms =>
    exact h.quiet (c := 0) (p := s.calls 0) rfl rfl (fun _ _ hst => hst)
      (Function.update_eq_self 0 s.calls).symm rfl (h.presented 0)
  | loginFailed _ hc | loginVerified _ hc _ | expired hc _ _ | reuseScan _ _ hc
  | resetScan _ _ hc | reuseRefused _ _ _ _ hc _ | resetDone _ _ _ _ hc _ | forgottenNobody hc
  | resetTooShort hc | resetCommitted _ _ _ hc _ | resetFailed _ _ _ hc =>
    exact h.quiet rfl rfl (fun _ _ hst => hst) rfl (by rw [hc]; rfl) (h.presented_from hc rfl)
  | @loginStored c jti u v hc hf =>
    refine h.minting (c := c) (p := .loginStored (mint cfg s c u jti jti v)) (fresh_ne hf)
      (Or.inl rfl) rfl rfl rfl (fun _ _ hst => stored_or_set hst) rfl rfl (by rw [hc]; rfl)
      (by intro m hm; cases hm) (by rw [hc]; rfl) (by intro m hm; cases hm) ?_
    intro _ m hm hfam _ _
    obtain ⟨r, hr, hrj⟩ := h.rooted m hm
    exact fresh_ne hf r hr (hrj.trans hfam)
  | loggedIn m hc =>
    exact h.delivering rfl rfl (fun _ _ hst => hst) rfl (by rw [hc]; rfl) rfl rfl
      (by rw [hc]; rfl) (by rw [hc]; rfl) (by rw [hc]; rfl)
  | reuseFound hc hm _ _ | unused hc hm _ _ =>
    refine h.quiet rfl rfl (fun _ _ hst => hst) rfl (by rw [hc]; rfl) ?_
    intro n hn
    exact Option.some.inj hn ▸ hm
  | @rotated c jti m ck hc hf hv =>
    have hmr : m ∈ s.returned := h.presented _ m (by rw [hc]; rfl)
    have hmm := h.returned_minted hmr
    have hne := fresh_ne hf
    have hstm : Stored s.redis m.key := stored_of_alive hv
    have hdel := h.handed m hmr
    refine h.minting (c := c)
      (p := .rotated m (mint cfg s c m.sub jti m.family m.verified) ck)
      (k := mint cfg s c m.sub jti m.family m.verified) hne
      (Or.inr (h.rooted m hmm)) rfl rfl rfl (fun _ _ hst => stored_or_rotated hst)
      rfl rfl (by rw [hc]; rfl) ?_ (by rw [hc]; rfl) ?_ ?_
    · intro n hn
      obtain rfl : m = n := Option.some.inj hn
      refine ⟨?_, ?_⟩
      · intro hst
        have hx : m.key ≠ .refresh m.sub jti := by
          intro he
          injection he with _ hj
          exact hne m hmm hj
        exact (stored_rotate hx hst).2 rfl
      · intro d hd
        exact h.spent_gone d m hd hstm
    · intro n hn
      exact Option.some.inj hn ▸ hmr
    · intro _ n hn hfam hst hp
      have hx : n.key ≠ .refresh m.sub jti := by
        intro he
        injection he with _ hj
        exact hne n hn hj
      have hold := stored_rotate hx hst
      have hnm := h.single n hn m hmm hfam hold.1 hstm hp (Call.settled_of_delivered hdel)
      exact hold.2 (hnm ▸ rfl)
  | @stale c jti m ck hc hf hv =>
    have hmr : m ∈ s.returned := h.presented _ m (by rw [hc]; rfl)
    refine h.minting (c := c)
      (p := .stale m (mint cfg s c m.sub jti m.family m.verified) ck)
      (k := mint cfg s c m.sub jti m.family m.verified)
      (fresh_ne hf) (Or.inr (h.rooted m (h.returned_minted hmr))) rfl rfl rfl
      (fun _ _ hst => stored_or_rotated hst) rfl rfl (by rw [hc]; rfl)
      (by intro n hn; cases hn) (by rw [hc]; rfl) ?_ (by intro hp; cases hp)
    intro n hn
    exact Option.some.inj hn ▸ hmr
  | refreshed m new ck hc =>
    refine h.delivering rfl rfl ?_ rfl (by rw [hc]; rfl) rfl rfl (by rw [hc]; rfl)
      (by rw [hc]; rfl) (by rw [hc]; rfl)
    exact fun u j hst => stored_set (by intro he; cases he) hst
  | refused m new ck hc =>
    exact h.rollback hc (heirs _ m new (by rw [hc]; rfl)).1 rfl rfl rfl rfl
  | revoked why began scan hc hk =>
    exact h.quiet rfl rfl (fun _ _ hst => stored_del hst) rfl (by rw [hc])
      (h.presented_from hc rfl)
  | @loggedOut c m hc hm =>
    refine h.quiet rfl rfl ?_ rfl (by rw [hc]; rfl) (h.presented_from hc rfl)
    intro u j hst
    cases hx : m.unexpired s.now with
    | false =>
      simp only [hx, Bool.false_eq_true, if_false] at hst
      exact hst
    | true =>
      simp only [hx, if_true] at hst
      exact stored_del hst
  | forgotten u hc =>
    exact h.quiet rfl rfl (fun u j hst => stored_set (by intro he; cases he) hst) rfl
      (by rw [hc]; rfl) (h.presented_from hc rfl)
  | resetConsumed _ hc _ | resetUnknown hc =>
    exact h.quiet rfl rfl (fun _ _ hst => stored_del hst) rfl (by rw [hc]; rfl)
      (h.presented_from hc rfl)

theorem reachable {now : ℕ} {users : List User} {s : Sys}
    (h : Runs.Reachable (Sessions.step cfg cr) (Sessions.init now users) s) :
    Ledger s ∧ Heirs s.calls ∧ Delivered s := by
  refine Runs.reachable_invariant (fun t => Ledger t ∧ Heirs t.calls ∧ Delivered t) ?_ ?_ h
  · rintro t l t' ⟨hl, hh, hd⟩ hs
    exact ⟨hl.step hh hs, heirs_step hh hs, delivered_step hd hs⟩
  · refine ⟨Ledger.init now users, ?_, ?_⟩
    · intro c m k hk
      cases hk
    · intro c m hm
      cases hm

end
end Ledger

/-! ### The two session laws -/

/-- Call `c` answered the presenter of `m` with a new pair. -/
def Exchanged (s : Sys) (c : ℕ) (m : Minted) : Prop :=
  ∃ k ck mk, s.calls c = .refreshed m k ck mk

/- The rotation of a call that presents `m`, wherever the call stands, would
find it valid: outside the whitelist no call exchanges a token (`Move.rotated`). -/
def Exchangeable (s : Sys) (m : Minted) : Prop :=
  isRefreshJtiValid s.now m.sub m.jti s.redis = true

section
variable {cfg : Settings} {cr : Crypto}

theorem Exchanged.spent {s : Sys} {c : ℕ} {m : Minted} (h : Exchanged s c m) :
    (s.calls c).spent = some m := by
  obtain ⟨k, ck, mk, hc⟩ := h
  rw [hc]
  rfl

/- Each jti buys one pair, and of the tokens of one login that clients hold at
most one can still be exchanged. -/
theorem session_chain_linear {now : ℕ} {users : List User} {s : Sys}
    (h : Runs.Reachable (step cfg cr) (init now users) s) :
    (∀ c d m n, Exchanged s c m → Exchanged s d n → m.jti = n.jti → c = d) ∧
      ∀ m ∈ s.returned, ∀ n ∈ s.returned, m.family = n.family →
        Exchangeable s m → Exchangeable s n → m = n := by
  obtain ⟨hl, -⟩ := Ledger.reachable h
  refine ⟨?_, ?_⟩
  · intro c d m n hm hn hj
    have hms := hm.spent
    have hns := hn.spent
    have hmm := hl.returned_minted (hl.presented c m (Call.presents_of_spent hms))
    have hnm := hl.returned_minted (hl.presented d n (Call.presents_of_spent hns))
    have hmn := hl.jti_inj m hmm n hnm hj
    rw [← hmn] at hns
    exact hl.spent_once c d m hms hns
  · intro m hm n hn hf hem hen
    have hpm := Call.settled_of_delivered (hl.handed m hm)
    have hpn := Call.settled_of_delivered (hl.handed n hn)
    exact hl.single m (hl.returned_minted hm) n (hl.returned_minted hn) hf
      (stored_of_alive hem) (stored_of_alive hen) hpm hpn

/- A login and one refresh of its token. -/
def aliceLogin : List Label :=
  [.loginVerify 0 "alice@example.com" "old-secret" none, .loginStore 0 "j0", .loginReturn 0]

/-- The refresh token `aliceLogin` returns at time 0. -/
def aliceToken : Minted := ⟨1, "j0", 604800, "j0", 0, 0, 1⟩

def aliceRefresh : List Label :=
  [.refreshCheck 1 aliceToken, .refreshRotate 1 "j1", .refreshMark 1]

theorem session_chain_linear_alice :
    ∃ s, Runs.run (step {} tabledCrypto) (init 0 [alice]) (aliceLogin ++ aliceRefresh) = some s ∧
      Exchanged s 1 aliceToken ∧ s.returned.length = 2 ∧
      ∀ m ∈ s.returned, ∀ n ∈ s.returned, m.family = n.family →
        Exchangeable s m → Exchangeable s n → m = n := by
  refine ⟨_, rfl, ⟨_, _, _, rfl⟩, rfl, ?_⟩
  have hrun : Runs.run (step {} tabledCrypto) (init 0 [alice]) (aliceLogin ++ aliceRefresh)
    = some _ := rfl
  exact (session_chain_linear ⟨_, hrun⟩).2

end
end PulseWatch.Sessions
