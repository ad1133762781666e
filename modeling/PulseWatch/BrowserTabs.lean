import Mathlib.Data.Fintype.EquivFin
import PulseWatch.SessionReuse

/-!
# Browser tabs sharing one token pair (`static/app.js`)

`apiFetch` and the websocket `onclose` handlers of several tabs run against the
session protocol of the backend. A task captures the stored pair when it starts
and refreshes with that copy, whatever the storage holds by then; the call it
makes to `/auth/refresh` is the backend call of the same number.
-/

namespace PulseWatch.Browser
open Sessions RedisClient ExpiringStore

structure AccessToken where
  sub : ℕ
  exp : ℕ
  deriving DecidableEq, Repr

def AccessToken.unexpired (now : ℕ) (a : AccessToken) : Bool := now / 1000 ≤ a.exp

structure Tokens where
  accessToken : AccessToken
  refreshToken : Minted
  deriving DecidableEq, Repr

/- The pair a 200 carries: both tokens are made from one reading of the clock. -/
def tokensOf (cfg : Settings) (k : Minted) : Tokens :=
  ⟨⟨k.sub, k.exp - cfg.refreshTtl + cfg.accessTokenExpireMinutes * 60⟩, k⟩

inductive Kind where
  | apiFetch
  | onclose
  deriving DecidableEq, Repr

/- Where a task stands: its first request is under way or its socket is open;
it was refused and is about to refresh; it waits for `/auth/refresh`; the rate
limiter has answered instead; it repeats its request; or it is over. -/
inductive Task where
  | idle
  | waiting (kind : Kind) (tokens : Option Tokens)
  | unauthorized (kind : Kind) (tokens : Tokens)
  | refreshing (kind : Kind) (tokens : Tokens)
  | limited (kind : Kind)
  | retrying (tokens : Tokens)
  | ended (status : ℕ) (retried : Bool)
  | loggedOut
  | closed
  deriving DecidableEq, Repr

structure Tabs where
  sys : Sys
  storage : Option Tokens
  tasks : ℕ → Task

def initTabs (sys : Sys) (tokens : Tokens) : Tabs := ⟨sys, some tokens, fun _ => .idle⟩

inductive TabLabel where
  | tick (ms : ℕ)
  | start (i : ℕ) (kind : Kind)
  | answer (i status : ℕ)
  | close (i code : ℕ) (current : Bool)
  | send (i : ℕ) (limited : Bool)
  | backend (i : ℕ) (l : Label)
  | receive (i : ℕ)
  | retried (i status : ℕ)
  deriving DecidableEq, Repr

/-- A step of `refresh_tokens` in call `i`, after its look at the used marker. -/
def serves (i : ℕ) : Label → Bool
  | .refreshRotate c _ | .refreshMark c | .refreshRollback c | .revokeBegin c
  | .revokeDelete c _ | .revokeEnd c => c = i
  | _ => false

def Tabs.goto (s : Tabs) (i : ℕ) (t : Task) : Tabs :=
  { s with tasks := Function.update s.tasks i t }

@[simp] theorem Tabs.goto_self (s : Tabs) (i : ℕ) (t : Task) : (s.goto i t).tasks i = t := by
  show Function.update s.tasks i t i = t
  rw [Function.update_self]

@[simp] theorem Tabs.goto_ne (s : Tabs) {i j : ℕ} (h : j ≠ i) (t : Task) :
    (s.goto i t).tasks j = s.tasks j := by
  show Function.update s.tasks i t j = s.tasks j
  rw [Function.update_of_ne h]

/- `tryRefresh` returned null: `apiFetch` clears the tokens, `onclose` does not. -/
def Tabs.refreshFailed (s : Tabs) (i : ℕ) : Kind → Tabs
  | .apiFetch => { s.goto i .loggedOut with storage := none }
  | .onclose => s.goto i .closed

/-- The pair a task holds is missing or its access token has expired. -/
def outdated (now : ℕ) : Option Tokens → Bool
  | some t => !t.accessToken.unexpired now
  | none => true

section
variable (cfg : Settings) (cr : Crypto)

/- An honest backend answers 401 to a request without an unexpired access token;
to the others it may answer anything, 401 included. -/
def tabStep (s : Tabs) : TabLabel → Option Tabs
  | .tick ms => (step cfg cr s.sys (.tick ms)).map fun sys => { s with sys }
  | .start i kind =>
    if s.tasks i = .idle ∧ s.sys.calls i = .idle then
      match kind, s.storage with
      | .onclose, none => some (s.goto i .closed)
      | _, tokens => some (s.goto i (.waiting kind tokens))
    else none
  | .answer i status =>
    match s.tasks i with
    | .waiting .apiFetch tokens =>
      if outdated s.sys.now tokens = true → status = 401 then
        match tokens with
        | some t =>
          some (s.goto i (if status = 401 then .unauthorized .apiFetch t else .ended status false))
        | none => some (s.goto i (.ended status false))
      else none
    | _ => none
  | .close i code current =>
    match s.tasks i with
    | .waiting .onclose (some t) =>
      some (s.goto i (if current ∧ code = 1008 then .unauthorized .onclose t else .closed))
    | _ => none
  | .send i limited =>
    match s.tasks i with
    | .unauthorized kind t =>
      if limited then some (s.goto i (.limited kind))
      else (step cfg cr s.sys (.refreshCheck i t.refreshToken)).map fun sys =>
        { s.goto i (.refreshing kind t) with sys }
    | _ => none
  | .backend i l =>
    match s.tasks i with
    | .refreshing _ _ =>
      if serves i l then (step cfg cr s.sys l).map fun sys => { s with sys } else none
    | _ => none
  | .receive i =>
    match s.tasks i with
    | .refreshing kind _ =>
      match s.sys.calls i with
      | .refreshed _ k _ _ =>
        let t := tokensOf cfg k
        some { s.goto i (match kind with | .apiFetch => .retrying t | .onclose => .closed) with
          storage := some t }
      | .refused .. | .reuseRefused .. | .failed _ => some (s.refreshFailed i kind)
      | _ => none
    | .limited kind => some (s.refreshFailed i kind)
    | _ => none
  | .retried i status =>
    match s.tasks i with
    | .retrying t =>
      if outdated s.sys.now (some t) = true → status = 401 then
        some (s.goto i (.ended status true))
      else none
    | _ => none

end

/- Each refresh token is sent by one task only and before its `exp`, its whitelist
entry has not run out when it is exchanged, and the limiter lets it through. -/
def TabsSafe (s : Tabs) : TabLabel → Prop
  | .send i limited => limited = false ∧ ∀ kind t, s.tasks i = .unauthorized kind t →
      t.refreshToken.unexpired s.sys.now = true ∧
      ∀ c, (s.sys.calls c).presents ≠ some t.refreshToken
  | .backend i (.refreshRotate _ _) => ∀ m ck, s.sys.calls i = .unused m ck →
      ∀ d, deadline? m.key s.sys.redis = some d → s.sys.now ≤ d
  | _ => True

def Task.started : Task → Bool
  | .idle => false
  | _ => true

/- No refresh is treated as reuse (so nothing is revoked), the tokens stay, and an
`apiFetch` that was refused ends with the answer to its repeated request. -/
def TabsFine (s : Tabs) : Prop :=
  s.storage ≠ none ∧ ∀ i, (s.tasks i).started = true →
    (s.sys.calls i).caught = none ∧ s.tasks i ≠ .loggedOut ∧
    ∀ status, s.tasks i = .ended status false → status ≠ 401

def Task.inFlight : Task → Bool
  | .waiting .. | .unauthorized .. | .refreshing .. | .limited _ | .retrying _ => true
  | _ => false

/-- The task a label moves. -/
def TabLabel.task : TabLabel → Option ℕ
  | .tick _ => none
  | .start i _ | .answer i _ | .close i _ _ | .send i _ | .backend i _ | .receive i
  | .retried i _ => some i

/-- Every task in flight has a next step. -/
def GoesOn (cfg : Settings) (cr : Crypto) (s : Tabs) : Prop :=
  ∀ i, (s.tasks i).inFlight = true → ∃ l s', l.task = some i ∧ tabStep cfg cr s l = some s'

/- The backend the tabs find: any state of the protocol in which their refresh
token is on the whitelist. -/
structure Start (cfg : Settings) (cr : Crypto) (sys : Sys) (t : Tokens) : Prop where
  reachable : ∃ now users, Runs.Reachable (step cfg cr) (Sessions.init now users) sys
  returned : t.refreshToken ∈ sys.returned
  valid : isRefreshJtiValid sys.now t.refreshToken.sub t.refreshToken.jti sys.redis = true

/-! ### The invariant -/

/- The tokens of the tabs: the first one and those their calls have made. -/
def Owned (first : Minted) (s : Tabs) (m : Minted) : Prop :=
  m = first ∨ ∃ i, (s.tasks i).started = true ∧ (s.sys.calls i).owns = some m

def Task.captured : Task → Option Tokens
  | .waiting _ t => t
  | .unauthorized _ t | .refreshing _ t => some t
  | _ => none

/-- The backend call of a task in each of its phases. -/
def Served : Task → Call → Prop
  | .idle, _ => True
  | .waiting _ none, _ => False
  | .waiting _ (some _), p | .unauthorized _ _, p => p = .idle
  | .refreshing _ t, p => (∃ ck, p = .unused t.refreshToken ck) ∨
      (∃ k ck, p = .rotated t.refreshToken k ck) ∨ ∃ k ck mk, p = .refreshed t.refreshToken k ck mk
  | .ended status false, p => status ≠ 401 ∧ p = .idle
  | .limited _, _ | .loggedOut, _ => False
  | .retrying _, p | .ended _ true, p => ∃ m k ck mk, p = .refreshed m k ck mk
  | .closed, p => p = .idle ∨ ∃ m k ck mk, p = .refreshed m k ck mk

theorem Served.uncaught {t : Task} {p : Call} (h : Served t p) (ht : t.started = true) :
    p.caught = none := by
  have final : (∃ m k ck mk, p = .refreshed m k ck mk) → p.caught = none := by
    rintro ⟨m, k, ck, mk, rfl⟩
    rfl
  have first : p = .idle → p.caught = none := by
    rintro rfl
    rfl
  cases t with
  | idle => cases ht
  | waiting kind tokens =>
    cases tokens with
    | none => exact h.elim
    | some u => exact first h
  | unauthorized kind u => exact first h
  | refreshing kind u =>
    rcases h with ⟨ck, rfl⟩ | ⟨k, ck, rfl⟩ | ⟨k, ck, mk, rfl⟩ <;> rfl
  | limited kind => exact h.elim
  | retrying u => exact final h
  | ended status retried =>
    cases retried with
    | false => exact first h.2
    | true => exact final h
  | loggedOut => exact h.elim
  | closed => exact h.elim first final

structure TabsInv (ttl : ℕ) (first : Minted) (s : Tabs) : Prop where
  ledger : Ledger s.sys
  heirs : Heirs s.sys.calls
  delivered : Delivered s.sys
  markers : Markers ttl s.sys
  first_returned : first ∈ s.sys.returned
  stored : ∃ t, s.storage = some t ∧ t.refreshToken ∈ s.sys.returned ∧
    Owned first s t.refreshToken
  captured : ∀ i t, (s.tasks i).captured = some t →
    t.refreshToken ∈ s.sys.returned ∧ Owned first s t.refreshToken
  served : ∀ i, Served (s.tasks i) (s.sys.calls i)
  alone : ∀ i c m, (s.tasks i).started = true → (s.sys.calls i).presents = some m →
    (s.sys.calls c).presents = some m → c = i
  kept : ∀ m, Owned first s m → (∀ c, (s.sys.calls c).spent ≠ some m) → Stored s.sys.redis m.key

namespace TabsInv
variable {cfg : Settings} {cr : Crypto} {ttl : ℕ} {first : Minted} {s : Tabs}

theorem owned_minted (h : TabsInv ttl first s) {m : Minted} (hm : Owned first s m) :
    m ∈ s.sys.minted := by
  rcases hm with rfl | ⟨i, -, hown⟩
  · exact h.ledger.returned_minted h.first_returned
  · exact (h.ledger.owner i m hown).1

/- A step of the tabs alone: the task moves on, the backend stays. -/
theorem retask (h : TabsInv ttl first s) {i : ℕ} {t' : Task} {storage : Option Tokens}
    (hwas : (s.tasks i).started = true ∨ s.sys.calls i = .idle) (hstarted : t'.started = true)
    (hserved : Served t' (s.sys.calls i))
    (hcap : ∀ t, t'.captured = some t →
      t.refreshToken ∈ s.sys.returned ∧ Owned first s t.refreshToken)
    (hstore : ∃ t, storage = some t ∧ t.refreshToken ∈ s.sys.returned ∧
      Owned first s t.refreshToken) :
    TabsInv ttl first { s.goto i t' with storage := storage } := by
  have hfrom : ∀ m, Owned first { s.goto i t' with storage := storage } m → Owned first s m := by
    rintro m (rfl | ⟨j, hj, hown⟩)
    · exact Or.inl rfl
    · by_cases hji : j = i
      · subst hji
        rcases hwas with hwas | hidle
        · exact Or.inr ⟨j, hwas, hown⟩
        · have hnone : (s.sys.calls j).owns = some m := hown
          rw [hidle] at hnone
          cases hnone
      · have hold : (s.tasks j).started = true := by
          have hj' : ((s.goto i t').tasks j).started = true := hj
          rw [s.goto_ne hji] at hj'
          exact hj'
        exact Or.inr ⟨j, hold, hown⟩
  have hto : ∀ m, Owned first s m → Owned first { s.goto i t' with storage := storage } m := by
    rintro m (rfl | ⟨j, hj, hown⟩)
    · exact Or.inl rfl
    · refine Or.inr ⟨j, ?_, hown⟩
      show ((s.goto i t').tasks j).started = true
      by_cases hji : j = i
      · subst hji
        rw [s.goto_self]
        exact hstarted
      · rw [s.goto_ne hji]
        exact hj
  constructor
  case ledger => exact h.ledger
  case heirs => exact h.heirs
  case delivered => exact h.delivered
  case markers => exact h.markers
  case first_returned => exact h.first_returned
  case stored =>
    obtain ⟨t, ht, hr, ho⟩ := hstore
    exact ⟨t, ht, hr, hto _ ho⟩
  case captured =>
    intro j t hj
    have hj' : ((s.goto i t').tasks j).captured = some t := hj
    by_cases hji : j = i
    · subst hji
      rw [s.goto_self] at hj'
      exact ⟨(hcap t hj').1, hto _ (hcap t hj').2⟩
    · rw [s.goto_ne hji] at hj'
      exact ⟨(h.captured j t hj').1, hto _ (h.captured j t hj').2⟩
  case served =>
    intro j
    show Served ((s.goto i t').tasks j) (s.sys.calls j)
    by_cases hji : j = i
    · subst hji
      rw [s.goto_self]
      exact hserved
    · rw [s.goto_ne hji]
      exact h.served j
  case alone =>
    intro j c m hj hjm hcm
    have hj' : ((s.goto i t').tasks j).started = true := hj
    by_cases hji : j = i
    · subst hji
      rcases hwas with hwas | hidle
      · exact h.alone j c m hwas hjm hcm
      · have hnone : (s.sys.calls j).presents = some m := hjm
        rw [hidle] at hnone
        cases hnone
    · rw [s.goto_ne hji] at hj'
      exact h.alone j c m hj' hjm hcm
  case kept =>
    intro m hm hun
    exact h.kept m (hfrom m hm) hun

theorem unused (h : TabsInv ttl first s) {m : Minted} (hm : m ∈ s.sys.returned)
    (hnone : ∀ c, (s.sys.calls c).presents ≠ some m) :
    isRefreshJtiUsed s.sys.now m.sub m.jti s.sys.redis = false := by
  rw [← Bool.not_eq_true]
  intro hu
  obtain ⟨c, n, mk, hc, -, hj⟩ := h.markers.written m.sub m.jti (stored_of_alive hu)
  have hp := Call.presents_of_spent (Call.spent_of_marked hc)
  have hn := h.ledger.returned_minted (h.ledger.presented c n hp)
  obtain rfl := h.ledger.jti_inj n hn m (h.ledger.returned_minted hm) hj
  exact hnone c hp

/- A backend step of call `i`, seen from the tabs. -/
theorem resys (h : TabsInv cfg.refreshTtl first s) {i : ℕ} {p : Call} {l : Label} {sys : Sys}
    {tasks : ℕ → Task} (hs : step cfg cr s.sys l = some sys)
    (hcalls : sys.calls = Function.update s.sys.calls i p)
    (hstarted : ∀ j, (tasks j).started = (s.tasks j).started)
    (hcap : ∀ j t, (tasks j).captured = some t → (s.tasks j).captured = some t)
    (hserved : ∀ j, Served (tasks j) (sys.calls j))
    (howns : ∀ m, (s.sys.calls i).owns = some m → p.owns = some m)
    (hpre : p.presents = (s.sys.calls i).presents ∨
      ∀ m, p.presents = some m → ∀ c, (s.sys.calls c).presents ≠ some m)
    (hkept : ∀ m, (Owned first s m ∨ (s.tasks i).started = true ∧ p.owns = some m) →
      p.spent ≠ some m →
      (∀ c, c ≠ i → (s.sys.calls c).spent ≠ some m) → Stored sys.redis m.key) :
    TabsInv cfg.refreshTtl first { s with sys, tasks } := by
  have other : ∀ j, j ≠ i → sys.calls j = s.sys.calls j := by
    intro j hj
    rw [hcalls, Function.update_of_ne hj]
  have self : sys.calls i = p := by rw [hcalls, Function.update_self]
  have hto : ∀ m, Owned first s m → Owned first { s with sys, tasks } m := by
    rintro m (rfl | ⟨j, hj, hown⟩)
    · exact Or.inl rfl
    · refine Or.inr ⟨j, (hstarted j).trans hj, ?_⟩
      show (sys.calls j).owns = some m
      by_cases hji : j = i
      · subst hji
        rw [self]
        exact howns m hown
      · rw [other j hji]
        exact hown
  constructor
  case ledger => exact h.ledger.step h.heirs hs
  case heirs => exact heirs_step h.heirs hs
  case delivered => exact delivered_step h.delivered hs
  case markers => exact h.markers.step h.ledger hs
  case first_returned => exact returned_step hs h.first_returned
  case stored =>
    obtain ⟨t, ht, hr, ho⟩ := h.stored
    exact ⟨t, ht, returned_step hs hr, hto _ ho⟩
  case captured =>
    intro j t hj
    obtain ⟨hr, ho⟩ := h.captured j t (hcap j t hj)
    exact ⟨returned_step hs hr, hto _ ho⟩
  case served => exact hserved
  case alone =>
    intro j c m hj hjm hcm
    have hj' : (s.tasks j).started = true := (hstarted j).symm.trans hj
    have hjm' : (sys.calls j).presents = some m := hjm
    have hcm' : (sys.calls c).presents = some m := hcm
    rcases hpre with hsame | hnew
    · have same := fun x => role_update Call.presents s.sys.calls i p hsame x
      rw [hcalls, same] at hjm' hcm'
      exact h.alone j c m hj' hjm' hcm'
    · by_cases hji : j = i
      · subst hji
        rw [self] at hjm'
        by_contra hcj
        rw [other c hcj] at hcm'
        exact hnew m hjm' c hcm'
      · rw [other j hji] at hjm'
        by_cases hci : c = i
        · subst hci
          rw [self] at hcm'
          exact absurd hjm' (hnew m hcm' j)
        · rw [other c hci] at hcm'
          exact h.alone j c m hj' hjm' hcm'
  case kept =>
    intro m hm hun
    have hun' : ∀ c, (sys.calls c).spent ≠ some m := hun
    have hspent : p.spent ≠ some m := self ▸ hun' i
    have hothers : ∀ c, c ≠ i → (s.sys.calls c).spent ≠ some m := by
      intro c hc
      rw [← other c hc]
      exact hun' c
    refine hkept m ?_ hspent hothers
    rcases hm with rfl | ⟨j, hj, hown⟩
    · exact Or.inl (Or.inl rfl)
    · have hown' : (sys.calls j).owns = some m := hown
      by_cases hji : j = i
      · subst hji
        rw [self] at hown'
        exact Or.inr ⟨(hstarted j).symm.trans hj, hown'⟩
      · rw [other j hji] at hown'
        exact Or.inl (Or.inr ⟨j, (hstarted j).symm.trans hj, hown'⟩)

/- A token the tabs own is stored unless the call at hand has spent it. -/
theorem kept_unspent (h : TabsInv ttl first s) {c : ℕ} {n : Minted} (hown : Owned first s n)
    (hspent : (s.sys.calls c).spent ≠ some n)
    (hothers : ∀ x, x ≠ c → (s.sys.calls x).spent ≠ some n) : Stored s.sys.redis n.key := by
  refine h.kept n hown fun x => ?_
  by_cases hxc : x = c
  · rw [hxc]
    exact hspent
  · exact hothers x hxc

theorem sending (h : TabsInv cfg.refreshTtl first s) {i : ℕ} {kind : Kind} {t : Tokens} {sys : Sys}
    (hi : s.tasks i = .unauthorized kind t) (hx : t.refreshToken.unexpired s.sys.now = true)
    (hnone : ∀ c, (s.sys.calls c).presents ≠ some t.refreshToken)
    (hs : step cfg cr s.sys (.refreshCheck i t.refreshToken) = some sys) :
    TabsInv cfg.refreshTtl first { s.goto i (.refreshing kind t) with sys } := by
  have hidle : s.sys.calls i = .idle := by
    have hserved := h.served i
    rw [hi] at hserved
    exact hserved
  obtain ⟨hret, -⟩ := h.captured i t (by rw [hi]; rfl)
  have hunused := h.unused hret hnone
  have hsys : sys = s.sys.goto i (.unused t.refreshToken s.sys.stamp) := by
    simp only [step, hidle, hret, hx, hunused, if_true, Bool.false_eq_true, if_false] at hs
    exact (Option.some.inj hs).symm
  subst hsys
  refine h.resys (i := i) (p := .unused t.refreshToken s.sys.stamp) hs rfl ?_ ?_ ?_ ?_ ?_ ?_
  · intro j
    by_cases hji : j = i
    · subst hji
      rw [s.goto_self, hi]
      rfl
    · rw [s.goto_ne hji]
  · intro j u hj
    by_cases hji : j = i
    · subst hji
      rw [s.goto_self] at hj
      rw [hi]
      exact hj
    · rw [s.goto_ne hji] at hj
      exact hj
  · intro j
    by_cases hji : j = i
    · subst hji
      rw [s.goto_self, s.sys.goto_self]
      exact Or.inl ⟨_, rfl⟩
    · rw [s.goto_ne hji, s.sys.goto_ne hji]
      exact h.served j
  · intro m hm
    rw [hidle] at hm
    cases hm
  · refine Or.inr ?_
    intro m hm c
    obtain rfl := Option.some.inj hm
    exact hnone c
  · rintro m (hm | ⟨-, hm⟩) _ hothers
    · exact h.kept_unspent hm (by rw [hidle]; exact fun hn => by cases hn) hothers
    · cases hm

theorem served_update (h : TabsInv ttl first s) {i : ℕ} {p : Call} (hp : Served (s.tasks i) p)
    (j : ℕ) : Served (s.tasks j) (Function.update s.sys.calls i p j) := by
  by_cases hji : j = i
  · subst hji
    rw [Function.update_self]
    exact hp
  · rw [Function.update_of_ne hji]
    exact h.served j

/- A refreshing task's call presents the token the task has captured. -/
theorem presenting (h : TabsInv ttl first s) {i : ℕ} {kind : Kind} {t : Tokens} {m : Minted}
    (hi : s.tasks i = .refreshing kind t) (hm : (s.sys.calls i).presents = some m) :
    t.refreshToken = m := by
  have hserved := h.served i
  rw [hi] at hserved
  rcases hserved with ⟨ck, hc⟩ | ⟨k, ck, hc⟩ | ⟨k, ck, mk, hc⟩
  all_goals
    rw [hc] at hm
    exact Option.some.inj hm

/- The exchange finds its whitelist entry: no other call has spent the token. -/
theorem whitelisted (h : TabsInv ttl first s) {i : ℕ} {kind : Kind} {t : Tokens} {m : Minted}
    {ck : Stamp} (hi : s.tasks i = .refreshing kind t) (hc : s.sys.calls i = .unused m ck)
    (hlife : ∀ d, deadline? m.key s.sys.redis = some d → s.sys.now ≤ d) :
    isRefreshJtiValid s.sys.now m.sub m.jti s.sys.redis = true := by
  have hpc : (s.sys.calls i).presents = some m := by
    rw [hc]
    rfl
  have hmt := h.presenting hi hpc
  obtain ⟨-, hown⟩ := h.captured i t (by rw [hi]; rfl)
  have hstored : Stored s.sys.redis m.key := by
    refine h.kept m (hmt ▸ hown) fun x hx => ?_
    have hxi := h.alone i x m (by rw [hi]; rfl) hpc (Call.presents_of_spent hx)
    rw [hxi, hc] at hx
    cases hx
  obtain ⟨d, hd⟩ := Option.ne_none_iff_exists'.mp hstored
  exact (alive_iff _ _ _).mpr ⟨d, hd, hlife d hd⟩

theorem rotating (h : TabsInv cfg.refreshTtl first s) {i : ℕ} {kind : Kind} {t : Tokens}
    {jti : String} {m : Minted} {ck : Stamp} {sys : Sys} (hi : s.tasks i = .refreshing kind t)
    (hc : s.sys.calls i = .unused m ck) (hs : step cfg cr s.sys (.refreshRotate i jti) = some sys)
    (hcalls : sys.calls = Function.update s.sys.calls i
      (.rotated m (mint cfg s.sys i m.sub jti m.family m.verified) ck))
    (hredis : sys.redis =
      (rotatePipeline s.sys.now m.sub m.jti jti cfg.refreshTtl s.sys.redis).2) :
    TabsInv cfg.refreshTtl first { s with sys } := by
  have hpc : (s.sys.calls i).presents = some m := by
    rw [hc]
    rfl
  have hmt := h.presenting hi hpc
  have hmm : m ∈ s.sys.minted := h.ledger.returned_minted (h.ledger.presented i m hpc)
  refine h.resys hs hcalls (fun _ => rfl) (fun _ _ hj => hj) ?_ ?_ (Or.inl hpc.symm) ?_
  · rw [hcalls]
    refine h.served_update ?_
    rw [hi, ← hmt]
    exact Or.inr (Or.inl ⟨_, ck, rfl⟩)
  · intro n hn
    rw [hc] at hn
    cases hn
  · intro n hn hspent hothers
    rw [hredis]
    by_cases hnew : n.key = .refresh m.sub jti
    · rw [hnew, Stored, deadline_rotate_new]
      exact Option.some_ne_none _
    · have hown : Owned first s n := by
        rcases hn with hn | ⟨-, hn⟩
        · exact hn
        · obtain rfl := Option.some.inj hn
          exact absurd rfl hnew
      have hold : n.key ≠ .refresh m.sub m.jti := by
        intro he
        injection he with _ hj
        have hnm := h.ledger.jti_inj n (h.owned_minted hown) m hmm hj
        exact hspent (hnm ▸ rfl)
      rw [Stored, deadline_rotate _ _ _ _ _ _ _ hold hnew]
      exact h.kept_unspent hown (by rw [hc]; exact fun he => by cases he) hothers

theorem marking (h : TabsInv cfg.refreshTtl first s) {i : ℕ} {kind : Kind} {t : Tokens}
    {m k : Minted} {ck : Stamp} {sys : Sys} (hi : s.tasks i = .refreshing kind t)
    (hc : s.sys.calls i = .rotated m k ck) (hs : step cfg cr s.sys (.refreshMark i) = some sys)
    (hcalls : sys.calls = Function.update s.sys.calls i (.refreshed m k ck s.sys.stamp))
    (hredis : sys.redis = markRefreshUsed s.sys.now m.sub m.jti cfg.refreshTtl s.sys.redis) :
    TabsInv cfg.refreshTtl first { s with sys } := by
  have hpc : (s.sys.calls i).presents = some m := by
    rw [hc]
    rfl
  have hmt := h.presenting hi hpc
  refine h.resys hs hcalls (fun _ => rfl) (fun _ _ hj => hj) ?_ ?_ (Or.inl hpc.symm) ?_
  · rw [hcalls]
    refine h.served_update ?_
    rw [hi, ← hmt]
    exact Or.inr (Or.inr ⟨k, ck, s.sys.stamp, rfl⟩)
  · intro n hn
    rw [hc] at hn
    exact hn
  · intro n hn hspent hothers
    have hown : Owned first s n := by
      rcases hn with hn | ⟨hstarted, hn⟩
      · exact hn
      · refine Or.inr ⟨i, hstarted, ?_⟩
        rw [hc]
        exact hn
    have hkey : n.key ≠ .refreshUsed m.sub m.jti := by
      intro he
      cases he
    rw [hredis, Stored, markRefreshUsed, deadline?_set_ne _ _ _ _ _ hkey]
    exact h.kept_unspent hown (by rw [hc]; exact hspent) hothers

/- While a task refreshes, its call exchanges the token; it neither rolls back nor
revokes. -/
theorem serving (h : TabsInv cfg.refreshTtl first s) {i : ℕ} {kind : Kind} {t : Tokens} {l : Label}
    {sys : Sys} (hi : s.tasks i = .refreshing kind t) (hl : serves i l = true)
    (hok : TabsSafe s (.backend i l)) (hs : step cfg cr s.sys l = some sys) :
    TabsInv cfg.refreshTtl first { s with sys } := by
  have hserved := h.served i
  rw [hi] at hserved
  have notCall : ∀ c p, c = i → s.sys.calls c = p → p.spent = none → p.checked = none → False := by
    rintro c p rfl hc hspent hchecked
    rw [hc] at hserved
    rcases hserved with ⟨ck, rfl⟩ | ⟨k, ck, rfl⟩ | ⟨k, ck, mk, rfl⟩
    · cases hchecked
    · cases hspent
    · cases hspent
  have hmove := step_move cfg cr hs
  cases hmove with
  | @rotated c jti m ck hc hf hv =>
    obtain rfl : c = i := of_decide_eq_true hl
    exact h.rotating hi hc hs rfl rfl
  | @stale c jti m ck hc hf hv =>
    obtain rfl : c = i := of_decide_eq_true hl
    have hvalid := h.whitelisted hi hc fun d hd => hok m ck hc d hd
    exact absurd (hv.symm.trans hvalid) Bool.false_ne_true
  | @refreshed c m k ck hc =>
    obtain rfl : c = i := of_decide_eq_true hl
    exact h.marking hi hc hs rfl rfl
  | @refused c m k ck hc =>
    obtain rfl : c = i := of_decide_eq_true hl
    exfalso
    rw [hc] at hserved
    rcases hserved with ⟨ck', heq⟩ | ⟨k', ck', heq⟩ | ⟨k', ck', mk, heq⟩ <;> cases heq
  | reuseScan _ _ hc | resetScan _ _ hc | revoked _ _ _ hc _ | reuseRefused _ _ _ _ hc _
  | resetDone _ _ _ _ hc _ =>
    exact (notCall _ _ (of_decide_eq_true hl) hc rfl rfl).elim
  | _ => cases hl

theorem receiving (h : TabsInv ttl first s) {i : ℕ} {kind : Kind} {t : Tokens} {m k : Minted}
    {ck mk : Stamp} (hi : s.tasks i = .refreshing kind t)
    (hc : s.sys.calls i = .refreshed m k ck mk) {t' : Task}
    (ht' : t' = .retrying (tokensOf cfg k) ∨ t' = .closed) :
    TabsInv ttl first { s.goto i t' with storage := some (tokensOf cfg k) } := by
  have hstarted : (s.tasks i).started = true := by
    rw [hi]
    rfl
  refine h.retask (Or.inl hstarted) ?_ ?_ ?_ ⟨tokensOf cfg k, rfl, ?_, ?_⟩
  · rcases ht' with rfl | rfl <;> rfl
  · rw [hc]
    rcases ht' with rfl | rfl
    · exact ⟨m, k, ck, mk, rfl⟩
    · exact Or.inr ⟨m, k, ck, mk, rfl⟩
  · intro u hu
    rcases ht' with rfl | rfl <;> cases hu
  · exact h.delivered i k (by rw [hc]; rfl)
  · exact Or.inr ⟨i, hstarted, by rw [hc]; rfl⟩

theorem step {s' : Tabs} {l : TabLabel} (h : TabsInv cfg.refreshTtl first s)
    (hok : TabsSafe s l) (hs : tabStep cfg cr s l = some s') :
    TabsInv cfg.refreshTtl first s' := by
  obtain ⟨t, ht, htr, hto⟩ := h.stored
  cases l with
  | tick ms =>
    simp only [tabStep] at hs
    obtain ⟨sys, hsys, rfl⟩ := Option.map_eq_some_iff.mp hs
    obtain rfl := Option.some.inj hsys
    refine h.resys (i := 0) (p := s.sys.calls 0) hsys
      (Function.update_eq_self 0 s.sys.calls).symm (fun _ => rfl) (fun _ _ hj => hj) h.served
      (fun _ hm => hm) (Or.inl rfl) ?_
    intro m hm hspent hothers
    have hown : Owned first s m := by
      rcases hm with hm | ⟨hstarted, hm⟩
      · exact hm
      · exact Or.inr ⟨0, hstarted, hm⟩
    exact h.kept_unspent hown hspent hothers
  | start i kind =>
    simp only [tabStep] at hs
    split at hs
    · next hidle =>
      obtain rfl : s' = s.goto i (.waiting kind (some t)) := by
        rw [ht] at hs
        cases kind <;> exact (Option.some.inj hs).symm
      refine h.retask (Or.inr hidle.2) rfl ?_ ?_ h.stored
      · rw [hidle.2]
        cases kind <;> rfl
      · intro u hu
        obtain rfl := Option.some.inj hu
        exact ⟨htr, hto⟩
    · cases hs
  | answer i status =>
    simp only [tabStep] at hs
    split at hs
    · next tokens hi =>
      split at hs
      · have hserved := h.served i
        rw [hi] at hserved
        cases tokens with
        | none => exact hserved.elim
        | some u =>
          obtain rfl := Option.some.inj hs
          have hcap := h.captured i u (by rw [hi]; rfl)
          have hwas : (s.tasks i).started = true := by
            rw [hi]
            rfl
          by_cases hstatus : status = 401
          · rw [if_pos hstatus]
            refine h.retask (Or.inl hwas) rfl hserved ?_ h.stored
            intro v hv
            obtain rfl := Option.some.inj hv
            exact hcap
          · rw [if_neg hstatus]
            exact h.retask (Or.inl hwas) rfl ⟨hstatus, hserved⟩ (by intro v hv; cases hv) h.stored
      · cases hs
    · cases hs
  | close i code current =>
    simp only [tabStep] at hs
    split at hs
    · next u hi =>
      obtain rfl := Option.some.inj hs
      have hserved := h.served i
      rw [hi] at hserved
      have hcap := h.captured i u (by rw [hi]; rfl)
      have hwas : (s.tasks i).started = true := by
        rw [hi]
        rfl
      split
      · refine h.retask (Or.inl hwas) rfl hserved ?_ h.stored
        intro v hv
        obtain rfl := Option.some.inj hv
        exact hcap
      · exact h.retask (Or.inl hwas) rfl (Or.inl hserved) (by intro v hv; cases hv) h.stored
    · cases hs
  | send i limited =>
    obtain ⟨rfl, hsafe⟩ := hok
    simp only [tabStep] at hs
    split at hs
    · next kind u hi =>
      obtain ⟨sys, hsys, rfl⟩ := Option.map_eq_some_iff.mp hs
      obtain ⟨hx, hnone⟩ := hsafe kind u hi
      exact h.sending hi hx hnone hsys
    · cases hs
  | backend i l =>
    simp only [tabStep] at hs
    split at hs
    · next kind u hi =>
      split at hs
      · next hl =>
        obtain ⟨sys, hsys, rfl⟩ := Option.map_eq_some_iff.mp hs
        exact h.serving hi hl hok hsys
      · cases hs
    · cases hs
  | receive i =>
    simp only [tabStep] at hs
    split at hs
    · next kind u hi =>
      have hserved := h.served i
      rw [hi] at hserved
      rcases hserved with ⟨ck, hc⟩ | ⟨k, ck, hc⟩ | ⟨k, ck, mk, hc⟩
      · rw [hc] at hs
        cases hs
      · rw [hc] at hs
        cases hs
      · rw [hc] at hs
        obtain rfl := Option.some.inj hs
        refine h.receiving hi hc ?_
        cases kind
        · exact Or.inl rfl
        · exact Or.inr rfl
    · next kind hi =>
      have hserved := h.served i
      rw [hi] at hserved
      exact hserved.elim
    · cases hs
  | retried i status =>
    simp only [tabStep] at hs
    split at hs
    · next u hi =>
      split at hs
      · obtain rfl := Option.some.inj hs
        have hserved := h.served i
        rw [hi] at hserved
        exact h.retask (Or.inl (by rw [hi]; rfl)) rfl hserved (by intro v hv; cases hv) h.stored
      · cases hs
    · cases hs

theorem fine (h : TabsInv ttl first s) : TabsFine s := by
  obtain ⟨t, ht, -⟩ := h.stored
  refine ⟨by rw [ht]; exact Option.some_ne_none t, ?_⟩
  intro i hi
  have hserved := h.served i
  refine ⟨hserved.uncaught hi, ?_, ?_⟩
  · intro hout
    rw [hout] at hserved
    exact hserved
  · intro status hend
    rw [hend] at hserved
    exact hserved.1

theorem goesOn (h : TabsInv ttl first s) : GoesOn cfg cr s := by
  intro i hi
  have hserved := h.served i
  cases ht : s.tasks i with
  | idle | ended | loggedOut | closed =>
    rw [ht] at hi
    cases hi
  | limited kind =>
    rw [ht] at hserved
    exact hserved.elim
  | waiting kind tokens =>
    rw [ht] at hserved
    cases tokens with
    | none => exact hserved.elim
    | some u =>
      cases kind with
      | apiFetch =>
        refine ⟨.answer i 401, s.goto i (.unauthorized .apiFetch u), rfl, ?_⟩
        simp [tabStep, ht]
      | onclose =>
        refine ⟨.close i 1008 true, s.goto i (.unauthorized .onclose u), rfl, ?_⟩
        simp [tabStep, ht]
  | unauthorized kind u =>
    rw [ht] at hserved
    have hidle : s.sys.calls i = .idle := hserved
    obtain ⟨hret, -⟩ := h.captured i u (by rw [ht]; rfl)
    obtain ⟨sys, hsys⟩ : ∃ sys, Sessions.step cfg cr s.sys (.refreshCheck i u.refreshToken) =
        some sys := by
      simp only [Sessions.step, hidle, hret, if_true]
      split
      · split
        · exact ⟨_, rfl⟩
        · exact ⟨_, rfl⟩
      · exact ⟨_, rfl⟩
    refine ⟨.send i false, { s.goto i (.refreshing kind u) with sys }, rfl, ?_⟩
    simp [tabStep, ht, hsys]
  | refreshing kind u =>
    rw [ht] at hserved
    have through : ∀ l, serves i l = true → (Sessions.step cfg cr s.sys l).isSome = true →
        ∃ l s', l.task = some i ∧ tabStep cfg cr s l = some s' := by
      intro l hl hsome
      obtain ⟨sys, hsys⟩ := Option.isSome_iff_exists.mp hsome
      refine ⟨.backend i l, { s with sys }, rfl, ?_⟩
      simp [tabStep, ht, hl, hsys]
    rcases hserved with ⟨ck, hc⟩ | ⟨k, ck, hc⟩ | ⟨k, ck, mk, hc⟩
    · obtain ⟨jti, hjti⟩ := s.sys.exists_fresh
      exact through (.refreshRotate i jti) (decide_eq_true rfl) (by simp [Sessions.step, hc, hjti])
    · exact through (.refreshMark i) (decide_eq_true rfl) (by simp [Sessions.step, hc])
    · have hsome : (tabStep cfg cr s (.receive i)).isSome = true := by simp [tabStep, ht, hc]
      obtain ⟨s', hs'⟩ := Option.isSome_iff_exists.mp hsome
      exact ⟨.receive i, s', rfl, hs'⟩
  | retrying u =>
    refine ⟨.retried i 401, s.goto i (.ended 401 true), rfl, ?_⟩
    simp [tabStep, ht]

theorem init {sys : Sys} {t : Tokens} (h : Start cfg cr sys t) :
    TabsInv cfg.refreshTtl t.refreshToken (initTabs sys t) := by
  obtain ⟨now, users, hreach⟩ := h.reachable
  obtain ⟨hl, hh, hd⟩ := Ledger.reachable hreach
  obtain ⟨-, hm⟩ := protocol_reachable hreach
  refine ⟨hl, hh, hd, hm, h.returned, ⟨t, rfl, h.returned, Or.inl rfl⟩, ?_, ?_, ?_, ?_⟩
  · intro i u hu
    cases hu
  · intro i
    trivial
  · intro i c m hi
    cases hi
  · rintro m (rfl | ⟨i, hi, -⟩) -
    · exact stored_of_alive h.valid
    · cases hi

end TabsInv

/- In every run in which each refresh token is sent by one task, in date and within
the rate limit, no presentation is taken for reuse, the tokens stay and every
refused `apiFetch` ends with the answer to its repeated request. -/
theorem tabs_fine_on_safe_runs {cfg : Settings} {cr : Crypto} {sys : Sys} {t : Tokens}
    (hstart : Start cfg cr sys t) (ls : List TabLabel)
    (hok : Runs.Along (tabStep cfg cr) TabsSafe (initTabs sys t) ls) :
    Runs.Throughout (tabStep cfg cr) (fun s => TabsFine s ∧ GoesOn cfg cr s) (initTabs sys t) ls :=
  Runs.throughout_of_invariant (TabsInv cfg.refreshTtl t.refreshToken) _ TabsSafe
    (fun _ _ _ hi hsafe hs => hi.step hsafe hs) (fun _ hi => ⟨hi.fine, hi.goesOn⟩)
    (TabsInv.init hstart) hok

/-- The backend after alice has logged in, and the pair her tabs have stored. -/
def aliceSys : Sys :=
  (Runs.run (step {} tabledCrypto) (Sessions.init 0 [alice]) aliceLogin).getD
    (Sessions.init 0 [alice])

def aliceTokens : Tokens := tokensOf {} aliceToken

theorem aliceStart : Start {} tabledCrypto aliceSys aliceTokens :=
  ⟨⟨0, [alice], aliceLogin, rfl⟩, by decide, rfl⟩

theorem aliceSys_presents (c : ℕ) : (aliceSys.calls c).presents = none := by
  by_cases hc : c = 0
  · subst hc
    rfl
  · have hcalls : aliceSys.calls c = .idle := by
      show Function.update (Function.update (Function.update (fun _ => Call.idle) 0 _) 0 _) 0 _ c =
        Call.idle
      rw [Function.update_of_ne hc, Function.update_of_ne hc, Function.update_of_ne hc]
    rw [hcalls]
    rfl

/- 31 minutes after the login. The second call starts with the new pair, before the first
has repeated its request; meanwhile a socket opened with the old pair is lost. -/
def tabsInTurn : List TabLabel :=
  [.tick 1860000, .start 3 .onclose, .start 1 .apiFetch, .answer 1 401, .send 1 false,
    .backend 1 (.refreshRotate 1 "j1"), .backend 1 (.refreshMark 1), .receive 1,
    .start 2 .apiFetch, .close 3 1006 true, .answer 2 200, .retried 1 200]

theorem tabs_fine_on_safe_runs_in_turn :
    (∃ s, Runs.run (tabStep {} tabledCrypto) (initTabs aliceSys aliceTokens) tabsInTurn = some s ∧
      (s.tasks 1, s.tasks 2, s.tasks 3) = (.ended 200 true, .ended 200 false, .closed)) ∧
    Runs.Throughout (tabStep {} tabledCrypto) (fun s => TabsFine s ∧ GoesOn {} tabledCrypto s)
      (initTabs aliceSys aliceTokens) tabsInTurn := by
  refine ⟨⟨_, rfl, rfl⟩, tabs_fine_on_safe_runs aliceStart tabsInTurn ?_⟩
  refine ⟨trivial, fun s₁ h₁ => ⟨trivial, fun s₂ h₂ => ⟨trivial, fun s₃ h₃ =>
    ⟨trivial, fun s₄ h₄ => ⟨?_, fun s₅ h₅ => ⟨?_, fun _ _ => ⟨trivial, fun _ _ => ⟨trivial,
      fun _ _ => ⟨trivial, fun _ _ => ⟨trivial, fun _ _ => ⟨trivial, fun _ _ =>
        ⟨trivial, fun _ _ => trivial⟩⟩⟩⟩⟩⟩⟩⟩⟩⟩⟩⟩
  all_goals
    obtain rfl := Option.some.inj h₁
    obtain rfl := Option.some.inj h₂
    obtain rfl := Option.some.inj h₃
    obtain rfl := Option.some.inj h₄
  · refine ⟨rfl, ?_⟩
    intro kind t ht
    cases ht
    refine ⟨rfl, fun c => ?_⟩
    show (aliceSys.calls c).presents ≠ _
    rw [aliceSys_presents]
    exact (Option.some_ne_none _).symm
  · obtain rfl := Option.some.inj h₅
    intro m ck hc d hd
    cases hc
    cases hd
    decide

/- Two tabs are refused with the same stored pair. The first refreshes; the second
presents the exchanged token, loses every session and clears the new pair. -/
def twoTabs : List TabLabel :=
  [.tick 1860000, .start 1 .apiFetch, .start 2 .apiFetch, .answer 1 401, .answer 2 401,
    .send 1 false, .backend 1 (.refreshRotate 1 "j1"), .backend 1 (.refreshMark 1), .receive 1,
    .retried 1 200, .send 2 false, .backend 2 (.revokeBegin 2),
    .backend 2 (.revokeDelete 2 (.refresh 1 "j1")), .backend 2 (.revokeEnd 2), .receive 2]

theorem tabs_broken_by_overlap :
    ∃ s, Runs.run (tabStep {} tabledCrypto) (initTabs aliceSys aliceTokens) twoTabs = some s ∧
      (∃ ck b, s.sys.calls 2 = .reuseRefused aliceToken ck b) ∧
      isRefreshJtiValid s.sys.now 1 "j1" s.sys.redis = false ∧ s.storage = none ∧
      s.tasks 2 = .loggedOut ∧ ¬ TabsFine s := by
  refine ⟨_, rfl, ⟨_, _, rfl⟩, rfl, rfl, rfl, ?_⟩
  rintro ⟨hstorage, -⟩
  exact hstorage rfl

end PulseWatch.Browser
