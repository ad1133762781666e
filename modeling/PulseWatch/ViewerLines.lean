import PulseWatch.LiveUpdates
import PulseWatch.LogSubscribers

/-!
# Log lines from the agents to the dashboards

`ws_agent_logs` broadcasts each line it receives before it asks for the next one, and
`ws_dashboard_logs` stands in the registry of `LogsConnectionManager` from its
subscription to its end. The registry, its calls and its journal are those of
LogSubscribers; around it stand the agents' connections with their lines and the
viewers with the rows they were let in by.
-/

namespace PulseWatch.ViewerLines
open LiveUpdates LogSubscribers Runs

/- A connection of an agent: the broadcasts it has made, by call and line, in order. -/
structure Feed where
  serverId : ℕ
  broadcasts : List (ℕ × String)
  deriving DecidableEq, Repr

/- A call of `ws_dashboard_logs`: before its first query, before its second, in `accept` or
`subscribe`, in its loop, in its `finally` block, or over. -/
inductive Phase where
  | connecting
  | authenticated (user : User)
  | accepted
  | watching
  | leaving
  | closed (code : Option ℕ)
  deriving DecidableEq, Repr

/- `admitted` holds the rows the call has read. `since` records for each connection of an
agent how many broadcasts it had made when the viewer subscribed. -/
structure Viewer where
  serverId : ℤ
  token : Option String
  phase : Phase := .connecting
  admitted : Option (User × Server) := none
  since : Option (ℕ → ℕ) := none

structure State where
  users : List User
  servers : List Server
  registry : LogSubscribers.State ℕ
  viewers : ℕ → Option Viewer
  feeds : ℕ → Option Feed

def init : State := ⟨[], [], LogSubscribers.init, fun _ => none, fun _ => none⟩

inductive Label where
  /- any transaction on users and servers -/
  | write (users : List User) (servers : List Server)
  /- the viewers -/
  | connect (w : ℕ) (serverId : ℤ) (token : Option String)
  | authenticate (w : ℕ)
  | own (w : ℕ)
  | watch (w : ℕ)
  | disconnect (w : ℕ)
  | finish (w : ℕ)
  /- the agents; `i` is the number of the broadcast, `targets` the set it takes -/
  | agent (j serverId : ℕ)
  | line (j i : ℕ) (text : String) (targets : List ℕ)
  | send (i : ℕ) (ok : Bool)
  | clean (i : ℕ)
  deriving DecidableEq, Repr

def State.put (s : State) (w : ℕ) (v : Viewer) : State :=
  { s with viewers := Function.update s.viewers w (some v) }

def State.counts (s : State) (j : ℕ) : ℕ := (s.feeds j).elim 0 fun f => f.broadcasts.length

variable (jwt : Jwt)

/- The turn of a viewer; `none` where the label does not fit its phase. -/
def turn (s : State) (w : ℕ) (v : Viewer) : Label → Option State
  | .authenticate _ =>
    if v.phase = .connecting then
      match authenticateWsUser jwt s.users v.token with
      | .error _ => some (s.put w { v with phase := .closed none })
      | .ok none => some (s.put w { v with phase := .closed (some wsPolicyViolation) })
      | .ok (some user) => some (s.put w { v with phase := .authenticated user })
    else none
  | .own _ =>
    match v.phase with
    | .authenticated user =>
      match s.servers.find? fun r => (r.id : ℤ) = v.serverId && r.ownerId = user.id with
      | none => some (s.put w { v with phase := .closed (some wsPolicyViolation) })
      | some server => some (s.put w { v with phase := .accepted, admitted := some (user, server) })
    | _ => none
  | .watch _ =>
    match v.phase, v.admitted with
    | .accepted, some (_, server) =>
      (LogSubscribers.step s.registry (.subscribe server.id w)).map fun registry =>
        { s.put w { v with phase := .watching, since := some s.counts } with registry }
    | _, _ => none
  | .disconnect _ =>
    if v.phase = .watching then some (s.put w { v with phase := .leaving }) else none
  | .finish _ =>
    match v.phase, v.admitted with
    | .leaving, some (_, server) =>
      (LogSubscribers.step s.registry (.unsubscribe server.id w)).map fun registry =>
        { s.put w { v with phase := .closed none } with registry }
    | _, _ => none
  | _ => none

/- The last broadcast of the connection has returned. -/
def Feed.ready (f : Feed) (registry : LogSubscribers.State ℕ) : Bool :=
  f.broadcasts.getLast?.all fun p =>
    match registry.calls p.1 with
    | .returned => true
    | _ => false

def Label.viewer : Label → Option ℕ
  | .authenticate w | .own w | .watch w | .disconnect w | .finish w => some w
  | _ => none

def step (s : State) : Label → Option State
  | .write users servers => some { s with users, servers }
  | .connect w serverId token =>
    if (s.viewers w).isNone then some (s.put w { serverId, token }) else none
  | .agent j serverId =>
    if (s.feeds j).isNone then
      some { s with feeds := Function.update s.feeds j (some ⟨serverId, []⟩) }
    else none
  | .line j i text targets =>
    (s.feeds j).bind fun f =>
      if f.ready s.registry then
        (LogSubscribers.step s.registry (.take i f.serverId text targets)).map fun registry =>
          { s with
            registry
            feeds := Function.update s.feeds j
              (some { f with broadcasts := f.broadcasts ++ [(i, text)] }) }
      else none
  | .send i ok =>
    (LogSubscribers.step s.registry (.send i ok)).map fun registry => { s with registry }
  | .clean i =>
    (LogSubscribers.step s.registry (.clean i)).map fun registry => { s with registry }
  | l => l.viewer.bind fun w => (s.viewers w).bind fun v => turn jwt s w v l

/-! ### What a viewer is sent -/

/- The broadcast and the line of a send to the viewer that has succeeded. -/
def hit (w : ℕ) : Event ℕ → Option (ℕ × String)
  | .sent i _ v message true => if v = w then some (i, message) else none
  | _ => none

def inbox (w : ℕ) (journal : List (Event ℕ)) : List (ℕ × String) :=
  journal.reverse.filterMap (hit w)

/- What the viewer has got of the lines of a connection. -/
def seen (w : ℕ) (f : Feed) (journal : List (Event ℕ)) : List (ℕ × String) :=
  (inbox w journal).filter fun p => p ∈ f.broadcasts

/- What the viewers of the page have been sent, once their calls have got that far. -/
structure Shown (s : State) (w : ℕ) (v : Viewer) : Prop where
  /- to the owner of the server, by the token he came with -/
  admitted : inbox w s.registry.journal ≠ [] → ∃ u r, v.admitted = some (u, r) ∧
    TokenOf jwt v.token u ∧ (r.id : ℤ) = v.serverId ∧ r.ownerId = u.id
  /- lines of his server, each of them from one of its agents -/
  own : ∀ p ∈ inbox w s.registry.journal, ∃ j f, s.feeds j = some f ∧
    (f.serverId : ℤ) = v.serverId ∧ p ∈ f.broadcasts
  /- none of them twice, and in the order in which the agent has sent them -/
  order : ∀ j f, s.feeds j = some f → (seen w f s.registry.journal).Sublist f.broadcasts ∧
    (f.broadcasts.map Prod.fst).Nodup
  /- and while no send has failed all of them since he came, but perhaps the last -/
  gapless : v.phase = .watching → (∀ n, ¬ Failed s.registry.journal n w) → ∃ since,
    v.since = some since ∧ ∀ j f, s.feeds j = some f → (f.serverId : ℤ) = v.serverId →
      (f.broadcasts.drop (since j)).dropLast <+: seen w f s.registry.journal ∧
      seen w f s.registry.journal <+: f.broadcasts.drop (since j)

/-! ### The invariants -/

/- The websockets a call has still to send to. -/
def waiting : LogSubscribers.Call ℕ → List ℕ
  | .sending _ _ targets _ => targets
  | _ => []

/- The viewer does not wait for this broadcast. -/
def done (registry : LogSubscribers.State ℕ) (w : ℕ) (p : ℕ × String) : Bool :=
  w ∉ waiting (registry.calls p.1)

/- The viewer has subscribed to the server. -/
def Entered (s : State) (w n : ℕ) : Prop :=
  ∃ v p, s.viewers w = some v ∧ v.since ≠ none ∧ v.admitted = some p ∧ p.2.id = n

structure Fits (v : Viewer) : Prop where
  authenticated : ∀ u, v.phase = .authenticated u → TokenOf jwt v.token u
  admitted : ∀ p, v.admitted = some p →
    TokenOf jwt v.token p.1 ∧ (p.2.id : ℤ) = v.serverId ∧ p.2.ownerId = p.1.id
  watching : v.phase = .watching → v.since ≠ none
  early : v.phase = .connecting ∨ (∃ u, v.phase = .authenticated u) ∨ v.phase = .accepted →
    v.since = none
  entered : v.since ≠ none → v.admitted ≠ none

/- Only who has subscribed is in the registry, in a call or in the journal. -/
structure Linked (s : State) : Prop where
  members : ∀ n w, w ∈ s.registry.get n → Entered s w n
  targets : ∀ i n m ts failed w, s.registry.calls i = .sending n m ts failed → w ∈ ts →
    Entered s w n
  sent : ∀ i n w m ok, .sent i n w m ok ∈ s.registry.journal → Entered s w n
  watching : ∀ w v p, s.viewers w = some v → v.phase = .watching → v.admitted = some p →
    joined p.2.id w s.registry.journal = true

/- Each broadcast is one of one connection, and all before its last have returned. -/
structure Fed (s : State) : Prop where
  owner : ∀ i n m ts failed, s.registry.calls i = .sending n m ts failed →
    ∃ j f, s.feeds j = some f ∧ f.serverId = n ∧ f.broadcasts.getLast? = some (i, m)
  started : ∀ j f p, s.feeds j = some f → p ∈ f.broadcasts → s.registry.calls p.1 ≠ .idle
  apart : ∀ j k f g p q, s.feeds j = some f → s.feeds k = some g → p ∈ f.broadcasts →
    q ∈ g.broadcasts → p.1 = q.1 → j = k ∧ p = q
  once : ∀ j f, s.feeds j = some f → (f.broadcasts.map Prod.fst).Nodup
  settled : ∀ j f p, s.feeds j = some f → p ∈ f.broadcasts.dropLast →
    s.registry.calls p.1 = .returned
  sent : ∀ i n w m ok, .sent i n w m ok ∈ s.registry.journal →
    ∃ j f, s.feeds j = some f ∧ f.serverId = n ∧ (i, m) ∈ f.broadcasts

/- How far the viewers have come with the connections. -/
structure Streamed (s : State) : Prop where
  order : ∀ w j f, s.feeds j = some f →
    (seen w f s.registry.journal).Sublist (f.broadcasts.filter (done s.registry w))
  counted : ∀ w v since, s.viewers w = some v → v.since = some since → ∀ j, since j ≤ s.counts j
  reached : ∀ w v since j f i m, s.viewers w = some v → v.since = some since →
    s.feeds j = some f → f.broadcasts.getLast? = some (i, m) →
      w ∈ waiting (s.registry.calls i) → since j < f.broadcasts.length
  gapless : ∀ w v p since, s.viewers w = some v → v.phase = .watching → v.admitted = some p →
    v.since = some since → ¬ Failed s.registry.journal p.2.id w → ∀ j f, s.feeds j = some f →
      f.serverId = p.2.id →
        seen w f s.registry.journal = (f.broadcasts.drop (since j)).filter (done s.registry w)

structure Inv (s : State) : Prop where
  registry : LogSubscribers.Inv s.registry
  fits : ∀ w v, s.viewers w = some v → Fits jwt v
  linked : Linked s
  fed : Fed s
  streamed : Streamed s

/-! ### The journal -/

section
variable {w i n : ℕ} {m : String} {ok : Bool} {e : Event ℕ} {es : List (Event ℕ)} {f : Feed}

theorem inbox_cons : inbox w (e :: es) = inbox w es ++ (hit w e).toList := by
  rw [inbox, List.reverse_cons, List.filterMap_append, inbox]
  cases h : hit w e <;> simp [h]

theorem mem_inbox {p : ℕ × String} (h : p ∈ inbox w es) :
    ∃ n, .sent p.1 n w p.2 true ∈ es := by
  obtain ⟨e, he, hp⟩ := List.mem_filterMap.mp h
  cases e with
  | sent i n v m ok =>
    cases ok with
    | false => cases hp
    | true =>
      simp only [hit] at hp
      split at hp
      · next hv =>
        obtain rfl := Option.some.inj hp
        exact ⟨n, hv ▸ List.mem_reverse.mp he⟩
      · cases hp
  | _ => cases hp

theorem inbox_quiet (h : ∀ i n w m ok, e ≠ .sent i n w m ok) : inbox w (e :: es) = inbox w es := by
  rw [inbox_cons]
  cases e with
  | sent i n v m ok => exact absurd rfl (h i n v m ok)
  | _ => exact List.append_nil _

theorem failed_quiet (h : ∀ i n w m ok, e ≠ .sent i n w m ok) :
    Failed (e :: es) n w ↔ Failed es n w := by
  constructor
  · rintro ⟨i, m, hin⟩
    rcases List.mem_cons.mp hin with he | hin
    · exact absurd he.symm (h _ _ _ _ _)
    · exact ⟨i, m, hin⟩
  · exact fun hfailed => hfailed.cons e

theorem seen_quiet (h : ∀ i n w m ok, e ≠ .sent i n w m ok) :
    seen w f (e :: es) = seen w f es := by
  rw [seen, inbox_quiet h, seen]

theorem seen_sent (v : ℕ) : seen w f (.sent i n v m ok :: es) =
    seen w f es ++ if ok = true ∧ v = w ∧ (i, m) ∈ f.broadcasts then [(i, m)] else [] := by
  rw [seen, inbox_cons, List.filter_append, seen]
  congr 1
  cases ok with
  | false => simp [hit]
  | true =>
    by_cases hv : v = w
    · by_cases hin : (i, m) ∈ f.broadcasts
      · simp [hit, hv, hin]
      · simp [hit, hv, hin]
    · simp [hit, hv]

theorem waiting_afterSend (n : ℕ) (m : String) (targets failed : List ℕ) :
    waiting (afterSend n m targets failed) = targets := by
  unfold afterSend
  split <;> rfl

theorem sending_of_waiting {c : LogSubscribers.Call ℕ} (h : w ∈ waiting c) :
    ∃ n m ts failed, c = .sending n m ts failed ∧ w ∈ ts := by
  cases c with
  | sending n m ts failed => exact ⟨n, m, ts, failed, rfl, h⟩
  | _ => cases h

theorem afterSend_ne_idle (n : ℕ) (m : String) (targets failed : List ℕ) :
    afterSend n m targets failed ≠ .idle := by
  unfold afterSend
  split <;> simp

theorem afterSend_sending {n n' : ℕ} {m m' : String} {targets failed ts failed' : List ℕ}
    (h : afterSend n m targets failed = .sending n' m' ts failed') :
    n = n' ∧ m = m' ∧ targets = ts := by
  unfold afterSend at h
  split at h
  · cases h
  · cases h
  · obtain ⟨hn, hm, hts, -⟩ := Call.sending.inj h
    exact ⟨hn, hm, hts⟩

end

/-! ### The viewers -/

section
variable {jwt} {s : State}

theorem inv_init : Inv jwt init where
  registry := LogSubscribers.Inv.init
  fits w v hv := by cases hv
  linked := by
    refine ⟨fun n w hw => ?_, fun i n m ts failed w hi => ?_, fun i n w m ok hin => ?_,
      fun w v p hv => ?_⟩
    · simp [init, LogSubscribers.init, State.get] at hw
    · cases hi
    · cases hin
    · cases hv
  fed := by
    refine ⟨fun i n m ts failed hi => ?_, fun j f p hf => ?_, fun j k f g p q hf => ?_,
      fun j f hf => ?_, fun j f p hf => ?_, fun i n w m ok hin => ?_⟩
    · cases hi
    · cases hf
    · cases hf
    · cases hf
    · cases hf
    · cases hin
  streamed := by
    refine ⟨fun w j f hf => ?_, fun w v since hv => ?_, fun w v since j f i m hv => ?_,
      fun w v p since hv => ?_⟩
    · cases hf
    · cases hv
    · cases hv
    · cases hv

theorem put_viewers (s : State) (w w' : ℕ) (v : Viewer) :
    (s.put w v).viewers w' = if w' = w then some v else s.viewers w' := by
  unfold State.put
  dsimp only
  split
  · next h => rw [h, Function.update_self]
  · next h => rw [Function.update_of_ne h]

theorem Entered.put {w w' n : ℕ} {v : Viewer} (h : Entered s w' n)
    (hkeep : ∀ old, s.viewers w = some old → old.since ≠ none →
      v.since = old.since ∧ v.admitted = old.admitted) : Entered (s.put w v) w' n := by
  obtain ⟨old, p, hold, hsince, hadmitted, hid⟩ := h
  by_cases hw : w' = w
  · subst hw
    obtain ⟨hs, ha⟩ := hkeep old hold hsince
    refine ⟨v, p, ?_, hs ▸ hsince, ha.trans hadmitted, hid⟩
    rw [put_viewers, if_pos rfl]
  · refine ⟨old, p, ?_, hsince, hadmitted, hid⟩
    rw [put_viewers, if_neg hw]
    exact hold

/- A viewer goes on outside the registry. -/
theorem Inv.put (h : Inv jwt s) {w : ℕ} {v : Viewer} (hfits : Fits jwt v)
    (hkeep : ∀ old, s.viewers w = some old → old.since ≠ none →
      v.since = old.since ∧ v.admitted = old.admitted)
    (hsince : v.since ≠ none → ∃ old, s.viewers w = some old ∧ old.since = v.since)
    (hphase : v.phase ≠ .watching) : Inv jwt (s.put w v) where
  registry := h.registry
  fits w' v' hv' := by
    rw [put_viewers] at hv'
    split at hv'
    · exact Option.some.inj hv' ▸ hfits
    · exact h.fits w' v' hv'
  linked := by
    refine ⟨fun n w' hw => (h.linked.members n w' hw).put hkeep,
      fun i n m ts failed w' hi hw => (h.linked.targets i n m ts failed w' hi hw).put hkeep,
      fun i n w' m ok hin => (h.linked.sent i n w' m ok hin).put hkeep,
      fun w' v' p hv' hwatching hp => ?_⟩
    rw [put_viewers] at hv'
    split at hv'
    · exact absurd (Option.some.inj hv' ▸ hwatching) hphase
    · exact h.linked.watching w' v' p hv' hwatching hp
  fed := ⟨h.fed.owner, h.fed.started, h.fed.apart, h.fed.once, h.fed.settled, h.fed.sent⟩
  streamed := by
    have before : ∀ w' v' since, (s.put w v).viewers w' = some v' → v'.since = some since →
        ∃ old, s.viewers w' = some old ∧ old.since = some since := by
      intro w' v' since hv' hs
      rw [put_viewers] at hv'
      split at hv'
      · next hw =>
        obtain rfl := Option.some.inj hv'
        obtain ⟨old, hold, heq⟩ := hsince (by rw [hs]; simp)
        exact ⟨old, hw ▸ hold, heq.trans hs⟩
      · exact ⟨v', hv', hs⟩
    refine ⟨h.streamed.order, fun w' v' since hv' hs => ?_,
      fun w' v' since j f i m hv' hs => ?_, fun w' v' p since hv' hwatching => ?_⟩
    · obtain ⟨old, hold, hsame⟩ := before w' v' since hv' hs
      exact h.streamed.counted w' old since hold hsame
    · obtain ⟨old, hold, hsame⟩ := before w' v' since hv' hs
      exact h.streamed.reached w' old since j f i m hold hsame
    · rw [put_viewers] at hv'
      split at hv'
      · exact absurd (Option.some.inj hv' ▸ hwatching) hphase
      · exact h.streamed.gapless w' v' p since hv' hwatching

theorem Linked.waits (h : Linked s) {w : ℕ} {p : ℕ × String}
    (hw : w ∈ waiting (s.registry.calls p.1)) : ∃ n, Entered s w n := by
  obtain ⟨n, m, ts, failed, hi, hin⟩ := sending_of_waiting hw
  exact ⟨n, h.targets p.1 n m ts failed w hi hin⟩

theorem Linked.unseen (h : Linked s) {w : ℕ} (hw : ∀ n, ¬ Entered s w n) (f : Feed) :
    seen w f s.registry.journal = [] := by
  refine List.eq_nil_iff_forall_not_mem.mpr fun p hp => ?_
  obtain ⟨n, hin⟩ := mem_inbox (List.mem_filter.mp hp).1
  exact hw n (h.sent _ n w _ true hin)

theorem counts_of_feed {j : ℕ} {f : Feed} (hf : s.feeds j = some f) :
    s.counts j = f.broadcasts.length := by
  rw [State.counts, hf]
  rfl

theorem Inv.watch (h : Inv jwt s) {w : ℕ} {v : Viewer} {user : User} {server : Server}
    (hv : s.viewers w = some v) (hphase : v.phase = .accepted)
    (hadmitted : v.admitted = some (user, server)) :
    Inv jwt { s.put w { v with phase := .watching, since := some s.counts } with
      registry := (s.registry.add server.id w).note (.subscribed server.id w) } := by
  have hfits := h.fits w v hv
  have hnone : v.since = none := hfits.early (Or.inr (Or.inr hphase))
  have hout : ∀ n, ¬ Entered s w n := by
    rintro n ⟨v', p, hv', hsince, -⟩
    obtain rfl := Option.some.inj (hv.symm.trans hv')
    exact hsince hnone
  have hkeep : ∀ w' n, Entered s w' n →
      Entered (s.put w { v with phase := .watching, since := some s.counts }) w' n := by
    intro w' n hin
    refine hin.put fun old hold hsince => ?_
    obtain rfl := Option.some.inj (hv.symm.trans hold)
    exact absurd hnone hsince
  have hnew : Entered (s.put w { v with phase := .watching, since := some s.counts }) w
      server.id := by
    refine ⟨{ v with phase := .watching, since := some s.counts }, (user, server), ?_, ?_,
      hadmitted, rfl⟩
    · rw [put_viewers, if_pos rfl]
    · simp
  have hquiet : ∀ i n w' m ok, (Event.subscribed server.id w : Event ℕ) ≠ .sent i n w' m ok := by
    simp
  constructor
  · exact h.registry.subscribe server.id w
  · intro w' v' hv'
    have hv' : (s.put w { v with phase := .watching, since := some s.counts }).viewers w' =
      some v' := hv'
    rw [put_viewers] at hv'
    split at hv'
    · obtain rfl := Option.some.inj hv'
      refine ⟨by simp, hfits.admitted, by simp, by simp, fun _ => ?_⟩
      rw [hadmitted]
      simp
    · exact h.fits w' v' hv'
  · refine ⟨fun n w' hw' => ?_, fun i n m ts failed w' hi hw' => ?_,
      fun i n w' m ok hin => ?_, fun w' v' p hv' hwatching hp => ?_⟩
    · have hget : w' ∈ (s.registry.add server.id w).get n := hw'
      rw [get_add] at hget
      split at hget
      · next hn =>
        subst hn
        rcases Finset.mem_insert.mp hget with rfl | hold
        · exact hnew
        · exact hkeep w' _ (h.linked.members _ w' hold)
      · exact hkeep w' n (h.linked.members n w' hget)
    · exact hkeep w' n (h.linked.targets i n m ts failed w' hi hw')
    · rcases List.mem_cons.mp hin with he | hin
      · cases he
      · exact hkeep w' n (h.linked.sent i n w' m ok hin)
    · have hv' : (s.put w { v with phase := .watching, since := some s.counts }).viewers w' =
        some v' := hv'
      show joined p.2.id w' (.subscribed server.id w :: s.registry.journal) = true
      rw [joined]
      rw [put_viewers] at hv'
      split at hv'
      · next hw =>
        obtain rfl := Option.some.inj hv'
        obtain rfl := Option.some.inj (hadmitted.symm.trans hp)
        rw [if_pos ⟨rfl, hw.symm⟩]
      · next hw =>
        rw [if_neg fun hsame => hw hsame.2.symm]
        exact h.linked.watching w' v' p hv' hwatching hp
  · refine ⟨h.fed.owner, h.fed.started, h.fed.apart, h.fed.once, h.fed.settled,
      fun i n w' m ok hin => ?_⟩
    rcases List.mem_cons.mp hin with he | hin
    · cases he
    · exact h.fed.sent i n w' m ok hin
  · refine ⟨fun w' j f hf => ?_, fun w' v' since hv' hs j => ?_,
      fun w' v' since j f i m hv' hs hf hlast hw' => ?_,
      fun w' v' p since hv' hwatching hp hs hfailed j f hf hid => ?_⟩
    · show (seen w' f (.subscribed server.id w :: s.registry.journal)).Sublist _
      rw [seen_quiet hquiet]
      exact h.streamed.order w' j f hf
    · have hv' : (s.put w { v with phase := .watching, since := some s.counts }).viewers w' =
        some v' := hv'
      rw [put_viewers] at hv'
      split at hv'
      · obtain rfl := Option.some.inj hv'
        obtain rfl := Option.some.inj hs
        exact Nat.le_refl _
      · exact h.streamed.counted w' v' since hv' hs j
    · have hv' : (s.put w { v with phase := .watching, since := some s.counts }).viewers w' =
        some v' := hv'
      rw [put_viewers] at hv'
      split at hv'
      · next hw =>
        obtain ⟨n, hin⟩ := h.linked.waits (p := (i, m)) hw'
        exact absurd (hw ▸ hin) (hout n)
      · exact h.streamed.reached w' v' since j f i m hv' hs hf hlast hw'
    · have hv' : (s.put w { v with phase := .watching, since := some s.counts }).viewers w' =
        some v' := hv'
      show seen w' f (.subscribed server.id w :: s.registry.journal) = _
      rw [seen_quiet hquiet]
      rw [put_viewers] at hv'
      split at hv'
      · next hw =>
        obtain rfl := Option.some.inj hv'
        obtain rfl := Option.some.inj hs
        rw [hw, h.linked.unseen hout f, counts_of_feed (s := s) hf, List.drop_length,
          List.filter_nil]
      · have hfailed' : ¬ Failed s.registry.journal p.2.id w' := by
          rwa [← failed_quiet hquiet]
        exact h.streamed.gapless w' v' p since hv' hwatching hp hs hfailed' j f hf hid

/-! ### The registry and the broadcasts -/

theorem Inv.shrink (h : Inv jwt s) {r : LogSubscribers.State ℕ} (hr : LogSubscribers.Inv r)
    (hget : ∀ n w, w ∈ r.get n → w ∈ s.registry.get n)
    (hcalls : ∀ i, r.calls i = s.registry.calls i ∨
      r.calls i = .returned ∧ waiting (s.registry.calls i) = [])
    (hinbox : ∀ w, inbox w r.journal = inbox w s.registry.journal)
    (hsent : ∀ i n w m ok, .sent i n w m ok ∈ r.journal → .sent i n w m ok ∈ s.registry.journal)
    (hfailed : ∀ n w, Failed s.registry.journal n w → Failed r.journal n w)
    (hjoined : ∀ n w v, s.viewers w = some v → v.phase = .watching →
      joined n w s.registry.journal = true → joined n w r.journal = true) :
    Inv jwt { s with registry := r } := by
  have hwaiting : ∀ i, waiting (r.calls i) = waiting (s.registry.calls i) := by
    intro i
    rcases hcalls i with hsame | ⟨hreturned, hnone⟩
    · rw [hsame]
    · rw [hreturned, hnone]
      rfl
  have hdone : ∀ w, done r w = done s.registry w := by
    intro w
    funext p
    rw [done, done, hwaiting]
  have hsending : ∀ i n m ts failed, r.calls i = .sending n m ts failed →
      s.registry.calls i = .sending n m ts failed := by
    intro i n m ts failed hi
    rcases hcalls i with hsame | ⟨hreturned, -⟩
    · exact hsame ▸ hi
    · rw [hreturned] at hi
      cases hi
  have hseen : ∀ w f, seen w f r.journal = seen w f s.registry.journal := by
    intro w f
    rw [seen, hinbox, seen]
  constructor
  · exact hr
  · exact h.fits
  · exact ⟨fun n w hw => h.linked.members n w (hget n w hw),
      fun i n m ts failed w hi hw => h.linked.targets i n m ts failed w (hsending _ _ _ _ _ hi) hw,
      fun i n w m ok hin => h.linked.sent i n w m ok (hsent i n w m ok hin),
      fun w v p hv hwatching hp =>
        hjoined p.2.id w v hv hwatching (h.linked.watching w v p hv hwatching hp)⟩
  · refine ⟨fun i n m ts failed hi => h.fed.owner i n m ts failed (hsending _ _ _ _ _ hi),
      fun j f p hf hp hidle => ?_, h.fed.apart, h.fed.once, fun j f p hf hp => ?_,
      fun i n w m ok hin => h.fed.sent i n w m ok (hsent i n w m ok hin)⟩
    · rcases hcalls p.1 with hsame | ⟨hreturned, -⟩
      · exact h.fed.started j f p hf hp (hsame ▸ hidle)
      · rw [hreturned] at hidle
        cases hidle
    · rcases hcalls p.1 with hsame | ⟨hreturned, -⟩
      · exact hsame.trans (h.fed.settled j f p hf hp)
      · exact hreturned
  · refine ⟨fun w j f hf => ?_, h.streamed.counted, fun w v since j f i m hv hs hf hlast hw => ?_,
      fun w v p since hv hwatching hp hs hnot j f hf hid => ?_⟩
    · dsimp only
      rw [hseen, hdone]
      exact h.streamed.order w j f hf
    · exact h.streamed.reached w v since j f i m hv hs hf hlast (hwaiting i ▸ hw)
    · dsimp only
      rw [hseen, hdone]
      exact h.streamed.gapless w v p since hv hwatching hp hs
        (fun hf => hnot (hfailed p.2.id w hf)) j f hf hid

theorem Inv.finish (h : Inv jwt s) {w n : ℕ}
    (hout : ∀ v, s.viewers w = some v → v.phase ≠ .watching) :
    Inv jwt { s with
      registry := (s.registry.discard n [w]).note (.unsubscribed n w) } := by
  have hquiet : ∀ i n' w' m ok, (Event.unsubscribed n w : Event ℕ) ≠ .sent i n' w' m ok := by
    simp
  have hjournal : ((s.registry.discard n [w]).note (.unsubscribed n w)).journal =
      .unsubscribed n w :: s.registry.journal := by
    rw [State.note, discard_journal]
  refine h.shrink (h.registry.unsubscribe n w) (fun n' w' hw' => ?_) (fun i => Or.inl ?_)
    (fun w' => ?_) (fun i n' w' m ok hin => ?_) (fun n' w' hin => ?_)
    (fun n' w' v hv hwatching hin => ?_)
  · have hget : w' ∈ (s.registry.discard n [w]).get n' := hw'
    rw [get_discard] at hget
    split at hget
    · next hn => exact hn ▸ (Finset.mem_sdiff.mp hget).1
    · exact hget
  · rw [State.note, discard_calls]
  · rw [hjournal, inbox_quiet hquiet]
  · rw [hjournal] at hin
    rcases List.mem_cons.mp hin with he | hin
    · cases he
    · exact hin
  · rw [hjournal]
    exact (failed_quiet hquiet).mpr hin
  · rw [hjournal, joined, if_neg]
    · exact hin
    · rintro ⟨-, rfl⟩
      exact hout v hv hwatching

theorem Inv.clean (h : Inv jwt s) {i n : ℕ} {failed : List ℕ}
    (hi : s.registry.calls i = .cleaning n failed) :
    Inv jwt { s with registry := (s.registry.discard n failed).goto i .returned } := by
  refine h.shrink (h.registry.clean hi) (fun n' w hw => ?_) (fun k => ?_) (fun w => ?_)
    (fun k n' w m ok hin => ?_) (fun n' w hin => ?_) (fun n' w v hv hwatching hin => ?_)
  · have hget : w ∈ (s.registry.discard n failed).get n' := hw
    rw [get_discard] at hget
    split at hget
    · next hn => exact hn ▸ (Finset.mem_sdiff.mp hget).1
    · exact hget
  · by_cases hk : k = i
    · subst hk
      refine Or.inr ⟨?_, by rw [hi]; rfl⟩
      simp [LogSubscribers.State.goto]
    · refine Or.inl ?_
      simp [LogSubscribers.State.goto, Function.update_of_ne hk]
  · simp [LogSubscribers.State.goto]
  · simpa [LogSubscribers.State.goto] using hin
  · simpa [LogSubscribers.State.goto] using hin
  · simpa [LogSubscribers.State.goto] using hin

/-! ### The agents -/

def State.feed (s : State) (j : ℕ) (f : Feed) : State :=
  { s with feeds := Function.update s.feeds j (some f) }

theorem feed_feeds (s : State) (j k : ℕ) (f : Feed) :
    (s.feed j f).feeds k = if k = j then some f else s.feeds k := by
  unfold State.feed
  dsimp only
  split
  · next h => rw [h, Function.update_self]
  · next h => rw [Function.update_of_ne h]

theorem Inv.agent (h : Inv jwt s) {j : ℕ} (hj : s.feeds j = none) (serverId : ℕ) :
    Inv jwt (s.feed j ⟨serverId, []⟩) := by
  have hold : ∀ k f, s.feeds k = some f → (s.feed j ⟨serverId, []⟩).feeds k = some f := by
    intro k f hf
    rw [feed_feeds, if_neg]
    · exact hf
    · rintro rfl
      rw [hj] at hf
      cases hf
  have hcases : ∀ k f, (s.feed j ⟨serverId, []⟩).feeds k = some f →
      s.feeds k = some f ∨ f.broadcasts = [] := by
    intro k f hf
    rw [feed_feeds] at hf
    split at hf
    · obtain rfl := Option.some.inj hf
      exact Or.inr rfl
    · exact Or.inl hf
  have hnil : ∀ f : Feed, f.broadcasts = [] → ∀ w es, seen w f es = [] := by
    intro f hf w es
    rw [seen, hf]
    simp
  refine ⟨h.registry, h.fits, ⟨h.linked.members, h.linked.targets, h.linked.sent,
    h.linked.watching⟩, ?_, ?_⟩
  · refine ⟨fun i n m ts failed hi => ?_, fun k f p hf hp => ?_,
      fun k k' f g p q hf hg hp hq heq => ?_, fun k f hf => ?_, fun k f p hf hp => ?_,
      fun i n w m ok hin => ?_⟩
    · obtain ⟨k, f, hf, hid, hlast⟩ := h.fed.owner i n m ts failed hi
      exact ⟨k, f, hold k f hf, hid, hlast⟩
    · rcases hcases k f hf with hf | hnone
      · exact h.fed.started k f p hf hp
      · rw [hnone] at hp
        cases hp
    · rcases hcases k f hf with hf | hnone
      · rcases hcases k' g hg with hg | hnone
        · exact h.fed.apart k k' f g p q hf hg hp hq heq
        · rw [hnone] at hq
          cases hq
      · rw [hnone] at hp
        cases hp
    · rcases hcases k f hf with hf | hnone
      · exact h.fed.once k f hf
      · rw [hnone]
        exact List.nodup_nil
    · rcases hcases k f hf with hf | hnone
      · exact h.fed.settled k f p hf hp
      · rw [hnone] at hp
        cases hp
    · obtain ⟨k, f, hf, hid, hin⟩ := h.fed.sent i n w m ok hin
      exact ⟨k, f, hold k f hf, hid, hin⟩
  · refine ⟨fun w k f hf => ?_, fun w v since hv hs k => ?_,
      fun w v since k f i m hv hs hf hlast => ?_,
      fun w v p since hv hwatching hp hs hnot k f hf hid => ?_⟩
    · rcases hcases k f hf with hf | hnone
      · exact h.streamed.order w k f hf
      · rw [hnil f hnone]
        exact List.nil_sublist _
    · have hle := h.streamed.counted w v since hv hs k
      by_cases hk : k = j
      · have hzero : s.counts k = 0 := by
          rw [State.counts, hk, hj]
          rfl
        omega
      · have hsame : (s.feed j ⟨serverId, []⟩).counts k = s.counts k := by
          rw [State.counts, feed_feeds, if_neg hk, State.counts]
        omega
    · rcases hcases k f hf with hf | hnone
      · exact h.streamed.reached w v since k f i m hv hs hf hlast
      · rw [hnone] at hlast
        cases hlast
    · rcases hcases k f hf with hf | hnone
      · exact h.streamed.gapless w v p since hv hwatching hp hs hnot k f hf hid
      · rw [hnil f hnone, hnone]
        simp

theorem ready_last {f : Feed} (h : f.ready s.registry = true) {p : ℕ × String}
    (hp : f.broadcasts.getLast? = some p) : s.registry.calls p.1 = .returned := by
  rw [Feed.ready, hp, Option.all_some] at h
  cases hc : s.registry.calls p.1 with
  | returned => rfl
  | _ =>
    rw [hc] at h
    cases h

/- All broadcasts of a connection that is about to begin the next one have returned. -/
theorem Fed.over (h : Fed s) {j : ℕ} {f : Feed} (hf : s.feeds j = some f)
    (hready : f.ready s.registry = true) {p : ℕ × String} (hp : p ∈ f.broadcasts) :
    s.registry.calls p.1 = .returned := by
  have hne : f.broadcasts ≠ [] := List.ne_nil_of_mem hp
  rw [← List.dropLast_append_getLast hne] at hp
  rcases List.mem_append.mp hp with hp | hp
  · exact h.settled j f p hf hp
  · obtain rfl := List.mem_singleton.mp hp
    exact ready_last hready (List.getLast?_eq_getLast_of_ne_nil hne)

theorem goto_calls (r : LogSubscribers.State ℕ) (i k : ℕ) (c : LogSubscribers.Call ℕ)
    (e : Event ℕ) : ((r.goto i c).note e).calls k = if k = i then c else r.calls k := by
  show Function.update r.calls i c k = _
  split
  · next h => rw [h, Function.update_self]
  · next h => rw [Function.update_of_ne h]

/- The agent has sent the next line, and its broadcast takes the list. -/
theorem Inv.line (h : Inv jwt s) {j i : ℕ} {f : Feed} {text : String} {targets : List ℕ}
    (hf : s.feeds j = some f) (hready : f.ready s.registry = true)
    (hi : s.registry.calls i = .idle) (hnodup : targets.Nodup)
    (hset : targets.toFinset = s.registry.get f.serverId) :
    Inv jwt { s.feed j { f with broadcasts := f.broadcasts ++ [(i, text)] } with
      registry := (s.registry.goto i (afterSend f.serverId text targets [])).note
        (.took i f.serverId text targets) } := by
  have hquiet : ∀ k n w m ok,
      (Event.took i f.serverId text targets : Event ℕ) ≠ .sent k n w m ok := by
    simp
  have hfresh : ∀ k g p, s.feeds k = some g → p ∈ g.broadcasts → p.1 ≠ i := by
    rintro k g p hg hp rfl
    exact h.fed.started k g p hg hp hi
  have hnone : ∀ w p, p ∈ inbox w s.registry.journal → p.1 ≠ i := by
    rintro w p hp rfl
    obtain ⟨n, hin⟩ := mem_inbox hp
    have hidle := h.registry.follows p.1
    rw [hi] at hidle
    exact hidle _ hin rfl
  have hseen : ∀ w, seen w { f with broadcasts := f.broadcasts ++ [(i, text)] }
      s.registry.journal = seen w f s.registry.journal := by
    intro w
    refine List.filter_congr fun p hp => ?_
    have hne : p ≠ (i, text) := fun he => hnone w p hp (congrArg Prod.fst he)
    simp [hne]
  have hdone : ∀ w p, p.1 ≠ i → done ((s.registry.goto i (afterSend f.serverId text targets
      [])).note (.took i f.serverId text targets)) w p = done s.registry w p := by
    intro w p hp
    rw [done, goto_calls, if_neg hp, done]
  have hfilter : ∀ w k g, s.feeds k = some g → ∀ ps : List (ℕ × String), ps ⊆ g.broadcasts →
      ps.filter (done ((s.registry.goto i (afterSend f.serverId text targets [])).note
        (.took i f.serverId text targets)) w) = ps.filter (done s.registry w) := by
    intro w k g hg ps hps
    exact List.filter_congr fun p hp => hdone w p (hfresh k g p hg (hps hp))
  have hcases : ∀ k g, (s.feed j { f with broadcasts := f.broadcasts ++ [(i, text)] }).feeds k =
      some g → (k = j ∧ g = { f with broadcasts := f.broadcasts ++ [(i, text)] }) ∨
        s.feeds k = some g := by
    intro k g hg
    rw [feed_feeds] at hg
    split at hg
    · next hk => exact Or.inl ⟨hk, (Option.some.inj hg).symm⟩
    · exact Or.inr hg
  have hmem : ∀ k g p, (s.feed j { f with broadcasts := f.broadcasts ++ [(i, text)] }).feeds k =
      some g → p ∈ g.broadcasts → (p = (i, text) ∧ k = j) ∨
        p.1 ≠ i ∧ ∃ g₀, s.feeds k = some g₀ ∧ p ∈ g₀.broadcasts := by
    intro k g p hg hp
    rcases hcases k g hg with ⟨rfl, rfl⟩ | hold
    · rcases List.mem_append.mp hp with hp | hp
      · exact Or.inr ⟨hfresh k f p hf hp, f, hf, hp⟩
      · exact Or.inl ⟨List.mem_singleton.mp hp, rfl⟩
    · exact Or.inr ⟨hfresh k g p hold hp, g, hold, hp⟩
  have hkept : ∀ k g, s.feeds k = some g → ∃ g',
      (s.feed j { f with broadcasts := f.broadcasts ++ [(i, text)] }).feeds k = some g' ∧
        g'.serverId = g.serverId ∧ g.broadcasts ⊆ g'.broadcasts := by
    intro k g hg
    rw [feed_feeds]
    split
    · next hk =>
      subst hk
      obtain rfl := Option.some.inj (hf.symm.trans hg)
      exact ⟨_, rfl, rfl, List.subset_append_left _ _⟩
    · exact ⟨g, hg, rfl, List.Subset.refl _⟩
  have hsending : ∀ k n m ts failed, (if k = i then afterSend f.serverId text targets [] else
      s.registry.calls k) = .sending n m ts failed → k = i ∧ n = f.serverId ∧ m = text ∧
        ts = targets ∨ k ≠ i ∧ s.registry.calls k = .sending n m ts failed := by
    intro k n m ts failed hk
    split at hk
    · next he =>
      obtain ⟨hn, hm, hts⟩ := afterSend_sending hk
      exact Or.inl ⟨he, hn.symm, hm.symm, hts.symm⟩
    · next he => exact Or.inr ⟨he, hk⟩
  refine ⟨h.registry.take hi hnodup hset, h.fits, ?_, ?_, ?_⟩
  · refine ⟨h.linked.members, fun k n m ts failed w hk hw => ?_, fun k n w m ok hin => ?_,
      h.linked.watching⟩
    · rw [goto_calls] at hk
      rcases hsending k n m ts failed hk with ⟨-, rfl, -, rfl⟩ | ⟨-, hold⟩
      · have hmem : w ∈ s.registry.get f.serverId := hset ▸ List.mem_toFinset.mpr hw
        exact h.linked.members _ w hmem
      · exact h.linked.targets k n m ts failed w hold hw
    · rcases List.mem_cons.mp hin with he | hin
      · cases he
      · exact h.linked.sent k n w m ok hin
  · refine ⟨fun k n m ts failed hk => ?_, fun k g p hg hp => ?_,
      fun k k' g g' p q hg hg' hp hq heq => ?_, fun k g hg => ?_, fun k g p hg hp => ?_,
      fun k n w m ok hin => ?_⟩
    · rw [goto_calls] at hk
      rcases hsending k n m ts failed hk with ⟨rfl, rfl, rfl, -⟩ | ⟨-, hold⟩
      · refine ⟨j, { f with broadcasts := f.broadcasts ++ [(k, m)] }, ?_, rfl,
          List.getLast?_concat⟩
        exact (feed_feeds _ _ _ _).trans (if_pos rfl)
      · obtain ⟨k', g, hg, hid, hlast⟩ := h.fed.owner k n m ts failed hold
        refine ⟨k', g, (feed_feeds _ _ _ _).trans ((if_neg ?_).trans hg), hid, hlast⟩
        rintro rfl
        obtain rfl := Option.some.inj (hf.symm.trans hg)
        have hreturned := ready_last hready hlast
        rw [hold] at hreturned
        cases hreturned
    · rw [goto_calls]
      rcases hmem k g p hg hp with ⟨rfl, -⟩ | ⟨hne, g₀, hg₀, hp₀⟩
      · rw [if_pos rfl]
        exact afterSend_ne_idle _ _ _ _
      · rw [if_neg hne]
        exact h.fed.started k g₀ p hg₀ hp₀
    · rcases hmem k g p hg hp with ⟨rfl, rfl⟩ | ⟨hne, g₀, hg₀, hp₀⟩
      · rcases hmem k' g' q hg' hq with ⟨rfl, rfl⟩ | ⟨hne, -⟩
        · exact ⟨rfl, rfl⟩
        · exact absurd heq.symm hne
      · rcases hmem k' g' q hg' hq with ⟨rfl, -⟩ | ⟨-, g₁, hg₁, hq₁⟩
        · exact absurd heq hne
        · exact h.fed.apart k k' g₀ g₁ p q hg₀ hg₁ hp₀ hq₁ heq
    · rcases hcases k g hg with ⟨-, rfl⟩ | hold
      · have hnew : i ∉ f.broadcasts.map Prod.fst := by
          intro hin
          obtain ⟨p, hp, he⟩ := List.mem_map.mp hin
          exact hfresh j f p hf hp he
        simp only [List.map_append, List.map_cons, List.map_nil]
        exact List.nodup_append.mpr ⟨h.fed.once j f hf, List.nodup_singleton i, fun a ha b hb => by
          obtain rfl := List.mem_singleton.mp hb
          exact fun he => hnew (he ▸ ha)⟩
      · exact h.fed.once k g hold
    · rw [goto_calls]
      rcases hcases k g hg with ⟨-, rfl⟩ | hold
      · simp only [List.dropLast_concat] at hp
        rw [if_neg (hfresh j f p hf hp)]
        exact h.fed.over hf hready hp
      · rw [if_neg (hfresh k g p hold (List.dropLast_subset _ hp))]
        exact h.fed.settled k g p hold hp
    · rcases List.mem_cons.mp hin with he | hin
      · cases he
      · obtain ⟨k', g, hg, hid, hin⟩ := h.fed.sent k n w m ok hin
        obtain ⟨g', hg', hid', hsub⟩ := hkept k' g hg
        exact ⟨k', g', hg', hid'.trans hid, hsub hin⟩
  · refine ⟨fun w k g hg => ?_, fun w v since hv hs k => ?_,
      fun w v since k g i' m hv hs hg hlast hw => ?_,
      fun w v p since hv hwatching hp hs hnot k g hg hid => ?_⟩
    · show (seen w g (_ :: s.registry.journal)).Sublist _
      rw [seen_quiet hquiet]
      rcases hcases k g hg with ⟨-, rfl⟩ | hold
      · rw [hseen, List.filter_append, hfilter w j f hf _ (List.Subset.refl _)]
        exact (h.streamed.order w j f hf).trans (List.sublist_append_left _ _)
      · rw [hfilter w k g hold _ (List.Subset.refl _)]
        exact h.streamed.order w k g hold
    · have hle := h.streamed.counted w v since hv hs k
      refine hle.trans ?_
      show s.counts k ≤ (s.feed j _).counts k
      rw [State.counts, State.counts, feed_feeds]
      split
      · next hk =>
        rw [hk, hf]
        simp
      · exact Nat.le_refl _
    · rw [goto_calls] at hw
      rcases hcases k g hg with ⟨rfl, rfl⟩ | hold
      · have hle := h.streamed.counted w v since hv hs k
        rw [counts_of_feed hf] at hle
        simp only [List.length_append, List.length_singleton]
        omega
      · rw [if_neg (hfresh k g (i', m) hold (List.mem_of_getLast? hlast))] at hw
        exact h.streamed.reached w v since k g i' m hv hs hold hlast hw
    · show seen w g (_ :: s.registry.journal) = _
      rw [seen_quiet hquiet]
      have hnot' : ¬ Failed s.registry.journal p.2.id w := by
        rwa [← failed_quiet hquiet]
      rcases hcases k g hg with ⟨rfl, rfl⟩ | hold
      · have hle := h.streamed.counted w v since hv hs k
        rw [counts_of_feed hf] at hle
        have hid : f.serverId = p.2.id := hid
        have hin : w ∈ targets := by
          rw [← List.mem_toFinset, hset, hid]
          exact h.registry.loyal _ w (h.linked.watching w v p hv hwatching hp) hnot'
        have hwaits : [(i, text)].filter (done ((s.registry.goto i (afterSend f.serverId text
            targets [])).note (.took i f.serverId text targets)) w) = [] := by
          simp [done, goto_calls, waiting_afterSend, hin]
        rw [hseen, List.drop_append_of_le_length hle, List.filter_append, hwaits, List.append_nil,
          hfilter w k f hf _ (List.drop_subset _ _)]
        exact h.streamed.gapless w v p since hv hwatching hp hs hnot' k f hf hid
      · rw [hfilter w k g hold _ (List.drop_subset _ _)]
        exact h.streamed.gapless w v p since hv hwatching hp hs hnot' k g hold hid

/- A send ends, and the viewer has the line or has failed. -/
theorem Inv.send (h : Inv jwt s) {i n v₀ : ℕ} {m : String} {ts failed : List ℕ}
    (hi : s.registry.calls i = .sending n m (v₀ :: ts) failed) (ok : Bool) :
    Inv jwt { s with
      registry := (s.registry.goto i (afterSend n m ts (if ok then failed else
        failed ++ [v₀]))).note (.sent i n v₀ m ok) } := by
  obtain ⟨j, f, hf, hid, hlast⟩ := h.fed.owner i n m (v₀ :: ts) failed hi
  have hwhole : f.broadcasts.dropLast ++ [(i, m)] = f.broadcasts :=
    List.dropLast_append_getLast? _ hlast
  have hmem : (i, m) ∈ f.broadcasts := List.mem_of_getLast? hlast
  have hself : v₀ ∉ ts := by
    have hfollows := h.registry.follows i
    rw [hi] at hfollows
    obtain ⟨targets, hnodup, hsplit, -⟩ := hfollows.1.took
    rw [← hsplit] at hnodup
    exact (List.nodup_cons.mp (List.nodup_append.mp hnodup).2.1).1
  have hcalls : ∀ k, ((s.registry.goto i (afterSend n m ts (if ok then failed else
      failed ++ [v₀]))).note (.sent i n v₀ m ok)).calls k =
        if k = i then afterSend n m ts (if ok then failed else failed ++ [v₀])
        else s.registry.calls k := fun k => goto_calls _ _ _ _ _
  have hentered : ∀ w ∈ v₀ :: ts, Entered s w n := fun w hw =>
    h.linked.targets i n m (v₀ :: ts) failed w hi hw
  have hsettled : ∀ k g p, s.feeds k = some g → p ∈ g.broadcasts.dropLast → p.1 ≠ i := by
    rintro k g p hg hp rfl
    have hreturned := h.fed.settled k g p hg hp
    rw [hi] at hreturned
    cases hreturned
  have hcases : ∀ k g, s.feeds k = some g → k = j ∧ g = f ∨ ∀ p ∈ g.broadcasts, p.1 ≠ i := by
    intro k g hg
    by_cases hk : k = j
    · subst hk
      exact Or.inl ⟨rfl, Option.some.inj (hg.symm.trans hf)⟩
    · refine Or.inr fun p hp he => hk ?_
      exact (h.fed.apart k j g f p (i, m) hg hf hp hmem he).1
  refine ⟨h.registry.send hi ok, h.fits, ?_, ?_, ?_⟩
  · refine ⟨h.linked.members, fun k n' m' ts' failed' w hk hw => ?_,
      fun k n' w m' ok' hin => ?_, h.linked.watching⟩
    · rw [hcalls] at hk
      split at hk
      · obtain ⟨rfl, -, rfl⟩ := afterSend_sending hk
        exact hentered w (List.mem_cons_of_mem _ hw)
      · exact h.linked.targets k n' m' ts' failed' w hk hw
    · rcases List.mem_cons.mp hin with he | hin
      · obtain ⟨-, rfl, rfl, -, -⟩ := Event.sent.inj he
        exact hentered _ List.mem_cons_self
      · exact h.linked.sent k n' w m' ok' hin
  · refine ⟨fun k n' m' ts' failed' hk => ?_, fun k g p hg hp => ?_, h.fed.apart, h.fed.once,
      fun k g p hg hp => ?_, fun k n' w m' ok' hin => ?_⟩
    · rw [hcalls] at hk
      split at hk
      · next he =>
        obtain ⟨rfl, rfl, -⟩ := afterSend_sending hk
        exact ⟨j, f, hf, hid, he ▸ hlast⟩
      · exact h.fed.owner k n' m' ts' failed' hk
    · rw [hcalls]
      split
      · exact afterSend_ne_idle _ _ _ _
      · exact h.fed.started k g p hg hp
    · rw [hcalls, if_neg (hsettled k g p hg hp)]
      exact h.fed.settled k g p hg hp
    · rcases List.mem_cons.mp hin with he | hin
      · obtain ⟨rfl, rfl, -, rfl, -⟩ := Event.sent.inj he
        exact ⟨j, f, hf, hid, hmem⟩
      · exact h.fed.sent k n' w m' ok' hin
  · have hwaits : ∀ w k, w ∈ waiting (((s.registry.goto i (afterSend n m ts
        (if ok then failed else failed ++ [v₀]))).note (.sent i n v₀ m ok)).calls k) →
          w ∈ waiting (s.registry.calls k) := by
      intro w k hw
      rw [hcalls] at hw
      split at hw
      · next he =>
        rw [waiting_afterSend] at hw
        rw [he, hi]
        exact List.mem_cons_of_mem _ hw
      · exact hw
    -- all that changes is what the websocket at the head has got of this line
    have hother : ∀ w p, w ≠ v₀ ∨ p.1 ≠ i → done ((s.registry.goto i (afterSend n m ts
        (if ok then failed else failed ++ [v₀]))).note (.sent i n v₀ m ok)) w p =
          done s.registry w p := by
      intro w p hp
      rw [done, done, hcalls]
      split
      · next he =>
        have hw : w ≠ v₀ := hp.resolve_right fun hne => hne he
        rw [waiting_afterSend, he, hi]
        simp [waiting, hw]
      · rfl
    have hbefore : [(i, m)].filter (done s.registry v₀) = [] := by
      simp [done, hi, waiting]
    have hafter : [(i, m)].filter (done ((s.registry.goto i (afterSend n m ts
        (if ok then failed else failed ++ [v₀]))).note (.sent i n v₀ m ok)) v₀) = [(i, m)] := by
      simp [done, hcalls, waiting_afterSend, hself]
    have hprior : ∀ ps : List (ℕ × String), ps ⊆ f.broadcasts.dropLast →
        ps.filter (done ((s.registry.goto i (afterSend n m ts (if ok then failed else
          failed ++ [v₀]))).note (.sent i n v₀ m ok)) v₀) = ps.filter (done s.registry v₀) := by
      intro ps hps
      exact List.filter_congr fun p hp => hother v₀ p (Or.inr (hsettled j f p hf (hps hp)))
    have hapart : ∀ w k g, s.feeds k = some g → w ≠ v₀ ∨ (∀ p ∈ g.broadcasts, p.1 ≠ i) →
        seen w g (.sent i n v₀ m ok :: s.registry.journal) = seen w g s.registry.journal ∧
          ∀ ps ⊆ g.broadcasts, ps.filter (done ((s.registry.goto i (afterSend n m ts
            (if ok then failed else failed ++ [v₀]))).note (.sent i n v₀ m ok)) w) =
              ps.filter (done s.registry w) := by
      intro w k g hg hne
      constructor
      · rw [seen_sent, if_neg, List.append_nil]
        rintro ⟨-, hv, hin⟩
        exact hne.elim (fun hw => hw hv.symm) fun hg => hg _ hin rfl
      · intro ps hps
        exact List.filter_congr fun p hp => hother w p (hne.imp_right fun hg => hg p (hps hp))
    have hwhich : ∀ w k g, s.feeds k = some g →
        w = v₀ ∧ k = j ∧ g = f ∨ (w ≠ v₀ ∨ ∀ p ∈ g.broadcasts, p.1 ≠ i) := by
      intro w k g hg
      by_cases hw : w = v₀
      · rcases hcases k g hg with hsame | hne
        · exact Or.inl ⟨hw, hsame⟩
        · exact Or.inr (Or.inr hne)
      · exact Or.inr (Or.inl hw)
    refine ⟨fun w k g hg => ?_, h.streamed.counted, fun w v since k g i' m' hv hs hg hl hw => ?_,
      fun w v p since hv hwatching hp hs hnot k g hg hserver => ?_⟩
    · show (seen w g (.sent i n v₀ m ok :: s.registry.journal)).Sublist _
      rcases hwhich w k g hg with ⟨rfl, rfl, rfl⟩ | hne
      · have hold := h.streamed.order w k g hg
        rw [← hwhole, List.filter_append, hbefore, List.append_nil] at hold
        rw [seen_sent]
        conv_rhs => rw [← hwhole, List.filter_append, hafter, hprior _ (List.Subset.refl _)]
        refine hold.append ?_
        split
        · exact List.Sublist.refl _
        · exact List.nil_sublist _
      · obtain ⟨hsame, hfilter⟩ := hapart w k g hg hne
        rw [hsame, hfilter _ (List.Subset.refl _)]
        exact h.streamed.order w k g hg
    · exact h.streamed.reached w v since k g i' m' hv hs hg hl (hwaits w i' hw)
    · show seen w g (.sent i n v₀ m ok :: s.registry.journal) = _
      have hnot' : ¬ Failed s.registry.journal p.2.id w := fun hf => hnot (hf.cons _)
      have hold := h.streamed.gapless w v p since hv hwatching hp hs hnot' k g hg hserver
      rcases hwhich w k g hg with ⟨rfl, rfl, rfl⟩ | hne
      · have hok : ok = true := by
          cases ok with
          | true => rfl
          | false =>
            refine absurd ⟨i, m, ?_⟩ hnot
            rw [← hserver, hid]
            exact List.mem_cons_self
        have hlt : since k < g.broadcasts.length :=
          h.streamed.reached w v since k g i m hv hs hg hlast (by rw [hi]; exact List.mem_cons_self)
        have hle : since k ≤ g.broadcasts.dropLast.length := by
          rw [List.length_dropLast]
          omega
        rw [seen_sent, if_pos ⟨hok, rfl, hmem⟩, hold]
        rw [← hwhole, List.drop_append_of_le_length hle, List.filter_append, hbefore,
          List.append_nil, List.filter_append, hafter, hprior _ (List.drop_subset _ _)]
      · obtain ⟨hsame, hfilter⟩ := hapart w k g hg hne
        rw [hsame, hfilter _ (List.drop_subset _ _)]
        exact hold

/-! ### Every step -/

variable {s' : State} {w : ℕ} {v : Viewer}

theorem Fits.quiet (h : Fits jwt v) {phase : Phase}
    (hp : phase = .leaving ∨ ∃ code, phase = .closed code) : Fits jwt { v with phase } := by
  refine ⟨fun u hu => ?_, h.admitted, fun hwatching => ?_, fun hearly => ?_, h.entered⟩
  · have hu' : phase = .authenticated u := hu
    rcases hp with rfl | ⟨code, rfl⟩ <;> cases hu'
  · have hw' : phase = .watching := hwatching
    rcases hp with rfl | ⟨code, rfl⟩ <;> cases hw'
  · have hearly' : phase = .connecting ∨ (∃ u, phase = .authenticated u) ∨ phase = .accepted :=
      hearly
    rcases hp with rfl | ⟨code, rfl⟩ <;> simp at hearly'

theorem Inv.quiet (h : Inv jwt s) (hv : s.viewers w = some v) {phase : Phase}
    (hp : phase = .leaving ∨ ∃ code, phase = .closed code) :
    Inv jwt (s.put w { v with phase }) := by
  refine h.put ((h.fits w v hv).quiet hp) (fun old hold _ => ?_) (fun _ => ⟨v, hv, rfl⟩) ?_
  · obtain rfl := Option.some.inj (hv.symm.trans hold)
    exact ⟨rfl, rfl⟩
  · show phase ≠ .watching
    rcases hp with rfl | ⟨code, rfl⟩ <;> simp

theorem Inv.advance (h : Inv jwt s) (hv : s.viewers w = some v) (hsince : v.since = none)
    {phase : Phase} {admitted : Option (User × Server)}
    (hfits : Fits jwt { v with phase, admitted }) (hphase : phase ≠ .watching) :
    Inv jwt (s.put w { v with phase, admitted }) := by
  refine h.put hfits (fun old hold hne => ?_) (fun _ => ⟨v, hv, rfl⟩) hphase
  obtain rfl := Option.some.inj (hv.symm.trans hold)
  exact absurd hsince hne

theorem Inv.turn (h : Inv jwt s) (hv : s.viewers w = some v) {l : Label}
    (ht : turn jwt s w v l = some s') : Inv jwt s' := by
  have hfits := h.fits w v hv
  cases l with
  | authenticate u =>
    simp only [ViewerLines.turn] at ht
    split at ht
    · next hphase =>
      have hsince := hfits.early (Or.inl hphase)
      split at ht
      · obtain rfl := Option.some.inj ht
        exact h.quiet hv (Or.inr ⟨_, rfl⟩)
      · obtain rfl := Option.some.inj ht
        exact h.quiet hv (Or.inr ⟨_, rfl⟩)
      · next user huser =>
        obtain rfl := Option.some.inj ht
        have htoken := (authenticateWsUser_ok jwt huser).2
        refine h.advance hv hsince ⟨fun u hu => ?_, hfits.admitted, by simp, fun _ => hsince,
          hfits.entered⟩ (by simp)
        obtain rfl := Phase.authenticated.inj hu
        exact htoken
    · cases ht
  | own u =>
    simp only [ViewerLines.turn] at ht
    split at ht
    · next user hphase =>
      have hsince := hfits.early (Or.inr (Or.inl ⟨user, hphase⟩))
      split at ht
      · obtain rfl := Option.some.inj ht
        exact h.quiet hv (Or.inr ⟨_, rfl⟩)
      · next server hserver =>
        obtain rfl := Option.some.inj ht
        have hfound := List.find?_some hserver
        simp only [Bool.and_eq_true, decide_eq_true_eq] at hfound
        refine h.advance hv hsince ⟨by simp, fun p hp => ?_, by simp, fun _ => hsince, by simp⟩
          (by simp)
        obtain rfl := Option.some.inj hp
        exact ⟨hfits.authenticated user hphase, hfound⟩
    · cases ht
  | watch u =>
    simp only [ViewerLines.turn] at ht
    split at ht
    · next user server hphase hadmitted =>
      obtain rfl := Option.some.inj ht
      exact h.watch hv hphase hadmitted
    · cases ht
  | disconnect u =>
    simp only [ViewerLines.turn] at ht
    split at ht
    · obtain rfl := Option.some.inj ht
      exact h.quiet hv (Or.inl rfl)
    · cases ht
  | finish u =>
    simp only [ViewerLines.turn] at ht
    split at ht
    · next user server hphase hadmitted =>
      obtain rfl := Option.some.inj ht
      refine (h.quiet hv (Or.inr ⟨none, rfl⟩)).finish fun v' hv' => ?_
      rw [put_viewers, if_pos rfl] at hv'
      obtain rfl := Option.some.inj hv'
      simp
    · cases ht
  | _ => cases ht

theorem Inv.step {l : Label} (h : Inv jwt s) (hs : step jwt s l = some s') : Inv jwt s' := by
  have hturn : ∀ u, l.viewer = some u → ViewerLines.step jwt s l = (l.viewer.bind fun w =>
      (s.viewers w).bind fun v => ViewerLines.turn jwt s w v l) → Inv jwt s' := by
    intro u hu heq
    rw [heq, hu, Option.bind_some] at hs
    obtain ⟨v, hv, ht⟩ := Option.bind_eq_some_iff.mp hs
    exact h.turn hv ht
  cases l with
  | write users servers =>
    obtain rfl := Option.some.inj hs
    exact ⟨h.registry, h.fits, ⟨h.linked.members, h.linked.targets, h.linked.sent,
      h.linked.watching⟩, ⟨h.fed.owner, h.fed.started, h.fed.apart, h.fed.once, h.fed.settled,
      h.fed.sent⟩, ⟨h.streamed.order, h.streamed.counted, h.streamed.reached, h.streamed.gapless⟩⟩
  | connect u serverId token =>
    simp only [ViewerLines.step] at hs
    split at hs
    · next hnone =>
      obtain rfl := Option.some.inj hs
      have hnone := Option.isNone_iff_eq_none.mp hnone
      refine h.put ⟨by simp, by simp, by simp, by simp, by simp⟩ (fun old hold => ?_) (by simp)
        (by simp)
      rw [hnone] at hold
      cases hold
    · cases hs
  | agent j serverId =>
    simp only [ViewerLines.step] at hs
    split at hs
    · next hnone =>
      obtain rfl := Option.some.inj hs
      exact h.agent (Option.isNone_iff_eq_none.mp hnone) serverId
    · cases hs
  | line j i text targets =>
    simp only [ViewerLines.step] at hs
    obtain ⟨f, hf, hs⟩ := Option.bind_eq_some_iff.mp hs
    split at hs
    · next hready =>
      obtain ⟨registry, hregistry, rfl⟩ := Option.map_eq_some_iff.mp hs
      simp only [LogSubscribers.step] at hregistry
      split at hregistry
      · next hi =>
        split at hregistry
        · next hok =>
          obtain rfl := Option.some.inj hregistry
          exact h.line hf hready hi hok.1 hok.2
        · cases hregistry
      · cases hregistry
    · cases hs
  | send i ok =>
    simp only [ViewerLines.step] at hs
    obtain ⟨registry, hregistry, rfl⟩ := Option.map_eq_some_iff.mp hs
    simp only [LogSubscribers.step] at hregistry
    split at hregistry
    · next hi =>
      obtain rfl := Option.some.inj hregistry
      exact h.send hi ok
    · cases hregistry
  | clean i =>
    simp only [ViewerLines.step] at hs
    obtain ⟨registry, hregistry, rfl⟩ := Option.map_eq_some_iff.mp hs
    simp only [LogSubscribers.step] at hregistry
    split at hregistry
    · next hi =>
      obtain rfl := Option.some.inj hregistry
      exact h.clean hi
    · cases hregistry
  | authenticate u => exact hturn u rfl rfl
  | own u => exact hturn u rfl rfl
  | watch u => exact hturn u rfl rfl
  | disconnect u => exact hturn u rfl rfl
  | finish u => exact hturn u rfl rfl

/-! ### What has been shown -/

/- Where all but the last of a list pass a filter. -/
theorem filter_settled {α : Type*} {p : α → Bool} {l : List α} (h : ∀ a ∈ l.dropLast, p a = true) :
    l.dropLast <+: l.filter p ∧ l.filter p <+: l := by
  cases hl : l.getLast? with
  | none =>
    rw [List.getLast?_eq_none_iff.mp hl]
    simp
  | some a =>
    have hwhole := List.dropLast_append_getLast? a hl
    have hsplit : l.filter p = l.dropLast ++ [a].filter p := by
      conv_lhs => rw [← hwhole, List.filter_append, List.filter_eq_self.mpr h]
    constructor
    · rw [hsplit]
      exact List.prefix_append _ _
    · rw [hsplit]
      conv_rhs => rw [← hwhole]
      refine (List.prefix_append_right_inj _).mpr ?_
      cases hp : p a <;> simp [hp]

theorem Inv.shown (h : Inv jwt s) (hv : s.viewers w = some v) : Shown jwt s w v := by
  have hfits := h.fits w v hv
  have hentered : ∀ {n}, Entered s w n → ∃ p, v.admitted = some p ∧ p.2.id = n := by
    rintro n ⟨v', p, hv', -, hadmitted, hid⟩
    obtain rfl := Option.some.inj (hv.symm.trans hv')
    exact ⟨p, hadmitted, hid⟩
  constructor
  · intro hne
    obtain ⟨q, hq⟩ := List.exists_mem_of_ne_nil _ hne
    obtain ⟨n, hin⟩ := mem_inbox hq
    obtain ⟨⟨u, r⟩, hadmitted, -⟩ := hentered (h.linked.sent _ n w _ true hin)
    exact ⟨u, r, hadmitted, hfits.admitted _ hadmitted⟩
  · intro q hq
    obtain ⟨n, hin⟩ := mem_inbox hq
    obtain ⟨p, hadmitted, rfl⟩ := hentered (h.linked.sent _ n w _ true hin)
    obtain ⟨j, f, hf, hid, hmem⟩ := h.fed.sent _ _ w _ true hin
    refine ⟨j, f, hf, ?_, hmem⟩
    rw [hid]
    exact (hfits.admitted p hadmitted).2.1
  · intro j f hf
    exact ⟨(h.streamed.order w j f hf).trans List.filter_sublist, h.fed.once j f hf⟩
  · intro hwatching hnot
    have hne := hfits.watching hwatching
    obtain ⟨since, hsince⟩ := Option.ne_none_iff_exists'.mp hne
    obtain ⟨p, hadmitted⟩ := Option.ne_none_iff_exists'.mp (hfits.entered hne)
    refine ⟨since, hsince, fun j f hf hserver => ?_⟩
    have hid : f.serverId = p.2.id := by
      have hown := (hfits.admitted p hadmitted).2.1
      omega
    rw [h.streamed.gapless w v p since hv hwatching hadmitted hsince (hnot _) j f hf hid]
    refine filter_settled fun q hq => ?_
    rw [List.dropLast_drop_eq_drop_dropLast] at hq
    have hreturned := h.fed.settled j f q hf (List.mem_of_mem_drop hq)
    rw [done, hreturned]
    simp [waiting]

/- In every interleaving of the viewers' calls, the agents' connections, the turns of
their broadcasts and the writes on the database, whichever sends fail. -/
theorem lines_shown (hr : Reachable (step jwt) init s) (hv : s.viewers w = some v) :
    Shown jwt s w v :=
  (reachable_invariant (Inv jwt) (fun _ _ _ h hs => h.step hs) inv_init hr).shown hv

end

/- A viewer comes between the first and the second of three lines, and waits for the last. -/
def between : List Label :=
  [.write [⟨1, "a@x.test", "hash", none, true, none, false⟩]
      [⟨7, "web", "hash", 1, none, true, none, false⟩],
    .agent 0 7, .line 0 0 "one" [], .connect 5 7 (some "1"), .authenticate 5, .own 5, .watch 5,
    .line 0 1 "two" [5], .send 1 true, .line 0 2 "three" [5]]

theorem two_shown_to_viewer : ∃ s v, Reachable (step plainJwt) init s ∧ s.viewers 5 = some v ∧
    inbox 5 s.registry.journal = [(1, "two")] ∧ Shown plainJwt s 5 v := by
  have hrun : ((run (step plainJwt) init between).bind fun s => (s.viewers 5).map fun _ =>
      inbox 5 s.registry.journal) = some [(1, "two")] := by decide
  obtain ⟨s, hs, hinbox⟩ := Option.bind_eq_some_iff.mp hrun
  obtain ⟨v, hv, hinbox⟩ := Option.map_eq_some_iff.mp hinbox
  have hr : Reachable (step plainJwt) init s := ⟨between, hs⟩
  exact ⟨s, v, hr, hv, hinbox, lines_shown hr hv⟩

end PulseWatch.ViewerLines
