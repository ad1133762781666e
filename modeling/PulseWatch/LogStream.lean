import Mathlib.Data.List.Flatten
import Mathlib.Data.List.ModifyLast
import Mathlib.Data.List.Nodup
import Mathlib.Data.List.Perm.Subperm
import Mathlib.Algebra.Order.Field.Rat
import Mathlib.Tactic.Linarith
import PulseWatch.Lib.Feed
import PulseWatch.LogClock

/-!
# The log stream, from the journal to the table (`agent/logs_streamer.py`)

The agent follows the journal and sends each line over a websocket; every connection
has a handler of its own at the server, and an old handler may be at work on its last
lines while the next connection is open. A step is one task's, from one `await` to the
next, or one of the network's or the system's around them. A connection that breaks
takes the lines on its wire along, and the next `journalctl -f -n 0` begins at the end
of the journal.
-/

namespace PulseWatch.LogStream
open Runs AsyncLock LogChannel LogClock

/- The await at which `LogsStreamer.run` stands: `connect`, the start of `journalctl`,
`readline`, `ws.send(line)`, the end of `async with`, the pause. -/
inductive Agent where
  | connecting
  | spawning
  | following
  | sending
  | closing
  | waiting
  | ended
  deriving DecidableEq, Repr

/- The text frames that `receive_text` has not returned yet, and the handler. `start`
records where the connection's journalctl began. -/
structure Link where
  channel : Channel
  wire : List String := []
  start : Option ℕ := none
  deriving DecidableEq, Repr

/- `cursor` is the place of journalctl's next line in the journal. The connections
stand in the order they were accepted. `pauses` records the timeouts since the last
one; the code keeps only `backoff`. -/
structure State where
  journal : List String := []
  stopping : Bool := false
  agent : Agent := .connecting
  cursor : ℕ := 0
  backoff : ℚ := 1
  pauses : List ℚ := []
  links : List Link := []
  deriving DecidableEq, Repr

/- `connectFailed` may leave a connection that the server has accepted. `read` finds
the websocket open or not. `raised` is an error of the awaited call, or the end of
journalctl. `killed` is the end of the process or the cancellation of its task. -/
inductive Label where
  | log (line : String)
  | stop
  | connected
  | connectFailed (accepted : Bool)
  | followed
  | read (isOpen : Bool)
  | sent
  | raised
  | closed
  | woke
  | killed
  | started
  | server (k : ℕ) (l : LogChannel.Label)
  deriving DecidableEq, Repr

/-! ### The server's end -/

/- The frames left when the handler has done its turn. -/
def Link.rest (link : Link) : LogChannel.Label → Option (List String)
  | .receive line => match link.wire with
    | first :: rest => if first = line then some rest else none
    | [] => none
  | _ => some link.wire

def Link.turn (link : Link) (l : LogChannel.Label) : Option Link :=
  (link.rest l).bind fun wire =>
    (LogChannel.step link.channel l).map fun c => { link with channel := c, wire }

/-! ### The agent -/

def Link.write (line : String) (link : Link) : Link := { link with wire := link.wire ++ [line] }

/- After the `try`: the end, or `wait_for(stop_event.wait(), timeout=backoff)`. -/
def State.pause (s : State) : State :=
  if s.stopping then { s with agent := .ended }
  else { s with agent := .waiting, pauses := s.pauses ++ [s.backoff] }

def step (serverId : ℕ) (maxBackoff : ℚ) (s : State) : Label → Option State
  | .log line => some { s with journal := s.journal ++ [line] }
  | .stop => some { s with stopping := true }
  | .connected => match s.agent with
    | .connecting => some { s with
        agent := .spawning, backoff := 1, pauses := []
        links := s.links ++ [{ channel := opened serverId }] }
    | _ => none
  | .connectFailed accepted => match s.agent with
    | .connecting => some (State.pause { s with
        links := s.links ++ if accepted then [{ channel := opened serverId }] else [] })
    | _ => none
  | .followed => match s.agent with
    | .spawning => some { s with
        agent := .following, cursor := s.journal.length
        links := s.links.modifyLast fun link => { link with start := some s.journal.length } }
    | _ => none
  | .read isOpen => match s.agent, s.journal[s.cursor]? with
    | .following, some line =>
      if s.stopping ∨ ¬ isOpen then some { s with agent := .closing, cursor := s.cursor + 1 }
      -- the frame is written before the first await of `send`
      else some { s with
        agent := .sending, cursor := s.cursor + 1
        links := s.links.modifyLast (Link.write line) }
    | _, _ => none
  | .sent => match s.agent with
    | .sending => some { s with agent := .following }
    | _ => none
  | .raised => match s.agent with
    | .spawning | .following | .sending => some { s with agent := .closing }
    | _ => none
  | .closed => match s.agent with
    | .closing => some s.pause
    | _ => none
  | .woke => match s.agent with
    | .waiting => some { s with
        agent := if s.stopping then .ended else .connecting
        backoff := min (s.backoff * 2) maxBackoff }
    | _ => none
  | .killed => some { s with agent := .ended }
  | .started => match s.agent with
    | .ended => some { s with agent := .connecting, stopping := false, backoff := 1, pauses := [] }
    | _ => none
  | .server k l => (s.links[k]?).bind fun link =>
    (link.turn l).map fun link => { s with links := s.links.set k link }

/- An agent process over a journal that has `journal` in it. -/
def booted (journal : List String) : State := { journal }

/-- The rows of the connections, in the order of the connections. -/
def State.stored (s : State) : List String :=
  s.links.flatMap fun link => link.channel.logs.map LogEntry.message

/-- The inversion of `step`. -/
inductive Next (serverId : ℕ) (maxBackoff : ℚ) (s : State) : Label → State → Prop where
  | log (line : String) :
      Next serverId maxBackoff s (.log line) { s with journal := s.journal ++ [line] }
  | stop : Next serverId maxBackoff s .stop { s with stopping := true }
  | connected (ha : s.agent = .connecting) : Next serverId maxBackoff s .connected { s with
      agent := .spawning, backoff := 1, pauses := []
      links := s.links ++ [{ channel := opened serverId }] }
  | connectFailed (accepted : Bool) (ha : s.agent = .connecting) :
      Next serverId maxBackoff s (.connectFailed accepted) (State.pause { s with
        links := s.links ++ if accepted then [{ channel := opened serverId }] else [] })
  | followed (ha : s.agent = .spawning) : Next serverId maxBackoff s .followed { s with
      agent := .following, cursor := s.journal.length
      links := s.links.modifyLast fun link => { link with start := some s.journal.length } }
  | dropped (isOpen : Bool) (line : String) (ha : s.agent = .following)
      (hline : s.journal[s.cursor]? = some line) :
      Next serverId maxBackoff s (.read isOpen) { s with
        agent := .closing, cursor := s.cursor + 1 }
  | written (isOpen : Bool) (line : String) (ha : s.agent = .following)
      (hline : s.journal[s.cursor]? = some line) :
      Next serverId maxBackoff s (.read isOpen) { s with
        agent := .sending, cursor := s.cursor + 1
        links := s.links.modifyLast (Link.write line) }
  | sent (ha : s.agent = .sending) :
      Next serverId maxBackoff s .sent { s with agent := .following }
  | raised (ha : s.agent = .spawning ∨ s.agent = .following ∨ s.agent = .sending) :
      Next serverId maxBackoff s .raised { s with agent := .closing }
  | closed (ha : s.agent = .closing) : Next serverId maxBackoff s .closed s.pause
  | woke (ha : s.agent = .waiting) : Next serverId maxBackoff s .woke { s with
      agent := if s.stopping then .ended else .connecting
      backoff := min (s.backoff * 2) maxBackoff }
  | killed : Next serverId maxBackoff s .killed { s with agent := .ended }
  | started (ha : s.agent = .ended) : Next serverId maxBackoff s .started { s with
      agent := .connecting, stopping := false, backoff := 1, pauses := [] }
  | server (k : ℕ) (l : LogChannel.Label) (link link' : Link) (hk : s.links[k]? = some link)
      (hturn : link.turn l = some link') :
      Next serverId maxBackoff s (.server k l) { s with links := s.links.set k link' }

theorem step_next {serverId : ℕ} {maxBackoff : ℚ} {s t : State} {l : Label}
    (h : step serverId maxBackoff s l = some t) : Next serverId maxBackoff s l t := by
  cases l with
  | log line => exact Option.some.inj h ▸ .log line
  | stop => exact Option.some.inj h ▸ .stop
  | killed => exact Option.some.inj h ▸ .killed
  | connected =>
    simp only [step] at h
    split at h
    · next ha => exact Option.some.inj h ▸ .connected ha
    · cases h
  | connectFailed accepted =>
    simp only [step] at h
    split at h
    · next ha => exact Option.some.inj h ▸ .connectFailed accepted ha
    · cases h
  | followed =>
    simp only [step] at h
    split at h
    · next ha => exact Option.some.inj h ▸ .followed ha
    · cases h
  | read isOpen =>
    simp only [step] at h
    split at h
    · next line ha hline =>
      split at h
      · exact Option.some.inj h ▸ .dropped isOpen line ha hline
      · exact Option.some.inj h ▸ .written isOpen line ha hline
    · cases h
  | sent =>
    simp only [step] at h
    split at h
    · next ha => exact Option.some.inj h ▸ .sent ha
    · cases h
  | raised =>
    simp only [step] at h
    split at h
    · next ha => exact Option.some.inj h ▸ .raised (.inl ha)
    · next ha => exact Option.some.inj h ▸ .raised (.inr (.inl ha))
    · next ha => exact Option.some.inj h ▸ .raised (.inr (.inr ha))
    · cases h
  | closed =>
    simp only [step] at h
    split at h
    · next ha => exact Option.some.inj h ▸ .closed ha
    · cases h
  | woke =>
    simp only [step] at h
    split at h
    · next ha => exact Option.some.inj h ▸ .woke ha
    · cases h
  | started =>
    simp only [step] at h
    split at h
    · next ha => exact Option.some.inj h ▸ .started ha
    · cases h
  | server k m =>
    obtain ⟨link, hk, h⟩ := Option.bind_eq_some_iff.mp h
    obtain ⟨link', hturn, rfl⟩ := Option.map_eq_some_iff.mp h
    exact .server k m link link' hk hturn

/-! ### One connection -/

/-- What the agent has written on a connection, received or on the wire. -/
def Link.carried (link : Link) : List String :=
  link.channel.received.map LogEntry.message ++ link.wire

/- The rows keep the order of the lines. -/
structure Orderly (c : Channel) : Prop where
  lock : Consistent c.lock
  order : (pipeline c).Sublist c.received
  numbered : c.received.map LogEntry.seq = List.range c.received.length

theorem Orderly.opened (serverId : ℕ) : Orderly (opened serverId) :=
  ⟨lock_opened serverId, List.Sublist.refl _, rfl⟩

theorem received_flow {c c' : Channel} {l : LogChannel.Label} (h : Flow c c' l) :
    ((∀ line, l ≠ .receive line) ∧ c'.received = c.received) ∨
      ∃ line, l = .receive line ∧
        c'.received = c.received ++ [⟨c.received.length, c.serverId, line⟩] := by
  cases h with
  | still quiet logs same buffer received => exact Or.inl ⟨quiet, received⟩
  | read logs same buffer received => exact Or.inr ⟨_, rfl, received⟩
  | dropped logs same buffer received => exact Or.inr ⟨_, rfl, received⟩
  | taken quiet unlocked free logs all buffer received => exact Or.inl ⟨quiet, received⟩
  | settled applied quiet ends logs none buffer received => exact Or.inl ⟨quiet, received⟩

theorem Orderly.turn {c c' : Channel} {l : LogChannel.Label} (hi : Orderly c)
    (h : Turn c l c') : Orderly c' := by
  have hflow := turn_flow hi.lock h
  refine ⟨hi.lock.move h.lock, ?_, ?_⟩
  · rcases received_flow hflow with ⟨hquiet, hsame⟩ | ⟨line, rfl, hmore⟩
    · rw [hsame]
      rcases hflow.pipeline with hsub | ⟨line, hl, -⟩
      · exact hsub.trans hi.order
      · exact absurd hl (hquiet line)
    · rw [hmore]
      rcases hflow.pipeline with hsub | ⟨line', hl, hpipe⟩
      · exact (hsub.trans hi.order).trans (List.sublist_append_left _ _)
      · obtain rfl : line = line' := by cases hl; rfl
        rw [hpipe]
        exact hi.order.append_right _
  · rcases received_flow hflow with ⟨-, hsame⟩ | ⟨line, -, hmore⟩
    · rw [hsame]
      exact hi.numbered
    · rw [hmore, List.map_append, hi.numbered, List.length_append, List.length_singleton,
        List.range_succ]
      rfl

theorem Orderly.logs {c : Channel} (hi : Orderly c) : c.logs.Sublist c.received :=
  (List.sublist_append_left _ _).trans hi.order

/- Rows for all that was received, in its order. -/
theorem Orderly.logs_eq {c : Channel} (hi : Orderly c)
    (hall : ∀ e ∈ c.received, c.logs.count e = 1) : c.logs = c.received := by
  have hnodup : c.received.Nodup := by
    apply List.Nodup.of_map LogEntry.seq
    rw [hi.numbered]
    exact List.nodup_range
  have hsubset : c.received ⊆ c.logs := by
    intro e he
    have hone := hall e he
    exact List.count_pos_iff.mp (by omega)
  exact hi.logs.eq_of_length_le (List.subperm_of_subset hnodup hsubset).length_le

/- A turn of the server takes frames from the wire and loses none. -/
theorem Link.turn_spec {link link' : Link} {l : LogChannel.Label}
    (hc : Consistent link.channel.lock) (h : link.turn l = some link') :
    Turn link.channel l link'.channel ∧ link'.carried = link.carried ∧
      link'.start = link.start := by
  obtain ⟨wire, hwire, h⟩ := Option.bind_eq_some_iff.mp h
  obtain ⟨c, hstep, rfl⟩ := Option.map_eq_some_iff.mp h
  have hturn := step_turn hstep
  refine ⟨hturn, ?_, rfl⟩
  unfold Link.carried
  rcases received_flow (turn_flow hc hturn) with ⟨hquiet, hsame⟩ | ⟨line, rfl, hmore⟩
  · have hw : link.wire = wire := by
      cases l with
      | receive line => exact absurd rfl (hquiet line)
      | _ => exact Option.some.inj hwire
    rw [hsame, hw]
  · cases hw : link.wire with
    | nil => simp [Link.rest, hw] at hwire
    | cons first rest =>
      simp only [Link.rest, hw, Option.ite_none_right_eq_some, Option.some.injEq] at hwire
      obtain ⟨rfl, rfl⟩ := hwire
      rw [hmore, List.map_append, List.append_assoc]
      rfl

/-! ### The stream as a feed -/

def Link.piece (link : Link) : Feeds.Piece String := ⟨link.start, link.carried⟩

def Agent.phase : Agent → Feeds.Phase
  | .spawning => .fresh
  | .following => .attached
  | .sending => .attached
  | _ => .idle

def State.feed (s : State) : Feeds.Feed String :=
  ⟨s.journal, s.cursor, s.agent.phase, s.links.map Link.piece⟩

theorem map_modifyLast {α β : Type*} {f : α → α} {g : α → β} {e : β → β} (xs : List α)
    (h : ∀ x, g (f x) = e (g x)) : (xs.modifyLast f).map g = (xs.map g).modifyLast e := by
  rcases List.eq_nil_or_concat xs with rfl | ⟨old, x, rfl⟩
  · rfl
  · rw [List.concat_eq_append, List.modifyLast_concat, List.map_append, List.map_append]
    simp only [List.map_cons, List.map_nil, List.modifyLast_concat, h]

theorem getElem?_modifyLast {α : Type*} {f : α → α} {xs : List α} {k : ℕ} {x : α}
    (h : (xs.modifyLast f)[k]? = some x) : ∃ y, xs[k]? = some y ∧ (x = y ∨ x = f y) := by
  rcases List.eq_nil_or_concat xs with rfl | ⟨old, y, rfl⟩
  · cases h
  · rw [List.concat_eq_append] at h ⊢
    rw [List.modifyLast_concat] at h
    by_cases hk : k < old.length
    · rw [List.getElem?_append_left hk] at h ⊢
      exact ⟨x, h, Or.inl rfl⟩
    · rw [List.getElem?_append_right (by omega)] at h ⊢
      obtain ⟨hzero, hx⟩ := List.getElem?_eq_some_iff.mp h
      simp only [List.length_singleton, Nat.lt_one_iff] at hzero
      simp only [hzero, List.getElem_cons_zero] at hx
      exact ⟨y, by rw [hzero]; rfl, Or.inr hx.symm⟩

theorem feed_pause (s : State) : s.pause.feed = { s.feed with phase := .idle } := by
  unfold State.pause
  split <;> rfl

theorem feed_opened (s : State) (serverId : ℕ) (agent : Agent) (backoff : ℚ) (pauses : List ℚ) :
    State.feed { s with
      agent, backoff, pauses, links := s.links ++ [{ channel := opened serverId }] } =
    { s.feed with phase := agent.phase, pieces := s.feed.pieces ++ [.blank] } := by
  simp only [State.feed, List.map_append]
  rfl

section
variable {serverId : ℕ} {maxBackoff : ℚ} {s t : State} {l : Label}

/-- The agent and the network do what a follower of the journal does; the server's
turns, the signals and a finished send are no part of it. -/
theorem step_feed (hi : ∀ link ∈ s.links, Orderly link.channel)
    (h : Next serverId maxBackoff s l t) :
    t.feed = s.feed ∨ ∃ o, Feeds.step s.feed o = some t.feed := by
  cases h with
  | log line => exact Or.inr ⟨.append line, rfl⟩
  | stop => exact Or.inl rfl
  | connected ha =>
    exact Or.inr ⟨.carrier true, congrArg some (feed_opened s serverId .spawning 1 []).symm⟩
  | connectFailed accepted ha =>
    rw [feed_pause]
    cases accepted with
    | true =>
      refine Or.inr ⟨.carrier false, ?_⟩
      exact congrArg some (feed_opened s serverId .ended s.backoff s.pauses).symm
    | false =>
      refine Or.inr ⟨.leave, ?_⟩
      simp [Feeds.step, State.feed]
  | followed ha =>
    refine Or.inr ⟨.seek, ?_⟩
    have hmap := map_modifyLast (g := Link.piece)
      (f := fun link => { link with start := some s.journal.length })
      (e := fun p => { p with start := some s.journal.length }) s.links fun _ => rfl
    simp only [Feeds.step, State.feed, ha, Agent.phase, hmap]
  | dropped isOpen line ha hline =>
    exact Or.inr ⟨.skip, by simp only [Feeds.step, State.feed, ha, Agent.phase, hline]⟩
  | written isOpen line ha hline =>
    refine Or.inr ⟨.pass, ?_⟩
    have hmap := map_modifyLast (g := Link.piece) (f := Link.write line)
      (e := fun p => { p with items := p.items ++ [line] }) s.links fun link => by
        simp only [Link.piece, Link.carried, Link.write, List.append_assoc]
    simp only [Feeds.step, State.feed, ha, Agent.phase, hline, hmap]
  | sent ha => exact Or.inl (by simp only [State.feed, ha, Agent.phase])
  | raised ha => exact Or.inr ⟨.leave, rfl⟩
  | closed ha => exact Or.inr ⟨.leave, congrArg some (feed_pause s).symm⟩
  | woke ha =>
    refine Or.inr ⟨.leave, congrArg some ?_⟩
    cases hs : s.stopping <;> simp [State.feed, Agent.phase]
  | killed => exact Or.inr ⟨.leave, rfl⟩
  | started ha => exact Or.inr ⟨.leave, rfl⟩
  | server k m link link' hk hturn =>
    obtain ⟨-, hcarried, hstart⟩ :=
      Link.turn_spec (hi link (List.mem_of_getElem? hk)).lock hturn
    have hpiece : link'.piece = link.piece := by
      rw [Link.piece, Link.piece, hcarried, hstart]
    have hself : s.links.set k link = s.links := by
      obtain ⟨hlt, rfl⟩ := List.getElem?_eq_some_iff.mp hk
      exact List.set_getElem_self hlt
    left
    simp only [State.feed, List.map_set, hpiece]
    rw [← List.map_set, hself]

/-! ### The handlers -/

/- A connection is new, or the old one after a turn of its handler or none. -/
def Link.From (serverId : ℕ) (s : State) (l : Label) (k : ℕ) (link : Link) : Prop :=
  link.channel = opened serverId ∨ ∃ old, s.links[k]? = some old ∧
    (link.channel = old.channel ∨
      ∃ m, l = .server k m ∧ LogChannel.step old.channel m = some link.channel)

section
variable {k : ℕ} {link : Link}

theorem Link.from_same (hk : s.links[k]? = some link) : link.From serverId s l k :=
  Or.inr ⟨link, hk, Or.inl rfl⟩

theorem Link.from_new {new : List Link} (hnew : ∀ x ∈ new, x.channel = opened serverId)
    (hk : (s.links ++ new)[k]? = some link) : link.From serverId s l k := by
  by_cases hlt : k < s.links.length
  · rw [List.getElem?_append_left hlt] at hk
    exact from_same hk
  · rw [List.getElem?_append_right (by omega)] at hk
    exact Or.inl (hnew link (List.mem_of_getElem? hk))

theorem Link.from_last {f : Link → Link} (hf : ∀ x, (f x).channel = x.channel)
    (hk : (s.links.modifyLast f)[k]? = some link) : link.From serverId s l k := by
  obtain ⟨old, hold, rfl | rfl⟩ := getElem?_modifyLast hk
  · exact from_same hold
  · exact Or.inr ⟨old, hold, Or.inl (hf old)⟩

theorem pause_links (s : State) : s.pause.links = s.links := by
  unfold State.pause
  split <;> rfl

theorem step_link (h : Next serverId maxBackoff s l t) (hk : t.links[k]? = some link) :
    link.From serverId s l k := by
  cases h with
  | connected ha =>
    refine Link.from_new (fun x hx => ?_) hk
    rw [List.mem_singleton.mp hx]
  | connectFailed accepted ha =>
    rw [pause_links] at hk
    refine Link.from_new (fun x hx => ?_) hk
    cases accepted with
    | true => rw [List.mem_singleton.mp hx]
    | false => cases hx
  | followed ha =>
    exact Link.from_last (f := fun x => { x with start := some s.journal.length })
      (fun _ => rfl) hk
  | written isOpen line ha hline =>
    exact Link.from_last (f := Link.write line) (fun _ => rfl) hk
  | closed ha =>
    rw [pause_links] at hk
    exact Link.from_same hk
  | server j m old link' hj hturn =>
    obtain ⟨wire, -, hturn⟩ := Option.bind_eq_some_iff.mp hturn
    obtain ⟨c, hc, rfl⟩ := Option.map_eq_some_iff.mp hturn
    by_cases hjk : j = k
    · subst hjk
      obtain ⟨hlt, -⟩ := List.getElem?_eq_some_iff.mp hj
      rw [List.getElem?_set_self hlt] at hk
      obtain rfl := Option.some.inj hk
      exact Or.inr ⟨old, hj, Or.inr ⟨m, rfl, hc⟩⟩
    · rw [List.getElem?_set_ne hjk] at hk
      exact Link.from_same hk
  | _ => exact Link.from_same hk

end

end

/- The turns of one handler satisfy `ok`. -/
def AtLink (k : ℕ) (ok : Channel → LogChannel.Label → Prop) (s : State) : Label → Prop
  | .server j l => j = k → ∀ link ∈ s.links[k]?, ok link.channel l
  | _ => True

/- The induction rule for one handler among all that goes on. -/
theorem channel_invariant {serverId : ℕ} {maxBackoff : ℚ} (P : Channel → Prop)
    (ok : Channel → LogChannel.Label → Prop) (h0 : P (opened serverId))
    (hturn : ∀ c l c', P c → ok c l → LogChannel.step c l = some c' → P c') {k : ℕ}
    {journal : List String} {ls : List Label} {s : State}
    (ha : Along (step serverId maxBackoff) (AtLink k ok) (booted journal) ls)
    (hr : run (step serverId maxBackoff) (booted journal) ls = some s) :
    ∀ link ∈ s.links[k]?, P link.channel := by
  refine run_invariant (fun s => ∀ link ∈ s.links[k]?, P link.channel) (AtLink k ok) ?_ ?_ ha hr
  · intro s l t hi hok h link hk
    rcases step_link (step_next h) hk with hnew | ⟨old, hold, hsame | ⟨m, rfl, hm⟩⟩
    · exact hnew ▸ h0
    · exact hsame ▸ hi old hold
    · exact hturn old.channel m link.channel (hi old hold) (hok rfl old hold) hm
  · intro link hk
    cases hk

/-! ### Every run -/

section
variable {serverId : ℕ} {maxBackoff : ℚ} {journal : List String} {ls : List Label} {s : State}

theorem orderly_step {t : State} {l : Label} (hi : ∀ link ∈ s.links, Orderly link.channel)
    (h : step serverId maxBackoff s l = some t) : ∀ link ∈ t.links, Orderly link.channel := by
  intro link hmem
  obtain ⟨k, hk⟩ := List.mem_iff_getElem?.mp hmem
  rcases step_link (step_next h) hk with hnew | ⟨old, hold, hsame | ⟨m, -, hm⟩⟩
  · exact hnew ▸ .opened serverId
  · exact hsame ▸ hi old (List.mem_of_getElem? hold)
  · exact (hi old (List.mem_of_getElem? hold)).turn (step_turn hm)

theorem links_orderly (hr : run (step serverId maxBackoff) (booted journal) ls = some s) :
    ∀ link ∈ s.links, Orderly link.channel := by
  refine reachable_invariant (fun s => ∀ link ∈ s.links, Orderly link.channel)
    (fun s l t hi h => orderly_step hi h) (fun link h => ?_) ⟨ls, hr⟩
  cases h

theorem sound_feed (hr : run (step serverId maxBackoff) (booted journal) ls = some s) :
    Feeds.Sound s.feed := by
  have hreach : Reachable Feeds.step { source := journal } s.feed := by
    refine reachable_of_simulation State.feed (fun s => ∀ link ∈ s.links, Orderly link.channel)
      (fun s l t hi h => orderly_step hi h) (fun s l t hi h => step_feed hi (step_next h))
      (fun link h => ?_) ⟨ls, hr⟩
    cases h
  exact Feeds.sound_of_reachable hreach

end

/- A line before the first connection, one on the wire of a connection that breaks, and
an old handler that flushes its line after the next connection has stored one. -/
def brokenRun : List Label :=
  [.log "a", .connected, .followed, .log "b", .read true, .sent, .log "c", .read true,
    .server 0 (.receive "b"), .raised, .closed, .woke, .connected, .followed, .log "d",
    .read true, .server 1 (.receive "d"), .server 1 .broadcasted, .server 1 .wake,
    .server 1 (.committed .periodic), .server 0 .broadcasted, .server 0 .disconnect,
    .server 0 (.cancelled false), .server 0 .joined, .server 0 (.committed .final)]

/- A finished run is checked by executing it. -/
instance decidableSafe (c : Channel) : ∀ l, Decidable (Safe c l)
  | .receive _ => inferInstanceAs (Decidable (c.expired = false))
  | .joined => inferInstanceAs (Decidable (c.periodic = .raised → c.buffer = []))
  | .cancelled true => .isTrue fun _ _ => rfl
  | .cancelled false =>
    match hp : c.periodic with
    | .flushing (.committing items) => .isFalse fun h => by cases h items hp
    | .flushing .locking => .isTrue fun _ h => by cases hp.symm.trans h
    | .flushing .rollingBack => .isTrue fun _ h => by cases hp.symm.trans h
    | .sleeping => .isTrue fun _ h => by cases hp.symm.trans h
    | .cancelled => .isTrue fun _ h => by cases hp.symm.trans h
    | .raised => .isTrue fun _ h => by cases hp.symm.trans h
  | .broadcasted => .isTrue trivial
  | .disconnect => .isTrue trivial
  | .wake => .isTrue trivial
  | .acquired _ => .isTrue trivial
  | .committed _ => .isTrue trivial
  | .commitFailed _ _ => .isTrue trivial
  | .rolledBack _ => .isTrue trivial
  | .rollbackRaised _ => .isTrue trivial

instance (k : ℕ) (s : State) : ∀ l, Decidable (AtLink k Safe s l)
  | .server j l => inferInstanceAs (Decidable (j = k → ∀ link ∈ s.links[k]?, Safe link.channel l))
  | .log _ => .isTrue trivial
  | .stop => .isTrue trivial
  | .connected => .isTrue trivial
  | .connectFailed _ => .isTrue trivial
  | .followed => .isTrue trivial
  | .read _ => .isTrue trivial
  | .sent => .isTrue trivial
  | .raised => .isTrue trivial
  | .closed => .isTrue trivial
  | .woke => .isTrue trivial
  | .killed => .isTrue trivial
  | .started => .isTrue trivial

/-- One second after a connection, then twice the last pause, up to the bound. -/
def pauseAfter (maxBackoff : ℚ) : ℕ → ℚ
  | 0 => 1
  | n + 1 => min (2 ^ (n + 1)) maxBackoff

theorem pauseAfter_succ {maxBackoff : ℚ} (h : 0 ≤ maxBackoff) (n : ℕ) :
    min (pauseAfter maxBackoff n * 2) maxBackoff = pauseAfter maxBackoff (n + 1) := by
  cases n with
  | zero => simp [pauseAfter]
  | succ n =>
    have htwice : maxBackoff ≤ maxBackoff * 2 := by linarith
    have hpow : (2 : ℚ) ^ (n + 1 + 1) = 2 ^ (n + 1) * 2 := pow_succ 2 (n + 1)
    simp only [pauseAfter, hpow, min_mul_of_nonneg _ _ (by norm_num : (0 : ℚ) ≤ 2), min_assoc,
      min_eq_right htwice]

/- `backoff` is the next pause, in a pause the current one. -/
structure Paced (maxBackoff : ℚ) (s : State) : Prop where
  past : ∀ i p, s.pauses[i]? = some p → p = pauseAfter maxBackoff i
  waiting : s.agent = .waiting → ∃ n, s.pauses.length = n + 1 ∧
    s.backoff = pauseAfter maxBackoff n
  awake : s.agent ≠ .waiting → s.agent ≠ .ended →
    s.backoff = pauseAfter maxBackoff s.pauses.length

section
variable {serverId : ℕ} {maxBackoff : ℚ} {s t : State} {l : Label}

/- Between two awaits outside the pause nothing happens to the pauses. -/
theorem Paced.goto (hi : Paced maxBackoff s) (hw : s.agent ≠ .waiting) (he : s.agent ≠ .ended)
    (hp : t.pauses = s.pauses) (hb : t.backoff = s.backoff) (ht : t.agent ≠ .waiting) :
    Paced maxBackoff t where
  past := hp ▸ hi.past
  waiting h := absurd h ht
  awake _ _ := by rw [hb, hp, hi.awake hw he]

theorem Paced.ended (hi : Paced maxBackoff s) (hp : t.pauses = s.pauses)
    (ht : t.agent = .ended) : Paced maxBackoff t where
  past := hp ▸ hi.past
  waiting h := by cases ht.symm.trans h
  awake _ h := absurd ht h

theorem Paced.pause (hi : Paced maxBackoff s) (hw : s.agent ≠ .waiting)
    (he : s.agent ≠ .ended) : Paced maxBackoff s.pause := by
  unfold State.pause
  split
  · exact hi.ended rfl rfl
  · have hb := hi.awake hw he
    refine ⟨fun i p h => ?_, fun _ => ⟨s.pauses.length, by simp, hb⟩, fun h => absurd rfl h⟩
    rcases Nat.lt_trichotomy i s.pauses.length with hlt | rfl | hgt
    · rw [List.getElem?_append_left hlt] at h
      exact hi.past i p h
    · rw [List.getElem?_concat_length] at h
      rw [← Option.some.inj h, hb]
    · rw [List.getElem?_eq_none (by simp; omega)] at h
      cases h

theorem Paced.fresh (hp : t.pauses = []) (hb : t.backoff = 1) (ht : t.agent ≠ .waiting) :
    Paced maxBackoff t where
  past i p h := by
    rw [hp] at h
    cases h
  waiting h := absurd h ht
  awake _ _ := by
    rw [hb, hp]
    rfl

theorem Paced.step (hM : 0 ≤ maxBackoff) (hi : Paced maxBackoff s)
    (h : Next serverId maxBackoff s l t) : Paced maxBackoff t := by
  cases h with
  | log line => exact ⟨hi.past, hi.waiting, hi.awake⟩
  | stop => exact ⟨hi.past, hi.waiting, hi.awake⟩
  | server k m link link' => exact ⟨hi.past, hi.waiting, hi.awake⟩
  | killed => exact hi.ended rfl rfl
  | connected ha => exact .fresh rfl rfl (by simp)
  | started ha => exact .fresh rfl rfl (by simp)
  | connectFailed accepted ha =>
    have hlinks : Paced maxBackoff { s with
        links := s.links ++ if accepted then [{ channel := opened serverId }] else [] } :=
      ⟨hi.past, hi.waiting, hi.awake⟩
    exact hlinks.pause (by simp [ha]) (by simp [ha])
  | followed ha => exact hi.goto (by simp [ha]) (by simp [ha]) rfl rfl (by simp)
  | dropped isOpen line ha => exact hi.goto (by simp [ha]) (by simp [ha]) rfl rfl (by simp)
  | written isOpen line ha => exact hi.goto (by simp [ha]) (by simp [ha]) rfl rfl (by simp)
  | sent ha => exact hi.goto (by simp [ha]) (by simp [ha]) rfl rfl (by simp)
  | raised ha =>
    have hawake : s.agent ≠ .waiting ∧ s.agent ≠ .ended := by
      rcases ha with ha | ha | ha <;> simp [ha]
    exact hi.goto hawake.1 hawake.2 rfl rfl (by simp)
  | closed ha => exact hi.pause (by simp [ha]) (by simp [ha])
  | woke ha =>
    obtain ⟨n, hn, hb⟩ := hi.waiting ha
    refine ⟨hi.past, fun hw => ?_, fun _ _ => ?_⟩
    · split at hw <;> cases hw
    · simp only [hn, hb]
      exact pauseAfter_succ hM n

/-- The pauses since the last connection, or since the agent was started: a second,
then twice as long each time, up to `max_backoff_seconds`. -/
theorem reconnect_pauses (hM : 0 ≤ maxBackoff) {journal : List String} {ls : List Label}
    (hr : run (step serverId maxBackoff) (booted journal) ls = some s) {i : ℕ} {p : ℚ}
    (hp : s.pauses[i]? = some p) : p = pauseAfter maxBackoff i := by
  have hpaced : Paced maxBackoff s :=
    reachable_invariant (Paced maxBackoff) (fun s l t hi h => hi.step hM (step_next h))
      (.fresh rfl rfl (by simp [booted])) ⟨ls, hr⟩
  exact hpaced.past i p hp

/- A connection that ends before journalctl runs, and three refusals after it. -/
def refusedRun : List Label :=
  [.connected, .raised, .closed, .woke, .connectFailed false, .woke, .connectFailed true, .woke,
    .connectFailed false]

theorem third_refusal_is_bounded :
    ∃ s, run (step 7 3) (booted []) refusedRun = some s ∧ s.pauses = [1, 2, 3, 3] ∧
      (3 : ℚ) = pauseAfter 3 3 := by
  have h : ((run (step 7 3) (booted []) refusedRun).map State.pauses) = some [1, 2, 3, 3] := by
    decide +kernel
  obtain ⟨s, hr, hs⟩ := Option.map_eq_some_iff.mp h
  exact ⟨s, hr, hs, reconnect_pauses (by norm_num) hr (i := 3) (by rw [hs]; rfl)⟩

end

end PulseWatch.LogStream
