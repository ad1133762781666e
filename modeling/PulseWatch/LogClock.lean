import PulseWatch.LogDelivery
import PulseWatch.Models

/-!
# The clock of a log connection

A connection beside a clock, with the transaction of its session and the `created_at`
of the rows. `created_at` is a server default, `now()`, and `now()` is the start of
the transaction. Authentication's SELECT opens the first one and nothing ends it
before the first flush, whose rows are stamped with a time before their lines came in.
-/

namespace PulseWatch.LogClock
open Runs AsyncLock LogChannel

/- The batch whose commit is awaited; the lock lets one flush get there. -/
def batch (c : Channel) : List LogEntry := c.handler.items ++ c.periodic.items

/- The rows of one commit. -/
structure Batch where
  createdAt : Instant
  lines : List LogEntry
  deriving DecidableEq, Repr

/- `begun` is the start of the open transaction, `sent` tells whether the batch has
been inserted in it. `times` records when each line was received. -/
structure Timed where
  channel : Channel
  now : Instant
  begun : Option Instant
  sent : Bool := false
  stored : List Batch := []
  times : List Instant := []
  deriving DecidableEq, Repr

/- Authentication's SELECT ran at `start`; the tasks start `wait` later. -/
def connected (serverId : ℕ) (start : Instant) (wait : ℕ) : Timed :=
  { channel := opened serverId, now := start + wait, begun := some start }

/- `insert` is the first thing a commit sends, INSERTs in the open transaction or in one
they open. `left` tells whether a cancelled call leaves its transaction open. -/
inductive Label where
  | tick (d : ℕ)
  | insert
  | turn (l : LogChannel.Label) (left : Bool)
  deriving DecidableEq, Repr

/- The periodic task is in the middle of a call of the session. -/
def inSession (c : Channel) : Bool :=
  match c.periodic with
  | .flushing (.committing _) => true
  | .flushing .rollingBack => true
  | _ => false

/- A commit or a rollback ends the transaction. -/
def begunAfter (s : Timed) (left : Bool) : LogChannel.Label → Option Instant
  | .committed _ => none
  | .commitFailed _ failure => if failure = .commit false then s.begun else none
  | .rolledBack _ => none
  | .rollbackRaised _ => none
  | .cancelled applied =>
    if inSession s.channel && (applied || !left) then none else s.begun
  | _ => s.begun

def sentAfter (s : Timed) : LogChannel.Label → Bool
  | .committed _ => false
  | .commitFailed _ _ => false
  | .rolledBack _ => false
  | .rollbackRaised _ => false
  | .cancelled _ => s.sent && !inSession s.channel
  | _ => s.sent

def timesAfter (s : Timed) : LogChannel.Label → List Instant
  | .receive _ => s.times ++ [s.now]
  | _ => s.times

/- The rows a turn has committed, stamped with the start of their transaction. -/
def storedBy (s : Timed) (c : Channel) : List Batch :=
  if c.logs = s.channel.logs then []
  else [⟨s.begun.getD s.now, c.logs.drop s.channel.logs.length⟩]

def step (s : Timed) : Label → Option Timed
  | .tick d => some { s with now := s.now + d }
  | .insert =>
    if batch s.channel ≠ [] ∧ s.sent = false then
      some { s with begun := some (s.begun.getD s.now), sent := true }
    else none
  | .turn l left => (LogChannel.step s.channel l).bind fun c =>
    -- the database applies a COMMIT after the INSERTs
    if c.logs = s.channel.logs ∨ s.sent = true then
      some { s with
        channel := c
        begun := begunAfter s left l
        sent := sentAfter s l
        stored := s.stored ++ storedBy s c
        times := timesAfter s l }
    else none

/- No row is stamped with a time before its line was received. -/
def Stamped (s : Timed) : Prop :=
  ∀ b ∈ s.stored, ∀ e ∈ b.lines, ∃ received, s.times[e.seq]? = some received ∧
    received ≤ b.createdAt

/- A batch is not inserted into a transaction opened before its lines were received. -/
def InOwnTransaction (s : Timed) : Label → Prop
  | .insert => s.sent = false → ∀ start ∈ s.begun, ∀ e ∈ batch s.channel,
      ∀ received ∈ s.times[e.seq]?, received ≤ start
  | _ => True

instance (s : Timed) (l : Label) : Decidable (InOwnTransaction s l) :=
  match l with
  | .insert => inferInstanceAs (Decidable (s.sent = false → _))
  | .tick _ => .isTrue trivial
  | .turn _ _ => .isTrue trivial

/-! ### What a turn does to the lines -/

section
variable {c : Channel} {k : Caller}

theorem handler_items (h : c.lock.place .size ≠ .inside) (h' : c.lock.place .final ≠ .inside) :
    c.handler.items = [] := by
  cases hm : c.handler with
  | flushing f =>
    cases f with
    | committing items => simp [Channel.lock, Channel.flushOf, hm, placeOf] at h
    | _ => rfl
  | finalFlush f =>
    cases f with
    | committing items => simp [Channel.lock, Channel.flushOf, hm, placeOf] at h'
    | _ => rfl
  | _ => rfl

theorem periodic_items (h : c.lock.place .periodic ≠ .inside) : c.periodic.items = [] := by
  cases hm : c.periodic with
  | flushing f =>
    cases f with
    | committing items => simp [Channel.lock, Channel.flushOf, hm, placeOf] at h
    | _ => rfl
  | _ => rfl

theorem batch_of_free (h : Consistent c.lock) (hfree : c.locked = false) : batch c = [] := by
  have hnobody := h.nobody hfree
  rw [batch, handler_items (hnobody .size) (hnobody .final), periodic_items (hnobody .periodic)]
  rfl

/- The call inside the lock has the batch, the others have nothing. -/
theorem batch_inside (h : Consistent c.lock) {f : Flush} (hf : c.flushOf k = some f)
    (hin : c.lock.place k = .inside) : batch c = f.items := by
  have hother : ∀ j, j ≠ k → c.lock.place j ≠ .inside := fun j hj => h.of_inside hin hj
  cases k with
  | periodic =>
    have hp : c.periodic = .flushing f := by
      cases hc : c.periodic <;> simp_all [Channel.flushOf]
    rw [batch, handler_items (hother .size (by simp)) (hother .final (by simp)), hp]
    rfl
  | size =>
    have hm : c.handler = .flushing f := by
      cases hc : c.handler <;> simp_all [Channel.flushOf]
    rw [batch, periodic_items (hother .periodic (by simp)), hm, List.append_nil]
    rfl
  | final =>
    rw [batch, periodic_items (hother .periodic (by simp)), flushOf_final hf, List.append_nil]
    rfl

/- Without it there is no batch. -/
theorem batch_outside (h : Consistent c.lock) (hin : c.lock.place k = .inside) {c₀ : Channel}
    (hm : c₀.handler = c.handler) (hp : c₀.periodic = c.periodic) :
    batch (c₀.resume k) = [] ∧ batch (c₀.suspend k .rollingBack) = [] := by
  have hother : ∀ j, j ≠ k → c.lock.place j ≠ .inside := fun j hj => h.of_inside hin hj
  cases k with
  | periodic =>
    have hnone : c₀.handler.items ++ [] = [] := by
      rw [List.append_nil, hm]
      exact handler_items (hother .size (by simp)) (hother .final (by simp))
    exact ⟨hnone, hnone⟩
  | size =>
    have hnone : [] ++ c₀.periodic.items = [] := by
      rw [List.nil_append, hp]
      exact periodic_items (hother .periodic (by simp))
    exact ⟨hnone, hnone⟩
  | final =>
    have hnone : [] ++ c₀.periodic.items = [] := by
      rw [List.nil_append, hp]
      exact periodic_items (hother .periodic (by simp))
    exact ⟨hnone, hnone⟩

theorem batch_suspend (h : c.itemsOf k = []) {f : Flush} (hf : f.items = []) :
    batch (c.suspend k f) = batch c := by
  cases k <;> simp_all [batch, Channel.suspend, Channel.itemsOf, Handler.items, Periodic.items]

theorem batch_taken (h : batch c = []) (items : List LogEntry) :
    batch (c.suspend k (.committing items)) = items := by
  obtain ⟨hhandler, hperiodic⟩ := List.append_eq_nil_iff.mp h
  cases k with
  | periodic =>
    show c.handler.items ++ items = items
    rw [hhandler, List.nil_append]
  | size =>
    show items ++ c.periodic.items = items
    rw [hperiodic, List.append_nil]
  | final =>
    show items ++ c.periodic.items = items
    rw [hperiodic, List.append_nil]

theorem batch_resume (h : c.itemsOf k = []) : batch (c.resume k) = batch c := by
  cases k <;> simp_all [batch, Channel.resume, Channel.itemsOf, Handler.items, Periodic.items]

theorem batch_escape (h : c.itemsOf k = []) : batch (c.escape k) = batch c := by
  cases k <;> simp_all [batch, Channel.escape, Channel.itemsOf, Handler.items, Periodic.items]

end

/- A turn leaves the lines where they are, reads one, takes the buffer for a batch, or
settles the batch, stored or not. -/
inductive Flow (c c' : Channel) : LogChannel.Label → Prop where
  | still {l : LogChannel.Label} (quiet : ∀ line, l ≠ .receive line)
      (logs : c'.logs = c.logs) (same : batch c' = batch c) (buffer : c'.buffer = c.buffer)
      (received : c'.received = c.received) : Flow c c' l
  | read {line : String} (logs : c'.logs = c.logs) (same : batch c' = batch c)
      (buffer : c'.buffer = c.buffer ++ [⟨c.received.length, c.serverId, line⟩])
      (received : c'.received = c.received ++ [⟨c.received.length, c.serverId, line⟩]) :
      Flow c c' (.receive line)
  | dropped {line : String} (logs : c'.logs = c.logs) (same : batch c' = batch c)
      (buffer : c'.buffer = c.buffer)
      (received : c'.received = c.received ++ [⟨c.received.length, c.serverId, line⟩]) :
      Flow c c' (.receive line)
  | taken {l : LogChannel.Label} (quiet : ∀ line, l ≠ .receive line)
      (unlocked : c.locked = false) (free : batch c = [])
      (logs : c'.logs = c.logs) (all : batch c' = c.buffer) (buffer : c'.buffer = [])
      (received : c'.received = c.received) : Flow c c' l
  | settled {l : LogChannel.Label} (applied : Bool) (quiet : ∀ line, l ≠ .receive line)
      (ends : ∀ (s : Timed) (left : Bool), s.channel = c →
        sentAfter s l = false ∧ (applied = true → begunAfter s left l = none))
      (logs : c'.logs = c.logs ++ if applied then batch c else []) (none : batch c' = [])
      (buffer : c'.buffer = c.buffer) (received : c'.received = c.received) : Flow c c' l

section
variable {c c' : Channel} {k : Caller} {l : LogChannel.Label}

/- A party may leave the queue of the lock in the same turn. -/
theorem takeBatch_flow (hc : Consistent c.lock) (hl : ∀ line, l ≠ .receive line)
    (hunlocked : c.locked = false) (h : c.itemsOf k = []) (ws : List Caller) :
    Flow c (Channel.takeBatch k { c with waiters := ws }) l := by
  have hfree := batch_of_free hc hunlocked
  have hi : Channel.itemsOf { c with waiters := ws } k = [] := by cases k <;> exact h
  unfold Channel.takeBatch
  split
  · obtain ⟨hlogs, hreceived, -⟩ := Channel.same_resume { c with waiters := ws } k
    refine .still hl hlogs (batch_resume hi) ?_ hreceived
    cases k <;> rfl
  · obtain ⟨hlogs, hreceived, -⟩ := Channel.same_suspend
      { c with waiters := ws, buffer := [], locked := true } k (.committing c.buffer)
    refine .taken hl hunlocked hfree hlogs ?_ ?_ hreceived
    · exact batch_taken (c := { c with waiters := ws, buffer := [], locked := true }) hfree c.buffer
    · cases k <;> rfl

theorem startFlush_flow (hc : Consistent c.lock) (hl : ∀ line, l ≠ .receive line)
    (h : c.itemsOf k = []) : Flow c (c.startFlush k) l := by
  unfold Channel.startFlush
  split
  · next hfree => exact takeBatch_flow hc hl hfree.1 h c.waiters
  · obtain ⟨hlogs, hreceived, -⟩ :=
      Channel.same_suspend { c with waiters := c.waiters ++ [k] } k .locking
    refine .still hl hlogs ?_ ?_ hreceived
    · refine batch_suspend (c := { c with waiters := c.waiters ++ [k] }) ?_ rfl
      cases k <;> exact h
    · cases k <;> rfl

theorem cancelled_flow {applied : Bool} (hc : Consistent c.lock) (h : Cancelled applied c c') :
    Flow c c' (.cancelled applied) := by
  have hq : ∀ line, Label.cancelled applied ≠ .receive line := by simp
  cases h with
  | asleep hp => exact .still hq rfl (by simp [batch, hp, Periodic.items]) rfl rfl
  | locking hp | rollingBack hp =>
    exact .still hq rfl (by simp [batch, hp, Periodic.items, Flush.items]) rfl rfl
  | committing items hp =>
    have hf : c.flushOf .periodic = some (.committing items) := by simp [Channel.flushOf, hp]
    have hin : c.lock.place .periodic = .inside := by simp [Channel.lock, hf, placeOf]
    have hbatch : batch c = items := batch_inside hc hf hin
    have hhandler : c.handler.items = [] :=
      handler_items (hc.of_inside hin (by simp)) (hc.of_inside hin (by simp))
    refine .settled applied hq (fun s left hs => ?_) (by rw [hbatch]) ?_ rfl rfl
    · simp +contextual [sentAfter, begunAfter, inSession, hs, hp]
    · simp [batch, hhandler, Periodic.items]

theorem turn_flow (hc : Consistent c.lock) (h : Turn c l c') : Flow c c' l := by
  cases h with
  | receive line hm => exact .read rfl (by simp [batch, hm, Handler.items]) rfl rfl
  | dropped line hm => exact .dropped rfl (by simp [batch, hm, Handler.items]) rfl rfl
  | full hm => exact startFlush_flow hc (by simp) (by simp [Channel.itemsOf, hm, Handler.items])
  | broadcasted hm =>
    exact .still (by simp) rfl (by simp [batch, hm, Handler.items]) rfl rfl
  | disconnect hm =>
    exact .still (by simp) rfl (by simp [batch, hm, Handler.items]) rfl rfl
  | wake hp => exact startFlush_flow hc (by simp) (by simp [Channel.itemsOf, hp, Periodic.items])
  | acquired k ws hf hw hfree =>
    exact takeBatch_flow hc (by simp) hfree (Channel.itemsOf_flushOf hf rfl rfl) ws
  | committed k items hf =>
    let c₀ : Channel := { c with locked := false, logs := c.logs ++ items }
    have hin : c.lock.place k = .inside := by simp [Channel.lock, hf, placeOf]
    have hbatch : batch c = items := batch_inside hc hf hin
    obtain ⟨hlogs, hreceived, -⟩ := c₀.same_resume k
    refine .settled true (by simp) (fun s left _ => ⟨rfl, fun _ => rfl⟩) ?_ ?_ ?_ hreceived
    · rw [hlogs, if_pos rfl, hbatch]
    · exact (@batch_outside c k hc hin c₀ rfl rfl).1
    · cases k <;> rfl
  | commitFailed k failure items hf =>
    let c₀ : Channel := { c with
      logs := c.logs ++ if failure.applied then items else []
      failed := c.failed ++ items
      expired := c.expired || failure.expires }
    have hin : c.lock.place k = .inside := by simp [Channel.lock, hf, placeOf]
    have hbatch : batch c = items := batch_inside hc hf hin
    obtain ⟨hlogs, hreceived, -⟩ := c₀.same_suspend k .rollingBack
    refine .settled failure.applied (by simp) (fun s left _ => ⟨rfl, fun ha => ?_⟩) ?_ ?_ ?_
      hreceived
    · refine if_neg ?_
      rintro rfl
      cases ha
    · rw [hlogs, hbatch]
    · exact (@batch_outside c k hc hin c₀ rfl rfl).2
    · cases k <;> rfl
  | rolledBack k hf =>
    let c₀ : Channel := { c with locked := false, expired := true }
    obtain ⟨hlogs, hreceived, -⟩ := c₀.same_resume k
    refine .still (by simp) hlogs ?_ ?_ hreceived
    · exact batch_resume (c := c₀) (Channel.itemsOf_flushOf hf rfl rfl)
    · cases k <;> rfl
  | rollbackRaised k hf =>
    let c₀ : Channel := { c with locked := false, expired := true }
    obtain ⟨hlogs, hreceived, -⟩ := c₀.same_escape k
    refine .still (by simp) hlogs ?_ ?_ hreceived
    · exact batch_escape (c := c₀) (Channel.itemsOf_flushOf hf rfl rfl)
    · cases k <;> rfl
  | cancelled applied d hm hd => exact cancelled_flow hc (deliverCancel_cancelled hd)
  | joined hm =>
    exact startFlush_flow hc (by simp) (by simp [Channel.itemsOf, hm, Handler.items])
  | joinRaised hm =>
    exact .still (by simp) rfl (by simp [batch, hm, Handler.items]) rfl rfl

end

/-! ### Every run -/

theorem begunAfter_cases (s : Timed) (left : Bool) (l : LogChannel.Label) :
    begunAfter s left l = s.begun ∨ begunAfter s left l = none := by
  unfold begunAfter
  split
  · exact Or.inr rfl
  · split
    · exact Or.inl rfl
    · exact Or.inr rfl
  · exact Or.inr rfl
  · exact Or.inr rfl
  · split
    · exact Or.inr rfl
    · exact Or.inl rfl
  · exact Or.inl rfl

/- While a batch is in its transaction, that transaction goes on. -/
theorem sentAfter_true {s : Timed} {l : LogChannel.Label} (h : sentAfter s l = true)
    (left : Bool) : s.sent = true ∧ begunAfter s left l = s.begun := by
  cases l with
  | committed k => cases h
  | commitFailed k failure => cases h
  | rolledBack k => cases h
  | rollbackRaised k => cases h
  | cancelled applied =>
    simp only [sentAfter, Bool.and_eq_true, Bool.not_eq_true'] at h
    refine ⟨h.1, if_neg ?_⟩
    simp [h.2]
  | _ => exact ⟨h, rfl⟩

/- The lines of a connection in the order they go through it. -/
def pipeline (c : Channel) : List LogEntry := c.logs ++ (batch c ++ c.buffer)

structure Inv (s : Timed) : Prop where
  lock : Consistent s.channel.lock
  counted : s.times.length = s.channel.received.length
  past : ∀ received ∈ s.times, received ≤ s.now
  order : (pipeline s.channel).Pairwise fun a b => a.seq < b.seq
  known : ∀ e ∈ pipeline s.channel, e.seq < s.times.length
  lines : s.stored.flatMap Batch.lines = s.channel.logs
  full : ∀ b ∈ s.stored, b.lines ≠ []
  inserted : s.sent = true → batch s.channel ≠ [] ∧ s.begun ≠ none
  opened : ∀ start, s.begun = some start → start ≤ s.now ∧ ∀ b ∈ s.stored, b.createdAt ≤ start
  stamps : ∀ b ∈ s.stored, b.createdAt ≤ s.now
  sorted : s.stored.Pairwise fun a b => a.createdAt ≤ b.createdAt

theorem Inv.connected (serverId : ℕ) (start : Instant) (wait : ℕ) :
    Inv (connected serverId start wait) where
  lock := lock_opened serverId
  counted := rfl
  past := fun _ h => absurd h List.not_mem_nil
  order := List.Pairwise.nil
  known := fun _ h => absurd h List.not_mem_nil
  lines := rfl
  full := fun _ h => absurd h List.not_mem_nil
  inserted := fun h => by cases h
  opened t ht := by
    obtain rfl := Option.some.inj ht
    exact ⟨le_add_of_nonneg_right (Int.natCast_nonneg wait), fun _ h => absurd h List.not_mem_nil⟩
  stamps := fun _ h => absurd h List.not_mem_nil
  sorted := List.Pairwise.nil

/- A turn that reads no line adds none, and drops at most a batch. -/
theorem Flow.pipeline {c c' : Channel} {l : LogChannel.Label} (h : Flow c c' l) :
    (pipeline c').Sublist (pipeline c) ∨
      ∃ line, l = .receive line ∧
        pipeline c' = pipeline c ++ [⟨c.received.length, c.serverId, line⟩] := by
  unfold LogClock.pipeline
  cases h with
  | still quiet logs same buffer received =>
    rw [logs, same, buffer]
    exact Or.inl (List.Sublist.refl _)
  | read logs same buffer received =>
    refine Or.inr ⟨_, rfl, ?_⟩
    rw [logs, same, buffer, List.append_assoc, List.append_assoc]
  | dropped logs same buffer received =>
    rw [logs, same, buffer]
    exact Or.inl (List.Sublist.refl _)
  | taken quiet unlocked free logs all buffer received =>
    rw [logs, all, buffer, free, List.append_nil, List.nil_append]
    exact Or.inl (List.Sublist.refl _)
  | settled applied quiet ends logs none buffer received =>
    rw [logs, none, buffer]
    cases applied with
    | true =>
      rw [if_pos rfl, List.nil_append, List.append_assoc]
      exact Or.inl (List.Sublist.refl _)
    | false =>
      rw [if_neg (by simp), List.append_nil, List.nil_append]
      exact Or.inl ((List.sublist_append_right _ _).append_left _)

theorem Flow.times {c : Channel} {l : LogChannel.Label} {s : Timed} (h : Flow s.channel c l)
    (hs : s.times.length = s.channel.received.length) :
    (timesAfter s l).length = c.received.length := by
  have hquiet : (∀ line, l ≠ .receive line) → timesAfter s l = s.times := by
    intro hq
    cases l with
    | receive line => exact absurd rfl (hq line)
    | _ => rfl
  cases h with
  | still quiet logs same buffer received => rw [hquiet quiet, received, hs]
  | read logs same buffer received => simp [timesAfter, received, hs]
  | dropped logs same buffer received => simp [timesAfter, received, hs]
  | taken quiet unlocked free logs all buffer received => rw [hquiet quiet, received, hs]
  | settled applied quiet ends logs none buffer received => rw [hquiet quiet, received, hs]

theorem timesAfter_eq (s : Timed) (l : LogChannel.Label) :
    ∃ more, timesAfter s l = s.times ++ more ∧ ∀ t ∈ more, t = s.now := by
  cases l with
  | receive line => exact ⟨[s.now], rfl, fun t ht => List.mem_singleton.mp ht⟩
  | _ => exact ⟨[], (List.append_nil _).symm, fun t ht => absurd ht List.not_mem_nil⟩

/- What a turn stores is the batch in its transaction, which it ends. -/
theorem Flow.stored {c : Channel} {l : LogChannel.Label} {s : Timed} (h : Flow s.channel c l)
    (hi : Inv s) (hsent : c.logs = s.channel.logs ∨ s.sent = true) (left : Bool) :
    (storedBy s c = [] ∧ c.logs = s.channel.logs) ∨
      ∃ start, s.begun = some start ∧ s.sent = true ∧ batch s.channel ≠ [] ∧
        storedBy s c = [⟨start, batch s.channel⟩] ∧
        c.logs = s.channel.logs ++ batch s.channel ∧ begunAfter s left l = none := by
  by_cases hlogs : c.logs = s.channel.logs
  · exact Or.inl ⟨if_pos hlogs, hlogs⟩
  · right
    have hs := hsent.resolve_left hlogs
    obtain ⟨hne, hbegun⟩ := hi.inserted hs
    obtain ⟨start, hstart⟩ := Option.ne_none_iff_exists'.mp hbegun
    cases h with
    | still quiet logs => exact absurd logs hlogs
    | read logs => exact absurd logs hlogs
    | dropped logs => exact absurd logs hlogs
    | taken quiet unlocked free logs => exact absurd logs hlogs
    | settled applied quiet ends logs =>
      cases applied with
      | false =>
        rw [if_neg (by simp), List.append_nil] at logs
        exact absurd logs hlogs
      | true =>
        rw [if_pos rfl] at logs
        refine ⟨start, hstart, hs, hne, ?_, logs, (ends s left rfl).2 rfl⟩
        rw [storedBy, if_neg hlogs, hstart, logs, List.drop_left]
        rfl

section
variable {s : Timed} (hi : Inv s) {c : Channel} {l : LogChannel.Label}
include hi

theorem Inv.order_turn (h : Flow s.channel c l) :
    (pipeline c).Pairwise fun a b => a.seq < b.seq := by
  rcases h.pipeline with hsub | ⟨line, -, hline⟩
  · exact hi.order.sublist hsub
  · rw [hline, List.pairwise_append]
    refine ⟨hi.order, List.pairwise_singleton _ _, fun a ha b hb => ?_⟩
    rw [List.mem_singleton.mp hb, ← hi.counted]
    exact hi.known a ha

theorem Inv.known_turn (h : Flow s.channel c l) :
    ∀ e ∈ pipeline c, e.seq < (timesAfter s l).length := by
  obtain ⟨more, htimes, -⟩ := timesAfter_eq s l
  have hgrow : s.times.length ≤ (timesAfter s l).length := by
    rw [htimes, List.length_append]
    omega
  intro e he
  rcases h.pipeline with hsub | ⟨line, rfl, hline⟩
  · exact (hi.known e (hsub.subset he)).trans_le hgrow
  · rw [hline] at he
    rcases List.mem_append.mp he with he | he
    · exact (hi.known e he).trans_le hgrow
    · rw [List.mem_singleton.mp he, ← hi.counted]
      simp [timesAfter]

/- A batch a turn stores has the start of the open transaction. -/
theorem Inv.stored_turn (h : Flow s.channel c l)
    (hsent : c.logs = s.channel.logs ∨ s.sent = true) {b : Batch} (hb : b ∈ storedBy s c) :
    b.lines ≠ [] ∧ s.begun = some b.createdAt := by
  rcases h.stored hi hsent false with ⟨hnone, -⟩ | ⟨start, hstart, -, hne, hone, -⟩
  · rw [hnone] at hb
    cases hb
  · rw [hone] at hb
    rw [List.mem_singleton.mp hb]
    exact ⟨hne, hstart⟩

theorem Inv.sorted_turn (h : Flow s.channel c l)
    (hsent : c.logs = s.channel.logs ∨ s.sent = true) :
    (s.stored ++ storedBy s c).Pairwise fun a b => a.createdAt ≤ b.createdAt := by
  have hnew : (storedBy s c).Pairwise fun a b => a.createdAt ≤ b.createdAt := by
    rcases h.stored hi hsent false with ⟨hnone, -⟩ | ⟨start, -, -, -, hone, -⟩
    · rw [hnone]
      exact List.Pairwise.nil
    · rw [hone]
      exact List.pairwise_singleton _ _
  rw [List.pairwise_append]
  refine ⟨hi.sorted, hnew, fun a ha b hb => ?_⟩
  obtain ⟨-, hstart⟩ := hi.stored_turn h hsent hb
  exact (hi.opened b.createdAt hstart).2 a ha

theorem Inv.inserted_turn (h : Flow s.channel c l) (left : Bool) (hsent : sentAfter s l = true) :
    batch c ≠ [] ∧ begunAfter s left l ≠ none := by
  obtain ⟨hs, hbegun⟩ := sentAfter_true hsent left
  obtain ⟨hne, hopen⟩ := hi.inserted hs
  refine ⟨?_, hbegun ▸ hopen⟩
  cases h with
  | still quiet logs same => exact same ▸ hne
  | read logs same => exact same ▸ hne
  | dropped logs same => exact same ▸ hne
  | taken quiet unlocked free => exact absurd free hne
  | settled applied quiet ends =>
    exact absurd (hsent.symm.trans (ends s left rfl).1) (by simp)

/- A transaction that goes on has stored nothing yet. -/
theorem Inv.opened_turn (h : Flow s.channel c l)
    (hsent : c.logs = s.channel.logs ∨ s.sent = true) {left : Bool} {start : Instant}
    (hstart : begunAfter s left l = some start) :
    start ≤ s.now ∧ ∀ b ∈ s.stored ++ storedBy s c, b.createdAt ≤ start := by
  rcases begunAfter_cases s left l with hsame | hnone
  · rcases h.stored hi hsent left with ⟨hnone, -⟩ | ⟨start', -, -, -, -, -, hended⟩
    · rw [hnone, List.append_nil]
      exact hi.opened start (hsame ▸ hstart)
    · rw [hstart] at hended
      cases hended
  · rw [hnone] at hstart
    cases hstart

end

theorem Inv.turn {s : Timed} (hi : Inv s) {l : LogChannel.Label} {left : Bool} {c : Channel}
    (hc : LogChannel.step s.channel l = some c)
    (hsent : c.logs = s.channel.logs ∨ s.sent = true) :
    Inv { s with
      channel := c
      begun := begunAfter s left l
      sent := sentAfter s l
      stored := s.stored ++ storedBy s c
      times := timesAfter s l } := by
  have hturn := step_turn hc
  have hflow := turn_flow hi.lock hturn
  constructor
  case lock => exact hi.lock.move hturn.lock
  case counted => exact hflow.times hi.counted
  case past =>
    obtain ⟨more, htimes, hmore⟩ := timesAfter_eq s l
    intro t ht
    rw [htimes] at ht
    rcases List.mem_append.mp ht with ht | ht
    · exact hi.past t ht
    · exact (hmore t ht).le
  case order => exact hi.order_turn hflow
  case known => exact hi.known_turn hflow
  case lines =>
    rw [List.flatMap_append, hi.lines]
    rcases hflow.stored hi hsent left with ⟨hnone, hlogs⟩ | ⟨start, -, -, -, hone, hlogs, -⟩
    · rw [hnone, hlogs, List.flatMap_nil, List.append_nil]
    · rw [hone, hlogs, List.flatMap_singleton]
  case full =>
    intro b hb
    rcases List.mem_append.mp hb with hb | hb
    · exact hi.full b hb
    · exact (hi.stored_turn hflow hsent hb).1
  case inserted => exact hi.inserted_turn hflow left
  case opened => exact fun start hstart => hi.opened_turn hflow hsent hstart
  case stamps =>
    intro b hb
    rcases List.mem_append.mp hb with hb | hb
    · exact hi.stamps b hb
    · exact (hi.opened b.createdAt (hi.stored_turn hflow hsent hb).2).1
  case sorted => exact hi.sorted_turn hflow hsent

theorem Inv.step {s t : Timed} (hi : Inv s) {l : Label} (h : step s l = some t) : Inv t := by
  cases l with
  | tick d =>
    obtain rfl := Option.some.inj h
    have hlater : s.now ≤ s.now + d := le_add_of_nonneg_right (Int.natCast_nonneg d)
    exact { hi with
      past := fun r hr => (hi.past r hr).trans hlater
      opened := fun start hs =>
        ⟨(hi.opened start hs).1.trans hlater, (hi.opened start hs).2⟩
      stamps := fun b hb => (hi.stamps b hb).trans hlater }
  | insert =>
    simp only [LogClock.step] at h
    split at h
    · next hguard =>
      obtain rfl := Option.some.inj h
      refine { hi with inserted := fun _ => ⟨hguard.1, by simp⟩, opened := fun start hs => ?_ }
      obtain rfl := Option.some.inj hs
      cases hb : s.begun with
      | none => exact ⟨le_refl _, hi.stamps⟩
      | some begun => exact hi.opened begun hb
    · cases h
  | turn l left =>
    obtain ⟨c, hc, hrest⟩ := Option.bind_eq_some_iff.mp h
    split at hrest
    · next hsent =>
      obtain rfl := Option.some.inj hrest
      exact hi.turn hc hsent
    · cases hrest

/-! ### Rows and the times of their lines -/

/- The batch in its transaction is not older than it. -/
def OnTime (s : Timed) : Prop :=
  s.sent = true → ∀ start, s.begun = some start → ∀ e ∈ batch s.channel,
    ∃ received, s.times[e.seq]? = some received ∧ received ≤ start

theorem received_kept {times more : List Instant} {i : ℕ} {received : Instant}
    (h : times[i]? = some received) : (times ++ more)[i]? = some received := by
  obtain ⟨hlt, -⟩ := List.getElem?_eq_some_iff.mp h
  rw [List.getElem?_append_left hlt, h]

theorem OnTime.step {s t : Timed} (hi : Inv s) (h : OnTime s) (hst : Stamped s) {l : Label}
    (hok : InOwnTransaction s l) (hstep : LogClock.step s l = some t) : OnTime t ∧ Stamped t := by
  cases l with
  | tick d =>
    obtain rfl := Option.some.inj hstep
    exact ⟨h, hst⟩
  | insert =>
    simp only [LogClock.step] at hstep
    split at hstep
    · next hguard =>
      obtain rfl := Option.some.inj hstep
      refine ⟨fun _ start hstart e he => ?_, hst⟩
      have hlt := hi.known e (List.mem_append_right _ (List.mem_append_left _ he))
      refine ⟨s.times[e.seq], List.getElem?_eq_getElem hlt, ?_⟩
      obtain rfl := Option.some.inj hstart
      cases hb : s.begun with
      | none => exact hi.past _ (List.getElem_mem hlt)
      | some begun => exact hok hguard.2 begun hb e he _ (List.getElem?_eq_getElem hlt)
    · cases hstep
  | turn l left =>
    obtain ⟨c, hc, hrest⟩ := Option.bind_eq_some_iff.mp hstep
    split at hrest
    · next hsent =>
      obtain rfl := Option.some.inj hrest
      have hflow := turn_flow hi.lock (step_turn hc)
      obtain ⟨more, htimes, -⟩ := timesAfter_eq s l
      constructor
      · intro hsent' start hstart e he
        obtain ⟨hs, hbegun⟩ := sentAfter_true hsent' left
        have hsame : batch c = batch s.channel := by
          cases hflow with
          | still quiet logs same => exact same
          | read logs same => exact same
          | dropped logs same => exact same
          | taken quiet unlocked free => exact absurd free (hi.inserted hs).1
          | settled applied quiet ends =>
            exact absurd (hsent'.symm.trans (ends s left rfl).1) (by simp)
        obtain ⟨received, hr, hle⟩ := h hs start (hbegun ▸ hstart) e (hsame ▸ he)
        exact ⟨received, htimes ▸ received_kept hr, hle⟩
      · intro b hb e he
        have hrow : ∃ received, s.times[e.seq]? = some received ∧ received ≤ b.createdAt := by
          rcases List.mem_append.mp hb with hb | hb
          · exact hst b hb e he
          · rcases hflow.stored hi hsent left with ⟨hnone, -⟩ | ⟨start, hstart, hs, -, hone, -⟩
            · rw [hnone] at hb
              cases hb
            · rw [hone] at hb
              obtain rfl := List.mem_singleton.mp hb
              exact h hs start hstart e he
        obtain ⟨received, hr, hle⟩ := hrow
        exact ⟨received, htimes ▸ received_kept hr, hle⟩
    · cases hrest

/-- In a run that inserts no batch into a transaction opened before its lines came in, every
row is stamped at or after the receipt of its line. -/
theorem rows_stamped_after_receipt (serverId : ℕ) (start : Instant) (wait : ℕ) (ls : List Label)
    (h : Along step InOwnTransaction (connected serverId start wait) ls) :
    Throughout step Stamped (connected serverId start wait) ls := by
  refine throughout_of_invariant (fun s => Inv s ∧ OnTime s ∧ Stamped s) Stamped
    InOwnTransaction (fun s l t hs hok hstep => ?_) (fun s hs => hs.2.2)
    ⟨.connected serverId start wait, fun hsent => absurd hsent Bool.false_ne_true,
      fun b hb => absurd hb List.not_mem_nil⟩ h
  exact ⟨hs.1.step hstep, hs.2.1.step hs.1 hs.2.2 hok hstep⟩

/-! ### Only the first batch is at risk -/

def NothingLeft (_ : Timed) : Label → Prop
  | .turn (.cancelled _) left => left = false
  | _ => True

/- The open transaction, if any, is the one of the batch or is being rolled back. -/
def Settled (s : Timed) : Prop :=
  s.begun = none ∨ s.sent = true ∨ (batch s.channel = [] ∧ s.channel.locked = true)

theorem locked_turn {c c' : Channel} {l : LogChannel.Label} (h : Turn c l c')
    (hlocked : c.locked = true) : c'.locked = true ∨ ∀ s : Timed, s.channel = c →
      begunAfter s false l = none := by
  have hwait : ∀ k, (c.startFlush k).locked = true := by
    intro k
    unfold Channel.startFlush
    rw [if_neg (by simp [hlocked])]
    cases k <;> exact hlocked
  cases h with
  | full hm => exact Or.inl (hwait .size)
  | wake hp => exact Or.inl (hwait .periodic)
  | joined hm => exact Or.inl (hwait .final)
  | acquired k ws hf hw hfree => simp [hfree] at hlocked
  | committed k items hf => exact Or.inr fun _ _ => rfl
  | commitFailed k failure items hf => left; cases k <;> exact hlocked
  | rolledBack k hf => exact Or.inr fun _ _ => rfl
  | rollbackRaised k hf => exact Or.inr fun _ _ => rfl
  | cancelled applied d hm hd =>
    cases deliverCancel_cancelled hd with
    | asleep hp | locking hp => exact Or.inl hlocked
    | rollingBack hp => exact Or.inr fun s hs => by simp [begunAfter, inSession, hs, hp]
    | committing items hp => exact Or.inr fun s hs => by simp [begunAfter, inSession, hs, hp]
  | _ => exact Or.inl hlocked

theorem Settled.turn {s : Timed} (hi : Inv s) (h : Settled s) {l : LogChannel.Label}
    {left : Bool} (hok : NothingLeft s (.turn l left)) {c : Channel} (hturn : Turn s.channel l c) :
    begunAfter s left l = none ∨ sentAfter s l = true ∨ (batch c = [] ∧ c.locked = true) := by
  have hleft : begunAfter s left l = begunAfter s false l := by
    cases l with
    | cancelled applied => rw [show left = false from hok]
    | _ => rfl
  rw [hleft]
  have hends := fun hlocked => locked_turn hturn hlocked
  rcases h with hnone | hsent | ⟨hbatch, hlocked⟩
  · rcases begunAfter_cases s false l with hsame | hnone'
    · exact Or.inl (hsame.trans hnone)
    · exact Or.inl hnone'
  · have hlocked : s.channel.locked = true := by
      by_contra hfree
      exact (hi.inserted hsent).1 (batch_of_free hi.lock (by simpa using hfree))
    rcases hends hlocked with hlocked' | hnone
    · cases hturn with
      | committed k items hf => exact Or.inl rfl
      | commitFailed k failure items hf =>
        have hin : s.channel.lock.place k = .inside := by simp [Channel.lock, hf, placeOf]
        refine Or.inr (Or.inr ⟨?_, hlocked'⟩)
        cases k <;> exact (batch_outside hi.lock hin rfl rfl).2
      | rolledBack k hf => exact Or.inl rfl
      | rollbackRaised k hf => exact Or.inl rfl
      | cancelled applied d hm hd =>
        cases hsession : inSession s.channel with
        | true => exact Or.inl (by simp [begunAfter, hsession])
        | false => exact Or.inr (Or.inl (by simp [sentAfter, hsession, hsent]))
      | _ => exact Or.inr (Or.inl hsent)
    · exact Or.inl (hnone s rfl)
  · rcases hends hlocked with hlocked' | hnone
    · refine Or.inr (Or.inr ⟨?_, hlocked'⟩)
      cases turn_flow hi.lock hturn with
      | still quiet logs same => exact same.trans hbatch
      | read logs same => exact same.trans hbatch
      | dropped logs same => exact same.trans hbatch
      | taken quiet unlocked => exact absurd (hlocked.symm.trans unlocked) (by simp)
      | settled applied quiet ends logs none => exact none
    · exact Or.inl (hnone s rfl)

theorem Settled.step {s t : Timed} (hi : Inv s) (h : Settled s) {l : Label}
    (hok : NothingLeft s l) (hstep : LogClock.step s l = some t) : Settled t := by
  cases l with
  | tick d =>
    obtain rfl := Option.some.inj hstep
    exact h
  | insert =>
    simp only [LogClock.step] at hstep
    split at hstep
    · obtain rfl := Option.some.inj hstep
      exact Or.inr (Or.inl rfl)
    · cases hstep
  | turn l left =>
    obtain ⟨c, hc, hrest⟩ := Option.bind_eq_some_iff.mp hstep
    split at hrest
    · obtain rfl := Option.some.inj hrest
      exact h.turn hi hok (step_turn hc)
    · cases hrest

/-- Once a transaction has ended, every batch opens one of its own, unless a cancelled call
leaves its transaction behind. -/
theorem later_batches_in_own_transaction {s : Timed} (hi : Inv s) (h : s.begun = none)
    {ls : List Label} (hleft : Along step NothingLeft s ls) :
    Along step InOwnTransaction s ls := by
  refine along_of_invariant (fun s => Inv s ∧ Settled s) (fun s l t hs hok hstep =>
    ⟨hs.1.step hstep, hs.2.step hs.1 hok hstep⟩) (fun s l hs _ => ?_) ⟨hi, Or.inl h⟩ hleft
  cases l with
  | insert =>
    intro hsent start hstart e he
    rcases hs.2 with hnone | hsent' | ⟨hbatch, -⟩
    · rw [hnone] at hstart
      cases hstart
    · rw [hsent] at hsent'
      cases hsent'
    · rw [hbatch] at he
      cases he
  | _ => trivial

/- Two lines, each flushed by the age of the buffer; the first one in the instant of
authentication's SELECT. -/
def twoFlushes : List Label :=
  [.turn (.receive "one") false, .turn .broadcasted false, .turn .wake false, .insert,
    .turn (.committed .periodic) false, .tick 5, .turn (.receive "two") false,
    .turn .broadcasted false, .turn .wake false, .tick 1, .insert,
    .turn (.committed .periodic) false]

theorem rows_stamped_after_receipt_twice :
    Throughout step Stamped (connected 7 0 0) twoFlushes :=
  rows_stamped_after_receipt 7 0 0 twoFlushes (by decide)

/- The agent connects, is silent for an hour and sends a line, which is stored with the
time it connected at. -/
theorem line_stamped_an_hour_early :
    ∃ s, run step (connected 7 0 3600000000) [.turn (.receive "boot") false,
        .turn .broadcasted false, .turn .wake false, .insert,
        .turn (.committed .periodic) false] = some s ∧
      s.stored = [⟨0, [⟨0, 7, "boot"⟩]⟩] ∧ s.times = [3600000000] ∧ ¬ Stamped s := by
  refine ⟨_, rfl, rfl, rfl, fun h => ?_⟩
  obtain ⟨received, hr, hle⟩ := h _ (List.mem_singleton_self _) _ (List.mem_singleton_self _)
  obtain rfl := Option.some.inj hr
  exact absurd hle (by decide)

end PulseWatch.LogClock
