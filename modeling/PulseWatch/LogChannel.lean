import Mathlib.Data.List.Count
import PulseWatch.Lib.Runs
import PulseWatch.Lib.AsyncLock

/-!
# The agent log channel (`app/api/websocket.py`, `ws_agent_logs`)

One connection of an agent: the handler task reads lines into a buffer, a
periodic task flushes the buffer every second, and both share the buffer and
one database session behind `flush_lock`. Tasks switch at `await` only, so a
step runs one task from one `await` to the next; what the awaited call did
(the commit was applied, it raised, the task was cancelled there) is part of the
label. Cancellation is asked for by the `finally` block and delivered at the
await the periodic task stands at. The row of the server is an object of the
session: a rollback expires it, and `server.id` raises from then on.
-/

namespace PulseWatch.LogChannel
open Runs

/- `LogEntry(server_id=..., message=...)`; `seq` numbers the lines of the
connection in the order `receive_text` returned them, so that two equal lines
stay two. -/
structure LogEntry where
  seq : ℕ
  serverId : ℕ
  message : String
  deriving DecidableEq, Repr

def logBatchMaxSize : ℕ := 50

/- The calls of `flush()`: in `periodic_flush`, after a line, in `finally`. -/
inductive Caller where
  | periodic
  | size
  | final
  deriving DecidableEq, Repr

/- The await at which a call of `flush()` is suspended. -/
inductive Flush where
  | locking
  | committing (items : List LogEntry)
  | rollingBack
  deriving DecidableEq, Repr

/- The handler task. `joining` is `await flush_task`, after `flush_task.cancel()`. -/
inductive Handler where
  | receiving
  | broadcasting
  | flushing (f : Flush)
  | joining
  | finalFlush (f : Flush)
  | closed
  deriving DecidableEq, Repr

/- `flush_task`; the last two are its ends, by CancelledError or by an exception
that `flush()` let through. -/
inductive Periodic where
  | sleeping
  | flushing (f : Flush)
  | cancelled
  | raised
  deriving DecidableEq, Repr

/- How `db.commit()` raised: in the flush, which rolls the session back by itself,
or at COMMIT, which the database may have applied. -/
inductive Failure where
  | flush
  | commit (applied : Bool)
  deriving DecidableEq, Repr

def Failure.applied : Failure → Bool
  | .flush => false
  | .commit applied => applied

def Failure.expires : Failure → Bool
  | .flush => true
  | .commit _ => false

/- `received` (what `receive_text` returned) and `failed` (the batches whose
`db.commit()` raised, for whatever reason: also with the PendingRollbackError of the
session a cancelled commit has left behind) record the run; the code keeps neither.
`logs` are the rows this connection has committed. `expired` tells of the row of the
server, as long as the handler reads it. -/
structure Channel where
  serverId : ℕ
  buffer : List LogEntry := []
  locked : Bool := false
  waiters : List Caller := []
  handler : Handler := .receiving
  periodic : Periodic := .sleeping
  expired : Bool := false
  logs : List LogEntry := []
  received : List LogEntry := []
  failed : List LogEntry := []
  deriving DecidableEq, Repr

def opened (serverId : ℕ) : Channel := { serverId }

namespace Channel

def flushOf (c : Channel) : Caller → Option Flush
  | .periodic => match c.periodic with
    | .flushing f => some f
    | _ => none
  | .size => match c.handler with
    | .flushing f => some f
    | _ => none
  | .final => match c.handler with
    | .finalFlush f => some f
    | _ => none

def suspend (k : Caller) (f : Flush) (c : Channel) : Channel :=
  match k with
  | .periodic => { c with periodic := .flushing f }
  | .size => { c with handler := .flushing f }
  | .final => { c with handler := .finalFlush f }

/- `flush()` returned: to the sleep, to `receive_text`, to the end. -/
def resume (k : Caller) (c : Channel) : Channel :=
  match k with
  | .periodic => { c with periodic := .sleeping }
  | .size => { c with handler := .receiving }
  | .final => { c with handler := .closed }

/- `flush()` raised: the task dies, or the handler goes through `finally`. -/
def escape (k : Caller) (c : Channel) : Channel :=
  match k with
  | .periodic => { c with periodic := .raised }
  | .size => { c with handler := .joining }
  | .final => { c with handler := .closed }

/- The body of `flush()` under the lock, up to `await db.commit()`. -/
def takeBatch (k : Caller) (c : Channel) : Channel :=
  if c.buffer = [] then resume k c
  else suspend k (.committing c.buffer) { c with buffer := [], locked := true }

/- `async with flush_lock`: no suspension when the lock is free and nobody waits. -/
def startFlush (k : Caller) (c : Channel) : Channel :=
  if c.locked = false ∧ c.waiters = [] then takeBatch k c
  else suspend k .locking { c with waiters := c.waiters ++ [k] }

/- Once cancelled, the periodic task does nothing more of its own. -/
def runnable (c : Channel) (k : Caller) : Bool := k ≠ .periodic ∨ c.handler ≠ .joining

end Channel

inductive Label where
  | receive (line : String)
  | broadcasted
  | disconnect
  | wake
  | acquired (k : Caller)
  | committed (k : Caller)
  | commitFailed (k : Caller) (failure : Failure)
  | rolledBack (k : Caller)
  | rollbackRaised (k : Caller)
  | cancelled (applied : Bool)
  | joined
  deriving DecidableEq, Repr

/- What is left of the periodic task when CancelledError reaches it. It is not an
`Exception`: `flush()` lets it through without a rollback. -/
def deliverCancel (applied : Bool) (c : Channel) : Option Channel :=
  match c.periodic with
  | .sleeping => some { c with periodic := .cancelled }
  | .flushing .locking =>
    some { c with periodic := .cancelled, waiters := c.waiters.erase .periodic }
  | .flushing (.committing items) =>
    some { c with periodic := .cancelled, locked := false,
                  logs := c.logs ++ if applied then items else [] }
  | .flushing .rollingBack => some { c with periodic := .cancelled, locked := false }
  | .cancelled => none
  | .raised => none

/-- One task from one await to the next. -/
def step (c : Channel) : Label → Option Channel
  | .receive line => match c.handler with
    | .receiving =>
      let e : LogEntry := ⟨c.received.length, c.serverId, line⟩
      -- `server.id` raises, and the handler goes through `finally`
      if c.expired then some { c with received := c.received ++ [e], handler := .joining }
      else some { c with buffer := c.buffer ++ [e], received := c.received ++ [e]
                         handler := .broadcasting }
    | _ => none
  | .broadcasted => match c.handler with
    | .broadcasting =>
      if logBatchMaxSize ≤ c.buffer.length then some (c.startFlush .size)
      else some { c with handler := .receiving }
    | _ => none
  | .disconnect => match c.handler with
    | .receiving => some { c with handler := .joining }
    | _ => none
  | .wake => match c.periodic with
    | .sleeping => if c.runnable .periodic then some (c.startFlush .periodic) else none
    | _ => none
  | .acquired k => match c.flushOf k, c.waiters with
    | some .locking, w :: ws =>
      if c.locked = false ∧ w = k ∧ c.runnable k then some ({ c with waiters := ws }.takeBatch k)
      else none
    | _, _ => none
  | .committed k => match c.flushOf k with
    | some (.committing items) =>
      if c.runnable k then some ({ c with locked := false, logs := c.logs ++ items }.resume k)
      else none
    | _ => none
  | .commitFailed k failure => match c.flushOf k with
    | some (.committing items) =>
      if c.runnable k then
        some ({ c with logs := c.logs ++ if failure.applied then items else []
                       failed := c.failed ++ items
                       expired := c.expired || failure.expires }.suspend k .rollingBack)
      else none
    | _ => none
  | .rolledBack k => match c.flushOf k with
    | some .rollingBack =>
      if c.runnable k then some ({ c with locked := false, expired := true }.resume k) else none
    | _ => none
  | .rollbackRaised k => match c.flushOf k with
    | some .rollingBack =>
      if c.runnable k then some ({ c with locked := false, expired := true }.escape k) else none
    | _ => none
  | .cancelled applied => match c.handler with
    | .joining => deliverCancel applied c
    | _ => none
  | .joined => match c.handler, c.periodic with
    | .joining, .cancelled => some (c.startFlush .final)
    -- `suppress` lets any other exception through, and `finally` ends there
    | .joining, .raised => some { c with handler := .closed }
    | _, _ => none

/- Lines on their way: in the buffer or in a batch whose commit is awaited. -/
def Flush.items : Flush → List LogEntry
  | .committing items => items
  | _ => []

def Handler.items : Handler → List LogEntry
  | .flushing f => f.items
  | .finalFlush f => f.items
  | _ => []

def Periodic.items : Periodic → List LogEntry
  | .flushing f => f.items
  | _ => []

def Channel.held (c : Channel) (e : LogEntry) : ℕ :=
  c.buffer.count e + (c.handler.items.count e + c.periodic.items.count e)

/- The lines received before the disconnect, once the handler has ended. -/
def Kept (c : Channel) : Prop :=
  ∀ e ∈ c.received, e ∉ c.failed → c.logs.count e = 1

/- The three ways to lose lines: a cancellation that catches `db.commit()` before
the database has applied it, a periodic task that an exception of `db.rollback()`
has killed, whose join skips the last flush, and a line read after a rollback. -/
def Safe (c : Channel) : Label → Prop
  | .receive _ => c.expired = false
  | .cancelled applied => ∀ items, c.periodic = .flushing (.committing items) → applied = true
  | .joined => c.periodic = .raised → c.buffer = []
  | _ => True

/-! ### The turns of the two tasks -/

inductive Cancelled (applied : Bool) (c : Channel) : Channel → Prop where
  | asleep (hp : c.periodic = .sleeping) : Cancelled applied c { c with periodic := .cancelled }
  | locking (hp : c.periodic = .flushing .locking) : Cancelled applied c
      { c with periodic := .cancelled, waiters := c.waiters.erase .periodic }
  | committing (items : List LogEntry) (hp : c.periodic = .flushing (.committing items)) :
      Cancelled applied c { c with periodic := .cancelled, locked := false,
                                   logs := c.logs ++ if applied then items else [] }
  | rollingBack (hp : c.periodic = .flushing .rollingBack) :
      Cancelled applied c { c with periodic := .cancelled, locked := false }

theorem deliverCancel_cancelled {c c' : Channel} {applied : Bool}
    (h : deliverCancel applied c = some c') : Cancelled applied c c' := by
  unfold deliverCancel at h
  split at h
  · next hp =>
    obtain rfl := Option.some.inj h
    exact .asleep hp
  · next hp =>
    obtain rfl := Option.some.inj h
    exact .locking hp
  · next items hp =>
    obtain rfl := Option.some.inj h
    exact .committing items hp
  · next hp =>
    obtain rfl := Option.some.inj h
    exact .rollingBack hp
  · cases h
  · cases h

inductive Turn (c : Channel) : Label → Channel → Prop where
  | receive (line : String) (hm : c.handler = .receiving) (hread : c.expired = false) :
      Turn c (.receive line)
      { c with buffer := c.buffer ++ [⟨c.received.length, c.serverId, line⟩]
               received := c.received ++ [⟨c.received.length, c.serverId, line⟩]
               handler := .broadcasting }
  | dropped (line : String) (hm : c.handler = .receiving) (hexp : c.expired = true) :
      Turn c (.receive line)
      { c with received := c.received ++ [⟨c.received.length, c.serverId, line⟩]
               handler := .joining }
  | full (hm : c.handler = .broadcasting) (hfull : logBatchMaxSize ≤ c.buffer.length) :
      Turn c .broadcasted (c.startFlush .size)
  | broadcasted (hm : c.handler = .broadcasting) (hroom : ¬ logBatchMaxSize ≤ c.buffer.length) :
      Turn c .broadcasted { c with handler := .receiving }
  | disconnect (hm : c.handler = .receiving) : Turn c .disconnect { c with handler := .joining }
  | wake (hp : c.periodic = .sleeping) (hrun : c.runnable .periodic = true) :
      Turn c .wake (c.startFlush .periodic)
  | acquired (k : Caller) (ws : List Caller) (hf : c.flushOf k = some .locking)
      (hw : c.waiters = k :: ws) (hfree : c.locked = false) (hrun : c.runnable k = true) :
      Turn c (.acquired k) ({ c with waiters := ws }.takeBatch k)
  | committed (k : Caller) (items : List LogEntry) (hf : c.flushOf k = some (.committing items))
      (hrun : c.runnable k = true) :
      Turn c (.committed k) ({ c with locked := false, logs := c.logs ++ items }.resume k)
  | commitFailed (k : Caller) (failure : Failure) (items : List LogEntry)
      (hf : c.flushOf k = some (.committing items)) (hrun : c.runnable k = true) :
      Turn c (.commitFailed k failure)
        ({ c with logs := c.logs ++ if failure.applied then items else []
                  failed := c.failed ++ items
                  expired := c.expired || failure.expires }.suspend k .rollingBack)
  | rolledBack (k : Caller) (hf : c.flushOf k = some .rollingBack)
      (hrun : c.runnable k = true) :
      Turn c (.rolledBack k) ({ c with locked := false, expired := true }.resume k)
  | rollbackRaised (k : Caller) (hf : c.flushOf k = some .rollingBack)
      (hrun : c.runnable k = true) :
      Turn c (.rollbackRaised k) ({ c with locked := false, expired := true }.escape k)
  | cancelled (applied : Bool) (d : Channel) (hm : c.handler = .joining)
      (hd : deliverCancel applied c = some d) : Turn c (.cancelled applied) d
  | joined (hm : c.handler = .joining) (hp : c.periodic = .cancelled) :
      Turn c .joined (c.startFlush .final)
  | joinRaised (hm : c.handler = .joining) (hp : c.periodic = .raised) :
      Turn c .joined { c with handler := .closed }

theorem deliverCancel_frame {c c' : Channel} {applied : Bool}
    (h : deliverCancel applied c = some c') : c'.serverId = c.serverId ∧
      c'.received = c.received ∧ c'.failed = c.failed ∧ c'.handler = c.handler := by
  cases deliverCancel_cancelled h with
  | _ => exact ⟨rfl, rfl, rfl, rfl⟩

theorem step_turn {c c' : Channel} {l : Label} (h : step c l = some c') : Turn c l c' := by
  cases l with
  | receive line =>
    cases hm : c.handler with
    | receiving =>
      simp only [step, hm] at h
      split at h
      · next hexp => exact Option.some.inj h ▸ .dropped line hm hexp
      · next hread => exact Option.some.inj h ▸ .receive line hm (by simpa using hread)
    | _ => simp [step, hm] at h
  | broadcasted =>
    cases hm : c.handler with
    | broadcasting =>
      simp only [step, hm] at h
      split at h
      · next hfull => exact Option.some.inj h ▸ .full hm hfull
      · next hroom => exact Option.some.inj h ▸ .broadcasted hm hroom
    | _ => simp [step, hm] at h
  | disconnect =>
    cases hm : c.handler with
    | receiving =>
      simp only [step, hm, Option.some.injEq] at h
      exact h ▸ .disconnect hm
    | _ => simp [step, hm] at h
  | wake =>
    cases hp : c.periodic with
    | sleeping =>
      simp only [step, hp] at h
      split at h
      · next hrun => exact Option.some.inj h ▸ .wake hp hrun
      · cases h
    | _ => simp [step, hp] at h
  | acquired k =>
    simp only [step] at h
    split at h
    · next w ws hf hw =>
      split at h
      · next hok =>
        obtain ⟨hfree, rfl, hrun⟩ := hok
        exact Option.some.inj h ▸ .acquired w ws hf hw hfree hrun
      · cases h
    · cases h
  | committed k =>
    simp only [step] at h
    split at h
    · next items hf =>
      split at h
      · next hrun => exact Option.some.inj h ▸ .committed k items hf hrun
      · cases h
    · cases h
  | commitFailed k failure =>
    simp only [step] at h
    split at h
    · next items hf =>
      split at h
      · next hrun => exact Option.some.inj h ▸ .commitFailed k failure items hf hrun
      · cases h
    · cases h
  | rolledBack k =>
    simp only [step] at h
    split at h
    · next hf =>
      split at h
      · next hrun => exact Option.some.inj h ▸ .rolledBack k hf hrun
      · cases h
    · cases h
  | rollbackRaised k =>
    simp only [step] at h
    split at h
    · next hf =>
      split at h
      · next hrun => exact Option.some.inj h ▸ .rollbackRaised k hf hrun
      · cases h
    · cases h
  | cancelled applied =>
    cases hm : c.handler with
    | joining =>
      simp only [step, hm] at h
      exact .cancelled applied c' hm h
    | _ => simp [step, hm] at h
  | joined =>
    simp only [step] at h
    split at h
    · next hm hp => exact Option.some.inj h ▸ .joined hm hp
    · next hm hp => exact Option.some.inj h ▸ .joinRaised hm hp
    · cases h

/-! ### The lock

`flush_lock` is a lock of three parties, the three calls of `flush()`; the two of
the handler never overlap. -/

open AsyncLock

def placeOf : Option Flush → Place
  | none => .outside
  | some .locking => .waiting
  | some (.committing _) => .inside
  | some .rollingBack => .inside

namespace Channel

def lock (c : Channel) : Lock Caller := ⟨c.locked, c.waiters, fun k => placeOf (c.flushOf k)⟩

def Alone (c : Channel) : Caller → Prop
  | .periodic => True
  | .size => c.flushOf .final = none
  | .final => c.flushOf .size = none

section
variable {c : Channel} {k : Caller}

theorem alone_of_flushOf {f : Flush} (h : c.flushOf k = some f) : c.Alone k := by
  cases k with
  | periodic => trivial
  | size => cases hm : c.handler <;> simp_all [flushOf, Alone]
  | final => cases hm : c.handler <;> simp_all [flushOf, Alone]

theorem lock_suspend (ha : c.Alone k) (f : Flush) : (c.suspend k f).lock =
    ⟨c.locked, c.waiters, Function.update c.lock.place k (placeOf (some f))⟩ := by
  cases k <;> simp only [suspend, lock, Lock.mk.injEq, true_and] <;> funext j <;>
    cases j <;> simp_all [flushOf, Alone, Function.update, placeOf]

theorem lock_resume (ha : c.Alone k) : (c.resume k).lock =
    ⟨c.locked, c.waiters, Function.update c.lock.place k .outside⟩ := by
  cases k <;> simp only [resume, lock, Lock.mk.injEq, true_and] <;> funext j <;>
    cases j <;> simp_all [flushOf, Alone, Function.update, placeOf]

theorem lock_escape (ha : c.Alone k) : (c.escape k).lock =
    ⟨c.locked, c.waiters, Function.update c.lock.place k .outside⟩ := by
  cases k <;> simp only [escape, lock, Lock.mk.injEq, true_and] <;> funext j <;>
    cases j <;> simp_all [flushOf, Alone, Function.update, placeOf]

theorem lock_startFlush (ha : c.Alone k) (hf : c.flushOf k = none) :
    Move c.lock (c.startFlush k).lock := by
  have hout : c.lock.place k = .outside := by simp [lock, hf, placeOf]
  unfold startFlush
  split
  · next hfree =>
    unfold takeBatch
    split
    · rw [lock_resume ha, ← hout, Function.update_eq_self]
      exact .stay c.lock
    · have ha' : Alone { c with buffer := [], locked := true } k := ha
      rw [lock_suspend ha']
      exact .enter (l := c.lock) k hfree.1 hout
  · have ha' : Alone { c with waiters := c.waiters ++ [k] } k := ha
    rw [lock_suspend ha']
    exact .wait (l := c.lock) k hout

end

end Channel

theorem Cancelled.lock {c c' : Channel} {applied : Bool} (h : Cancelled applied c c') :
    Move c.lock c'.lock := by
  have hplace : ∀ (d : Channel), d.periodic = .cancelled → d.handler = c.handler →
      d.lock.place = Function.update c.lock.place .periodic .outside := by
    intro d hd hm
    funext j
    cases j <;> simp [Channel.lock, Channel.flushOf, hd, hm, placeOf, Function.update]
  cases h with
  | asleep hp =>
    have hout : c.lock.place .periodic = .outside := by
      simp [Channel.lock, Channel.flushOf, hp, placeOf]
    have hs := hplace { c with periodic := .cancelled } rfl rfl
    rw [← hout, Function.update_eq_self] at hs
    have he : Channel.lock { c with periodic := .cancelled } = c.lock :=
      congrArg (Lock.mk c.locked c.waiters) hs
    rw [he]
    exact .stay c.lock
  | locking hp =>
    have hs := hplace
      { c with periodic := .cancelled, waiters := c.waiters.erase .periodic } rfl rfl
    have hmove := Move.giveUp (l := c.lock) .periodic
      (by simp [Channel.lock, Channel.flushOf, hp, placeOf])
    rw [← hs] at hmove
    exact hmove
  | committing items hp =>
    have hs := hplace { c with periodic := .cancelled, locked := false } rfl rfl
    have hmove := Move.leave (l := c.lock) .periodic
      (by simp [Channel.lock, Channel.flushOf, hp, placeOf])
    rw [← hs] at hmove
    exact hmove
  | rollingBack hp =>
    have hs := hplace { c with periodic := .cancelled, locked := false } rfl rfl
    have hmove := Move.leave (l := c.lock) .periodic
      (by simp [Channel.lock, Channel.flushOf, hp, placeOf])
    rw [← hs] at hmove
    exact hmove

theorem Turn.lock {c c' : Channel} {l : Label} (h : Turn c l c') : Move c.lock c'.lock := by
  -- the awaits outside `flush()` do not touch the lock
  have hout : ∀ (m : Handler), (∀ k, c.flushOf k = Channel.flushOf { c with handler := m } k) →
      Move c.lock (Channel.lock { c with handler := m }) := by
    intro m hf
    have he : Channel.lock { c with handler := m } = c.lock := by simp only [Channel.lock, hf]
    rw [he]
    exact .stay c.lock
  cases h with
  | receive line hm => exact hout .broadcasting fun k => by cases k <;> simp [Channel.flushOf, hm]
  | dropped line hm => exact hout .joining fun k => by cases k <;> simp [Channel.flushOf, hm]
  | full hm =>
    exact Channel.lock_startFlush (by simp [Channel.Alone, Channel.flushOf, hm])
      (by simp [Channel.flushOf, hm])
  | broadcasted hm => exact hout .receiving fun k => by cases k <;> simp [Channel.flushOf, hm]
  | disconnect hm => exact hout .joining fun k => by cases k <;> simp [Channel.flushOf, hm]
  | wake hp => exact Channel.lock_startFlush trivial (by simp [Channel.flushOf, hp])
  | acquired k ws hf hw hfree =>
    let c₀ : Channel := { c with waiters := ws }
    have ha : c₀.Alone k := Channel.alone_of_flushOf (c := c) hf
    have hwait : c.lock.place k = .waiting := by simp [Channel.lock, hf, placeOf]
    change Move c.lock (c₀.takeBatch k).lock
    unfold Channel.takeBatch
    split
    · rw [Channel.lock_resume ha]
      have hg := Move.giveUp (l := c.lock) k hwait
      have he : c.lock.waiters.erase k = ws := by simp [Channel.lock, hw]
      rw [he] at hg
      exact hg
    · have ha' : Channel.Alone { c₀ with buffer := [], locked := true } k := ha
      rw [Channel.lock_suspend ha']
      exact .wake (l := c.lock) k ws hw hfree
  | committed k items hf =>
    let c₀ : Channel := { c with locked := false, logs := c.logs ++ items }
    rw [Channel.lock_resume (c := c₀) (Channel.alone_of_flushOf (c := c) hf)]
    exact .leave (l := c.lock) k (by simp [Channel.lock, hf, placeOf])
  | commitFailed k failure items hf =>
    let c₀ : Channel := { c with
      logs := c.logs ++ if failure.applied then items else []
      failed := c.failed ++ items
      expired := c.expired || failure.expires }
    rw [Channel.lock_suspend (c := c₀) (Channel.alone_of_flushOf (c := c) hf)]
    have hin : placeOf (some .rollingBack) = c.lock.place k := by
      simp [Channel.lock, hf, placeOf]
    rw [hin]
    change Move c.lock ⟨c.locked, c.waiters, Function.update c.lock.place k _⟩
    rw [Function.update_eq_self]
    exact .stay c.lock
  | rolledBack k hf =>
    let c₀ : Channel := { c with locked := false, expired := true }
    rw [Channel.lock_resume (c := c₀) (Channel.alone_of_flushOf (c := c) hf)]
    exact .leave (l := c.lock) k (by simp [Channel.lock, hf, placeOf])
  | rollbackRaised k hf =>
    let c₀ : Channel := { c with locked := false, expired := true }
    rw [Channel.lock_escape (c := c₀) (Channel.alone_of_flushOf (c := c) hf)]
    exact .leave (l := c.lock) k (by simp [Channel.lock, hf, placeOf])
  | cancelled applied d hm hd => exact (deliverCancel_cancelled hd).lock
  | joined hm =>
    exact Channel.lock_startFlush (by simp [Channel.Alone, Channel.flushOf, hm])
      (by simp [Channel.flushOf, hm])
  | joinRaised hm => exact hout .closed fun k => by cases k <;> simp [Channel.flushOf, hm]

theorem lock_opened (serverId : ℕ) : Consistent (opened serverId).lock := by
  have he : (opened serverId).lock = ⟨false, [], fun _ => .outside⟩ := by
    simp only [opened, Channel.lock, Lock.mk.injEq, true_and]
    funext k
    cases k <;> rfl
  rw [he]
  exact consistent_idle

/-- The session is never used by two calls of `flush()` at once. -/
theorem session_exclusive {serverId : ℕ} {c : Channel} (h : Reachable step (opened serverId) c)
    {k k' : Caller} (hk : c.lock.place k = .inside) (hk' : c.lock.place k' = .inside) : k = k' := by
  have hinv : Consistent c.lock :=
    reachable_invariant (fun d => Consistent d.lock)
      (fun d l d' hd hs => hd.move (step_turn hs).lock) (lock_opened serverId) h
  exact hinv.exclusive k k' hk hk'

end PulseWatch.LogChannel
