import PulseWatch.LogChannel

/-!
# Delivery of log lines

Each line read is in one place at most: in the buffer, in the batch of a flush,
in the table, among the failures. After the disconnect the connection closes
within five turns, and by then every line is stored exactly once or its batch
was reported as failed, unless the join lost a batch or a line was read after a
rollback (`Safe`).
-/

namespace PulseWatch.LogChannel
open Runs AsyncLock

/-! ### What a step does to the lines -/

namespace Channel

def itemsOf (c : Channel) : Caller → List LogEntry
  | .periodic => c.periodic.items
  | _ => c.handler.items

section
variable (c : Channel) (k : Caller) (f : Flush) (e : LogEntry)

theorem itemsOf_flushOf {c c₀ : Channel} {k : Caller} {f : Flush} (h : c.flushOf k = some f)
    (hm : c₀.handler = c.handler) (hp : c₀.periodic = c.periodic) : c₀.itemsOf k = f.items := by
  cases k with
  | periodic => cases hc : c.periodic <;> simp_all [flushOf, itemsOf, Periodic.items]
  | size => cases hc : c.handler <;> simp_all [flushOf, itemsOf, Handler.items]
  | final => cases hc : c.handler <;> simp_all [flushOf, itemsOf, Handler.items]

theorem held_suspend : (c.suspend k f).held e + (c.itemsOf k).count e =
    c.held e + f.items.count e := by
  cases k <;> simp only [suspend, held, itemsOf, Handler.items, Periodic.items] <;> omega

theorem held_resume : (c.resume k).held e + (c.itemsOf k).count e = c.held e := by
  cases k <;> simp [resume, held, itemsOf, Handler.items, Periodic.items] <;> omega

theorem held_escape : (c.escape k).held e + (c.itemsOf k).count e = c.held e := by
  cases k <;> simp [escape, held, itemsOf, Handler.items, Periodic.items] <;> omega

theorem held_takeBatch (h : c.itemsOf k = []) : (c.takeBatch k).held e = c.held e := by
  unfold takeBatch
  split
  · have hr := held_resume c k e
    simp only [h, List.count_nil] at hr
    omega
  · have hs := held_suspend { c with buffer := [], locked := true } k (.committing c.buffer) e
    have hk : Channel.itemsOf { c with buffer := [], locked := true } k = c.itemsOf k := by
      cases k <;> rfl
    simp only [hk, h, List.count_nil, Flush.items, held] at hs ⊢
    omega

theorem held_startFlush (h : c.itemsOf k = []) : (c.startFlush k).held e = c.held e := by
  unfold startFlush
  split
  · exact held_takeBatch c k e h
  · have hs := held_suspend { c with waiters := c.waiters ++ [k] } k .locking e
    have hk : Channel.itemsOf { c with waiters := c.waiters ++ [k] } k = c.itemsOf k := by
      cases k <;> rfl
    simp only [hk, h, List.count_nil, Flush.items, held] at hs ⊢
    omega

end

/-- The rows, the lines read and the failed batches: what only a few steps change. -/
def Same (c c' : Channel) : Prop :=
  c'.logs = c.logs ∧ c'.received = c.received ∧ c'.failed = c.failed

theorem same_suspend (c : Channel) (k : Caller) (f : Flush) : Same c (c.suspend k f) := by
  cases k <;> exact ⟨rfl, rfl, rfl⟩

theorem same_resume (c : Channel) (k : Caller) : Same c (c.resume k) := by
  cases k <;> exact ⟨rfl, rfl, rfl⟩

theorem same_escape (c : Channel) (k : Caller) : Same c (c.escape k) := by
  cases k <;> exact ⟨rfl, rfl, rfl⟩

theorem same_takeBatch (c : Channel) (k : Caller) : Same c (c.takeBatch k) := by
  unfold takeBatch
  split
  · exact same_resume c k
  · exact same_suspend { c with buffer := [], locked := true } k (.committing c.buffer)

theorem same_startFlush (c : Channel) (k : Caller) : Same c (c.startFlush k) := by
  unfold startFlush
  split
  · exact same_takeBatch c k
  · exact same_suspend { c with waiters := c.waiters ++ [k] } k .locking

end Channel

/- A step moves lines about, reads one, drops one it has read, or settles a batch:
stored or not, reported as failed or not. Neither happens only to a batch whose commit is
cancelled before it is applied. -/
inductive Effect (c c' : Channel) : Label → Prop where
  | moved {l : Label} (same : c.Same c') (held : ∀ e, c'.held e = c.held e) : Effect c c' l
  | read {line : String} (e : LogEntry) (fresh : e.seq = c.received.length)
      (received : c'.received = c.received ++ [e]) (logs : c'.logs = c.logs)
      (failed : c'.failed = c.failed)
      (held : ∀ x, c'.held x = c.held x + [e].count x) : Effect c c' (.receive line)
  | dropped {line : String} (e : LogEntry) (fresh : e.seq = c.received.length)
      (expired : c.expired = true) (received : c'.received = c.received ++ [e])
      (logs : c'.logs = c.logs) (failed : c'.failed = c.failed)
      (held : ∀ x, c'.held x = c.held x) : Effect c c' (.receive line)
  | settled {l : Label} (items : List LogEntry) (stored reported : Bool)
      (received : c'.received = c.received)
      (logs : c'.logs = c.logs ++ if stored then items else [])
      (failed : c'.failed = c.failed ++ if reported then items else [])
      (held : ∀ x, c.held x = c'.held x + items.count x)
      (known : stored = true ∨ reported = true ∨
        (l = .cancelled false ∧ c.periodic = .flushing (.committing items))) : Effect c c' l

/- A batch leaves `flush()` through `resume`, `escape` or the rollback. -/
theorem Effect.of_settle {c c₀ c' : Channel} {l : Label} {items : List LogEntry}
    (stored reported : Bool) (hs : c₀.Same c') (hr : c₀.received = c.received)
    (hl : c₀.logs = c.logs ++ if stored then items else [])
    (hf : c₀.failed = c.failed ++ if reported then items else [])
    (hh : ∀ x, c.held x = c'.held x + items.count x)
    (hk : stored = true ∨ reported = true ∨
      (l = .cancelled false ∧ c.periodic = .flushing (.committing items))) : Effect c c' l :=
  .settled items stored reported (hs.2.1.trans hr) (hs.1.trans hl) (hs.2.2.trans hf) hh hk

theorem Cancelled.effect {c c' : Channel} {applied : Bool} (h : Cancelled applied c c') :
    Effect c c' (.cancelled applied) := by
  cases h with
  | asleep hp =>
    exact .moved ⟨rfl, rfl, rfl⟩ fun e => by simp [Channel.held, Periodic.items, hp]
  | locking hp | rollingBack hp =>
    exact .moved ⟨rfl, rfl, rfl⟩ fun e => by simp [Channel.held, Periodic.items, Flush.items, hp]
  | committing items hp =>
    refine .settled items applied false rfl rfl (by simp) (fun x => ?_) ?_
    · simp only [Channel.held, Periodic.items, Flush.items, hp, List.count_nil]
      omega
    · cases applied with
      | true => exact Or.inl rfl
      | false => exact Or.inr (Or.inr ⟨rfl, hp⟩)

theorem Turn.effect {c c' : Channel} {l : Label} (h : Turn c l c') : Effect c c' l := by
  cases h with
  | receive line hm =>
    refine .read ⟨c.received.length, c.serverId, line⟩ rfl rfl rfl rfl fun x => ?_
    simp only [Channel.held, hm, Handler.items, List.count_append, List.count_nil]
    omega
  | dropped line hm hexp =>
    refine .dropped ⟨c.received.length, c.serverId, line⟩ rfl hexp rfl rfl rfl fun x => ?_
    simp [Channel.held, hm, Handler.items]
  | full hm =>
    refine .moved (c.same_startFlush .size) fun e => c.held_startFlush .size e ?_
    simp [Channel.itemsOf, hm, Handler.items]
  | broadcasted hm =>
    exact .moved ⟨rfl, rfl, rfl⟩ fun e => by simp [Channel.held, hm, Handler.items]
  | disconnect hm =>
    exact .moved ⟨rfl, rfl, rfl⟩ fun e => by simp [Channel.held, hm, Handler.items]
  | wake hp =>
    refine .moved (c.same_startFlush .periodic) fun e => c.held_startFlush .periodic e ?_
    simp [Channel.itemsOf, hp, Periodic.items]
  | acquired k ws hf =>
    let c₀ : Channel := { c with waiters := ws }
    have hi : c₀.itemsOf k = [] := Channel.itemsOf_flushOf hf rfl rfl
    exact .moved (c₀.same_takeBatch k) fun e => c₀.held_takeBatch k e hi
  | committed k items hf =>
    let c₀ : Channel := { c with locked := false, logs := c.logs ++ items }
    have hi : c₀.itemsOf k = items := Channel.itemsOf_flushOf hf rfl rfl
    refine .of_settle true false (c₀.same_resume k) rfl rfl (by simp [c₀])
      (fun x => ?_) (Or.inl rfl)
    have hr := c₀.held_resume k x
    rw [hi] at hr
    exact hr.symm
  | commitFailed k failure items hf =>
    let c₀ : Channel := { c with
      logs := c.logs ++ if failure.applied then items else []
      failed := c.failed ++ items
      expired := c.expired || failure.expires }
    have hi : c₀.itemsOf k = items := Channel.itemsOf_flushOf hf rfl rfl
    refine .of_settle failure.applied true (c₀.same_suspend k .rollingBack) rfl rfl
      (by simp [c₀]) (fun x => ?_) (Or.inr (Or.inl rfl))
    have hs := c₀.held_suspend k .rollingBack x
    rw [hi] at hs
    exact hs.symm
  | rolledBack k hf =>
    let c₀ : Channel := { c with locked := false, expired := true }
    have hi : c₀.itemsOf k = [] := Channel.itemsOf_flushOf hf rfl rfl
    refine .moved (c₀.same_resume k) fun e => ?_
    have hr := c₀.held_resume k e
    rw [hi] at hr
    exact hr
  | rollbackRaised k hf =>
    let c₀ : Channel := { c with locked := false, expired := true }
    have hi : c₀.itemsOf k = [] := Channel.itemsOf_flushOf hf rfl rfl
    refine .moved (c₀.same_escape k) fun e => ?_
    have hr := c₀.held_escape k e
    rw [hi] at hr
    exact hr
  | cancelled applied d hm hd => exact (deliverCancel_cancelled hd).effect
  | joined hm =>
    refine .moved (c.same_startFlush .final) fun e => c.held_startFlush .final e ?_
    simp [Channel.itemsOf, hm, Handler.items]
  | joinRaised hm =>
    exact .moved ⟨rfl, rfl, rfl⟩ fun e => by simp [Channel.held, hm, Handler.items]

/-! ### The ledger of the lines -/

/- Each line read is in one place at most: on its way, or stored, or reported. -/
structure Ledger (c : Channel) : Prop where
  numbered : ∀ e ∈ c.received, e.seq < c.received.length
  known : ∀ e, e ∉ c.received → c.held e + c.logs.count e + c.failed.count e = 0
  once : ∀ e, c.held e + c.logs.count e ≤ 1
  apart : ∀ e, c.held e + c.failed.count e ≤ 1

theorem Ledger.opened (serverId : ℕ) : Ledger (opened serverId) :=
  ⟨by simp [LogChannel.opened], by simp [LogChannel.opened, Channel.held, Handler.items,
    Periodic.items], by simp [LogChannel.opened, Channel.held, Handler.items, Periodic.items],
    by simp [LogChannel.opened, Channel.held, Handler.items, Periodic.items]⟩

theorem count_ite_le (b : Bool) (items : List LogEntry) (x : LogEntry) :
    (if b then items else []).count x ≤ items.count x := by
  cases b <;> simp

/- A line that is new to the connection. -/
theorem Ledger.fresh {c : Channel} (hi : Ledger c) {e : LogEntry}
    (he : e.seq = c.received.length) : e ∉ c.received := by
  intro hmem
  have hlt := hi.numbered e hmem
  omega

theorem Ledger.numbered_snoc {c : Channel} (hi : Ledger c) {e : LogEntry}
    (he : e.seq = c.received.length) :
    ∀ x ∈ c.received ++ [e], x.seq < (c.received ++ [e]).length := by
  intro x hx
  rw [List.length_append, List.length_singleton]
  rcases List.mem_append.mp hx with hx | hx
  · have hlt := hi.numbered x hx
    omega
  · rw [List.mem_singleton.mp hx, he]
    omega

theorem Ledger.effect {c c' : Channel} {l : Label} (hi : Ledger c) (h : Effect c c' l) :
    Ledger c' := by
  cases h with
  | moved same held =>
    obtain ⟨hl, hr, hf⟩ := same
    refine ⟨?_, fun e he => ?_, fun e => ?_, fun e => ?_⟩
    · rw [hr]
      exact hi.numbered
    · rw [held, hl, hf]
      exact hi.known e (hr ▸ he)
    · rw [held, hl]
      exact hi.once e
    · rw [held, hf]
      exact hi.apart e
  | read e fresh received logs failed held =>
    have hzero := hi.known e (hi.fresh fresh)
    refine ⟨received ▸ hi.numbered_snoc fresh, fun x hx => ?_, fun x => ?_, fun x => ?_⟩
    · rw [received, List.mem_append, not_or] at hx
      have hk := hi.known x hx.1
      rw [held, logs, failed, List.count_eq_zero_of_not_mem hx.2]
      omega
    · have ho := hi.once x
      rw [held, logs]
      by_cases hx : x = e
      · subst hx
        rw [List.count_singleton_self]
        omega
      · rw [List.count_eq_zero_of_not_mem (by simpa using hx)]
        omega
    · have ha := hi.apart x
      rw [held, failed]
      by_cases hx : x = e
      · subst hx
        rw [List.count_singleton_self]
        omega
      · rw [List.count_eq_zero_of_not_mem (by simpa using hx)]
        omega
  | dropped e fresh expired received logs failed held =>
    refine ⟨received ▸ hi.numbered_snoc fresh, fun x hx => ?_, fun x => ?_, fun x => ?_⟩
    · rw [received, List.mem_append, not_or] at hx
      rw [held, logs, failed]
      exact hi.known x hx.1
    · rw [held, logs]
      exact hi.once x
    · rw [held, failed]
      exact hi.apart x
  | settled items stored reported received logs failed held known =>
    refine ⟨?_, fun x hx => ?_, fun x => ?_, fun x => ?_⟩
    · rw [received]
      exact hi.numbered
    · have hk := hi.known x (received ▸ hx)
      have hh := held x
      have h1 := count_ite_le stored items x
      have h2 := count_ite_le reported items x
      rw [logs, failed, List.count_append, List.count_append]
      omega
    · have ho := hi.once x
      have hh := held x
      have h1 := count_ite_le stored items x
      rw [logs, List.count_append]
      omega
    · have ha := hi.apart x
      have hh := held x
      have h1 := count_ite_le reported items x
      rw [failed, List.count_append]
      omega

/-! ### The end of a connection -/

def Handler.live : Handler → Bool
  | .finalFlush _ => false
  | .closed => false
  | _ => true

section
variable {c : Channel} {k : Caller}

theorem live_suspend (h : c.handler.live = true) (hk : k ≠ .final) (f : Flush) :
    (c.suspend k f).handler.live = true := by
  cases k <;> simp_all [Channel.suspend, Handler.live]

theorem live_resume (h : c.handler.live = true) (hk : k ≠ .final) :
    (c.resume k).handler.live = true := by
  cases k <;> simp_all [Channel.resume, Handler.live]

theorem live_escape (h : c.handler.live = true) (hk : k ≠ .final) :
    (c.escape k).handler.live = true := by
  cases k <;> simp_all [Channel.escape, Handler.live]

theorem live_takeBatch (h : c.handler.live = true) (hk : k ≠ .final) :
    (c.takeBatch k).handler.live = true := by
  unfold Channel.takeBatch
  split
  · exact live_resume h hk
  · exact live_suspend (c := { c with buffer := [], locked := true }) h hk _

theorem live_startFlush (h : c.handler.live = true) (hk : k ≠ .final) :
    (c.startFlush k).handler.live = true := by
  unfold Channel.startFlush
  split
  · exact live_takeBatch h hk
  · exact live_suspend (c := { c with waiters := c.waiters ++ [k] }) h hk _

end

theorem deliverCancel_ends {c c' : Channel} {applied : Bool}
    (h : deliverCancel applied c = some c') : c'.handler = c.handler ∧ c'.periodic = .cancelled ∧
      ¬ (c.periodic = .cancelled ∨ c.periodic = .raised) := by
  refine ⟨(deliverCancel_frame h).2.2.2, ?_⟩
  cases deliverCancel_cancelled h with
  | asleep hp | locking hp | rollingBack hp => exact ⟨rfl, by simp [hp]⟩
  | committing items hp => exact ⟨rfl, by simp [hp]⟩

theorem flushOf_final {c : Channel} {f : Flush} (h : c.flushOf .final = some f) :
    c.handler = .finalFlush f := by
  cases hm : c.handler <;> simp_all [Channel.flushOf]

/- After the join the periodic task is over. The last flush finds the lock idle and
takes all there is; only the join of a dead task ends the handler without it,
which `strict` runs do with an empty buffer. -/
structure Ending (strict : Prop) (c : Channel) : Prop where
  lock : Consistent c.lock
  final : ∀ f, c.handler = .finalFlush f → f ≠ .locking ∧ c.periodic = .cancelled ∧ c.buffer = []
  closed : c.handler = .closed →
    (c.periodic = .cancelled ∧ c.buffer = []) ∨ (c.periodic = .raised ∧ (strict → c.buffer = []))

section
variable {strict : Prop} {c c' : Channel} {l : Label}

theorem Ending.of_live (hl : Consistent c.lock) (h : c.handler.live = true) :
    Ending strict c := by
  refine ⟨hl, fun f hf => ?_, fun hc => ?_⟩
  · simp [hf, Handler.live] at h
  · simp [hc, Handler.live] at h

theorem Ending.opened (serverId : ℕ) : Ending strict (opened serverId) :=
  .of_live (lock_opened serverId) rfl

/- Outside the last flush, a call of `flush()` goes on only in a live handler. -/
theorem Ending.live (hi : Ending strict c) {k : Caller} {f : Flush}
    (hf : c.flushOf k = some f) (hk : k ≠ .final) : c.handler.live = true := by
  cases k with
  | final => exact absurd rfl hk
  | size => cases hm : c.handler <;> simp_all [Channel.flushOf, Handler.live]
  | periodic =>
    have hp : c.periodic = .flushing f := by
      cases hc : c.periodic <;> simp_all [Channel.flushOf]
    cases hm : c.handler with
    | finalFlush g =>
      have hc := (hi.final g hm).2.1
      simp [hp] at hc
    | closed =>
      have hc := hi.closed hm
      simp [hp] at hc
    | _ => rfl

theorem Ending.awake (hi : Ending strict c) (hp : c.periodic = .sleeping) :
    c.handler.live = true := by
  cases hm : c.handler with
  | finalFlush g =>
    have hc := (hi.final g hm).2.1
    simp [hp] at hc
  | closed =>
    have hc := hi.closed hm
    simp [hp] at hc
  | _ => rfl

/- The join of a cancelled task leaves nobody at the lock. -/
theorem Ending.idle (hi : Ending strict c) (hm : c.handler = .joining)
    (hp : c.periodic = .cancelled) : c.startFlush .final = c.takeBatch .final := by
  have hidle := hi.lock.idle fun k => by
    cases k <;> simp [Channel.lock, Channel.flushOf, hm, hp, placeOf]
  exact if_pos hidle

theorem Ending.turn (hi : Ending strict c) (hs : strict → Safe c l) (h : Turn c l c') :
    Ending strict c' := by
  have hl : Consistent c'.lock := hi.lock.move h.lock
  cases h with
  | receive line hm => exact .of_live hl rfl
  | dropped line hm => exact .of_live hl rfl
  | full hm => exact .of_live hl (live_startFlush (by simp [hm, Handler.live]) (by simp))
  | broadcasted hm => exact .of_live hl rfl
  | disconnect hm => exact .of_live hl rfl
  | wake hp => exact .of_live hl (live_startFlush (hi.awake hp) (by simp))
  | acquired k ws hf =>
    by_cases hk : k = .final
    · subst hk
      exact absurd rfl (hi.final _ (flushOf_final hf)).1
    · exact .of_live hl (live_takeBatch (c := { c with waiters := ws }) (hi.live hf hk) hk)
  | committed k items hf =>
    by_cases hk : k = .final
    · subst hk
      obtain ⟨-, hp, hb⟩ := hi.final _ (flushOf_final hf)
      exact ⟨hl, fun f hf => by simp [Channel.resume] at hf, fun _ => Or.inl ⟨hp, hb⟩⟩
    · exact .of_live hl (live_resume (c := { c with locked := false, logs := c.logs ++ items })
        (hi.live hf hk) hk)
  | commitFailed k failure items hf =>
    by_cases hk : k = .final
    · subst hk
      obtain ⟨-, hp, hb⟩ := hi.final _ (flushOf_final hf)
      refine ⟨hl, fun f hf => ⟨?_, hp, hb⟩, fun hc => by simp [Channel.suspend] at hc⟩
      simp only [Channel.suspend, Handler.finalFlush.injEq] at hf
      simp [← hf]
    · refine .of_live hl (live_suspend ?_ hk _)
      exact hi.live hf hk
  | rolledBack k hf =>
    by_cases hk : k = .final
    · subst hk
      obtain ⟨-, hp, hb⟩ := hi.final _ (flushOf_final hf)
      exact ⟨hl, fun f hf => by simp [Channel.resume] at hf, fun _ => Or.inl ⟨hp, hb⟩⟩
    · exact .of_live hl (live_resume (c := { c with locked := false, expired := true })
        (hi.live hf hk) hk)
  | rollbackRaised k hf =>
    by_cases hk : k = .final
    · subst hk
      obtain ⟨-, hp, hb⟩ := hi.final _ (flushOf_final hf)
      exact ⟨hl, fun f hf => by simp [Channel.escape] at hf, fun _ => Or.inl ⟨hp, hb⟩⟩
    · exact .of_live hl (live_escape (c := { c with locked := false, expired := true })
        (hi.live hf hk) hk)
  | cancelled applied d hm hd =>
    refine .of_live hl ?_
    rw [(deliverCancel_ends hd).1, hm]
    rfl
  | joined hm hp =>
    rw [hi.idle hm hp] at hl ⊢
    by_cases hb : c.buffer = []
    · rw [show c.takeBatch .final = c.resume .final from if_pos hb] at hl ⊢
      exact ⟨hl, fun f hf => by simp [Channel.resume] at hf, fun _ => Or.inl ⟨hp, hb⟩⟩
    · rw [show c.takeBatch .final = _ from if_neg hb] at hl ⊢
      refine ⟨hl, fun f hf => ⟨?_, hp, rfl⟩, fun hc => by simp [Channel.suspend] at hc⟩
      simp only [Channel.suspend, Handler.finalFlush.injEq] at hf
      simp [← hf]
  | joinRaised hm hp =>
    exact ⟨hl, fun f hf => (by simp at hf), fun _ => Or.inr ⟨hp, fun h => hs h hp⟩⟩

end

/-! ### Closing -/

/-- `receive_text` has raised, or a rollback has: the handler is in its `finally`. -/
def Channel.Disconnected (c : Channel) : Prop := c.handler = .joining ∨ c.handler.live = false

/- Turns left then, at most. -/
def remaining (c : Channel) : ℕ :=
  match c.handler with
  | .joining => if c.periodic = .cancelled ∨ c.periodic = .raised then 4 else 5
  | .finalFlush .locking => 3
  | .finalFlush (.committing _) => 2
  | .finalFlush .rollingBack => 1
  | .closed => 0
  | _ => 6

section
variable {strict : Prop} {c c' : Channel} {l : Label}

theorem remaining_takeBatch (c : Channel) : remaining (c.takeBatch .final) ≤ 2 := by
  unfold Channel.takeBatch
  split <;> simp [remaining, Channel.resume, Channel.suspend]

/- Which flush can go on after the disconnect: the last one only. -/
theorem Ending.last (hi : Ending strict c) (hd : c.Disconnected) {k : Caller} {f : Flush}
    (hf : c.flushOf k = some f) (hrun : c.runnable k = true) : k = .final := by
  by_contra hk
  have hl := hi.live hf hk
  rcases hd with hm | hn
  · cases k with
    | final => exact hk rfl
    | size => simp [Channel.flushOf, hm] at hf
    | periodic => simp [Channel.runnable, hm] at hrun
  · rw [hn] at hl
    cases hl

theorem remaining_turn (hi : Ending strict c) (hd : c.Disconnected) (h : Turn c l c') :
    remaining c' < remaining c ∧ c'.Disconnected := by
  cases h with
  | receive line hm => simp [Channel.Disconnected, hm, Handler.live] at hd
  | dropped line hm => simp [Channel.Disconnected, hm, Handler.live] at hd
  | full hm => simp [Channel.Disconnected, hm, Handler.live] at hd
  | broadcasted hm => simp [Channel.Disconnected, hm, Handler.live] at hd
  | disconnect hm => simp [Channel.Disconnected, hm, Handler.live] at hd
  | wake hp hrun =>
    have hl := hi.awake hp
    rcases hd with hm | hn
    · simp [Channel.runnable, hm] at hrun
    · simp [hn] at hl
  | acquired k ws hf hw hfree hrun =>
    have hk := hi.last hd hf hrun
    subst hk
    exact absurd rfl (hi.final _ (flushOf_final hf)).1
  | committed k items hf hrun =>
    have hk := hi.last hd hf hrun
    subst hk
    simp [remaining, flushOf_final hf, Channel.resume, Channel.Disconnected, Handler.live]
  | commitFailed k failure items hf hrun =>
    have hk := hi.last hd hf hrun
    subst hk
    simp [remaining, flushOf_final hf, Channel.suspend, Channel.Disconnected, Handler.live]
  | rolledBack k hf hrun =>
    have hk := hi.last hd hf hrun
    subst hk
    simp [remaining, flushOf_final hf, Channel.resume, Channel.Disconnected, Handler.live]
  | rollbackRaised k hf hrun =>
    have hk := hi.last hd hf hrun
    subst hk
    simp [remaining, flushOf_final hf, Channel.escape, Channel.Disconnected, Handler.live]
  | cancelled applied d hm hd' =>
    obtain ⟨hsame, hlive, hend⟩ := deliverCancel_ends hd'
    simp [remaining, hsame, hm, hend, hlive, Channel.Disconnected]
  | joined hm hp =>
    rw [hi.idle hm hp]
    have hle := remaining_takeBatch c
    have hfour : remaining c = 4 := by simp [remaining, hm, hp]
    refine ⟨by omega, Or.inr ?_⟩
    unfold Channel.takeBatch
    split <;> rfl
  | joinRaised hm hp => simp [remaining, hm, hp, Channel.Disconnected, Handler.live]

theorem remaining_disconnected (hd : c.Disconnected) : remaining c ≤ 5 := by
  rcases hd with hm | hn
  · simp only [remaining, hm]
    split <;> omega
  · cases hm : c.handler with
    | finalFlush f => cases f <;> simp [remaining, hm]
    | closed => simp [remaining, hm]
    | _ => simp [hm, Handler.live] at hn

theorem remaining_run {ms : List Label} {d : Channel} (hi : Ending False c)
    (hd : c.Disconnected) (h : run step c ms = some d) : ms.length + remaining d ≤ remaining c := by
  induction ms generalizing c with
  | nil =>
    have he : c = d := Option.some.inj h
    simp [he]
  | cons m ms ih =>
    obtain ⟨t, ht, hrest⟩ := run_cons h
    have hturn := step_turn ht
    obtain ⟨hlt, hd'⟩ := remaining_turn hi hd hturn
    have hle := ih (hi.turn (fun hf => hf.elim) hturn) hd' hrest
    rw [List.length_cons]
    omega

theorem Ending.progress (hi : Ending strict c) (hd : c.Disconnected)
    (hopen : c.handler ≠ .closed) : ∃ l c', step c l = some c' := by
  cases hm : c.handler with
  | joining =>
    cases hp : c.periodic with
    | sleeping => exact ⟨.cancelled true, _, by simp only [step, hm, deliverCancel, hp]; rfl⟩
    | flushing f =>
      cases f <;> exact ⟨.cancelled true, _, by simp only [step, hm, deliverCancel, hp]; rfl⟩
    | cancelled => exact ⟨.joined, _, by simp only [step, hm, hp]; rfl⟩
    | raised => exact ⟨.joined, _, by simp only [step, hm, hp]; rfl⟩
  | finalFlush f =>
    have hf : c.flushOf .final = some f := by simp [Channel.flushOf, hm]
    cases f with
    | locking => exact absurd rfl (hi.final _ hm).1
    | committing items =>
      exact ⟨.committed .final, _, by simp only [step, hf, Channel.runnable]; rfl⟩
    | rollingBack => exact ⟨.rolledBack .final, _, by simp only [step, hf, Channel.runnable]; rfl⟩
  | closed => exact absurd hm hopen
  | _ => simp [Channel.Disconnected, hm, Handler.live] at hd

end

/-! ### No line is lost -/

/- The batch of a flush is not empty. -/
def Full (c : Channel) : Prop :=
  ∀ k items, c.flushOf k = some (.committing items) → items ≠ []

section
variable {c : Channel}

theorem Full.suspend (hi : Full c) (k : Caller) {f : Flush}
    (hf : ∀ items, f = .committing items → items ≠ []) : Full (c.suspend k f) := by
  intro j items hj
  have hcases : some f = some (.committing items) ∨ c.flushOf j = some (.committing items) := by
    cases k <;> cases j <;> simp_all [Channel.suspend, Channel.flushOf]
  rcases hcases with h | h
  · exact hf items (Option.some.inj h)
  · exact hi j items h

theorem Full.resume (hi : Full c) (k : Caller) : Full (c.resume k) := by
  intro j items hj
  refine hi j items ?_
  cases k <;> cases j <;> simp_all [Channel.resume, Channel.flushOf]

theorem Full.escape (hi : Full c) (k : Caller) : Full (c.escape k) := by
  intro j items hj
  refine hi j items ?_
  cases k <;> cases j <;> simp_all [Channel.escape, Channel.flushOf]

theorem Full.takeBatch (hi : Full c) (k : Caller) : Full (c.takeBatch k) := by
  unfold Channel.takeBatch
  split
  · exact hi.resume k
  · next hb =>
    refine Full.suspend (c := { c with buffer := [], locked := true }) hi k fun items hf => ?_
    exact Flush.committing.inj hf ▸ hb

theorem Full.startFlush (hi : Full c) (k : Caller) : Full (c.startFlush k) := by
  unfold Channel.startFlush
  split
  · exact hi.takeBatch k
  · exact Full.suspend (c := { c with waiters := c.waiters ++ [k] }) hi k (by simp)

/- The handler is outside a flush, and the periodic task has at most the batch it had. -/
theorem Full.quiet (hi : Full c) {d : Channel} (hsize : d.flushOf .size = none)
    (hfinal : d.flushOf .final = none)
    (hperiodic : d.flushOf .periodic = none ∨ d.flushOf .periodic = c.flushOf .periodic) :
    Full d := by
  intro k items hk
  cases k with
  | size => cases hsize.symm.trans hk
  | final => cases hfinal.symm.trans hk
  | periodic =>
    rcases hperiodic with hnone | hsame
    · cases hnone.symm.trans hk
    · exact hi .periodic items (hsame.symm.trans hk)

theorem Full.turn {c' : Channel} {l : Label} (hi : Full c) (h : Turn c l c') : Full c' := by
  cases h with
  | receive line hm => exact hi.quiet rfl rfl (.inr rfl)
  | dropped line hm => exact hi.quiet rfl rfl (.inr rfl)
  | full hm => exact hi.startFlush .size
  | broadcasted hm => exact hi.quiet rfl rfl (.inr rfl)
  | disconnect hm => exact hi.quiet rfl rfl (.inr rfl)
  | wake hp => exact hi.startFlush .periodic
  | acquired k ws => exact Full.takeBatch (c := { c with waiters := ws }) hi k
  | committed k items =>
    exact Full.resume (c := { c with locked := false, logs := c.logs ++ items }) hi k
  | commitFailed k failure items =>
    refine Full.suspend ?_ k (by simp)
    exact hi
  | rolledBack k => exact Full.resume (c := { c with locked := false, expired := true }) hi k
  | rollbackRaised k => exact Full.escape (c := { c with locked := false, expired := true }) hi k
  | cancelled applied d hm hd =>
    obtain ⟨hsame, hended, -⟩ := deliverCancel_ends hd
    have hjoining : c'.handler = .joining := hsame.trans hm
    refine hi.quiet ?_ ?_ (.inl ?_)
    · rw [Channel.flushOf, hjoining]
    · rw [Channel.flushOf, hjoining]
    · rw [Channel.flushOf, hended]
  | joined hm => exact hi.startFlush .final
  | joinRaised hm => exact hi.quiet rfl rfl (.inr rfl)

end

/- Each line read is on its way, stored or reported. -/
def Covered (c : Channel) : Prop :=
  ∀ e ∈ c.received, 1 ≤ c.held e + c.logs.count e + c.failed.count e

theorem Covered.effect {c c' : Channel} {l : Label} (hi : Covered c) (hs : Safe c l)
    (h : Effect c c' l) : Covered c' := by
  intro x hx
  cases h with
  | moved same held =>
    obtain ⟨hl, hr, hf⟩ := same
    rw [held, hl, hf]
    exact hi x (hr ▸ hx)
  | read e fresh received logs failed held =>
    rw [held, logs, failed]
    rw [received, List.mem_append, List.mem_singleton] at hx
    rcases hx with hx | rfl
    · have hc := hi x hx
      omega
    · rw [List.count_singleton_self]
      omega
  | dropped e fresh expired => exact absurd (expired.symm.trans hs) (by decide)
  | settled items stored reported received logs failed held known =>
    have hc := hi x (received ▸ hx)
    have hh := held x
    rw [logs, failed, List.count_append, List.count_append]
    rcases known with hk | hk | ⟨rfl, hp⟩
    · simp only [hk, if_true]
      omega
    · simp only [hk, if_true]
      omega
    · have hf := hs items hp
      cases hf

/- The damage of an unsafe turn: a line that is nowhere, or lines left in the
buffer of a closed connection. -/
def Damaged (c : Channel) : Prop :=
  (∃ e ∈ c.received, c.held e + c.logs.count e + c.failed.count e = 0) ∨
    (c.handler = .closed ∧ c.buffer ≠ [])

/- What holds along every run. -/
structure Sound (c : Channel) : Prop where
  ledger : Ledger c
  ending : Ending False c
  full : Full c

theorem Sound.opened (serverId : ℕ) : Sound (opened serverId) :=
  ⟨.opened serverId, .opened serverId, fun k items h => by cases k <;> cases h⟩

theorem Sound.turn {c c' : Channel} {l : Label} (hi : Sound c) (h : Turn c l c') : Sound c' :=
  ⟨hi.ledger.effect h.effect, hi.ending.turn (fun hf => hf.elim) h, hi.full.turn h⟩

theorem Damaged.of_loss {c c' : Channel} {l : Label} (hi : Sound c) (hs : ¬ Safe c l)
    (h : Turn c l c') : Damaged c' := by
  cases h with
  | receive line hm hread => exact absurd hread hs
  | dropped line hm hexp =>
    have hz := hi.ledger.known ⟨c.received.length, c.serverId, line⟩ (hi.ledger.fresh rfl)
    refine Or.inl ⟨_, List.mem_append_right _ (List.mem_singleton_self _), ?_⟩
    simpa [Channel.held, hm, Handler.items] using hz
  | cancelled applied d hm hd =>
    simp only [Safe, not_forall, Bool.not_eq_true] at hs
    obtain ⟨items, hp, rfl⟩ := hs
    have hk : c.flushOf .periodic = some (.committing items) := by simp [Channel.flushOf, hp]
    obtain ⟨e, he⟩ := List.exists_mem_of_ne_nil items (hi.full _ _ hk)
    simp only [deliverCancel, hp, Option.some.injEq] at hd
    have hpos := List.count_pos_iff.mpr he
    have hheld : c.held e = c.buffer.count e + (c.handler.items.count e + items.count e) := by
      simp [Channel.held, hp, Periodic.items, Flush.items]
    have hone := hi.ledger.once e
    have hapart := hi.ledger.apart e
    refine Or.inl ⟨e, ?_, ?_⟩
    · rw [← hd]
      by_contra hn
      have hz := hi.ledger.known e hn
      omega
    · rw [← hd]
      simp only [Channel.held, Periodic.items, Bool.false_eq_true, if_false, List.append_nil,
        List.count_nil]
      omega
  | joinRaised hm hp =>
    have hb : c.buffer ≠ [] := fun h => hs fun _ => h
    exact Or.inr ⟨rfl, hb⟩
  | joined hm hp => exact absurd (fun h => by simp [hp] at h) hs
  | _ => exact absurd trivial hs

theorem Damaged.turn {c c' : Channel} {l : Label} (hi : Sound c) (hd : Damaged c)
    (h : Turn c l c') : Damaged c' := by
  rcases hd with ⟨e, he, hz⟩ | ⟨hc, hb⟩
  · refine Or.inl ⟨e, ?_, ?_⟩
    · cases h.effect with
      | moved same held => exact same.2.1 ▸ he
      | read e' fresh received => exact received ▸ List.mem_append_left _ he
      | dropped e' fresh expired received => exact received ▸ List.mem_append_left _ he
      | settled items stored reported received => exact received ▸ he
    · cases h.effect with
      | moved same held =>
        rw [held, same.1, same.2.2]
        exact hz
      | read e' fresh received logs failed held =>
        have hne : e ≠ e' := by
          rintro rfl
          exact hi.ledger.fresh fresh he
        rw [held, logs, failed, List.count_eq_zero_of_not_mem (by simpa using hne)]
        exact hz
      | dropped e' fresh expired received logs failed held =>
        rw [held, logs, failed]
        exact hz
      | settled items stored reported received logs failed held =>
        have hh := held e
        have h1 := count_ite_le stored items e
        have h2 := count_ite_le reported items e
        rw [logs, failed, List.count_append, List.count_append]
        omega
  · have hlt := (remaining_turn hi.ending (Or.inr (by rw [hc]; rfl)) h).1
    simp [remaining, hc] at hlt

/- After a safe run nothing is on its way in a closed connection. -/
theorem Ending.drained {c : Channel} (he : Ending True c) (hc : c.handler = .closed)
    (e : LogEntry) : c.held e = 0 := by
  rcases he.closed hc with ⟨hp, hb⟩ | ⟨hp, hb⟩
  · simp [Channel.held, hc, hp, hb, Handler.items, Periodic.items]
  · simp [Channel.held, hc, hp, hb trivial, Handler.items, Periodic.items]

/- The lines a closed connection has read, after a safe run. -/
theorem Covered.kept {c : Channel} (hi : Covered c) (hl : Ledger c) (he : Ending True c)
    (hc : c.handler = .closed) : Kept c := by
  intro e hread hfail
  have hheld := he.drained hc e
  have hcov := hi e hread
  have honce := hl.once e
  rw [List.count_eq_zero_of_not_mem hfail] at hcov
  omega

theorem Damaged.not_kept {c : Channel} (hd : Damaged c) (hl : Ledger c) : ¬ Kept c := by
  intro hk
  rcases hd with ⟨e, he, hz⟩ | ⟨-, hb⟩
  · have hfail : e ∉ c.failed := by
      intro hm
      have hpos := List.count_pos_iff.mpr hm
      omega
    have hone := hk e he hfail
    omega
  · obtain ⟨e, he⟩ := List.exists_mem_of_ne_nil _ hb
    have hpos : 0 < c.held e := by
      have hpos := List.count_pos_iff.mpr he
      unfold Channel.held
      omega
    have hread : e ∈ c.received := by
      by_contra hn
      have hz := hl.known e hn
      omega
    have hfail : e ∉ c.failed := by
      intro hm
      have hcount := List.count_pos_iff.mpr hm
      have hapart := hl.apart e
      omega
    have hone := hk e hread hfail
    have honce := hl.once e
    omega

/-- After a disconnect the connection closes within five turns, and the lines it
has read are then kept exactly if no turn lost a batch. -/
theorem lines_kept_iff_safe {serverId : ℕ} {ls : List Label} {c : Channel}
    (hr : run step (opened serverId) ls = some c) (hd : c.Disconnected) :
    (c.handler = .closed → (Kept c ↔ Along step Safe (opened serverId) ls)) ∧
    (c.handler ≠ .closed → ∃ l c', step c l = some c') ∧
    ∀ ms d, run step c ms = some d → ms.length ≤ 5 := by
  have hsound : Sound c := reachable_invariant Sound (fun s l s' hi h => hi.turn (step_turn h))
    (.opened serverId) ⟨ls, hr⟩
  refine ⟨fun hc => ⟨fun hk => ?_, fun ha => ?_⟩, hsound.ending.progress hd, fun ms d hms => ?_⟩
  · refine along_of_end Sound Damaged Safe (fun s l s' hi h => hi.turn (step_turn h))
      (fun s l s' hi hs h => .of_loss hi hs (step_turn h))
      (fun s l s' hi hb h => hb.turn hi (step_turn h)) (.opened serverId) hr ?_
    exact fun hb => hb.not_kept hsound.ledger hk
  · have hsafe : Covered c ∧ Ending True c := by
      refine run_invariant (fun s => Covered s ∧ Ending True s) Safe ?_
        ⟨by simp [Covered, opened], .opened serverId⟩ ha hr
      exact fun s l s' hi hs h => ⟨hi.1.effect hs (step_turn h).effect,
        hi.2.turn (fun _ => hs) (step_turn h)⟩
    exact hsafe.1.kept hsound.ledger hsafe.2 hc
  · have hrem := remaining_run hsound.ending hd hms
    have hle : remaining c ≤ 5 := remaining_disconnected hd
    omega

/- One line, the age-triggered flush of it, and a disconnect that cancels the
commit; the database has applied it or not. -/
def bootRun (applied : Bool) : List Label :=
  [.receive "boot ok", .broadcasted, .wake, .disconnect, .cancelled applied, .joined]

def bootEnd (applied : Bool) : Channel :=
  { serverId := 7, handler := .closed, periodic := .cancelled
    received := [⟨0, 7, "boot ok"⟩]
    logs := if applied then [⟨0, 7, "boot ok"⟩] else [] }

theorem lines_kept_iff_safe_boot :
    run step (opened 7) (bootRun true) = some (bootEnd true) ∧
      (Kept (bootEnd true) ↔ Along step Safe (opened 7) (bootRun true)) := by
  have hr : run step (opened 7) (bootRun true) = some (bootEnd true) := by decide
  exact ⟨hr, (lines_kept_iff_safe hr (Or.inr rfl)).1 rfl⟩

/-- The line is read, taken for a flush and neither stored nor reported. -/
theorem line_lost_by_cancellation :
    run step (opened 7) (bootRun false) = some (bootEnd false) ∧
      (bootEnd false).handler = .closed ∧ ¬ Kept (bootEnd false) := by
  refine ⟨by decide, rfl, fun h => ?_⟩
  have hone := h ⟨0, 7, "boot ok"⟩ (by simp [bootEnd]) (by simp [bootEnd])
  simp [bootEnd] at hone

end PulseWatch.LogChannel
