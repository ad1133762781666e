import PulseWatch.LogDelivery

/-!
# A log connection after a failed commit

`flush()` catches the error of `db.commit()` and rolls back, so the lines of that
batch are lost and the loop goes on. But the rollback expires the row of the server,
which the handler reads for each line: the next line is read and lost, without being
broadcast, and the connection is over.
-/

namespace PulseWatch.LogRecovery
open Runs AsyncLock LogChannel

/- `broadcasts` are the lines given to `manager.broadcast`, `rejected` those of the
batches that a failed commit has not stored. The code keeps neither. -/
structure Recorded where
  channel : Channel
  broadcasts : List LogEntry := []
  rejected : List LogEntry := []
  deriving DecidableEq, Repr

def start (serverId : ℕ) : Recorded := { channel := opened serverId }

/- `manager.broadcast(server.id, log_line)`, right after the line is buffered. -/
def broadcastNow (c : Channel) : Label → List LogEntry
  | .receive line => if c.expired then [] else [⟨c.received.length, c.serverId, line⟩]
  | _ => []

def rejectedNow (c : Channel) : Label → List LogEntry
  | .commitFailed k failure => match c.flushOf k with
    | some (.committing items) => if failure.applied then [] else items
    | _ => []
  | _ => []

def step (s : Recorded) (l : Label) : Option Recorded :=
  (LogChannel.step s.channel l).map fun c =>
    ⟨c, s.broadcasts ++ broadcastNow s.channel l, s.rejected ++ rejectedNow s.channel l⟩

/- A line is buffered, awaits its commit or is stored; only an open connection has
lines on their way. -/
def Recorded.Carries (s : Recorded) (e : LogEntry) : Prop :=
  e ∈ s.channel.logs ∨ (s.channel.handler ≠ .closed ∧ 0 < s.channel.held e)

/- Every line read is broadcast, and lost exactly if its batch was rejected. -/
structure Recovered (s : Recorded) : Prop where
  broadcast : ∀ e ∈ s.channel.received, e ∈ s.broadcasts
  carried : ∀ e ∈ s.channel.received, s.Carries e ↔ e ∉ s.rejected

/-! ### The record -/

section
variable {c c' : Channel} {l : Label}

theorem failed_turn (h : Turn c l c') : (c'.failed = c.failed ∧ rejectedNow c l = []) ∨
    ∃ failure items, rejectedNow c l = (if Failure.applied failure then [] else items) ∧
      (∀ e ∈ items, 0 < c.held e) ∧ c'.failed = c.failed ++ items ∧
      c'.logs = c.logs ++ if failure.applied then items else [] := by
  cases h with
  | full hm => exact Or.inl ⟨(c.same_startFlush .size).2.2, rfl⟩
  | wake hp => exact Or.inl ⟨(c.same_startFlush .periodic).2.2, rfl⟩
  | joined hm => exact Or.inl ⟨(c.same_startFlush .final).2.2, rfl⟩
  | acquired k ws => exact Or.inl ⟨(Channel.same_takeBatch { c with waiters := ws } k).2.2, rfl⟩
  | committed k items hf =>
    let c₀ : Channel := { c with locked := false, logs := c.logs ++ items }
    exact Or.inl ⟨(c₀.same_resume k).2.2, rfl⟩
  | commitFailed k failure items hf =>
    refine Or.inr ⟨failure, items, ?_, fun e he => ?_, ?_, ?_⟩
    · simp only [rejectedNow, hf]
    · have hitems : c.itemsOf k = items := Channel.itemsOf_flushOf hf rfl rfl
      have hcount := List.count_pos_iff.mpr (hitems ▸ he)
      cases k <;> simp only [Channel.itemsOf] at hcount <;> unfold Channel.held <;> omega
    · cases k <;> rfl
    · cases k <;> rfl
  | rolledBack k hf =>
    exact Or.inl ⟨(Channel.same_resume { c with locked := false, expired := true } k).2.2, rfl⟩
  | rollbackRaised k hf =>
    exact Or.inl ⟨(Channel.same_escape { c with locked := false, expired := true } k).2.2, rfl⟩
  | cancelled applied d hm hd => exact Or.inl ⟨(deliverCancel_frame hd).2.2.1, rfl⟩
  | _ => exact Or.inl ⟨rfl, rfl⟩

/- Rows are never taken back, and new ones come from the batches. -/
theorem logs_turn (h : Turn c l c') (e : LogEntry) :
    (e ∈ c.logs → e ∈ c'.logs) ∧ (e ∈ c'.logs → e ∈ c.logs ∨ 0 < c.held e) := by
  cases h.effect with
  | moved same => exact same.1 ▸ ⟨id, Or.inl⟩
  | read x fresh received logs => exact logs ▸ ⟨id, Or.inl⟩
  | dropped x fresh expired received logs => exact logs ▸ ⟨id, Or.inl⟩
  | settled items stored reported received logs failed held =>
    rw [logs]
    refine ⟨List.mem_append_left _, fun he => ?_⟩
    rcases List.mem_append.mp he with he | he
    · exact Or.inl he
    · have hcount := List.count_pos_iff.mpr he
      have hle := count_ite_le stored items e
      have hheld := held e
      exact Or.inr (by omega)

end

structure Inv (s : Recorded) : Prop where
  sound : Sound s.channel
  failed : ∀ e ∈ s.channel.failed, e ∈ s.rejected ∨ e ∈ s.channel.logs
  rejected : ∀ e ∈ s.rejected, e ∈ s.channel.failed ∧ e ∉ s.channel.logs

theorem Inv.start (serverId : ℕ) : Inv (start serverId) :=
  ⟨.opened serverId, fun _ h => absurd h List.not_mem_nil, fun _ h => absurd h List.not_mem_nil⟩

theorem Inv.step {s t : Recorded} (hi : Inv s) {l : Label} (h : step s l = some t) : Inv t := by
  obtain ⟨c, hc, rfl⟩ := Option.map_eq_some_iff.mp h
  have hturn := step_turn hc
  have hsound := hi.sound.turn hturn
  have hold : ∀ e ∈ s.rejected, e ∉ c.logs := by
    intro e he hlogs
    obtain ⟨hfailed, hnot⟩ := hi.rejected e he
    rcases (logs_turn hturn e).2 hlogs with hin | hheld
    · exact hnot hin
    · have hapart := hi.sound.ledger.apart e
      have hcount := List.count_pos_iff.mpr hfailed
      omega
  rcases failed_turn hturn with ⟨hfailed, hnone⟩ | ⟨failure, items, hnow, hheld, hfailed, hlogs⟩
  · refine ⟨hsound, fun e he => ?_, fun e he => ?_⟩
    · rw [hnone, List.append_nil]
      exact (hi.failed e (hfailed ▸ he)).imp_right (logs_turn hturn e).1
    · rw [hnone, List.append_nil] at he
      exact ⟨hfailed ▸ (hi.rejected e he).1, hold e he⟩
  · refine ⟨hsound, fun e he => ?_, fun e he => ?_⟩
    · rw [hfailed] at he
      rcases List.mem_append.mp he with he | he
      · exact (hi.failed e he).imp (List.mem_append_left _) (logs_turn hturn e).1
      · rw [hnow]
        show _ ∨ e ∈ c.logs
        rw [hlogs]
        cases failure.applied with
        | true => exact Or.inr (List.mem_append_right _ he)
        | false => exact Or.inl (List.mem_append_right _ he)
    · show e ∈ c.failed ∧ e ∉ c.logs
      rw [hfailed]
      rcases List.mem_append.mp he with he | he
      · exact ⟨List.mem_append_left _ (hi.rejected e he).1, hold e he⟩
      · rw [hnow] at he
        cases happlied : failure.applied with
        | true => simp [happlied] at he
        | false =>
          rw [happlied, if_neg (by simp)] at he
          refine ⟨List.mem_append_right _ he, fun hin => ?_⟩
          rw [hlogs, happlied, if_neg (by simp), List.append_nil] at hin
          have honce := hi.sound.ledger.once e
          have hcount := List.count_pos_iff.mpr hin
          have hpos := hheld e he
          omega

/-! ### Runs that read no line after a rollback -/

theorem broadcast_step {s t : Recorded} {l : Label} (hsafe : Safe s.channel l)
    (h : step s l = some t) (hb : ∀ e ∈ s.channel.received, e ∈ s.broadcasts) :
    ∀ e ∈ t.channel.received, e ∈ t.broadcasts := by
  obtain ⟨c, hc, rfl⟩ := Option.map_eq_some_iff.mp h
  intro e he
  have hturn := step_turn hc
  have hread : c.received = s.channel.received ∨
      c.received = s.channel.received ++ broadcastNow s.channel l := by
    cases hturn with
    | receive line hm hread => exact Or.inr (by simp [broadcastNow, hread])
    | dropped line hm hexp => exact absurd (hexp.symm.trans hsafe) (by simp)
    | full hm => exact Or.inl (Channel.same_startFlush _ .size).2.1
    | wake hp => exact Or.inl (Channel.same_startFlush _ .periodic).2.1
    | joined hm => exact Or.inl (Channel.same_startFlush _ .final).2.1
    | acquired k ws => exact Or.inl (Channel.same_takeBatch _ k).2.1
    | committed k items => exact Or.inl (Channel.same_resume _ k).2.1
    | commitFailed k failure items => exact Or.inl (Channel.same_suspend _ k _).2.1
    | rolledBack k => exact Or.inl (Channel.same_resume _ k).2.1
    | rollbackRaised k => exact Or.inl (Channel.same_escape _ k).2.1
    | cancelled applied d hm hd => exact Or.inl (deliverCancel_frame hd).2.1
    | _ => exact Or.inl rfl
  rcases hread with hsame | hmore
  · exact List.mem_append_left _ (hb e (hsame ▸ he))
  · have hin : e ∈ s.channel.received ++ broadcastNow s.channel l := hmore ▸ he
    exact (List.mem_append.mp hin).elim (fun h => List.mem_append_left _ (hb e h))
      (List.mem_append_right _)

/- A line that is nowhere, or left behind in a closed connection. -/
theorem not_recovered {s : Recorded} (hi : Inv s) (hd : Damaged s.channel) : ¬ Recovered s := by
  intro h
  rcases hd with ⟨e, he, hz⟩ | ⟨hc, hb⟩
  · have hnot : e ∉ s.rejected := by
      intro hr
      have hcount := List.count_pos_iff.mpr (hi.rejected e hr).1
      omega
    rcases (h.carried e he).mpr hnot with hin | ⟨-, hheld⟩
    · have hcount := List.count_pos_iff.mpr hin
      omega
    · omega
  · obtain ⟨e, he⟩ := List.exists_mem_of_ne_nil _ hb
    have hheld : 0 < s.channel.held e := by
      have hcount := List.count_pos_iff.mpr he
      unfold Channel.held
      omega
    have honce := hi.sound.ledger.once e
    have hapart := hi.sound.ledger.apart e
    have hread : e ∈ s.channel.received := by
      by_contra hn
      have hz := hi.sound.ledger.known e hn
      omega
    have hnot : e ∉ s.rejected := by
      intro hr
      have hcount := List.count_pos_iff.mpr (hi.rejected e hr).1
      omega
    rcases (h.carried e hread).mpr hnot with hin | ⟨hopen, -⟩
    · have hcount := List.count_pos_iff.mpr hin
      omega
    · exact hopen hc

/-- A connection goes on after a failed commit as it should, every line broadcast and exactly
the rejected batches lost, if and only if its run reads no line after a rollback (nor ends by
losing a batch). -/
theorem recovered_iff_safe {serverId : ℕ} {ls : List Label} {s : Recorded}
    (hr : run step (start serverId) ls = some s) :
    Recovered s ↔ Along step (fun s l => Safe s.channel l) (start serverId) ls := by
  have hinv : Inv s := reachable_invariant Inv (fun _ _ _ hi h => hi.step h) (.start serverId)
    ⟨ls, hr⟩
  constructor
  · intro h
    refine along_of_end Inv (fun s => Damaged s.channel) _ (fun _ _ _ hi h => hi.step h)
      (fun s l t hi hs h => ?_) (fun s l t hi hb h => ?_) (.start serverId) hr
      fun hd => not_recovered hinv hd h
    · obtain ⟨c, hc, rfl⟩ := Option.map_eq_some_iff.mp h
      exact .of_loss hi.sound hs (step_turn hc)
    · obtain ⟨c, hc, rfl⟩ := Option.map_eq_some_iff.mp h
      exact hb.turn hi.sound (step_turn hc)
  · intro ha
    have hsafe : Covered s.channel ∧ Ending True s.channel ∧
        ∀ e ∈ s.channel.received, e ∈ s.broadcasts := by
      refine run_invariant (fun s => Covered s.channel ∧ Ending True s.channel ∧
        ∀ e ∈ s.channel.received, e ∈ s.broadcasts) _ (fun s l t hi hs h => ?_)
        ⟨by simp [Covered, start, opened], .opened serverId,
          fun e he => absurd he List.not_mem_nil⟩ ha hr
      obtain ⟨c, hc, ht⟩ := Option.map_eq_some_iff.mp h
      refine ⟨?_, ?_, broadcast_step hs h hi.2.2⟩
      · exact ht ▸ hi.1.effect hs (step_turn hc).effect
      · exact ht ▸ hi.2.1.turn (fun _ => hs) (step_turn hc)
    refine ⟨hsafe.2.2, fun e he => ⟨fun hcarried hrej => ?_, fun hnot => ?_⟩⟩
    · obtain ⟨hfailed, hlogs⟩ := hinv.rejected e hrej
      rcases hcarried with hin | ⟨-, hheld⟩
      · exact hlogs hin
      · have hapart := hinv.sound.ledger.apart e
        have hcount := List.count_pos_iff.mpr hfailed
        omega
    · have hcov := hsafe.1 e he
      by_cases hin : e ∈ s.channel.logs
      · exact Or.inl hin
      · have hfailed : e ∉ s.channel.failed := fun hf => (hinv.failed e hf).elim hnot hin
        rw [List.count_eq_zero_of_not_mem hin, List.count_eq_zero_of_not_mem hfailed] at hcov
        refine Or.inr ⟨fun hc => ?_, by omega⟩
        have hheld := hsafe.2.1.drained hc e
        omega

/- A batch that PostgreSQL rejects, and no line after it. -/
def rejectedBatch : List Label :=
  [.receive "bad\x00line", .broadcasted, .wake, .commitFailed .periodic .flush,
    .rolledBack .periodic]

theorem recovered_iff_safe_quiet : ∃ s, run step (start 7) rejectedBatch = some s ∧
    (Recovered s ↔ Along step (fun s l => Safe s.channel l) (start 7) rejectedBatch) :=
  ⟨_, rfl, recovered_iff_safe rfl⟩

/- The next line is read, given to nobody and stored by no flush, and the handler ends. -/
theorem line_lost_after_rollback :
    ∃ s, run step (start 7) (rejectedBatch ++ [.receive "still here"]) = some s ∧
      (⟨1, 7, "still here"⟩ : LogEntry) ∈ s.channel.received ∧
      s.rejected = [⟨0, 7, "bad\x00line"⟩] ∧ s.channel.buffer = [] ∧
      s.broadcasts = [⟨0, 7, "bad\x00line"⟩] ∧ s.channel.handler = .joining ∧ ¬ Recovered s := by
  refine ⟨_, rfl, by decide, rfl, rfl, rfl, rfl, fun h => ?_⟩
  have hsent := h.broadcast ⟨1, 7, "still here"⟩ (by decide)
  exact absurd hsent (by decide)

end PulseWatch.LogRecovery
