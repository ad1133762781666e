import PulseWatch.Lib.OrderBy
import PulseWatch.LogClock

/-!
# The CSV of a connection's lines (`export_logs`)

The export reads the rows of a server in a window of `created_at` and orders them by
`created_at`. The rows of one commit share it.
-/

namespace PulseWatch.LogExport
open Runs AsyncLock LogChannel LogClock OrderBy

/- A row of `logs`; the CSV prints its id, `created_at` and message. -/
structure LogRow where
  id : ℕ
  createdAt : Instant
  line : LogEntry
  deriving DecidableEq, Repr

/- The rows one connection has stored; `ids` is what the sequence gave its lines. -/
def ownRows (ids : ℕ → ℕ) (s : Timed) : List LogRow :=
  s.stored.flatMap fun b => b.lines.map fun e => ⟨ids e.seq, b.createdAt, e⟩

/- `None` answers 400. -/
def window (now : Instant) (start stop : Option Instant) : Option (Instant × Instant) :=
  let stop := stop.getD now
  let start := start.getD (stop - minutes (24 * 60))
  if stop - start > minutes (7 * 24 * 60) then none else some (start, stop)

def selected (serverId : ℕ) (start stop : Instant) (logs : List LogRow) : List LogRow :=
  logs.filter fun r => r.line.serverId = serverId ∧ start ≤ r.createdAt ∧ r.createdAt ≤ stop

/- `csv` is an answer the export may give. -/
def Exported (serverId : ℕ) (logs : List LogRow) (now : Instant) (start stop : Option Instant)
    (csv : List LogRow) : Prop :=
  ∃ w, window now start stop = some w ∧
    Ordered LogRow.createdAt (selected serverId w.1 w.2 logs) csv

/- Every CSV that may be exported lists the lines of the connection in the order they
were received, whatever else the table holds. -/
def ListsInOrder (ids : ℕ → ℕ) (s : Timed) : Prop :=
  ∀ (others : List LogRow) (now : Instant) (start stop : Option Instant) (csv : List LogRow),
    (∀ r ∈ others, r ∉ ownRows ids s) →
    Exported s.channel.serverId (ownRows ids s ++ others) now start stop csv →
    (csv.filter fun r => r ∈ ownRows ids s).Pairwise fun a b => a.line.seq < b.line.seq

/- No two stored lines share their `created_at`. -/
def OneLineEach (s : Timed) : Prop :=
  (∀ b ∈ s.stored, b.lines.length = 1) ∧ (s.stored.map Batch.createdAt).Nodup

instance (s : Timed) : Decidable (OneLineEach s) := inferInstanceAs (Decidable (_ ∧ _))

/-! ### The stored rows -/

theorem serverId_turn {c c' : Channel} {l : LogChannel.Label} (h : Turn c l c') :
    c'.serverId = c.serverId := by
  have htake : ∀ (k : Caller) (ws : List Caller),
      (Channel.takeBatch k { c with waiters := ws }).serverId = c.serverId := by
    intro k ws
    unfold Channel.takeBatch
    split <;> cases k <;> rfl
  have hflush : ∀ k, (c.startFlush k).serverId = c.serverId := by
    intro k
    unfold Channel.startFlush
    split
    · exact htake k c.waiters
    · cases k <;> rfl
  cases h with
  | full hm => exact hflush .size
  | wake hp => exact hflush .periodic
  | joined hm => exact hflush .final
  | acquired k ws hf hw hfree => exact htake k ws
  | committed k items hf => cases k <;> rfl
  | commitFailed k failure items hf => cases k <;> rfl
  | rolledBack k hf => cases k <;> rfl
  | rollbackRaised k hf => cases k <;> rfl
  | cancelled applied d hm hd => exact (deliverCancel_frame hd).1
  | _ => rfl

def OfServer (s : Timed) : Prop := ∀ e ∈ pipeline s.channel, e.serverId = s.channel.serverId

theorem OfServer.step {s t : Timed} (hi : Inv s) (h : OfServer s) {l : LogClock.Label}
    (hstep : LogClock.step s l = some t) : OfServer t := by
  cases l with
  | tick d =>
    obtain rfl := Option.some.inj hstep
    exact h
  | insert =>
    simp only [LogClock.step] at hstep
    split at hstep
    · obtain rfl := Option.some.inj hstep
      exact h
    · cases hstep
  | turn l left =>
    obtain ⟨c, hc, hrest⟩ := Option.bind_eq_some_iff.mp hstep
    split at hrest
    · obtain rfl := Option.some.inj hrest
      have hturn := step_turn hc
      intro e he
      show e.serverId = c.serverId
      rw [serverId_turn hturn]
      rcases (turn_flow hi.lock hturn).pipeline with hsub | ⟨line, -, hline⟩
      · exact h e (hsub.subset he)
      · have he' : e ∈ pipeline c := he
        rw [hline] at he'
        rcases List.mem_append.mp he' with he' | he'
        · exact h e he'
        · rw [List.mem_singleton.mp he']
    · cases hrest

section
variable {s : Timed} (ids : ℕ → ℕ)

theorem ownRows_lines (hi : Inv s) : (ownRows ids s).map LogRow.line = s.channel.logs := by
  rw [← hi.lines, ownRows, List.map_flatMap]
  congr 1
  funext b
  simp [Function.comp_def]

theorem ownRows_received (hi : Inv s) :
    (ownRows ids s).Pairwise fun a b => a.line.seq < b.line.seq := by
  have hlogs : s.channel.logs.Pairwise fun a b => a.seq < b.seq :=
    hi.order.sublist (List.sublist_append_left _ _)
  rw [← ownRows_lines ids hi, List.pairwise_map] at hlogs
  exact hlogs

theorem ownRows_server (hi : Inv s) (hs : OfServer s) {r : LogRow} (hr : r ∈ ownRows ids s) :
    r.line.serverId = s.channel.serverId := by
  refine hs r.line (List.mem_append_left _ ?_)
  rw [← ownRows_lines ids hi]
  exact List.mem_map_of_mem hr

theorem ownRows_stamped (hi : Inv s) :
    (ownRows ids s).Pairwise fun a b => a.createdAt ≤ b.createdAt := by
  rw [ownRows, List.pairwise_flatMap]
  refine ⟨fun b _ => ?_, hi.sorted.imp fun {a b} hab x hx y hy => ?_⟩
  · rw [List.pairwise_map]
    exact List.pairwise_of_forall fun _ _ => le_rfl
  · obtain ⟨e, -, rfl⟩ := List.mem_map.mp hx
    obtain ⟨f, -, rfl⟩ := List.mem_map.mp hy
    exact hab

theorem ownRows_times :
    (ownRows ids s).map LogRow.createdAt =
      s.stored.flatMap fun b => List.replicate b.lines.length b.createdAt := by
  rw [ownRows, List.map_flatMap]
  congr 1
  funext b
  rw [List.map_map, ← List.map_const']
  rfl

theorem oneLineEach_iff (hi : Inv s) :
    OneLineEach s ↔ ((ownRows ids s).map LogRow.createdAt).Nodup := by
  have hpos : ∀ b ∈ s.stored, 0 < b.lines.length := fun b hb =>
    List.length_pos_iff.mpr (hi.full b hb)
  have hmap : (s.stored.map Batch.createdAt).Nodup ↔
      s.stored.Pairwise fun a b => a.createdAt ≠ b.createdAt := List.pairwise_map
  rw [ownRows_times, List.nodup_flatMap, OneLineEach, hmap]
  refine and_congr (forall₂_congr fun b hb => ?_) (List.Pairwise.iff_of_mem fun {a b} ha hb => ?_)
  · rw [List.nodup_replicate]
    have := hpos b hb
    omega
  · have ha' := hpos a ha
    have hb' := hpos b hb
    rw [Function.onFun_apply, List.disjoint_left]
    simp only [List.mem_replicate]
    constructor
    · rintro hne x ⟨-, rfl⟩ ⟨-, heq⟩
      exact hne heq
    · intro h heq
      exact h ⟨by omega, rfl⟩ ⟨by omega, heq⟩

/- What a window of the connection's rows may come out as. -/
theorem Exported.own {s : Timed} {ids : ℕ → ℕ} {others csv : List LogRow} {now : Instant}
    {start stop : Option Instant} (hothers : ∀ r ∈ others, r ∉ ownRows ids s)
    (h : Exported s.channel.serverId (ownRows ids s ++ others) now start stop csv) :
    ∃ p : LogRow → Bool, Ordered LogRow.createdAt ((ownRows ids s).filter p)
      (csv.filter fun r => r ∈ ownRows ids s) := by
  obtain ⟨w, -, hcsv⟩ := h
  refine ⟨fun r => r.line.serverId = s.channel.serverId ∧ w.1 ≤ r.createdAt ∧ r.createdAt ≤ w.2, ?_⟩
  have hown := hcsv.filter fun r => decide (r ∈ ownRows ids s)
  rw [selected, List.filter_filter, List.filter_append] at hown
  have hnone : (others.filter fun r => decide (r ∈ ownRows ids s) && decide
      (r.line.serverId = s.channel.serverId ∧ w.1 ≤ r.createdAt ∧ r.createdAt ≤ w.2)) = [] := by
    rw [List.filter_eq_nil_iff]
    intro r hr
    simp [hothers r hr]
  rw [hnone, List.append_nil] at hown
  refine ⟨hown.perm.trans (List.Perm.of_eq (List.filter_congr fun r hr => ?_)), hown.sorted⟩
  simp [hr]

theorem exported_instant (hi : Inv s) (hs : OfServer s) {t : Instant} {csv : List LogRow}
    (h : Ordered LogRow.createdAt ((ownRows ids s).filter fun r => r.createdAt = t) csv) :
    Exported s.channel.serverId (ownRows ids s ++ []) t (some t) (some t) csv := by
  refine ⟨(t, t), by simp [window, minutes, seconds], ?_⟩
  have hselected : selected s.channel.serverId t t (ownRows ids s) =
      (ownRows ids s).filter fun r => r.createdAt = t := by
    refine List.filter_congr fun r hr => ?_
    simp [ownRows_server ids hi hs hr, le_antisymm_iff, and_comm]
  rw [List.append_nil, hselected]
  exact h

end

/-- The CSV lists the lines of a connection in the order they were received, whatever order
the database gives ties, iff no two of its stored lines share their `created_at`. -/
theorem lists_in_order_iff {serverId : ℕ} {start : Instant} {wait : ℕ} {ls : List LogClock.Label}
    {s : Timed} (hr : run LogClock.step (connected serverId start wait) ls = some s)
    (ids : ℕ → ℕ) : ListsInOrder ids s ↔ OneLineEach s := by
  obtain ⟨hi, hserver⟩ : Inv s ∧ OfServer s :=
    reachable_invariant (fun s => Inv s ∧ OfServer s)
      (fun _ _ _ hs hstep => ⟨hs.1.step hstep, hs.2.step hs.1 hstep⟩)
      ⟨.connected serverId start wait, fun _ h => absurd h List.not_mem_nil⟩ ⟨ls, hr⟩
  rw [oneLineEach_iff ids hi]
  constructor
  · intro h
    refine distinct_of_keeps (ownRows_received ids hi) (fun a b hab hba => ?_) fun t csv hcsv => ?_
    · omega
    · have hown : ∀ r ∈ csv, r ∈ ownRows ids s := fun r hr =>
        (List.mem_filter.mp (hcsv.perm.mem_iff.mp hr)).1
      have hlisted := h [] t (some t) (some t) csv (fun _ hr => absurd hr List.not_mem_nil)
        (exported_instant ids hi hserver hcsv)
      rwa [List.filter_eq_self.mpr fun r hr => by simp [hown r hr]] at hlisted
  · intro hnodup others now first last csv hothers hcsv
    obtain ⟨p, hown⟩ := hcsv.own hothers
    refine hown.keeps ?_
    refine List.Pairwise.filter p ?_
    have htimes := List.pairwise_map.mp hnodup
    refine ((ownRows_received ids hi).and ((ownRows_stamped ids hi).and htimes)).imp ?_
    rintro a b ⟨hseq, hle, hne⟩
    exact ⟨hseq, lt_of_le_of_ne hle hne⟩

theorem lists_in_order_twice : ∃ s, run LogClock.step (connected 7 0 0) twoFlushes = some s ∧
    OneLineEach s ∧ ListsInOrder id s :=
  ⟨_, rfl, by decide, (@lists_in_order_iff 7 0 0 twoFlushes _ rfl id).mpr (by decide)⟩

/- Two lines within a second are one batch, and the database may give them backwards. -/
theorem lines_listed_backwards :
    ∃ s csv, run LogClock.step (connected 7 0 0) [.turn (.receive "one") false,
        .turn .broadcasted false, .turn (.receive "two") false, .turn .broadcasted false,
        .turn .wake false, .insert, .turn (.committed .periodic) false] = some s ∧
      Exported 7 (ownRows id s) 5 none none csv ∧ csv.map (·.line.message) = ["two", "one"] ∧
      ¬ ListsInOrder id s := by
  refine ⟨_, [⟨1, 0, ⟨1, 7, "two"⟩⟩, ⟨0, 0, ⟨0, 7, "one"⟩⟩], rfl, ?_, rfl, fun h => ?_⟩
  · exact ⟨_, rfl, by decide⟩
  · have hbackwards := h [] 5 none none [⟨1, 0, ⟨1, 7, "two"⟩⟩, ⟨0, 0, ⟨0, 7, "one"⟩⟩]
      (fun _ hr => absurd hr List.not_mem_nil) ⟨_, rfl, by decide⟩
    revert hbackwards
    decide

end PulseWatch.LogExport
