import PulseWatch.Lib.ConnectionPool
import PulseWatch.Lib.Runs
import PulseWatch.Auth

/-!
# Dashboard sockets and the database pool

The handlers of `/ws/logs` (`app/api/websocket.py`) and of `/ws/metrics`,
`/ws/docker-metrics` and `/ws/alerts` (`app/api/ws_metrics.py`), beside the HTTP
requests. Each has the session `get_db` opened for it (`app/database.py`), and
`get_db` closes it when the handler has ended. A step runs one task from one await
to the next.
-/

namespace PulseWatch.Viewers

open ConnectionPool

inductive Endpoint where
  | logs
  | metrics
  | dockerMetrics
  | alerts
  deriving DecidableEq, Repr

/- `subject` is the user id of a token that decodes. -/
structure Visit where
  endpoint : Endpoint
  serverId : ℕ
  subject : Option ℕ
  deriving DecidableEq, Repr

/- Where the handler of a socket is. `accepting` stands for `accept()`, `subscribing`
for `manager.subscribe` or `pubsub.subscribe`, `waiting` for the loop over
`receive_text()` or the two tasks of `_ws_subscribe`, `leaving` for `finally`. -/
inductive Stage where
  | connecting
  | authenticated (userId : ℕ)
  | refusing
  | accepting
  | subscribing
  | waiting
  | leaving
  deriving DecidableEq, Repr

inductive Task where
  | free
  | viewer (visit : Visit) (stage : Stage)
  | request
  | ended
  deriving DecidableEq, Repr

structure Sys (capacity : ℕ) where
  users : List User
  servers : List Server
  tasks : ℕ → Task
  pool : Pool ℕ capacity

def start (capacity : ℕ) (users : List User) (servers : List Server) : Sys capacity :=
  ⟨users, servers, fun _ => .free, empty⟩

/- `abort` is an exception or a cancellation, `timeout` that of a statement that got
no connection; `request`, `execute`, `commit` and `respond` are those of any other
handler, and `change` what they do to the tables. -/
inductive Label where
  | connect (i : ℕ) (visit : Visit)
  | authenticate (i : ℕ)
  | loadServer (i : ℕ)
  | accepted (i : ℕ)
  | subscribed (i : ℕ)
  | leave (i : ℕ)
  | close (i : ℕ)
  | abort (i : ℕ)
  | timeout (i : ℕ)
  | request (i : ℕ)
  | execute (i : ℕ)
  | commit (i : ℕ)
  | respond (i : ℕ)
  | change (users : List User) (servers : List Server)
  deriving DecidableEq, Repr

variable {capacity : ℕ}

namespace Sys

def goto (s : Sys capacity) (i : ℕ) (t : Task) : Sys capacity :=
  { s with tasks := Function.update s.tasks i t }

/- The handler is over, and `get_db` closes the session. -/
def finish (s : Sys capacity) (i : ℕ) : Sys capacity :=
  { s.goto i .ended with pool := release i s.pool }

end Sys

def step (s : Sys capacity) : Label → Option (Sys capacity)
  | .connect i visit =>
    match s.tasks i with
    | .free => some (s.goto i (.viewer visit .connecting))
    | _ => none
  -- `authenticate_ws_user`
  | .authenticate i =>
    match s.tasks i with
    | .viewer visit .connecting =>
      match visit.subject with
      | none => some (s.goto i (.viewer visit .refusing))
      | some userId =>
        (ConnectionPool.execute i s.pool).map fun pool =>
          { s.goto i (.viewer visit
            (if s.users.any fun u => u.id = userId then .authenticated userId else .refusing)) with
            pool }
    | _ => none
  | .loadServer i =>
    match s.tasks i with
    | .viewer visit (.authenticated userId) =>
      (ConnectionPool.execute i s.pool).map fun pool =>
        { s.goto i (.viewer visit
          (if s.servers.any fun r => r.id = visit.serverId ∧ r.ownerId = userId
            then .accepting else .refusing)) with
          pool }
    | _ => none
  | .accepted i =>
    match s.tasks i with
    | .viewer visit .accepting => some (s.goto i (.viewer visit .subscribing))
    | _ => none
  | .subscribed i =>
    match s.tasks i with
    | .viewer visit .subscribing => some (s.goto i (.viewer visit .waiting))
    | _ => none
  | .leave i =>
    match s.tasks i with
    | .viewer visit .waiting => some (s.goto i (.viewer visit .leaving))
    | _ => none
  | .close i =>
    match s.tasks i with
    | .viewer _ .refusing => some (s.finish i)
    | .viewer _ .leaving => some (s.finish i)
    | _ => none
  | .abort i =>
    match s.tasks i with
    | .viewer _ _ => some (s.finish i)
    | _ => none
  | .timeout i =>
    match s.tasks i, ConnectionPool.execute i s.pool with
    | .viewer ⟨_, _, some _⟩ .connecting, none => some (s.finish i)
    | .request, none => some (s.finish i)
    | _, _ => none
  | .request i =>
    match s.tasks i with
    | .free => some (s.goto i .request)
    | _ => none
  | .execute i =>
    match s.tasks i with
    | .request => (ConnectionPool.execute i s.pool).map fun pool => { s with pool }
    | _ => none
  | .commit i =>
    match s.tasks i with
    | .request => some { s with pool := release i s.pool }
    | _ => none
  | .respond i =>
    match s.tasks i with
    | .request => some (s.finish i)
    | _ => none
  | .change users servers => some { s with users, servers }

def Waits (s : Sys capacity) (i : ℕ) : Prop := ∃ visit, s.tasks i = .viewer visit .waiting

/- A viewer that only waits has no connection, and the viewers do not count when a
request asks for one: the pool has room whenever the other sessions leave some. -/
structure Spared (s : Sys capacity) : Prop where
  idle : ∀ i, Waits s i → i ∉ s.pool.holders
  room : ∀ i (busy : List ℕ), s.tasks i = .request →
    (∀ j ∈ s.pool.holders, ¬ Waits s j → j ∈ busy) →
      busy.length < capacity → ∃ t, step s (.execute i) = some t

/- No viewer comes to its subscription. -/
def NobodyWatches (s : Sys capacity) : Label → Prop
  | .subscribed i => ∀ visit, s.tasks i ≠ .viewer visit .subscribing
  | _ => True

/-! ### The moves of the tasks -/

/- The stages after the first query. -/
def Stage.queried : Stage → Bool
  | .connecting => false
  | .refusing => false
  | _ => true

/- The inversion of `step`. -/
inductive Move (s : Sys capacity) : Label → Sys capacity → Prop
  | entered {l} (i : ℕ) (task : Task) :
      (∃ visit, task = .viewer visit .connecting) ∨ task = .request → Move s l (s.goto i task)
  | advanced {l} (i : ℕ) (visit : Visit) (stage next : Stage) :
      s.tasks i = .viewer visit stage → (next.queried = true → stage.queried = true) →
      (next = .waiting → l = .subscribed i ∧ stage = .subscribing) →
      Move s l (s.goto i (.viewer visit next))
  | queried {l} (i : ℕ) (visit : Visit) (next : Stage) (pool : Pool ℕ capacity) :
      ConnectionPool.execute i s.pool = some pool → next ≠ .waiting →
      Move s l { s.goto i (.viewer visit next) with pool }
  | session {l} (i : ℕ) (pool : Pool ℕ capacity) : s.tasks i = .request →
      (∀ j ∈ s.pool.holders, j ≠ i → j ∈ pool.holders) → Move s l { s with pool }
  | finished {l} (i : ℕ) : Move s l (s.finish i)
  | changed {l} (users : List User) (servers : List Server) : Move s l { s with users, servers }

theorem step_move {s t : Sys capacity} {l : Label} (hs : step s l = some t) : Move s l t := by
  cases l with
  | connect i visit =>
    simp only [step] at hs
    split at hs
    · exact Option.some.inj hs ▸ .entered i _ (Or.inl ⟨visit, rfl⟩)
    · cases hs
  | authenticate i =>
    simp only [step] at hs
    split at hs
    · next visit hi =>
      split at hs
      · exact Option.some.inj hs ▸ .advanced i visit _ _ hi (by decide) (by simp)
      · obtain ⟨pool, he, rfl⟩ := Option.map_eq_some_iff.mp hs
        exact .queried i visit _ pool he (by split <;> simp)
    · cases hs
  | loadServer i =>
    simp only [step] at hs
    split at hs
    · next visit userId hi =>
      obtain ⟨pool, he, rfl⟩ := Option.map_eq_some_iff.mp hs
      exact .queried i visit _ pool he (by split <;> simp)
    · cases hs
  | accepted i =>
    simp only [step] at hs
    split at hs
    · next visit hi =>
      exact Option.some.inj hs ▸ .advanced i visit _ _ hi (fun _ => rfl) (by simp)
    · cases hs
  | subscribed i =>
    simp only [step] at hs
    split at hs
    · next visit hi =>
      exact Option.some.inj hs ▸ .advanced i visit _ _ hi (fun _ => rfl) fun _ => ⟨rfl, rfl⟩
    · cases hs
  | leave i =>
    simp only [step] at hs
    split at hs
    · next visit hi =>
      exact Option.some.inj hs ▸ .advanced i visit _ _ hi (fun _ => rfl) (by simp)
    · cases hs
  | close i =>
    simp only [step] at hs
    split at hs
    · exact Option.some.inj hs ▸ .finished i
    · exact Option.some.inj hs ▸ .finished i
    · cases hs
  | abort i =>
    simp only [step] at hs
    split at hs
    · exact Option.some.inj hs ▸ .finished i
    · cases hs
  | timeout i =>
    simp only [step] at hs
    split at hs
    · exact Option.some.inj hs ▸ .finished i
    · exact Option.some.inj hs ▸ .finished i
    · cases hs
  | request i =>
    simp only [step] at hs
    split at hs
    · exact Option.some.inj hs ▸ .entered i _ (Or.inr rfl)
    · cases hs
  | execute i =>
    simp only [step] at hs
    split at hs
    · next hi =>
      obtain ⟨pool, he, rfl⟩ := Option.map_eq_some_iff.mp hs
      exact .session i pool hi fun j hj _ => (mem_execute he).mpr (Or.inr hj)
    · cases hs
  | commit i =>
    simp only [step] at hs
    split at hs
    · next hi =>
      exact Option.some.inj hs ▸ .session i _ hi fun j hj hne => mem_release.mpr ⟨hne, hj⟩
    · cases hs
  | respond i =>
    simp only [step] at hs
    split at hs
    · exact Option.some.inj hs ▸ .finished i
    · cases hs
  | change users servers => exact Option.some.inj hs ▸ .changed users servers

/-! ### The sessions of the viewers -/

/- From its authentication on, a viewer's session holds a connection. -/
def Holding (s : Sys capacity) : Prop :=
  ∀ i visit stage, s.tasks i = .viewer visit stage → stage.queried = true → i ∈ s.pool.holders

namespace Holding
variable {s t : Sys capacity} {i : ℕ}

theorem start (users : List User) (servers : List Server) :
    Holding (start capacity users servers) := fun _ _ _ h => by cases h

theorem moved (h : Holding s) {task : Task} {pool : Pool ℕ capacity}
    (hkeep : ∀ j ∈ s.pool.holders, j ≠ i → j ∈ pool.holders)
    (hself : ∀ visit stage, task = .viewer visit stage → stage.queried = true → i ∈ pool.holders) :
    Holding { s.goto i task with pool } := by
  intro j visit stage hj hq
  by_cases hji : j = i
  · subst hji
    exact hself visit stage ((Function.update_self _ _ _).symm.trans hj) hq
  · have hj : Function.update s.tasks i task j = .viewer visit stage := hj
    rw [Function.update_of_ne hji] at hj
    exact hkeep j (h j visit stage hj hq) hji

theorem step {l : Label} (h : Holding s) (hs : step s l = some t) : Holding t := by
  cases step_move hs with
  | entered i task htask =>
    refine h.moved (fun _ hj _ => hj) fun visit stage ht hq => ?_
    rcases htask with ⟨_, rfl⟩ | rfl
    · cases ht
      cases hq
    · cases ht
  | advanced i visit stage next hi hq =>
    refine h.moved (fun _ hj _ => hj) fun _ _ ht hnext => ?_
    cases ht
    exact h i visit stage hi (hq hnext)
  | queried i visit next pool he =>
    exact h.moved (fun _ hj _ => (mem_execute he).mpr (Or.inr hj))
      fun _ _ _ _ => (mem_execute he).mpr (Or.inl rfl)
  | session i pool hi hkeep =>
    intro j visit stage hj hq
    refine hkeep j (h j visit stage hj hq) ?_
    rintro rfl
    cases hi.symm.trans hj
  | finished i =>
    exact h.moved (fun _ hj hne => mem_release.mpr ⟨hne, hj⟩) fun _ _ ht => by cases ht
  | changed users servers => exact h

theorem waits (h : Holding s) (hw : Waits s i) : i ∈ s.pool.holders := by
  obtain ⟨visit, hi⟩ := hw
  exact h i visit .waiting hi rfl

/- As many viewers as the pool has connections keep every request waiting. -/
theorem crowded (h : Holding s) {js : List ℕ} (hnodup : js.Nodup) (hwait : ∀ j ∈ js, Waits s j)
    (hcapacity : capacity ≤ js.length) (hi : s.tasks i = .request) :
    Viewers.step s (.execute i) = none := by
  have hnot : i ∉ js := by
    intro hmem
    obtain ⟨visit, hv⟩ := hwait i hmem
    cases hi.symm.trans hv
  have hblocked := execute_blocked hnodup (fun j hj => h.waits (hwait j hj)) hcapacity hnot
  simp [Viewers.step, hi, hblocked]

/- The two halves of `Spared` hold exactly when nobody is waiting. -/
theorem spared_iff (h : Holding s) : Spared s ↔ ∀ i, ¬ Waits s i := by
  constructor
  · intro hs i hw
    exact hs.idle i hw (h.waits hw)
  · intro hnone
    refine ⟨fun i hw => absurd hw (hnone i), fun i busy hi hbusy hlt => ?_⟩
    have hle : s.pool.holders.length ≤ busy.length :=
      (List.subperm_of_subset s.pool.nodup fun j hj => hbusy j hj (hnone j)).length_le
    obtain ⟨pool, he⟩ := execute_free (i := i) (p := s.pool) (Nat.lt_of_le_of_lt hle hlt)
    exact ⟨{ s with pool }, by simp [Viewers.step, hi, he]⟩

end Holding

section
variable {s t : Sys capacity}

theorem goto_waits {i j : ℕ} {task : Task} (h : ∀ visit, task ≠ .viewer visit .waiting)
    (hw : Waits (s.goto i task) j) : Waits s j := by
  obtain ⟨visit, hj⟩ := hw
  have hj : Function.update s.tasks i task j = .viewer visit .waiting := hj
  by_cases hji : j = i
  · subst hji
    rw [Function.update_self] at hj
    exact absurd hj (h visit)
  · rw [Function.update_of_ne hji] at hj
    exact ⟨visit, hj⟩

/- A viewer comes to wait by its subscription only. -/
theorem nobody_waits_step {l : Label} (hnone : ∀ i, ¬ Waits s i) (hok : NobodyWatches s l)
    (hs : step s l = some t) : ∀ i, ¬ Waits t i := by
  have hgoto : ∀ i (task : Task), (∀ visit, task ≠ .viewer visit .waiting) →
      ∀ j, ¬ Waits (s.goto i task) j := fun i task h j hw => hnone j (goto_waits h hw)
  cases step_move hs with
  | entered i task htask =>
    refine hgoto i task fun visit => ?_
    rcases htask with ⟨_, rfl⟩ | rfl
    · simp
    · simp
  | advanced i visit stage next hi _ hwait =>
    refine hgoto i _ fun _ hv => ?_
    obtain ⟨rfl, rfl⟩ := hwait (Task.viewer.inj hv).2
    exact hok visit hi
  | queried i visit next pool he hne => exact hgoto i _ fun _ hv => hne (Task.viewer.inj hv).2
  | session i pool => exact hnone
  | finished i => exact hgoto i .ended (by simp)
  | changed users servers => exact hnone

theorem watched_step {l : Label} (h : Holding s) (hn : ¬ NobodyWatches s l) :
    ∃ t, step s l = some t ∧ ¬ Spared t := by
  cases l with
  | subscribed i =>
    simp only [NobodyWatches, not_forall, not_not] at hn
    obtain ⟨visit, hi⟩ := hn
    have hs : step s (.subscribed i) = some (s.goto i (.viewer visit .waiting)) := by
      simp [step, hi]
    refine ⟨_, hs, fun hspared => ?_⟩
    exact ((h.step hs).spared_iff.mp hspared) i ⟨visit, Function.update_self _ _ _⟩
  | _ => exact absurd trivial hn

end

/- In a run the idle viewers leave the pool to the requests exactly when there are
none: no viewer ever gets through to its subscription. -/
theorem viewers_spared_iff_nobody_watches (capacity : ℕ) (users : List User)
    (servers : List Server) (ls : List Label) :
    Runs.Throughout step Spared (start capacity users servers) ls ↔
      Runs.Along step NobodyWatches (start capacity users servers) ls := by
  constructor
  · exact Runs.along_of_throughout Holding Spared NobodyWatches (fun _ _ _ h hs => h.step hs)
      (fun _ _ h hn => watched_step h hn) (Holding.start users servers)
  · refine Runs.throughout_of_invariant (fun s => Holding s ∧ ∀ i, ¬ Waits s i) Spared
      NobodyWatches ?_ (fun s h => h.1.spared_iff.mpr h.2) ⟨Holding.start users servers, ?_⟩
    · intro s l t h hok hs
      exact ⟨h.1.step hs, nobody_waits_step h.2 hok hs⟩
    · rintro i ⟨visit, hi⟩
      cases hi

/-! ### A full pool -/

def web : Server :=
  { id := 1, name := "web", ownerId := 1
    apiKeyHash := "$2b$12$KeyKeyKeyKeyKeyKeyKeyuesVTu4TTnTcmKD3ndIxeuApLoYmkWve" }

def opensPage (i : ℕ) : List Label :=
  [.connect i ⟨.logs, 1, some 1⟩, .authenticate i, .loadServer i, .accepted i, .subscribed i]

/- She has `n` pages open, and nobody else is there. -/
structure Crowd (n : ℕ) (s : Sys capacity) : Prop where
  users : s.users = [alice]
  servers : s.servers = [web]
  waiting : ∀ i < n, Waits s i
  free : ∀ i, n ≤ i → s.tasks i = .free
  holders : ∀ j ∈ s.pool.holders, j < n

theorem Crowd.opens {n : ℕ} {s : Sys capacity} (h : Crowd n s) (hn : n < capacity) :
    ∃ t, Runs.run step s (opensPage n) = some t ∧ Crowd (n + 1) t := by
  have hlen : s.pool.holders.length ≤ n := by
    have hsub := List.subperm_of_subset s.pool.nodup fun j hj => List.mem_range.mpr (h.holders j hj)
    simpa using hsub.length_le
  obtain ⟨pool, he⟩ := execute_free (i := n) (p := s.pool) (by omega)
  have hmine : n ∈ pool.holders := (mem_execute he).mpr (Or.inl rfl)
  let visit : Visit := ⟨.logs, 1, some 1⟩
  refine ⟨{ s.goto n (.viewer visit .waiting) with pool }, ?_, ?_⟩
  · simp [opensPage, Runs.run, step, Sys.goto, h.free n le_rfl, he, h.users, h.servers, alice, web,
      execute_holder hmine, visit]
  · refine ⟨h.users, h.servers, fun i hi => ?_, fun i hi => ?_, fun j hj => ?_⟩
    · by_cases hin : i = n
      · subst hin
        exact ⟨visit, Function.update_self _ _ _⟩
      · obtain ⟨v, hv⟩ := h.waiting i (by omega)
        exact ⟨v, (Function.update_of_ne hin _ _).trans hv⟩
    · have hin : i ≠ n := by omega
      exact (Function.update_of_ne hin _ _).trans (h.free i (by omega))
    · rcases (mem_execute he).mp hj with rfl | hj
      · omega
      · have hlt := h.holders j hj
        omega

theorem crowd_reached {n : ℕ} (hn : n ≤ capacity) :
    ∃ s, Runs.Reachable step (start capacity [alice] [web]) s ∧ Crowd n s := by
  induction n with
  | zero => exact ⟨_, ⟨[], rfl⟩, rfl, rfl, by simp, fun _ _ => rfl, by simp [start, empty]⟩
  | succ n ih =>
    obtain ⟨s, ⟨ls, hls⟩, hs⟩ := ih (by omega)
    obtain ⟨t, ht, hcrowd⟩ := hs.opens (by omega)
    exact ⟨t, ⟨ls ++ opensPage n, by rw [Runs.run_append, hls]; exact ht⟩, hcrowd⟩

/- Fifteen open pages use up the pool of five connections and ten overflow ones: the
next request gets none. -/
theorem pages_use_up_the_pool :
    ∃ s, Runs.Reachable step (start 15 [alice] [web]) s ∧ (∀ i < 15, Waits s i) ∧
      s.tasks 15 = .request ∧ step s (.execute 15) = none ∧ ¬ Spared s := by
  have hcrowd : ∃ s : Sys 15, Runs.Reachable step (start 15 [alice] [web]) s ∧ Crowd 15 s :=
    crowd_reached le_rfl
  obtain ⟨s, ⟨ls, hls⟩, hs⟩ := hcrowd
  have hrequest : step s (.request 15) = some (s.goto 15 .request) := by
    simp [step, hs.free 15 le_rfl]
  have hreach : Runs.Reachable step (start 15 [alice] [web]) (s.goto 15 .request) := by
    refine ⟨ls ++ [.request 15], ?_⟩
    rw [Runs.run_append, hls]
    simp [Runs.run, hrequest]
  have hold : Holding (s.goto 15 .request) :=
    Runs.reachable_invariant Holding (fun _ _ _ h => h.step) (Holding.start _ _) hreach
  have hwait : ∀ i < 15, Waits (s.goto 15 .request) i := by
    intro i hi
    obtain ⟨visit, hv⟩ := hs.waiting i hi
    exact ⟨visit, (Function.update_of_ne (by omega) _ _).trans hv⟩
  have htask : (s.goto 15 .request).tasks 15 = .request := by simp [Sys.goto]
  refine ⟨_, hreach, hwait, htask, ?_, fun hspared => ?_⟩
  · exact hold.crowded List.nodup_range (fun j hj => hwait j (List.mem_range.mp hj)) (by simp) htask
  · exact hold.spared_iff.mp hspared 0 (hwait 0 (by omega))

end PulseWatch.Viewers
