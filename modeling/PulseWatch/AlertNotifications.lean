import PulseWatch.AlertLifecycle

/-!
# Notifications of new events (`app/services/threshold.py`)

What an evaluation does after its COMMIT: for each new event a refresh of the row,
the Celery tasks of its rule's channels, a publication. Enqueueing and publishing
swallow their errors; the refresh stands outside any `try`, and both tasks of an event
inside one. Beside the calls runs everything that writes the tables.
-/

namespace PulseWatch.AlertNotifications
open Alerts Threshold

/-- An element of `pending` after the commit. -/
abbrev Due := AlertEvent × AlertRule

/- The place of a call of `evaluate_system_metrics` or `evaluate_docker_metrics`, with
the events whose notification it has tried and those still to come. -/
inductive Call where
  | idle
  | decided (reading : Reading) (evaluatedAt : Instant) (pending : List Pending)
  | refreshing (done todo : List Due)
  | enqueuing (done : List Due) (due : Due) (todo : List Due)
  | publishing (done todo : List Due)
  | returned (done : List Due)
  | raised (done lost : List Due)

structure State where
  db : Alerts.Db
  calls : ℕ → Call
  attempts : List Task
  queue : List Task

def init (now : Instant) : State := ⟨Alerts.init now, fun _ => .idle, [], []⟩

/- `raises` says which calls of `.delay` raise; whether a publication does is all the
same. `world` is any step of the REST API, the bot, the ingest or the resolvers. -/
inductive Label where
  | world (l : Alerts.Label)
  | load (i : ℕ) (reading : Reading)
  | commit (i : ℕ)
  | refresh (i : ℕ)
  | enqueue (i : ℕ) (raises : Task → Bool)
  | publish (i : ℕ)

def State.goto (s : State) (i : ℕ) (call : Call) : State :=
  { s with calls := Function.update s.calls i call }

def State.has (s : State) (due : Due) : Bool := s.db.events.any fun e => e.id = due.1.id

def tasks (due : Due) : List Task := enqueueNotifications due.1.id due.2.notificationChannels

/- `_enqueue_notifications` with its one `try`: the calls of `.delay` it makes, and those
that put a task into the queue. -/
def attempted (raises : Task → Bool) : List Task → List Task
  | [] => []
  | t :: ts => if raises t then [t] else t :: attempted raises ts

def enqueued (raises : Task → Bool) : List Task → List Task
  | [] => []
  | t :: ts => if raises t then [] else t :: enqueued raises ts

def continueWith (done : List Due) : List Due → Call
  | [] => .returned done
  | todo => .refreshing done todo

section
variable (cr : Crypto) (floatStr : PyFloat → String) (attrs : Attributes)

def step (s : State) : Label → Option State
  | .world l => (Alerts.step cr floatStr attrs s.db l).map fun db => { s with db }
  | .load i reading => match s.calls i with
    | .idle =>
      let rules := selectRules reading.metricType reading.serverId s.db.rules
      let pending := reading.evaluate floatStr s.db.fleet.now rules
      some (s.goto i (if pending = [] then .returned []
        else .decided reading s.db.fleet.now pending))
    | _ => none
  | .commit i => match s.calls i with
    | .decided reading evaluatedAt pending =>
      match s.db.insertEvents reading evaluatedAt s.db.nextEvent pending with
      | some new => some { s.goto i (continueWith [] (new.zip (pending.map Pending.rule))) with
          db := { s.db with
            rules := s.db.rules.map (trigger evaluatedAt pending)
            events := new ++ s.db.events
            nextEvent := s.db.nextEvent + pending.length } }
      | none => some (s.goto i (.raised [] []))
    | _ => none
  | .refresh i => match s.calls i with
    | .refreshing done (due :: todo) =>
      if s.has due then some (s.goto i (.enqueuing done due todo))
      else some (s.goto i (.raised done (due :: todo)))
    | _ => none
  | .enqueue i raises => match s.calls i with
    | .enqueuing done due todo => some { s.goto i (.publishing (done ++ [due]) todo) with
        attempts := s.attempts ++ attempted raises (tasks due)
        queue := s.queue ++ enqueued raises (tasks due) }
    | _ => none
  | .publish i => match s.calls i with
    | .publishing done todo => some (s.goto i (continueWith done todo))
    | _ => none

end

/-- The events the loop has behind it. -/
def Call.behind : Call → List Due
  | .refreshing done _ => done
  | .enqueuing done _ _ => done
  | .publishing done _ => done
  | .returned done => done
  | .raised done lost => done ++ lost
  | _ => []

/- Of the events a loop has behind it, those that still exist have each of their tasks
attempted. -/
def AllNotified (s : State) : Prop :=
  ∀ i, ∀ due ∈ (s.calls i).behind, s.has due = true → ∀ t ∈ tasks due, t ∈ s.attempts

/- No refresh finds its event gone while a later event of the call has tasks, and the
task of one channel is not lost to an error of the other. -/
def Undisturbed (s : State) : Label → Prop
  | .refresh i => ∀ done due todo, s.calls i = .refreshing done (due :: todo) →
      s.has due = false → ∀ later ∈ todo, s.has later = true → tasks later = []
  | .enqueue i raises => ∀ done due todo, s.calls i = .enqueuing done due todo →
      s.has due = true → "telegram" ∈ due.2.notificationChannels →
      "email" ∈ due.2.notificationChannels → raises (.sendTelegramAlert due.1.id) = false
  | _ => True

/-! ### Tasks -/

/-- The event a task is about. -/
def eventOf : Task → ℕ
  | .sendTelegramAlert id => id
  | .sendEmailAlert id => id

theorem tasks_eventOf {due : Due} {t : Task} (h : t ∈ tasks due) :
    eventOf t = due.1.id := by
  unfold tasks enqueueNotifications at h
  rcases List.mem_append.mp h with h | h
  · split at h
    · rw [List.mem_singleton.mp h]
      rfl
    · cases h
  · split at h
    · rw [List.mem_singleton.mp h]
      rfl
    · cases h

theorem attempted_subset (raises : Task → Bool) (ts : List Task) :
    attempted raises ts ⊆ ts := by
  induction ts with
  | nil => exact List.Subset.refl _
  | cons t ts ih =>
    rw [attempted]
    split
    · exact List.cons_subset_cons t (List.nil_subset ts)
    · exact List.cons_subset_cons t ih

/- Every task is attempted unless the first of two raises. -/
theorem attempted_tasks {raises : Task → Bool} {due : Due}
    (h : "telegram" ∈ due.2.notificationChannels → "email" ∈ due.2.notificationChannels →
      raises (.sendTelegramAlert due.1.id) = false) :
    attempted raises (tasks due) = tasks due := by
  unfold tasks enqueueNotifications
  by_cases ht : "telegram" ∈ due.2.notificationChannels
  · by_cases he : "email" ∈ due.2.notificationChannels
    · simp [ht, he, attempted, h ht he]
    · simp [ht, he, attempted]
  · by_cases he : "email" ∈ due.2.notificationChannels
    · simp [ht, he, attempted]
    · simp [ht, he, attempted]

theorem email_lost {raises : Task → Bool} {due : Due}
    (ht : "telegram" ∈ due.2.notificationChannels) (he : "email" ∈ due.2.notificationChannels)
    (hr : raises (.sendTelegramAlert due.1.id) = true) :
    .sendEmailAlert due.1.id ∈ tasks due ∧
      .sendEmailAlert due.1.id ∉ attempted raises (tasks due) := by
  simp [tasks, enqueueNotifications, ht, he, attempted, hr]

/-! ### Events that are gone stay gone -/

section
variable {cr : Crypto} {floatStr : PyFloat → String} {attrs : Attributes}

theorem has_iff {s : State} {due : Due} :
    s.has due = true ↔ ∃ e ∈ s.db.events, e.id = due.1.id := by
  simp [State.has]

theorem world_events {s s' : Alerts.Db} {l : Alerts.Label} (h : WellFormed s)
    (hm : Move attrs s l s') : ∀ e' ∈ s'.events, e'.id < s.nextEvent →
      ∃ e ∈ s.events, e.id = e'.id := by
  intro e' he' hlt
  rcases move_events h.toKeyed hm e' he' with ⟨q, hq, rfl | ⟨t, rfl⟩⟩ |
    ⟨i, reading, evaluatedAt, pending, rest, new, -, -, hnew, -, hin⟩
  · exact ⟨e', hq, rfl⟩
  · exact ⟨q, hq, rfl⟩
  · have hge := (insertEvents_id hnew hin).1
    omega

/- The INSERTs of a commit bring the events of a call, in the order of `pending`. -/
theorem committed_events {s : Alerts.Db} {reading : Reading} {createdAt : Instant}
    {pending : List Pending} {new : List AlertEvent}
    (h : s.insertEvents reading createdAt s.nextEvent pending = some new) :
    (new.zip (pending.map Pending.rule)).map (fun due => due.1.id) =
      List.range' s.nextEvent pending.length := by
  have hids := (insertEvents_new h).1
  have hlen : new.length = pending.length := by
    have hl := congrArg List.length hids
    rwa [List.length_map, List.length_range'] at hl
  rw [← hids, show (fun due : Due => due.1.id) = AlertEvent.id ∘ Prod.fst from rfl,
    ← List.map_map, List.map_fst_zip (by simp [hlen])]

/-! ### The invariant -/

def Call.due : Call → List Due
  | .refreshing done todo => done ++ todo
  | .enqueuing done due todo => done ++ due :: todo
  | .publishing done todo => done ++ todo
  | .returned done => done
  | .raised done lost => done ++ lost
  | _ => []

/-- Those whose tasks it has tried. -/
def Call.tried : Call → List Due
  | .refreshing done _ => done
  | .enqueuing done _ _ => done
  | .publishing done _ => done
  | .returned done => done
  | .raised done _ => done
  | _ => []

/- The ids of the events of all calls are distinct and used up, and an attempt is
about an event its call has tried. -/
structure Inv (s : State) : Prop where
  formed : WellFormed s.db
  below : ∀ i, ∀ due ∈ (s.calls i).due, due.1.id < s.db.nextEvent
  distinct : ∀ i, ((s.calls i).due.map fun due => due.1.id).Nodup
  apart : ∀ i j, i ≠ j → ∀ p ∈ (s.calls i).due, ∀ q ∈ (s.calls j).due, p.1.id ≠ q.1.id
  traced : ∀ t ∈ s.attempts, ∃ i, ∃ due ∈ (s.calls i).tried, eventOf t = due.1.id

theorem tried_subset (call : Call) : call.tried ⊆ call.due := by
  cases call with
  | idle => exact List.Subset.refl _
  | decided reading evaluatedAt pending => exact List.Subset.refl _
  | returned done => exact List.Subset.refl _
  | refreshing done todo => exact List.subset_append_left _ _
  | enqueuing done due todo => exact List.subset_append_left _ _
  | publishing done todo => exact List.subset_append_left _ _
  | raised done lost => exact List.subset_append_left _ _

theorem continueWith_due (done todo : List Due) : (continueWith done todo).due = done ++ todo := by
  cases todo with
  | nil => exact (List.append_nil done).symm
  | cons due todo => rfl

theorem continueWith_done (done todo : List Due) :
    (continueWith done todo).tried = done ∧ (continueWith done todo).behind = done := by
  cases todo with
  | nil => exact ⟨rfl, rfl⟩
  | cons due todo => exact ⟨rfl, rfl⟩

theorem Inv.init (now : Instant) : Inv (init now) where
  formed := WellFormed.init now
  below := fun i due h => by cases h
  distinct := fun i => List.nodup_nil
  apart := fun i j _ p hp => by cases hp
  traced := fun t h => by cases h

/- A call goes on with the same events; new attempts are about events it has tried. -/
theorem Inv.tries {s : State} (h : Inv s) {i : ℕ} {call : Call} (more queue : List Task)
    (hdue : call.due = (s.calls i).due) (htried : (s.calls i).tried ⊆ call.tried)
    (hmore : ∀ t ∈ more, ∃ due ∈ call.tried, eventOf t = due.1.id) :
    Inv { s.goto i call with attempts := s.attempts ++ more, queue := queue } := by
  have hall : ∀ j, (Function.update s.calls i call j).due = (s.calls j).due := by
    intro j
    by_cases hj : j = i
    · subst hj
      rw [Function.update_self, hdue]
    · rw [Function.update_of_ne hj]
  refine ⟨h.formed, fun j due hin => h.below j due (hall j ▸ hin), fun j => ?_,
    fun j k hjk p hp q hq => h.apart j k hjk p (hall j ▸ hp) q (hall k ▸ hq), fun t ht => ?_⟩
  · show ((Function.update s.calls i call j).due.map fun due => due.1.id).Nodup
    rw [hall]
    exact h.distinct j
  · rcases List.mem_append.mp ht with ht | ht
    · obtain ⟨j, due, hin, hid⟩ := h.traced t ht
      refine ⟨j, due, ?_, hid⟩
      show due ∈ (Function.update s.calls i call j).tried
      by_cases hj : j = i
      · subst hj
        rw [Function.update_self]
        exact htried hin
      · rw [Function.update_of_ne hj]
        exact hin
    · obtain ⟨due, hin, hid⟩ := hmore t ht
      refine ⟨i, due, ?_, hid⟩
      show due ∈ (Function.update s.calls i call i).tried
      rw [Function.update_self]
      exact hin

theorem Inv.goto {s : State} (h : Inv s) {i : ℕ} {call : Call}
    (hdue : call.due = (s.calls i).due) (htried : (s.calls i).tried ⊆ call.tried) :
    Inv (s.goto i call) := by
  have hstay := h.tries [] s.queue hdue htried fun t ht => by cases ht
  rw [List.append_nil] at hstay
  exact hstay

theorem Inv.commit {s : State} (h : Inv s) {i : ℕ} {reading : Reading} {evaluatedAt : Instant}
    {pending : List Pending} {new : List AlertEvent}
    (hi : s.calls i = .decided reading evaluatedAt pending)
    (hnew : s.db.insertEvents reading evaluatedAt s.db.nextEvent pending = some new) :
    Inv { s.goto i (continueWith [] (new.zip (pending.map Pending.rule))) with
      db := { s.db with
        rules := s.db.rules.map (trigger evaluatedAt pending)
        events := new ++ s.db.events
        nextEvent := s.db.nextEvent + pending.length } } := by
  have hids := committed_events hnew
  have hfresh : ∀ due ∈ new.zip (pending.map Pending.rule),
      s.db.nextEvent ≤ due.1.id ∧ due.1.id < s.db.nextEvent + pending.length := by
    intro due hin
    have hid : due.1.id ∈ List.range' s.db.nextEvent pending.length :=
      hids ▸ List.mem_map_of_mem (f := fun due : Due => due.1.id) hin
    exact List.mem_range'_1.mp hid
  have hself : ∀ j due, due ∈ (Function.update s.calls i
      (continueWith [] (new.zip (pending.map Pending.rule))) j).due →
      (j = i ∧ due ∈ new.zip (pending.map Pending.rule)) ∨
        (j ≠ i ∧ due ∈ (s.calls j).due) := by
    intro j due hin
    by_cases hj : j = i
    · subst hj
      rw [Function.update_self, continueWith_due] at hin
      exact Or.inl ⟨rfl, hin⟩
    · rw [Function.update_of_ne hj] at hin
      exact Or.inr ⟨hj, hin⟩
  refine ⟨(h.formed.inserted hnew).mapRules _ fun r => (trigger_same evaluatedAt pending r).1,
    fun j due hin => ?_, fun j => ?_, fun j k hjk p hp q hq => ?_, fun t ht => ?_⟩
  · show due.1.id < s.db.nextEvent + pending.length
    rcases hself j due hin with ⟨-, hin⟩ | ⟨-, hin⟩
    · exact (hfresh due hin).2
    · have hlt := h.below j due hin
      omega
  · show ((Function.update s.calls i _ j).due.map fun due => due.1.id).Nodup
    by_cases hj : j = i
    · subst hj
      rw [Function.update_self, continueWith_due, List.nil_append, hids]
      exact List.nodup_range'
    · rw [Function.update_of_ne hj]
      exact h.distinct j
  · rcases hself j p hp with ⟨hj, hp'⟩ | ⟨hj, hp'⟩
    · rcases hself k q hq with ⟨hk, hq'⟩ | ⟨hk, hq'⟩
      · exact absurd (hj.trans hk.symm) hjk
      · have hge := (hfresh p hp').1
        have hlt := h.below k q hq'
        omega
    · rcases hself k q hq with ⟨hk, hq'⟩ | ⟨hk, hq'⟩
      · have hge := (hfresh q hq').1
        have hlt := h.below j p hp'
        omega
      · exact h.apart j k hjk p hp' q hq'
  · obtain ⟨j, due, hin, hid⟩ := h.traced t ht
    refine ⟨j, due, ?_, hid⟩
    show due ∈ (Function.update s.calls i _ j).tried
    have hj : j ≠ i := by
      rintro rfl
      rw [hi] at hin
      cases hin
    rw [Function.update_of_ne hj]
    exact hin

theorem Inv.step {s s' : State} {l : Label} (h : Inv s)
    (hs : step cr floatStr attrs s l = some s') : Inv s' := by
  cases l with
  | world l =>
    obtain ⟨db, hdb, rfl⟩ := Option.map_eq_some_iff.mp hs
    have hm := step_move hdb
    have hgrow := move_nextEvent hm
    exact ⟨h.formed.move hm, fun i due hin => lt_of_lt_of_le (h.below i due hin) hgrow,
      h.distinct, h.apart, h.traced⟩
  | load i reading =>
    simp only [AlertNotifications.step] at hs
    split at hs
    · next hi =>
      obtain rfl := Option.some.inj hs
      refine h.goto ?_ ?_
      · rw [hi]
        split <;> rfl
      · rw [hi]
        exact List.nil_subset _
    · cases hs
  | commit i =>
    simp only [AlertNotifications.step] at hs
    split at hs
    · next reading evaluatedAt pending hi =>
      split at hs
      · next new hnew =>
        obtain rfl := Option.some.inj hs
        exact h.commit hi hnew
      · obtain rfl := Option.some.inj hs
        refine h.goto ?_ ?_
        · rw [hi]
          rfl
        · rw [hi]
          exact List.nil_subset _
    · cases hs
  | refresh i =>
    simp only [AlertNotifications.step] at hs
    split at hs
    · next done due todo hi =>
      split at hs
      · obtain rfl := Option.some.inj hs
        exact h.goto (by rw [hi]; rfl) (by rw [hi]; exact List.Subset.refl _)
      · obtain rfl := Option.some.inj hs
        exact h.goto (by rw [hi]; rfl) (by rw [hi]; exact List.Subset.refl _)
    · cases hs
  | enqueue i raises =>
    simp only [AlertNotifications.step] at hs
    split at hs
    · next done due todo hi =>
      obtain rfl := Option.some.inj hs
      refine h.tries _ _ ?_ ?_ fun t ht => ⟨due, ?_, tasks_eventOf (attempted_subset _ _ ht)⟩
      · rw [hi]
        simp [Call.due]
      · rw [hi]
        exact List.subset_append_left _ _
      · exact List.mem_append_right _ (List.mem_singleton_self due)
    · cases hs
  | publish i =>
    simp only [AlertNotifications.step] at hs
    split at hs
    · next done todo hi =>
      obtain rfl := Option.some.inj hs
      refine h.goto ?_ ?_
      · rw [hi, continueWith_due]
        rfl
      · rw [hi, (continueWith_done done todo).1]
        exact List.Subset.refl _
    · cases hs

/-! ### Notified or lost -/

/- A step that moves call `i` on and keeps the table of events. -/
theorem allNotified_tries {s : State} (h : AllNotified s) {i : ℕ} {call : Call}
    (more queue : List Task)
    (hnew : ∀ due ∈ call.behind, due ∈ (s.calls i).behind ∨ s.has due = false ∨
      ∀ t ∈ tasks due, t ∈ more) :
    AllNotified { s.goto i call with attempts := s.attempts ++ more, queue := queue } := by
  intro j due hin hhas t ht
  have hin' : due ∈ (Function.update s.calls i call j).behind := hin
  have hhas' : s.has due = true := hhas
  show t ∈ s.attempts ++ more
  by_cases hj : j = i
  · subst hj
    rw [Function.update_self] at hin'
    rcases hnew due hin' with hold | hgone | hmore
    · exact List.mem_append_left _ (h j due hold hhas' t ht)
    · rw [hgone] at hhas'
      cases hhas'
    · exact List.mem_append_right _ (hmore t ht)
  · rw [Function.update_of_ne hj] at hin'
    exact List.mem_append_left _ (h j due hin' hhas' t ht)

theorem behind_subset (call : Call) : call.behind ⊆ call.due := by
  cases call with
  | idle => exact List.Subset.refl _
  | decided reading evaluatedAt pending => exact List.Subset.refl _
  | returned done => exact List.Subset.refl _
  | refreshing done todo => exact List.subset_append_left _ _
  | enqueuing done due todo => exact List.subset_append_left _ _
  | publishing done todo => exact List.subset_append_left _ _
  | raised done lost => exact List.Subset.refl _

theorem allNotified_goto {s : State} (h : AllNotified s) {i : ℕ} {call : Call}
    (hnew : ∀ due ∈ call.behind, due ∈ (s.calls i).behind ∨ s.has due = false ∨ tasks due = []) :
    AllNotified (s.goto i call) := by
  have hgo := allNotified_tries h [] s.queue fun due hin => (hnew due hin).imp id
    (Or.imp id fun (hnil : tasks due = []) t ht => hnil ▸ ht)
  rw [List.append_nil] at hgo
  exact hgo

/- A call that has an event behind it has that event's id used up. -/
theorem allNotified_world {s : State} {db : Alerts.Db} {l : Alerts.Label} (hi : Inv s)
    (h : AllNotified s) (hm : Move attrs s.db l db) : AllNotified { s with db := db } := by
  intro i due hin hhas t ht
  refine h i due hin ?_ t ht
  obtain ⟨e', he', hid'⟩ := has_iff.mp hhas
  have hlt : e'.id < s.db.nextEvent := hid' ▸ hi.below i due (behind_subset _ hin)
  obtain ⟨e, he, hid⟩ := world_events hi.formed hm e' he' hlt
  exact has_iff.mpr ⟨e, he, hid.trans hid'⟩

theorem allNotified_commit {s : State} (hinv : Inv s) (h : AllNotified s) {i : ℕ}
    {reading : Reading} {evaluatedAt : Instant} {pending : List Pending} {new : List AlertEvent}
    (hnew : s.db.insertEvents reading evaluatedAt s.db.nextEvent pending = some new) :
    AllNotified { s.goto i (continueWith [] (new.zip (pending.map Pending.rule))) with
      db := { s.db with
        rules := s.db.rules.map (trigger evaluatedAt pending)
        events := new ++ s.db.events
        nextEvent := s.db.nextEvent + pending.length } } := by
  intro j due hin hhas t ht
  have hin' : due ∈ (Function.update s.calls i
    (continueWith [] (new.zip (pending.map Pending.rule))) j).behind := hin
  by_cases hj : j = i
  · subst hj
    rw [Function.update_self, (continueWith_done _ _).2] at hin'
    cases hin'
  · rw [Function.update_of_ne hj] at hin'
    refine h j due hin' ?_ t ht
    obtain ⟨e, he, hid⟩ := has_iff.mp hhas
    rcases List.mem_append.mp he with he | he
    · have hlt := hinv.below j due (behind_subset _ hin')
      have hge := (insertEvents_id hnew he).1
      omega
    · exact has_iff.mpr ⟨e, he, hid⟩

theorem allNotified_step {s s' : State} {l : Label} (hinv : Inv s) (h : AllNotified s)
    (hok : Undisturbed s l) (hs : step cr floatStr attrs s l = some s') : AllNotified s' := by
  cases l with
  | world l =>
    obtain ⟨db, hdb, rfl⟩ := Option.map_eq_some_iff.mp hs
    exact allNotified_world hinv h (step_move hdb)
  | load i reading =>
    simp only [step] at hs
    split at hs
    · obtain rfl := Option.some.inj hs
      refine allNotified_goto h fun due hin => ?_
      split at hin <;> cases hin
    · cases hs
  | commit i =>
    simp only [step] at hs
    split at hs
    · split at hs
      · next new hnew =>
        obtain rfl := Option.some.inj hs
        exact allNotified_commit hinv h hnew
      · obtain rfl := Option.some.inj hs
        exact allNotified_goto h fun due hin => by cases hin
    · cases hs
  | refresh i =>
    simp only [step] at hs
    split at hs
    · next done due todo hi =>
      split at hs
      · obtain rfl := Option.some.inj hs
        refine allNotified_goto h fun p hin => Or.inl ?_
        rw [hi]
        exact hin
      · next hgone =>
        obtain rfl := Option.some.inj hs
        have hgone : s.has due = false := Bool.eq_false_iff.mpr hgone
        refine allNotified_goto h fun p hin => ?_
        rcases List.mem_append.mp hin with hin | hin
        · rw [hi]
          exact Or.inl hin
        · rcases List.mem_cons.mp hin with rfl | hin
          · exact Or.inr (Or.inl hgone)
          · cases hp : s.has p with
            | false => exact Or.inr (Or.inl rfl)
            | true => exact Or.inr (Or.inr (hok done due todo hi hgone p hin hp))
    · cases hs
  | enqueue i raises =>
    simp only [step] at hs
    split at hs
    · next done due todo hi =>
      obtain rfl := Option.some.inj hs
      refine allNotified_tries h _ _ fun p hin => ?_
      rcases List.mem_append.mp hin with hin | hin
      · rw [hi]
        exact Or.inl hin
      · rw [List.mem_singleton.mp hin]
        cases hhas : s.has due with
        | false => exact Or.inr (Or.inl rfl)
        | true =>
          refine Or.inr (Or.inr fun t ht => ?_)
          rw [attempted_tasks (hok done due todo hi hhas)]
          exact ht
    · cases hs
  | publish i =>
    simp only [step] at hs
    split at hs
    · next done todo hi =>
      obtain rfl := Option.some.inj hs
      refine allNotified_goto h fun p hin => Or.inl ?_
      rw [(continueWith_done done todo).2] at hin
      rw [hi]
      exact hin
    · cases hs

/- An attempt is not about an event that its call has not tried. -/
theorem Inv.untried {s : State} (h : Inv s) {i : ℕ} {due : Due} (hdue : due ∈ (s.calls i).due)
    (hnot : ∀ p ∈ (s.calls i).tried, p.1.id ≠ due.1.id) {t : Task} (ht : t ∈ tasks due) :
    t ∉ s.attempts := by
  intro hin
  obtain ⟨j, p, hp, hid⟩ := h.traced t hin
  have hsame : p.1.id = due.1.id := hid.symm.trans (tasks_eventOf ht)
  by_cases hj : j = i
  · subst hj
    exact hnot p hp hsame
  · exact h.apart j i hj p (tried_subset _ hp) due hdue hsame

/- An event gone before its refresh, and a later one that is still there. -/
theorem lost_at_refresh {s : State} (hinv : Inv s) {i : ℕ} {done todo : List Due} {due later : Due}
    (hi : s.calls i = .refreshing done (due :: todo)) (hgone : s.has due = false)
    (hlater : later ∈ todo) (hhas : s.has later = true) (htasks : tasks later ≠ []) :
    step cr floatStr attrs s (.refresh i) = some (s.goto i (.raised done (due :: todo))) ∧
      ¬ AllNotified (s.goto i (.raised done (due :: todo))) := by
  refine ⟨by simp [step, hi, hgone], fun hall => ?_⟩
  obtain ⟨t, ht⟩ := List.exists_mem_of_ne_nil _ htasks
  have hbehind : later ∈ ((s.goto i (.raised done (due :: todo))).calls i).behind := by
    show later ∈ (Function.update s.calls i (.raised done (due :: todo)) i).behind
    rw [Function.update_self]
    exact List.mem_append_right _ (List.mem_cons_of_mem _ hlater)
  have hdue : later ∈ (s.calls i).due := by
    rw [hi]
    exact List.mem_append_right _ (List.mem_cons_of_mem _ hlater)
  refine hinv.untried hdue (fun p hp => ?_) ht (hall i later hbehind hhas t ht)
  have hdistinct := hinv.distinct i
  rw [hi] at hdistinct hp
  simp only [Call.due, List.map_append] at hdistinct
  exact (List.nodup_append.mp hdistinct).2.2 p.1.id (List.mem_map_of_mem hp) later.1.id
    (List.mem_map_of_mem (List.mem_cons_of_mem _ hlater))

/- The Telegram task raises, and the email of the same event is not tried. -/
theorem lost_at_enqueue {s : State} (hinv : Inv s) {i : ℕ} {raises : Task → Bool}
    {done todo : List Due} {due : Due} (hi : s.calls i = .enqueuing done due todo)
    (hhas : s.has due = true) (ht : "telegram" ∈ due.2.notificationChannels)
    (he : "email" ∈ due.2.notificationChannels)
    (hr : raises (.sendTelegramAlert due.1.id) = true) :
    ∃ s', step cr floatStr attrs s (.enqueue i raises) = some s' ∧ ¬ AllNotified s' := by
  obtain ⟨hemail, hlost⟩ := email_lost ht he hr
  refine ⟨_, by simp only [step, hi]; rfl, fun hall => ?_⟩
  have hbehind : due ∈ (Function.update s.calls i (.publishing (done ++ [due]) todo) i).behind := by
    rw [Function.update_self]
    exact List.mem_append_right _ (List.mem_singleton_self due)
  have hdue : due ∈ (s.calls i).due := by
    rw [hi]
    exact List.mem_append_right _ List.mem_cons_self
  rcases List.mem_append.mp (hall i due hbehind hhas _ hemail) with hold | hnew
  · refine hinv.untried hdue (fun p hp => ?_) hemail hold
    have hdistinct := hinv.distinct i
    rw [hi] at hdistinct hp
    simp only [Call.due, List.map_append] at hdistinct
    exact (List.nodup_append.mp hdistinct).2.2 p.1.id (List.mem_map_of_mem hp) due.1.id
      (List.mem_map_of_mem List.mem_cons_self)
  · exact hlost hnew

theorem disturbed {s : State} {l : Label} (hinv : Inv s) (hbad : ¬ Undisturbed s l) :
    ∃ s', step cr floatStr attrs s l = some s' ∧ ¬ AllNotified s' := by
  cases l with
  | refresh i =>
    simp only [Undisturbed, not_forall] at hbad
    obtain ⟨done, due, todo, hi, hgone, later, hlater, hhas, htasks⟩ := hbad
    exact ⟨_, lost_at_refresh hinv hi hgone hlater hhas htasks⟩
  | enqueue i raises =>
    simp only [Undisturbed, not_forall] at hbad
    obtain ⟨done, due, todo, hi, hhas, ht, he, hr⟩ := hbad
    exact lost_at_enqueue hinv hi hhas ht he (Bool.eq_true_of_not_eq_false hr)
  | world l => exact absurd trivial hbad
  | load i reading => exact absurd trivial hbad
  | commit i => exact absurd trivial hbad
  | publish i => exact absurd trivial hbad

theorem allNotified_init (now : Instant) : AllNotified (init now) := fun i due hin => by cases hin

end

/- A run notifies of every event that is still there exactly if all its steps are
`Undisturbed`. -/
theorem notified_exactly_on_undisturbed_runs (cr : Crypto) (floatStr : PyFloat → String)
    (attrs : Attributes) (now : Instant) (ls : List Label) :
    Runs.Throughout (step cr floatStr attrs) AllNotified (init now) ls ↔
      Runs.Along (step cr floatStr attrs) Undisturbed (init now) ls := by
  constructor
  · exact Runs.along_of_throughout Inv AllNotified Undisturbed (fun _ _ _ hi hs => hi.step hs)
      (fun _ _ hi hbad => disturbed hi hbad) (Inv.init now)
  · refine Runs.throughout_of_invariant (fun s => Inv s ∧ AllNotified s) AllNotified Undisturbed
      ?_ (fun _ hi => hi.2) ⟨Inv.init now, allNotified_init now⟩
    rintro s l s' ⟨hi, hall⟩ hok hs
    exact ⟨hi.step hs, allNotified_step hi hall hok hs⟩

/- Two rules on one server fire on one sample. -/
def twoEvents : List Label :=
  [.world (.fleet (.register 0 1 "web" "pwk_agent" "$2b$12$KeyKeyKeyKeyKeyKeyKeyu")),
    .world (.create 1 (cpuBody 1)), .world (.create 1 (cpuBody 1)),
    .load 0 (.system 1 (.fin 90) (.fin 10) (.fin 10)), .commit 0]

/- One of the rules is deleted before its event is refreshed: the other event stays and
no task of it is ever tried. In the second run the broker refuses the Telegram task. -/
theorem notification_lost :
    (∃ s, Runs.run (step tabledCrypto tabledFloatStr plainAttributes) (init 0)
        (twoEvents ++ [.world (.delete 1 2), .refresh 0]) = some s ∧
      s.db.events.map AlertEvent.id = [2] ∧
      (s.calls 0).behind.map (fun due => (due.1.id, tasks due)) =
        [(1, [.sendTelegramAlert 1, .sendEmailAlert 1]),
          (2, [.sendTelegramAlert 2, .sendEmailAlert 2])] ∧
      s.attempts = [] ∧ ¬ AllNotified s) ∧
    ∃ s, Runs.run (step tabledCrypto tabledFloatStr plainAttributes) (init 0)
        (twoEvents ++ [.refresh 0, .enqueue 0 fun _ => true]) = some s ∧
      s.db.events.map AlertEvent.id = [1, 2] ∧
      (s.calls 0).behind.map tasks = [[.sendTelegramAlert 1, .sendEmailAlert 1]] ∧
      s.attempts = [.sendTelegramAlert 1] ∧ ¬ AllNotified s := by
  constructor
  · refine ⟨_, rfl, by decide, by decide, by decide, fun hall => ?_⟩
    have hnone := hall 0 _ (List.mem_cons_of_mem _ List.mem_cons_self) (by decide)
      (.sendTelegramAlert 2) (by decide)
    exact absurd hnone (by decide)
  · refine ⟨_, rfl, by decide, by decide, by decide, fun hall => ?_⟩
    have hemail := hall 0 _ List.mem_cons_self (by decide) (.sendEmailAlert 1) (by decide)
    exact absurd hemail (by decide)

end PulseWatch.AlertNotifications
