import Mathlib.Data.List.Nodup
import Mathlib.Logic.Function.Basic
import Mathlib.Tactic.Linarith
import PulseWatch.Lib.Runs
import PulseWatch.Threshold

/-!
# Concurrent evaluations and the cooldown

An evaluation reads the rules in one statement, decides, and commits its events
together with `last_triggered_at` in another. Under READ COMMITTED nothing ties
the two together; `CooldownSafe` is the schedule on which a commit still finds
the `last_triggered_at` its evaluation has read.
-/

namespace PulseWatch.Threshold

/- The table `alert_rules`: ids are its primary key, and every path that writes a
rule checks `cooldown_seconds >= 0`. -/
structure RuleTable where
  rows : List AlertRule
  ids : (rows.map AlertRule.id).Nodup
  cooldowns : ∀ r ∈ rows, 0 ≤ r.cooldownSeconds

def triggered (now : Instant) (pending : List Pending) (r : AlertRule) : AlertRule :=
  if (pending.map fun p => p.rule.id).contains r.id then { r with lastTriggeredAt := some now }
  else r

@[simp] theorem triggered_id (now : Instant) (pending : List Pending) (r : AlertRule) :
    (triggered now pending r).id = r.id := by
  unfold triggered
  split <;> rfl

@[simp] theorem triggered_cooldown (now : Instant) (pending : List Pending) (r : AlertRule) :
    (triggered now pending r).cooldownSeconds = r.cooldownSeconds := by
  unfold triggered
  split <;> rfl

/- The UPDATEs of a commit. -/
def RuleTable.trigger (t : RuleTable) (now : Instant) (pending : List Pending) : RuleTable where
  rows := t.rows.map (triggered now pending)
  ids := by
    have hids : (t.rows.map (triggered now pending)).map AlertRule.id =
        t.rows.map AlertRule.id := by simp [Function.comp_def]
    rw [hids]
    exact t.ids
  cooldowns := by
    intro r hr
    obtain ⟨q, hq, rfl⟩ := List.mem_map.mp hr
    rw [triggered_cooldown]
    exact t.cooldowns q hq

/- A committed event with the time of the evaluation that decided it; the column
`created_at` holds the start of the transaction instead. -/
structure Recorded where
  event : AlertEvent
  evaluatedAt : Instant
  deriving DecidableEq, Repr

inductive Evaluation where
  | idle
  | loaded (reading : Reading) (began : Instant) (rules : List AlertRule)
  | decided (reading : Reading) (began evaluatedAt : Instant) (pending : List Pending)
  | returned (events : List AlertEvent)
  | failed
  deriving DecidableEq, Repr

/-- The evaluation is not in flight. -/
def Evaluation.isFinal : Evaluation → Bool
  | .loaded .. | .decided .. => false
  | _ => true

structure Db where
  now : Instant
  rules : RuleTable
  events : List Recorded
  nextEvent : ℕ
  evaluations : ℕ → Evaluation
  queue : List Task

def initDb (now : Instant) (rules : RuleTable) : Db := ⟨now, rules, [], 1, fun _ => .idle, []⟩

inductive EvalLabel where
  | tick (microseconds : ℕ)
  | load (i : ℕ) (reading : Reading) (began : Instant)
  | decide (i : ℕ)
  | commit (i : ℕ)
  | fail (i : ℕ)
  deriving DecidableEq, Repr

/- The INSERTs of a commit, ids from the sequence. -/
def record (reading : Reading) (began evaluatedAt : Instant) : ℕ → List Pending → List Recorded
  | _, [] => []
  | id, p :: ps => ⟨p.event id reading.serverId began, evaluatedAt⟩ ::
      record reading began evaluatedAt (id + 1) ps

def notify : ℕ → List Pending → List Task
  | _, [] => []
  | id, p :: ps => enqueueNotifications id p.rule.notificationChannels ++ notify (id + 1) ps

section
variable (floatStr : PyFloat → String)

def Db.goto (s : Db) (i : ℕ) (e : Evaluation) : Db :=
  { s with evaluations := Function.update s.evaluations i e }

/- The transaction of an evaluation has begun before its SELECT; a failed
statement or commit leaves the tables as they were. -/
def evalStep (s : Db) : EvalLabel → Option Db
  | .tick microseconds => some { s with now := s.now + (microseconds : ℤ) }
  | .load i reading began =>
    match s.evaluations i with
    | .idle =>
      if began ≤ s.now then
        some (s.goto i (.loaded reading began
          (selectRules reading.metricType reading.serverId s.rules.rows)))
      else none
    | _ => none
  | .decide i =>
    match s.evaluations i with
    | .loaded reading began rules =>
      let pending := reading.evaluate floatStr s.now rules
      some (s.goto i (if pending = [] then .returned [] else .decided reading began s.now pending))
    | _ => none
  | .commit i =>
    match s.evaluations i with
    | .decided reading began evaluatedAt pending =>
      let new := record reading began evaluatedAt s.nextEvent pending
      some { s.goto i (.returned (new.map Recorded.event)) with
        rules := s.rules.trigger evaluatedAt pending
        events := new ++ s.events
        nextEvent := s.nextEvent + pending.length
        queue := s.queue ++ notify s.nextEvent pending }
    | _ => none
  | .fail i =>
    match s.evaluations i with
    | .loaded .. | .decided .. => some (s.goto i .failed)
    | _ => none

end

/- Of two events of one rule the later one (events are newest first) was evaluated
at least the cooldown after the other. -/
def Spaced (rules : List AlertRule) (e f : Recorded) : Prop :=
  e.event.ruleId = f.event.ruleId → ∀ r ∈ rules, r.id = e.event.ruleId →
    seconds r.cooldownSeconds ≤ e.evaluatedAt - f.evaluatedAt

def CooldownKept (s : Db) : Prop := s.events.Pairwise (Spaced s.rules.rows)

/- No other evaluation has moved `last_triggered_at` of a firing rule since the
committing one read it. -/
def CooldownSafe (s : Db) : EvalLabel → Prop
  | .commit i => ∀ reading began evaluatedAt pending,
      s.evaluations i = .decided reading began evaluatedAt pending →
      ∀ p ∈ pending, ∀ r ∈ s.rules.rows, r.id = p.rule.id →
        r.lastTriggeredAt = p.rule.lastTriggeredAt
  | _ => True

/-! ### The invariant -/

/-- The loaded copy still has the id and the cooldown of a row. -/
def Copied (rows : List AlertRule) (q : AlertRule) : Prop :=
  ∃ r ∈ rows, r.id = q.id ∧ r.cooldownSeconds = q.cooldownSeconds

/-- What an evaluation in flight knows. -/
def Sound (rows : List AlertRule) : Evaluation → Prop
  | .loaded _ _ rules => (rules.map AlertRule.id).Nodup ∧ ∀ q ∈ rules, Copied rows q
  | .decided _ _ evaluatedAt pending => (pending.map fun p => p.rule.id).Nodup ∧
      ∀ p ∈ pending, Copied rows p.rule ∧ cooldownOver evaluatedAt p.rule = true
  | _ => True

structure CooldownInv (s : Db) : Prop where
  kept : CooldownKept s
  last : ∀ r ∈ s.rules.rows, ∀ e ∈ s.events, e.event.ruleId = r.id →
    ∃ t, r.lastTriggeredAt = some t ∧ e.evaluatedAt ≤ t
  sound : ∀ i, Sound s.rules.rows (s.evaluations i)

theorem RuleTable.unique (t : RuleTable) {q r : AlertRule} (hq : q ∈ t.rows) (hr : r ∈ t.rows)
    (h : q.id = r.id) : q = r := List.inj_on_of_nodup_map t.ids hq hr h

theorem mem_record {reading : Reading} {began evaluatedAt : Instant} {id : ℕ}
    {pending : List Pending} {e : Recorded}
    (h : e ∈ record reading began evaluatedAt id pending) :
    e.evaluatedAt = evaluatedAt ∧ ∃ p ∈ pending, e.event.ruleId = p.rule.id := by
  induction pending generalizing id with
  | nil => cases h
  | cons p ps ih =>
    rcases List.mem_cons.mp h with rfl | h
    · exact ⟨rfl, p, List.mem_cons_self, rfl⟩
    · obtain ⟨hat, q, hq, hid⟩ := ih h
      exact ⟨hat, q, List.mem_cons_of_mem _ hq, hid⟩

/- One commit inserts at most one event for each rule. -/
theorem record_distinct (reading : Reading) (began evaluatedAt : Instant) (id : ℕ)
    {pending : List Pending} (h : (pending.map fun p => p.rule.id).Nodup) :
    (record reading began evaluatedAt id pending).Pairwise fun e f =>
      e.event.ruleId ≠ f.event.ruleId := by
  induction pending generalizing id with
  | nil => exact List.Pairwise.nil
  | cons p ps ih =>
    have hcons := List.nodup_cons.mp h
    refine List.Pairwise.cons ?_ (ih (id + 1) hcons.2)
    intro f hf he
    obtain ⟨-, q, hq, hid⟩ := mem_record hf
    have hpq : q.rule.id = p.rule.id := (he.trans hid).symm
    exact hcons.1 (List.mem_map.mpr ⟨q, hq, hpq⟩)

theorem Copied.trigger {rows : List AlertRule} {q : AlertRule} (h : Copied rows q)
    (now : Instant) (pending : List Pending) :
    Copied (rows.map (triggered now pending)) q := by
  obtain ⟨r, hr, hid, hcool⟩ := h
  exact ⟨_, List.mem_map_of_mem hr, by rw [triggered_id]; exact hid,
    by rw [triggered_cooldown]; exact hcool⟩

theorem Sound.trigger {rows : List AlertRule} {e : Evaluation} (h : Sound rows e)
    (now : Instant) (pending : List Pending) : Sound (rows.map (triggered now pending)) e := by
  cases e with
  | loaded reading began rules => exact ⟨h.1, fun q hq => (h.2 q hq).trigger now pending⟩
  | decided reading began at' pend =>
    exact ⟨h.1, fun p hp => ⟨(h.2 p hp).1.trigger now pending, (h.2 p hp).2⟩⟩
  | idle => trivial
  | returned events => trivial
  | failed => trivial

theorem sound_update {rows : List AlertRule} {evaluations : ℕ → Evaluation}
    (h : ∀ i, Sound rows (evaluations i)) {i : ℕ} {e : Evaluation} (he : Sound rows e) (j : ℕ) :
    Sound rows (Function.update evaluations i e j) := by
  by_cases hj : j = i
  · subst hj
    rw [Function.update_self]
    exact he
  · rw [Function.update_of_ne hj]
    exact h j

namespace CooldownInv

theorem init (now : Instant) (rules : RuleTable) : CooldownInv (initDb now rules) :=
  ⟨List.Pairwise.nil, fun _ _ _ he => absurd he List.not_mem_nil, fun _ => trivial⟩

theorem goto {s : Db} (h : CooldownInv s) {i : ℕ} {e : Evaluation}
    (he : Sound s.rules.rows e) : CooldownInv (s.goto i e) :=
  ⟨h.kept, h.last, sound_update h.sound he⟩

theorem loading {s : Db} (h : CooldownInv s) (i : ℕ) (reading : Reading) (began : Instant) :
    CooldownInv (s.goto i (.loaded reading began
      (selectRules reading.metricType reading.serverId s.rules.rows))) := by
  have hsub : (selectRules reading.metricType reading.serverId s.rules.rows).Sublist
      s.rules.rows := List.filter_sublist
  refine h.goto ⟨(hsub.map AlertRule.id).nodup s.rules.ids, ?_⟩
  intro q hq
  exact ⟨q, hsub.subset hq, rfl, rfl⟩

theorem deciding {s : Db} (h : CooldownInv s) {floatStr : PyFloat → String} {i : ℕ}
    {reading : Reading} {began : Instant} {rules : List AlertRule}
    (hi : s.evaluations i = .loaded reading began rules) :
    Sound s.rules.rows
      (.decided reading began s.now (reading.evaluate floatStr s.now rules)) := by
  have hsound := h.sound i
  rw [hi] at hsound
  have hsub := (reading.evaluate_rules floatStr s.now rules).map AlertRule.id
  rw [List.map_map] at hsub
  refine ⟨hsub.nodup hsound.1, ?_⟩
  intro p hp
  obtain ⟨hmem, hover⟩ := Reading.mem_evaluate hp
  exact ⟨hsound.2 p.rule hmem, hover⟩

/- A new event against the old ones of its rule: these ended at the value of
`last_triggered_at` the evaluation has read, and its cooldown was over. -/
theorem new_spaced {s : Db} (h : CooldownInv s) {evaluatedAt : Instant} {pending : List Pending}
    (hsound : ∀ p ∈ pending, Copied s.rules.rows p.rule ∧ cooldownOver evaluatedAt p.rule = true)
    (hsafe : ∀ p ∈ pending, ∀ r ∈ s.rules.rows, r.id = p.rule.id →
      r.lastTriggeredAt = p.rule.lastTriggeredAt)
    {p : Pending} (hp : p ∈ pending) {r : AlertRule} (hr : r ∈ s.rules.rows)
    (hid : r.id = p.rule.id) {f : Recorded} (hf : f ∈ s.events) (hfid : f.event.ruleId = r.id) :
    seconds r.cooldownSeconds ≤ evaluatedAt - f.evaluatedAt := by
  obtain ⟨t, ht, hle⟩ := h.last r hr f hf hfid
  obtain ⟨⟨q, hq, hqid, hcool⟩, hover⟩ := hsound p hp
  obtain rfl := s.rules.unique hq hr (hqid.trans hid.symm)
  have hlast : p.rule.lastTriggeredAt = some t := (hsafe p hp q hq hid).symm.trans ht
  have hgap := cooldownOver_iff.mp hover t hlast
  rw [← hcool] at hgap
  linarith

/- The events of a commit, against each other and against the older ones. -/
theorem commit_kept {s : Db} (h : CooldownInv s) {reading : Reading} {began evaluatedAt : Instant}
    {pending : List Pending} (hids : (pending.map fun p => p.rule.id).Nodup)
    (hsound : ∀ p ∈ pending, Copied s.rules.rows p.rule ∧ cooldownOver evaluatedAt p.rule = true)
    (hsafe : ∀ p ∈ pending, ∀ r ∈ s.rules.rows, r.id = p.rule.id →
      r.lastTriggeredAt = p.rule.lastTriggeredAt) :
    (record reading began evaluatedAt s.nextEvent pending ++ s.events).Pairwise
      (Spaced (s.rules.trigger evaluatedAt pending).rows) := by
  rw [List.pairwise_append]
  refine ⟨?_, ?_, ?_⟩
  · refine (record_distinct reading began evaluatedAt s.nextEvent hids).imp ?_
    intro e f hne hid
    exact absurd hid hne
  · refine h.kept.imp ?_
    intro e f hef hid r hr hrid
    obtain ⟨q, hq, rfl⟩ := List.mem_map.mp hr
    rw [triggered_id] at hrid
    rw [triggered_cooldown]
    exact hef hid q hq hrid
  · intro e he f hf hid r hr hrid
    obtain ⟨hat, p, hp, hpid⟩ := mem_record he
    obtain ⟨q, hq, rfl⟩ := List.mem_map.mp hr
    rw [triggered_id] at hrid
    rw [triggered_cooldown, hat]
    exact h.new_spaced hsound hsafe hp hq (hrid.trans hpid) hf (hid.symm.trans hrid.symm)

/- After a commit `last_triggered_at` is again not before any event of its rule. -/
theorem commit_last {s : Db} (h : CooldownInv s) {reading : Reading} {began evaluatedAt : Instant}
    {pending : List Pending}
    (hsound : ∀ p ∈ pending, Copied s.rules.rows p.rule ∧ cooldownOver evaluatedAt p.rule = true)
    (hsafe : ∀ p ∈ pending, ∀ r ∈ s.rules.rows, r.id = p.rule.id →
      r.lastTriggeredAt = p.rule.lastTriggeredAt)
    {q : AlertRule} (hq : q ∈ s.rules.rows) {e : Recorded}
    (he : e ∈ record reading began evaluatedAt s.nextEvent pending ++ s.events)
    (hid : e.event.ruleId = q.id) :
    ∃ t, (triggered evaluatedAt pending q).lastTriggeredAt = some t ∧ e.evaluatedAt ≤ t := by
  unfold triggered
  split
  · next hin =>
    refine ⟨evaluatedAt, rfl, ?_⟩
    obtain ⟨p, hp, hpid⟩ : ∃ p ∈ pending, p.rule.id = q.id := by simpa using hin
    rcases List.mem_append.mp he with hnew | hold
    · exact le_of_eq (mem_record hnew).1
    · have hgap := h.new_spaced hsound hsafe hp hq hpid.symm hold hid
      have hcool : 0 ≤ seconds q.cooldownSeconds :=
        Int.mul_nonneg (s.rules.cooldowns q hq) (by decide)
      linarith
  · next hout =>
    rcases List.mem_append.mp he with hnew | hold
    · obtain ⟨-, p, hp, hpid⟩ := mem_record hnew
      have hpq : p.rule.id = q.id := hpid.symm.trans hid
      have hin : ∃ p ∈ pending, p.rule.id = q.id := ⟨p, hp, hpq⟩
      exact absurd (by simpa using hin) hout
    · exact h.last q hq e hold hid

theorem committing {s : Db} (h : CooldownInv s) {i : ℕ} {reading : Reading}
    {began evaluatedAt : Instant} {pending : List Pending} {e : Evaluation} {s' : Db}
    (hi : s.evaluations i = .decided reading began evaluatedAt pending)
    (hsafe : ∀ p ∈ pending, ∀ r ∈ s.rules.rows, r.id = p.rule.id →
      r.lastTriggeredAt = p.rule.lastTriggeredAt)
    (hrules : s'.rules = s.rules.trigger evaluatedAt pending)
    (hevents : s'.events =
      record reading began evaluatedAt s.nextEvent pending ++ s.events)
    (hevals : s'.evaluations = Function.update s.evaluations i e) (he : e.isFinal = true) :
    CooldownInv s' := by
  have hsound := h.sound i
  rw [hi] at hsound
  constructor
  · rw [CooldownKept, hevents, hrules]
    exact h.commit_kept hsound.1 hsound.2 hsafe
  · intro r hr e he hid
    rw [hrules] at hr
    obtain ⟨q, hq, rfl⟩ := List.mem_map.mp hr
    rw [hevents] at he
    rw [triggered_id] at hid
    exact h.commit_last hsound.2 hsafe hq he hid
  · intro j
    rw [hrules, hevals]
    refine sound_update (fun k => (h.sound k).trigger evaluatedAt pending) ?_ j
    cases e with
    | idle => trivial
    | returned events => trivial
    | failed => trivial
    | loaded reading began rules => cases he
    | decided reading began at' pend => cases he

theorem step {s s' : Db} {floatStr : PyFloat → String} {l : EvalLabel} (h : CooldownInv s)
    (hok : CooldownSafe s l) (hs : evalStep floatStr s l = some s') : CooldownInv s' := by
  cases l with
  | tick us =>
    obtain rfl := Option.some.inj hs
    exact ⟨h.kept, h.last, h.sound⟩
  | load i reading began =>
    simp only [evalStep] at hs
    split at hs
    · split at hs
      · obtain rfl := Option.some.inj hs
        exact h.loading i reading began
      · cases hs
    · cases hs
  | decide i =>
    simp only [evalStep] at hs
    split at hs
    · next reading began rules hi =>
      obtain rfl := Option.some.inj hs
      refine h.goto ?_
      split
      · trivial
      · exact h.deciding hi
    · cases hs
  | commit i =>
    simp only [evalStep] at hs
    split at hs
    · next reading began evaluatedAt pending hi =>
      obtain rfl := Option.some.inj hs
      exact h.committing hi (hok reading began evaluatedAt pending hi) rfl rfl rfl rfl
    · cases hs
  | fail i =>
    simp only [evalStep] at hs
    split at hs
    · obtain rfl := Option.some.inj hs
      exact h.goto trivial
    · obtain rfl := Option.some.inj hs
      exact h.goto trivial
    · cases hs

end CooldownInv

/- In every run on a `CooldownSafe` schedule any two events of a rule are at least
its cooldown apart. -/
theorem cooldown_kept_on_safe_runs (floatStr : PyFloat → String) (now : Instant)
    (rules : RuleTable) (ls : List EvalLabel)
    (hok : Runs.Along (evalStep floatStr) CooldownSafe (initDb now rules) ls) :
    Runs.Throughout (evalStep floatStr) CooldownKept (initDb now rules) ls :=
  Runs.throughout_of_invariant CooldownInv CooldownKept CooldownSafe
    (fun _ _ _ hi hsafe hs => hi.step hsafe hs) (fun _ hi => hi.kept)
    (CooldownInv.init now rules) hok

def cpuTable : RuleTable := ⟨[cpuRule], by decide, by decide⟩

/-- A sample of 90 % cpu on server 1. -/
def hotReading : Reading := .system 1 (.fin 90) (.fin 10) (.fin 10)

/- Two evaluations, the second one as soon as the cooldown is over. -/
def hotTwice : List EvalLabel :=
  [.load 0 hotReading 0, .decide 0, .commit 0, .tick 300000000, .load 1 hotReading 300000000,
    .decide 1, .commit 1]

theorem cooldown_kept_on_safe_runs_twice :
    Runs.Throughout (evalStep tabledFloatStr) CooldownKept (initDb 0 cpuTable) hotTwice ∧
      (Runs.run (evalStep tabledFloatStr) (initDb 0 cpuTable) hotTwice).map
        (fun s => s.events.map fun e => (e.event.ruleId, e.evaluatedAt)) =
          some [(1, 300000000), (1, 0)] := by
  refine ⟨cooldown_kept_on_safe_runs tabledFloatStr 0 cpuTable hotTwice ?_, by decide⟩
  refine ⟨trivial, fun s₁ h₁ => ⟨trivial, fun s₂ h₂ => ⟨?_, fun s₃ h₃ => ⟨trivial, fun s₄ h₄ =>
    ⟨trivial, fun s₅ h₅ => ⟨trivial, fun s₆ h₆ => ⟨?_, fun _ _ => trivial⟩⟩⟩⟩⟩⟩⟩
  · obtain rfl := Option.some.inj h₁
    obtain rfl := Option.some.inj h₂
    intro reading began evaluatedAt pending hi
    cases hi
    decide
  · obtain rfl := Option.some.inj h₁
    obtain rfl := Option.some.inj h₂
    obtain rfl := Option.some.inj h₃
    obtain rfl := Option.some.inj h₄
    obtain rfl := Option.some.inj h₅
    obtain rfl := Option.some.inj h₆
    intro reading began evaluatedAt pending hi
    cases hi
    decide

/- Two requests overlap: both read the rule before either has committed, and both
commit an event, at the same instant. -/
theorem cooldown_broken_by_overlap :
    ∃ s, Runs.run (evalStep tabledFloatStr) (initDb 0 cpuTable)
        [.load 0 hotReading 0, .load 1 hotReading 0, .decide 0, .decide 1, .commit 0,
          .commit 1] = some s ∧
      s.events.map (fun e => (e.event.ruleId, e.evaluatedAt)) = [(1, 0), (1, 0)] ∧
      s.rules.rows.map AlertRule.cooldownSeconds = [300] ∧ ¬ CooldownKept s := by
  refine ⟨_, rfl, by decide, by decide, ?_⟩
  intro h
  have hgap := (List.pairwise_cons.mp h).1 _ List.mem_cons_self rfl _ List.mem_cons_self rfl
  exact absurd hgap (by decide)

end PulseWatch.Threshold
