import PulseWatch.Evaluations
import PulseWatch.Lib.KeyedTable
import PulseWatch.ThresholdRaces

/-!
# The cooldown as a policy (`app/services/threshold.py`)

One system rule among others whose table may change between the calls, and the events
of a run of `evaluate_system_metrics` calls: they are those of a policy that looks at
this rule and the time of its last event alone.
-/

namespace PulseWatch.CooldownPolicy
open Alerts Threshold Evaluations

/- The arguments of a call, and the clocks it meets: the start of its transaction and
`datetime.now(UTC)`. -/
structure Call where
  serverId : ℕ
  metricData : MetricData
  createdAt : Instant
  now : Instant
  deriving DecidableEq, Repr

/- The tables, and every event with the clock of the call that created it. -/
structure State where
  tables : Tables
  recorded : List Recorded

inductive Label where
  | others (rules : List AlertRule)
  | call (c : Call)

def sampleOf (c : Call) : Sample := .system c.serverId c.metricData

section
variable (str : PyFloat.Str) (ruleId : ℕ)

/- Between the calls the table of rules may become any other one that has the same row
for `ruleId`; a call whose commit fails leaves everything as it is. -/
def step (s : State) : Label → Option State
  | .others rules =>
    if (rules.map AlertRule.id).Nodup ∧ (∀ r ∈ rules, flushRule r = some r) ∧
        rules.find? (·.id = ruleId) = s.tables.rules.find? (·.id = ruleId) then
      some { s with tables := { s.tables with rules } }
    else none
  | .call c =>
    match s.tables.evaluate str.toString (sampleOf c) c.createdAt c.now with
    | some (new, tables) => some ⟨tables, s.recorded ++ new.map (Recorded.mk · c.now)⟩
    | none => some s

end

/-- The events of a rule, oldest first, without the ids they got from the sequence. -/
def State.own (s : State) (ruleId : ℕ) : List Recorded :=
  (s.recorded.filter (·.event.ruleId = ruleId)).map fun e =>
    { e with event := { e.event with id := 0 } }

def lastTime (events : List Recorded) : Option Instant := events.getLast?.map Recorded.evaluatedAt

/-! ### The policy -/

section
variable (str : PyFloat.Str) (rule : AlertRule)

/- The value of a sample of the rule's server that breaches its threshold. -/
def breaches (c : Call) : Option PyFloat :=
  if c.serverId = rule.serverId then
    (c.metricData.get? rule.metricField).filter fun value =>
      compare value rule.operator rule.thresholdValue
  else none

def policyEvent (c : Call) (value : PyFloat) : Recorded where
  event :=
    { id := 0, ruleId := rule.id, serverId := rule.serverId, metricValue := value
      thresholdValue := rule.thresholdValue
      message := rule.name ++ ": " ++ rule.metricField ++ "=" ++ str.toString value ++ " " ++
        rule.operator.value ++ " " ++ str.toString rule.thresholdValue
      containerName := none, createdAt := c.createdAt }
  evaluatedAt := c.now

/- An event for a sample that breaches, unless the last event is too young. -/
def policy : Option Instant → List Call → List Recorded
  | _, [] => []
  | last, c :: cs =>
    match breaches rule c with
    | none => policy last cs
    | some value =>
      if ∀ t ∈ last, seconds rule.cooldownSeconds ≤ c.now - t then
        policyEvent str rule c value :: policy (some c.now) cs
      else policy last cs

end

def calls (ls : List Label) : List Call := ls.filterMap fun
  | .others _ => none
  | .call c => some c

/- The row of a rule whose `last_triggered_at` is the time of its last event. -/
def current (rule : AlertRule) (s : State) : AlertRule :=
  { rule with lastTriggeredAt := lastTime (s.own rule.id) }

/- A table of rules with the row of an active system rule in the state its events
ask for. -/
structure Watching (rule : AlertRule) (s : State) : Prop where
  row : current rule s ∈ s.tables.rules
  system : rule.metricType = .system
  active : rule.isActive = true
  ids : (s.tables.rules.map AlertRule.id).Nodup
  stored : ∀ r ∈ s.tables.rules, flushRule r = some r

/-! ### One call -/

section
variable (str : PyFloat.Str) {rule : AlertRule} {s : State}

theorem Watching.server_row (h : Watching rule s) (c : Call) :
    (sampleOf c).concerns (current rule s) = decide (c.serverId = rule.serverId) := by
  simp [sampleOf, Sample.concerns, current, h.system, h.active, eq_comm]

theorem Watching.decision (h : Watching rule s) (c : Call) :
    (sampleOf c).decision str.toString c.now (current rule s) =
      (breaches rule c).bind fun value =>
        if ∀ t ∈ lastTime (s.own rule.id), seconds rule.cooldownSeconds ≤ c.now - t then
          some ⟨current rule s, value, message str.toString none rule value, none⟩
        else none := by
  unfold Sample.decision breaches
  rw [h.server_row, fires_breach]
  by_cases hserver : c.serverId = rule.serverId
  · have hover : cooldownOver c.now (current rule s) = true ↔
        ∀ t ∈ lastTime (s.own rule.id), seconds rule.cooldownSeconds ≤ c.now - t := by
      rw [cooldownOver_iff]
      exact forall₂_congr fun t _ => le_sub_iff_add_le'.symm
    simp only [hserver, decide_true, if_true, hover]
    by_cases hlast : ∀ t ∈ lastTime (s.own rule.id), seconds rule.cooldownSeconds ≤ c.now - t
    · simp only [if_pos hlast, Option.map_eq_bind]
      rfl
    · simp only [if_neg hlast, Option.map_none, Option.bind_fun_none]
  · simp [hserver]

/- The commit of a call never fails: events of system rules fit. -/
theorem Watching.fits (h : Watching rule s) (c : Call) :
    ∀ p ∈ (sampleOf c).pending str.toString c.now s.tables.rules, Fits p := by
  intro p hp
  rw [pending_decisions] at hp
  obtain ⟨r, hr, hdec⟩ := List.mem_filterMap.mp hp
  unfold Sample.decision at hdec
  split at hdec
  · obtain ⟨value, -, rfl⟩ := Option.map_eq_some_iff.mp hdec
    exact system_fits str (h.stored r hr) value
  · cases hdec

theorem own_append (s : State) (tables : Tables) (new : List AlertEvent) (now : Instant)
    (ruleId : ℕ) :
    (⟨tables, s.recorded ++ new.map (Recorded.mk · now)⟩ : State).own ruleId =
      s.own ruleId ++ ((new.filter (·.ruleId = ruleId)).map fun e => { e with id := 0 }).map
        (Recorded.mk · now) := by
  simp only [State.own, List.filter_append, List.map_append, List.filter_map, List.map_map]
  rfl

/- The next event of the policy, if any. -/
def next (str : PyFloat.Str) (rule : AlertRule) (last : Option Instant) (c : Call) :
    Option Recorded :=
  (breaches rule c).bind fun value =>
    if ∀ t ∈ last, seconds rule.cooldownSeconds ≤ c.now - t then some (policyEvent str rule c value)
    else none

theorem policy_cons (last : Option Instant) (c : Call) (cs : List Call) :
    policy str rule last (c :: cs) = match next str rule last c with
      | none => policy str rule last cs
      | some e => e :: policy str rule (some c.now) cs := by
  rw [policy, next]
  cases breaches rule c with
  | none => rfl
  | some value =>
    by_cases hlast : ∀ t ∈ last, seconds rule.cooldownSeconds ≤ c.now - t
    · simp only [Option.bind_some, if_pos hlast]
    · simp only [Option.bind_some, if_neg hlast]

/- The decision of a call is the next event of the policy. -/
theorem Watching.next (h : Watching rule s) (c : Call) :
    ((sampleOf c).decision str.toString c.now (current rule s)).map
      (fun p => Recorded.mk (p.event 0 c.serverId c.createdAt) c.now) =
      CooldownPolicy.next str rule (lastTime (s.own rule.id)) c := by
  rw [h.decision str, CooldownPolicy.next]
  cases hb : breaches rule c with
  | none => rfl
  | some value =>
    have hserver : c.serverId = rule.serverId := by
      unfold breaches at hb
      split at hb
      · assumption
      · cases hb
    simp only [Option.bind_some]
    split
    · simp [policyEvent, Pending.event, message, current, hserver]
    · rfl

def State.after (str : PyFloat.Str) (s : State) (c : Call) : State :=
  let pending := (sampleOf c).pending str.toString c.now s.tables.rules
  let new := numbered (sampleOf c).serverId c.createdAt s.tables.nextEvent pending
  { tables :=
      { rules := s.tables.rules.map (trigger c.now pending)
        events := new ++ s.tables.events
        nextEvent := s.tables.nextEvent + pending.length }
    recorded := s.recorded ++ new.map (Recorded.mk · c.now) }

theorem Watching.step_call (h : Watching rule s) (c : Call) :
    step str rule.id s (.call c) = some (s.after str c) := by
  rw [step, evaluate_fits (h.fits str c)]
  rfl

theorem Watching.fired (h : Watching rule s) (c : Call) :
    ((sampleOf c).pending str.toString c.now s.tables.rules).filter (·.rule.id = rule.id) =
      ((sampleOf c).decision str.toString c.now (current rule s)).toList :=
  pending_rule str.toString (sampleOf c) c.now h.ids h.row

theorem Watching.own_after (h : Watching rule s) (c : Call) :
    (s.after str c).own rule.id = s.own rule.id ++
      (CooldownPolicy.next str rule (lastTime (s.own rule.id)) c).toList := by
  rw [State.after, own_append, numbered_own, h.fired, ← h.next str c]
  cases (sampleOf c).decision str.toString c.now (current rule s) <;> rfl

theorem next_time {str : PyFloat.Str} {rule : AlertRule} {last : Option Instant} {c : Call}
    {e : Recorded} (h : CooldownPolicy.next str rule last c = some e) : e.evaluatedAt = c.now := by
  obtain ⟨value, -, h⟩ := Option.bind_eq_some_iff.mp h
  split at h
  · rw [← Option.some.inj h]
    rfl
  · cases h

/- `last_triggered_at` follows the events. -/
theorem Watching.row_after (h : Watching rule s) (c : Call) :
    trigger c.now ((sampleOf c).pending str.toString c.now s.tables.rules) (current rule s) =
      current rule (s.after str c) := by
  have hown := h.own_after str c
  have hnext := h.next str c
  rw [trigger_filter, show (current rule s).id = rule.id from rfl, h.fired]
  cases hd : (sampleOf c).decision str.toString c.now (current rule s) with
  | none =>
    rw [hd] at hnext
    rw [← hnext] at hown
    simp only [Option.toList_none, if_true, current, hown, Option.map_none, List.append_nil]
  | some p =>
    rw [hd] at hnext
    rw [← hnext] at hown
    simp only [Option.toList_some, List.cons_ne_nil, if_false, current, hown, Option.map_some,
      lastTime, List.getLast?_append, List.getLast?_singleton, Option.some_or]

theorem Watching.after (h : Watching rule s) (c : Call) : Watching rule (s.after str c) := by
  refine ⟨?_, h.system, h.active, ?_, ?_⟩
  · refine List.mem_map.mpr ⟨current rule s, h.row, ?_⟩
    exact h.row_after str c
  · show ((s.tables.rules.map (trigger c.now _)).map AlertRule.id).Nodup
    rw [List.map_map, show AlertRule.id ∘ trigger c.now _ = AlertRule.id from
      funext fun r => (trigger_same _ _ r).1]
    exact h.ids
  · intro r hr
    obtain ⟨q, hq, rfl⟩ := List.mem_map.mp hr
    exact stored_trigger (h.stored q hq) _ _

theorem Watching.find (h : Watching rule s) :
    s.tables.rules.find? (·.id = rule.id) = some (current rule s) :=
  KeyedTable.get?_of_mem h.ids h.row rfl

theorem Watching.others (h : Watching rule s) {rules : List AlertRule} {s' : State}
    (hs : step str rule.id s (.others rules) = some s') :
    Watching rule s' ∧ s'.own rule.id = s.own rule.id := by
  rw [step] at hs
  split at hs
  · next hrules =>
    obtain ⟨hids, hstored, hsame⟩ := hrules
    obtain rfl := Option.some.inj hs
    refine ⟨⟨?_, h.system, h.active, hids, hstored⟩, rfl⟩
    rw [h.find] at hsame
    exact List.mem_of_find?_eq_some hsame
  · cases hs

end

/- The events of a system rule and its `last_triggered_at` after any run: those of the
policy, whatever the other rules are and become. -/
theorem policy_followed (str : PyFloat.Str) {rule : AlertRule} {s s' : State} {ls : List Label}
    (h : Watching rule s) (hr : Runs.run (step str rule.id) s ls = some s') :
    s'.own rule.id = s.own rule.id ++ policy str rule (lastTime (s.own rule.id)) (calls ls) ∧
      current rule s' ∈ s'.tables.rules := by
  induction ls generalizing s with
  | nil =>
    obtain rfl := Option.some.inj hr
    exact ⟨(List.append_nil _).symm, h.row⟩
  | cons l ls ih =>
    obtain ⟨t, ht, hrest⟩ := Runs.run_cons hr
    cases l with
    | others rules =>
      obtain ⟨hwatch, hown⟩ := h.others str ht
      have hind := ih hwatch hrest
      rwa [hown] at hind
    | call c =>
      have hstep := h.step_call str c
      obtain rfl := Option.some.inj (hstep.symm.trans ht)
      obtain ⟨hevents, hrow⟩ := ih (h.after str c) hrest
      refine ⟨?_, hrow⟩
      rw [hevents, h.own_after str c, show calls (.call c :: ls) = c :: calls ls from rfl,
        policy_cons]
      cases hn : next str rule (lastTime (s.own rule.id)) c with
      | none => simp
      | some e => simp [lastTime, next_time hn]

def tabledStr : PyFloat.Str where
  toString := tabledFloatStr
  short x := by
    unfold tabledFloatStr
    split
    · decide
    · split <;> decide
  plain x := by
    unfold tabledFloatStr
    split
    · decide
    · split <;> decide

/- A rule that has not fired yet. -/
def watched : State := ⟨⟨[cpuRule], [], 1⟩, []⟩

def hotCall (now : Instant) : Label := .call ⟨1, [("cpu_percent", some (.fin 90))], now, now⟩

/- The second sample comes within the cooldown of 300 s, the third at its end; a rule
without cooldown is added in between. -/
def watchedRun : List Label :=
  [hotCall 0, .others [{ cpuRule with lastTriggeredAt := some 0 },
    { cpuRule with id := 2, cooldownSeconds := 0 }], hotCall (seconds 299), hotCall (seconds 300)]

theorem policy_followed_thrice :
    ∃ s', Runs.run (step tabledStr 1) watched watchedRun = some s' ∧
      (s'.own 1).map Recorded.evaluatedAt = [0, seconds 300] ∧
      s'.recorded.map (fun e => e.event.ruleId) = [1, 2, 1, 2] := by
  have hwatch : Watching cpuRule watched := ⟨by decide, rfl, rfl, by decide, by decide⟩
  have hrun : Runs.run (step tabledStr 1) watched watchedRun = some _ := rfl
  have hown := (policy_followed tabledStr hwatch hrun).1
  exact ⟨_, hrun, (congrArg (List.map Recorded.evaluatedAt) hown).trans (by decide), by decide⟩

end PulseWatch.CooldownPolicy
