import PulseWatch.CooldownPolicy
import PulseWatch.DockerBatch

/-!
# How long an event gets (`app/services/threshold.py`)

`docker_metrics.container_name` is TEXT, but `alert_events.container_name` is
VARCHAR(255), and the message, VARCHAR(500), is put together from a rule name, a
container name and a field that have limits of their own. An event that does not fit
fails the COMMIT of its evaluation, and every event of that COMMIT with it.
-/

namespace PulseWatch.DockerBatch
open Alerts Threshold Evaluations

/-! ### The rules a table can hold -/

theorem storeInt_stored {n m : ℤ} (h : storeInt n = some m) : storeInt m = some m := by
  unfold storeInt at h ⊢
  split at h
  · next hn =>
    obtain rfl := Option.some.inj h
    rw [if_pos hn]
  · cases h

theorem flushRule_stored {r row : AlertRule} (h : flushRule r = some row) : Stored row := by
  obtain ⟨hname, hfield, hcontainer, hcooldown, -⟩ := flushRule_flushed h
  simp only [Stored, flushRule, PgText.varchar_stored hname, PgText.varchar_stored hfield,
    PgText.varchar?_stored hcontainer, storeInt_stored hcooldown, Option.bind_eq_bind,
    Option.bind_some, Option.pure_def]

theorem updateRule_stored {data : AlertRuleUpdate} {r row : AlertRule}
    (h : updateRule data r = some row) : Stored row := by
  obtain ⟨q, -, hrow⟩ := updateRule_patched h
  exact flushRule_stored hrow

/- `/toggle` changes a column that is no text. -/
theorem stored_toggle {r : AlertRule} (h : Stored r) :
    Stored { r with isActive := !r.isActive } := by
  have hrow := congrArg (Option.map fun q : AlertRule => { q with isActive := !r.isActive }) h
  simp only [flushRule, Option.bind_eq_bind, Option.pure_def, Option.map_bind, Option.map_some,
    Function.comp_def] at hrow
  exact hrow

def AllStored (s : Alerts.Db) : Prop := ∀ r ∈ s.rules, Stored r

theorem AllStored.add {s t : Alerts.Db} (h : AllStored s) {rule : AlertRule}
    (ht : s.addRule rule = some t) : AllStored t := by
  obtain ⟨row, hrow, -, rfl⟩ := addRule_inv ht
  intro r hr
  rcases List.mem_cons.mp hr with rfl | hr
  · exact flushRule_stored hrow
  · exact h r hr

theorem AllStored.put {s : Alerts.Db} (h : AllStored s) {row : AlertRule} (hrow : Stored row) :
    AllStored (s.putRule row) := by
  intro r hr
  obtain ⟨q, hq, rfl⟩ := List.mem_map.mp hr
  split
  · exact hrow
  · exact h q hq

section
variable {cr : Crypto} {floatStr : PyFloat → String} {attrs : Attributes}

theorem origin_stored {s : Alerts.Db} {l : Alerts.Label} {q : AlertRule} (h : AllStored s)
    (ho : Origin s q l) : Stored q := by
  cases ho with
  | kept mem => exact h q mem
  | toggled r mem same => exact same ▸ stored_toggle (h r mem)
  | triggered r evaluatedAt pending mem same =>
    exact same ▸ stored_trigger (h r mem) evaluatedAt pending
  | created ownerId body data valid own row => exact flushRule_stored row
  | patched ownerId ruleId body data r valid found row => exact updateRule_stored row
  | confirmed ownerId draft row => exact flushRule_stored row

theorem step_stored {s s' : Alerts.Db} {l : Alerts.Label} (h : AllStored s)
    (hs : Alerts.step cr floatStr attrs s l = some s') : AllStored s' :=
  fun _ hq => origin_stored h (step_origin hs hq)

/- So does every rule the API and the bot have stored. -/
theorem reachable_stored {now : Instant} {s : Alerts.Db}
    (h : Runs.Reachable (Alerts.step cr floatStr attrs) (Alerts.init now) s) : AllStored s :=
  Runs.reachable_invariant AllStored (fun _ _ _ => step_stored)
    (fun _ hr => absurd hr List.not_mem_nil) h

end

/-! ### One evaluation -/

section
variable (floatStr : PyFloat → String) (serverId : ℕ) (item : DockerMetricCreate) (t : Tables)

/- The characters of a message, from its parts. -/
def messageSize (r : AlertRule) (value : PyFloat) : ℕ :=
  r.name.toList.length + item.containerName.toList.length + r.metricField.toList.length +
    (floatStr value).toList.length + r.operator.value.toList.length +
    (floatStr r.thresholdValue).toList.length + 6

/- A rule fires on a value of the container. -/
def Fires (now : Instant) (r : AlertRule) (value : PyFloat) : Prop :=
  (sampleOf serverId item).concerns r = true ∧ cooldownOver now r = true ∧
    (sampleOf serverId item).breach r = some value

/- Every event is short enough for its row, and the COMMIT stores one for each rule
that fires. -/
structure Whole (createdAt now : Instant) : Prop where
  lengths : ∀ p ∈ (sampleOf serverId item).pending floatStr now t.rules,
    p.message.toList.length ≤ 500 ∧ ∀ c, p.containerName = some c → c.toList.length ≤ 255
  stored : ∃ t', t.evaluate floatStr (sampleOf serverId item) createdAt now =
    some (numbered serverId createdAt t.nextEvent
      ((sampleOf serverId item).pending floatStr now t.rules), t')

end

section
variable {floatStr : PyFloat → String} {serverId : ℕ} {item : DockerMetricCreate} {t : Tables}
  {now : Instant}

theorem mem_pending {p : Pending} :
    p ∈ (sampleOf serverId item).pending floatStr now t.rules ↔
      ∃ r ∈ t.rules, ∃ value, Fires serverId item now r value ∧
        p = ⟨r, value, message floatStr (some item.containerName) r value,
          some item.containerName⟩ := by
  rw [pending_decisions, List.mem_filterMap]
  refine exists_congr fun r => and_congr_right fun _ => ?_
  unfold Sample.decision Fires
  rw [fires_breach]
  cases (sampleOf serverId item).concerns r with
  | false => simp
  | true =>
    cases cooldownOver now r with
    | false => simp
    | true =>
      simp only [if_true, Option.map_eq_some_iff, true_and]
      exact exists_congr fun value => and_congr_right fun _ => eq_comm

theorem size_message (r : AlertRule) (value : PyFloat) :
    (message floatStr (some item.containerName) r value).toList.length =
      messageSize floatStr item r value := by
  rw [message_length, Option.map_some, Option.getD_some, messageSize]
  omega

end

/- A name the handler has stored has no NUL. -/
theorem storable_plain {item : DockerMetricCreate}
    (h : Fleet.DockerMetricCreate.storable item = true) :
    '\x00' ∉ item.containerName.toList := by
  intro hnul
  have hname := List.all_eq_true.mp h item.containerName (by simp)
  simp [PgText.text, hnul] at hname

theorem whole_iff {str : PyFloat.Str} {serverId : ℕ} {item : DockerMetricCreate} {t : Tables}
    {createdAt now : Instant} (hitem : Fleet.DockerMetricCreate.storable item = true)
    (hrules : ∀ r ∈ t.rules, Stored r) :
    Whole str.toString serverId item t createdAt now ↔
      ∀ r ∈ t.rules, ∀ value, Fires serverId item now r value →
        messageSize str.toString item r value ≤ 500 ∧ item.containerName.toList.length ≤ 255 := by
  constructor
  · intro h r hr value hfires
    obtain ⟨hmessage, hcontainer⟩ := h.lengths _ (mem_pending.mpr ⟨r, hr, value, hfires, rfl⟩)
    rw [size_message] at hmessage
    exact ⟨hmessage, hcontainer _ rfl⟩
  · intro h
    refine ⟨?_, _, evaluate_fits ?_⟩
    · intro p hp
      obtain ⟨r, hr, value, hfires, rfl⟩ := mem_pending.mp hp
      obtain ⟨hmessage, hcontainer⟩ := h r hr value hfires
      rw [size_message]
      exact ⟨hmessage, fun c hc => Option.some.inj hc ▸ hcontainer⟩
    · intro p hp
      obtain ⟨r, hr, value, hfires, rfl⟩ := mem_pending.mp hp
      obtain ⟨hmessage, hcontainer⟩ := h r hr value hfires
      have hname := storable_plain hitem
      have hplain := message_plain str.plain (fun c hc => Option.some.inj hc ▸ hname)
        (hrules r hr) value
      refine ⟨varchar_fitting (size_message r value ▸ hmessage) hplain, ?_⟩
      rw [PgText.varchar?, varchar_fitting hcontainer hname]
      rfl

theorem whole_iff_short : Whole tabledFloatStr 1 (busy "web") ⟨[dockerRule], [], 1⟩ 0 0 := by
  refine (@whole_iff CooldownPolicy.tabledStr 1 (busy "web") ⟨[dockerRule], [], 1⟩ 0 0 (by decide)
    (by decide)).mpr fun r hr value hfires => ?_
  obtain rfl := List.mem_singleton.mp hr
  obtain rfl := Option.some.inj (hfires.2.2.symm.trans (show _ = some (.fin 90) by decide))
  exact ⟨by decide, by decide⟩

/- An event that does not fit takes every event of its COMMIT with it. -/
theorem insertRows_refused {serverId : ℕ} {createdAt : Instant} {pending : List Pending}
    {p : Pending} (hp : p ∈ pending)
    (h : ∀ id, flushEvent (p.event id serverId createdAt) = none) (id : ℕ) :
    insertRows serverId createdAt id pending = none := by
  induction pending generalizing id with
  | nil => cases hp
  | cons q ps ih =>
    rw [insertRows]
    split
    · rfl
    · next e he =>
      rcases List.mem_cons.mp hp with rfl | hp
      · rw [h id] at he
        cases he
      · rw [ih hp]
        rfl

theorem evaluate_refused {floatStr : PyFloat → String} {t : Tables} {x : Sample}
    {createdAt now : Instant} {p : Pending} (hp : p ∈ x.pending floatStr now t.rules)
    (h : ∀ id, flushEvent (p.event id x.serverId createdAt) = none) :
    t.evaluate floatStr x createdAt now = none := by
  unfold Tables.evaluate
  split
  · next hnil =>
    rw [hnil] at hp
    cases hp
  · rw [Tables.commit, insertRows_refused hp h]
    rfl

def repeated (n : ℕ) (c : Char) : String := String.ofList (List.replicate n c)

theorem repeated_length (n : ℕ) (c : Char) : (repeated n c).toList.length = n := by
  rw [repeated, String.toList_ofList, List.length_replicate]

theorem repeated_plain (n : ℕ) {c : Char} (hc : '\x00' ≠ c) : '\x00' ∉ (repeated n c).toList := by
  rw [repeated, String.toList_ofList]
  exact fun hin => hc (List.eq_of_mem_replicate hin)

/- A rule whose name is as long as it can be, and a container named like that. -/
def longRule : AlertRule := { dockerRule with id := 2, name := repeated 255 'n' }

def longNamed : DockerMetricCreate := { busy "web" with containerName := repeated 255 'c' }

def longTables : Tables := ⟨[dockerRule, longRule], [], 1⟩

theorem long_stored : Stored longRule := by
  have hname : PgText.varchar 255 longRule.name = some longRule.name :=
    varchar_fitting (repeated_length 255 'n').le (repeated_plain 255 (by decide))
  simp only [Stored, flushRule, hname]
  rfl

theorem long_accepted : Accepted host [⟨longNamed, 0, 0, none⟩] := by
  refine ⟨rfl, fun v hv => ?_⟩
  obtain rfl := List.mem_singleton.mp hv
  have hname : (PgText.text longNamed.containerName).isSome = true := by
    have hplain : '\x00' ∉ longNamed.containerName.toList :=
      repeated_plain 255 (by decide : '\x00' ≠ 'c')
    rw [PgText.text, if_neg hplain]
    rfl
  have hothers : ∀ s ∈ ["img", "running"], (PgText.text s).isSome = true := by decide
  rw [Fleet.DockerMetricCreate.storable, List.all_cons, List.all_cons, hname]
  exact List.all_eq_true.mpr hothers

theorem long_refused :
    longTables.evaluate tabledFloatStr (sampleOf host.id longNamed) 0 0 = none := by
  have hfires : Fires host.id longNamed 0 longRule (.fin 90) := ⟨rfl, rfl, rfl⟩
  refine evaluate_refused (mem_pending.mpr ⟨longRule, ?_, .fin 90, hfires, rfl⟩) fun id => ?_
  · exact List.mem_cons_of_mem _ List.mem_cons_self
  have hmessage : PgText.varchar 500 (message tabledFloatStr (some longNamed.containerName) longRule
      (.fin 90)) = none := by
    refine PgText.varchar_refused ?_ (c := '0') ?_ (by decide)
    · rw [size_message, messageSize, show longRule.name = repeated 255 'n' from rfl,
        show longNamed.containerName = repeated 255 'c' from rfl, repeated_length, repeated_length]
      omega
    · rw [message, String.toList_append, List.getLast?_append]
      rfl
  simp only [flushEvent, Pending.event, hmessage]
  rfl

/- Both rules fire, and the event of the other one is lost with that of the long one. -/
theorem long_events_lost :
    (∀ r ∈ longTables.rules, Stored r ∧ Fires host.id longNamed 0 r (.fin 90)) ∧
      Accepted host [⟨longNamed, 0, 0, none⟩] ∧
      (submitDockerMetrics tabledFloatStr host 0 [⟨longNamed, 0, 0, none⟩] (Fleet.init 0)
        longTables).reply = .ok 1 ∧
      (submitDockerMetrics tabledFloatStr host 0 [⟨longNamed, 0, 0, none⟩] (Fleet.init 0)
        longTables).created = [[]] ∧
      ¬ Whole tabledFloatStr host.id longNamed longTables 0 0 := by
  refine ⟨?_, long_accepted, ?_, ?_, ?_⟩
  · intro r hr
    rcases List.mem_pair.mp hr with rfl | rfl
    · exact ⟨by decide, rfl, rfl, rfl⟩
    · exact ⟨long_stored, rfl, rfl, rfl⟩
  · rw [long_accepted.submitted]
    rfl
  · have hend := evaluateItems_refused (v := ⟨longNamed, 0, 0, none⟩) [] long_refused
    rw [long_accepted.created, hend]
    rfl
  · intro h
    obtain ⟨t', ht⟩ := h.stored
    rw [long_refused] at ht
    cases ht

end PulseWatch.DockerBatch
