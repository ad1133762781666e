import PulseWatch.RuleConstraints
import PulseWatch.RuleDialog

/-!
# Rules that cannot fire

`AlertRuleCreate` says that a container is for docker rules only, and the bot offers the
fields of the metric type; the schemas check neither, and no writer of `alert_rules` asks
whether any value can meet the threshold. What the evaluations read are the dicts the two
ingest handlers build.
-/

namespace PulseWatch.DeadRules
open Alerts Threshold Evaluations DockerBatch RuleFields
open RuleConstraints hiding Fits

section
variable (str : PyFloat.Str)

/- A metric of its server for which a call creates an event of the rule, once it is
active: a body ingest stores, and a reading of it. -/
def CreatesEvent (r : AlertRule) : Prop :=
  ∃ body reading createdAt now new t,
    (∃ fleet server startedAt, server.id = r.serverId ∧
      (Fleet.storeSubmission fleet server startedAt body).isSome = true) ∧
    reading ∈ readings r.serverId body ∧
    Tables.evaluate str.toString ⟨[{ r with isActive := true }], [], 1⟩ (Reading.sample reading)
      createdAt now = some (new, t) ∧
    ∃ e ∈ new, e.ruleId = r.id

/- The rule reads a key of the dicts ingest passes on, and is not silently dead. -/
structure Live (r : AlertRule) : Prop where
  field : ∀ body, ∀ reading ∈ readings r.serverId body, reading.metricType = r.metricType →
    r.metricField ∈ reading.data.map Prod.fst
  container : r.metricType = .system → r.containerName = none
  creates : CreatesEvent str r

/- The container in the message, as its column holds it; without one any will do. -/
def shown (r : AlertRule) : Option String :=
  match r.metricType with
  | .system => none
  | .docker => some (PyText.take 255 (r.containerName.getD ""))

/- Some value meets the threshold with a message its column takes. -/
def Attained (r : AlertRule) : Prop :=
  ∃ value, compare value r.operator r.thresholdValue = true ∧
    RuleConstraints.Fits 500 (message str.toString (shown r) r value)

structure Sound (r : AlertRule) : Prop where
  field : r.metricField ∈ fieldsOf r.metricType
  container : r.metricType = .system → r.containerName = none
  value : Attained str r

end

/-! ### What ingest passes on -/

theorem data_keys (reading : Reading) :
    reading.data.map Prod.fst = fieldsOf reading.metricType := by
  cases reading with
  | system s cpu memory disk => rfl
  | docker s name cpu usage limit => rfl

theorem sample_data (reading : Reading) : (Reading.sample reading).data = reading.data := by
  cases reading with
  | system s cpu memory disk => rfl
  | docker s name cpu usage limit => rfl

/- A body with the same value everywhere. -/
def uniformReading (r : AlertRule) (value : PyFloat) : Reading :=
  match r.metricType with
  | .system => .system r.serverId value value value
  | .docker => .docker r.serverId (r.containerName.getD "") value value (some value)

def uniformBody (r : AlertRule) (value : PyFloat) : Fleet.Submission :=
  match r.metricType with
  | .system => .metric ⟨value, value, value, none⟩
  | .docker => .docker [⟨"", r.containerName.getD "", "", "", value, value, some value⟩]

theorem uniform_type (r : AlertRule) (value : PyFloat) :
    (uniformReading r value).metricType = r.metricType := by
  unfold uniformReading
  cases r.metricType <;> rfl

theorem uniform_mem (r : AlertRule) (value : PyFloat) :
    uniformReading r value ∈ readings r.serverId (uniformBody r value) := by
  unfold uniformReading uniformBody
  cases r.metricType with
  | system => exact List.mem_singleton.mpr rfl
  | docker => exact List.mem_singleton.mpr rfl

theorem uniform_value {r : AlertRule} (h : r.metricField ∈ fieldsOf r.metricType)
    (value : PyFloat) : (uniformReading r value).data.get? r.metricField = some value := by
  unfold uniformReading
  cases ht : r.metricType with
  | system =>
    rw [ht] at h
    simp only [fieldsOf, systemMetricFields, List.mem_cons, List.not_mem_nil, or_false] at h
    rcases h with h | h | h <;> rw [h] <;> rfl
  | docker =>
    rw [ht] at h
    simp only [fieldsOf, dockerMetricFields, List.mem_cons, List.not_mem_nil, or_false] at h
    rcases h with h | h | h <;> rw [h] <;> rfl

theorem stored_container {r : AlertRule} (hr : Stored r) {c : String}
    (hc : r.containerName = some c) : PgText.varchar 255 c = some c := by
  have hstored := hr.texts.2.2
  rw [hc] at hstored
  obtain ⟨d, hd, hdc⟩ := Option.map_eq_some_iff.mp hstored
  obtain rfl := Option.some.inj hdc
  exact hd

theorem container_plain {r : AlertRule} (hr : Stored r) : Plain (r.containerName.getD "") := by
  cases hc : r.containerName with
  | none => exact by decide
  | some c => exact (varchar_same (stored_container hr hc)).2

theorem uniform_stored {r : AlertRule} (hr : Stored r) (value : PyFloat) (server : Server) :
    (Fleet.storeSubmission (Fleet.init 0) server 0 (uniformBody r value)).isSome = true := by
  unfold uniformBody
  cases r.metricType with
  | system => rfl
  | docker =>
    have hname : PgText.text (r.containerName.getD "") = some (r.containerName.getD "") :=
      if_neg (container_plain hr)
    have hempty : PgText.text "" = some "" := by decide
    have hitem : Fleet.DockerMetricCreate.storable
        ⟨"", r.containerName.getD "", "", "", value, value, some value⟩ = true := by
      simp only [Fleet.DockerMetricCreate.storable, List.all_cons, List.all_nil, hname, hempty,
        Option.isSome_some, Bool.and_self]
    simp only [Fleet.storeSubmission, Fleet.storeDocker, List.all_cons, hitem, List.all_nil,
      Bool.and_self, if_true, Option.isSome_some]

/-! ### A rule alone -/

section
variable {floatStr : PyFloat → String} {x : Sample} {q : AlertRule} {createdAt now : Instant}

theorem alone_pending : x.pending floatStr now [q] = (x.decision floatStr now q).toList := by
  rw [pending_decisions]
  cases h : x.decision floatStr now q with
  | none => rw [List.filterMap_cons_none h, List.filterMap_nil, Option.toList_none]
  | some p => rw [List.filterMap_cons_some h, List.filterMap_nil, Option.toList_some]

theorem alone_event {new : List AlertEvent} {t : Tables} {e : AlertEvent}
    (h : Tables.evaluate floatStr ⟨[q], [], 1⟩ x createdAt now = some (new, t)) (he : e ∈ new) :
    ∃ p, x.decision floatStr now q = some p ∧
      (flushEvent (p.event 1 x.serverId createdAt)).isSome = true := by
  unfold Tables.evaluate at h
  rw [alone_pending] at h
  cases hp : x.decision floatStr now q with
  | none =>
    simp only [hp, Option.toList_none, Option.some.injEq, Prod.mk.injEq] at h
    rw [← h.1] at he
    cases he
  | some p =>
    refine ⟨p, rfl, ?_⟩
    simp only [hp, Option.toList_some, Tables.commit, insertRows] at h
    cases hrow : flushEvent (p.event 1 x.serverId createdAt) with
    | none =>
      rw [hrow] at h
      cases h
    | some row => rfl

theorem alone_creates {p : Pending} {e : AlertEvent} (hp : x.decision floatStr now q = some p)
    (he : flushEvent (p.event 1 x.serverId createdAt) = some e) :
    ∃ t, Tables.evaluate floatStr ⟨[q], [], 1⟩ x createdAt now = some ([e], t) ∧
      e.ruleId = q.id := by
  have hrule : e.ruleId = q.id := by
    rw [(flushEvent_same he).2.1, Pending.event, decision_rule hp]
  unfold Tables.evaluate
  rw [alone_pending, hp]
  simp only [Option.toList_some, Tables.commit, insertRows, he, Option.map_some]
  exact ⟨_, rfl, hrule⟩

/- What a decision to fire says. -/
theorem decision_some {p : Pending} (h : x.decision floatStr now q = some p) :
    x.concerns q = true ∧ ∃ value, x.breach q = some value ∧
      p = ⟨q, value, message floatStr x.container q value, x.container⟩ := by
  unfold Sample.decision at h
  split at h
  · next hc =>
    refine ⟨hc, ?_⟩
    obtain ⟨value, hvalue, rfl⟩ := Option.map_eq_some_iff.mp h
    rw [fires_breach] at hvalue
    split at hvalue
    · exact ⟨value, hvalue, rfl⟩
    · cases hvalue
  · cases h

end

theorem breach_compare {x : Sample} {q : AlertRule} {value : PyFloat}
    (h : x.breach q = some value) : x.data.get? q.metricField = some value ∧
      compare value q.operator q.thresholdValue = true := by
  unfold Sample.breach at h
  rw [Option.filter_eq_some_iff] at h
  exact h

theorem flushEvent_isSome {e : AlertEvent} : (flushEvent e).isSome = true ↔
    (PgText.varchar 500 e.message).isSome = true ∧
      (PgText.varchar? 255 e.containerName).isSome = true := by
  unfold flushEvent
  cases PgText.varchar 500 e.message with
  | none => simp
  | some message => cases PgText.varchar? 255 e.containerName <;> simp

theorem take_short {c : String} (h : c.toList.length ≤ 255) : PyText.take 255 c = c := by
  rw [PyText.take, List.take_of_length_le h, String.ofList_toList]

section
variable {str : PyFloat.Str} {r : AlertRule}

/- A message without a container's name is short. -/
theorem short_message (hr : Stored r) (value : PyFloat) :
    (message str.toString (some "") r value).toList.length ≤ 500 := by
  have hname := (varchar_same hr.texts.1).1
  have hfield := (varchar_same hr.texts.2.1).1
  have hop := operator_length r.operator
  have hvalue := str.short value
  have hthreshold := str.short r.thresholdValue
  have hempty : ("" : String).toList.length = 0 := by decide
  rw [message_length, Option.map_some, Option.getD_some, hempty]
  omega

/- The message of an event is the shown one, or one without a name is short. -/
theorem concerned_message (hr : Stored r) {reading : Reading} {value : PyFloat}
    (hc : (Reading.sample reading).concerns { r with isActive := true } = true)
    (hfit : RuleConstraints.Fits 500
      (message str.toString (Reading.sample reading).container r value)) :
    RuleConstraints.Fits 500 (message str.toString (shown r) r value) := by
  cases reading with
  | system s cpu memory disk =>
    simp only [Reading.sample, Sample.concerns, decide_eq_true_eq] at hc
    have hshown : shown r = none := by rw [shown, hc.2.1]
    rw [hshown]
    exact hfit
  | docker s name cpu usage limit =>
    simp only [Reading.sample, Sample.concerns, decide_eq_true_eq] at hc
    cases hname : r.containerName with
    | none =>
      have hshown : shown r = some "" := by
        rw [shown, hc.1.2.1, hname]
        rfl
      rw [hshown]
      exact Or.inl (short_message hr value)
    | some c =>
      have hlen : c.toList.length ≤ 255 := (varchar_same (stored_container hr hname)).1
      have hshown : shown r = some c := by
        rw [shown, hc.1.2.1, hname, Option.getD_some, take_short hlen]
      have hsame : c = name := by simpa [hname] using hc.2
      rw [hshown, hsame]
      exact hfit

/- A rule on a field ingest does not pass on creates no event. -/
theorem CreatesEvent.field (h : CreatesEvent str r) : r.metricField ∈ fieldsOf r.metricType := by
  obtain ⟨body, reading, createdAt, now, new, t, -, -, hnew, e, he, -⟩ := h
  obtain ⟨p, hp, -⟩ := alone_event hnew he
  obtain ⟨hconcerns, value, hbreach, -⟩ := decision_some hp
  have hvalue := (breach_compare hbreach).1
  have htype : reading.metricType = r.metricType := by
    cases reading with
    | system s cpu memory disk =>
      simp only [Reading.sample, Sample.concerns, decide_eq_true_eq] at hconcerns
      exact hconcerns.2.1.symm
    | docker s name cpu usage limit =>
      simp only [Reading.sample, Sample.concerns, decide_eq_true_eq] at hconcerns
      exact hconcerns.1.2.1.symm
  rw [sample_data, MetricData.get?, Option.join_eq_some_iff] at hvalue
  obtain ⟨before, after, hdata, -⟩ := List.lookup_eq_some_iff.mp hvalue
  rw [← htype, ← data_keys, hdata]
  simp

theorem CreatesEvent.attained (hr : Stored r) (h : CreatesEvent str r) : Attained str r := by
  obtain ⟨body, reading, createdAt, now, new, t, -, -, hnew, e, he, -⟩ := h
  obtain ⟨p, hp, hflush⟩ := alone_event hnew he
  obtain ⟨hconcerns, value, hbreach, rfl⟩ := decision_some hp
  have hmessage := (varchar_isSome_iff.mp (flushEvent_isSome.mp hflush).1).2
  exact ⟨value, (breach_compare hbreach).2, concerned_message hr hconcerns hmessage⟩

theorem uniform_concerns (r : AlertRule) (value : PyFloat) :
    (Reading.sample (uniformReading r value)).concerns { r with isActive := true } = true := by
  unfold uniformReading
  cases r.metricType with
  | system => simp [Reading.sample, Sample.concerns]
  | docker => cases r.containerName <;> simp [Reading.sample, Sample.concerns]

theorem uniform_container (hr : Stored r) (value : PyFloat) :
    (Reading.sample (uniformReading r value)).container = shown r := by
  unfold uniformReading shown
  cases ht : r.metricType with
  | system => rfl
  | docker =>
    have hlen : (r.containerName.getD "").toList.length ≤ 255 := by
      cases hc : r.containerName with
      | none => exact (by decide : ("" : String).toList.length ≤ 255)
      | some c => exact (varchar_same (stored_container hr hc)).1
    show some (r.containerName.getD "") = _
    rw [take_short hlen]

/- What is shown of a container fits its column. -/
theorem shown_isSome (hr : Stored r) : (PgText.varchar? 255 (shown r)).isSome = true := by
  have hname := container_plain hr
  unfold shown
  cases r.metricType with
  | system => rfl
  | docker =>
    refine varchar?_isSome_iff.mpr fun c hc => ?_
    obtain rfl := Option.some.inj hc
    rw [Plain, RuleConstraints.Fits, PyText.take, String.toList_ofList, List.length_take]
    exact ⟨fun hin => hname (List.mem_of_mem_take hin), Or.inl (Nat.min_le_left _ _)⟩

/- Its cooldown over, the rule fires on a value that meets its threshold. -/
theorem uniform_decision (hr : Stored r) (hfield : r.metricField ∈ fieldsOf r.metricType)
    {value : PyFloat} (hvalue : compare value r.operator r.thresholdValue = true) :
    ∃ now, (Reading.sample (uniformReading r value)).decision str.toString now
      { r with isActive := true } = some ⟨{ r with isActive := true }, value,
        message str.toString (shown r) r value, shown r⟩ := by
  refine ⟨r.lastTriggeredAt.getD 0 + seconds r.cooldownSeconds, ?_⟩
  have hover : cooldownOver (r.lastTriggeredAt.getD 0 + seconds r.cooldownSeconds)
      { r with isActive := true } = true := by
    refine cooldownOver_iff.mpr fun t ht => ?_
    have hlast : r.lastTriggeredAt = some t := ht
    rw [hlast, Option.getD_some]
  have hbreach : (Reading.sample (uniformReading r value)).breach { r with isActive := true } =
      some value := by
    unfold Sample.breach
    rw [sample_data, uniform_value hfield, Option.filter_some, if_pos hvalue]
  unfold Sample.decision
  rw [if_pos (uniform_concerns r value), fires_breach, if_pos hover, hbreach, Option.map_some,
    uniform_container hr value]
  rfl

theorem Sound.creates (hr : Stored r) (h : Sound str r) : CreatesEvent str r := by
  obtain ⟨value, hvalue, hfit⟩ := h.value
  obtain ⟨now, hdecision⟩ := @uniform_decision str r hr h.field value hvalue
  have hshown := shown_isSome hr
  have hplain : Plain (message str.toString (shown r) r value) :=
    message_plain str.plain (fun c hc => (varchar?_isSome_iff.mp hshown c hc).1) hr value
  have hmessage := varchar_isSome_iff.mpr ⟨hplain, hfit⟩
  obtain ⟨e, he⟩ : ∃ e, flushEvent (Pending.event ⟨{ r with isActive := true }, value,
      message str.toString (shown r) r value, shown r⟩ 1
      (Reading.sample (uniformReading r value)).serverId 0) = some e :=
    Option.isSome_iff_exists.mp (flushEvent_isSome.mpr ⟨hmessage, hshown⟩)
  obtain ⟨t, ht, hid⟩ := alone_creates hdecision he
  refine ⟨uniformBody r value, uniformReading r value, 0, now, [e], t, ?_, uniform_mem r value, ht,
    e, List.mem_singleton.mpr rfl, hid⟩
  exact ⟨Fleet.init 0, { id := r.serverId, name := "", apiKeyHash := "", ownerId := r.ownerId }, 0,
    rfl, uniform_stored hr value _⟩

/-- A stored rule is live exactly when it is sound. -/
theorem live_iff_sound (hr : Stored r) : Live str r ↔ Sound str r := by
  constructor
  · intro h
    refine ⟨?_, h.container, h.creates.attained hr⟩
    have hfield := h.field _ _ (uniform_mem r .nan) (uniform_type r .nan)
    rw [data_keys, uniform_type] at hfield
    exact hfield
  · intro h
    refine ⟨fun body reading _ ht => ?_, h.container, h.creates hr⟩
    rw [data_keys, ht]
    exact h.field

/-! ### Thresholds no value meets -/

/- Only `!=` is true of nan, nothing is above inf or below -inf. -/
def Met (operator : ThresholdOperator) (threshold : PyFloat) : Prop :=
  operator = .neq ∨
    threshold ≠ .nan ∧ (operator = .gt → threshold ≠ .posInf) ∧
      (operator = .lt → threshold ≠ .negInf)

theorem met_iff {operator : ThresholdOperator} {threshold : PyFloat} :
    (∃ value, compare value operator threshold = true) ↔ Met operator threshold := by
  constructor
  · rintro ⟨value, h⟩
    cases operator with
    | neq => exact Or.inl rfl
    | _ =>
      refine Or.inr ⟨?_, ?_, ?_⟩
      · rintro rfl
        cases value <;> cases h
      all_goals
        intro hop
        cases hop
      all_goals
        rintro rfl
        cases value <;> cases h
  · rintro (rfl | ⟨hnan, hgt, hlt⟩)
    · exact ⟨.nan, rfl⟩
    · have hsame : PyFloat.eq threshold threshold = true := by
        cases threshold with
        | nan => exact absurd rfl hnan
        | fin q => exact decide_eq_true rfl
        | posInf => rfl
        | negInf => rfl
      cases operator with
      | gt =>
        refine ⟨.posInf, ?_⟩
        cases threshold with
        | nan => exact absurd rfl hnan
        | posInf => exact absurd rfl (hgt rfl)
        | fin q => rfl
        | negInf => rfl
      | lt =>
        refine ⟨.negInf, ?_⟩
        cases threshold with
        | nan => exact absurd rfl hnan
        | negInf => exact absurd rfl (hlt rfl)
        | fin q => rfl
        | posInf => rfl
      | neq => exact ⟨.nan, rfl⟩
      | gte =>
        refine ⟨threshold, ?_⟩
        rw [Threshold.compare, PyFloat.le, hsame, Bool.or_true]
      | lte =>
        refine ⟨threshold, ?_⟩
        rw [Threshold.compare, PyFloat.le, hsame, Bool.or_true]
      | eq => exact ⟨threshold, hsame⟩

/- Without a container's name the message is no obstacle. -/
theorem attained_iff_met (hr : Stored r) (hc : r.containerName = none) :
    Attained str r ↔ Met r.operator r.thresholdValue := by
  refine Iff.trans ⟨?_, ?_⟩ met_iff
  · rintro ⟨value, hvalue, -⟩
    exact ⟨value, hvalue⟩
  · rintro ⟨value, hvalue⟩
    refine ⟨value, hvalue, Or.inl ?_⟩
    unfold shown
    cases r.metricType with
    | system => exact PgText.varchar_length (system_fits str hr value).1
    | docker =>
      rw [hc]
      exact short_message hr value

/-! ### Rows and what is written to them -/

theorem varchar_take {n : ℕ} {text stored : String} (h : PgText.varchar n text = some stored) :
    PyText.take n stored = PyText.take n text := by
  unfold PgText.varchar at h
  split at h
  · cases h
  · split at h
    · obtain rfl := Option.some.inj h
      rfl
    · split at h
      · obtain rfl := Option.some.inj h
        rw [PyText.take, String.toList_ofList, List.take_take, Nat.min_self, PyText.take]
      · cases h

theorem shown_flush {container : Option String}
    (h : PgText.varchar? 255 r.containerName = some container) :
    shown { r with containerName := container } = shown r := by
  unfold shown
  cases r.metricType with
  | system => rfl
  | docker =>
    cases hname : r.containerName with
    | none =>
      rw [hname] at h
      obtain rfl := Option.some.inj h
      rfl
    | some text =>
      rw [hname] at h
      obtain ⟨stored, hstored, rfl⟩ := Option.map_eq_some_iff.mp h
      simp only [Option.getD_some, varchar_take hstored]

/- The COMMIT changes no more of a sound row than the end of its container. -/
theorem sound_flush {row : AlertRule} (h : flushRule r = some row)
    (hname : r.name.toList.length ≤ 255) (hfield : r.metricField.toList.length ≤ 100) :
    Sound str row ↔ Sound str r := by
  obtain ⟨hrow, hcontainer⟩ := flushRule_row h hname hfield
  obtain ⟨container, rfl⟩ : ∃ container, row = { r with containerName := container } := ⟨_, hrow⟩
  have hshown := shown_flush hcontainer
  have hnone : container = none ↔ r.containerName = none := by
    cases hn : r.containerName with
    | none =>
      rw [hn] at hcontainer
      exact iff_of_true (Option.some.inj hcontainer).symm rfl
    | some text =>
      rw [hn] at hcontainer
      obtain ⟨stored, -, rfl⟩ := Option.map_eq_some_iff.mp hcontainer
      simp
  have hvalue : Attained str { r with containerName := container } ↔ Attained str r := by
    unfold Attained
    rw [hshown]
    exact Iff.rfl
  constructor
  · intro h
    exact ⟨h.field, fun ht => hnone.mp (h.container ht), hvalue.mp h.value⟩
  · intro h
    exact ⟨h.field, fun ht => hnone.mpr (h.container ht), hvalue.mpr h.value⟩

theorem Sound.trigger (h : Sound str r) (now : Instant) (pending : List Pending) :
    Sound str (trigger now pending r) := by
  unfold Alerts.trigger
  split
  · exact ⟨h.field, h.container, h.value⟩
  · exact h

end

/-! ### The writers -/

section
variable (str : PyFloat.Str)

/- A body that is stored names a field of its metric type, gives a container for docker
only and a threshold some value meets with a short message, and a PATCH leaves such a
rule; the dialog sees to all but the threshold itself. -/
def Keeps (s : TelegramBot.State) : TelegramBot.Label → Prop
  | .rest (.create ownerId body) => ∀ data, body.validate = some data →
      (s.db.fleet.servers.any fun r => r.id = data.serverId && r.ownerId = ownerId) = true →
      StorableCreate data → Sound str (newRule s.db.nextRule ownerId data)
  | .rest (.patch ownerId ruleId body) => ∀ data r, body.validate = some data →
      s.db.findRule ownerId ruleId = some r → StorableUpdate data →
      Sound str (patchedRule data r)
  | .bot => ∀ userId chatId data, s.bot = .confirming userId chatId data →
      (s.db.addRule (data.rule.rule s.db.nextRule userId)).isSome = true →
      Attained str (data.rule.rule s.db.nextRule userId)
  | _ => True

def AllLive (s : TelegramBot.State) : Prop := ∀ r ∈ s.db.rules, Live str r

def AllSound (s : TelegramBot.State) : Prop := ∀ r ∈ s.db.rules, Sound str r

end

/- Every draft is one of a sane dialog, every rule one the table can hold. -/
structure Inv (s : TelegramBot.State) : Prop where
  drafts : ∀ d, s.Holds d → RuleDialog.Sane d
  stored : AllStored s.db

theorem Inv.init (now : Instant) : Inv (TelegramBot.init now) := by
  refine ⟨fun d hd => ?_, fun r hr => by cases hr⟩
  rcases hd with ⟨e, he, -⟩ | hd
  · cases he
  · cases hd

section
variable {py : TelegramBot.PyStr} {cr : Crypto} {str : PyFloat.Str} {attrs : Attributes}
  {s s' : TelegramBot.State} {l : TelegramBot.Label}

theorem drafted_sane (h : ∀ d, s.Holds d → RuleDialog.Sane d) {d : TelegramBot.Draft}
    (hd : TelegramBot.Drafted py s d) : RuleDialog.Sane d := by
  cases hd with
  | held mem => exact h d mem
  | opened same => exact same ▸ trivial
  | chosen userId chatId serverId server place own same => exact same ▸ trivial
  | answered text old mem answer =>
    exact RuleDialog.sane_next (h old mem) (RuleDialog.processRuleDraft_turn answer)
  | confirmed text old data mem answer same =>
    subst same
    have hold := h old mem
    cases RuleDialog.processRuleDraft_turn answer
    exact hold

/- What the bot's step does to a rule of the table. -/
theorem bot_rules (h : TelegramBot.botStep py s = some s') {q : AlertRule}
    (hq : q ∈ s'.db.rules) : q ∈ s.db.rules ∨
      (∃ r ∈ s.db.rules, q = { r with isActive := !r.isActive }) ∨
      ∃ userId chatId data, s.bot = .confirming userId chatId data ∧
        s.db.addRule (data.rule.rule s.db.nextRule userId) = some s'.db ∧
        flushRule (data.rule.rule s.db.nextRule userId) = some q := by
  cases TelegramBot.botStep_writes h with
  | nothing db => exact Or.inl (db ▸ hq)
  | chat userId chatId place db => exact Or.inl (db ▸ hq)
  | rule userId chatId data place db =>
    rcases mem_addRule db hq with hrow | hq
    · exact Or.inr (Or.inr ⟨userId, chatId, data, place, db, hrow⟩)
    · exact Or.inl hq
  | toggled userId ruleId place db =>
    rw [db] at hq
    rcases mem_handleToggle hq with hq | ⟨r, hr, hsame⟩
    · exact Or.inl hq
    · exact Or.inr (Or.inl ⟨r, hr, hsame⟩)
  | deleted serverId place db =>
    rw [db] at hq
    exact Or.inl (mem_removeServer hq)

theorem Inv.step (h : Inv s) (hs : TelegramBot.step py cr str.toString attrs s l = some s') :
    Inv s' := by
  by_cases hl : l = .bot
  · subst hl
    refine ⟨fun d hd => drafted_sane h.drafts (TelegramBot.botStep_drafts hs hd), fun q hq => ?_⟩
    rcases bot_rules hs hq with hq | ⟨r, hr, rfl⟩ | ⟨userId, chatId, data, -, -, hrow⟩
    · exact h.stored q hq
    · exact stored_toggle (h.stored r hr)
    · exact flushRule_stored hrow
  · refine ⟨fun d hd => h.drafts d (TelegramBot.beside_drafts hl hs hd), ?_⟩
    rcases TelegramBot.beside_db hl hs with hdb | ⟨m, -, -, hm⟩
    · exact hdb ▸ h.stored
    · exact step_stored h.stored hm

/- A confirmed draft restricts the field and the container. -/
theorem confirmed_sound (h : Inv s) {userId : ℕ} {chatId : ℤ} {data : TelegramBot.Ready}
    (hb : s.bot = .confirming userId chatId data) (id : ℕ) :
    Sound str (data.rule.rule id userId) ↔ Attained str (data.rule.rule id userId) := by
  have hsane : RuleDialog.Sane (.confirm data) := h.drafts _ (Or.inr (by rw [hb]; rfl))
  constructor
  · intro hsound
    exact hsound.value
  · intro hvalue
    exact ⟨data.rule.fieldOk, hsane.1.1, hvalue⟩

theorem confirmed_flush {data : TelegramBot.Ready} {id userId : ℕ} {row : AlertRule}
    (h : flushRule (data.rule.rule id userId) = some row) :
    Sound str row ↔ Sound str (data.rule.rule id userId) :=
  sound_flush h (lengthOk_le data.rule.nameOk) (fieldsOf_length _ _ data.rule.fieldOk)

theorem created_flush {body data : AlertRuleCreate} (hv : body.validate = some data)
    {id ownerId : ℕ} {row : AlertRule} (h : flushRule (newRule id ownerId data) = some row) :
    Sound str row ↔ Sound str (newRule id ownerId data) := by
  obtain ⟨hname, hfield, -⟩ := create_checked hv
  exact sound_flush h hname hfield

theorem patched_flush {body data : AlertRuleUpdate} (hv : body.validate = some data)
    {r row : AlertRule} (hr : Stored r) (h : updateRule data r = some row) :
    Sound str row ↔ Sound str (patchedRule data r) := by
  obtain ⟨hname, hfield, -⟩ := update_checked hv
  have hrow : flushRule (patchedRule data r) = some row :=
    (updateRule_eq (noNull_of_updateRule h) r).symm.trans h
  exact sound_flush hrow (given_le hname (varchar_same hr.texts.1).1)
    (given_le hfield (varchar_same hr.texts.2.1).1)

theorem origin_sound {m : Alerts.Label} {q : AlertRule} (h : Inv s) (hsound : AllSound str s)
    (hm : TelegramBot.ofBot m = false) (hk : Keeps str s (.rest m)) (ho : Origin s.db q m) :
    Sound str q := by
  cases ho with
  | kept mem => exact hsound q mem
  | toggled r mem same =>
    have hr := hsound r mem
    exact same ▸ ⟨hr.field, hr.container, hr.value⟩
  | triggered r evaluatedAt pending mem same =>
    exact same ▸ (hsound r mem).trigger evaluatedAt pending
  | created ownerId body data valid own row =>
    obtain ⟨hname, hfield, hcooldown⟩ := create_checked valid
    have hstorable := (newRule_storable_iff s.db.nextRule ownerId hname hfield hcooldown).mp
      (Option.isSome_iff_exists.mpr ⟨q, row⟩)
    exact (created_flush valid row).mpr (hk data valid own hstorable)
  | patched ownerId ruleId body data r valid found row =>
    have hr := h.stored r (findRule_mem found)
    have hstorable := (updateRule_storable_iff hr valid).mp (Option.isSome_iff_exists.mpr ⟨q, row⟩)
    exact (patched_flush valid hr row).mpr (hk data r valid found hstorable)
  | confirmed ownerId draft row => cases hm

theorem AllSound.step (hsound : AllSound str s) (h : Inv s) (hk : Keeps str s l)
    (hs : TelegramBot.step py cr str.toString attrs s l = some s') : AllSound str s' := by
  intro q hq
  by_cases hl : l = .bot
  · subst hl
    rcases bot_rules hs hq with hq | ⟨r, hr, rfl⟩ | ⟨userId, chatId, data, hb, hadd, hrow⟩
    · exact hsound q hq
    · have hr' := hsound r hr
      exact ⟨hr'.field, hr'.container, hr'.value⟩
    · have hstored : (s.db.addRule (data.rule.rule s.db.nextRule userId)).isSome = true := by
        rw [hadd]
        rfl
      exact (confirmed_flush hrow).mpr
        ((confirmed_sound h hb s.db.nextRule).mpr (hk userId chatId data hb hstored))
  · rcases TelegramBot.beside_db hl hs with hdb | ⟨m, rfl, hbot, hm⟩
    · exact hsound q (hdb ▸ hq)
    · exact origin_sound h hsound hbot hk (step_origin hm hq)

/- The tables hold a rule that is not live. -/
theorem dead_of_row {row : AlertRule} (hmem : row ∈ s.db.rules) (hrow : Stored row)
    (hn : ¬ Sound str row) : ¬ AllLive str s :=
  fun h => hn ((live_iff_sound hrow).mp (h row hmem))

theorem create_unsound {ownerId : ℕ} {body : AlertRuleCreate}
    (hn : ¬ Keeps str s (.rest (.create ownerId body))) :
    ∃ s', TelegramBot.step py cr str.toString attrs s (.rest (.create ownerId body)) = some s' ∧
      ¬ AllLive str s' := by
  simp only [Keeps, not_forall] at hn
  obtain ⟨data, hv, hown, hstorable, hbad⟩ := hn
  obtain ⟨hname, hfield, hcooldown⟩ := create_checked hv
  obtain ⟨row, hrow⟩ := Option.isSome_iff_exists.mp
    ((newRule_storable_iff s.db.nextRule ownerId hname hfield hcooldown).mpr hstorable)
  refine ⟨{ s with db := (createAlertRule ownerId body s.db).2 }, rfl, ?_⟩
  refine @dead_of_row str _ row ?_ (flushRule_stored hrow)
    fun h => hbad ((created_flush hv hrow).mp h)
  unfold createAlertRule
  simp only [hv, hown, if_true, addRule_own hv hown hrow]
  exact List.mem_cons_self

theorem patch_unsound (h : Inv s) {ownerId ruleId : ℕ} {body : AlertRuleUpdate}
    (hn : ¬ Keeps str s (.rest (.patch ownerId ruleId body))) :
    ∃ s', TelegramBot.step py cr str.toString attrs s (.rest (.patch ownerId ruleId body)) =
      some s' ∧ ¬ AllLive str s' := by
  simp only [Keeps, not_forall] at hn
  obtain ⟨data, r, hv, hr, hstorable, hbad⟩ := hn
  have hr' := h.stored r (findRule_mem hr)
  obtain ⟨row, hrow⟩ := Option.isSome_iff_exists.mp
    ((updateRule_storable_iff hr' hv).mpr hstorable)
  refine ⟨{ s with db := (updateAlertRule ownerId ruleId body s.db).2 }, rfl, ?_⟩
  refine @dead_of_row str _ row ?_ (updateRule_stored hrow)
    fun h => hbad ((patched_flush hv hr' hrow).mp h)
  unfold updateAlertRule
  simp only [hv, hr, hrow]
  exact List.mem_map.mpr ⟨r, findRule_mem hr, if_pos (updateRule_id hrow).symm⟩

theorem confirm_unsound (h : Inv s) (hn : ¬ Keeps str s .bot) :
    ∃ s', TelegramBot.step py cr str.toString attrs s .bot = some s' ∧ ¬ AllLive str s' := by
  simp only [Keeps, not_forall] at hn
  obtain ⟨userId, chatId, data, hb, hstored, hbad⟩ := hn
  obtain ⟨db, hdb⟩ := Option.isSome_iff_exists.mp hstored
  have hs : TelegramBot.step py cr str.toString attrs s .bot =
      some (TelegramBot.State.goto { s with db } (.clearing chatId)) := by
    simp only [TelegramBot.step, TelegramBot.botStep, hb, hdb]
  obtain ⟨row, hrow, -, rfl⟩ := addRule_inv hdb
  refine ⟨_, hs, @dead_of_row str _ row List.mem_cons_self (flushRule_stored hrow) fun hsound => ?_⟩
  exact hbad ((confirmed_sound h hb s.db.nextRule).mp ((confirmed_flush hrow).mp hsound))

theorem unsound_step (h : Inv s) (hn : ¬ Keeps str s l) :
    ∃ s', TelegramBot.step py cr str.toString attrs s l = some s' ∧ ¬ AllLive str s' := by
  cases l with
  | rest m =>
    cases m with
    | create ownerId body => exact create_unsound hn
    | patch ownerId ruleId body => exact patch_unsound h hn
    | _ => exact absurd trivial hn
  | bot => exact confirm_unsound h hn
  | _ => exact absurd trivial hn

/-- In a whole run every rule reads a field ingest passes on for its metric type, has a
container for docker only and can create an event, exactly when each rule stored by POST,
PATCH or the dialog is a sound one. -/
theorem rules_live_iff (py : TelegramBot.PyStr) (cr : Crypto) (str : PyFloat.Str)
    (attrs : Attributes) (now : Instant) (ls : List TelegramBot.Label) :
    Runs.Throughout (TelegramBot.step py cr str.toString attrs) (AllLive str)
        (TelegramBot.init now) ls ↔
      Runs.Along (TelegramBot.step py cr str.toString attrs) (Keeps str)
        (TelegramBot.init now) ls := by
  constructor
  · exact Runs.along_of_throughout Inv (AllLive str) (Keeps str) (fun _ _ _ h hs => h.step hs)
      (fun _ _ h hn => unsound_step h hn) (Inv.init now)
  · refine Runs.throughout_of_invariant (fun s => Inv s ∧ AllSound str s) (AllLive str)
      (Keeps str) ?_ ?_ ⟨Inv.init now, fun r hr => by cases hr⟩
    · exact fun s l s' h hk hs => ⟨h.1.step hs, h.2.step h.1 hk hs⟩
    · exact fun s h r hr => (live_iff_sound (h.1.stored r hr)).mpr (h.2 r hr)

end

/- A rule on the load of the host with a container's field and a container's name. -/
def strayBody : AlertRuleCreate :=
  { cpuBody 1 with metricField := "memory_usage_mb", containerName := some "web" }

theorem dead_rule_stored :
    ∃ s r, Runs.run (TelegramBot.step TelegramBot.asciiStr tabledCrypto
          CooldownPolicy.tabledStr.toString plainAttributes) (TelegramBot.init 0)
        (oneServer.map .rest ++ [.rest (.create 1 strayBody)]) = some s ∧
      strayBody.validate = some strayBody ∧ r ∈ s.db.rules ∧ r.metricType = .system ∧
      r.metricField ∉ fieldsOf .system ∧ r.containerName = some "web" ∧
      ¬ CreatesEvent CooldownPolicy.tabledStr r ∧ ¬ AllLive CooldownPolicy.tabledStr s := by
  have hfield : "memory_usage_mb" ∉ fieldsOf .system := by decide
  refine ⟨_, _, rfl, by decide, List.mem_cons_self, rfl, hfield, rfl, ?_, ?_⟩
  · exact fun h => hfield h.field
  · exact fun h => hfield (h _ List.mem_cons_self).creates.field

end PulseWatch.DeadRules
