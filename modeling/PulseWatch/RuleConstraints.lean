import PulseWatch.RuleFields

/-!
# What the schemas let through and the table does not

The columns of `alert_rules` bound more than `AlertRuleCreate` and `AlertRuleUpdate` do:
`container_name` is VARCHAR(255), `cooldown_seconds` has 32 bits, every column but that of
the container is NOT NULL. What the table refuses is an error of the COMMIT.
-/

namespace PulseWatch.RuleConstraints
open Alerts Runs Evaluations DockerBatch RuleFields

/- A text of PostgreSQL holds no NUL. -/
def Plain (text : String) : Prop := '\x00' ∉ text.toList

instance (text : String) : Decidable (Plain text) := inferInstanceAs (Decidable (_ ∉ _))

/- At most `n` characters, up to spaces that are cut off. -/
def Fits (n : ℕ) (text : String) : Prop :=
  text.toList.length ≤ n ∨ (text.toList.drop n).all (· = ' ') = true

structure StorableCreate (data : AlertRuleCreate) : Prop where
  name : Plain data.name
  metricField : Plain data.metricField
  containerName : ∀ text, data.containerName = some text → Plain text ∧ Fits 255 text
  cooldownSeconds : data.cooldownSeconds ≤ 2147483647

/- No explicit null where the column is NOT NULL. -/
structure NoNull (data : AlertRuleUpdate) : Prop where
  name : data.name ≠ some none
  metricType : data.metricType ≠ some none
  metricField : data.metricField ≠ some none
  operator : data.operator ≠ some none
  thresholdValue : data.thresholdValue ≠ some none
  cooldownSeconds : data.cooldownSeconds ≠ some none
  isActive : data.isActive ≠ some none
  notificationChannels : data.notificationChannels ≠ some none

structure StorableUpdate (data : AlertRuleUpdate) : Prop where
  noNull : NoNull data
  name : ∀ text, data.name = some (some text) → Plain text
  metricField : ∀ text, data.metricField = some (some text) → Plain text
  containerName : ∀ text, data.containerName = some (some text) → Plain text ∧ Fits 255 text
  cooldownSeconds : ∀ n, data.cooldownSeconds = some (some n) → n ≤ 2147483647

/-! ### One column -/

theorem varchar_isSome_iff {n : ℕ} {text : String} :
    (PgText.varchar n text).isSome = true ↔ Plain text ∧ Fits n text := by
  unfold PgText.varchar Plain Fits
  by_cases hnul : '\x00' ∈ text.toList
  · simp [hnul]
  · by_cases hlen : text.toList.length ≤ n
    · simp [hnul, hlen]
    · by_cases hspaces : (text.toList.drop n).all (· = ' ') = true
      · simp [hnul, hlen, hspaces]
      · simp [hnul, hlen, hspaces]

theorem varchar_isSome_short {n : ℕ} {text : String} (h : text.toList.length ≤ n) :
    (PgText.varchar n text).isSome = true ↔ Plain text :=
  varchar_isSome_iff.trans (and_iff_left (Or.inl h))

theorem varchar?_isSome_iff {n : ℕ} {value : Option String} :
    (PgText.varchar? n value).isSome = true ↔
      ∀ text, value = some text → Plain text ∧ Fits n text := by
  cases value with
  | none => simp [PgText.varchar?]
  | some text => simp [PgText.varchar?, varchar_isSome_iff]

theorem storeInt_isSome_iff {n : ℤ} (h : 0 ≤ n) :
    (storeInt n).isSome = true ↔ n ≤ 2147483647 := by
  unfold storeInt
  split
  · next hn => simp [hn.2]
  · next hn =>
    simp only [Option.isSome_none, Bool.false_eq_true, false_iff]
    omega

theorem setColumn_given {A : Type} {value : Option (Option A)} (h : value ≠ some none) (old : A) :
    setColumn old value = some (value.join.getD old) := by
  cases value with
  | none => rfl
  | some value =>
    cases value with
    | none => exact absurd rfl h
    | some w => rfl

theorem given_of_setColumn {A : Type} {old v : A} {value : Option (Option A)}
    (h : setColumn old value = some v) : value ≠ some none := by
  rintro rfl
  cases h

theorem flushRule_isSome_iff {r : AlertRule} :
    (flushRule r).isSome = true ↔ (PgText.varchar 255 r.name).isSome = true ∧
      (PgText.varchar 100 r.metricField).isSome = true ∧
      (PgText.varchar? 255 r.containerName).isSome = true ∧
      (storeInt r.cooldownSeconds).isSome = true := by
  unfold flushRule
  cases PgText.varchar 255 r.name with
  | none => simp
  | some name =>
    cases PgText.varchar 100 r.metricField with
    | none => simp
    | some field =>
      cases PgText.varchar? 255 r.containerName with
      | none => simp
      | some container =>
        cases storeInt r.cooldownSeconds with
        | none => simp
        | some cooldown => simp

/- A column that is not set holds what it has held. -/
theorem set_or_stored {A B : Type} {store : A → Option B} {old : A} {value : Option (Option A)}
    (h : (store old).isSome = true) :
    (store (value.join.getD old)).isSome = true ↔
      ∀ v, value = some (some v) → (store v).isSome = true := by
  cases value with
  | none => simp [h]
  | some value =>
    cases value with
    | none => simp [h]
    | some v => simp

/-! ### One row -/

theorem newRule_storable_iff {data : AlertRuleCreate} (id ownerId : ℕ)
    (hname : data.name.toList.length ≤ 255) (hfield : data.metricField.toList.length ≤ 100)
    (hcooldown : 0 ≤ data.cooldownSeconds) :
    (flushRule (newRule id ownerId data)).isSome = true ↔ StorableCreate data := by
  refine flushRule_isSome_iff.trans ?_
  show (PgText.varchar 255 data.name).isSome = true ∧
    (PgText.varchar 100 data.metricField).isSome = true ∧
    (PgText.varchar? 255 data.containerName).isSome = true ∧
    (storeInt data.cooldownSeconds).isSome = true ↔ _
  rw [varchar_isSome_short hname, varchar_isSome_short hfield, varchar?_isSome_iff,
    storeInt_isSome_iff hcooldown]
  constructor
  · rintro ⟨h1, h2, h3, h4⟩
    exact ⟨h1, h2, h3, h4⟩
  · intro h
    exact ⟨h.name, h.metricField, h.containerName, h.cooldownSeconds⟩

/- The row the loop of `setattr` leaves to the COMMIT. -/
def patchedRule (data : AlertRuleUpdate) (r : AlertRule) : AlertRule :=
  { r with
    name := data.name.join.getD r.name
    metricType := data.metricType.join.getD r.metricType
    metricField := data.metricField.join.getD r.metricField
    operator := data.operator.join.getD r.operator
    thresholdValue := data.thresholdValue.join.getD r.thresholdValue
    cooldownSeconds := data.cooldownSeconds.join.getD r.cooldownSeconds
    isActive := data.isActive.join.getD r.isActive
    notificationChannels := data.notificationChannels.join.getD r.notificationChannels
    containerName := data.containerName.getD r.containerName }

theorem updateRule_eq {data : AlertRuleUpdate} (h : NoNull data) (r : AlertRule) :
    updateRule data r = flushRule (patchedRule data r) := by
  simp only [updateRule, setColumn_given h.name, setColumn_given h.metricType,
    setColumn_given h.metricField, setColumn_given h.operator, setColumn_given h.thresholdValue,
    setColumn_given h.cooldownSeconds, setColumn_given h.isActive,
    setColumn_given h.notificationChannels, Option.bind_eq_bind, Option.bind_some]
  rfl

theorem noNull_of_updateRule {data : AlertRuleUpdate} {r row : AlertRule}
    (h : updateRule data r = some row) : NoNull data := by
  obtain ⟨q, hq, -⟩ := updateRule_patched h
  exact ⟨given_of_setColumn hq.name, given_of_setColumn hq.metricType,
    given_of_setColumn hq.metricField, given_of_setColumn hq.operator,
    given_of_setColumn hq.thresholdValue, given_of_setColumn hq.cooldownSeconds,
    given_of_setColumn hq.isActive, given_of_setColumn hq.notificationChannels⟩

/- The checks of the schema leave these to the table. -/
theorem patchedRule_storable_iff {data : AlertRuleUpdate} {r : AlertRule} (hr : Stored r)
    (hname : given (lengthOk 255) data.name = true)
    (hfield : given (lengthOk 100) data.metricField = true)
    (hcooldown : given (fun n => 0 ≤ n) data.cooldownSeconds = true) :
    (flushRule (patchedRule data r)).isSome = true ↔
      (∀ text, data.name = some (some text) → Plain text) ∧
      (∀ text, data.metricField = some (some text) → Plain text) ∧
      (∀ text, data.containerName = some (some text) → Plain text ∧ Fits 255 text) ∧
      ∀ n, data.cooldownSeconds = some (some n) → n ≤ 2147483647 := by
  obtain ⟨h1, h2, h3, h4⟩ := flushRule_isSome_iff.mp (Option.isSome_iff_exists.mpr ⟨r, hr⟩)
  refine flushRule_isSome_iff.trans (and_congr ?_ (and_congr ?_ (and_congr ?_ ?_)))
  · refine (set_or_stored h1).trans (forall₂_congr fun text ht => varchar_isSome_short ?_)
    rw [ht] at hname
    exact lengthOk_le hname
  · refine (set_or_stored h2).trans (forall₂_congr fun text ht => varchar_isSome_short ?_)
    rw [ht] at hfield
    exact lengthOk_le hfield
  · show (PgText.varchar? 255 (data.containerName.getD r.containerName)).isSome = true ↔ _
    cases data.containerName with
    | none => simp [h3]
    | some value => simp [varchar?_isSome_iff]
  · refine (set_or_stored h4).trans (forall₂_congr fun n hn => storeInt_isSome_iff ?_)
    rw [hn] at hcooldown
    exact of_decide_eq_true hcooldown

theorem updateRule_storable_iff {body data : AlertRuleUpdate} {r : AlertRule} (hr : Stored r)
    (hv : body.validate = some data) :
    (updateRule data r).isSome = true ↔ StorableUpdate data := by
  obtain ⟨hname, hfield, hcooldown⟩ := update_checked hv
  constructor
  · intro h
    obtain ⟨row, hrow⟩ := Option.isSome_iff_exists.mp h
    have hnull := noNull_of_updateRule hrow
    rw [updateRule_eq hnull, patchedRule_storable_iff hr hname hfield hcooldown] at h
    exact ⟨hnull, h.1, h.2.1, h.2.2.1, h.2.2.2⟩
  · intro h
    rw [updateRule_eq h.noNull, patchedRule_storable_iff hr hname hfield hcooldown]
    exact ⟨h.name, h.metricField, h.containerName, h.cooldownSeconds⟩

/-! ### The handlers -/

/- The INSERT for a body that names an own server. -/
theorem addRule_own {s : Db} {ownerId : ℕ} {body data : AlertRuleCreate} {row : AlertRule}
    (hv : body.validate = some data)
    (hown : (s.fleet.servers.any fun r => r.id = data.serverId && r.ownerId = ownerId) = true)
    (hrow : flushRule (newRule s.nextRule ownerId data) = some row) :
    s.addRule (newRule s.nextRule ownerId data) =
      some { s with rules := row :: s.rules, nextRule := s.nextRule + 1 } := by
  obtain ⟨hname, hfield, -⟩ := create_checked hv
  have hserver : s.hasServer data.serverId = true := by
    obtain ⟨server, hmem, hkeys⟩ := List.any_eq_true.mp hown
    rw [Bool.and_eq_true] at hkeys
    exact List.any_eq_true.mpr ⟨server, hmem, hkeys.1⟩
  have hid : row.serverId = data.serverId := by
    rw [(flushRule_row hrow hname hfield).1]
    rfl
  simp [Db.addRule, hrow, hid, hserver]

theorem create_storable_iff {s : Db} (hs : AllStored s) {ownerId : ℕ}
    {body data : AlertRuleCreate} (hv : body.validate = some data)
    (hown : (s.fleet.servers.any fun r => r.id = data.serverId && r.ownerId = ownerId) = true) :
    ((createAlertRule ownerId body s).1 = .created ∧ AllStored (createAlertRule ownerId body s).2) ↔
      StorableCreate data := by
  obtain ⟨hname, hfield, hcooldown⟩ := create_checked hv
  rw [← newRule_storable_iff s.nextRule ownerId hname hfield hcooldown]
  unfold createAlertRule
  simp only [hv, hown, if_true]
  cases hrow : flushRule (newRule s.nextRule ownerId data) with
  | none =>
    have hadd : s.addRule (newRule s.nextRule ownerId data) = none := by simp [Db.addRule, hrow]
    rw [hadd]
    exact iff_of_false (fun h => by cases h.1) (by simp)
  | some row =>
    have hadd := addRule_own hv hown hrow
    rw [hadd]
    exact iff_of_true ⟨rfl, hs.add hadd⟩ rfl

theorem update_storable_iff {s : Db} (hs : AllStored s) {ownerId ruleId : ℕ}
    {body data : AlertRuleUpdate} (hv : body.validate = some data) {r : AlertRule}
    (hr : s.findRule ownerId ruleId = some r) :
    ((updateAlertRule ownerId ruleId body s).1 = .ok ∧
        AllStored (updateAlertRule ownerId ruleId body s).2) ↔ StorableUpdate data := by
  rw [← updateRule_storable_iff (hs r (findRule_mem hr)) hv]
  unfold updateAlertRule
  simp only [hv, hr]
  cases hrow : updateRule data r with
  | none => exact iff_of_false (fun h => by cases h.1) (by simp)
  | some row => exact iff_of_true ⟨rfl, hs.put (updateRule_stored hrow)⟩ rfl

/-- A validated body for an own server or rule is answered, with rows that satisfy the
constraints of the table, exactly when it is storable: its texts hold no NUL and fit, the
cooldown has 32 bits and an update sets nothing to null but the container. -/
theorem accepted_iff_storable {cr : Crypto} {floatStr : PyFloat → String} {attrs : Attributes}
    {now : Instant} {s : Db} (hs : Reachable (step cr floatStr attrs) (init now) s) :
    (∀ (ownerId : ℕ) (body data : AlertRuleCreate), body.validate = some data →
      (s.fleet.servers.any fun r => r.id = data.serverId && r.ownerId = ownerId) = true →
      (((createAlertRule ownerId body s).1 = .created ∧
          AllStored (createAlertRule ownerId body s).2) ↔ StorableCreate data)) ∧
    (∀ (ownerId ruleId : ℕ) (body data : AlertRuleUpdate) (r : AlertRule),
      body.validate = some data → s.findRule ownerId ruleId = some r →
      (((updateAlertRule ownerId ruleId body s).1 = .ok ∧
          AllStored (updateAlertRule ownerId ruleId body s).2) ↔ StorableUpdate data)) := by
  have hstored : AllStored s := reachable_stored hs
  refine ⟨fun ownerId body data hv hown => ?_, fun ownerId ruleId body data r hv hr => ?_⟩
  · exact create_storable_iff hstored hv hown
  · exact update_storable_iff hstored hv hr

theorem plain_body_accepted :
    ∃ s, run (step tabledCrypto Threshold.tabledFloatStr plainAttributes) (init 0) oneServer =
        some s ∧ (createAlertRule 1 (cpuBody 1) s).1 = .created ∧
      AllStored (createAlertRule 1 (cpuBody 1) s).2 := by
  refine ⟨_, rfl, ?_⟩
  have hv : (cpuBody 1).validate = some (cpuBody 1) := by decide
  refine ((@accepted_iff_storable tabledCrypto Threshold.tabledFloatStr plainAttributes 0 _
    ⟨oneServer, rfl⟩).1 1 (cpuBody 1) (cpuBody 1) hv rfl).mpr ⟨?_, ?_, ?_, ?_⟩
  · decide
  · decide
  · intro text htext
    cases htext
  · decide

/- A cooldown of 2^31 seconds, and an update that sets the name to null. -/
theorem accepted_by_schema_only :
    ∃ s t, run (step tabledCrypto Threshold.tabledFloatStr plainAttributes) (init 0) oneServer =
        some s ∧
      ({ cpuBody 1 with cooldownSeconds := 2147483648 }).validate =
        some { cpuBody 1 with cooldownSeconds := 2147483648 } ∧
      (createAlertRule 1 { cpuBody 1 with cooldownSeconds := 2147483648 } s).1 = .serverError ∧
      createAlertRule 1 (cpuBody 1) s = (.created, t) ∧
      ({ name := some none } : AlertRuleUpdate).validate = some { name := some none } ∧
      (updateAlertRule 1 1 { name := some none } t).1 = .serverError :=
  ⟨_, _, rfl, by decide, rfl, rfl, by decide, rfl⟩

end PulseWatch.RuleConstraints
