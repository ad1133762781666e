import Mathlib.Data.List.ReduceOption
import PulseWatch.EventLengths

/-!
# The fields of a rule through REST (`app/api/alerts.py`)

`create_alert_rule` copies the body field by field, `update_alert_rule` sets whatever
the body has. What a client has set last is what it should read back.
-/

namespace PulseWatch.RuleFields
open Alerts Runs Evaluations DockerBatch

/- The fields both bodies have. -/
structure Fields where
  name : String
  metricType : MetricType
  metricField : String
  operator : ThresholdOperator
  thresholdValue : PyFloat
  containerName : Option String
  cooldownSeconds : ℤ
  isActive : Bool
  notificationChannels : List String
  deriving DecidableEq, Repr

def ofRule (r : AlertRule) : Fields :=
  ⟨r.name, r.metricType, r.metricField, r.operator, r.thresholdValue, r.containerName,
    r.cooldownSeconds, r.isActive, r.notificationChannels⟩

def ofBody (data : AlertRuleCreate) : Fields :=
  ⟨data.name, data.metricType, data.metricField, data.operator, data.thresholdValue,
    data.containerName, data.cooldownSeconds, data.isActive, data.notificationChannels⟩

/- The value set last, or the one it was created with. -/
def lastSet {A : Type} (created : A) (values : List (Option A)) : A :=
  values.reduceOption.getLast?.getD created

/- Only `container_name` can be set to null. -/
def lastFields (created : Fields) (bodies : List AlertRuleUpdate) : Fields where
  name := lastSet created.name (bodies.map (·.name.join))
  metricType := lastSet created.metricType (bodies.map (·.metricType.join))
  metricField := lastSet created.metricField (bodies.map (·.metricField.join))
  operator := lastSet created.operator (bodies.map (·.operator.join))
  thresholdValue := lastSet created.thresholdValue (bodies.map (·.thresholdValue.join))
  containerName := lastSet created.containerName (bodies.map (·.containerName))
  cooldownSeconds := lastSet created.cooldownSeconds (bodies.map (·.cooldownSeconds.join))
  isActive := lastSet created.isActive (bodies.map (·.isActive.join))
  notificationChannels :=
    lastSet created.notificationChannels (bodies.map (·.notificationChannels.join))

/- PATCH after PATCH of one rule, each answered with 200. -/
def patchAll (ownerId ruleId : ℕ) : List AlertRuleUpdate → Db → Option Db
  | [], s => some s
  | body :: bodies, s =>
    match updateAlertRule ownerId ruleId body s with
    | (.ok, t) => patchAll ownerId ruleId bodies t
    | _ => none

/- The rule GET returns, and the only one of its id an evaluation can load. -/
structure StoredAs (s : Db) (ownerId ruleId : ℕ) (r : AlertRule) : Prop where
  get : s.findRule ownerId ruleId = some r
  only : ∀ q ∈ s.rules, q.id = ruleId → q = r

/- The created rule is the body, as normalised, and after the updates each field is as it
was set last. -/
def Kept (ownerId ruleId : ℕ) (data : AlertRuleCreate) (bodies : List AlertRuleUpdate)
    (t u : Db) : Prop :=
  ∃ created patched, StoredAs t ownerId ruleId created ∧ StoredAs u ownerId ruleId patched ∧
    created.serverId = data.serverId ∧ ofRule created = ofBody data ∧
    patched.serverId = data.serverId ∧ ofRule patched = lastFields (ofRule created) bodies

/- No longer than the column. -/
def FitsColumn (containerName : Option String) : Prop :=
  ∀ name ∈ containerName, name.toList.length ≤ 255

/-! ### Values set one after the other -/

theorem lastSet_cons {A : Type} (created : A) (value : Option A) (values : List (Option A)) :
    lastSet created (value :: values) = lastSet (value.getD created) values := by
  unfold lastSet
  cases value with
  | none => rw [List.reduceOption_cons_of_none, Option.getD_none]
  | some v =>
    rw [List.reduceOption_cons_of_some, List.getLast?_cons, Option.getD_some, Option.getD_some]

theorem lastFields_cons (f : Fields) (p : AlertRuleUpdate) (ps : List AlertRuleUpdate) :
    lastFields f (p :: ps) = lastFields (lastFields f [p]) ps := by
  simp only [lastFields, List.map_cons, List.map_nil, lastSet_cons]
  rfl

/- A stored container name stands for the one it was cut from. -/
theorem lastSet_stored {x y z : Option String} {values : List (Option (Option String))}
    (hx : PgText.varchar? 255 x = some y)
    (h : PgText.varchar? 255 (lastSet y values) = some z) :
    PgText.varchar? 255 (lastSet x values) = some z := by
  unfold lastSet at h ⊢
  cases hv : values.reduceOption.getLast? with
  | some v =>
    rw [hv] at h
    exact h
  | none =>
    rw [hv, Option.getD_none, PgText.varchar?_stored hx] at h
    rw [Option.getD_none, hx, h]

theorem fits_iff {x y : Option String} (h : PgText.varchar? 255 x = some y) :
    y = x ↔ FitsColumn x := by
  cases x with
  | none => simpa [FitsColumn, PgText.varchar?] using h.symm
  | some name =>
    obtain ⟨stored, hstored, rfl⟩ := Option.map_eq_some_iff.mp h
    simp only [FitsColumn, Option.mem_def, Option.some.injEq, forall_eq']
    constructor
    · rintro rfl
      exact PgText.varchar_length hstored
    · intro hlen
      exact PgText.varchar_fits hstored hlen

/-! ### One row -/

theorem setColumn_some {A : Type} {old v : A} {value : Option (Option A)}
    (h : setColumn old value = some v) : v = value.join.getD old := by
  cases value with
  | none => exact (Option.some.inj h).symm
  | some value =>
    cases value with
    | none => cases h
    | some w => exact (Option.some.inj h).symm

/- Of a row with a name and a field of fitting lengths only the container may be cut. -/
theorem flushRule_row {r row : AlertRule} (h : flushRule r = some row)
    (hname : r.name.toList.length ≤ 255) (hfield : r.metricField.toList.length ≤ 100) :
    row = { r with containerName := row.containerName } ∧
      PgText.varchar? 255 r.containerName = some row.containerName := by
  obtain ⟨hn, hf, hcontainer, hi, hsame⟩ := flushRule_flushed h
  rw [PgText.varchar_fits hn hname, PgText.varchar_fits hf hfield, storeInt_some hi] at hsame
  exact ⟨hsame, hcontainer⟩

theorem given_le {n : ℕ} {value : Option (Option String)} {old : String}
    (h : given (lengthOk n) value = true) (hold : old.toList.length ≤ n) :
    (value.join.getD old).toList.length ≤ n := by
  cases value with
  | none => exact hold
  | some value =>
    cases value with
    | none => exact hold
    | some text => exact lengthOk_le h

theorem update_checked {body data : AlertRuleUpdate} (h : body.validate = some data) :
    given (lengthOk 255) data.name = true ∧ given (lengthOk 100) data.metricField = true ∧
      given (fun n => 0 ≤ n) data.cooldownSeconds = true := by
  unfold AlertRuleUpdate.validate at h
  split at h
  · next hok =>
    simp only [Bool.and_eq_true] at hok
    have hsame : data.name = body.name ∧ data.metricField = body.metricField ∧
        data.cooldownSeconds = body.cooldownSeconds := by
      split at h
      · obtain ⟨channels, -, rfl⟩ := Option.map_eq_some_iff.mp h
        exact ⟨rfl, rfl, rfl⟩
      · obtain rfl := Option.some.inj h
        exact ⟨rfl, rfl, rfl⟩
    obtain ⟨hname, hfield, hcooldown⟩ := hsame
    rw [hname, hfield, hcooldown]
    exact ⟨hok.1.1, hok.1.2, hok.2⟩
  · cases h

theorem create_checked {body data : AlertRuleCreate} (h : body.validate = some data) :
    data.name.toList.length ≤ 255 ∧ data.metricField.toList.length ≤ 100 ∧
      0 ≤ data.cooldownSeconds := by
  unfold AlertRuleCreate.validate at h
  split at h
  · next hok =>
    simp only [Bool.and_eq_true, decide_eq_true_eq] at hok
    obtain ⟨channels, -, rfl⟩ := Option.map_eq_some_iff.mp h
    exact ⟨lengthOk_le hok.1.1, lengthOk_le hok.1.2, hok.2⟩
  · cases h

/- One accepted update sets what its body has. -/
theorem updateRule_fields {data : AlertRuleUpdate} {r row : AlertRule} (hr : Stored r)
    (hname : given (lengthOk 255) data.name = true)
    (hfield : given (lengthOk 100) data.metricField = true) (h : updateRule data r = some row) :
    row.id = r.id ∧ row.ownerId = r.ownerId ∧ row.serverId = r.serverId ∧
      ofRule row =
        { lastFields (ofRule r) [data] with containerName := row.containerName } ∧
      PgText.varchar? 255 (lastFields (ofRule r) [data]).containerName =
        some row.containerName := by
  obtain ⟨hname', hfield', -⟩ := hr.texts
  obtain ⟨q, hq, hflush⟩ := updateRule_patched h
  have hqname : q.name = data.name.join.getD r.name := setColumn_some hq.name
  have hqfield : q.metricField = data.metricField.join.getD r.metricField :=
    setColumn_some hq.metricField
  obtain ⟨hrow, hcontainer⟩ := flushRule_row hflush
    (hqname ▸ given_le hname (PgText.varchar_length hname'))
    (hqfield ▸ given_le hfield (PgText.varchar_length hfield'))
  obtain ⟨hid, howner, hserver⟩ := hq.keys
  refine ⟨?_, ?_, ?_, ?_, ?_⟩
  · rw [hrow, ← hid]
  · rw [hrow, ← howner]
  · rw [hrow, ← hserver]
  · rw [hrow]
    simp only [ofRule, lastFields, List.map_cons, List.map_nil, lastSet_cons, hqname, hqfield,
      setColumn_some hq.metricType, setColumn_some hq.operator, setColumn_some hq.thresholdValue,
      setColumn_some hq.cooldownSeconds, setColumn_some hq.isActive,
      setColumn_some hq.notificationChannels]
    rfl
  · simp only [ofRule, lastFields, List.map_cons, List.map_nil, lastSet_cons]
    rw [hq.containerName] at hcontainer
    exact hcontainer

/-! ### The row in its table -/

section
variable {s t u : Db} {ownerId ruleId : ℕ} {r row : AlertRule}

theorem findRule_keys (h : s.findRule ownerId ruleId = some r) :
    r.id = ruleId ∧ r.ownerId = ownerId := by
  simpa using List.find?_some h

theorem StoredAs.mem (h : StoredAs s ownerId ruleId r) : r ∈ s.rules := findRule_mem h.get

theorem StoredAs.put (h : StoredAs s ownerId ruleId r) (hid : row.id = r.id)
    (howner : row.ownerId = r.ownerId) : StoredAs (s.putRule row) ownerId ruleId row := by
  obtain ⟨hrid, hrowner⟩ := findRule_keys h.get
  have honly : ∀ q ∈ (s.putRule row).rules, q.id = ruleId → q = row := by
    intro q hq hqid
    obtain ⟨p, hp, rfl⟩ := List.mem_map.mp hq
    by_cases hprow : p.id = row.id
    · rw [if_pos hprow]
    · rw [if_neg hprow] at hqid
      exact absurd ((h.only p hp hqid) ▸ hid.symm) hprow
  have hmem : row ∈ (s.putRule row).rules :=
    List.mem_map.mpr ⟨r, h.mem, if_pos hid.symm⟩
  have hsome : ((s.putRule row).findRule ownerId ruleId).isSome = true :=
    List.find?_isSome.mpr ⟨row, hmem, decide_eq_true
      ⟨hid.trans hrid, howner.trans hrowner⟩⟩
  obtain ⟨q, hq⟩ := Option.isSome_iff_exists.mp hsome
  have hqrow : q = row := honly q (findRule_mem hq) (findRule_keys hq).1
  exact ⟨hqrow ▸ hq, honly⟩

theorem updateAlertRule_ok {body : AlertRuleUpdate}
    (h : updateAlertRule ownerId ruleId body s = (.ok, t)) :
    ∃ data r row, body.validate = some data ∧ s.findRule ownerId ruleId = some r ∧
      updateRule data r = some row ∧ t = s.putRule row := by
  unfold updateAlertRule at h
  split at h
  · cases h
  · next data hdata =>
    split at h
    · cases h
    · next r hr =>
      split at h
      · next row hrow => exact ⟨data, r, row, hdata, hr, hrow, (Prod.mk.inj h).2.symm⟩
      · cases h

theorem patchAll_fields {bodies : List AlertRuleUpdate} (hs : StoredAs s ownerId ruleId r)
    (hr : Stored r) (h : patchAll ownerId ruleId bodies s = some u) :
    ∃ patched, StoredAs u ownerId ruleId patched ∧ patched.serverId = r.serverId ∧
      ofRule patched =
        { lastFields (ofRule r) (bodies.filterMap AlertRuleUpdate.validate) with
          containerName := patched.containerName } ∧
      PgText.varchar? 255
          (lastFields (ofRule r) (bodies.filterMap AlertRuleUpdate.validate)).containerName =
        some patched.containerName := by
  induction bodies generalizing s r with
  | nil =>
    obtain rfl := Option.some.inj h
    exact ⟨r, hs, rfl, rfl, hr.texts.2.2⟩
  | cons body bodies ih =>
    rw [patchAll] at h
    split at h
    · next t ht =>
      obtain ⟨data, r', row, hdata, hr', hrow, rfl⟩ := updateAlertRule_ok ht
      obtain rfl : r = r' := Option.some.inj (hs.get.symm.trans hr')
      obtain ⟨hname, hfield, -⟩ := update_checked hdata
      obtain ⟨hid, howner, hserver, hfields, hcontainer⟩ :=
        updateRule_fields hr hname hfield hrow
      obtain ⟨patched, hu, hpserver, hpfields, hpcontainer⟩ :=
        ih (hs.put hid howner) (updateRule_stored hrow) h
      refine ⟨patched, hu, hpserver.trans hserver, ?_, ?_⟩
      · rw [hpfields, List.filterMap_cons_some hdata, lastFields_cons, hfields]
        rfl
      · rw [List.filterMap_cons_some hdata, lastFields_cons]
        rw [hfields] at hpcontainer
        exact lastSet_stored hcontainer hpcontainer
    · cases h

end

/- What creation stores: the body without its channels. -/
theorem createAlertRule_created {s t : Db} (hw : WellFormed s) {ownerId : ℕ}
    {body : AlertRuleCreate} (h : createAlertRule ownerId body s = (.created, t)) :
    ∃ data created, body.validate = some data ∧ StoredAs t ownerId s.nextRule created ∧
      Stored created ∧ created.serverId = data.serverId ∧
      ofRule created = { ofBody data with
        containerName := created.containerName
        notificationChannels := ["telegram", "email"] } ∧
      PgText.varchar? 255 data.containerName = some created.containerName := by
  unfold createAlertRule at h
  split at h
  · cases h
  · next data hdata =>
    split at h
    · split at h
      · next t' hadd =>
        obtain rfl := (Prod.mk.inj h).2
        obtain ⟨row, hrow, -, rfl⟩ := addRule_inv hadd
        obtain ⟨hname, hfield, -⟩ := create_checked hdata
        obtain ⟨hsame, hcontainer⟩ := flushRule_row hrow hname hfield
        refine ⟨data, row, hdata, ⟨?_, ?_⟩, flushRule_stored hrow, ?_, ?_, hcontainer⟩
        · exact List.find?_cons_of_pos (by rw [hsame]; simp [newRule])
        · intro q hq hid
          rcases List.mem_cons.mp hq with rfl | hq
          · rfl
          · have hlt := hw.ruleBelow q hq
            omega
        · rw [hsame]
          rfl
        · rw [hsame]
          rfl
      · cases h
    · cases h

/-- A rule reads back as it was set exactly when its body has the default channels and
neither the container name of the body nor the one set last is longer than its column. -/
theorem fields_kept_iff {cr : Crypto} {floatStr : PyFloat → String} {attrs : Attributes}
    {now : Instant} {s t u : Db} {ownerId : ℕ} {body data : AlertRuleCreate}
    {bodies : List AlertRuleUpdate}
    (hs : Reachable (step cr floatStr attrs) (init now) s) (hv : body.validate = some data)
    (hc : createAlertRule ownerId body s = (.created, t))
    (hp : patchAll ownerId s.nextRule bodies t = some u) :
    Kept ownerId s.nextRule data (bodies.filterMap AlertRuleUpdate.validate) t u ↔
      data.notificationChannels = ["telegram", "email"] ∧ FitsColumn data.containerName ∧
        FitsColumn (lastSet data.containerName
          ((bodies.filterMap AlertRuleUpdate.validate).map (·.containerName))) := by
  have hw : WellFormed s :=
    reachable_invariant WellFormed (fun _ _ _ h hstep => h.move (step_move hstep)) (.init now) hs
  obtain ⟨data', created, hv', ht, hstored, hserver, hfields, hcontainer⟩ :=
    createAlertRule_created hw hc
  obtain rfl : data = data' := Option.some.inj (hv.symm.trans hv')
  obtain ⟨patched, hu, hpserver, hpfields, hpcontainer⟩ := patchAll_fields ht hstored hp
  constructor
  · rintro ⟨created', patched', ht', hu', -, hcreated, -, hpatched⟩
    obtain rfl : created = created' := Option.some.inj (ht.get.symm.trans ht'.get)
    obtain rfl : patched = patched' := Option.some.inj (hu.get.symm.trans hu'.get)
    have hchannels := congrArg Fields.notificationChannels (hcreated.symm.trans hfields)
    have hcut : created.containerName = data.containerName := congrArg Fields.containerName hcreated
    have hlast : patched.containerName =
        (lastFields (ofRule created) (bodies.filterMap AlertRuleUpdate.validate)).containerName :=
      congrArg Fields.containerName hpatched
    refine ⟨hchannels, (fits_iff hcontainer).mp hcut, ?_⟩
    rw [hcreated] at hpcontainer hlast
    exact (fits_iff hpcontainer).mp hlast
  · rintro ⟨hchannels, hfits, hfitslast⟩
    have hcreated : ofRule created = ofBody data := by
      rw [hfields, (fits_iff hcontainer).mpr hfits, ← hchannels]
      rfl
    refine ⟨created, patched, ht, hu, hserver, hcreated, hpserver.trans hserver, ?_⟩
    rw [hcreated] at hpfields hpcontainer ⊢
    rw [hpfields, (fits_iff hpcontainer).mpr hfitslast]

def oneServer : List Alerts.Label :=
  [.fleet (.register 0 1 "web" "pwk_agent" "$2b$12$KeyKeyKeyKeyKeyKeyKeyu")]

theorem fields_kept_renamed :
    ∃ s t u, run (step tabledCrypto Threshold.tabledFloatStr plainAttributes) (init 0)
        oneServer = some s ∧
      createAlertRule 1 (cpuBody 1) s = (.created, t) ∧
      patchAll 1 s.nextRule [{ name := some (some "load") }] t = some u ∧
      Kept 1 s.nextRule (cpuBody 1) [{ name := some (some "load") }] t u := by
  refine ⟨_, _, _, rfl, rfl, rfl, ?_⟩
  have hv : (cpuBody 1).validate = some (cpuBody 1) := by decide
  refine (@fields_kept_iff tabledCrypto Threshold.tabledFloatStr plainAttributes 0 _ _ _ 1
    (cpuBody 1) (cpuBody 1) [{ name := some (some "load") }] ⟨oneServer, rfl⟩ hv rfl rfl).mpr
    ⟨rfl, ?_, ?_⟩
  · intro name hname
    cases hname
  · intro name hname
    cases hname

/- A rule for the chat alone is created with both channels. -/
theorem channels_dropped :
    ∃ s t r, run (step tabledCrypto Threshold.tabledFloatStr plainAttributes) (init 0)
        oneServer = some s ∧
      createAlertRule 1 { cpuBody 1 with notificationChannels := ["telegram"] } s =
        (.created, t) ∧
      t.findRule 1 s.nextRule = some r ∧ r.notificationChannels = ["telegram", "email"] ∧
      ¬ Kept 1 s.nextRule { cpuBody 1 with notificationChannels := ["telegram"] } [] t t := by
  refine ⟨_, _, _, rfl, rfl, rfl, rfl, ?_⟩
  rintro ⟨created, patched, hcreated, -, -, hsame, -⟩
  obtain rfl := Option.some.inj hcreated.get
  have hchannels := congrArg Fields.notificationChannels hsame
  revert hchannels
  decide

end PulseWatch.RuleFields
