import PulseWatch.CooldownPolicy
import PulseWatch.DockerBatch
import PulseWatch.Lib.Throttle

/-!
# The order of a batch (`app/api/docker_metrics.py`)

The cooldown belongs to the rule, not to the container, so a batch is one throttled
selection for each rule: which containers get an event depends on their order, unless
the throttle is closed throughout or wide open.
-/

namespace PulseWatch.DockerBatch
open Alerts Threshold Evaluations

/-- A batch whose evaluations meet given clocks, position by position. -/
def attend (opened clock : ℕ → Instant) : ℕ → List DockerMetricCreate → List Visit
  | _, [] => []
  | k, item :: items => ⟨item, opened k, clock k, none⟩ :: attend opened clock (k + 1) items

/-- The rules and containers of the created events. -/
def pairs (created : List (List AlertEvent)) : List (ℕ × Option String) :=
  created.flatten.map fun e => (e.ruleId, e.containerName)

def wantsItem (serverId : ℕ) (r : AlertRule) (item : DockerMetricCreate) : Bool :=
  wants (sampleOf serverId item) r

/- The pairs are the same set for every permutation of the batch. -/
def OrderFree (floatStr : PyFloat → String) (server : Server) (startedAt : Instant)
    (opened clock : ℕ → Instant) (fleet : Fleet.Sys) (t : Tables)
    (items : List DockerMetricCreate) : Prop :=
  ∀ items', items'.Perm items → ∀ p,
    p ∈ pairs (submitDockerMetrics floatStr server startedAt (attend opened clock 0 items')
        fleet t).created ↔
      p ∈ pairs (submitDockerMetrics floatStr server startedAt (attend opened clock 0 items)
        fleet t).created

/- Every event the batch could create goes into its row as it is. -/
def Fitting (floatStr : PyFloat → String) (serverId : ℕ) (rules : List AlertRule)
    (items : List DockerMetricCreate) : Prop :=
  ∀ item ∈ items, ∀ r ∈ rules, ∀ value, (sampleOf serverId item).breach r = some value →
    Fits ⟨r, value, message floatStr (some item.containerName) r value, some item.containerName⟩

/- No container breaches the rule, or its cooldown outlasts the batch, or it is over from
the start and either one container breaches the rule only or the evaluations are a
cooldown apart. -/
def Indifferent (serverId : ℕ) (clock : ℕ → Instant) (items : List DockerMetricCreate)
    (r : AlertRule) : Prop :=
  items.filter (wantsItem serverId r) = [] ∨
    cooldownOver (clock (items.length - 1)) r = false ∨
      cooldownOver (clock 0) r = true ∧
        ((items.filter (wantsItem serverId r)).length = 1 ∨
          ∀ i, i + 1 < items.length → seconds r.cooldownSeconds ≤ clock (i + 1) - clock i)

section
variable {floatStr : PyFloat → String} {serverId : ℕ} {t : Tables}
  {items : List DockerMetricCreate}

theorem cooldownOver_free {now : Instant} {r : AlertRule} : cooldownOver now r = true ↔
    Throttle.Free (seconds r.cooldownSeconds) r.lastTriggeredAt now := by
  rw [cooldownOver_iff]
  exact forall₂_congr fun t _ => le_sub_iff_add_le'.symm

theorem Fitting.pending (h : Fitting floatStr serverId t.rules items) {item : DockerMetricCreate}
    (hi : item ∈ items) (now : Instant) :
    ∀ p ∈ (sampleOf serverId item).pending floatStr now t.rules, Fits p := by
  intro p hp
  rw [pending_decisions] at hp
  obtain ⟨r, hr, hdec⟩ := List.mem_filterMap.mp hp
  unfold Sample.decision at hdec
  rw [fires_breach] at hdec
  split at hdec
  · obtain ⟨value, hvalue, rfl⟩ := Option.map_eq_some_iff.mp hdec
    split at hvalue
    · exact h item hi r hr value hvalue
    · cases hvalue
  · cases hdec

/- A message does not depend on the last firing. -/
theorem advance_message (container : Option String) (x : Sample) (now : Instant) (r : AlertRule)
    (value : PyFloat) : message floatStr container (DockerBatch.advance x now r) value =
      message floatStr container r value := by
  unfold DockerBatch.advance
  split
  · simp only [message]
  · rfl

theorem advance_breach (x y : Sample) (now : Instant) (r : AlertRule) :
    x.breach (DockerBatch.advance y now r) = x.breach r := by
  unfold DockerBatch.advance
  split
  · rfl
  · rfl

theorem Fitting.advance {rules : List AlertRule} (h : Fitting floatStr serverId rules items)
    (x : Sample) (now : Instant) :
    Fitting floatStr serverId (rules.map (DockerBatch.advance x now)) items := by
  intro item hi r hr value hvalue
  obtain ⟨q, hq, rfl⟩ := List.mem_map.mp hr
  rw [advance_breach] at hvalue
  rw [Fits, advance_message]
  exact h item hi q hq value hvalue

theorem evaluateItems_cons (opened clock : ℕ → Instant) {item : DockerMetricCreate} {k : ℕ}
    (h : Fitting floatStr serverId t.rules (item :: items)) :
    ∃ t', t.evaluate floatStr (sampleOf serverId item) (opened k) (clock k) = some
        (numbered serverId (opened k) t.nextEvent
          ((sampleOf serverId item).pending floatStr (clock k) t.rules), t') ∧
      (evaluateItems floatStr serverId t (attend opened clock k (item :: items))).1 =
        numbered serverId (opened k) t.nextEvent
          ((sampleOf serverId item).pending floatStr (clock k) t.rules) ::
        (evaluateItems floatStr serverId t' (attend opened clock (k + 1) items)).1 := by
  have hpending := h.pending List.mem_cons_self (clock k)
  have heval := @evaluate_fits floatStr t (sampleOf serverId item) (opened k) (clock k) hpending
  refine ⟨_, heval, ?_⟩
  rw [attend, evaluateItems]
  simp only [evaluateItem, heval]
  rfl

theorem decision_container {x : Sample} {now : Instant} {r : AlertRule} {p : Pending}
    (h : x.decision floatStr now r = some p) : p.containerName = x.container := by
  unfold Sample.decision at h
  split at h
  · obtain ⟨value, -, rfl⟩ := Option.map_eq_some_iff.mp h
    rfl
  · cases h

/- The containers for which a rule gets an event are those its throttle selects. -/
theorem created_own (opened clock : ℕ → Instant) (hids : (t.rules.map AlertRule.id).Nodup)
    {r : AlertRule} (hr : r ∈ t.rules) (hfit : Fitting floatStr serverId t.rules items)
    (k : ℕ) : ((evaluateItems floatStr serverId t (attend opened clock k items)).1.flatten.filter
        (·.ruleId = r.id)).map AlertEvent.containerName =
      (Throttle.thin (seconds r.cooldownSeconds) clock (wantsItem serverId r) r.lastTriggeredAt k
        items).map fun item => some item.containerName := by
  induction items generalizing t r k with
  | nil => rfl
  | cons item items ih =>
    obtain ⟨t', heval, hcreated⟩ := evaluateItems_cons opened clock hfit
    have hrules := (evaluate_some hids heval).1
    have hrest := ih (t := t') (r := advance (sampleOf serverId item) (clock k) r)
      (hrules ▸ advance_ids hids) (hrules ▸ List.mem_map_of_mem hr)
      (hrules ▸ Fitting.advance (fun i hi => hfit i (List.mem_cons_of_mem item hi)) _ _) (k + 1)
    rw [advance_id] at hrest
    have hown := congrArg (List.map AlertEvent.containerName)
      (numbered_own serverId (opened k) t.nextEvent r.id
        ((sampleOf serverId item).pending floatStr (clock k) t.rules))
    rw [pending_rule floatStr _ _ hids hr, List.map_map] at hown
    have hnone := decision_none floatStr (sampleOf serverId item) (clock k) r
    rw [hcreated, List.flatten_cons, List.filter_append, List.map_append, hrest, Throttle.thin]
    by_cases hfires : wantsItem serverId r item = true ∧ cooldownOver (clock k) r = true
    · have hadvance : advance (sampleOf serverId item) (clock k) r =
          { r with lastTriggeredAt := some (clock k) } := if_pos hfires
      obtain ⟨p, hp⟩ := Option.ne_none_iff_exists'.mp fun hn => hnone.mp hn hfires
      rw [hp] at hown
      rw [if_pos ⟨hfires.1, cooldownOver_free.mp hfires.2⟩, hadvance, List.map_cons,
        ← List.singleton_append, show some item.containerName = p.containerName from
          (decision_container hp).symm]
      exact congrArg (· ++ _) hown
    · have hadvance : advance (sampleOf serverId item) (clock k) r = r := if_neg hfires
      rw [hnone.mpr hfires] at hown
      rw [if_neg fun h => hfires ⟨h.1, cooldownOver_free.mpr h.2⟩, hadvance]
      exact congrArg (· ++ _) hown

/- Every event belongs to a rule of the table. -/
theorem created_rule {opened clock : ℕ → Instant} (hids : (t.rules.map AlertRule.id).Nodup)
    (hfit : Fitting floatStr serverId t.rules items) {k : ℕ} {e : AlertEvent}
    (h : e ∈ (evaluateItems floatStr serverId t (attend opened clock k items)).1.flatten) :
    ∃ r ∈ t.rules, r.id = e.ruleId := by
  induction items generalizing t k with
  | nil => cases h
  | cons item items ih =>
    obtain ⟨t', heval, hcreated⟩ := evaluateItems_cons opened clock hfit
    have hrules := (evaluate_some hids heval).1
    rw [hcreated, List.flatten_cons, List.mem_append] at h
    rcases h with h | h
    · obtain ⟨p, hp, hid⟩ := numbered_rule h
      rw [pending_decisions] at hp
      obtain ⟨r, hr, hdec⟩ := List.mem_filterMap.mp hp
      rw [decision_rule hdec] at hid
      exact ⟨r, hr, hid⟩
    · obtain ⟨q, hq, hid⟩ := ih (hrules ▸ advance_ids hids)
        (hrules ▸ Fitting.advance (fun i hi => hfit i (List.mem_cons_of_mem item hi)) _ _) h
      rw [hrules] at hq
      obtain ⟨r, hr, rfl⟩ := List.mem_map.mp hq
      rw [advance_id] at hid
      exact ⟨r, hr, hid⟩

theorem mem_pairs (opened clock : ℕ → Instant) (hids : (t.rules.map AlertRule.id).Nodup)
    (hfit : Fitting floatStr serverId t.rules items) (k ruleId : ℕ) (container : Option String) :
    (ruleId, container) ∈ pairs (evaluateItems floatStr serverId t
        (attend opened clock k items)).1 ↔
      ∃ r ∈ t.rules, r.id = ruleId ∧ ∃ item ∈ Throttle.thin (seconds r.cooldownSeconds) clock
        (wantsItem serverId r) r.lastTriggeredAt k items, some item.containerName = container := by
  have hown : ∀ r ∈ t.rules, (∃ e ∈ (evaluateItems floatStr serverId t
        (attend opened clock k items)).1.flatten, e.ruleId = r.id ∧ e.containerName = container) ↔
      ∃ item ∈ Throttle.thin (seconds r.cooldownSeconds) clock (wantsItem serverId r)
        r.lastTriggeredAt k items, some item.containerName = container := by
    intro r hr
    have hmem := congrArg (container ∈ ·)
      (created_own opened clock hids hr hfit k)
    simp only [List.mem_map, List.mem_filter, decide_eq_true_eq, and_assoc, eq_iff_iff] at hmem
    exact hmem
  unfold pairs
  rw [List.mem_map]
  constructor
  · intro h
    obtain ⟨e, he, heq⟩ := h
    obtain ⟨rfl, rfl⟩ := Prod.mk.inj heq
    obtain ⟨r, hr, hid⟩ := created_rule hids hfit he
    exact ⟨r, hr, hid, (hown r hr).mp ⟨e, he, hid.symm, rfl⟩⟩
  · intro h
    obtain ⟨r, hr, rfl, hitem⟩ := h
    obtain ⟨e, he, hid, rfl⟩ := (hown r hr).mpr hitem
    exact ⟨e, he, Prod.ext hid rfl⟩

theorem thin_mem {clock : ℕ → Instant} {gap : ℤ} {wants : DockerMetricCreate → Bool}
    {last : Option ℤ} {items' : List DockerMetricCreate} (hperm : items'.Perm items)
    {item : DockerMetricCreate} (h : item ∈ Throttle.thin gap clock wants last 0 items') :
    item ∈ items :=
  hperm.mem_iff.mp (List.mem_of_mem_filter ((Throttle.thin_sublist last 0 items').subset h))

/- With distinct names a container is selected where its name is. -/
theorem thin_names {clock : ℕ → Instant} {gap : ℤ} {wants : DockerMetricCreate → Bool}
    {last : Option ℤ} {items' : List DockerMetricCreate}
    (hnames : (items.map DockerMetricCreate.containerName).Nodup) (hperm : items'.Perm items)
    {item : DockerMetricCreate} (hi : item ∈ items) :
    (∃ other ∈ Throttle.thin gap clock wants last 0 items',
        some other.containerName = some item.containerName) ↔
      item ∈ Throttle.thin gap clock wants last 0 items' := by
  constructor
  · intro h
    obtain ⟨other, hother, hname⟩ := h
    rwa [← List.inj_on_of_nodup_map hnames (thin_mem hperm hother) hi (Option.some.inj hname)]
  · intro h
    exact ⟨item, h, rfl⟩

end

theorem attend_items (opened clock : ℕ → Instant) (k : ℕ) (items : List DockerMetricCreate) :
    (attend opened clock k items).map Visit.item = items := by
  induction items generalizing k with
  | nil => rfl
  | cons item items ih => rw [attend, List.map_cons, ih]

section
variable {floatStr : PyFloat → String} {server : Server} {startedAt : Instant}
  {opened clock : ℕ → Instant} {fleet : Fleet.Sys} {t : Tables} {items : List DockerMetricCreate}

theorem Accepted.perm (h : Accepted server (attend opened clock 0 items))
    {items' : List DockerMetricCreate} (hperm : items'.Perm items) :
    Accepted server (attend opened clock 0 items') := by
  refine h.sub fun v hv => ?_
  have hitem : v.item ∈ items := by
    rw [← hperm.mem_iff, ← attend_items opened clock 0 items']
    exact List.mem_map_of_mem hv
  rw [← attend_items opened clock 0 items] at hitem
  obtain ⟨w, hw, heq⟩ := List.mem_map.mp hitem
  exact ⟨w, hw, heq.symm⟩

/- The pairs of a permuted batch, rule by rule. -/
theorem mem_submitted (hacc : Accepted server (attend opened clock 0 items))
    (hids : (t.rules.map AlertRule.id).Nodup) (hfit : Fitting floatStr server.id t.rules items)
    {items' : List DockerMetricCreate} (hperm : items'.Perm items) (ruleId : ℕ)
    (container : Option String) :
    (ruleId, container) ∈ pairs (submitDockerMetrics floatStr server startedAt
        (attend opened clock 0 items') fleet t).created ↔
      ∃ r ∈ t.rules, r.id = ruleId ∧ ∃ item ∈ Throttle.thin (seconds r.cooldownSeconds) clock
        (wantsItem server.id r) r.lastTriggeredAt 0 items',
          some item.containerName = container := by
  rw [(hacc.perm hperm).created]
  exact mem_pairs opened clock hids (fun item hi => hfit item (hperm.mem_iff.mp hi)) 0 ruleId
    container

theorem orderFree_steady (hacc : Accepted server (attend opened clock 0 items))
    (hnames : (items.map DockerMetricCreate.containerName).Nodup)
    (hids : (t.rules.map AlertRule.id).Nodup) (hfit : Fitting floatStr server.id t.rules items) :
    OrderFree floatStr server startedAt opened clock fleet t items ↔
      ∀ r ∈ t.rules, Throttle.Steady (seconds r.cooldownSeconds) clock (wantsItem server.id r)
        r.lastTriggeredAt items := by
  constructor
  · intro h r hr items' hperm item
    have honly : ∀ P : AlertRule → Prop, (∃ q ∈ t.rules, q.id = r.id ∧ P q) ↔ P r := by
      intro P
      constructor
      · intro hex
        obtain ⟨q, hq, hid, hp⟩ := hex
        rwa [← List.inj_on_of_nodup_map hids hq hr hid]
      · intro hp
        exact ⟨r, hr, rfl, hp⟩
    by_cases hi : item ∈ items
    · have hsame := h items' hperm (r.id, some item.containerName)
      rw [mem_submitted hacc hids hfit hperm, mem_submitted hacc hids hfit (List.Perm.refl items),
        honly, honly, thin_names hnames hperm hi, thin_names hnames (List.Perm.refl items) hi]
        at hsame
      exact hsame
    · exact iff_of_false (fun hin => hi (thin_mem hperm hin))
        (fun hin => hi (thin_mem (List.Perm.refl items) hin))
  · intro h items' hperm p
    obtain ⟨ruleId, container⟩ := p
    rw [mem_submitted hacc hids hfit hperm, mem_submitted hacc hids hfit (List.Perm.refl items)]
    exact exists_congr fun r => and_congr_right fun hr => and_congr_right fun _ =>
      exists_congr fun item => and_congr_left fun _ => h r hr items' hperm item

theorem indifferent_iff {serverId : ℕ} (hn : items.Nodup) (hmono : Monotone clock)
    (r : AlertRule) :
    Throttle.Steady (seconds r.cooldownSeconds) clock (wantsItem serverId r) r.lastTriggeredAt
      items ↔ Indifferent serverId clock items r := by
  rw [Throttle.Steady.iff hn hmono, Indifferent, ← cooldownOver_free, ← cooldownOver_free,
    Bool.not_eq_true]

end

/- A batch creates events for the same rules and containers in every order exactly when
each rule is indifferent to it. -/
theorem order_free_iff {floatStr : PyFloat → String} {server : Server} {startedAt : Instant}
    {opened clock : ℕ → Instant} {fleet : Fleet.Sys} {t : Tables} {items : List DockerMetricCreate}
    (hacc : Accepted server (attend opened clock 0 items))
    (hnames : (items.map DockerMetricCreate.containerName).Nodup) (hmono : Monotone clock)
    (hids : (t.rules.map AlertRule.id).Nodup)
    (hfit : Fitting floatStr server.id t.rules items) :
    OrderFree floatStr server startedAt opened clock fleet t items ↔
      ∀ r ∈ t.rules, Indifferent server.id clock items r := by
  rw [orderFree_steady hacc hnames hids hfit]
  exact forall₂_congr fun r _ => indifferent_iff (List.Nodup.of_map _ hnames) hmono r

/- Two containers that breach one rule, at one instant. -/
def webDb : List DockerMetricCreate := [busy "web", busy "db"]

theorem order_decides :
    Accepted host (attend (fun _ => 0) (fun _ => 0) 0 webDb) ∧
      (webDb.map DockerMetricCreate.containerName).Nodup ∧
      ¬ OrderFree tabledFloatStr host 0 (fun _ => 0) (fun _ => 0) (Fleet.init 0)
        ⟨[dockerRule], [], 1⟩ webDb := by
  refine ⟨⟨rfl, by decide⟩, by decide, fun h => ?_⟩
  have hpair := h [busy "db", busy "web"] (List.Perm.swap _ _ []) (1, some "db")
  revert hpair
  decide

def apart (i : ℕ) : Instant := seconds (300 * i)

theorem order_free_apart :
    OrderFree tabledFloatStr host 0 apart apart (Fleet.init 0) ⟨[dockerRule], [], 1⟩ webDb := by
  have hmono : Monotone apart := by
    intro i j hij
    show 300 * (i : ℤ) * 1000000 ≤ 300 * (j : ℤ) * 1000000
    omega
  have hfit : Fitting tabledFloatStr 1 [dockerRule] webDb := by
    intro item hi r hr value hvalue
    obtain rfl := List.mem_singleton.mp hr
    rcases List.mem_pair.mp hi with rfl | rfl
    · obtain rfl := Option.some.inj (hvalue.symm.trans (show _ = some (.fin 90) by decide))
      exact ⟨by decide, by decide⟩
    · obtain rfl := Option.some.inj (hvalue.symm.trans (show _ = some (.fin 90) by decide))
      exact ⟨by decide, by decide⟩
  refine (order_free_iff ⟨rfl, by decide⟩ (by decide) hmono (by decide) hfit).mpr fun r hr => ?_
  obtain rfl := List.mem_singleton.mp hr
  refine Or.inr (Or.inr ⟨by decide, Or.inr fun i hi => ?_⟩)
  show (300 : ℤ) * 1000000 ≤ 300 * ((i + 1 : ℕ) : ℤ) * 1000000 - 300 * (i : ℤ) * 1000000
  omega

end PulseWatch.DockerBatch
