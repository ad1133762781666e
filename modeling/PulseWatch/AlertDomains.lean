import PulseWatch.AlertLifecycle

/-!
# Which resolver an open event belongs to

The system resolver takes the open events whose rule is a system rule by now, the
docker resolver those with a container whose rule is a docker rule by now. What
created an event is not stored; it is kept beside the tables here. A PATCH of
`metric_type` can therefore take an open event out of both domains.
-/

namespace PulseWatch.Alerts

open Threshold (Reading Pending)

/- The tables, and for each event id the kind of metric whose evaluation made it. -/
structure Tracked where
  db : Db
  createdBy : ℕ → Option MetricType

def Tracked.start (now : Instant) : Tracked := ⟨init now, fun _ => none⟩

/- The ids a commit takes from the sequence are those of its reading's events. -/
def Tracked.note (t : Tracked) (s' : Db) : Label → Tracked
  | .commit i =>
    match t.db.evaluations i with
    | .decided reading _ _ _ => ⟨s', fun id =>
        if t.db.nextEvent ≤ id ∧ id < s'.nextEvent then some reading.metricType
        else t.createdBy id⟩
    | _ => ⟨s', t.createdBy⟩
  | _ => ⟨s', t.createdBy⟩

section
variable (cr : Crypto) (floatStr : PyFloat → String) (attrs : Attributes)

def Tracked.step (t : Tracked) (l : Label) : Option Tracked :=
  (Alerts.step cr floatStr attrs t.db l).map fun s' => t.note s' l

end

/- What the SELECT of the resolver for this kind of metric finds. -/
def Domain (s : Db) (e : AlertEvent) : MetricType → Prop
  | .system => ∃ r, (e, r) ∈ s.openPairs .system fun _ => true
  | .docker => ∃ r, (e, r) ∈ s.openPairs .docker fun e => e.containerName.isSome

/- Every open event is in the domain of the resolver for the kind that created it,
and of no other. -/
def OwnDomain (t : Tracked) : Prop :=
  ∀ e ∈ t.db.events, e.resolvedAt = none →
    ∃ k, t.createdBy e.id = some k ∧ ∀ k', Domain t.db e k' ↔ k' = k

/- No accepted PATCH gives a rule another `metric_type` than the kind of one of its
open events, and no event is committed for a rule that has been given another type
since the evaluation loaded it. -/
def KindKept (t : Tracked) : Label → Prop
  | .patch ownerId ruleId body => ∀ data r k, body.validate = some data →
      t.db.findRule ownerId ruleId = some r → (updateRule data r).isSome = true →
      data.metricType = some (some k) →
      ∀ e ∈ t.db.events, e.resolvedAt = none → e.ruleId = r.id → t.createdBy e.id = some k
  | .commit i => ∀ reading evaluatedAt pending rest,
      t.db.evaluations i = .decided reading evaluatedAt pending rest →
      (t.db.insertEvents reading evaluatedAt t.db.nextEvent pending).isSome = true →
      ∀ p ∈ pending, ∀ r ∈ t.db.rules, r.id = p.rule.id → r.metricType = reading.metricType
  | _ => True

/-! ### Rows and the kind they carry -/

theorem updateRule_metricType {data : AlertRuleUpdate} {r row : AlertRule}
    (h : updateRule data r = some row) :
    (data.metricType = none ∧ row.metricType = r.metricType) ∨
      data.metricType = some (some row.metricType) := by
  obtain ⟨q, hq, hflush⟩ := updateRule_patched h
  have hrow : row.metricType = q.metricType := by rw [(flushRule_flushed hflush).same]
  have htype := hq.metricType
  unfold setColumn at htype
  split at htype
  · next hd => exact Or.inl ⟨hd, hrow.trans (Option.some.inj htype).symm⟩
  · next v hd =>
    rw [htype] at hd
    exact Or.inr (hrow ▸ hd)

theorem flushEvent_container {e e' : AlertEvent} (h : flushEvent e = some e') :
    e'.containerName.isSome = e.containerName.isSome := by
  unfold flushEvent at h
  obtain ⟨message, -, h⟩ := Option.bind_eq_some_iff.mp h
  obtain ⟨container, hc, h⟩ := Option.bind_eq_some_iff.mp h
  obtain rfl := Option.some.inj h
  show container.isSome = e.containerName.isSome
  cases he : e.containerName with
  | none =>
    rw [he] at hc
    rw [← Option.some.inj hc]
  | some name =>
    rw [he] at hc
    obtain ⟨stored, -, rfl⟩ := Option.map_eq_some_iff.mp hc
    rfl

/- Each inserted event comes from one of the pending ones. -/
theorem insertEvents_from {s : Db} {reading : Reading} {createdAt : Instant} {id : ℕ}
    {pending : List Pending} {new : List AlertEvent}
    (h : s.insertEvents reading createdAt id pending = some new) :
    ∀ e ∈ new, ∃ p ∈ pending, e.ruleId = p.rule.id ∧
      e.containerName.isSome = p.containerName.isSome := by
  induction pending generalizing id new with
  | nil =>
    have hnew : [] = new := Option.some.inj h
    rw [← hnew]
    exact fun e he => absurd he List.not_mem_nil
  | cons p ps ih =>
    obtain ⟨e, rest, rfl, he, hrest, -⟩ := insertEvents_cons h
    intro q hq
    rcases List.mem_cons.mp hq with rfl | hq
    · exact ⟨p, List.mem_cons_self, (flushEvent_same he).2.1, flushEvent_container he⟩
    · obtain ⟨p', hp', hrest'⟩ := ih hrest q hq
      exact ⟨p', List.mem_cons_of_mem _ hp', hrest'⟩

/- Each pending event is inserted. -/
theorem insertEvents_onto {s : Db} {reading : Reading} {createdAt : Instant} {id : ℕ}
    {pending : List Pending} {new : List AlertEvent}
    (h : s.insertEvents reading createdAt id pending = some new) :
    ∀ p ∈ pending, ∃ e ∈ new, e.ruleId = p.rule.id := by
  induction pending generalizing id new with
  | nil => exact fun p hp => absurd hp List.not_mem_nil
  | cons p ps ih =>
    obtain ⟨e, rest, rfl, he, hrest, -⟩ := insertEvents_cons h
    intro q hq
    rcases List.mem_cons.mp hq with rfl | hq
    · exact ⟨e, List.mem_cons_self, (flushEvent_same he).2.1⟩
    · obtain ⟨e', he', hrule⟩ := ih hrest q hq
      exact ⟨e', List.mem_cons_of_mem _ he', hrule⟩

theorem evaluate_container {floatStr : PyFloat → String} {reading : Reading} {now : Instant}
    {rules : List AlertRule} {p : Pending} (h : p ∈ reading.evaluate floatStr now rules) :
    p.containerName = reading.container := by
  cases reading with
  | system s cpu memory disk =>
    obtain ⟨rule, -, hp⟩ := List.mem_filterMap.mp h
    obtain ⟨value, -, rfl⟩ := Option.map_eq_some_iff.mp hp
    rfl
  | docker s name cpu usage limit =>
    obtain ⟨rule, -, hp⟩ := List.mem_filterMap.mp h
    obtain ⟨value, -, rfl⟩ := Option.map_eq_some_iff.mp hp
    rfl

theorem container_docker (reading : Reading) :
    reading.container.isSome = true ↔ reading.metricType = .docker := by
  cases reading <;> simp [Reading.container, Reading.metricType]

section
variable {cr : Crypto} {floatStr : PyFloat → String} {attrs : Attributes}

/-! Evaluations in progress under the requests of the API and the bot. -/

theorem addRule_evaluations {s t : Db} {rule : AlertRule} (h : s.addRule rule = some t) :
    t.evaluations = s.evaluations := by
  obtain ⟨row, -, -, rfl⟩ := addRule_inv h
  rfl

theorem createAlertRule_evaluations (ownerId : ℕ) (body : AlertRuleCreate) (s : Db) :
    (createAlertRule ownerId body s).2.evaluations = s.evaluations := by
  unfold createAlertRule
  split
  · rfl
  · split
    · split
      · next t ht => exact addRule_evaluations ht
      · rfl
    · rfl

theorem updateAlertRule_evaluations (ownerId ruleId : ℕ) (body : AlertRuleUpdate) (s : Db) :
    (updateAlertRule ownerId ruleId body s).2.evaluations = s.evaluations := by
  unfold updateAlertRule
  split
  · rfl
  · split
    · rfl
    · split <;> rfl

theorem deleteAlertRule_evaluations (ownerId ruleId : ℕ) (s : Db) :
    (deleteAlertRule ownerId ruleId s).2.evaluations = s.evaluations := by
  unfold deleteAlertRule
  split <;> rfl

theorem confirmDraft_evaluations (ownerId : ℕ) (draft : RuleDraft) (s : Db) :
    (confirmDraft ownerId draft s).evaluations = s.evaluations := by
  unfold confirmDraft
  cases hd : s.addRule (draft.rule s.nextRule ownerId) with
  | none => rfl
  | some t => exact addRule_evaluations hd

theorem handleToggle_evaluations (ownerId ruleId : ℕ) (s : Db) :
    (handleToggle ownerId ruleId s).evaluations = s.evaluations := by
  unfold handleToggle
  split <;> rfl

theorem handleDelete_evaluations (ownerId serverId : ℕ) (s : Db) :
    (handleDelete ownerId serverId s).evaluations = s.evaluations := by
  unfold handleDelete
  split <;> rfl

/- What a step can do to one evaluation. -/
inductive Evaluates (floatStr : PyFloat → String) (s : Db) (j : ℕ) : Label → Evaluation → Prop
  | kept {l} : Evaluates floatStr s j l (s.evaluations j)
  | dropped {l} : Evaluates floatStr s j l .idle
  | stored (server : Server) (startedAt : Instant) (body : Fleet.Submission) :
      s.fleet.requests j = .verified server startedAt body → s.hasServer server.id = true →
      (Fleet.storeSubmission s.fleet server startedAt body).isSome = true →
      Evaluates floatStr s j (.store j) (.evaluating (readings server.id body))
  | passed (reading : Reading) (rest : List Reading) :
      s.evaluations j = .evaluating (reading :: rest) →
      Evaluates floatStr s j (.load j) (.evaluating rest)
  | decided (reading : Reading) (rest : List Reading) :
      s.evaluations j = .evaluating (reading :: rest) →
      Evaluates floatStr s j (.load j) (.decided reading s.fleet.now
        (reading.evaluate floatStr s.fleet.now
          (Threshold.selectRules reading.metricType reading.serverId s.rules)) rest)
  | committed (reading : Reading) (evaluatedAt : Instant) (pending : List Pending)
      (rest : List Reading) :
      s.evaluations j = .decided reading evaluatedAt pending rest →
      Evaluates floatStr s j (.commit j) (.evaluating rest)

/- A step that writes one evaluation leaves the others alone. -/
theorem goto_evaluates {s : Db} {i : ℕ} {ev : Evaluation} {l : Label}
    (h : Evaluates floatStr s i l ev) (j : ℕ) :
    Evaluates floatStr s j l ((s.goto i ev).evaluations j) := by
  by_cases hj : j = i
  · subst hj
    have hself : (s.goto j ev).evaluations j = ev := Function.update_self _ _ _
    rw [hself]
    exact h
  · have hother : (s.goto i ev).evaluations j = s.evaluations j := Function.update_of_ne hj _ _
    rw [hother]
    exact .kept

theorem step_evaluates {s s' : Db} {l : Label} (hs : step cr floatStr attrs s l = some s')
    (j : ℕ) : Evaluates floatStr s j l (s'.evaluations j) := by
  have hkept : s'.evaluations = s.evaluations → Evaluates floatStr s j l (s'.evaluations j) :=
    fun he => he ▸ .kept
  cases l with
  | fleet l =>
    simp only [step, fleetStep] at hs
    split at hs
    · cases hs
    · obtain ⟨fleet, -, rfl⟩ := Option.map_eq_some_iff.mp hs
      exact .kept
  | store i =>
    simp only [step, storeIngest] at hs
    split at hs
    · next server startedAt body hreq =>
      split at hs
      · next hserver =>
        split at hs
        · next fleet hfleet =>
          obtain rfl := Option.some.inj hs
          exact goto_evaluates (.stored server startedAt body hreq hserver
            (Option.isSome_iff_exists.mpr ⟨fleet, hfleet⟩)) j
        · obtain rfl := Option.some.inj hs
          exact .kept
      · obtain rfl := Option.some.inj hs
        exact .kept
    · cases hs
  | load i =>
    simp only [step, loadEvaluation] at hs
    split at hs
    · next reading rest hev =>
      obtain rfl := Option.some.inj hs
      refine goto_evaluates ?_ j
      split
      · exact .passed reading rest hev
      · exact .decided reading rest hev
    · cases hs
  | commit i =>
    simp only [step, commitEvaluation] at hs
    split at hs
    · next reading evaluatedAt pending rest hev =>
      split at hs
      · obtain rfl := Option.some.inj hs
        exact goto_evaluates (.committed reading evaluatedAt pending rest hev) j
      · obtain rfl := Option.some.inj hs
        exact goto_evaluates .dropped j
    · cases hs
  | fail i =>
    simp only [step] at hs
    split at hs
    · cases hs
    · obtain rfl := Option.some.inj hs
      exact goto_evaluates .dropped j
  | create ownerId body =>
    obtain rfl := Option.some.inj hs
    exact hkept (createAlertRule_evaluations ownerId body s)
  | patch ownerId ruleId body =>
    obtain rfl := Option.some.inj hs
    exact hkept (updateAlertRule_evaluations ownerId ruleId body s)
  | delete ownerId ruleId =>
    obtain rfl := Option.some.inj hs
    exact hkept (deleteAlertRule_evaluations ownerId ruleId s)
  | confirm ownerId draft =>
    obtain rfl := Option.some.inj hs
    exact hkept (confirmDraft_evaluations ownerId draft s)
  | toggle ownerId ruleId =>
    obtain rfl := Option.some.inj hs
    exact hkept (handleToggle_evaluations ownerId ruleId s)
  | deleteServer ownerId serverId =>
    obtain rfl := Option.some.inj hs
    exact hkept (handleDelete_evaluations ownerId serverId s)
  | resolve reads now₁ now₂ =>
    obtain rfl := Option.some.inj hs
    obtain ⟨events, hevents⟩ := runResolvers_only attrs reads now₁ now₂ s
    exact hkept (by rw [hevents])

/- An evaluation decides what its service computes; nothing else makes a decision. -/
theorem step_decided {s s' : Db} {l : Label} (hs : step cr floatStr attrs s l = some s') {j : ℕ}
    {reading : Reading} {at' : Instant} {pending : List Pending} {rest : List Reading}
    (h : s'.evaluations j = .decided reading at' pending rest) :
    s.evaluations j = .decided reading at' pending rest ∨
      ∃ rules, pending = reading.evaluate floatStr at' rules := by
  have hev := step_evaluates hs j
  rw [h] at hev
  generalize hd : Evaluation.decided reading at' pending rest = ev at hev
  cases hev with
  | kept => exact Or.inl rfl
  | decided reading' rest' _ =>
    cases hd
    exact Or.inr ⟨_, rfl⟩
  | dropped => cases hd
  | stored server startedAt body _ _ _ => cases hd
  | passed reading' rest' _ => cases hd
  | committed reading' evaluatedAt pending' rest' _ => cases hd

/-! ### What is known of every event -/

/- Every event has its kind on record, and has a container when that is docker. -/
structure Provenance (t : Tracked) : Prop where
  formed : WellFormed t.db
  kinds : ∀ e ∈ t.db.events, ∃ k, t.createdBy e.id = some k ∧
    (e.containerName.isSome = true ↔ k = .docker)
  decided : ∀ i reading at' pending rest, t.db.evaluations i = .decided reading at' pending rest →
    ∀ p ∈ pending, p.containerName = reading.container

/- The rules of the open events are of the kind that created them. -/
def Typed (t : Tracked) : Prop :=
  ∀ e ∈ t.db.events, e.resolvedAt = none → ∀ r ∈ t.db.rules, r.id = e.ruleId →
    t.createdBy e.id = some r.metricType

theorem note_db (t : Tracked) (s' : Db) (l : Label) : (t.note s' l).db = s' := by
  unfold Tracked.note
  split
  · split <;> rfl
  · rfl

/- Ids taken before keep their kind. -/
theorem note_old (t : Tracked) (s' : Db) (l : Label) {id : ℕ} (h : id < t.db.nextEvent) :
    (t.note s' l).createdBy id = t.createdBy id := by
  unfold Tracked.note
  split
  · split
    · refine if_neg ?_
      omega
    · rfl
  · rfl

theorem note_new {t : Tracked} {s' : Db} {i : ℕ} {reading : Reading} {at' : Instant}
    {pending : List Pending} {rest : List Reading}
    (hi : t.db.evaluations i = .decided reading at' pending rest) {id : ℕ}
    (hlow : t.db.nextEvent ≤ id) (hhigh : id < s'.nextEvent) :
    (t.note s' (.commit i)).createdBy id = some reading.metricType := by
  simp only [Tracked.note, hi]
  exact if_pos ⟨hlow, hhigh⟩

namespace Provenance
variable {t : Tracked} {s' : Db} {l : Label}

theorem start (now : Instant) : Provenance (Tracked.start now) where
  formed := WellFormed.init now
  kinds := by intro e he; cases he
  decided := by intro i reading at' pending rest hi; cases hi

theorem note_event (h : Provenance t) {e : AlertEvent} (he : e ∈ t.db.events) :
    (t.note s' l).createdBy e.id = t.createdBy e.id := note_old t s' l (h.formed.eventBelow e he)

/- The events a commit inserts. -/
theorem new_event (h : Provenance t) {i : ℕ} {reading : Reading} {evaluatedAt : Instant}
    {pending : List Pending} {rest : List Reading} {new : List AlertEvent}
    (hi : t.db.evaluations i = .decided reading evaluatedAt pending rest)
    (hnew : t.db.insertEvents reading evaluatedAt t.db.nextEvent pending = some new)
    (hnext : s'.nextEvent = t.db.nextEvent + pending.length) {e : AlertEvent} (he : e ∈ new) :
    (t.note s' (.commit i)).createdBy e.id = some reading.metricType ∧
      (e.containerName.isSome = true ↔ reading.metricType = .docker) ∧
      ∃ p ∈ pending, e.ruleId = p.rule.id := by
  obtain ⟨p, hp, hrule, hcontainer⟩ := insertEvents_from hnew e he
  obtain ⟨hlow, hhigh⟩ := insertEvents_id hnew he
  refine ⟨note_new hi hlow (hnext ▸ hhigh), ?_, p, hp, hrule⟩
  rw [hcontainer, h.decided i reading evaluatedAt pending rest hi p hp]
  exact container_docker reading

/- The events a move leaves are old ones, closed ones or the commit's own. -/
theorem events_move (h : Provenance t) (hm : Move attrs t.db l s') :
    ∀ e ∈ s'.events,
      (∃ q ∈ t.db.events, q.id = e.id ∧ q.ruleId = e.ruleId ∧
        q.containerName = e.containerName ∧ (e.resolvedAt = none → q = e)) ∨
      ∃ i reading evaluatedAt pending rest new, l = .commit i ∧
        t.db.evaluations i = .decided reading evaluatedAt pending rest ∧
        t.db.insertEvents reading evaluatedAt t.db.nextEvent pending = some new ∧
        s'.nextEvent = t.db.nextEvent + pending.length ∧ e ∈ new := by
  intro e he
  rcases move_events h.formed.toKeyed hm e he with ⟨q, hq, hsame⟩ | hnew
  · refine Or.inl ⟨q, hq, ?_⟩
    rcases hsame with rfl | ⟨t, rfl⟩
    · exact ⟨rfl, rfl, rfl, fun _ => rfl⟩
    · exact ⟨rfl, rfl, rfl, fun hopen => by cases hopen⟩
  · exact Or.inr hnew

theorem step (h : Provenance t) {t' : Tracked} (hs : t.step cr floatStr attrs l = some t') :
    Provenance t' := by
  obtain ⟨s', hs', rfl⟩ := Option.map_eq_some_iff.mp hs
  have hm := step_move hs'
  refine ⟨?_, ?_, ?_⟩
  · rw [note_db]
    exact h.formed.move hm
  · rw [note_db]
    intro e he
    rcases h.events_move hm e he with ⟨q, hq, hid, -, hc, -⟩ |
      ⟨i, reading, evaluatedAt, pending, rest, new, rfl, hi, hnew, hnext, hin⟩
    · rw [← hid, h.note_event hq, ← hc]
      exact h.kinds q hq
    · obtain ⟨hk, hc, -⟩ := h.new_event hi hnew hnext hin
      exact ⟨_, hk, hc⟩
  · rw [note_db]
    intro i reading at' pending rest hi p hp
    rcases step_decided hs' hi with hold | ⟨rules, rfl⟩
    · exact h.decided i reading at' pending rest hold p hp
    · exact evaluate_container hp

/- Being in its own domain is a question about the type of the event's rule. -/
theorem ownDomain_iff (h : Provenance t) : OwnDomain t ↔ Typed t := by
  constructor
  · intro hd e he hopen r hr hid
    obtain ⟨k, hk, hdom⟩ := hd e he hopen
    rw [hk]
    have hin : Domain t.db e k := (hdom k).mpr rfl
    cases k with
    | system =>
      obtain ⟨q, hq⟩ := hin
      obtain ⟨-, -, -, hqr, hqid, ht⟩ := mem_openPairs.mp hq
      rw [List.inj_on_of_nodup_map h.formed.rules hr hqr (hid.trans hqid.symm), ht]
    | docker =>
      obtain ⟨q, hq⟩ := hin
      obtain ⟨-, -, -, hqr, hqid, ht⟩ := mem_openPairs.mp hq
      rw [List.inj_on_of_nodup_map h.formed.rules hr hqr (hid.trans hqid.symm), ht]
  · intro hty e he hopen
    obtain ⟨k, hk, hc⟩ := h.kinds e he
    obtain ⟨r, hr, hid⟩ := h.formed.owned e he
    have htype : r.metricType = k := Option.some.inj ((hty e he hopen r hr hid).symm.trans hk)
    refine ⟨k, hk, fun k' => ⟨?_, ?_⟩⟩
    · intro hin
      cases k' with
      | system =>
        obtain ⟨q, hq⟩ := hin
        obtain ⟨-, -, -, hqr, hqid, ht⟩ := mem_openPairs.mp hq
        exact ht.symm.trans (Option.some.inj ((hty e he hopen q hqr hqid).symm.trans hk))
      | docker =>
        obtain ⟨q, hq⟩ := hin
        obtain ⟨-, -, -, hqr, hqid, ht⟩ := mem_openPairs.mp hq
        exact ht.symm.trans (Option.some.inj ((hty e he hopen q hqr hqid).symm.trans hk))
    · rintro rfl
      cases k' with
      | system => exact ⟨r, mem_openPairs.mpr ⟨he, hopen, rfl, hr, hid, htype⟩⟩
      | docker => exact ⟨r, mem_openPairs.mpr ⟨he, hopen, hc.mpr rfl, hr, hid, htype⟩⟩

/-! ### Steps that keep the types, and steps that do not -/

/- The rules a move leaves have their old type, unless it is the PATCH of that rule. -/
theorem rules_move (h : Provenance t) (hm : Move attrs t.db l s') :
    ∀ r ∈ s'.rules, (∃ q ∈ t.db.rules, q.id = r.id ∧ q.metricType = r.metricType) ∨
      r.id = t.db.nextRule ∨
      ∃ ownerId ruleId body data q, l = .patch ownerId ruleId body ∧ body.validate = some data ∧
        t.db.findRule ownerId ruleId = some q ∧ updateRule data q = some r := by
  have hkept : ∀ r ∈ t.db.rules, ∃ q ∈ t.db.rules, q.id = r.id ∧ q.metricType = r.metricType :=
    fun r hr => ⟨r, hr, rfl, rfl⟩
  intro r hr
  cases hm with
  | quiet hsame => exact Or.inl (hkept r (hsame.1 ▸ hr))
  | stored i server startedAt body fleet _ _ _ hsame => exact Or.inl (hkept r (hsame.1 ▸ hr))
  | added row hid =>
    rcases List.mem_cons.mp hr with rfl | hr
    · exact Or.inr (Or.inl hid)
    · exact Or.inl (hkept r hr)
  | patched ownerId ruleId body data q row hdata hfind hrow =>
    rcases mem_putRule hr with rfl | hr
    · exact Or.inr (Or.inr ⟨ownerId, ruleId, body, data, q, rfl, hdata, hfind, hrow⟩)
    · exact Or.inl (hkept r hr)
  | toggled q hq =>
    rcases mem_putRule hr with rfl | hr
    · exact Or.inl ⟨q, hq, rfl, rfl⟩
    · exact Or.inl (hkept r hr)
  | removed gone hrules _ _ _ _ =>
    rw [hrules] at hr
    exact Or.inl (hkept r (List.mem_of_mem_filter hr))
  | committed i reading evaluatedAt pending rest new _ _ hsame =>
    rw [hsame.1] at hr
    obtain ⟨q, hq, rfl⟩ := List.mem_map.mp hr
    obtain ⟨hid, htype, -, -⟩ := trigger_same evaluatedAt pending q
    exact Or.inl ⟨q, hq, hid.symm, htype.symm⟩
  | resolved reads now₁ now₂ =>
    obtain ⟨f, -, hf⟩ := @runResolvers_events attrs _ h.formed.toKeyed reads now₁ now₂
    rw [hf] at hr
    exact Or.inl (hkept r hr)

theorem typed_step (h : Provenance t) (hty : Typed t) (hok : KindKept t l) {t' : Tracked}
    (hs : t.step cr floatStr attrs l = some t') : Typed t' := by
  obtain ⟨s', hs', rfl⟩ := Option.map_eq_some_iff.mp hs
  have hm := step_move hs'
  unfold Typed
  rw [note_db]
  intro e he hopen r hr hid
  rcases h.events_move hm e he with ⟨q, hq, -, -, -, hsame⟩ |
    ⟨i, reading, evaluatedAt, pending, rest, new, rfl, hi, hnew, hnext, hin⟩
  · -- an event that was there and still is open
    obtain rfl := hsame hopen
    rw [h.note_event hq]
    rcases h.rules_move hm r hr with ⟨p, hp, hpid, htype⟩ | hfresh |
      ⟨ownerId, ruleId, body, data, p, rfl, hdata, hfind, hrow⟩
    · rw [← htype]
      exact hty q hq hopen p hp (hpid.trans hid)
    · obtain ⟨p, hp, hpid⟩ := h.formed.owned q hq
      have hlt := h.formed.ruleBelow p hp
      omega
    · have hpid := updateRule_id hrow
      rcases updateRule_metricType hrow with ⟨-, htype⟩ | hgiven
      · rw [htype]
        exact hty q hq hopen p (findRule_mem hfind) (hpid.symm.trans hid)
      · exact hok data p r.metricType hdata hfind (Option.isSome_iff_exists.mpr ⟨r, hrow⟩) hgiven
          q hq hopen (hid.symm.trans hpid)
  · -- an event this commit inserts
    obtain ⟨hk, -, p, hp, hrule⟩ := h.new_event hi hnew hnext hin
    rw [hk]
    rcases h.rules_move hm r hr with ⟨q, hq, hqid, htype⟩ | hfresh | ⟨_, _, _, _, _, hl, -⟩
    · have hq' := hok reading evaluatedAt pending rest hi (Option.isSome_iff_exists.mpr ⟨new, hnew⟩)
        p hp q hq (hqid.trans (hid.trans hrule))
      rw [← htype, hq']
    · obtain ⟨q, hq, hqid⟩ := ((insertEvents_new hnew).2 e hin).2
      have hlt := h.formed.ruleBelow q hq
      omega
    · cases hl

theorem untyped_patch {ownerId ruleId : ℕ} {body : AlertRuleUpdate}
    (hn : ¬ KindKept t (.patch ownerId ruleId body)) :
    ∃ t', t.step cr floatStr attrs (.patch ownerId ruleId body) = some t' ∧ ¬ Typed t' := by
  simp only [KindKept, not_forall] at hn
  obtain ⟨data, r, k, hdata, hfind, hrow, hgiven, e, he, hopen, hid, hkind⟩ := hn
  obtain ⟨row, hrow⟩ := Option.isSome_iff_exists.mp hrow
  have hstep : updateAlertRule ownerId ruleId body t.db = (.ok, t.db.putRule row) := by
    simp only [updateAlertRule, hdata, hfind, hrow]
  refine ⟨⟨t.db.putRule row, t.createdBy⟩, ?_, ?_⟩
  · simp only [Tracked.step, Alerts.step, hstep]
    rfl
  · intro hty
    have hrid : r.id = row.id := (updateRule_id hrow).symm
    have hmem : row ∈ (t.db.putRule row).rules :=
      List.mem_map.mpr ⟨r, findRule_mem hfind, if_pos hrid⟩
    have htype : row.metricType = k := by
      rcases updateRule_metricType hrow with ⟨hnone, -⟩ | hset
      · rw [hnone] at hgiven
        cases hgiven
      · exact Option.some.inj (Option.some.inj (hset.symm.trans hgiven))
    exact hkind (htype ▸ hty e he hopen row hmem (hid.trans hrid).symm)

theorem untyped_commit (h : Provenance t) {i : ℕ} (hn : ¬ KindKept t (.commit i)) :
    ∃ t', t.step cr floatStr attrs (.commit i) = some t' ∧ ¬ Typed t' := by
  simp only [KindKept, not_forall] at hn
  obtain ⟨reading, evaluatedAt, pending, rest, hi, hsome, p, hp, r, hr, hid, htype⟩ := hn
  obtain ⟨new, hnew⟩ := Option.isSome_iff_exists.mp hsome
  let s' : Db := { t.db.goto i (.evaluating rest) with
    rules := t.db.rules.map (trigger evaluatedAt pending)
    events := new ++ t.db.events
    nextEvent := t.db.nextEvent + pending.length }
  have hstep : Alerts.step cr floatStr attrs t.db (.commit i) = some s' := by
    simp only [Alerts.step, commitEvaluation, hi, hnew, s']
  refine ⟨_, Option.map_eq_some_iff.mpr ⟨_, hstep, rfl⟩, ?_⟩
  unfold Typed
  rw [note_db]
  intro hty
  obtain ⟨e, he, hrule⟩ := insertEvents_onto hnew p hp
  have hnext : s'.nextEvent = t.db.nextEvent + pending.length := rfl
  obtain ⟨hkind, -, -⟩ := h.new_event hi hnew hnext he
  obtain ⟨htid, httype, -, -⟩ := trigger_same evaluatedAt pending r
  have hbad := hty e (List.mem_append_left _ he) ((insertEvents_new hnew).2 e he).1
    (trigger evaluatedAt pending r) (List.mem_map_of_mem hr) (htid.trans (hid.trans hrule.symm))
  rw [hkind, httype] at hbad
  exact htype (Option.some.inj hbad).symm

theorem untyped_step (h : Provenance t) (hn : ¬ KindKept t l) :
    ∃ t', t.step cr floatStr attrs l = some t' ∧ ¬ OwnDomain t' := by
  have hex : ∃ t', t.step cr floatStr attrs l = some t' ∧ ¬ Typed t' := by
    cases l with
    | patch ownerId ruleId body => exact untyped_patch hn
    | commit i => exact h.untyped_commit hn
    | _ => exact absurd trivial hn
  obtain ⟨t', hs, hty⟩ := hex
  refine ⟨t', hs, ?_⟩
  rw [(h.step hs).ownDomain_iff]
  exact hty

end Provenance

/- Over a whole run every open event stays with the resolver of its own kind exactly
when no step gives it a rule of another kind. -/
theorem own_domain_iff_kind_kept (cr : Crypto) (floatStr : PyFloat → String) (attrs : Attributes)
    (now : Instant) (ls : List Label) :
    Runs.Throughout (Tracked.step cr floatStr attrs) OwnDomain (Tracked.start now) ls ↔
      Runs.Along (Tracked.step cr floatStr attrs) KindKept (Tracked.start now) ls := by
  constructor
  · exact Runs.along_of_throughout Provenance OwnDomain KindKept
      (fun _ _ _ h hs => h.step hs) (fun _ _ h hn => h.untyped_step hn) (Provenance.start now)
  · refine Runs.throughout_of_invariant (fun t => Provenance t ∧ Typed t) OwnDomain KindKept
      ?_ (fun t ht => ht.1.ownDomain_iff.mpr ht.2) ?_
    · intro t l t' ht hok hs
      exact ⟨ht.1.step hs, ht.1.typed_step ht.2 hok hs⟩
    · exact ⟨Provenance.start now, fun e he => by cases he⟩

end

/- A system rule fires and is then made a docker rule. -/
def retypedRule : List Label :=
  [.fleet (.register 0 1 "web" "pwk_agent" "$2b$12$KeyKeyKeyKeyKeyKeyKeyu"),
    .create 1 (cpuBody 1)] ++
  sample 1 1 90 ++ [.commit 1, .patch 1 1 { metricType := some (some .docker) }]

/- Neither resolver finds its event any more, not even when the CPU is idle again. -/
theorem event_orphaned_by_patch :
    ∃ t t', Runs.run (Tracked.step tabledCrypto Threshold.tabledFloatStr plainAttributes)
        (Tracked.start 0) retypedRule = some t ∧
      t.db.events.map (fun e => (e.ruleId, e.resolvedAt)) = [(1, none)] ∧
      t.createdBy 1 = some .system ∧ ¬ OwnDomain t ∧
      Runs.run (Tracked.step tabledCrypto Threshold.tabledFloatStr plainAttributes) t
        (.fleet (.tick 60000000) :: sample 2 1 10 ++ [.resolve Reads.first 0 0]) = some t' ∧
      t'.db.events = t.db.events := by
  refine ⟨_, _, rfl, by decide, rfl, ?_, rfl, rfl⟩
  intro h
  obtain ⟨k, hk, hdom⟩ := h _ List.mem_cons_self rfl
  obtain rfl := Option.some.inj hk
  obtain ⟨r, hr⟩ := (hdom .system).mpr rfl
  obtain ⟨-, -, -, hrule, -, htype⟩ := mem_openPairs.mp hr
  have hmem := List.mem_map_of_mem (f := AlertRule.metricType) hrule
  rw [htype] at hmem
  exact absurd hmem (by decide)

end PulseWatch.Alerts
