import PulseWatch.AlertDomains

/-!
# Events and the requests that caused them

The tables do not say which request an event comes from. Beside them stand here the
stored request of each evaluation, and each inserted event with that request and with
the rule as the evaluation had loaded it.
-/

namespace PulseWatch.Alerts

open Threshold (Reading Pending)

/- A stored request; its rows are numbered from `firstRow` on. -/
structure Ingest where
  serverId : ℕ
  startedAt : Instant
  body : Fleet.Submission
  firstRow : ℕ
  deriving DecidableEq, Repr

structure Firing where
  ingest : Ingest
  rule : AlertRule
  event : AlertEvent
  deriving DecidableEq, Repr

structure Ledger where
  db : Db
  ingests : ℕ → Option Ingest
  firings : List Firing

def Ledger.start (now : Instant) : Ledger := ⟨init now, fun _ => none, []⟩

def nextRow (s : Db) : Fleet.Submission → ℕ
  | .metric _ => s.fleet.nextMetric
  | .docker _ => s.fleet.nextDockerMetric

/- The request a store step commits. -/
def Db.stores (s : Db) (i : ℕ) : Option Ingest :=
  match s.fleet.requests i with
  | .verified server startedAt body =>
    if s.hasServer server.id && (Fleet.storeSubmission s.fleet server startedAt body).isSome then
      some ⟨server.id, startedAt, body, nextRow s body⟩
    else none
  | _ => none

/- What a commit step inserts. -/
def Ledger.fires (t : Ledger) (i : ℕ) : List Firing :=
  match t.ingests i, t.db.evaluations i with
  | some ingest, .decided reading evaluatedAt pending _ =>
    match t.db.insertEvents reading evaluatedAt t.db.nextEvent pending with
    | some new => (pending.zip new).map fun p => ⟨ingest, p.1.rule, p.2⟩
    | none => []
  | _, _ => []

def Ledger.note (t : Ledger) (s' : Db) : Label → Ledger
  | .store i => ⟨s', Function.update t.ingests i ((t.db.stores i).or (t.ingests i)), t.firings⟩
  | .commit i => ⟨s', t.ingests, t.fires i ++ t.firings⟩
  | _ => ⟨s', t.ingests, t.firings⟩

section
variable (cr : Crypto) (floatStr : PyFloat → String) (attrs : Attributes)

def Ledger.step (t : Ledger) (l : Label) : Option Ledger :=
  (Alerts.step cr floatStr attrs t.db l).map fun s' => t.note s' l

end

/- The event of a request: its rule fired on a value of one of the request's readings. -/
structure Caused (f : Firing) (reading : Reading) (value : PyFloat) : Prop where
  submitted : reading ∈ readings f.ingest.serverId f.ingest.body
  given : reading.data.get? f.rule.metricField = some value
  breach : Threshold.compare value f.rule.operator f.rule.thresholdValue = true
  metricType : f.rule.metricType = reading.metricType
  ruleId : f.event.ruleId = f.rule.id
  serverId : f.event.serverId = f.ingest.serverId
  container : PgText.varchar? 255 reading.container = some f.event.containerName

/- An evaluation works on the readings of its request. -/
def Belongs (floatStr : PyFloat → String) (ingest : Option Ingest) : Evaluation → Prop
  | .idle => True
  | .evaluating rest => ∃ g, ingest = some g ∧ ∀ x ∈ rest, x ∈ readings g.serverId g.body
  | .decided reading evaluatedAt pending rest => ∃ g, ingest = some g ∧
      (∀ x ∈ reading :: rest, x ∈ readings g.serverId g.body) ∧
      ∃ rules, (∀ r ∈ rules, r.metricType = reading.metricType) ∧
        pending = reading.evaluate floatStr evaluatedAt rules

structure Traced (floatStr : PyFloat → String) (t : Ledger) : Prop where
  formed : WellFormed t.db
  evaluations : ∀ i, Belongs floatStr (t.ingests i) (t.db.evaluations i)
  caused : ∀ f ∈ t.firings, ∃ reading value, Caused f reading value
  below : ∀ f ∈ t.firings, f.event.id < t.db.nextEvent
  kept : ∀ f ∈ t.firings, ∀ e ∈ t.db.events, e.id = f.event.id →
    e.ruleId = f.event.ruleId ∧ e.serverId = f.event.serverId ∧
      e.containerName = f.event.containerName
  known : ∀ e ∈ t.db.events, ∃ f ∈ t.firings, f.event.id = e.id

/-! ### What an evaluation decides and a commit inserts -/

theorem readings_server {serverId : ℕ} {body : Fleet.Submission} {x : Reading}
    (h : x ∈ readings serverId body) : x.serverId = serverId := by
  cases body with
  | metric data =>
    obtain rfl := List.mem_singleton.mp h
    rfl
  | docker data =>
    obtain ⟨item, -, rfl⟩ := List.mem_map.mp h
    rfl

theorem fires_value {data : Threshold.MetricData} {now : Instant} {r : AlertRule} {value : PyFloat}
    (h : Threshold.fires data now r = some value) :
    data.get? r.metricField = some value ∧
      Threshold.compare value r.operator r.thresholdValue = true := by
  unfold Threshold.fires at h
  split at h
  · cases h
  · next v hv =>
    split at h
    · cases h
    · next hc =>
      split at h
      · cases h
      · obtain rfl := Option.some.inj h
        exact ⟨hv, by simpa using hc⟩

theorem evaluate_value {floatStr : PyFloat → String} {reading : Reading} {now : Instant}
    {rules : List AlertRule} {p : Pending} (h : p ∈ reading.evaluate floatStr now rules) :
    p.rule ∈ rules ∧ ∃ value, reading.data.get? p.rule.metricField = some value ∧
      Threshold.compare value p.rule.operator p.rule.thresholdValue = true := by
  refine ⟨(Reading.mem_evaluate h).1, ?_⟩
  cases reading with
  | system s cpu memory disk =>
    obtain ⟨rule, -, hp⟩ := List.mem_filterMap.mp h
    obtain ⟨value, hvalue, rfl⟩ := Option.map_eq_some_iff.mp hp
    exact ⟨value, fires_value hvalue⟩
  | docker s name cpu usage limit =>
    obtain ⟨rule, -, hp⟩ := List.mem_filterMap.mp h
    obtain ⟨value, hvalue, rfl⟩ := Option.map_eq_some_iff.mp hp
    exact ⟨value, fires_value hvalue⟩

theorem flushEvent_kept {e e' : AlertEvent} (h : flushEvent e = some e') :
    e'.serverId = e.serverId ∧ PgText.varchar? 255 e.containerName = some e'.containerName := by
  unfold flushEvent at h
  obtain ⟨message, -, h⟩ := Option.bind_eq_some_iff.mp h
  obtain ⟨container, hc, h⟩ := Option.bind_eq_some_iff.mp h
  obtain rfl := Option.some.inj h
  exact ⟨rfl, hc⟩

/- The inserted events, each with the decision it comes from. -/
theorem insertEvents_zip {s : Db} {reading : Reading} {createdAt : Instant} {id : ℕ}
    {pending : List Pending} {new : List AlertEvent}
    (h : s.insertEvents reading createdAt id pending = some new) :
    (∀ p ∈ pending.zip new, p.2.ruleId = p.1.rule.id ∧ p.2.serverId = reading.serverId ∧
        PgText.varchar? 255 p.1.containerName = some p.2.containerName) ∧
      (pending.zip new).map Prod.snd = new := by
  induction pending generalizing id new with
  | nil =>
    obtain rfl := Option.some.inj h
    exact ⟨fun p hp => absurd hp List.not_mem_nil, rfl⟩
  | cons p ps ih =>
    obtain ⟨e, rest, rfl, he, hrest, -⟩ := insertEvents_cons h
    obtain ⟨hpairs, hsnd⟩ := ih hrest
    obtain ⟨hserver, hcontainer⟩ := flushEvent_kept he
    refine ⟨List.forall_mem_cons.mpr ⟨⟨(flushEvent_same he).2.1, hserver, hcontainer⟩, hpairs⟩, ?_⟩
    rw [List.zip_cons_cons, List.map_cons, hsnd]

/-! ### One step -/

theorem note_ledger (t : Ledger) (s' : Db) (l : Label) : (t.note s' l).db = s' := by
  cases l <;> rfl

theorem mem_note {t : Ledger} {s' : Db} {l : Label} {f : Firing} :
    f ∈ (t.note s' l).firings ↔ f ∈ t.firings ∨ ∃ i, l = .commit i ∧ f ∈ t.fires i := by
  cases l with
  | commit i => simp [Ledger.note, or_comm]
  | _ => simp [Ledger.note]

theorem mem_fires {t : Ledger} {i : ℕ} {f : Firing} (h : f ∈ t.fires i) :
    ∃ g reading evaluatedAt pending rest new p, t.ingests i = some g ∧
      t.db.evaluations i = .decided reading evaluatedAt pending rest ∧
      t.db.insertEvents reading evaluatedAt t.db.nextEvent pending = some new ∧
      (p, f.event) ∈ pending.zip new ∧ f.ingest = g ∧ f.rule = p.rule := by
  unfold Ledger.fires at h
  split at h
  · next g reading evaluatedAt pending rest hg hev =>
    split at h
    · next new hnew =>
      obtain ⟨pair, hpair, rfl⟩ := List.mem_map.mp h
      exact ⟨g, reading, evaluatedAt, pending, rest, new, pair.1, hg, hev, hnew, hpair, rfl, rfl⟩
    · cases h
  · cases h

/- A store step that commits writes the request and starts its evaluation. -/
theorem stores_inv {cr : Crypto} {floatStr : PyFloat → String} {attrs : Attributes} {s s' : Db}
    {i : ℕ} {g : Ingest} (hg : s.stores i = some g)
    (hs : step cr floatStr attrs s (.store i) = some s') :
    ∃ server startedAt body fleet,
      Fleet.storeSubmission s.fleet server startedAt body = some fleet ∧
      g = ⟨server.id, startedAt, body, nextRow s body⟩ ∧
      s' = { s.goto i (.evaluating (readings server.id body)) with
        fleet := fleet.answer i .created } := by
  unfold Db.stores at hg
  split at hg
  · next server startedAt body hreq =>
    split at hg
    · next hboth =>
      obtain ⟨hserver, hstore⟩ := Bool.and_eq_true_iff.mp hboth
      obtain ⟨fleet, hfleet⟩ := Option.isSome_iff_exists.mp hstore
      simp only [step, storeIngest, hreq, hserver, if_true, hfleet] at hs
      exact ⟨server, startedAt, body, fleet, hfleet, (Option.some.inj hg).symm,
        (Option.some.inj hs).symm⟩
    · cases hg
  · cases hg

theorem store_evaluates {cr : Crypto} {floatStr : PyFloat → String} {attrs : Attributes}
    {s s' : Db} {i : ℕ} {g : Ingest} (hg : s.stores i = some g)
    (hs : step cr floatStr attrs s (.store i) = some s') :
    s'.evaluations i = .evaluating (readings g.serverId g.body) := by
  obtain ⟨server, startedAt, body, fleet, -, rfl, rfl⟩ := stores_inv hg hs
  exact Function.update_self _ _ _

theorem commit_inserts {cr : Crypto} {floatStr : PyFloat → String} {attrs : Attributes}
    {s s' : Db} {i : ℕ} {reading : Reading} {evaluatedAt : Instant} {pending : List Pending}
    {rest : List Reading} {new : List AlertEvent}
    (hev : s.evaluations i = .decided reading evaluatedAt pending rest)
    (hnew : s.insertEvents reading evaluatedAt s.nextEvent pending = some new)
    (hs : step cr floatStr attrs s (.commit i) = some s') :
    s'.nextEvent = s.nextEvent + pending.length ∧ s'.events = new ++ s.events := by
  simp only [step, commitEvaluation, hev, hnew] at hs
  obtain rfl := Option.some.inj hs
  exact ⟨rfl, rfl⟩

namespace Traced
variable {cr : Crypto} {floatStr : PyFloat → String} {attrs : Attributes} {t : Ledger} {s' : Db}
  {l : Label}

theorem start (now : Instant) : Traced floatStr (Ledger.start now) where
  formed := WellFormed.init now
  evaluations := fun _ => trivial
  caused := by intro f hf; cases hf
  below := by intro f hf; cases hf
  kept := by intro f hf; cases hf
  known := by intro e he; cases he

theorem evaluations_step (h : Traced floatStr t) (hs : step cr floatStr attrs t.db l = some s')
    (i : ℕ) : Belongs floatStr ((t.note s' l).ingests i) (s'.evaluations i) := by
  have hold := h.evaluations i
  have hev := step_evaluates hs i
  generalize he : s'.evaluations i = ev at hev
  cases hev with
  | dropped => trivial
  | kept =>
    cases l with
    | store j =>
      by_cases hj : i = j
      · subst hj
        have hself : (t.note s' (.store i)).ingests i = (t.db.stores i).or (t.ingests i) :=
          Function.update_self _ _ _
        cases hg : t.db.stores i with
        | none =>
          rw [hself, hg]
          exact hold
        | some g =>
          rw [hself, hg, ← he, store_evaluates hg hs]
          exact ⟨g, rfl, fun x hx => hx⟩
      · have hother : (t.note s' (.store j)).ingests i = t.ingests i :=
          Function.update_of_ne hj _ _
        rw [hother]
        exact hold
    | _ => exact hold
  | stored server startedAt body hreq hserver hstore =>
    have hg : t.db.stores i = some ⟨server.id, startedAt, body, nextRow t.db body⟩ := by
      simp only [Db.stores, hreq, hserver, hstore, Bool.and_self, if_true]
    have hself : (t.note s' (.store i)).ingests i = (t.db.stores i).or (t.ingests i) :=
      Function.update_self _ _ _
    rw [hself, hg]
    exact ⟨_, rfl, fun x hx => hx⟩
  | passed reading rest hread =>
    rw [hread] at hold
    obtain ⟨g, hg, hall⟩ := hold
    exact ⟨g, hg, fun x hx => hall x (List.mem_cons_of_mem _ hx)⟩
  | decided reading rest hread =>
    rw [hread] at hold
    obtain ⟨g, hg, hall⟩ := hold
    refine ⟨g, hg, hall, _, fun r hr => ?_, rfl⟩
    exact (of_decide_eq_true (List.mem_filter.mp hr).2).2.1
  | committed reading evaluatedAt pending rest hread =>
    rw [hread] at hold
    obtain ⟨g, hg, hall, -⟩ := hold
    exact ⟨g, hg, fun x hx => hall x (List.mem_cons_of_mem _ hx)⟩

/- The firings of a commit. -/
theorem fires_caused (h : Traced floatStr t) {i : ℕ} {f : Firing} (hf : f ∈ t.fires i) :
    ∃ reading value, Caused f reading value := by
  obtain ⟨g, reading, evaluatedAt, pending, rest, new, p, hg, hev, hnew, hpair, rfl, hrule⟩ :=
    mem_fires hf
  have hold := h.evaluations i
  rw [hev] at hold
  obtain ⟨g', hg', hall, rules, hrules, rfl⟩ := hold
  obtain rfl := Option.some.inj (hg.symm.trans hg')
  have hp := (List.of_mem_zip hpair).1
  obtain ⟨hmem, value, hgiven, hbreach⟩ := evaluate_value hp
  obtain ⟨hid, hserver, hcontainer⟩ := (insertEvents_zip hnew).1 _ hpair
  have hreading := hall reading List.mem_cons_self
  rw [evaluate_container hp] at hcontainer
  rw [← hrule] at hmem hgiven hbreach hid
  exact ⟨reading, value, hreading, hgiven, hbreach, hrules _ hmem, hid,
    hserver.trans (readings_server hreading), hcontainer⟩

theorem fires_ids {i : ℕ} {f : Firing} (hf : f ∈ t.fires i) :
    ∃ reading evaluatedAt pending rest new,
      t.db.evaluations i = .decided reading evaluatedAt pending rest ∧
      t.db.insertEvents reading evaluatedAt t.db.nextEvent pending = some new ∧ f.event ∈ new ∧
      t.db.nextEvent ≤ f.event.id ∧ f.event.id < t.db.nextEvent + pending.length := by
  obtain ⟨g, reading, evaluatedAt, pending, rest, new, p, -, hev, hnew, hpair, -, -⟩ :=
    mem_fires hf
  have hin := (List.of_mem_zip hpair).2
  exact ⟨reading, evaluatedAt, pending, rest, new, hev, hnew, hin, insertEvents_id hnew hin⟩

theorem step (h : Traced floatStr t) {t' : Ledger} (hs : t.step cr floatStr attrs l = some t') :
    Traced floatStr t' := by
  obtain ⟨s', hs', rfl⟩ := Option.map_eq_some_iff.mp hs
  have hm := step_move hs'
  have hnext := move_nextEvent hm
  have hevents := move_events h.formed.toKeyed hm
  refine ⟨?_, ?_, ?_, ?_, ?_, ?_⟩
  · rw [note_ledger]
    exact h.formed.move hm
  · rw [note_ledger]
    exact h.evaluations_step hs'
  · intro f hf
    rcases mem_note.mp hf with hold | ⟨i, rfl, hfires⟩
    · exact h.caused f hold
    · exact h.fires_caused hfires
  · rw [note_ledger]
    intro f hf
    rcases mem_note.mp hf with hold | ⟨i, rfl, hfires⟩
    · exact (h.below f hold).trans_le hnext
    · obtain ⟨reading, evaluatedAt, pending, rest, new, hev, hnew, -, -, hhigh⟩ := fires_ids hfires
      rw [(commit_inserts hev hnew hs').1]
      exact hhigh
  · rw [note_ledger]
    intro f hf e he hid
    rcases mem_note.mp hf with hold | ⟨i, rfl, hfires⟩
    · have hlt := h.below f hold
      rcases hevents e he with ⟨q, hq, hsame⟩ |
        ⟨i, reading, evaluatedAt, pending, rest, new, rfl, hev, hnew, -, hin⟩
      · rcases hsame with rfl | ⟨t, rfl⟩
        · exact h.kept f hold e hq hid
        · exact h.kept f hold q hq hid
      · have hlow := insertEvents_id hnew hin
        omega
    · obtain ⟨reading, evaluatedAt, pending, rest, new, hev, hnew, hin, hlow, -⟩ := fires_ids hfires
      have hnext' := (commit_inserts hev hnew hs').2
      rw [hnext'] at he
      rcases List.mem_append.mp he with hmem | hmem
      · have hnodup : (new.map AlertEvent.id).Nodup := by
          rw [(insertEvents_new hnew).1]
          exact List.nodup_range'
        rw [List.inj_on_of_nodup_map hnodup hmem hin hid]
        exact ⟨rfl, rfl, rfl⟩
      · have hlt := h.formed.eventBelow e hmem
        omega
  · rw [note_ledger]
    intro e he
    rcases hevents e he with ⟨q, hq, hsame⟩ |
      ⟨i, reading, evaluatedAt, pending, rest, new, rfl, hev, hnew, -, hin⟩
    · obtain ⟨f, hf, hid⟩ := h.known q hq
      refine ⟨f, mem_note.mpr (Or.inl hf), ?_⟩
      rcases hsame with rfl | ⟨t, rfl⟩
      · exact hid
      · exact hid
    · have hold := h.evaluations i
      rw [hev] at hold
      obtain ⟨g, hg, -⟩ := hold
      rw [← (insertEvents_zip hnew).2] at hin
      obtain ⟨p, hp, rfl⟩ := List.mem_map.mp hin
      refine ⟨⟨g, p.1.rule, p.2⟩, mem_note.mpr (Or.inr ⟨i, rfl, ?_⟩), rfl⟩
      simp only [Ledger.fires, hg, hev, hnew]
      exact List.mem_map.mpr ⟨p, hp, rfl⟩

end Traced

theorem reachable_traced {cr : Crypto} {floatStr : PyFloat → String} {attrs : Attributes}
    {now : Instant} {t : Ledger}
    (h : Runs.Reachable (Ledger.step cr floatStr attrs) (Ledger.start now) t) :
    Traced floatStr t :=
  Runs.reachable_invariant (Traced floatStr) (fun _ _ _ hi hs => hi.step hs) (Traced.start now) h

end PulseWatch.Alerts
