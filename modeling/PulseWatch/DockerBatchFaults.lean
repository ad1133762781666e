import PulseWatch.CooldownPolicy
import PulseWatch.DockerBatch

/-!
# A container whose evaluation raises (`app/api/docker_metrics.py`)

The answer and the stored rows of a batch do not depend on its evaluations. The events
of the containers behind the first one that raises do: their evaluations are not made.
-/

namespace PulseWatch.DockerBatch
open Alerts Threshold Evaluations

/-- The containers whose evaluation does not raise. -/
def remaining (visits : List Visit) : List Visit := visits.filter fun v => v.fault.isNone

/-- The same batch when no evaluation raises. -/
def undisturbed (visits : List Visit) : List Visit := visits.map fun v => { v with fault := none }

/- An event without the id it got from the sequence. -/
def unnumbered (e : AlertEvent) : AlertEvent := { e with id := 0 }

/-- What was created for these containers. -/
def eventsOf (visits : List Visit) (created : List (List AlertEvent)) : List (List AlertEvent) :=
  ((visits.zip created).filter fun p => p.1.fault.isNone).map fun p => p.2.map unnumbered

section
variable (floatStr : PyFloat → String)

/- The answer and the rows are those of the batch without exceptions, and the remaining
containers get the events they get in a batch of their own. -/
structure Isolated (server : Server) (startedAt : Instant) (visits : List Visit)
    (fleet : Fleet.Sys) (t : Tables) : Prop where
  reply : (submitDockerMetrics floatStr server startedAt visits fleet t).reply =
    (submitDockerMetrics floatStr server startedAt (undisturbed visits) fleet t).reply
  rows : (submitDockerMetrics floatStr server startedAt visits fleet t).fleet =
    (submitDockerMetrics floatStr server startedAt (undisturbed visits) fleet t).fleet
  events : eventsOf visits (submitDockerMetrics floatStr server startedAt visits fleet t).created =
    (submitDockerMetrics floatStr server startedAt (remaining visits) fleet t).created.map
      (·.map unnumbered)

/- No evaluation of a batch raises. -/
def calm (serverId : ℕ) : Tables → List Visit → Bool
  | _, [] => true
  | t, v :: vs =>
    !(evaluateItem floatStr serverId t v).raised &&
      calm serverId (evaluateItem floatStr serverId t v).tables vs

end

/- A rule after some containers, from its own row. -/
def advances (serverId : ℕ) (r : AlertRule) (visits : List Visit) : AlertRule :=
  visits.foldl (fun r v => advance (sampleOf serverId v.item) v.now r) r

/- A rule would fire on a container. -/
def Due (serverId : ℕ) (v : Visit) (r : AlertRule) : Prop :=
  wants (sampleOf serverId v.item) r = true ∧ cooldownOver v.now r = true

/- Behind the first container that raises no rule has anything to fire on. -/
def NothingBehind (serverId : ℕ) (rules : List AlertRule) (visits : List Visit) : Prop :=
  ∀ before failing behind, visits = before ++ failing :: behind →
    (∀ v ∈ before, v.fault = none) → failing.fault ≠ none →
      ∀ v ∈ behind, v.fault = none → ∀ r ∈ rules, ¬ Due serverId v (advances serverId r before)

section
variable {floatStr : PyFloat → String} {serverId : ℕ} {t : Tables}

theorem evaluateItem_calm {v : Visit} (hv : v.fault = none)
    (h : (evaluateItem floatStr serverId t v).raised = false) :
    ∃ new t', t.evaluate floatStr (sampleOf serverId v.item) v.createdAt v.now = some (new, t') ∧
      evaluateItem floatStr serverId t v = ⟨false, new, t'⟩ := by
  unfold evaluateItem at h ⊢
  rw [hv] at h ⊢
  cases he : t.evaluate floatStr (sampleOf serverId v.item) v.createdAt v.now with
  | none =>
    rw [he] at h
    cases h
  | some result => exact ⟨result.1, result.2, rfl, rfl⟩

theorem evaluateItem_fault {v : Visit} (hv : v.fault ≠ none) :
    (evaluateItem floatStr serverId t v).raised = true := by
  unfold evaluateItem
  split
  · rfl
  · rfl
  · exact Option.isSome_iff_ne_none.mpr hv

/- A batch in which nothing raises creates nothing exactly when no rule is due. -/
theorem created_nil {visits : List Visit} (hids : (t.rules.map AlertRule.id).Nodup)
    (hf : ∀ v ∈ visits, v.fault = none) (h : calm floatStr serverId t visits = true) :
    (∀ events ∈ (evaluateItems floatStr serverId t visits).1, events = []) ↔
      ∀ v ∈ visits, ∀ r ∈ t.rules, ¬ Due serverId v r := by
  induction visits generalizing t with
  | nil => simp [evaluateItems]
  | cons v vs ih =>
    rw [calm, Bool.and_eq_true, Bool.not_eq_true'] at h
    obtain ⟨new, t', heval, hitem⟩ := evaluateItem_calm (hf v List.mem_cons_self) h.1
    obtain ⟨hrules, hnew⟩ := evaluate_some hids heval
    have hcalm := h.2
    rw [hitem] at hcalm
    have hrest := ih (hrules ▸ advance_ids hids)
      (fun w hw => hf w (List.mem_cons_of_mem v hw)) hcalm
    rw [evaluateItems, hitem]
    simp only [Bool.false_eq_true, if_false, List.forall_mem_cons]
    rw [hrest, hnew, pending_nil]
    refine and_congr_right fun hquiet => ?_
    have hsame : t'.rules = t.rules := by
      rw [hrules]
      refine (List.map_congr_left fun r hr => ?_).trans (List.map_id t.rules)
      exact if_neg (hquiet r hr)
    rw [hsame]

/-! ### The batch and what remains of it -/

theorem remaining_fault {visits : List Visit} {v : Visit} (h : v ∈ remaining visits) :
    v ∈ visits ∧ v.fault = none := by
  obtain ⟨hmem, hnone⟩ := List.mem_filter.mp h
  exact ⟨hmem, Option.isNone_iff_eq_none.mp hnone⟩

theorem remaining_cons_none {v : Visit} (hv : v.fault = none) (visits : List Visit) :
    remaining (v :: visits) = v :: remaining visits :=
  List.filter_cons_of_pos (by simp [hv])

theorem remaining_cons_some {v : Visit} (hv : v.fault ≠ none) (visits : List Visit) :
    remaining (v :: visits) = remaining visits :=
  List.filter_cons_of_neg (by simpa using hv)

theorem eventsOf_cons_none {v : Visit} (hv : v.fault = none) (visits : List Visit)
    (events : List AlertEvent) (created : List (List AlertEvent)) :
    eventsOf (v :: visits) (events :: created) =
      events.map unnumbered :: eventsOf visits created := by
  simp [eventsOf, hv]

theorem eventsOf_cons_some {v : Visit} (hv : v.fault ≠ none) (visits : List Visit)
    (events : List AlertEvent) (created : List (List AlertEvent)) :
    eventsOf (v :: visits) (events :: created) = eventsOf visits created := by
  simp [eventsOf, hv]

/- Containers that are not evaluated get nothing. -/
theorem eventsOf_skipped (visits : List Visit) :
    eventsOf visits (visits.map fun _ => []) = (remaining visits).map fun _ => [] := by
  induction visits with
  | nil => rfl
  | cons v vs ih =>
    by_cases hv : v.fault = none
    · rw [List.map_cons, eventsOf_cons_none hv, remaining_cons_none hv, ih]
      rfl
    · rw [List.map_cons, eventsOf_cons_some hv, remaining_cons_some hv, ih]

theorem nothingBehind_cons_none {rules : List AlertRule} {v : Visit} (hv : v.fault = none)
    (visits : List Visit) : NothingBehind serverId rules (v :: visits) ↔
      NothingBehind serverId (rules.map (advance (sampleOf serverId v.item) v.now)) visits := by
  constructor
  · intro h before failing behind heq hbefore hfail w hw hnone r hr
    obtain ⟨q, hq, rfl⟩ := List.mem_map.mp hr
    exact h (v :: before) failing behind (by rw [heq]; rfl)
      (List.forall_mem_cons.mpr ⟨hv, hbefore⟩) hfail w hw hnone q hq
  · intro h before failing behind heq hbefore hfail w hw hnone r hr
    cases before with
    | nil =>
      obtain ⟨rfl, rfl⟩ := List.cons.inj heq
      exact absurd hv hfail
    | cons u us =>
      obtain ⟨rfl, rfl⟩ := List.cons.inj heq
      exact h us failing behind rfl (List.forall_mem_cons.mp hbefore).2 hfail w hw hnone _
        (List.mem_map_of_mem hr)

theorem nothingBehind_cons_some {rules : List AlertRule} {v : Visit} (hv : v.fault ≠ none)
    (visits : List Visit) : NothingBehind serverId rules (v :: visits) ↔
      ∀ w ∈ remaining visits, ∀ r ∈ rules, ¬ Due serverId w r := by
  constructor
  · intro h w hw r hr
    obtain ⟨hmem, hnone⟩ := remaining_fault hw
    exact h [] v visits rfl (fun _ hin => absurd hin List.not_mem_nil) hv w hmem hnone r hr
  · intro h before failing behind heq hbefore hfail w hw hnone r hr
    cases before with
    | nil =>
      obtain ⟨rfl, rfl⟩ := List.cons.inj heq
      exact h w (List.mem_filter.mpr ⟨hw, by simp [hnone]⟩) r hr
    | cons u us =>
      obtain ⟨rfl, rfl⟩ := List.cons.inj heq
      exact absurd (hbefore v List.mem_cons_self) hv

theorem created_length (floatStr : PyFloat → String) (serverId : ℕ) (t : Tables)
    (visits : List Visit) :
    (evaluateItems floatStr serverId t visits).1.length = visits.length := by
  induction visits generalizing t with
  | nil => rfl
  | cons v vs ih =>
    rw [evaluateItems]
    simp only
    split
    · simp
    · simp [ih]

/- The events of the remaining containers, with and without the others. -/
theorem events_iff {visits : List Visit} (hids : (t.rules.map AlertRule.id).Nodup)
    (h : calm floatStr serverId t (remaining visits) = true) :
    eventsOf visits (evaluateItems floatStr serverId t visits).1 =
        (evaluateItems floatStr serverId t (remaining visits)).1.map (·.map unnumbered) ↔
      NothingBehind serverId t.rules visits := by
  induction visits generalizing t with
  | nil => exact iff_of_true rfl fun before failing behind heq => by simp at heq
  | cons v vs ih =>
    by_cases hv : v.fault = none
    · rw [remaining_cons_none hv, calm, Bool.and_eq_true, Bool.not_eq_true'] at h
      obtain ⟨new, t', heval, hitem⟩ := evaluateItem_calm hv h.1
      have hrules := (evaluate_some hids heval).1
      have hcalm := h.2
      rw [hitem] at hcalm
      have hrest := ih (hrules ▸ advance_ids hids) hcalm
      rw [nothingBehind_cons_none hv, ← hrules, ← hrest, remaining_cons_none hv, evaluateItems,
        evaluateItems, hitem]
      simp only [Bool.false_eq_true, if_false]
      rw [eventsOf_cons_none hv, List.map_cons, List.cons.injEq]
      exact and_iff_right rfl
    · -- the loop ends here, and the others are compared with empty lists
      rw [remaining_cons_some hv] at h ⊢
      have hnil := created_nil hids (fun w hw => (remaining_fault hw).2) h
      rw [nothingBehind_cons_some hv, ← hnil, evaluateItems]
      simp only [evaluateItem_fault hv, if_true]
      rw [eventsOf_cons_some hv, eventsOf_skipped]
      rw [List.map_const', eq_comm, List.eq_replicate_iff, List.length_map,
        created_length floatStr serverId t (remaining vs), and_iff_right rfl, List.forall_mem_map]
      exact forall₂_congr fun events _ => List.map_eq_nil_iff

end

theorem undisturbed_items (visits : List Visit) :
    (undisturbed visits).map Visit.item = visits.map Visit.item := by
  rw [undisturbed, List.map_map]
  rfl

/- The failing containers leave the answer and the rows alone, and the others' events
exactly when no rule is due on a container behind the first of them. -/
theorem isolated_iff {floatStr : PyFloat → String} {server : Server} {startedAt : Instant}
    {visits : List Visit} {fleet : Fleet.Sys} {t : Tables} (hacc : Accepted server visits)
    (hids : (t.rules.map AlertRule.id).Nodup)
    (hcalm : calm floatStr server.id t (remaining visits) = true) :
    Isolated floatStr server startedAt visits fleet t ↔
      NothingBehind server.id t.rules visits := by
  have hremaining : Accepted server (remaining visits) :=
    hacc.sub fun v hv => ⟨v, (remaining_fault hv).1, rfl⟩
  have hquiet : Accepted server (undisturbed visits) := by
    refine hacc.sub fun v hv => ?_
    obtain ⟨w, hw, rfl⟩ := List.mem_map.mp hv
    exact ⟨w, hw, rfl⟩
  have hlen : (undisturbed visits).length = visits.length := List.length_map _
  rw [← events_iff hids hcalm]
  constructor
  · intro h
    have hevents := h.events
    rwa [hacc.created, hremaining.created] at hevents
  · intro h
    refine ⟨?_, ?_, ?_⟩
    · rw [hacc.submitted, hquiet.submitted]
      simp only [hlen]
    · rw [hacc.submitted, hquiet.submitted]
      simp only [stored, undisturbed_items, hlen]
    · rw [hacc.created, hremaining.created]
      exact h

/- A batch whose first evaluation raises, and the same containers the other way round. -/
def failingFirst : List Visit := [⟨busy "web", 0, 0, some .beforeCommit⟩, ⟨busy "db", 0, 0, none⟩]

def failingLast : List Visit := [⟨busy "db", 0, 0, none⟩, ⟨busy "web", 0, 0, some .beforeCommit⟩]

def unfired : Tables := ⟨[dockerRule], [], 1⟩

theorem accepted_pair : Accepted host failingFirst ∧ Accepted host failingLast :=
  ⟨⟨rfl, by decide⟩, ⟨rfl, by decide⟩⟩

/- The second container breaches a rule that has not fired yet, and gets no event. -/
theorem batch_events_lost :
    Accepted host failingFirst ∧ calm tabledFloatStr 1 unfired (remaining failingFirst) = true ∧
      ¬ Isolated tabledFloatStr host 0 failingFirst (Fleet.init 0) unfired := by
  refine ⟨accepted_pair.1, by decide, fun h => ?_⟩
  have hevents := h.events
  revert hevents
  decide

theorem isolated_iff_last : Isolated tabledFloatStr host 0 failingLast (Fleet.init 0) unfired := by
  refine (isolated_iff accepted_pair.2 (by decide) (by decide)).mpr ?_
  rw [failingLast, nothingBehind_cons_none rfl, nothingBehind_cons_some (by decide)]
  intro v hv
  cases hv

end PulseWatch.DockerBatch
