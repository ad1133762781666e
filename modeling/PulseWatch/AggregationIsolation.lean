import Mathlib.Data.List.Dedup
import Mathlib.Data.List.TakeWhile
import PulseWatch.Aggregation

/-!
# One server's failure and the other servers' aggregates

`aggregate_all_servers` catches the exception of a server but never rolls the
session back. A database error therefore stops the whole rest of the pass: the
servers behind it keep what they had.
-/

namespace PulseWatch.Aggregation

open PgSession PgText

section
variable {α : Type} (e : Engine α) (raw : Raw α) (p : Period)

/-! ### The first fault of a server, read off its inputs -/

def systemFault (serverId : ℕ) : Option Fault :=
  e.faults (.systemSelect serverId) <|>
    if systemSamples raw p serverId = [] then none
    else e.faults (.systemUpsert serverId) <|> e.faults (.systemCommit serverId) <|>
      e.faults (.systemReselect serverId)

/- A name PostgreSQL refuses fails the INSERT; one it cuts is not found again. -/
def containerFault (serverId : ℕ) (containerName : String) : Option Fault :=
  e.faults (.dockerSelect serverId containerName) <|>
    match varchar 255 containerName with
    | none => e.faults (.dockerUpsert serverId containerName) <|> some .statement
    | some stored => e.faults (.dockerUpsert serverId containerName) <|>
        e.faults (.dockerReselect serverId containerName) <|>
        if stored = containerName then none else some .client

def containersFault (serverId : ℕ) : List String → Option Fault
  | [] => none
  | containerName :: names =>
    containerFault e serverId containerName <|> containersFault serverId names

def dockerFault (serverId : ℕ) : Option Fault :=
  e.faults (.containers serverId) <|>
    if containerNames e raw p serverId = [] then none
    else containersFault e serverId (containerNames e raw p serverId) <|>
      e.faults (.dockerCommit serverId)

def serverFault (serverId : ℕ) : Option Fault :=
  systemFault e raw p serverId <|> dockerFault e raw p serverId

/-! ### The rows of a server without a fault -/

def metricRows (serverId : ℕ) : List (MetricAggregate α) :=
  if systemSamples raw p serverId = [] then []
  else [metricRow p serverId (systemStats e (systemSamples raw p serverId))]

def storedRow (serverId : ℕ) (containerName : String) : Option (DockerAggregate α) :=
  (VarChar.store 255 containerName).map fun stored =>
    dockerRow p serverId stored (dockerStats e (containerSamples raw p serverId containerName))

def dockerRows (serverId : ℕ) : List (DockerAggregate α) :=
  (containerNames e raw p serverId).filterMap (storedRow e raw p serverId)

def Tables.storeMetrics (t : Tables α) (rows : List (MetricAggregate α)) : Tables α :=
  { t with metricAggregates := KeyedTable.upsertAll metricKey metricMerge rows t.metricAggregates }

def Tables.storeDockers (t : Tables α) (rows : List (DockerAggregate α)) : Tables α :=
  { t with dockerAggregates := KeyedTable.upsertAll dockerKey dockerMerge rows t.dockerAggregates }

def own (serverId : ℕ) (t : Tables α) : Tables α :=
  (t.storeMetrics (metricRows e raw p serverId)).storeDockers (dockerRows e raw p serverId)

/- Everything the server's samples of the period give is stored already; in
particular when it has no samples in the period. -/
def UpToDate (serverId : ℕ) (t : Tables α) : Prop :=
  (∀ row ∈ metricRows e raw p serverId,
    KeyedTable.Held metricKey metricMerge row t.metricAggregates) ∧
  ∀ row ∈ dockerRows e raw p serverId,
    KeyedTable.Held dockerKey dockerMerge row t.dockerAggregates

/-! ### What the routines do on a working session -/

variable {e raw p} {serverId : ℕ}

theorem reselect_found {P : Tables α → Prop} {A : Type} {query : Tables α → Option A}
    (fault : Option Fault) (h : ∀ t, P t → ∃ row, query t = some row) :
    Does P (select fault query >>= fun found => scalarOne found >>= fun agg => pure (some agg))
      fault id := by
  have hrest : ∀ found : Option A, (∃ row, found = some row) →
      Does P (scalarOne found >>= fun agg => pure (some agg) : Act (Tables α) (Option A))
        none id := by
    intro found hfound
    obtain ⟨row, rfl⟩ := hfound
    exact Does.pure (some row)
  have hd : Does P (select fault query >>= fun found => scalarOne found >>= fun agg =>
      pure (some agg)) (fault <|> none) id :=
    Does.select_bind (R := fun found => ∃ row, found = some row) h hrest
  rw [orElse_none] at hd
  exact hd

theorem reselect_missing {P : Tables α → Prop} {A : Type} {query : Tables α → Option A}
    (fault : Option Fault) (effect : Session (Tables α) → Session (Tables α))
    (h : ∀ t, P t → query t = none) :
    Does P (select fault query >>= fun found => scalarOne found >>= fun agg => pure (some agg))
      (fault <|> some .client) effect := by
  refine Does.select_bind (R := fun found => found = none) h ?_
  rintro _ rfl
  exact Does.bind_fault effect (Does.raise effect)

theorem metricMerge_key (old new : MetricAggregate α) :
    metricKey (metricMerge old new) = metricKey old := rfl

theorem dockerMerge_key (old new : DockerAggregate α) :
    dockerKey (dockerMerge old new) = dockerKey old := rfl

theorem metricMerge_self (row : MetricAggregate α) : metricMerge row row = row := rfl

theorem dockerMerge_self (row : DockerAggregate α) : dockerMerge row row = row := rfl

theorem metricMerge_absorb (old new : MetricAggregate α) :
    metricMerge (metricMerge old new) new = metricMerge old new := rfl

theorem dockerMerge_absorb (old new : DockerAggregate α) :
    dockerMerge (dockerMerge old new) new = dockerMerge old new := rfl

theorem findMetric_storeMetric (t : Tables α) (stats : MetricStats α) :
    ∃ row, (t.storeMetric (metricRow p serverId stats)).findMetric p serverId = some row := by
  obtain ⟨row, hrow, -⟩ := KeyedTable.get?_upsert_self metricMerge_key
    (metricRow p serverId stats) t.metricAggregates
  exact ⟨row, hrow⟩

theorem findDocker_storeDocker (t : Tables α) (stored : VarChar 255) (stats : DockerStats α) :
    ∃ row, (t.storeDocker (dockerRow p serverId stored stats)).findDocker p serverId stored.val =
      some row := by
  obtain ⟨row, hrow, -⟩ := KeyedTable.get?_upsert_self dockerMerge_key
    (dockerRow p serverId stored stats) t.dockerAggregates
  exact ⟨row, hrow⟩

/- The column never holds a name that was cut to fit it. -/
theorem findDocker_cut {containerName stored : String} (h : varchar 255 containerName = some stored)
    (hne : stored ≠ containerName) (t : Tables α) :
    t.findDocker p serverId containerName = none := by
  unfold Tables.findDocker KeyedTable.get?
  rw [List.find?_eq_none]
  intro row _ hkey
  have hname : row.containerName.val = containerName := by
    have hk := of_decide_eq_true hkey
    simp only [dockerKey, Prod.mk.injEq] at hk
    exact hk.2.1
  exact hne (varchar_fits h (hname ▸ row.containerName.property))

def systemEffect (e : Engine α) (raw : Raw α) (p : Period) (serverId : ℕ)
    (s : Session (Tables α)) : Session (Tables α) :=
  if systemSamples raw p serverId = [] then s
  else s.publish fun t => t.storeMetrics (metricRows e raw p serverId)

def dockerEffect (e : Engine α) (raw : Raw α) (p : Period) (serverId : ℕ)
    (s : Session (Tables α)) : Session (Tables α) :=
  if containerNames e raw p serverId = [] then s
  else s.publish fun t => t.storeDockers (dockerRows e raw p serverId)

theorem system_does : Does (fun _ => True) (aggregateSystemMetrics e raw p serverId)
    (systemFault e raw p serverId) (systemEffect e raw p serverId) := by
  unfold aggregateSystemMetrics systemFault
  refine Does.select_bind (R := fun row => row = systemStats e (systemSamples raw p serverId))
    (fun _ _ => rfl) ?_
  rintro _ rfl
  by_cases hempty : systemSamples raw p serverId = []
  · rw [if_pos hempty, if_pos (by simp [systemStats, hempty])]
    have he : systemEffect e raw p serverId = id := by
      funext s
      exact if_pos hempty
    rw [he]
    exact Does.pure none
  · rw [if_neg hempty, if_neg (by simpa [systemStats] using hempty)]
    have he : systemEffect e raw p serverId =
        (id ∘ fun s => { s with committed := s.working }) ∘ fun s => { s with
          working := s.working.storeMetric
            (metricRow p serverId (systemStats e (systemSamples raw p serverId))) } := by
      funext s
      simp only [systemEffect, if_neg hempty, metricRows]
      rfl
    rw [he]
    refine Does.bind (Q := fun t => ∃ row, t.findMetric p serverId = some row)
      (Does.write _ _) (fun s _ => findMetric_storeMetric _ _) fun _ => ?_
    exact Does.bind (Does.commit _) (fun s h => h) fun _ => reselect_found _ fun t h => h

/- The samples behind a name the container query returned. -/
theorem containerSamples_ne_nil {containerName : String}
    (h : containerName ∈ containerNames e raw p serverId) :
    containerSamples raw p serverId containerName ≠ [] := by
  obtain ⟨m, hm, rfl⟩ := List.mem_map.mp ((e.mem_distinct _ _).mp h)
  exact List.ne_nil_of_mem (List.mem_filter.mpr ⟨hm, by simp⟩)

def containerEffect (e : Engine α) (raw : Raw α) (p : Period) (serverId : ℕ)
    (names : List String) (s : Session (Tables α)) : Session (Tables α) :=
  { s with working := s.working.storeDockers (names.filterMap (storedRow e raw p serverId)) }

theorem container_does {containerName : String}
    (hname : containerName ∈ containerNames e raw p serverId) :
    Does (fun _ => True) (aggregateContainer e raw p serverId containerName)
      (containerFault e serverId containerName)
      (containerEffect e raw p serverId [containerName]) := by
  unfold aggregateContainer containerFault
  refine Does.select_bind
    (R := fun row => row = dockerStats e (containerSamples raw p serverId containerName))
    (fun _ _ => rfl) ?_
  rintro _ rfl
  rw [if_neg (by simpa [dockerStats] using containerSamples_ne_nil hname)]
  cases hv : varchar 255 containerName with
  | none =>
    obtain ⟨f, hf⟩ : ∃ f, (e.faults (.dockerUpsert serverId containerName) <|> some .statement) =
        some f := by cases e.faults (.dockerUpsert serverId containerName) <;> exact ⟨_, rfl⟩
    simp only [upsertContainer, VarChar.store_none hv, hf]
    exact Does.bind_fault _ (Does.write (some f) id)
  | some cut =>
    obtain ⟨stored, hstore, rfl⟩ := VarChar.store_some hv
    have he : containerEffect e raw p serverId [containerName] =
        id ∘ fun s => { s with working := s.working.storeDocker (dockerRow p serverId stored
          (dockerStats e (containerSamples raw p serverId containerName))) } := by
      funext s
      simp only [containerEffect, List.filterMap_cons, storedRow, hstore]
      rfl
    simp only [upsertContainer, hstore]
    rw [he]
    by_cases heq : stored.val = containerName
    · rw [if_pos heq]
      refine Does.bind (Q := fun t => ∃ row, t.findDocker p serverId containerName = some row)
        (Does.write _ _) (fun s _ => heq ▸ findDocker_storeDocker _ _ _) fun _ => ?_
      rw [orElse_none]
      exact reselect_found _ fun t h => h
    · rw [if_neg heq]
      exact Does.bind (Q := fun t => t.findDocker p serverId containerName = none)
        (Does.write _ _) (fun s _ => findDocker_cut hv heq _)
        fun _ => reselect_missing _ _ fun t h => h

theorem containers_does {names : List String}
    (hnames : ∀ name ∈ names, name ∈ containerNames e raw p serverId) :
    Does (fun _ => True) (aggregateContainers e raw p serverId names)
      (containersFault e serverId names) (containerEffect e raw p serverId names) := by
  induction names with
  | nil => exact Does.pure []
  | cons name names ih =>
    have he : containerEffect e raw p serverId (name :: names) =
        containerEffect e raw p serverId names ∘ containerEffect e raw p serverId [name] := by
      funext s
      simp only [containerEffect, Function.comp, List.filterMap_cons, List.filterMap_nil]
      cases storedRow e raw p serverId name <;> rfl
    rw [he]
    refine Does.bind (Q := fun _ => True) (container_does (hnames name List.mem_cons_self))
      (fun _ _ => trivial) fun _ => ?_
    exact (ih fun name' h => hnames name' (List.mem_cons_of_mem _ h)).returns _

theorem docker_does : Does (fun _ => True) (aggregateDockerMetrics e raw p serverId)
    (dockerFault e raw p serverId) (dockerEffect e raw p serverId) := by
  unfold aggregateDockerMetrics dockerFault
  refine Does.select_bind (R := fun names => names = containerNames e raw p serverId)
    (fun _ _ => rfl) ?_
  rintro _ rfl
  by_cases hempty : containerNames e raw p serverId = []
  · rw [if_pos hempty, if_pos hempty]
    have he : dockerEffect e raw p serverId = id := by
      funext s
      exact if_pos hempty
    rw [he]
    exact Does.pure []
  · rw [if_neg hempty, if_neg hempty]
    have he : dockerEffect e raw p serverId =
        (fun s => { s with committed := s.working }) ∘
          containerEffect e raw p serverId (containerNames e raw p serverId) := by
      funext s
      exact if_neg hempty
    rw [he]
    exact Does.bind (Q := fun _ => True) (containers_does fun _ h => h) (fun _ _ => trivial)
      fun _ => (Does.commit _).returns _

theorem server_does : Does (fun _ => True) (aggregateServer e raw p serverId)
    (serverFault e raw p serverId)
    (dockerEffect e raw p serverId ∘ systemEffect e raw p serverId) := by
  exact Does.bind (Q := fun _ => True) system_does (fun _ _ => trivial) fun _ =>
    docker_does.returns _

/-! ### The rows of the other servers -/

theorem sameServer_metric (a b : MetricAggregate α) (h : metricKey a = metricKey b) :
    decide (a.serverId = serverId) = decide (b.serverId = serverId) := by
  simp only [metricKey, Prod.mk.injEq] at h
  rw [h.1]

theorem sameServer_docker (a b : DockerAggregate α) (h : dockerKey a = dockerKey b) :
    decide (a.serverId = serverId) = decide (b.serverId = serverId) := by
  simp only [dockerKey, Prod.mk.injEq] at h
  rw [h.1]

theorem ofServer_storeMetrics {rows : List (MetricAggregate α)}
    (h : ∀ row ∈ rows, row.serverId = serverId) (t : Tables α) :
    (t.storeMetrics rows).ofServer serverId = (t.ofServer serverId).storeMetrics rows := by
  have hf := KeyedTable.filter_upsertAll metricKey metricMerge
    (p := fun r => decide (r.serverId = serverId)) sameServer_metric metricMerge_key
    (fun row hrow => decide_eq_true (h row hrow)) t.metricAggregates
  simp only [Tables.ofServer, Tables.storeMetrics, hf]

theorem ofServer_storeDockers {rows : List (DockerAggregate α)}
    (h : ∀ row ∈ rows, row.serverId = serverId) (t : Tables α) :
    (t.storeDockers rows).ofServer serverId = (t.ofServer serverId).storeDockers rows := by
  have hf := KeyedTable.filter_upsertAll dockerKey dockerMerge
    (p := fun r => decide (r.serverId = serverId)) sameServer_docker dockerMerge_key
    (fun row hrow => decide_eq_true (h row hrow)) t.dockerAggregates
  simp only [Tables.ofServer, Tables.storeDockers, hf]

theorem ofServer_storeMetric_other {other : ℕ} {row : MetricAggregate α} (h : row.serverId ≠ other)
    (t : Tables α) : (t.storeMetric row).ofServer other = t.ofServer other := by
  have hf := KeyedTable.filter_upsert
    (p := fun r => decide (r.serverId = other)) sameServer_metric metricMerge_key row
    t.metricAggregates
  rw [if_neg (by simpa using h)] at hf
  simp only [Tables.ofServer, Tables.storeMetric, hf]

theorem ofServer_storeDocker_other {other : ℕ} {row : DockerAggregate α} (h : row.serverId ≠ other)
    (t : Tables α) : (t.storeDocker row).ofServer other = t.ofServer other := by
  have hf := KeyedTable.filter_upsert
    (p := fun r => decide (r.serverId = other)) sameServer_docker dockerMerge_key row
    t.dockerAggregates
  rw [if_neg (by simpa using h)] at hf
  simp only [Tables.ofServer, Tables.storeDocker, hf]

theorem scalarOne_frame {V A : Type} {view : Tables α → V} (found : Option A) :
    Frame view (scalarOne found : Act (Tables α) A) := by
  cases found with
  | none => exact Frame.raise .client
  | some row => exact Frame.pure row

theorem system_frame {other : ℕ} (h : serverId ≠ other) :
    Frame (Tables.ofServer other) (aggregateSystemMetrics e raw p serverId) := by
  refine Frame.bind (Frame.select _ _) fun row => ?_
  split
  · exact Frame.pure none
  · refine Frame.bind (Frame.write fun t => ofServer_storeMetric_other h t) fun _ => ?_
    refine Frame.bind (Frame.commit _) fun _ => ?_
    refine Frame.bind (Frame.select _ _) fun found => ?_
    exact Frame.bind (scalarOne_frame found) fun agg => Frame.pure _

theorem container_frame {other : ℕ} (h : serverId ≠ other) (containerName : String) :
    Frame (Tables.ofServer other) (aggregateContainer e raw p serverId containerName) := by
  refine Frame.bind (Frame.select _ _) fun row => ?_
  split
  · exact Frame.pure none
  · refine Frame.bind ?_ fun _ => ?_
    · unfold upsertContainer
      split
      · exact Frame.write fun _ => rfl
      · exact Frame.write fun t => ofServer_storeDocker_other h t
    · refine Frame.bind (Frame.select _ _) fun found => ?_
      exact Frame.bind (scalarOne_frame found) fun agg => Frame.pure _

theorem containers_frame {other : ℕ} (h : serverId ≠ other) (names : List String) :
    Frame (Tables.ofServer other) (aggregateContainers e raw p serverId names) := by
  induction names with
  | nil => exact Frame.pure []
  | cons name names ih =>
    exact Frame.bind (container_frame h name) fun _ => Frame.bind ih fun _ => Frame.pure _

theorem docker_frame {other : ℕ} (h : serverId ≠ other) :
    Frame (Tables.ofServer other) (aggregateDockerMetrics e raw p serverId) := by
  refine Frame.bind (Frame.select _ _) fun names => ?_
  split
  · exact Frame.pure []
  · refine Frame.bind (containers_frame h names) fun _ => ?_
    exact Frame.bind (Frame.commit _) fun _ => Frame.pure _

theorem server_frame {other : ℕ} (h : serverId ≠ other) :
    Frame (Tables.ofServer other) (aggregateServer e raw p serverId) :=
  Frame.bind (system_frame h) fun _ => Frame.bind (docker_frame h) fun _ => Frame.pure ()

/-! ### The rows of the server itself -/

theorem metricRows_server : ∀ row ∈ metricRows e raw p serverId, row.serverId = serverId := by
  intro row hrow
  unfold metricRows at hrow
  split at hrow
  · cases hrow
  · rw [List.mem_singleton] at hrow
    rw [hrow]
    rfl

theorem dockerRows_server : ∀ row ∈ dockerRows e raw p serverId, row.serverId = serverId := by
  intro row hrow
  obtain ⟨name, -, hstored⟩ := List.mem_filterMap.mp hrow
  obtain ⟨stored, -, rfl⟩ := Option.map_eq_some_iff.mp hstored
  rfl

theorem systemEffect_own (e : Engine α) (raw : Raw α) (p : Period) {s : Session (Tables α)}
    (hs : s.working.ofServer serverId = s.committed.ofServer serverId) :
    let after := systemEffect e raw p serverId s
    after.working.ofServer serverId =
        (s.committed.ofServer serverId).storeMetrics (metricRows e raw p serverId) ∧
      after.committed.ofServer serverId =
        (s.committed.ofServer serverId).storeMetrics (metricRows e raw p serverId) := by
  unfold systemEffect
  by_cases hempty : systemSamples raw p serverId = []
  · simp only [if_pos hempty, metricRows, hs]
    exact ⟨rfl, rfl⟩
  · simp only [if_neg hempty, Session.publish, ofServer_storeMetrics metricRows_server, hs,
      and_self]

theorem dockerEffect_own (e : Engine α) (raw : Raw α) (p : Period) {s : Session (Tables α)}
    (hs : s.working.ofServer serverId = s.committed.ofServer serverId) :
    let after := dockerEffect e raw p serverId s
    after.working.ofServer serverId =
        (s.committed.ofServer serverId).storeDockers (dockerRows e raw p serverId) ∧
      after.committed.ofServer serverId =
        (s.committed.ofServer serverId).storeDockers (dockerRows e raw p serverId) := by
  unfold dockerEffect
  by_cases hempty : containerNames e raw p serverId = []
  · have hrows : dockerRows e raw p serverId = [] := by simp [dockerRows, hempty]
    simp only [if_pos hempty, hrows, hs]
    exact ⟨rfl, rfl⟩
  · simp only [if_neg hempty, Session.publish, ofServer_storeDockers dockerRows_server, hs,
      and_self]

/- A server without a fault has containers whose names fit, so each has a row of its
own. -/
theorem containersFault_none {names : List String} (h : containersFault e serverId names = none) :
    ∀ name ∈ names, varchar 255 name = some name := by
  induction names with
  | nil => exact fun name hname => absurd hname List.not_mem_nil
  | cons first names ih =>
    obtain ⟨hfirst, hrest⟩ := orElse_eq_none h
    intro name hname
    rcases List.mem_cons.mp hname with rfl | hname
    · have hmatch := (orElse_eq_none hfirst).2
      cases hv : varchar 255 name with
      | none =>
        rw [hv] at hmatch
        exact absurd (orElse_eq_none hmatch).2 (by simp)
      | some stored =>
        rw [hv] at hmatch
        have hsame := (orElse_eq_none (orElse_eq_none hmatch).2).2
        split at hsame
        · next heq => rw [heq]
        · cases hsame
    · exact ih hrest name hname

theorem dockerRows_keys (h : serverFault e raw p serverId = none) :
    ((dockerRows e raw p serverId).map dockerKey).Nodup := by
  have hfit : ∀ name ∈ containerNames e raw p serverId, varchar 255 name = some name := by
    have hdocker := (orElse_eq_none (orElse_eq_none h).2).2
    split at hdocker
    · next hempty =>
      rw [hempty]
      exact fun name hname => absurd hname List.not_mem_nil
    · exact containersFault_none (orElse_eq_none hdocker).1
  have hkeys : ∀ names : List String, (∀ name ∈ names, varchar 255 name = some name) →
      (names.filterMap (storedRow e raw p serverId)).map dockerKey =
        names.map fun name => (serverId, name, p.periodType, p.periodStart) := by
    intro names hnames
    induction names with
    | nil => rfl
    | cons name names ih =>
      obtain ⟨stored, hstore, hval⟩ := VarChar.store_some (hnames name List.mem_cons_self)
      have hrow : storedRow e raw p serverId name = some (dockerRow p serverId stored
          (dockerStats e (containerSamples raw p serverId name))) := by
        rw [storedRow, hstore]
        rfl
      rw [List.filterMap_cons_some hrow, List.map_cons, List.map_cons,
        ih fun n hn => hnames n (List.mem_cons_of_mem _ hn), ← hval]
      rfl
  unfold dockerRows
  rw [hkeys _ hfit]
  refine (e.nodup_distinct _).map ?_
  intro a b hab
  simp only [Prod.mk.injEq] at hab
  exact hab.2.1

theorem metricRows_keys (e : Engine α) (raw : Raw α) (p : Period) (serverId : ℕ) :
    ((metricRows e raw p serverId).map metricKey).Nodup := by
  unfold metricRows
  split
  · exact List.nodup_nil
  · exact List.nodup_singleton _

theorem own_eq_self_iff (h : serverFault e raw p serverId = none) (t : Tables α) :
    own e raw p serverId t = t ↔ UpToDate e raw p serverId t := by
  have hm := KeyedTable.upsertAll_eq_self_iff metricMerge_key metricMerge_self
    metricMerge_absorb (metricRows_keys e raw p serverId) t.metricAggregates
  have hd := KeyedTable.upsertAll_eq_self_iff dockerMerge_key dockerMerge_self
    dockerMerge_absorb (dockerRows_keys h) t.dockerAggregates
  unfold UpToDate
  rw [← hm, ← hd]
  constructor
  · intro ht
    exact ⟨congrArg Tables.metricAggregates ht, congrArg Tables.dockerAggregates ht⟩
  · intro ht
    exact congrArg₂ Tables.mk ht.1 ht.2

theorem own_own (h : serverFault e raw p serverId = none) (t : Tables α) :
    own e raw p serverId (own e raw p serverId t) = own e raw p serverId t := by
  rw [own_eq_self_iff h]
  exact ⟨KeyedTable.held_upsertAll metricMerge_key metricMerge_self metricMerge_absorb
      (metricRows_keys e raw p serverId) t.metricAggregates,
    KeyedTable.held_upsertAll dockerMerge_key dockerMerge_self dockerMerge_absorb
      (dockerRows_keys h) t.dockerAggregates⟩

theorem server_run (e : Engine α) (raw : Raw α) (p : Period) (serverId : ℕ)
    {s : Session (Tables α)} (hs : s.aborted = false) :
    Outcome (serverFault e raw p serverId)
      (dockerEffect e raw p serverId (systemEffect e raw p serverId s))
      ((aggregateServer e raw p serverId).run s) := server_does s hs trivial

variable (e raw p) in
theorem servers_separate : Separate (aggregateServer e raw p) Tables.ofServer
    (serverFault e raw p) (own e raw p) where
  stuck _ := Stuck.bind (Stuck.bind (Stuck.exec _ _))
  frame _ _ h := server_frame h
  fails i s f hs hf := by
    have hout := server_run e raw p i hs
    rw [hf] at hout
    obtain ⟨s', he, hab⟩ := hout
    rw [he]
    exact hab
  opens i s hs hf := by
    have hout := server_run e raw p i hs
    rw [hf] at hout
    obtain ⟨⟨v, he⟩, hopen⟩ := hout
    rw [he]
    exact hopen
  works i s hs hf hsettled := by
    have hout := server_run e raw p i hs
    rw [hf] at hout
    obtain ⟨⟨v, he⟩, -⟩ := hout
    rw [he]
    obtain ⟨hw, hc⟩ := systemEffect_own e raw p hsettled
    have hdocker := dockerEffect_own e raw p (hw.trans hc.symm)
    rw [hc] at hdocker
    exact hdocker
  idem i t hf := own_own hf t

end

section
variable {α : Type} (e : Engine α) (raw : Raw α) (p : Period)

/-! ### A pass over all servers -/

/-- The aggregation of the server, alone on a fresh session, raises. -/
def raises (t : Tables α) (serverId : ℕ) : Bool :=
  match ((aggregateServer e raw p serverId).run (.fresh t)).1 with
  | .ok _ => false
  | .error _ => true

def allTables (t : Tables α) : Tables α :=
  ((aggregateAllServers e raw p).run (.fresh t)).2.committed

def Raw.without (failing : ℕ → Bool) : Raw α :=
  { raw with servers := raw.servers.filter fun r => !failing r.id }

/- Every server that does not fail itself ends with the rows a pass without the
failing servers gives it. -/
def Isolated (t : Tables α) : Prop :=
  ∀ serverId ∈ raw.servers.map Server.id, raises e raw p t serverId = false →
    (allTables e raw p t).ofServer serverId =
      (allTables e (raw.without (raises e raw p t)) p t).ofServer serverId

/-! ### When a failure stays with its server -/

variable {e raw p}

theorem raises_iff (t : Tables α) (serverId : ℕ) :
    raises e raw p t serverId = false ↔ serverFault e raw p serverId = none := by
  have hout := server_run e raw p serverId (rfl : (Session.fresh t).aborted = false)
  unfold raises
  cases hf : serverFault e raw p serverId with
  | none =>
    rw [hf] at hout
    obtain ⟨⟨v, he⟩, -⟩ := hout
    simp [he]
  | some f =>
    rw [hf] at hout
    obtain ⟨s', he, -⟩ := hout
    simp [he]

theorem allTables_ofServer {serverId : ℕ} (h : serverFault e raw p serverId = none) (t : Tables α) :
    (allTables e raw p t).ofServer serverId =
      if serverId ∈ reached (serverFault e raw p) (raw.servers.map Server.id) then
        own e raw p serverId (t.ofServer serverId)
      else t.ofServer serverId :=
  batch_committed (servers_separate e raw p) h _ rfl rfl

/- The pass without the failing servers reaches every server it has. -/
theorem allTables_without {serverId : ℕ} (hmem : serverId ∈ raw.servers.map Server.id)
    (h : serverFault e raw p serverId = none) (t : Tables α) :
    (allTables e (raw.without (raises e raw p t)) p t).ofServer serverId =
      own e raw p serverId (t.ofServer serverId) := by
  have hall : reached (serverFault e raw p)
      ((raw.without (raises e raw p t)).servers.map Server.id) =
      (raw.without (raises e raw p t)).servers.map Server.id := by
    unfold reached
    rw [List.takeWhile_eq_self_iff]
    intro i hi
    obtain ⟨r, hr, rfl⟩ := List.mem_map.mp hi
    have hok := (List.mem_filter.mp hr).2
    rw [Bool.not_eq_true', raises_iff] at hok
    simp [hok]
  have hin : serverId ∈ (raw.without (raises e raw p t)).servers.map Server.id := by
    obtain ⟨r, hr, rfl⟩ := List.mem_map.mp hmem
    refine List.mem_map_of_mem (List.mem_filter.mpr ⟨hr, ?_⟩)
    rw [Bool.not_eq_true', raises_iff]
    exact h
  have hreached : serverId ∈ reached (serverFault e raw p)
      ((raw.without (raises e raw p t)).servers.map Server.id) := by
    rw [hall]
    exact hin
  exact (batch_committed (servers_separate e (raw.without (raises e raw p t)) p) h _ rfl rfl).trans
    (if_pos hreached)

/- Failures stay with their servers exactly when the servers the pass does not get
to, those behind the first database error, have nothing to store. -/
theorem isolated_iff_nothing_behind (e : Engine α) (raw : Raw α) (p : Period) (t : Tables α) :
    Isolated e raw p t ↔
      ∀ serverId ∈ raw.servers.map Server.id, serverFault e raw p serverId = none →
        serverId ∉ reached (serverFault e raw p) (raw.servers.map Server.id) →
        UpToDate e raw p serverId (t.ofServer serverId) := by
  have hserver : ∀ serverId ∈ raw.servers.map Server.id, serverFault e raw p serverId = none →
      ((allTables e raw p t).ofServer serverId =
          (allTables e (raw.without (raises e raw p t)) p t).ofServer serverId ↔
        (serverId ∉ reached (serverFault e raw p) (raw.servers.map Server.id) →
          UpToDate e raw p serverId (t.ofServer serverId))) := by
    intro serverId hmem hf
    rw [allTables_ofServer hf, allTables_without hmem hf, ← own_eq_self_iff hf]
    split
    · next hr => simp [hr]
    · next hr => simp [hr, eq_comm]
  constructor
  · intro h serverId hmem hf
    exact (hserver serverId hmem hf).mp (h serverId hmem ((raises_iff t serverId).mpr hf))
  · intro h serverId hmem hr
    have hf := (raises_iff t serverId).mp hr
    exact (hserver serverId hmem hf).mpr (h serverId hmem hf)

end

/- Exact aggregates, and nothing fails but what the tables refuse. -/
def exact : Engine ℚ where
  avg xs := xs.sum / xs.length
  least xs := xs.min?.getD 0
  greatest xs := xs.max?.getD 0
  distinct := List.dedup
  mem_distinct _ _ := List.mem_dedup
  nodup_distinct := List.nodup_dedup
  faults _ := none

def longName : String := String.ofList (List.replicate 256 'a')

def twoServers : Raw ℚ where
  servers := [⟨1, "loud", "h1", 1, none, true, none, false⟩,
    ⟨2, "quiet", "h2", 2, none, true, none, false⟩]
  metrics := [⟨1, 2, 10, 20, 30, 60⟩]
  dockerMetrics := [⟨1, 1, "c1", longName, "image", "running", 5, 100, none, 60⟩]

def firstWindow : Period := ⟨.fivemin, 0, minutes 5⟩

theorem longName_toList : longName.toList = List.replicate 256 'a' := String.toList_ofList

theorem longName_text : '\x00' ∉ longName.toList := by
  intro h
  have hmem : '\x00' ∈ List.replicate 256 'a' := longName_toList ▸ h
  exact absurd (List.eq_of_mem_replicate hmem) (by decide)

theorem longName_refused : varchar 255 longName = none := by
  have hlength : longName.toList.length = 256 :=
    (congrArg List.length longName_toList).trans List.length_replicate
  have hcut : longName.toList.drop 255 = ['a'] :=
    (congrArg (List.drop 255) longName_toList).trans List.drop_replicate
  have hlong : ¬ longName.toList.length ≤ 255 := by omega
  rw [varchar, if_neg longName_text, if_neg hlong, hcut]
  exact if_neg (by decide)

theorem loud_fault : serverFault exact twoServers firstWindow 1 = some .statement := by
  have hnames : containerNames exact twoServers firstWindow 1 = [longName] := by
    show List.dedup [longName] = [longName]
    exact List.dedup_eq_self.mpr (List.nodup_singleton _)
  have hcontainer : containerFault exact 1 longName = some .statement := by
    simp only [containerFault, longName_refused]
    rfl
  have hdocker : dockerFault exact twoServers firstWindow 1 = some .statement := by
    simp only [dockerFault, hnames, containersFault, hcontainer]
    rfl
  have hsystem : systemFault exact twoServers firstWindow 1 = none := rfl
  rw [serverFault, hsystem, hdocker]
  rfl

theorem quiet_fault : serverFault exact twoServers firstWindow 2 = none := rfl

/- A container name of 256 characters, which ingest stores: the other tenant's server
behind it gets no aggregate. -/
theorem isolation_broken_by_long_name :
    (PgText.text longName).isSome = true ∧
      raises exact twoServers firstWindow ⟨[], []⟩ 2 = false ∧
      (allTables exact twoServers firstWindow ⟨[], []⟩).ofServer 2 = ⟨[], []⟩ ∧
      (allTables exact (twoServers.without (raises exact twoServers firstWindow ⟨[], []⟩))
        firstWindow ⟨[], []⟩).ofServer 2 =
        ⟨[metricRow firstWindow 2 (systemStats exact twoServers.metrics)], []⟩ ∧
      ¬ Isolated exact twoServers firstWindow ⟨[], []⟩ := by
  have hquiet := (raises_iff ⟨[], []⟩ 2).mpr quiet_fault
  have hbehind : 2 ∉ reached (serverFault exact twoServers firstWindow)
      (twoServers.servers.map Server.id) := by
    have hreached : reached (serverFault exact twoServers firstWindow)
        (twoServers.servers.map Server.id) = [] :=
      List.takeWhile_cons_of_neg (by simp [loud_fault])
    simp [hreached]
  have hrows : (allTables exact twoServers firstWindow ⟨[], []⟩).ofServer 2 = ⟨[], []⟩ :=
    (allTables_ofServer quiet_fault ⟨[], []⟩).trans (if_neg hbehind)
  have halone : (allTables exact (twoServers.without (raises exact twoServers firstWindow ⟨[], []⟩))
      firstWindow ⟨[], []⟩).ofServer 2 =
      ⟨[metricRow firstWindow 2 (systemStats exact twoServers.metrics)], []⟩ :=
    allTables_without (by decide) quiet_fault ⟨[], []⟩
  refine ⟨by rw [PgText.text, if_neg longName_text]; rfl, hquiet, hrows, halone, ?_⟩
  intro h
  have hsame := h 2 (by decide) hquiet
  rw [hrows, halone] at hsame
  have hlength := congrArg (fun t => t.metricAggregates.length) hsame
  exact absurd hlength (by decide)

end PulseWatch.Aggregation
