import Mathlib.Data.List.Nodup
import PulseWatch.Fleet
import PulseWatch.Lib.KeyedTable

/-!
# Coming back from silence

The heartbeat deactivates a silent server and would reactivate it once it is
seen again; `verify_api_key` refuses an inactive server, so it is not seen again.
Recovery therefore works in a whole run exactly when no heartbeat run of it ever
finds an active server silent.
-/

namespace PulseWatch.Fleet

/-- A body the database can hold whatever the server row says. -/
def Submission.storable : Submission → Bool
  | .metric data => match data.agentVersion with
    | none => true
    | some v => (PgText.varchar 64 v).isSome
  | .docker data => data.all DockerMetricCreate.storable

/- The rows of `body` are stored, stamped `now`, and the server was seen now. -/
def Stored (before after : Sys) (id : ℕ) : Submission → Prop
  | .metric data => after.metrics = ⟨before.nextMetric, id, data.cpuPercent, data.memoryPercent,
      data.diskPercent, before.now⟩ :: before.metrics
  | .docker data => after.dockerMetrics =
      dockerRows id before.now before.nextDockerMetric data ++ before.dockerMetrics

section
variable (cr : Crypto)

/- The way back from silence for one server, with its current secret: the
submission is accepted and stored, and the first heartbeat run of the next five
minutes reactivates the server and enqueues one recovery for it. -/
def WayBack (s : Sys) (server : Server) (secret : String) (body : Submission) : Prop :=
  let out := submit cr s ⟨server.id, secret⟩ body
  out.1 = .created ∧ Stored s out.2 server.id body ∧
    (∃ r ∈ out.2.servers, r.id = server.id ∧ r.lastSeenAt = some s.now) ∧
    ∀ startedAt, s.now ≤ startedAt → startedAt ≤ s.now + minutes 5 →
      let s' := runHeartbeatCheck (heartbeatThreshold startedAt) out.2
      (∃ r ∈ s'.servers, r.id = server.id ∧ r.isActive = true) ∧
      s'.tasks.count (.sendHeartbeatRecovery server.id) =
        out.2.tasks.count (.sendHeartbeatRecovery server.id) + 1

def RecoveryWorks (s : Sys) : Prop :=
  ∀ server ∈ s.servers, server.paused = false → server.isActive = false →
    ∀ secret, s.secrets server.id = some secret →
      ∀ body : Submission, body.storable = true → WayBack cr s server secret body

end

/- The heartbeat run finds no active unpaused server that has been silent for more
than five minutes. -/
def NobodySilent (s : Sys) : Label → Prop
  | .heartbeat startedAt => startedAt ≤ s.now →
      ∀ r ∈ s.servers, overdue (heartbeatThreshold startedAt) r = false
  | _ => True

/-! ### The table of servers -/

theorem updateServer_ids (id : ℕ) (f : Server → Server) (hf : ∀ r, (f r).id = r.id)
    (servers : List Server) :
    (updateServer id f servers).map Server.id = servers.map Server.id := by
  unfold updateServer
  rw [List.map_map]
  congr 1
  funext r
  simp only [Function.comp]
  split
  · exact hf r
  · rfl

theorem mem_updateServer {id : ℕ} {f : Server → Server} {servers : List Server} {r : Server}
    (h : r ∈ updateServer id f servers) : ∃ q ∈ servers, r = f q ∨ r = q := by
  obtain ⟨q, hq, rfl⟩ := List.mem_map.mp h
  refine ⟨q, hq, ?_⟩
  split
  · exact Or.inl rfl
  · exact Or.inr rfl

theorem deactivate_id (t : Instant) (r : Server) : (deactivate t r).id = r.id := by
  unfold deactivate
  split <;> rfl

theorem reactivate_id (t : Instant) (r : Server) : (reactivate t r).id = r.id := by
  unfold reactivate
  split <;> rfl

theorem heartbeat_ids (t : Instant) (s : Sys) :
    (runHeartbeatCheck t s).servers.map Server.id = s.servers.map Server.id := by
  simp [runHeartbeatCheck, Function.comp_def, deactivate_id, reactivate_id]

/- A stored submission is written to the row it was checked against. -/
def sighted (startedAt : Instant) (version : Server → Option String) (r : Server) : Server :=
  { r with lastSeenAt := some startedAt, agentVersion := version r }

theorem storeSubmission_row {s s' : Sys} {server : Server} {startedAt : Instant}
    {body : Submission} (h : storeSubmission s server startedAt body = some s') :
    ∃ version, s'.servers = updateServer server.id (sighted startedAt version) s.servers ∧
      s'.nextServer = s.nextServer ∧ s'.secrets = s.secrets ∧ s'.requests = s.requests := by
  cases body with
  | metric data =>
    obtain ⟨version?, -, rfl⟩ := Option.map_eq_some_iff.mp h
    exact ⟨fun r => version?.or r.agentVersion, rfl, rfl, rfl, rfl⟩
  | docker data =>
    simp only [storeSubmission, storeDocker] at h
    split at h
    · obtain rfl := Option.some.inj h
      exact ⟨Server.agentVersion, rfl, rfl, rfl, rfl⟩
    · cases h

/- The inversion of `step`, as far as it writes to the servers. -/
inductive Written (cr : Crypto) (s : Sys) : Label → Sys → Prop
  | same {l s'} : s'.servers = s.servers → s'.nextServer = s.nextServer →
      s'.secrets = s.secrets → Written cr s l s'
  | registered {i ownerId name secret salt s'} (r : Server) : r.id = s.nextServer →
      r.ownerId = ownerId → r.isActive = true → s'.servers = r :: s.servers →
      s'.nextServer = s.nextServer + 1 →
      s'.secrets = Function.update s.secrets s.nextServer (some secret) →
      Written cr s (.register i ownerId name secret salt) s'
  | stored {i s'} (id : ℕ) (startedAt : Instant) (version : Server → Option String) :
      s'.servers = updateServer id (sighted startedAt version) s.servers →
      s'.nextServer = s.nextServer → s'.secrets = s.secrets → Written cr s (.store i) s'
  | paused {i s'} (id : ℕ) (value : Bool) :
      s'.servers = updateServer id (fun r => { r with paused := value }) s.servers →
      s'.nextServer = s.nextServer → s'.secrets = s.secrets → Written cr s (.save i) s'
  | rotated {i s'} (server : Server) (secret salt hash : String) :
      s.requests i = .editing server (.apiKey secret salt) → cr.hashpw secret salt = some hash →
      s'.servers = updateServer server.id (fun r => { r with apiKeyHash := hash }) s.servers →
      s'.nextServer = s.nextServer →
      s'.secrets = Function.update s.secrets server.id (some secret) → Written cr s (.save i) s'
  | checked (startedAt) : startedAt ≤ s.now → Written cr s (.heartbeat startedAt)
      (runHeartbeatCheck (heartbeatThreshold startedAt) s)

theorem step_written {cr : Crypto} {s s' : Sys} {l : Label} (hs : step cr s l = some s') :
    Written cr s l s' := by
  cases l with
  | tick us => exact Option.some.inj hs ▸ .same rfl rfl rfl
  | register i ownerId name secret salt =>
    simp only [step] at hs
    split at hs
    · split at hs
      · split at hs
        · exact Option.some.inj hs ▸ .same rfl rfl rfl
        · exact Option.some.inj hs ▸ .registered _ rfl rfl rfl rfl rfl rfl
      · exact Option.some.inj hs ▸ .same rfl rfl rfl
    · cases hs
  | verify i key body =>
    simp only [step] at hs
    split at hs
    · split at hs
      · exact Option.some.inj hs ▸ .same rfl rfl rfl
      · obtain rfl := Option.some.inj hs
        split
        · exact .same rfl rfl rfl
        · exact .same rfl rfl rfl
    · cases hs
  | store i =>
    simp only [step] at hs
    split at hs
    · split at hs
      · next s₁ hstore =>
        obtain ⟨version, hservers, hnext, hsecrets, -⟩ := storeSubmission_row hstore
        exact Option.some.inj hs ▸ .stored _ _ version hservers hnext hsecrets
      · exact Option.some.inj hs ▸ .same rfl rfl rfl
    · cases hs
  | load i ownerId serverId edit =>
    simp only [step] at hs
    split at hs
    · split at hs
      · exact Option.some.inj hs ▸ .same rfl rfl rfl
      · exact Option.some.inj hs ▸ .same rfl rfl rfl
    · cases hs
  | save i =>
    simp only [step] at hs
    split at hs
    · next server value hi =>
      split at hs
      · exact Option.some.inj hs ▸ .same rfl rfl rfl
      · exact Option.some.inj hs ▸ .paused server.id value rfl rfl rfl
    · next server secret salt hi =>
      split at hs
      · next hash hh =>
        exact Option.some.inj hs ▸ .rotated server secret salt hash hi hh rfl rfl rfl
      · exact Option.some.inj hs ▸ .same rfl rfl rfl
    · cases hs
  | heartbeat startedAt =>
    simp only [step] at hs
    split at hs
    · next hle => exact Option.some.inj hs ▸ .checked startedAt hle
    · cases hs

/- What a step does to the table of servers, the id sequence and the keys shown. -/
inductive ServersMove (s : Sys) : Label → Sys → Prop
  | same {l s'} : s'.servers = s.servers → s'.nextServer = s.nextServer →
      s'.secrets = s.secrets → ServersMove s l s'
  | registered {l s'} (r : Server) (secret : String) : r.id = s.nextServer → r.isActive = true →
      s'.servers = r :: s.servers → s'.nextServer = s.nextServer + 1 →
      s'.secrets = Function.update s.secrets s.nextServer (some secret) → ServersMove s l s'
  | updated {l s'} (id : ℕ) (f : Server → Server) :
      (∀ r, (f r).id = r.id ∧ (f r).isActive = r.isActive) →
      s'.servers = updateServer id f s.servers → s'.nextServer = s.nextServer →
      (∀ x, s'.secrets x = s.secrets x ∨ ∃ secret, s'.secrets x = some secret) →
      ServersMove s l s'
  | checked (startedAt) : startedAt ≤ s.now → ServersMove s (.heartbeat startedAt)
      (runHeartbeatCheck (heartbeatThreshold startedAt) s)

theorem step_servers {cr : Crypto} {s s' : Sys} {l : Label} (hs : step cr s l = some s') :
    ServersMove s l s' := by
  cases step_written hs with
  | same hservers hnext hsecrets => exact .same hservers hnext hsecrets
  | registered r hid howner hactive hservers hnext hsecrets =>
    exact .registered r _ hid hactive hservers hnext hsecrets
  | stored id startedAt version hservers hnext hsecrets =>
    exact .updated id (sighted startedAt version) (fun _ => ⟨rfl, rfl⟩) hservers hnext
      fun x => Or.inl (congrFun hsecrets x)
  | paused id value hservers hnext hsecrets =>
    exact .updated id (fun r => { r with paused := value }) (fun _ => ⟨rfl, rfl⟩) hservers hnext
      fun x => Or.inl (congrFun hsecrets x)
  | rotated server secret salt hash hi hh hservers hnext hsecrets =>
    refine .updated server.id (fun r => { r with apiKeyHash := hash }) (fun _ => ⟨rfl, rfl⟩)
      hservers hnext fun x => ?_
    rw [hsecrets]
    by_cases hx : x = server.id
    · subst hx
      exact Or.inr ⟨secret, Function.update_self _ _ _⟩
    · exact Or.inl (Function.update_of_ne hx _ _)
  | checked startedAt hle => exact .checked startedAt hle

/- Ids are unique and below the sequence, and every owner has been shown a key. -/
structure Registered (s : Sys) : Prop where
  ids : (s.servers.map Server.id).Nodup
  below : ∀ id ∈ s.servers.map Server.id, id < s.nextServer
  keyed : ∀ id ∈ s.servers.map Server.id, ∃ secret, s.secrets id = some secret

namespace Registered

theorem init (now : Instant) : Registered (init now) :=
  ⟨List.nodup_nil, fun _ h => absurd h List.not_mem_nil, fun _ h => absurd h List.not_mem_nil⟩

theorem same {s s' : Sys} (h : Registered s)
    (hids : s'.servers.map Server.id = s.servers.map Server.id)
    (hnext : s'.nextServer = s.nextServer)
    (hkeys : ∀ x, s'.secrets x = s.secrets x ∨ ∃ secret, s'.secrets x = some secret) :
    Registered s' := by
  refine ⟨hids ▸ h.ids, ?_, ?_⟩
  · rw [hids, hnext]
    exact h.below
  · intro id hid
    rw [hids] at hid
    rcases hkeys id with hsame | hnew
    · rw [hsame]
      exact h.keyed id hid
    · exact hnew

theorem step {cr : Crypto} {s s' : Sys} {l : Label} (h : Registered s)
    (hs : step cr s l = some s') : Registered s' := by
  cases step_servers hs with
  | same hservers hnext hsecrets =>
    exact h.same (by rw [hservers]) hnext fun x => Or.inl (congrFun hsecrets x)
  | registered r secret hid _ hservers hnext hsecrets =>
    have hnew : r.id ∉ s.servers.map Server.id := by
      intro hin
      exact absurd (h.below _ hin) (hid ▸ Nat.lt_irrefl _)
    refine ⟨?_, ?_, ?_⟩
    · rw [hservers]
      exact List.nodup_cons.mpr ⟨hnew, h.ids⟩
    · intro id hin
      rw [hservers] at hin
      rw [hnext]
      rcases List.mem_cons.mp hin with rfl | hin
      · exact hid ▸ Nat.lt_succ_self _
      · exact (h.below id hin).trans (Nat.lt_succ_self _)
    · intro id hin
      rw [hservers] at hin
      rw [hsecrets]
      rcases List.mem_cons.mp hin with rfl | hin
      · exact ⟨secret, by rw [hid, Function.update_self]⟩
      · have hne : id ≠ s.nextServer := (h.below id hin).ne
        rw [Function.update_of_ne hne]
        exact h.keyed id hin
  | updated id f hf hservers hnext hkeys =>
    refine h.same ?_ hnext hkeys
    rw [hservers, updateServer_ids _ _ fun r => (hf r).1]
  | checked startedAt hle => exact h.same (heartbeat_ids _ _) rfl fun _ => Or.inl rfl

theorem find {s : Sys} (h : Registered s) {server : Server} (hm : server ∈ s.servers) :
    (s.servers.find? fun r => r.id = server.id) = some server :=
  KeyedTable.get?_of_mem h.ids hm rfl

end Registered

/-! ### Silence is the one way down -/

section
variable {cr : Crypto} {s s' : Sys}

/- An inactive server is refused with whatever key. -/
theorem submit_inactive (h : Registered s) {server : Server} (hm : server ∈ s.servers)
    (hoff : server.isActive = false) (secret : String) (body : Submission) :
    submit cr s ⟨server.id, secret⟩ body = (.unauthorized, s) := by
  have hverify : verifyApiKey cr ⟨server.id, secret⟩ s.servers = .error .unauthorized := by
    unfold verifyApiKey
    rw [h.find hm]
    simp [hoff]
  rw [submit, hverify]

theorem not_recoveryWorks (h : Registered s) {server : Server} (hm : server ∈ s.servers)
    (hon : server.paused = false) (hoff : server.isActive = false) : ¬ RecoveryWorks cr s := by
  intro hw
  obtain ⟨secret, hsecret⟩ := h.keyed server.id (List.mem_map_of_mem hm)
  have hback := (hw server hm hon hoff secret hsecret (.docker []) rfl).1
  rw [submit_inactive h hm hoff] at hback
  cases hback

theorem deactivate_active {t : Instant} {r : Server} (h : overdue t r = false) :
    deactivate t r = r := by
  unfold deactivate
  rw [h]
  rfl

theorem overdue_row {t : Instant} {r : Server} (h : overdue t r = true) :
    r.paused = false ∧ recovered t (deactivate t r) = false := by
  unfold overdue at h
  cases hl : r.lastSeenAt with
  | none =>
    rw [hl] at h
    cases h
  | some seen =>
    rw [hl] at h
    simp only [Bool.and_eq_true, decide_eq_true_eq, Bool.not_eq_true'] at h
    obtain ⟨⟨hlt, hact⟩, hpaused⟩ := h
    refine ⟨hpaused, ?_⟩
    have hd : deactivate t r = { r with isActive := false } := by
      simp [deactivate, overdue, hl, hlt, hact, hpaused]
    rw [hd]
    simp [recovered, hl, hlt]

theorem reactivate_active {t : Instant} {r : Server} (h : r.isActive = true) :
    (reactivate t r).isActive = true := by
  unfold reactivate
  split
  · rfl
  · exact h

/- All servers stay active while no heartbeat run finds a silent one. -/
theorem active_step (h : ∀ r ∈ s.servers, r.isActive = true) {l : Label}
    (hok : NobodySilent s l) (hs : step cr s l = some s') :
    ∀ r ∈ s'.servers, r.isActive = true := by
  cases step_servers hs with
  | same hservers _ _ =>
    rw [hservers]
    exact h
  | registered r secret _ hact hservers _ _ =>
    intro q hq
    rw [hservers] at hq
    rcases List.mem_cons.mp hq with rfl | hq
    · exact hact
    · exact h q hq
  | updated id f hf hservers _ _ =>
    intro q hq
    rw [hservers] at hq
    obtain ⟨r, hr, rfl | rfl⟩ := mem_updateServer hq
    · rw [(hf r).2]
      exact h r hr
    · exact h q hr
  | checked startedAt hle =>
    intro q hq
    obtain ⟨q', hq', rfl⟩ := List.mem_map.mp hq
    obtain ⟨r, hr, rfl⟩ := List.mem_map.mp hq'
    rw [deactivate_active (hok hle r hr)]
    exact reactivate_active (h r hr)

/- A silent server found by a heartbeat run is unpaused and inactive after it. -/
theorem silent_broken (h : Registered s) {l : Label} (hn : ¬ NobodySilent s l) :
    ∃ s', step cr s l = some s' ∧ ¬ RecoveryWorks cr s' := by
  cases l with
  | heartbeat startedAt =>
    simp only [NobodySilent, not_forall, Bool.not_eq_false] at hn
    obtain ⟨hle, r, hr, hover⟩ := hn
    have hstep : step cr s (.heartbeat startedAt) =
        some (runHeartbeatCheck (heartbeatThreshold startedAt) s) := if_pos hle
    refine ⟨_, hstep, ?_⟩
    obtain ⟨hpaused, hrec⟩ := overdue_row hover
    have hrow : reactivate (heartbeatThreshold startedAt)
        (deactivate (heartbeatThreshold startedAt) r) = { r with isActive := false } := by
      unfold reactivate
      rw [hrec]
      simp [deactivate, hover]
    have hmem : { r with isActive := false } ∈
        (runHeartbeatCheck (heartbeatThreshold startedAt) s).servers := by
      rw [← hrow]
      exact List.mem_map_of_mem (List.mem_map_of_mem hr)
    exact not_recoveryWorks (h.step hstep) hmem hpaused rfl
  | _ => exact absurd trivial hn

/- Over a whole run recovery works in every state exactly when no heartbeat run
found an active unpaused server silent. -/
theorem recovery_works_iff_nobody_silent (cr : Crypto) (now : Instant) (ls : List Label) :
    Runs.Throughout (step cr) (RecoveryWorks cr) (init now) ls ↔
      Runs.Along (step cr) NobodySilent (init now) ls := by
  constructor
  · exact Runs.along_of_throughout Registered (RecoveryWorks cr) NobodySilent
      (fun _ _ _ h hs => h.step hs) (fun _ _ h hn => silent_broken h hn) (Registered.init now)
  · refine Runs.throughout_of_invariant (fun s => ∀ r ∈ s.servers, r.isActive = true)
      (RecoveryWorks cr) NobodySilent (fun _ _ _ h hok hs => active_step h hok hs) ?_ ?_
    · intro s h server hm _ hoff
      rw [h server hm] at hoff
      cases hoff
    · intro r hr
      cases hr

end

/- A server is registered, sends one sample and is silent for six minutes. -/
def silence : List Label :=
  [.register 0 1 "web" "pwk_agent" "$2b$12$KeyKeyKeyKeyKeyKeyKeyu",
    .verify 1 ⟨1, "pwk_agent"⟩ (.metric ⟨.fin 10, .fin 20, .fin 30, some "1.0"⟩), .store 1,
    .tick 360000000, .heartbeat 360000000]

theorem recovery_broken_by_silence :
    ∃ s, Runs.run (step tabledCrypto) (init 0) silence = some s ∧
      s.servers.map (fun r => (r.isActive, r.paused)) = [(false, false)] ∧
      s.secrets 1 = some "pwk_agent" ∧
      (submit tabledCrypto s ⟨1, "pwk_agent"⟩
        (.metric ⟨.fin 10, .fin 20, .fin 30, some "1.0"⟩)).1 = .unauthorized ∧
      ¬ RecoveryWorks tabledCrypto s := by
  refine ⟨_, rfl, by decide, rfl, by decide, ?_⟩
  intro h
  have hback := (h _ List.mem_cons_self rfl rfl "pwk_agent" rfl (.docker []) rfl).1
  exact absurd hback (by decide)

end PulseWatch.Fleet
