import PulseWatch.HeartbeatEvidence
import PulseWatch.LogDelivery

/-!
# Key rotation and the log connections it leaves open

The ingest requests of `Fleet` check the API key of every call. A connection to
`/ws/agent/logs` checks it once: `authenticate_ws_agent` reads the server's row,
`accept()` follows, and from then on every line is taken.
-/

namespace PulseWatch.KeyRotation

open Fleet LogChannel

/- One connection to `/ws/agent/logs`. `accepting` is the await of `accept()`. -/
inductive Connection where
  | idle
  | refused
  | accepting (key : ApiKey) (server : Server)
  | streaming (key : ApiKey) (channel : Channel)
  deriving DecidableEq, Repr

structure Sys where
  fleet : Fleet.Sys
  connections : ℕ → Connection

def start (now : Instant) : Sys := ⟨Fleet.init now, fun _ => .idle⟩

inductive Label where
  | fleet (l : Fleet.Label)
  | connect (c : ℕ) (key : ApiKey)
  | accepted (c : ℕ)
  | channel (c : ℕ) (l : LogChannel.Label)
  deriving DecidableEq, Repr

def Sys.put (s : Sys) (c : ℕ) (connection : Connection) : Sys :=
  { s with connections := Function.update s.connections c connection }

section
variable (cr : Crypto)

/- `authenticate_ws_agent` makes the checks of `verify_api_key`. -/
def step (s : Sys) : Label → Option Sys
  | .fleet l => (Fleet.step cr s.fleet l).map fun fleet => { s with fleet }
  | .connect c key =>
    match s.connections c with
    | .idle =>
      match verifyApiKey cr key s.fleet.servers with
      | .ok server => some (s.put c (.accepting key server))
      | .error _ => some (s.put c .refused)
    | _ => none
  | .accepted c =>
    match s.connections c with
    | .accepting key server => some (s.put c (.streaming key (opened server.id)))
    | _ => none
  | .channel c l =>
    match s.connections c with
    | .streaming key channel =>
      (LogChannel.step channel l).map fun channel => s.put c (.streaming key channel)
    | _ => none

/- The key verifies against the hash in the row of its server. Whoever knows only
the keys from before a rotation has none that does. -/
def Opens (servers : List Server) (key : ApiKey) : Prop :=
  ∃ r ∈ servers, r.id = key.serverId ∧ cr.checkpw key.secret r.apiKeyHash = some true

def inLoop : Handler → Bool
  | .receiving => true
  | .broadcasting => true
  | .flushing _ => true
  | .joining => false
  | .finalFlush _ => false
  | .closed => false

/- The handler is in its loop and can read its server's id: the next line sent to it
is broadcast and buffered. -/
def Listening (channel : Channel) : Prop :=
  inLoop channel.handler = true ∧ channel.expired = false

/- Nothing sent now under a key that does not open is taken: a request of the agent
is answered with an error and nothing else, and nobody listens to a line. -/
structure Shut (s : Sys) : Prop where
  posts : ∀ i key body t, step cr s (.fleet (.verify i key body)) = some t →
    ¬ Opens cr s.fleet.servers key →
    ∃ r, (r = .unauthorized ∨ r = .serverError) ∧ t = { s with fleet := s.fleet.answer i r }
  lines : ∀ c key channel, s.connections c = .streaming key channel → Listening channel →
    Opens cr s.fleet.servers key

/- A rotation finds no log connection in its loop that was opened with a key the new
hash refuses, and a connection is accepted while its key still opens. -/
def Timely (s : Sys) : Label → Prop
  | .fleet (.save i) => ∀ server secret salt hash,
      s.fleet.requests i = .editing server (.apiKey secret salt) →
      cr.hashpw secret salt = some hash →
      ∀ c key channel, s.connections c = .streaming key channel → Listening channel →
        key.serverId = server.id → cr.checkpw key.secret hash = some true
  | .accepted c => ∀ key server, s.connections c = .accepting key server →
      Opens cr s.fleet.servers key
  | _ => True

end

/-! ### Keys under the steps of the fleet -/

section
variable {cr : Crypto}

theorem verifyApiKey_opens {key : ApiKey} {servers : List Server} {server : Server}
    (h : verifyApiKey cr key servers = .ok server) : Opens cr servers key := by
  obtain ⟨hmem, hid⟩ := verifyApiKey_mem h
  refine ⟨server, hmem, hid, ?_⟩
  unfold verifyApiKey at h
  split at h
  · cases h
  · split at h
    · cases h
    · split at h
      · cases h
      · cases h
      · next hcheck =>
        obtain rfl := Except.ok.inj h
        exact hcheck

theorem verifyApiKey_refuses {key : ApiKey} {servers : List Server} {r : Response}
    (h : verifyApiKey cr key servers = .error r) : r = .unauthorized ∨ r = .serverError := by
  unfold verifyApiKey at h
  split at h
  · exact Or.inl (Except.error.inj h).symm
  · split at h
    · exact Or.inl (Except.error.inj h).symm
    · split at h
      · exact Or.inr (Except.error.inj h).symm
      · exact Or.inl (Except.error.inj h).symm
      · cases h

/- Every row is still there with its id and hash. -/
def HashesKept (s s' : Fleet.Sys) : Prop :=
  ∀ r ∈ s.servers, ∃ r' ∈ s'.servers, r'.id = r.id ∧ r'.apiKeyHash = r.apiKeyHash

theorem HashesKept.opens {s s' : Fleet.Sys} (h : HashesKept s s') {key : ApiKey}
    (ho : Opens cr s.servers key) : Opens cr s'.servers key := by
  obtain ⟨r, hr, hid, hcheck⟩ := ho
  obtain ⟨r', hr', hid', hhash⟩ := h r hr
  exact ⟨r', hr', hid'.trans hid, hhash ▸ hcheck⟩

theorem HashesKept.same {s s' : Fleet.Sys} (h : s'.servers = s.servers) : HashesKept s s' :=
  fun r hr => ⟨r, h ▸ hr, rfl, rfl⟩

theorem HashesKept.mapped {s s' : Fleet.Sys} {f : Server → Server}
    (hf : ∀ r, (f r).id = r.id ∧ (f r).apiKeyHash = r.apiKeyHash)
    (h : s'.servers = s.servers.map f) : HashesKept s s' := by
  intro r hr
  exact ⟨f r, h ▸ List.mem_map_of_mem hr, hf r⟩

theorem HashesKept.updated {s s' : Fleet.Sys} {id : ℕ} (f : Server → Server)
    (hf : ∀ r, (f r).id = r.id ∧ (f r).apiKeyHash = r.apiKeyHash)
    (h : s'.servers = updateServer id f s.servers) : HashesKept s s' := by
  refine .mapped (fun r => ?_) h
  split
  · exact hf r
  · exact ⟨rfl, rfl⟩

theorem heartbeat_hashes (threshold : Instant) (s : Fleet.Sys) :
    HashesKept s (runHeartbeatCheck threshold s) := by
  have hf : ∀ r, (reactivate threshold (deactivate threshold r)).id = r.id ∧
      (reactivate threshold (deactivate threshold r)).apiKeyHash = r.apiKeyHash := by
    intro r
    unfold reactivate deactivate
    split <;> split <;> exact ⟨rfl, rfl⟩
  exact .mapped hf (List.map_map ..)

theorem opens_rotated {id : ℕ} {hash : String} {servers : List Server} {key : ApiKey} :
    Opens cr (updateServer id (fun r => { r with apiKeyHash := hash }) servers) key →
    key.serverId = id → cr.checkpw key.secret hash = some true := by
  rintro ⟨r, hr, hid, hcheck⟩ hkey
  obtain ⟨q, hq, rfl⟩ := List.mem_map.mp hr
  by_cases hq' : q.id = id
  · rw [if_pos hq'] at hcheck
    exact hcheck
  · rw [if_neg hq'] at hid
    exact absurd (hid.trans hkey) hq'

theorem Opens.rotated {id : ℕ} {hash : String} {servers : List Server} {key : ApiKey}
    (h : Opens cr servers key) (hnew : key.serverId = id → cr.checkpw key.secret hash = some true) :
    Opens cr (updateServer id (fun r => { r with apiKeyHash := hash }) servers) key := by
  obtain ⟨r, hr, hid, hcheck⟩ := h
  refine ⟨_, List.mem_map_of_mem hr, ?_⟩
  by_cases hr' : r.id = id
  · rw [if_pos hr']
    exact ⟨hid, hnew (hid.symm.trans hr')⟩
  · rw [if_neg hr']
    exact ⟨hid, hcheck⟩

/-! ### Requests -/

/- A request is refused whenever its key does not open, in every state. -/
theorem posts_shut {s t : Sys} {i : ℕ} {key : ApiKey} {body : Submission}
    (hs : step cr s (.fleet (.verify i key body)) = some t)
    (hshut : ¬ Opens cr s.fleet.servers key) :
    ∃ r, (r = .unauthorized ∨ r = .serverError) ∧ t = { s with fleet := s.fleet.answer i r } := by
  obtain ⟨fleet, hf, rfl⟩ := Option.map_eq_some_iff.mp hs
  simp only [Fleet.step] at hf
  split at hf
  · split at hf
    · next r hr =>
      obtain rfl := Option.some.inj hf
      exact ⟨r, verifyApiKey_refuses hr, rfl⟩
    · next server hserver => exact absurd (verifyApiKey_opens hserver) hshut
  · cases hf

/-! ### Connections -/

theorem put_self (s : Sys) (c : ℕ) (connection : Connection) :
    (s.put c connection).connections c = connection := Function.update_self _ _ _

theorem put_other (s : Sys) {c c' : ℕ} (h : c' ≠ c) (connection : Connection) :
    (s.put c connection).connections c' = s.connections c' := Function.update_of_ne h _ _

section
variable {ch : Channel} {k : Caller}

/- The call of `flush()` that the handler makes inside its loop is the one of `size`. -/
theorem inLoop_of_call {f : Flush} (hf : ch.flushOf k = some f) (hk : k = .size) :
    inLoop ch.handler = true := by
  subst hk
  cases hm : ch.handler <;> simp_all [Channel.flushOf, inLoop]

theorem listening_suspend {f : Flush} (h : Listening (ch.suspend k f)) :
    (inLoop ch.handler = true ∨ k = .size) ∧ ch.expired = false := by
  cases k with
  | periodic => exact ⟨Or.inl h.1, h.2⟩
  | size => exact ⟨Or.inr rfl, h.2⟩
  | final => cases h.1

theorem listening_resume (h : Listening (ch.resume k)) :
    (inLoop ch.handler = true ∨ k = .size) ∧ ch.expired = false := by
  cases k with
  | periodic => exact ⟨Or.inl h.1, h.2⟩
  | size => exact ⟨Or.inr rfl, h.2⟩
  | final => cases h.1

theorem escape_expired : (ch.escape k).expired = ch.expired := by cases k <;> rfl

theorem listening_takeBatch (h : Listening (ch.takeBatch k)) :
    (inLoop ch.handler = true ∨ k = .size) ∧ ch.expired = false := by
  unfold Channel.takeBatch at h
  split at h
  · exact listening_resume h
  · have hs := listening_suspend h
    exact hs

theorem listening_startFlush (h : Listening (ch.startFlush k)) :
    (inLoop ch.handler = true ∨ k = .size) ∧ ch.expired = false := by
  unfold Channel.startFlush at h
  split at h
  · exact listening_takeBatch h
  · have hs := listening_suspend h
    exact hs

end

/- Neither the loop is entered again once it has been left, nor the row read again. -/
theorem listening_step {ch ch' : Channel} {l : LogChannel.Label}
    (hs : LogChannel.step ch l = some ch') (h : Listening ch') : Listening ch := by
  cases step_turn hs with
  | receive line hm hread => exact ⟨by simp [hm, inLoop], hread⟩
  | dropped line hm => cases h.1
  | full hm hfull =>
    obtain ⟨-, hexp⟩ := listening_startFlush h
    exact ⟨by simp [hm, inLoop], hexp⟩
  | broadcasted hm hroom => exact ⟨by simp [hm, inLoop], h.2⟩
  | disconnect hm => cases h.1
  | wake hp hrun =>
    obtain ⟨hloop, hexp⟩ := listening_startFlush h
    exact ⟨hloop.resolve_right (by decide), hexp⟩
  | acquired k ws hf hw hfree hrun =>
    obtain ⟨hloop, hexp⟩ := listening_takeBatch h
    exact ⟨hloop.elim id fun hk => inLoop_of_call hf hk, hexp⟩
  | committed k items hf hrun =>
    obtain ⟨hloop, hexp⟩ := listening_resume h
    exact ⟨hloop.elim id fun hk => inLoop_of_call hf hk, hexp⟩
  | commitFailed k failure items hf hrun =>
    obtain ⟨hloop, hexp⟩ := listening_suspend h
    exact ⟨hloop.elim id fun hk => inLoop_of_call hf hk, (Bool.or_eq_false_iff.mp hexp).1⟩
  | rolledBack k hf hrun => cases (listening_resume h).2
  | rollbackRaised k hf hrun => cases (escape_expired.symm.trans h.2)
  | cancelled applied d hm hd =>
    obtain ⟨hsame, -, -⟩ := deliverCancel_ends hd
    simp [Listening, hsame, hm, inLoop] at h
  | joined hm hp =>
    obtain ⟨hloop, hexp⟩ := listening_startFlush h
    exact ⟨hloop.resolve_right (by decide), hexp⟩
  | joinRaised hm hp => cases h.1

/- A line is buffered by a listening connection only. -/
theorem receive_listening {ch ch' : Channel} {line : String}
    (hs : LogChannel.step ch (.receive line) = some ch') (hbuf : ch'.buffer ≠ ch.buffer) :
    Listening ch := by
  cases step_turn hs with
  | receive line hm hread => exact ⟨by simp [hm, inLoop], hread⟩
  | dropped line hm => exact absurd rfl hbuf

namespace Shut

theorem start (now : Instant) : Shut cr (start now) where
  posts _ _ _ _ := posts_shut
  lines _ _ _ h _ := by cases h

theorem put {s : Sys} (h : Shut cr s) {c : ℕ} {connection : Connection}
    (hc : ∀ key channel, connection = .streaming key channel → Listening channel →
      Opens cr s.fleet.servers key) : Shut cr (s.put c connection) where
  posts _ _ _ _ := posts_shut
  lines c' key channel hstream hl := by
    by_cases hcc : c' = c
    · subst hcc
      rw [put_self] at hstream
      exact hc key channel hstream hl
    · rw [put_other s hcc] at hstream
      exact h.lines c' key channel hstream hl

theorem step {s t : Sys} {l : Label} (h : Shut cr s) (hok : Timely cr s l)
    (hs : step cr s l = some t) : Shut cr t := by
  cases l with
  | fleet l =>
    obtain ⟨fleet, hf, rfl⟩ := Option.map_eq_some_iff.mp hs
    refine ⟨fun _ _ _ _ => posts_shut, fun c key channel hstream hl => ?_⟩
    have hopen := h.lines c key channel hstream hl
    cases step_written hf with
    | same hservers => exact (HashesKept.same hservers).opens hopen
    | registered r hid howner hactive hservers =>
      have hkept : HashesKept s.fleet fleet := fun q hq =>
        ⟨q, hservers ▸ List.mem_cons_of_mem r hq, rfl, rfl⟩
      exact hkept.opens hopen
    | stored id startedAt version hservers =>
      exact (HashesKept.updated (sighted startedAt version) (fun _ => ⟨rfl, rfl⟩)
        hservers).opens hopen
    | paused id value hservers =>
      exact (HashesKept.updated (fun r => { r with paused := value }) (fun _ => ⟨rfl, rfl⟩)
        hservers).opens hopen
    | checked startedAt hle => exact (heartbeat_hashes _ _).opens hopen
    | rotated server secret salt hash hi hh hservers =>
      show Opens cr fleet.servers key
      rw [hservers]
      exact hopen.rotated (hok server secret salt hash hi hh c key channel hstream hl)
  | connect c key =>
    simp only [KeyRotation.step] at hs
    split at hs
    · split at hs
      · obtain rfl := Option.some.inj hs
        exact h.put fun _ _ hc => by cases hc
      · obtain rfl := Option.some.inj hs
        exact h.put fun _ _ hc => by cases hc
    · cases hs
  | accepted c =>
    simp only [KeyRotation.step] at hs
    split at hs
    · next key server hc =>
      obtain rfl := Option.some.inj hs
      refine h.put fun key' channel hstream _ => ?_
      cases hstream
      exact hok key server hc
    · cases hs
  | channel c l =>
    simp only [KeyRotation.step] at hs
    split at hs
    · next key channel hc =>
      obtain ⟨channel', hch, rfl⟩ := Option.map_eq_some_iff.mp hs
      refine h.put fun key' channel'' hstream hl => ?_
      cases hstream
      exact h.lines c key channel hc (listening_step hch hl)
    · cases hs

/- A line that a shut system takes comes from a holder of the present key. -/
theorem line {s : Sys} (h : Shut cr s) {c : ℕ} {line : String} {key : ApiKey}
    {channel channel' : Channel} (hc : s.connections c = .streaming key channel)
    (hs : LogChannel.step channel (.receive line) = some channel')
    (hbuf : channel'.buffer ≠ channel.buffer) : Opens cr s.fleet.servers key :=
  h.lines c key channel hc (receive_listening hs hbuf)

end Shut

/- A late rotation or acceptance leaves an old key listening. -/
theorem untimely_step {s : Sys} {l : Label} (hn : ¬ Timely cr s l) :
    ∃ t, step cr s l = some t ∧ ¬ Shut cr t := by
  cases l with
  | fleet l =>
    cases l with
    | save i =>
      simp only [Timely, not_forall] at hn
      obtain ⟨server, secret, salt, hash, hi, hh, c, key, channel, hstream, hl, hid, hcheck⟩ := hn
      refine ⟨_, by simp only [step, Fleet.step, hi, hh, Option.map_some]; rfl, fun hshut => ?_⟩
      exact hcheck (opens_rotated (hshut.lines c key channel hstream hl) hid)
    | _ => exact absurd trivial hn
  | accepted c =>
    simp only [Timely, not_forall] at hn
    obtain ⟨key, server, hc, hopen⟩ := hn
    refine ⟨s.put c (.streaming key (opened server.id)), by simp [step, hc], fun hshut => ?_⟩
    refine hopen (hshut.lines c key (opened server.id) (put_self s c _) ⟨rfl, rfl⟩)
  | connect c key => exact absurd trivial hn
  | channel c l => exact absurd trivial hn

/- In a run nothing is ever taken under an old key exactly when no rotation is
committed under a log connection with another key, and no connection is accepted
after the rotation of its key. -/
theorem old_keys_shut_iff_timely (cr : Crypto) (now : Instant) (ls : List Label) :
    Runs.Throughout (step cr) (Shut cr) (start now) ls ↔
      Runs.Along (step cr) (Timely cr) (start now) ls := by
  constructor
  · exact Runs.along_of_throughout (fun _ => True) (Shut cr) (Timely cr)
      (fun _ _ _ _ _ => trivial) (fun _ _ _ hn => untimely_step hn) trivial
  · exact Runs.throughout_of_invariant (Shut cr) (Shut cr) (Timely cr)
      (fun _ _ _ h hok hs => h.step hok hs) (fun _ h => h) (Shut.start now)

end

/- An agent streams under its first key while the owner rotates it. -/
def rotatedUnderStream : List Label :=
  [.fleet (.register 0 1 "web" "old-secret" "$2b$12$OldOldOldOldOldOldOldu"),
    .connect 0 ⟨1, "old-secret"⟩, .accepted 0,
    .fleet (.load 1 1 1 (.apiKey "new-secret" "$2b$12$NewNewNewNewNewNewNewu")), .fleet (.save 1)]

/- A line it sends, and the next flush. -/
def lineAfterwards : List Label :=
  [.channel 0 (.receive "still here"), .channel 0 .broadcasted, .channel 0 .wake,
    .channel 0 (.committed .periodic)]

theorem old_key_streams_on :
    ∃ s t channel, Runs.run (step tabledCrypto) (start 0) rotatedUnderStream = some s ∧
      s.fleet.requests 1 = .answered .ok ∧
      ¬ Opens tabledCrypto s.fleet.servers ⟨1, "old-secret"⟩ ∧ ¬ Shut tabledCrypto s ∧
      Runs.run (step tabledCrypto) s lineAfterwards = some t ∧
      t.connections 0 = .streaming ⟨1, "old-secret"⟩ channel ∧
      channel.logs = [⟨0, 1, "still here"⟩] := by
  refine ⟨_, _, _, rfl, rfl, ?_, ?_, rfl, rfl, rfl⟩
  · rintro ⟨r, hr, -, hcheck⟩
    obtain rfl := List.mem_singleton.mp hr
    exact absurd hcheck (by decide)
  · intro h
    obtain ⟨r, hr, -, hcheck⟩ := h.lines 0 _ _ rfl ⟨rfl, rfl⟩
    obtain rfl := List.mem_singleton.mp hr
    exact absurd hcheck (by decide)

end PulseWatch.KeyRotation
