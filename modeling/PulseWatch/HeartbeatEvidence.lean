import PulseWatch.Heartbeat

/-!
# What the heartbeat knows

`last_seen_at` is the receipt time of the submission stored last. A submission
answered "paused", one still in flight and one the database refuses are received
from a live agent and leave it where it is. Beside the machine stand the
submissions received with a valid key and those stored, latest first; in
their terms the runs in which nobody is reported down wrongly are described
exactly.
-/

namespace PulseWatch.Fleet

structure Receipt where
  serverId : ℕ
  time : Instant
  deriving DecidableEq, Repr

structure Tracked where
  sys : Sys
  received : List Receipt
  stored : List Receipt

def Tracked.start (now : Instant) : Tracked := ⟨init now, [], []⟩

/- Receipt time of the submission of this server stored last. -/
def Tracked.lastStored (t : Tracked) (id : ℕ) : Option Instant :=
  (t.stored.find? fun p => p.serverId = id).map Receipt.time

section
variable (cr : Crypto)

/- A submission is received when its key is accepted, whatever comes of it. -/
def Tracked.note (t : Tracked) (s' : Sys) : Label → Tracked
  | .verify _ key _ =>
    match verifyApiKey cr key t.sys.servers with
    | .ok server => ⟨s', ⟨server.id, t.sys.now⟩ :: t.received, t.stored⟩
    | .error _ => ⟨s', t.received, t.stored⟩
  | .store i =>
    match t.sys.requests i, s'.requests i with
    | .verified server startedAt _, .answered .created =>
      ⟨s', t.received, ⟨server.id, startedAt⟩ :: t.stored⟩
    | _, _ => ⟨s', t.received, t.stored⟩
  | _ => ⟨s', t.received, t.stored⟩

def Tracked.step (t : Tracked) (l : Label) : Option Tracked :=
  (Fleet.step cr t.sys l).map fun s' => t.note cr s' l

/- From `s` to `s'` the server is switched off or its owner is told it is down. -/
def Downed (s s' : Sys) (id : ℕ) : Prop :=
  ((∃ r ∈ s.servers, r.id = id ∧ r.isActive = true) ∧
    ∃ r ∈ s'.servers, r.id = id ∧ r.isActive = false) ∨
  s.tasks.count (.sendHeartbeatDown id) < s'.tasks.count (.sendHeartbeatDown id)

/- Nothing was received in the last five minutes from a server reported down. -/
def Justified (t : Tracked) : Label → Prop
  | .heartbeat startedAt => ∀ s', Fleet.step cr t.sys (.heartbeat startedAt) = some s' →
      ∀ id, Downed t.sys s' id → ∀ p ∈ t.received, p.serverId = id →
        p.time < heartbeatThreshold startedAt
  | _ => True

end

/- A heartbeat run finds every active unpaused server that sent something in the
last five minutes, and ever had something stored, with the last stored one sent in
these five minutes. -/
def Evident (t : Tracked) : Label → Prop
  | .heartbeat startedAt => startedAt ≤ t.sys.now →
      ∀ r ∈ t.sys.servers, r.isActive = true → r.paused = false →
        (∃ p ∈ t.received, p.serverId = r.id ∧ heartbeatThreshold startedAt ≤ p.time) →
        ∀ last, t.lastStored r.id = some last → heartbeatThreshold startedAt ≤ last
  | _ => True

/-! ### What a heartbeat run reports -/

theorem overdue_iff (threshold : Instant) (r : Server) :
    overdue threshold r = true ↔
      ∃ seen, r.lastSeenAt = some seen ∧ seen < threshold ∧ r.isActive = true ∧
        r.paused = false := by
  unfold overdue
  cases r.lastSeenAt with
  | none => simp
  | some seen => simp [and_assoc]

theorem deactivate_seen (threshold : Instant) (r : Server) :
    (deactivate threshold r).lastSeenAt = r.lastSeenAt := by
  unfold deactivate
  split <;> rfl

theorem reactivate_seen (threshold : Instant) (r : Server) :
    (reactivate threshold r).lastSeenAt = r.lastSeenAt := by
  unfold reactivate
  split <;> rfl

theorem downed_iff {s : Sys} (h : Registered s) (threshold : Instant) (id : ℕ) :
    Downed s (runHeartbeatCheck threshold s) id ↔
      ∃ r ∈ s.servers, r.id = id ∧ overdue threshold r = true := by
  constructor
  · rintro (⟨⟨r, hr, rfl, hon⟩, q', hq', hid, hoff⟩ | hcount)
    · obtain ⟨q, hq, rfl⟩ := List.mem_map.mp hq'
      obtain ⟨p, hp, rfl⟩ := List.mem_map.mp hq
      rw [reactivate_id, deactivate_id] at hid
      obtain rfl := List.inj_on_of_nodup_map h.ids hp hr hid
      refine ⟨p, hp, rfl, ?_⟩
      by_contra hn
      rw [deactivate_active (Bool.not_eq_true _ ▸ hn), reactivate_active hon] at hoff
      cases hoff
    · have hmem : HeartbeatTask.sendHeartbeatDown id ∈
          (s.servers.filter (overdue threshold)).map fun r => .sendHeartbeatDown r.id := by
        by_contra hn
        have hzero := List.count_eq_zero_of_not_mem hn
        have hup : (((s.servers.map (deactivate threshold)).filter (recovered threshold)).map
            fun r => HeartbeatTask.sendHeartbeatRecovery r.id).count
              (.sendHeartbeatDown id) = 0 := by
          refine List.count_eq_zero_of_not_mem ?_
          simp
        simp only [runHeartbeatCheck, List.count_append, hzero, hup] at hcount
        omega
      obtain ⟨r, hr, hrid⟩ := List.mem_map.mp hmem
      obtain ⟨hr, hover⟩ := List.mem_filter.mp hr
      exact ⟨r, hr, HeartbeatTask.sendHeartbeatDown.inj hrid, hover⟩
  · rintro ⟨r, hr, rfl, hover⟩
    refine Or.inr ?_
    have hmem : HeartbeatTask.sendHeartbeatDown r.id ∈
        (s.servers.filter (overdue threshold)).map fun r => .sendHeartbeatDown r.id :=
      List.mem_map_of_mem (List.mem_filter.mpr ⟨hr, hover⟩)
    have hpos := List.count_pos_iff.mpr hmem
    simp only [runHeartbeatCheck, List.count_append]
    omega

/-! ### `last_seen_at` is the receipt time of what was stored last -/

/- Requests in flight and stored submissions belong to registered servers. -/
structure Seen (t : Tracked) : Prop where
  registered : Registered t.sys
  rows : ∀ r ∈ t.sys.servers, r.lastSeenAt = t.lastStored r.id
  below : ∀ p ∈ t.stored, p.serverId < t.sys.nextServer
  pending : ∀ i server startedAt body, t.sys.requests i = .verified server startedAt body →
    server.id < t.sys.nextServer

theorem verifyApiKey_mem {cr : Crypto} {key : ApiKey} {servers : List Server} {server : Server}
    (h : verifyApiKey cr key servers = .ok server) :
    server ∈ servers ∧ server.id = key.serverId := by
  unfold verifyApiKey at h
  split at h
  · cases h
  · next found hf =>
    split at h
    · cases h
    · split at h
      · cases h
      · cases h
      · obtain rfl := Except.ok.inj h
        have hid := List.find?_some hf
        exact ⟨List.mem_of_find?_eq_some hf, by simpa using hid⟩

namespace Seen

theorem start (now : Instant) : Seen (Tracked.start now) where
  registered := Registered.init now
  rows := by intro r hr; cases hr
  below := by intro p hp; cases hp
  pending := by intro i server startedAt body hi; cases hi

variable {cr : Crypto} {t : Tracked} {s' : Sys}

/- A row that is kept or changed in place keeps its id and its last sighting. -/
theorem same (h : Seen t) (hreg : Registered s') {received : List Receipt}
    (hnext : s'.nextServer = t.sys.nextServer)
    (hrows : ∀ r ∈ s'.servers, ∃ q ∈ t.sys.servers, q.id = r.id ∧ q.lastSeenAt = r.lastSeenAt)
    (hpend : ∀ i server startedAt body, s'.requests i = .verified server startedAt body →
      t.sys.requests i = .verified server startedAt body ∨ server ∈ t.sys.servers) :
    Seen ⟨s', received, t.stored⟩ := by
  refine ⟨hreg, ?_, ?_, ?_⟩
  · intro r hr
    obtain ⟨q, hq, hid, hseen⟩ := hrows r hr
    rw [← hseen, h.rows q hq, hid]
    rfl
  · intro p hp
    exact hnext ▸ h.below p hp
  · intro i server startedAt body hi
    show server.id < s'.nextServer
    rw [hnext]
    rcases hpend i server startedAt body hi with hold | hrow
    · exact h.pending i server startedAt body hold
    · exact h.registered.below _ (List.mem_map_of_mem hrow)

/- One request moves on and rows keep what they were last seen by. -/
theorem moved (h : Seen t) (hreg : Registered s') {i : ℕ} {q : Request} {received : List Receipt}
    (hreq : s'.requests = Function.update t.sys.requests i q)
    (hnext : s'.nextServer = t.sys.nextServer)
    (hrows : ∀ r ∈ s'.servers, ∃ q ∈ t.sys.servers, q.id = r.id ∧ q.lastSeenAt = r.lastSeenAt)
    (hq : ∀ server startedAt body, q = .verified server startedAt body →
      server ∈ t.sys.servers) : Seen ⟨s', received, t.stored⟩ := by
  refine h.same hreg hnext hrows ?_
  intro x server startedAt body hx
  rw [hreq] at hx
  by_cases hxi : x = i
  · subst hxi
    rw [Function.update_self] at hx
    exact Or.inr (hq server startedAt body hx)
  · rw [Function.update_of_ne hxi] at hx
    exact Or.inl hx

theorem answered (h : Seen t) {i : ℕ} {q : Response} {received : List Receipt}
    (hreg : Registered (t.sys.answer i q)) : Seen ⟨t.sys.answer i q, received, t.stored⟩ :=
  h.moved hreg rfl rfl (fun r hr => ⟨r, hr, rfl, rfl⟩) fun _ _ _ he => by cases he

theorem edited (h : Seen t) {i id : ℕ} {q : Response} {f : Server → Server}
    {secrets : ℕ → Option String}
    (hreg : Registered { t.sys.answer i q with
      servers := updateServer id f t.sys.servers, secrets := secrets })
    (hf : ∀ r, (f r).id = r.id ∧ (f r).lastSeenAt = r.lastSeenAt) :
    Seen ⟨{ t.sys.answer i q with servers := updateServer id f t.sys.servers
                                  secrets := secrets }, t.received, t.stored⟩ := by
  refine h.moved hreg rfl rfl ?_ fun _ _ _ he => by cases he
  intro r hr
  obtain ⟨p, hp, rfl | rfl⟩ := mem_updateServer hr
  · exact ⟨p, hp, (hf p).1.symm, (hf p).2.symm⟩
  · exact ⟨r, hp, rfl, rfl⟩

/- A new id has no stored submission. -/
theorem registering (h : Seen t) {i : ℕ} {q : Response} {r : Server} {secrets : ℕ → Option String}
    (hreg : Registered { t.sys.answer i q with
      servers := r :: t.sys.servers, nextServer := t.sys.nextServer + 1, secrets := secrets })
    (hid : r.id = t.sys.nextServer) (hseen : r.lastSeenAt = none) :
    Seen ⟨{ t.sys.answer i q with servers := r :: t.sys.servers
                                  nextServer := t.sys.nextServer + 1
                                  secrets := secrets }, t.received, t.stored⟩ := by
  refine ⟨hreg, ?_, ?_, ?_⟩
  · intro p hp
    rcases List.mem_cons.mp hp with rfl | hp
    · have hnone : t.stored.find? (fun q => q.serverId = p.id) = none := by
        refine List.find?_eq_none.mpr ?_
        intro q hq hqe
        have hlt := h.below q hq
        have he : q.serverId = p.id := of_decide_eq_true hqe
        omega
      rw [hseen]
      simp [Tracked.lastStored, hnone]
    · exact h.rows p hp
  · intro p hp
    exact (h.below p hp).trans (Nat.lt_succ_self _)
  · intro x server startedAt body hx
    by_cases hxi : x = i
    · subst hxi
      have hself : (t.sys.answer x q).requests x = .answered q := Function.update_self _ _ _
      cases hself.symm.trans hx
    · have hother : (t.sys.answer i q).requests x = t.sys.requests x :=
        Function.update_of_ne hxi _ _
      exact (h.pending x server startedAt body (hother.symm.trans hx)).trans (Nat.lt_succ_self _)

/- The committed submission becomes what its server was last seen by. -/
theorem submitted (h : Seen t) {i : ℕ} {server : Server} {startedAt : Instant}
    {body : Submission} {s₁ : Sys} (hreg : Registered (s₁.answer i .created))
    (hi : t.sys.requests i = .verified server startedAt body)
    (hs : storeSubmission t.sys server startedAt body = some s₁) :
    Seen ⟨s₁.answer i .created, t.received, ⟨server.id, startedAt⟩ :: t.stored⟩ := by
  obtain ⟨version, hservers, hnext, -, hreq⟩ := storeSubmission_row hs
  have hbelow := h.pending i server startedAt body hi
  refine ⟨hreg, ?_, ?_, ?_⟩
  · intro r hr
    have hr' : r ∈ s₁.servers := hr
    rw [hservers] at hr'
    obtain ⟨q, hq, rfl⟩ := List.mem_map.mp hr'
    show (if q.id = server.id then sighted startedAt version q else q).lastSeenAt = _
    by_cases hq' : q.id = server.id
    · rw [if_pos hq']
      simp [Tracked.lastStored, sighted, hq']
    · rw [if_neg hq', h.rows q hq]
      have hne : ¬ server.id = q.id := Ne.symm hq'
      simp [Tracked.lastStored, hne]
  · intro p hp
    show p.serverId < s₁.nextServer
    rw [hnext]
    rcases List.mem_cons.mp hp with rfl | hp
    · exact hbelow
    · exact h.below p hp
  · intro x v at' b hx
    show v.id < s₁.nextServer
    rw [hnext]
    by_cases hxi : x = i
    · subst hxi
      have hself : (s₁.answer x .created).requests x = .answered .created :=
        Function.update_self _ _ _
      cases hself.symm.trans hx
    · have hother : (s₁.answer i .created).requests x = s₁.requests x :=
        Function.update_of_ne hxi _ _
      exact h.pending x v at' b (by rw [← hreq]; exact hother.symm.trans hx)

theorem step {l : Label} {t' : Tracked} (h : Seen t) (hs : t.step cr l = some t') : Seen t' := by
  obtain ⟨s', hs', rfl⟩ := Option.map_eq_some_iff.mp hs
  have hreg := h.registered.step hs'
  cases l with
  | tick us =>
    obtain rfl := Option.some.inj hs'
    exact h.same hreg rfl (fun r hr => ⟨r, hr, rfl, rfl⟩) fun _ _ _ _ hi => Or.inl hi
  | register i ownerId name secret salt =>
    simp only [Fleet.step] at hs'
    split at hs'
    · split at hs'
      · split at hs'
        · obtain rfl := Option.some.inj hs'
          exact h.answered hreg
        · obtain rfl := Option.some.inj hs'
          exact h.registering hreg rfl rfl
      · obtain rfl := Option.some.inj hs'
        exact h.answered hreg
    · cases hs'
  | verify i key body =>
    simp only [Fleet.step] at hs'
    split at hs'
    · split at hs'
      · next r hv =>
        obtain rfl := Option.some.inj hs'
        simp only [Tracked.note, hv]
        exact h.answered hreg
      · next server hv =>
        obtain rfl := Option.some.inj hs'
        simp only [Tracked.note, hv]
        split at hreg
        · next hp =>
          rw [if_pos hp]
          exact h.answered hreg
        · next hp =>
          rw [if_neg hp]
          refine h.moved hreg rfl rfl (fun r hr => ⟨r, hr, rfl, rfl⟩) ?_
          intro v startedAt b he
          obtain rfl := (Request.verified.inj he).1
          exact (verifyApiKey_mem hv).1
    · cases hs'
  | store i =>
    simp only [Fleet.step] at hs'
    split at hs'
    · next server startedAt body hi =>
      split at hs'
      · next s₁ hstore =>
        obtain rfl := Option.some.inj hs'
        have hself : (s₁.answer i .created).requests i = .answered .created :=
          Function.update_self _ _ _
        simp only [Tracked.note, hi, hself]
        exact h.submitted hreg hi hstore
      · obtain rfl := Option.some.inj hs'
        have hself : (t.sys.answer i .serverError).requests i = .answered .serverError :=
          Function.update_self _ _ _
        simp only [Tracked.note, hi, hself]
        exact h.answered hreg
    · cases hs'
  | load i ownerId serverId edit =>
    simp only [Fleet.step] at hs'
    split at hs'
    · split at hs'
      · obtain rfl := Option.some.inj hs'
        exact h.answered hreg
      · obtain rfl := Option.some.inj hs'
        exact h.moved hreg rfl rfl (fun r hr => ⟨r, hr, rfl, rfl⟩) fun _ _ _ he => by cases he
    · cases hs'
  | save i =>
    simp only [Fleet.step] at hs'
    split at hs'
    · split at hs'
      · obtain rfl := Option.some.inj hs'
        exact h.answered hreg
      · obtain rfl := Option.some.inj hs'
        exact h.edited hreg fun _ => ⟨rfl, rfl⟩
    · split at hs'
      · obtain rfl := Option.some.inj hs'
        exact h.edited hreg fun _ => ⟨rfl, rfl⟩
      · obtain rfl := Option.some.inj hs'
        exact h.answered hreg
    · cases hs'
  | heartbeat startedAt =>
    simp only [Fleet.step] at hs'
    split at hs'
    · obtain rfl := Option.some.inj hs'
      refine h.same hreg rfl ?_ fun _ _ _ _ hi => Or.inl hi
      intro r hr
      obtain ⟨q, hq, rfl⟩ := List.mem_map.mp hr
      obtain ⟨p, hp, rfl⟩ := List.mem_map.mp hq
      exact ⟨p, hp, by rw [reactivate_id, deactivate_id], by rw [reactivate_seen, deactivate_seen]⟩
    · cases hs'

end Seen

/-! ### Reports in a whole run -/

section
variable {cr : Crypto} {t : Tracked}

theorem justified_iff_evident (h : Seen t) (l : Label) : Justified cr t l ↔ Evident t l := by
  cases l with
  | heartbeat startedAt =>
    constructor
    · rintro hj hle r hr hon hpaused ⟨p, hp, hid, hin⟩ last hlast
      by_contra hout
      have hover : overdue (heartbeatThreshold startedAt) r = true := by
        rw [overdue_iff]
        exact ⟨last, (h.rows r hr).trans hlast, not_le.mp hout, hon, hpaused⟩
      have hdown := (downed_iff h.registered (heartbeatThreshold startedAt) r.id).mpr
        ⟨r, hr, rfl, hover⟩
      exact absurd (hj _ (if_pos hle) r.id hdown p hp hid) (not_lt.mpr hin)
    · intro he s' hs' id hdown p hp hid
      simp only [step] at hs'
      split at hs'
      · next hle =>
        obtain rfl := Option.some.inj hs'
        obtain ⟨r, hr, rfl, hover⟩ := (downed_iff h.registered _ id).mp hdown
        obtain ⟨seen, hseen, hlt, hon, hpaused⟩ := (overdue_iff _ r).mp hover
        by_contra hin
        have hlast : t.lastStored r.id = some seen := (h.rows r hr).symm.trans hseen
        have hle' := he hle r hr hon hpaused ⟨p, hp, hid, not_lt.mp hin⟩ seen hlast
        exact absurd hlt (not_lt.mpr hle')
      · cases hs'
  | tick | register | verify | store | load | save => exact Iff.rfl

/- In a run every report of a server as down is justified exactly when every
heartbeat run finds the servers that sent something evidently alive. -/
theorem reports_justified_iff_evident (cr : Crypto) (now : Instant) (ls : List Label) :
    Runs.Along (Tracked.step cr) (Justified cr) (Tracked.start now) ls ↔
      Runs.Along (Tracked.step cr) Evident (Tracked.start now) ls :=
  Runs.along_congr Seen (fun _ _ _ h hs => h.step hs)
    (fun _ l h => justified_iff_evident h l) (Seen.start now)

end

/- A server sends one sample; its owner pauses it for the next one, sent five and
a half minutes later, and resumes it. -/
def pausedSample : List Label :=
  [.register 0 1 "web" "pwk_agent" "$2b$12$KeyKeyKeyKeyKeyKeyKeyu",
    .verify 1 ⟨1, "pwk_agent"⟩ (.metric ⟨.fin 10, .fin 20, .fin 30, none⟩), .store 1,
    .load 2 1 1 (.paused true), .save 2, .tick 330000000,
    .verify 3 ⟨1, "pwk_agent"⟩ (.metric ⟨.fin 10, .fin 20, .fin 30, none⟩),
    .load 4 1 1 (.paused false), .save 4, .tick 30000000]

theorem down_after_resume :
    ∃ t s', Runs.run (Tracked.step tabledCrypto) (Tracked.start 0) pausedSample = some t ∧
      t.sys.now = 360000000 ∧ t.received = [⟨1, 330000000⟩, ⟨1, 0⟩] ∧
      step tabledCrypto t.sys (.heartbeat t.sys.now) = some s' ∧
      s'.tasks = [.sendHeartbeatDown 1] ∧ s'.servers.map Server.isActive = [false] ∧
      ¬ Justified tabledCrypto t (.heartbeat t.sys.now) := by
  refine ⟨_, _, rfl, rfl, by decide, rfl, by decide, by decide, ?_⟩
  intro h
  have hlate := h _ rfl 1 (Or.inr (by decide)) ⟨1, 330000000⟩ (by decide) rfl
  exact absurd hlate (by decide)

end PulseWatch.Fleet
