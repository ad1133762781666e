import PulseWatch.TelegramBot
import PulseWatch.Heartbeat

/-!
# Owners of servers and rules

A ledger of the database keeps ids and owners only: servers, rules, events and the
events about to be inserted. Every step of the alert machine is one of its moves,
and each of these keeps the owner of a rule that of its server; what the bot does to
the tables (a rule confirmed, a server deleted) has its own two operations.
-/

namespace PulseWatch.RuleLedger
open Alerts

structure RuleKey where
  id : ℕ
  serverId : ℕ
  ownerId : ℕ
  deriving DecidableEq, Repr

/- Servers are pairs of id and owner, events pairs of rule and server. -/
structure Ledger where
  servers : List (ℕ × ℕ)
  rules : List RuleKey
  events : List (ℕ × ℕ)
  pending : ℕ → List (ℕ × ℕ)
  nextServer : ℕ
  nextRule : ℕ

def serverKey (r : Server) : ℕ × ℕ := (r.id, r.ownerId)

def ruleKey (r : AlertRule) : RuleKey := ⟨r.id, r.serverId, r.ownerId⟩

def eventKey (e : AlertEvent) : ℕ × ℕ := (e.ruleId, e.serverId)

def pendingKeys : Evaluation → List (ℕ × ℕ)
  | .decided reading _ pending _ => pending.map fun p => (p.rule.id, reading.serverId)
  | _ => []

def ledger (s : Db) : Ledger where
  servers := s.fleet.servers.map serverKey
  rules := s.rules.map ruleKey
  events := s.events.map eventKey
  pending i := pendingKeys (s.evaluations i)
  nextServer := s.fleet.nextServer
  nextRule := s.nextRule

namespace Ledger

/- What the REST handlers, the ingest and the evaluations do to it. -/
inductive Move (g : Ledger) : Ledger → Prop where
  | shrunk (events : List (ℕ × ℕ)) (pending : ℕ → List (ℕ × ℕ)) (he : events ⊆ g.events)
      (hp : ∀ i, pending i ⊆ g.pending i) : Move g { g with events, pending }
  | registered (ownerId : ℕ) : Move g { g with
      servers := (g.nextServer, ownerId) :: g.servers, nextServer := g.nextServer + 1 }
  | created (serverId ownerId : ℕ) (own : (serverId, ownerId) ∈ g.servers) : Move g { g with
      rules := ⟨g.nextRule, serverId, ownerId⟩ :: g.rules, nextRule := g.nextRule + 1 }
  | removed (rules : List RuleKey) (events : List (ℕ × ℕ)) (hr : rules.Sublist g.rules)
      (he : events ⊆ g.events) : Move g { g with rules, events }
  | loaded (i : ℕ) (keys : List (ℕ × ℕ))
      (hk : ∀ k ∈ keys, ∃ r ∈ g.rules, r.id = k.1 ∧ r.serverId = k.2) :
      Move g { g with pending := Function.update g.pending i keys }
  | fired (i : ℕ) (rest : ℕ → List (ℕ × ℕ)) (hp : ∀ j, rest j ⊆ g.pending j) :
      Move g { g with events := g.pending i ++ g.events, pending := rest }

def confirm (g : Ledger) (serverId ownerId : ℕ) : Ledger :=
  { g with rules := ⟨g.nextRule, serverId, ownerId⟩ :: g.rules, nextRule := g.nextRule + 1 }

def dropServer (g : Ledger) (serverId : ℕ) (events : List (ℕ × ℕ)) : Ledger :=
  { g with
    servers := g.servers.filter fun r => r.1 ≠ serverId
    rules := g.rules.filter fun r => r.serverId ≠ serverId
    events }

/- Ids are unique and below their sequences, a rule's server exists, and an event has
the server of its rule. -/
structure Sound (g : Ledger) : Prop where
  serverIds : (g.servers.map Prod.fst).Nodup
  serverBelow : ∀ r ∈ g.servers, r.1 < g.nextServer
  ruleIds : (g.rules.map RuleKey.id).Nodup
  ruleBelow : ∀ r ∈ g.rules, r.id < g.nextRule
  housed : ∀ r ∈ g.rules, ∃ ownerId, (r.serverId, ownerId) ∈ g.servers
  about : ∀ i, ∀ k ∈ g.pending i, k.1 < g.nextRule ∧ ∀ r ∈ g.rules, r.id = k.1 → r.serverId = k.2
  shown : ∀ k ∈ g.events, k.1 < g.nextRule ∧ ∀ r ∈ g.rules, r.id = k.1 → r.serverId = k.2

def Owned (g : Ledger) : Prop := ∀ r ∈ g.rules, (r.serverId, r.ownerId) ∈ g.servers

section
variable {g g' : Ledger}

/- A key stays true when a rule with a new id is added. -/
theorem about_added {r : RuleKey} {k : ℕ × ℕ} (hid : r.id = g.nextRule)
    (h : k.1 < g.nextRule ∧ ∀ q ∈ g.rules, q.id = k.1 → q.serverId = k.2) :
    k.1 < g.nextRule + 1 ∧ ∀ q ∈ r :: g.rules, q.id = k.1 → q.serverId = k.2 := by
  refine ⟨by omega, fun q hq hk => ?_⟩
  rcases List.mem_cons.mp hq with rfl | hq
  · omega
  · exact h.2 q hq hk

theorem Sound.confirm (h : Sound g) {serverId ownerId owner : ℕ}
    (hs : (serverId, owner) ∈ g.servers) : Sound (g.confirm serverId ownerId) := by
  refine ⟨h.serverIds, h.serverBelow, ?_, fun r hr => ?_, fun r hr => ?_, fun i k hk => ?_,
    fun k hk => ?_⟩
  · refine List.nodup_cons.mpr ⟨fun hin => ?_, h.ruleIds⟩
    obtain ⟨r, hr, hid⟩ := List.mem_map.mp hin
    have hlt := h.ruleBelow r hr
    simp only at hid
    omega
  · show r.id < g.nextRule + 1
    rcases List.mem_cons.mp hr with rfl | hr
    · exact Nat.lt_succ_self _
    · have hlt := h.ruleBelow r hr
      omega
  · rcases List.mem_cons.mp hr with rfl | hr
    · exact ⟨owner, hs⟩
    · exact h.housed r hr
  · exact about_added rfl (h.about i k hk)
  · exact about_added rfl (h.shown k hk)

theorem Sound.dropServer (h : Sound g) (serverId : ℕ) {events : List (ℕ × ℕ)}
    (he : events ⊆ g.events) : Sound (g.dropServer serverId events) := by
  have hsub : ∀ {r}, r ∈ (g.dropServer serverId events).rules → r ∈ g.rules ∧
      r.serverId ≠ serverId := by
    intro r hr
    obtain ⟨hr, hne⟩ := List.mem_filter.mp hr
    exact ⟨hr, of_decide_eq_true hne⟩
  refine ⟨h.serverIds.sublist (List.filter_sublist.map _),
    fun r hr => h.serverBelow r (List.mem_of_mem_filter hr),
    h.ruleIds.sublist (List.filter_sublist.map _), fun r hr => h.ruleBelow r (hsub hr).1,
    fun r hr => ?_, fun i k hk => ?_, fun k hk => ?_⟩
  · obtain ⟨hr, hne⟩ := hsub hr
    obtain ⟨owner, ho⟩ := h.housed r hr
    exact ⟨owner, List.mem_filter.mpr ⟨ho, decide_eq_true hne⟩⟩
  · obtain ⟨hlt, hk⟩ := h.about i k hk
    exact ⟨hlt, fun r hr => hk r (hsub hr).1⟩
  · obtain ⟨hlt, hk⟩ := h.shown k (he hk)
    exact ⟨hlt, fun r hr => hk r (hsub hr).1⟩

theorem Sound.move (h : Sound g) (hm : Move g g') : Sound g' := by
  cases hm with
  | shrunk events pending he hp =>
    exact ⟨h.serverIds, h.serverBelow, h.ruleIds, h.ruleBelow, h.housed,
      fun i k hk => h.about i k (hp i hk), fun k hk => h.shown k (he hk)⟩
  | registered ownerId =>
    refine ⟨?_, fun r hr => ?_, h.ruleIds, h.ruleBelow, fun r hr => ?_, h.about, h.shown⟩
    · refine List.nodup_cons.mpr ⟨fun hin => ?_, h.serverIds⟩
      obtain ⟨r, hr, hid⟩ := List.mem_map.mp hin
      have hlt := h.serverBelow r hr
      omega
    · show r.1 < g.nextServer + 1
      rcases List.mem_cons.mp hr with rfl | hr
      · exact Nat.lt_succ_self _
      · have hlt := h.serverBelow r hr
        omega
    · obtain ⟨owner, ho⟩ := h.housed r hr
      exact ⟨owner, List.mem_cons_of_mem _ ho⟩
  | created serverId ownerId own => exact h.confirm own
  | removed rules events hr he =>
    refine ⟨h.serverIds, h.serverBelow, h.ruleIds.sublist (hr.map _),
      fun r hr' => h.ruleBelow r (hr.subset hr'), fun r hr' => h.housed r (hr.subset hr'),
      fun i k hk => ?_, fun k hk => ?_⟩
    · obtain ⟨hlt, hk⟩ := h.about i k hk
      exact ⟨hlt, fun r hr' => hk r (hr.subset hr')⟩
    · obtain ⟨hlt, hk⟩ := h.shown k (he hk)
      exact ⟨hlt, fun r hr' => hk r (hr.subset hr')⟩
  | loaded i keys hkeys =>
    refine ⟨h.serverIds, h.serverBelow, h.ruleIds, h.ruleBelow, h.housed, fun j k hk => ?_,
      h.shown⟩
    by_cases hj : j = i
    · subst hj
      simp only [Function.update_self] at hk
      obtain ⟨r, hr, hid, hs⟩ := hkeys k hk
      refine ⟨hid ▸ h.ruleBelow r hr, fun q hq hqid => ?_⟩
      have hqr : q = r := List.inj_on_of_nodup_map h.ruleIds hq hr (hqid.trans hid.symm)
      exact hqr ▸ hs
    · simp only [Function.update_of_ne hj] at hk
      exact h.about j k hk
  | fired i rest hp =>
    refine ⟨h.serverIds, h.serverBelow, h.ruleIds, h.ruleBelow, h.housed,
      fun j k hk => h.about j k (hp j hk), fun k hk => ?_⟩
    rcases List.mem_append.mp hk with hk | hk
    · exact h.about i k hk
    · exact h.shown k hk

theorem Owned.confirm (h : Owned g) {serverId ownerId : ℕ}
    (own : (serverId, ownerId) ∈ g.servers) : Owned (g.confirm serverId ownerId) := by
  intro r hr
  rcases List.mem_cons.mp hr with rfl | hr
  · exact own
  · exact h r hr

theorem Owned.dropServer (h : Owned g) (serverId : ℕ) (events : List (ℕ × ℕ)) :
    Owned (g.dropServer serverId events) := by
  intro r hr
  obtain ⟨hr, hne⟩ := List.mem_filter.mp hr
  exact List.mem_filter.mpr ⟨h r hr, hne⟩

theorem Owned.move (h : Owned g) (hm : Move g g') : Owned g' := by
  cases hm with
  | shrunk => exact h
  | registered ownerId => exact fun r hr => List.mem_cons_of_mem _ (h r hr)
  | created serverId ownerId own => exact h.confirm own
  | removed rules events hr => exact fun r hr' => h r (hr.subset hr')
  | loaded => exact h
  | fired => exact h

theorem Move.of_shrunk (hs : g'.servers = g.servers) (hr : g'.rules = g.rules)
    (he : g'.events ⊆ g.events) (hp : ∀ i, g'.pending i ⊆ g.pending i)
    (hns : g'.nextServer = g.nextServer) (hnr : g'.nextRule = g.nextRule) : Move g g' := by
  obtain ⟨servers, rules, events, pending, nextServer, nextRule⟩ := g'
  obtain rfl : servers = g.servers := hs
  obtain rfl : rules = g.rules := hr
  obtain rfl : nextServer = g.nextServer := hns
  obtain rfl : nextRule = g.nextRule := hnr
  exact .shrunk events pending he hp

/- The owner of a server once known is known for good. -/
def Vouched (g : Ledger) (serverId ownerId : ℕ) : Prop :=
  serverId < g.nextServer ∧ ∀ owner, (serverId, owner) ∈ g.servers → owner = ownerId

theorem Sound.vouched (h : Sound g) {serverId ownerId : ℕ}
    (own : (serverId, ownerId) ∈ g.servers) : Vouched g serverId ownerId := by
  refine ⟨h.serverBelow _ own, fun owner ho => ?_⟩
  have heq : (serverId, owner) = (serverId, ownerId) :=
    List.inj_on_of_nodup_map h.serverIds ho own rfl
  exact (Prod.mk.inj heq).2

theorem Vouched.move {serverId ownerId : ℕ} (h : Vouched g serverId ownerId) (hm : Move g g') :
    Vouched g' serverId ownerId := by
  cases hm with
  | registered newOwner =>
    refine ⟨Nat.lt_succ_of_lt h.1, fun owner ho => ?_⟩
    rcases List.mem_cons.mp ho with he | ho
    · have hid := (Prod.mk.inj he).1
      have hlt := h.1
      omega
    · exact h.2 owner ho
  | _ => exact h

end
end Ledger

/-! ### The alert machine moves the ledger -/

section
variable {cr : Crypto} {floatStr : PyFloat → String} {attrs : Attributes}

theorem updateServer_keys (id : ℕ) {f : Server → Server} (hf : ∀ r, serverKey (f r) = serverKey r)
    (servers : List Server) :
    (Fleet.updateServer id f servers).map serverKey = servers.map serverKey := by
  unfold Fleet.updateServer
  rw [List.map_map]
  congr 1
  funext r
  simp only [Function.comp]
  split
  · exact hf r
  · rfl

theorem storeSubmission_keys {s s' : Fleet.Sys} {server : Server} {at' : Instant}
    {body : Fleet.Submission} (h : Fleet.storeSubmission s server at' body = some s') :
    s'.servers.map serverKey = s.servers.map serverKey ∧ s'.nextServer = s.nextServer := by
  obtain ⟨version, hservers, hnext, -, -⟩ := Fleet.storeSubmission_row h
  have hkeys : ∀ r, serverKey (Fleet.sighted at' version r) = serverKey r := fun _ => rfl
  exact ⟨hservers ▸ updateServer_keys server.id hkeys s.servers, hnext⟩

theorem heartbeat_keys (t : Instant) (s : Fleet.Sys) :
    (Fleet.runHeartbeatCheck t s).servers.map serverKey = s.servers.map serverKey := by
  have hdown : ∀ r, serverKey (Fleet.deactivate t r) = serverKey r := by
    intro r
    unfold Fleet.deactivate
    split <;> rfl
  have hup : ∀ r, serverKey (Fleet.reactivate t r) = serverKey r := by
    intro r
    unfold Fleet.reactivate
    split <;> rfl
  simp [Fleet.runHeartbeatCheck, Function.comp_def, hdown, hup]

/- Servers keep their id and owner; a registration adds one. -/
theorem fleet_keys {s s' : Fleet.Sys} {l : Fleet.Label} (h : Fleet.step cr s l = some s') :
    (s'.servers.map serverKey = s.servers.map serverKey ∧ s'.nextServer = s.nextServer) ∨
    ∃ ownerId, s'.servers.map serverKey = (s.nextServer, ownerId) :: s.servers.map serverKey ∧
      s'.nextServer = s.nextServer + 1 := by
  cases Fleet.step_written h with
  | same hservers hnext => exact Or.inl ⟨by rw [hservers], hnext⟩
  | registered r hid howner hactive hservers hnext =>
    refine Or.inr ⟨r.ownerId, ?_, hnext⟩
    rw [hservers, List.map_cons, serverKey, hid]
  | stored id startedAt version hservers hnext =>
    have hkeys : ∀ r, serverKey (Fleet.sighted startedAt version r) = serverKey r := fun _ => rfl
    exact Or.inl ⟨hservers ▸ updateServer_keys id hkeys s.servers, hnext⟩
  | paused id value hservers hnext =>
    have hkeys : ∀ r : Server, serverKey { r with paused := value } = serverKey r := fun _ => rfl
    exact Or.inl ⟨hservers ▸ updateServer_keys id hkeys s.servers, hnext⟩
  | rotated server secret salt hash hi hh hservers hnext =>
    have hkeys : ∀ r : Server, serverKey { r with apiKeyHash := hash } = serverKey r := fun _ => rfl
    exact Or.inl ⟨hservers ▸ updateServer_keys server.id hkeys s.servers, hnext⟩
  | checked startedAt hle => exact Or.inl ⟨heartbeat_keys _ _, rfl⟩

theorem flushRule_key {r row : AlertRule} (h : flushRule r = some row) :
    ruleKey row = ruleKey r := by
  rw [(flushRule_flushed h).same]
  rfl

theorem updateRule_key {data : AlertRuleUpdate} {r row : AlertRule}
    (h : updateRule data r = some row) : ruleKey row = ruleKey r := by
  obtain ⟨q, hq, hrow⟩ := updateRule_patched h
  obtain ⟨hid, howner, hserver⟩ := hq.keys
  rw [flushRule_key hrow, ruleKey, hid, howner, hserver]
  rfl

theorem putRule_keys {s : Db} {row r : AlertRule} (hs : (ledger s).Sound) (hr : r ∈ s.rules)
    (hk : ruleKey row = ruleKey r) : (s.putRule row).rules.map ruleKey = s.rules.map ruleKey := by
  unfold Db.putRule
  rw [List.map_map]
  refine List.map_congr_left fun q hq => ?_
  simp only [Function.comp]
  split
  · next hid =>
    have hrid : row.id = r.id := congrArg RuleKey.id hk
    have hkeys : ruleKey q = ruleKey r := List.inj_on_of_nodup_map hs.ruleIds
      (List.mem_map_of_mem hq) (List.mem_map_of_mem hr) (hid.trans hrid)
    exact hk.trans hkeys.symm
  · rfl

theorem addRule_ledger {s t : Db} {rule : AlertRule} (hid : rule.id = s.nextRule)
    (h : s.addRule rule = some t) :
    ledger t = (ledger s).confirm rule.serverId rule.ownerId ∧
      ∃ owner, (rule.serverId, owner) ∈ (ledger s).servers := by
  obtain ⟨row, hrow, hhas, rfl⟩ := addRule_inv h
  have hkey := flushRule_key hrow
  have hserver : row.serverId = rule.serverId := congrArg RuleKey.serverId hkey
  refine ⟨?_, ?_⟩
  · simp only [ledger, Ledger.confirm, List.map_cons, hkey]
    simp only [ruleKey, hid]
  · obtain ⟨server, hmem, hsid⟩ := List.any_eq_true.mp hhas
    refine ⟨server.ownerId, List.mem_map.mpr ⟨server, hmem, ?_⟩⟩
    simp only [serverKey, of_decide_eq_true hsid, hserver]

theorem insertEvents_keys {s : Db} {reading : Threshold.Reading} {createdAt : Instant} {id : ℕ}
    {pending : List Threshold.Pending} {new : List AlertEvent}
    (h : s.insertEvents reading createdAt id pending = some new) :
    new.map eventKey = pending.map fun p => (p.rule.id, reading.serverId) := by
  induction pending generalizing id new with
  | nil =>
    obtain rfl := Option.some.inj h
    rfl
  | cons p ps ih =>
    obtain ⟨e, rest, rfl, he, hrest, -⟩ := insertEvents_cons h
    have hkey : eventKey e = (p.rule.id, reading.serverId) := by
      unfold flushEvent at he
      obtain ⟨message, -, he⟩ := Option.bind_eq_some_iff.mp he
      obtain ⟨container, -, he⟩ := Option.bind_eq_some_iff.mp he
      rw [← Option.some.inj he]
      rfl
    rw [List.map_cons, List.map_cons, hkey, ih hrest]

theorem pending_goto (s : Db) (i : ℕ) (e : Evaluation) :
    (ledger (s.goto i e)).pending = Function.update (ledger s).pending i (pendingKeys e) := by
  funext j
  by_cases hj : j = i
  · subst hj
    simp [ledger, Db.goto]
  · simp [ledger, Db.goto, hj]

theorem ledger_goto (s : Db) (i : ℕ) (e : Evaluation) : ledger (s.goto i e) =
    { ledger s with pending := Function.update (ledger s).pending i (pendingKeys e) } := by
  rw [← pending_goto]
  rfl

theorem update_nil_subset (pending : ℕ → List (ℕ × ℕ)) (i j : ℕ) :
    Function.update pending i [] j ⊆ pending j := by
  by_cases hj : j = i
  · subst hj
    simp
  · simp [hj]

theorem stayed {s s' : Db} (hs : s'.fleet.servers.map serverKey = s.fleet.servers.map serverKey)
    (hr : s'.rules.map ruleKey = s.rules.map ruleKey)
    (he : s'.events.map eventKey ⊆ s.events.map eventKey)
    (hp : ∀ i, (ledger s').pending i ⊆ (ledger s).pending i)
    (hns : s'.fleet.nextServer = s.fleet.nextServer) (hnr : s'.nextRule = s.nextRule) :
    Ledger.Move (ledger s) (ledger s') := .of_shrunk hs hr he hp hns hnr

theorem stayed_self (s : Db) : Ledger.Move (ledger s) (ledger s) :=
  stayed rfl rfl (fun _ h => h) (fun _ _ h => h) rfl rfl

theorem storeIngest_ledger {s s' : Db} {i : ℕ} (h : storeIngest i s = some s') :
    Ledger.Move (ledger s) (ledger s') := by
  unfold storeIngest at h
  split at h
  · next server startedAt body hreq =>
    split at h
    · split at h
      · next fleet hstore =>
        obtain rfl := Option.some.inj h
        obtain ⟨hkeys, hnext⟩ := storeSubmission_keys hstore
        refine stayed hkeys rfl (fun _ h => h) (fun j => ?_) hnext rfl
        have hp := pending_goto s i (.evaluating (readings server.id body))
        show (ledger (s.goto i (.evaluating (readings server.id body)))).pending j ⊆ _
        rw [hp]
        exact update_nil_subset _ i j
      · obtain rfl := Option.some.inj h
        exact stayed rfl rfl (fun _ h => h) (fun _ _ h => h) rfl rfl
    · obtain rfl := Option.some.inj h
      exact stayed rfl rfl (fun _ h => h) (fun _ _ h => h) rfl rfl
  · cases h

theorem loadEvaluation_ledger {s s' : Db} {i : ℕ} (h : loadEvaluation floatStr i s = some s') :
    Ledger.Move (ledger s) (ledger s') := by
  unfold loadEvaluation at h
  split at h
  · next reading rest hev =>
    obtain rfl := Option.some.inj h
    split
    · refine stayed rfl rfl (fun _ h => h) (fun j => ?_) rfl rfl
      rw [pending_goto]
      exact update_nil_subset _ i j
    · rw [ledger_goto]
      refine .loaded i _ fun k hk => ?_
      obtain ⟨p, hp, rfl⟩ := List.mem_map.mp hk
      obtain ⟨hrule, -⟩ := Threshold.Reading.mem_evaluate hp
      obtain ⟨hmem, hsel⟩ := List.mem_filter.mp hrule
      refine ⟨ruleKey p.rule, List.mem_map_of_mem hmem, rfl, ?_⟩
      simp only [decide_eq_true_eq] at hsel
      exact hsel.1
  · cases h

theorem commitEvaluation_ledger {s s' : Db} {i : ℕ} (h : commitEvaluation i s = some s') :
    Ledger.Move (ledger s) (ledger s') := by
  unfold commitEvaluation at h
  split at h
  · next reading evaluatedAt pending rest hev =>
    split at h
    · next new hnew =>
      obtain rfl := Option.some.inj h
      have htrigger : (s.rules.map (trigger evaluatedAt pending)).map ruleKey =
          s.rules.map ruleKey := by
        rw [List.map_map]
        refine List.map_congr_left fun r _ => ?_
        simp only [Function.comp, trigger]
        split <;> rfl
      have hevents : (new ++ s.events).map eventKey =
          (ledger s).pending i ++ (ledger s).events := by
        rw [List.map_append, insertEvents_keys hnew]
        simp [ledger, hev, pendingKeys]
      have hmove := Ledger.Move.fired (g := ledger s) i
        (Function.update (ledger s).pending i []) (update_nil_subset _ i)
      rw [← hevents] at hmove
      have hview : ledger { s.goto i (.evaluating rest) with
          rules := s.rules.map (trigger evaluatedAt pending)
          events := new ++ s.events
          nextEvent := s.nextEvent + pending.length } =
          { ledger (s.goto i (.evaluating rest)) with
            events := (new ++ s.events).map eventKey } := by
        simp only [ledger, htrigger]
        rfl
      rw [hview, ledger_goto]
      exact hmove
    · obtain rfl := Option.some.inj h
      refine stayed rfl rfl (fun _ h => h) (fun j => ?_) rfl rfl
      rw [pending_goto]
      exact update_nil_subset _ i j
  · cases h

theorem resolve_ledger (s : Db) (now : Instant) (ids : List ℕ) :
    ledger (s.resolve now ids) = ledger s := by
  unfold Db.resolve
  split
  · rfl
  · have hevents : (s.events.map (resolveEvent now ids)).map eventKey = s.events.map eventKey := by
      rw [List.map_map]
      refine List.map_congr_left fun e _ => ?_
      simp only [Function.comp, resolveEvent]
      split <;> rfl
    simp only [ledger, hevents]

theorem runResolvers_ledger (reads : Reads) (now₁ now₂ : Instant) (s : Db) :
    ledger (runResolvers attrs reads now₁ now₂ s).2 = ledger s := by
  unfold runResolvers
  split
  · rfl
  · next t ht =>
    obtain ⟨ids, -, rfl⟩ := Option.map_eq_some_iff.mp ht
    split
    · exact resolve_ledger s now₁ ids
    · next u hu =>
      obtain ⟨ids', -, rfl⟩ := Option.map_eq_some_iff.mp hu
      exact (resolve_ledger _ now₂ ids').trans (resolve_ledger s now₁ ids)

/-- Every step of the machine that is not the bot's own moves the ledger. -/
theorem step_ledger {s s' : Db} {l : Alerts.Label} (hs : (ledger s).Sound)
    (hl : TelegramBot.ofBot l = false) (h : Alerts.step cr floatStr attrs s l = some s') :
    Ledger.Move (ledger s) (ledger s') := by
  cases l with
  | fleet l =>
    have h' : fleetStep cr s l = some s' := h
    unfold fleetStep at h'
    split at h'
    · cases h'
    · obtain ⟨fleet, hfleet, rfl⟩ := Option.map_eq_some_iff.mp h'
      rcases fleet_keys hfleet with ⟨hkeys, hnext⟩ | ⟨ownerId, hkeys, hnext⟩
      · exact stayed hkeys rfl (fun _ h => h) (fun _ _ h => h) hnext rfl
      · have hmove := Ledger.Move.registered (g := ledger s) ownerId
        simp only [ledger, hkeys, hnext] at hmove ⊢
        exact hmove
  | store i => exact storeIngest_ledger h
  | load i => exact loadEvaluation_ledger h
  | commit i => exact commitEvaluation_ledger h
  | fail i =>
    simp only [Alerts.step] at h
    split at h
    · cases h
    · obtain rfl := Option.some.inj h
      refine stayed rfl rfl (fun _ h => h) (fun j => ?_) rfl rfl
      rw [pending_goto]
      exact update_nil_subset _ i j
  | create ownerId body =>
    obtain rfl := Option.some.inj h
    unfold createAlertRule
    split
    · exact stayed_self s
    · next data hdata =>
      split
      · next hown =>
        split
        · next t ht =>
          obtain ⟨server, hmem, hsid⟩ := List.any_eq_true.mp hown
          simp only [Bool.and_eq_true, decide_eq_true_eq] at hsid
          have hin : (data.serverId, ownerId) ∈ (ledger s).servers :=
            List.mem_map.mpr ⟨server, hmem, by simp only [serverKey, hsid.1, hsid.2]⟩
          have hid : (newRule s.nextRule ownerId data).id = s.nextRule := rfl
          rw [(addRule_ledger hid ht).1]
          exact .created data.serverId ownerId hin
        · exact stayed_self s
      · exact stayed_self s
  | patch ownerId ruleId body =>
    obtain rfl := Option.some.inj h
    unfold updateAlertRule
    split
    · exact stayed_self s
    · split
      · exact stayed_self s
      · next r hr =>
        split
        · next row hrow =>
          exact stayed rfl (putRule_keys hs (findRule_mem hr) (updateRule_key hrow))
            (fun _ h => h) (fun _ _ h => h) rfl rfl
        · exact stayed_self s
  | delete ownerId ruleId =>
    obtain rfl := Option.some.inj h
    unfold deleteAlertRule
    split
    · exact stayed_self s
    · next r hr =>
      exact .removed _ _ (List.filter_sublist.map _) (List.filter_sublist.map _).subset
  | confirm ownerId draft => cases hl
  | toggle ownerId ruleId => cases hl
  | deleteServer ownerId serverId => cases hl
  | resolve reads now₁ now₂ =>
    obtain rfl := Option.some.inj h
    rw [runResolvers_ledger]
    exact stayed_self s

end
end PulseWatch.RuleLedger
