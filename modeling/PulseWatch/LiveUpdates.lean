import PulseWatch.Lib.PubSub
import PulseWatch.Lib.Runs
import PulseWatch.Models
import PulseWatch.RedisKeys

/-!
# Live updates (`app/api/ws_metrics.py` and the publishers)

An ingest request commits its rows and publishes what it has committed on a Redis channel
of its server; a publication that fails is swallowed. Three web sockets, one for each
kind of update, share `_ws_subscribe`: the user of the token and their server are looked
up, the socket is accepted, Redis is subscribed to, and what is pushed is sent on until
the client leaves or a send fails. The turns of all requests and sockets interleave.
-/

namespace PulseWatch.LiveUpdates
open Runs PubSub

/-! ### What is published -/

/-- `channel_prefix`. -/
inductive Kind where
  | metrics
  | dockerMetrics
  | alerts
  deriving DecidableEq, Repr

def Kind.channelPrefix : Kind → String
  | .metrics => "metrics"
  | .dockerMetrics => "docker_metrics"
  | .alerts => "alerts"

def channelName (kind : Kind) (serverId : ℤ) : String :=
  kind.channelPrefix ++ ":" ++ toString serverId

/- What a request has committed: a row, the containers of a batch, an event of a rule. -/
inductive Update where
  | metric (row : Metric PyFloat)
  | docker (serverId : ℕ) (containers : List DockerMetricCreate)
  | alert (event : AlertEvent) (ruleName : String)
  deriving DecidableEq, Repr

namespace Update

def kind : Update → Kind
  | .metric _ => .metrics
  | .docker _ _ => .dockerMetrics
  | .alert _ _ => .alerts

def serverId : Update → ℕ
  | .metric row => row.serverId
  | .docker serverId _ => serverId
  | .alert event _ => event.serverId

/- The channel of `publish_metric`, `publish_docker_metric` and `publish_alert`. -/
def channel (u : Update) : String := channelName u.kind u.serverId

end Update

inductive Json where
  | null
  | int (n : ℤ)
  | num (x : PyFloat)
  | str (s : String)
  | list (l : List Json)
  | dict (d : List (String × Json))

/-- `{**base, **data}`. -/
def merge (base data : List (String × Json)) : List (String × Json) :=
  (base.map fun p => (p.1, (data.lookup p.1).getD p.2)) ++
    data.filter fun p => (base.lookup p.1).isNone

/-- `item.model_dump()`. -/
def modelDump (item : DockerMetricCreate) : Json :=
  .dict [("container_id", .str item.containerId), ("container_name", .str item.containerName),
    ("image", .str item.image), ("status", .str item.status), ("cpu_percent", .num item.cpuPercent),
    ("memory_usage_mb", .num item.memoryUsageMb),
    ("memory_limit_mb", (item.memoryLimitMb.map .num).getD .null)]

/- The dict that is dumped as JSON; the alert of a container names it. -/
def Update.payload (isoformat : Instant → String) : Update → List (String × Json)
  | .metric row =>
    merge [("type", .str "metric"), ("server_id", .int row.serverId)]
      [("id", .int row.id), ("cpu_percent", .num row.cpuPercent),
        ("memory_percent", .num row.memoryPercent), ("disk_percent", .num row.diskPercent),
        ("collected_at", .str (isoformat row.collectedAt))]
  | .docker serverId containers =>
    [("type", .str "docker_metric"), ("server_id", .int serverId),
      ("containers", .list (containers.map modelDump))]
  | .alert event ruleName =>
    merge [("type", .str "alert"), ("server_id", .int event.serverId)]
      ([("event_id", .int event.id), ("rule_id", .int event.ruleId),
          ("rule_name", .str ruleName)] ++
        ((event.containerName.map fun name => [("container_name", .str name)]).getD []) ++
        [("metric_value", .num event.metricValue), ("threshold_value", .num event.thresholdValue),
          ("message", .str event.message), ("created_at", .str (isoformat event.createdAt))])

theorem lookup_merge {base data : List (String × Json)} {key : String} {v : Json}
    (h : base.lookup key = some v) :
    (merge base data).lookup key = some ((data.lookup key).getD v) := by
  have hmap : (base.map fun p => (p.1, (data.lookup p.1).getD p.2)).lookup key =
      some ((data.lookup key).getD v) := by
    induction base with
    | nil => cases h
    | cons p base ih =>
      rw [List.lookup_cons] at h
      rw [List.map_cons, List.lookup_cons]
      split at h
      · next hkey =>
        rw [← eq_of_beq hkey, Option.some.inj h]
      · exact ih h
  rw [merge, List.lookup_append, hmap, Option.some_or]

/- No field of the data takes the place of the server. -/
theorem payload_server (isoformat : Instant → String) (u : Update) :
    (u.payload isoformat).lookup "server_id" = some (.int u.serverId) := by
  cases u with
  | metric row => exact lookup_merge rfl
  | docker serverId containers => rfl
  | alert event ruleName =>
    cases h : event.containerName with
    | none =>
      rw [Update.payload, h]
      exact lookup_merge rfl
    | some name =>
      rw [Update.payload, h]
      exact lookup_merge rfl

theorem channelPrefix_plain (k : Kind) : ':' ∉ k.channelPrefix.toList := by
  cases k <;> decide

theorem channelName_inj {k l : Kind} {m n : ℤ} (h : channelName k m = channelName l n) :
    k = l ∧ m = n := by
  obtain ⟨hhead, hid⟩ :=
    RedisClient.field_inj (channelPrefix_plain k) (channelPrefix_plain l) h
  refine ⟨?_, RedisClient.toString_injective hid⟩
  cases k <;> cases l <;> first | rfl | exact absurd hhead (by decide)

/-! ### `authenticate_ws_user` -/

structure Claims where
  type : Option String
  sub : Option String
  deriving DecidableEq, Repr

/- `jwt.decode` with the key of the settings; `none` is its `JWTError`. -/
structure Jwt where
  decode : String → Option Claims

variable (jwt : Jwt)

/- The error is the `ValueError` of a subject that is no integer. -/
def authenticateWsUser (users : List User) (token : Option String) :
    Except Unit (Option User) :=
  match token with
  | none => .ok none
  | some token =>
    if token = "" then .ok none
    else match jwt.decode token with
      | none => .ok none
      | some claims =>
        if claims.type = some "refresh" then .ok none
        else match claims.sub with
          | none => .ok none
          | some sub =>
            match PyInt.int sub with
            | none => .error ()
            | some userId => .ok (users.find? fun u => (u.id : ℤ) = userId)

/- The token speaks for the user. -/
def TokenOf (token : Option String) (u : User) : Prop :=
  ∃ text claims sub, token = some text ∧ jwt.decode text = some claims ∧
    claims.type ≠ some "refresh" ∧ claims.sub = some sub ∧ PyInt.int sub = some (u.id : ℤ)

theorem authenticateWsUser_ok {users : List User} {token : Option String} {u : User}
    (h : authenticateWsUser jwt users token = .ok (some u)) :
    u ∈ users ∧ TokenOf jwt token u := by
  unfold authenticateWsUser at h
  cases token with
  | none => cases h
  | some text =>
    dsimp only at h
    split at h
    · cases h
    · split at h
      · cases h
      · next claims hclaims =>
        split at h
        · cases h
        · next htype =>
          split at h
          · cases h
          · next sub hsub =>
            split at h
            · cases h
            · next userId hint =>
              have hfound := Except.ok.inj h
              have hid : (u.id : ℤ) = userId := by simpa using List.find?_some hfound
              exact ⟨List.mem_of_find?_eq_some hfound, text, claims, sub, rfl, hclaims, htype, hsub,
                by rw [hint, hid]⟩

/-! ### Requests and sockets -/

/- A commit with its place among all commits. -/
structure Message where
  serial : ℕ
  update : Update
  deriving DecidableEq, Repr

/- Where a call of `_ws_subscribe` is: before its first query, before its second, in
`accept` or `subscribe`, waiting for the next message, in `send_text`, in the `finally`
block, or over. -/
inductive Phase where
  | connecting
  | authenticated (user : User)
  | accepted
  | listening
  | sending (m : Message)
  | closing
  | closed (code : Option ℕ)
  deriving DecidableEq, Repr

/- `admitted` holds the rows the call has read, `received` what its client was sent. -/
structure Socket where
  kind : Kind
  serverId : ℤ
  token : Option String
  phase : Phase := .connecting
  admitted : Option (User × Server) := none
  received : List Message := []
  deriving DecidableEq, Repr

def Socket.channel (k : Socket) : String := channelName k.kind k.serverId

/- `pending` is what a request has committed and not yet published. -/
structure State where
  users : List User
  servers : List Server
  broker : Broker String Message ℕ
  sockets : ℕ → Option Socket
  pending : ℕ → List Message
  nextSerial : ℕ

def init : State := ⟨[], [], .init, fun _ => none, fun _ => [], 0⟩

inductive Label where
  /- any transaction on users and servers -/
  | write (users : List User) (servers : List Server)
  /- the requests -/
  | commit (i : ℕ) (u : Update)
  | publish (i : ℕ)
  | lose (i : ℕ)
  /- the sockets; `left` ends the call's tasks, with the send in flight done or not -/
  | connect (w : ℕ) (kind : Kind) (serverId : ℤ) (token : Option String)
  | authenticate (w : ℕ)
  | own (w : ℕ)
  | subscribe (w : ℕ)
  | take (w : ℕ)
  | sent (w : ℕ) (ok : Bool)
  | left (w : ℕ) (done : Bool)
  | reconnect (w : ℕ)
  | finish (w : ℕ)
  deriving DecidableEq, Repr

def wsPolicyViolation : ℕ := 1008

def State.put (s : State) (w : ℕ) (k : Socket) : State :=
  { s with sockets := Function.update s.sockets w (some k) }

/- The turn of a socket; `none` where the label does not fit its phase. -/
def turn (s : State) (w : ℕ) (k : Socket) : Label → Option State
  | .authenticate _ =>
    if k.phase = .connecting then
      match authenticateWsUser jwt s.users k.token with
      | .error _ => some (s.put w { k with phase := .closed none })
      | .ok none => some (s.put w { k with phase := .closed (some wsPolicyViolation) })
      | .ok (some user) => some (s.put w { k with phase := .authenticated user })
    else none
  | .own _ =>
    match k.phase with
    | .authenticated user =>
      match s.servers.find? fun v => (v.id : ℤ) = k.serverId && v.ownerId = user.id with
      | none => some (s.put w { k with phase := .closed (some wsPolicyViolation) })
      | some server => some (s.put w { k with phase := .accepted, admitted := some (user, server) })
    | _ => none
  | .subscribe _ =>
    if k.phase = .accepted then
      some { s.put w { k with phase := .listening } with
        broker := s.broker.subscribe w k.channel }
    else none
  | .take _ =>
    if k.phase = .listening then
      (s.broker.take w).map fun p =>
        { s.put w { k with phase := .sending p.1 } with broker := p.2 }
    else none
  | .sent _ ok =>
    match k.phase with
    | .sending m =>
      if ok then some (s.put w { k with phase := .listening, received := k.received ++ [m] })
      else some (s.put w { k with phase := .closing })
    | _ => none
  | .left _ done =>
    match k.phase with
    | .accepted | .listening => some (s.put w { k with phase := .closing })
    | .sending m =>
      some (s.put w { k with
        phase := .closing, received := if done then k.received ++ [m] else k.received })
    | _ => none
  | .reconnect _ =>
    match k.phase with
    | .listening | .sending _ => some { s with broker := s.broker.reconnect w }
    | _ => none
  | .finish _ =>
    if k.phase = .closing then
      some { s.put w { k with phase := .closed none } with broker := s.broker.unsubscribe w }
    else none
  | _ => none

def Label.socket : Label → Option ℕ
  | .authenticate w | .own w | .subscribe w | .take w | .sent w _ | .left w _ | .reconnect w
  | .finish w => some w
  | _ => none

def step (s : State) : Label → Option State
  | .write users servers => some { s with users, servers }
  | .commit i u =>
    some { s with
      pending := Function.update s.pending i (s.pending i ++ [⟨s.nextSerial, u⟩])
      nextSerial := s.nextSerial + 1 }
  | .publish i =>
    match s.pending i with
    | [] => none
    | m :: rest =>
      some { s with
        broker := s.broker.publish m.update.channel m
        pending := Function.update s.pending i rest }
  | .lose i =>
    match s.pending i with
    | [] => none
    | _ :: rest => some { s with pending := Function.update s.pending i rest }
  | .connect w kind serverId token =>
    if (s.sockets w).isNone then some (s.put w { kind, serverId, token }) else none
  | l => l.socket.bind fun w => (s.sockets w).bind fun k => turn jwt s w k l

/-! ### What a client is sent -/

/- What the client of a socket has been sent, once its call has got that far. -/
structure Delivered (s : State) (w : ℕ) (k : Socket) : Prop where
  /- to the owner of the server, by the token it came with -/
  admitted : k.received ≠ [] → ∃ u v, k.admitted = some (u, v) ∧ TokenOf jwt k.token u ∧
    (v.id : ℤ) = k.serverId ∧ v.ownerId = u.id
  own : ∀ m ∈ k.received, m.update.kind = k.kind ∧ (m.update.serverId : ℤ) = k.serverId
  once : (k.received.map Message.serial).Nodup
  order : k.received.Sublist (s.broker.history k.channel)
  /- up to the first loss of its connection to Redis -/
  gapless : ∀ sub, s.broker.subscription w = some sub → sub.whole = true →
    k.received <+: (s.broker.history k.channel).drop sub.since
  current : k.phase = .listening → ∃ sub, s.broker.subscription w = some sub ∧
    (sub.whole = true → k.received ++ sub.queue = (s.broker.history k.channel).drop sub.since)

abbrev Sub := Subscription String Message

/- A socket with the subscription it has made. -/
structure Fits (sub : Option Sub) (k : Socket) : Prop where
  authenticated : ∀ u, k.phase = .authenticated u → TokenOf jwt k.token u
  admitted : ∀ p, k.admitted = some p →
    TokenOf jwt k.token p.1 ∧ (p.2.id : ℤ) = k.serverId ∧ p.2.ownerId = p.1.id
  entered : sub ≠ none ∨ k.phase = .accepted → k.admitted ≠ none
  silent : sub = none → k.received = []
  channel : ∀ t, sub = some t → t.channel = k.channel
  early : k.phase = .connecting ∨ (∃ u, k.phase = .authenticated u) ∨ k.phase = .accepted →
    sub = none
  listening : k.phase = .listening → ∃ t, sub = some t ∧ t.active = true ∧ t.taken = k.received
  sending : ∀ m, k.phase = .sending m →
    ∃ t, sub = some t ∧ t.active = true ∧ t.taken = k.received ++ [m]
  read : ∀ t, sub = some t → k.received <+: t.taken

/- Commits are numbered; what is published was committed, once, on the channel of its
server. -/
structure Numbered (s : State) : Prop where
  channels : ∀ c, ∀ m ∈ s.broker.history c, m.update.channel = c ∧ m.serial < s.nextSerial
  pending : ∀ i, ∀ m ∈ s.pending i, m.serial < s.nextSerial
  published : ∀ c, ((s.broker.history c).map Message.serial).Nodup
  once : ∀ i, ((s.pending i).map Message.serial).Nodup
  apart : ∀ i j, i ≠ j → ∀ m ∈ s.pending i, ∀ n ∈ s.pending j, m.serial ≠ n.serial
  waiting : ∀ c i, ∀ m ∈ s.broker.history c, ∀ n ∈ s.pending i, m.serial ≠ n.serial

structure Inv (s : State) : Prop where
  sound : s.broker.Sound
  numbered : Numbered s
  fresh : ∀ w, s.sockets w = none → s.broker.subscription w = none
  fits : ∀ w k, s.sockets w = some k → Fits jwt (s.broker.subscription w) k

theorem inv_init : Inv jwt init where
  sound := Broker.sound_init
  numbered := ⟨by simp [init, Broker.init], by simp [init], by simp [init, Broker.init],
    by simp [init], by simp [init], by simp [init]⟩
  fresh _ _ := rfl
  fits w k h := by cases h

section
variable {jwt} {s s' : State} {w : ℕ} {k : Socket}

theorem Inv.delivered (h : Inv jwt s) (hk : s.sockets w = some k) : Delivered jwt s w k := by
  have hfits := h.fits w k hk
  have hsub : k.received ≠ [] → ∃ sub, s.broker.subscription w = some sub := fun hne =>
    Option.ne_none_iff_exists'.mp fun hnone => hne (hfits.silent hnone)
  have horder : k.received.Sublist (s.broker.history k.channel) := by
    by_cases hne : k.received = []
    · rw [hne]
      exact List.nil_sublist _
    · obtain ⟨sub, hw⟩ := hsub hne
      have hfollows := h.sound w sub hw
      rw [hfits.channel sub hw] at hfollows
      exact (((hfits.read sub hw).sublist.trans (List.sublist_append_left _ _)).trans
        hfollows.order).trans (List.drop_sublist _ _)
  refine ⟨fun hne => ?_, fun m hm => ?_, ?_, horder, fun sub hw hwhole => ?_, fun hl => ?_⟩
  · obtain ⟨sub, hw⟩ := hsub hne
    have hin : s.broker.subscription w ≠ none := by
      rw [hw]
      exact Option.some_ne_none sub
    obtain ⟨⟨u, v⟩, hp⟩ := Option.ne_none_iff_exists'.mp (hfits.entered (Or.inl hin))
    exact ⟨u, v, hp, hfits.admitted (u, v) hp⟩
  · have hchannel := (h.numbered.channels k.channel m (horder.subset hm)).1
    exact channelName_inj hchannel
  · exact (horder.map Message.serial).nodup (h.numbered.published k.channel)
  · have hfollows := h.sound w sub hw
    rw [hfits.channel sub hw] at hfollows
    exact ((hfits.read sub hw).trans (List.prefix_append _ _)).trans (hfollows.gapless hwhole)
  · obtain ⟨sub, hw, hactive, htaken⟩ := hfits.listening hl
    have hfollows := h.sound w sub hw
    rw [hfits.channel sub hw] at hfollows
    exact ⟨sub, hw, fun hwhole => htaken ▸ hfollows.current hwhole hactive⟩

/-! ### One turn -/

theorem Inv.change (h : Inv jwt s) {b : Broker String Message ℕ} (hsound : b.Sound)
    (hhistory : b.history = s.broker.history)
    (hothers : ∀ v, v ≠ w → b.subscription v = s.broker.subscription v)
    (hfits : Fits jwt (b.subscription w) k) : Inv jwt { s.put w k with broker := b } where
  sound := hsound
  numbered := by
    obtain ⟨h1, h2, h3, h4, h5, h6⟩ := h.numbered
    rw [← hhistory] at h1 h3 h6
    exact ⟨h1, h2, h3, h4, h5, h6⟩
  fresh v hv := by
    by_cases hw : v = w
    · subst hw
      simp [State.put] at hv
    · have hold : s.sockets v = none := by simpa [State.put, hw] using hv
      rw [hothers v hw]
      exact h.fresh v hold
  fits v j hv := by
    by_cases hw : v = w
    · subst hw
      have hj : k = j := by simpa [State.put] using hv
      exact hj ▸ hfits
    · have hold : s.sockets v = some j := by simpa [State.put, hw] using hv
      rw [hothers v hw]
      exact h.fits v j hold

theorem Inv.put (h : Inv jwt s) (hfits : Fits jwt (s.broker.subscription w) k) :
    Inv jwt (s.put w k) :=
  h.change h.sound rfl (fun _ _ => rfl) hfits

theorem put_self (hk : s.sockets w = some k) : s.put w k = s := by
  rw [State.put, ← hk, Function.update_eq_self]

theorem Fits.quiet {phase : Phase} {sub : Option Sub} (h : Fits jwt sub k)
    (hphase : (∃ code, phase = .closed code) ∨ phase = .closing) :
    Fits jwt sub { k with phase } := by
  have hno : ∀ other, (∀ c, other ≠ .closed c) → other ≠ .closing → phase ≠ other := by
    rintro other hclosed hclosing rfl
    rcases hphase with ⟨code, rfl⟩ | rfl
    · exact hclosed code rfl
    · exact hclosing rfl
  refine ⟨fun u hu => ?_, h.admitted, fun hin => ?_, h.silent, h.channel, fun he => ?_,
    fun hl => ?_, fun m hm => ?_, h.read⟩
  · exact absurd hu (hno _ nofun nofun)
  · exact h.entered (Or.inl (hin.resolve_right (hno _ nofun nofun)))
  · rcases he with he | ⟨u, he⟩ | he
    · exact absurd he (hno _ nofun nofun)
    · exact absurd he (hno _ nofun nofun)
    · exact absurd he (hno _ nofun nofun)
  · exact absurd hl (hno _ nofun nofun)
  · exact absurd hm (hno _ nofun nofun)

theorem Fits.keep {sub : Option Sub} {f : Sub → Sub} (h : Fits jwt sub k)
    (hf : ∀ t, (f t).channel = t.channel ∧ (f t).taken = t.taken)
    (hactive : (∀ t, (f t).active = t.active) ∨ k.phase = .closing) :
    Fits jwt (sub.map f) k := by
  have hnone : sub.map f = none ↔ sub = none := Option.map_eq_none_iff
  refine ⟨h.authenticated, h.admitted, fun hin => ?_, fun hs => h.silent (hnone.mp hs),
    fun t ht => ?_, fun he => hnone.mpr (h.early he), fun hl => ?_, fun m hm => ?_,
    fun t ht => ?_⟩
  · exact h.entered (hin.imp_left fun hne hs => hne (hnone.mpr hs))
  · obtain ⟨old, hold, rfl⟩ := Option.map_eq_some_iff.mp ht
    rw [(hf old).1]
    exact h.channel old hold
  · obtain ⟨old, hold, hact, htaken⟩ := h.listening hl
    rcases hactive with hactive | hclosing
    · exact ⟨f old, by rw [hold, Option.map_some], by rw [hactive, hact],
        by rw [(hf old).2, htaken]⟩
    · rw [hl] at hclosing
      cases hclosing
  · obtain ⟨old, hold, hact, htaken⟩ := h.sending m hm
    rcases hactive with hactive | hclosing
    · exact ⟨f old, by rw [hold, Option.map_some], by rw [hactive, hact],
        by rw [(hf old).2, htaken]⟩
    · rw [hm] at hclosing
      cases hclosing
  · obtain ⟨old, hold, rfl⟩ := Option.map_eq_some_iff.mp ht
    rw [(hf old).2]
    exact h.read old hold

theorem Fits.advance {phase : Phase} {admitted : Option (User × Server)} {sub : Option Sub}
    (h : Fits jwt sub k) (hsub : sub = none)
    (htoken : ∀ u, phase = .authenticated u → TokenOf jwt k.token u)
    (hadmitted : ∀ p, admitted = some p →
      TokenOf jwt k.token p.1 ∧ (p.2.id : ℤ) = k.serverId ∧ p.2.ownerId = p.1.id)
    (haccepted : phase = .accepted → admitted ≠ none) (hlistening : phase ≠ .listening)
    (hsending : ∀ m, phase ≠ .sending m) : Fits jwt sub { k with phase, admitted } := by
  subst hsub
  refine ⟨htoken, hadmitted, fun hin => ?_, h.silent, h.channel, fun _ => rfl,
    fun hl => absurd hl hlistening, fun m hm => absurd hm (hsending m), h.read⟩
  rcases hin with hin | hin
  · exact absurd rfl hin
  · exact haccepted hin

theorem Fits.subscribed (h : Fits jwt none k) (hphase : k.phase = .accepted) (since : ℕ) :
    Fits jwt (some { channel := k.channel, since }) { k with phase := .listening } := by
  have hreceived := h.silent rfl
  refine ⟨fun u hu => ?_, h.admitted, fun _ => h.entered (Or.inr hphase), fun hnone => ?_,
    fun t ht => ?_, fun he => ?_, fun _ => ?_, fun m hm => ?_, fun t ht => ?_⟩
  · cases hu
  · cases hnone
  · obtain rfl := Option.some.inj ht
    rfl
  · rcases he with he | ⟨u, he⟩ | he
    · cases he
    · cases he
    · cases he
  · exact ⟨_, rfl, rfl, hreceived.symm⟩
  · cases hm
  · rw [hreceived]
    exact List.nil_prefix

/- The client has read one more message, and `send_text` is awaited. -/
theorem Fits.taken {t : Sub} {m : Message} {queue : List Message} (h : Fits jwt (some t) k)
    (hphase : k.phase = .listening) :
    Fits jwt (some { t with taken := t.taken ++ [m], queue }) { k with phase := .sending m } := by
  obtain ⟨old, hold, hactive, htaken⟩ := h.listening hphase
  obtain rfl := Option.some.inj hold
  refine ⟨fun u hu => ?_, h.admitted, fun _ => h.entered (Or.inl (Option.some_ne_none _)),
    fun hnone => ?_, fun u hu => ?_, fun he => ?_, fun hl => ?_, fun n hn => ?_, fun u hu => ?_⟩
  · cases hu
  · cases hnone
  · obtain rfl := Option.some.inj hu
    exact h.channel t rfl
  · rcases he with he | ⟨u, he⟩ | he
    · cases he
    · cases he
    · cases he
  · cases hl
  · obtain rfl := Phase.sending.inj hn
    exact ⟨_, rfl, hactive, by rw [← htaken]⟩
  · obtain rfl := Option.some.inj hu
    exact (h.read t rfl).trans (List.prefix_append _ _)

theorem Fits.sent {sub : Option Sub} {m : Message} {phase : Phase} {received : List Message}
    (h : Fits jwt sub k) (hphase : k.phase = .sending m)
    (hdone : phase = .listening ∧ received = k.received ++ [m] ∨
      phase = .closing ∧ (received = k.received ++ [m] ∨ received = k.received)) :
    Fits jwt sub { k with phase, received } := by
  obtain ⟨t, rfl, hactive, htaken⟩ := h.sending m hphase
  have hphases : phase = .listening ∨ phase = .closing := hdone.imp And.left And.left
  have hread : received <+: t.taken := by
    rw [htaken]
    rcases hdone with ⟨-, rfl⟩ | ⟨-, rfl | rfl⟩
    · exact List.prefix_rfl
    · exact List.prefix_rfl
    · exact List.prefix_append _ _
  refine ⟨fun u hu => ?_, h.admitted, fun _ => h.entered (Or.inl (Option.some_ne_none t)),
    fun hnone => ?_, h.channel, fun he => ?_, fun hl => ?_, fun n hn => ?_, fun u hu => ?_⟩
  · rcases hphases with rfl | rfl <;> cases hu
  · cases hnone
  · rcases hphases with rfl | rfl
    · simp at he
    · simp at he
  · rcases hdone with ⟨-, hreceived⟩ | ⟨hclosing, -⟩
    · exact ⟨t, rfl, hactive, htaken.trans hreceived.symm⟩
    · have hl' : phase = .listening := hl
      rw [hl'] at hclosing
      cases hclosing
  · rcases hphases with rfl | rfl <;> cases hn
  · obtain rfl := Option.some.inj hu
    exact hread

theorem Inv.turn (h : Inv jwt s) (hk : s.sockets w = some k) {l : Label}
    (ht : turn jwt s w k l = some s') : Inv jwt s' := by
  have hfits := h.fits w k hk
  cases l with
  | authenticate v =>
    simp only [LiveUpdates.turn] at ht
    split at ht
    · next hphase =>
      have hsub := hfits.early (Or.inl hphase)
      split at ht
      · obtain rfl := Option.some.inj ht
        exact h.put (hfits.quiet (Or.inl ⟨_, rfl⟩))
      · obtain rfl := Option.some.inj ht
        exact h.put (hfits.quiet (Or.inl ⟨_, rfl⟩))
      · next user huser =>
        obtain rfl := Option.some.inj ht
        have htoken := (authenticateWsUser_ok jwt huser).2
        have hnext : Fits jwt (s.broker.subscription w)
            { k with phase := .authenticated user } := by
          refine hfits.advance hsub (fun u hu => ?_) hfits.admitted (by simp) (by simp) (by simp)
          obtain rfl := Phase.authenticated.inj hu
          exact htoken
        exact h.put hnext
    · cases ht
  | own v =>
    simp only [LiveUpdates.turn] at ht
    split at ht
    · next user hphase =>
      have hsub := hfits.early (Or.inr (Or.inl ⟨user, hphase⟩))
      split at ht
      · obtain rfl := Option.some.inj ht
        exact h.put (hfits.quiet (Or.inl ⟨_, rfl⟩))
      · next server hserver =>
        obtain rfl := Option.some.inj ht
        have hfound := List.find?_some hserver
        simp only [Bool.and_eq_true, decide_eq_true_eq] at hfound
        have hnext : Fits jwt (s.broker.subscription w)
            { k with phase := .accepted, admitted := some (user, server) } := by
          refine hfits.advance hsub (by simp) (fun p hp => ?_) (fun _ => Option.some_ne_none _)
            (by simp) (by simp)
          obtain rfl := Option.some.inj hp
          exact ⟨hfits.authenticated user hphase, hfound⟩
        exact h.put hnext
    · cases ht
  | subscribe v =>
    simp only [LiveUpdates.turn] at ht
    split at ht
    · next hphase =>
      obtain rfl := Option.some.inj ht
      have hsub := hfits.early (Or.inr (Or.inr hphase))
      rw [hsub] at hfits
      refine h.change (h.sound.subscribe w k.channel) rfl (fun v hv => ?_) ?_
      · rw [Broker.subscribe, Broker.subscription_set, if_neg hv]
      · rw [Broker.subscribe, Broker.subscription_set, if_pos rfl]
        exact hfits.subscribed hphase _
    · cases ht
  | take v =>
    simp only [LiveUpdates.turn] at ht
    split at ht
    · next hphase =>
      obtain ⟨⟨m, b⟩, hb, rfl⟩ := Option.map_eq_some_iff.mp ht
      have hsound := h.sound.take hb
      obtain ⟨sub, queue, hsub, -, rfl⟩ := Broker.take_spec hb
      rw [hsub] at hfits
      refine h.change hsound rfl (fun v hv => ?_) ?_
      · rw [Broker.subscription_set, if_neg hv]
      · rw [Broker.subscription_set, if_pos rfl]
        exact hfits.taken hphase
    · cases ht
  | sent v ok =>
    simp only [LiveUpdates.turn] at ht
    split at ht
    · next m hphase =>
      split at ht
      · obtain rfl := Option.some.inj ht
        exact h.put (hfits.sent hphase (Or.inl ⟨rfl, rfl⟩))
      · obtain rfl := Option.some.inj ht
        exact h.put (hfits.sent hphase (Or.inr ⟨rfl, Or.inr rfl⟩))
    · cases ht
  | left v done =>
    simp only [LiveUpdates.turn] at ht
    split at ht
    · obtain rfl := Option.some.inj ht
      exact h.put (hfits.quiet (Or.inr rfl))
    · obtain rfl := Option.some.inj ht
      exact h.put (hfits.quiet (Or.inr rfl))
    · next m hphase =>
      obtain rfl := Option.some.inj ht
      refine h.put (hfits.sent hphase (Or.inr ⟨rfl, ?_⟩))
      cases done with
      | false => exact Or.inr rfl
      | true => exact Or.inl rfl
    · cases ht
  | reconnect v =>
    have hinv : Inv jwt { s with broker := s.broker.reconnect w } := by
      have hchange := h.change (h.sound.reconnect w) (Broker.history_modify w _)
        (k := k) (w := w) (fun v hv => by
          rw [Broker.reconnect, Broker.subscription_modify, if_neg hv])
        (by
          rw [Broker.reconnect, Broker.subscription_modify, if_pos rfl]
          exact hfits.keep (fun _ => ⟨rfl, rfl⟩) (Or.inl fun _ => rfl))
      rwa [put_self hk] at hchange
    simp only [LiveUpdates.turn] at ht
    split at ht
    · obtain rfl := Option.some.inj ht
      exact hinv
    · obtain rfl := Option.some.inj ht
      exact hinv
    · cases ht
  | finish v =>
    simp only [LiveUpdates.turn] at ht
    split at ht
    · next hphase =>
      obtain rfl := Option.some.inj ht
      refine h.change (h.sound.unsubscribe w) (Broker.history_modify w _) (fun v hv => ?_) ?_
      · rw [Broker.unsubscribe, Broker.subscription_modify, if_neg hv]
      · rw [Broker.unsubscribe, Broker.subscription_modify, if_pos rfl]
        have hkeep : Fits jwt ((s.broker.subscription w).map fun sub =>
            { sub with queue := [], active := false }) k :=
          hfits.keep (fun _ => ⟨rfl, rfl⟩) (Or.inr hphase)
        exact hkeep.quiet (Or.inl ⟨_, rfl⟩)
    · cases ht
  | _ => cases ht

/-! ### The requests -/

theorem mem_pending {i j : ℕ} {m : Message} {ms : List Message}
    (h : m ∈ Function.update s.pending i ms j) : j = i ∧ m ∈ ms ∨ j ≠ i ∧ m ∈ s.pending j := by
  by_cases hj : j = i
  · subst hj
    rw [Function.update_self] at h
    exact Or.inl ⟨rfl, h⟩
  · rw [Function.update_of_ne hj] at h
    exact Or.inr ⟨hj, h⟩

theorem Numbered.commit (h : Numbered s) (i : ℕ) (u : Update) :
    Numbered { s with
      pending := Function.update s.pending i (s.pending i ++ [⟨s.nextSerial, u⟩])
      nextSerial := s.nextSerial + 1 } := by
  have hnew : ∀ {j : ℕ} {m : Message},
      m ∈ Function.update s.pending i (s.pending i ++ [⟨s.nextSerial, u⟩]) j →
      m ∈ s.pending j ∨ j = i ∧ m = ⟨s.nextSerial, u⟩ := by
    intro j m hm
    rcases mem_pending hm with ⟨rfl, hm⟩ | ⟨-, hm⟩
    · exact (List.mem_append.mp hm).imp id fun hm => ⟨rfl, List.mem_singleton.mp hm⟩
    · exact Or.inl hm
  refine ⟨fun c m hm => ?_, fun j m hm => ?_, h.published, fun j => ?_, fun j l hjl m hm n hn => ?_,
    fun c j m hm n hn => ?_⟩
  · exact ⟨(h.channels c m hm).1, (h.channels c m hm).2.trans (Nat.lt_succ_self _)⟩
  · rcases hnew hm with hm | ⟨-, rfl⟩
    · exact (h.pending j m hm).trans (Nat.lt_succ_self _)
    · exact Nat.lt_succ_self _
  · dsimp only
    by_cases hj : j = i
    · subst hj
      rw [Function.update_self, List.map_append, List.nodup_append]
      refine ⟨h.once j, List.nodup_singleton _, fun a ha b hb => ?_⟩
      obtain ⟨m, hm, rfl⟩ := List.mem_map.mp ha
      obtain rfl := List.mem_singleton.mp hb
      exact (h.pending j m hm).ne
    · rw [Function.update_of_ne hj]
      exact h.once j
  · rcases hnew hm with hm' | ⟨rfl, rfl⟩
    · rcases hnew hn with hn' | ⟨rfl, rfl⟩
      · exact h.apart j l hjl m hm' n hn'
      · exact (h.pending j m hm').ne
    · rcases hnew hn with hn' | ⟨rfl, rfl⟩
      · exact (h.pending l n hn').ne'
      · exact absurd rfl hjl
  · rcases hnew hn with hn' | ⟨rfl, rfl⟩
    · exact h.waiting c j m hm n hn'
    · exact (h.channels c m hm).2.ne

/- A request is done with its first message. -/
theorem Numbered.drop (h : Numbered s) {i : ℕ} {m : Message} {rest : List Message}
    (hi : s.pending i = m :: rest) :
    Numbered { s with pending := Function.update s.pending i rest } := by
  have hold : ∀ {j : ℕ} {n : Message}, n ∈ Function.update s.pending i rest j →
      n ∈ s.pending j := by
    intro j n hn
    rcases mem_pending hn with ⟨rfl, hrest⟩ | ⟨-, hother⟩
    · rw [hi]
      exact List.mem_cons_of_mem m hrest
    · exact hother
  refine ⟨h.channels, fun j n hn => h.pending j n (hold hn), h.published, fun j => ?_,
    fun j l hjl a ha b hb => h.apart j l hjl a (hold ha) b (hold hb),
    fun c j a ha b hb => h.waiting c j a ha b (hold hb)⟩
  dsimp only
  by_cases hj : j = i
  · subst hj
    have honce := h.once j
    rw [hi, List.map_cons, List.nodup_cons] at honce
    rw [Function.update_self]
    exact honce.2
  · rw [Function.update_of_ne hj]
    exact h.once j

theorem Numbered.publish (h : Numbered s) {i : ℕ} {m : Message} {rest : List Message}
    (hi : s.pending i = m :: rest) :
    Numbered { s with
      broker := s.broker.publish m.update.channel m
      pending := Function.update s.pending i rest } := by
  have hm : m ∈ s.pending i := hi ▸ List.mem_cons_self
  have hdrop := h.drop hi
  have hmem : ∀ {c : String} {n : Message},
      n ∈ (s.broker.publish m.update.channel m).history c →
      n ∈ s.broker.history c ∨ c = m.update.channel ∧ n = m := by
    intro c n hn
    simp only [Broker.publish] at hn
    by_cases hc : c = m.update.channel
    · subst hc
      rw [Function.update_self] at hn
      exact (List.mem_append.mp hn).imp id fun hn => ⟨rfl, List.mem_singleton.mp hn⟩
    · rw [Function.update_of_ne hc] at hn
      exact Or.inl hn
  refine ⟨fun c n hn => ?_, hdrop.pending, fun c => ?_, hdrop.once, hdrop.apart,
    fun c j a ha b hb => ?_⟩
  · rcases hmem hn with hn | ⟨rfl, rfl⟩
    · exact h.channels c n hn
    · exact ⟨rfl, h.pending i n hm⟩
  · simp only [Broker.publish]
    by_cases hc : c = m.update.channel
    · subst hc
      rw [Function.update_self, List.map_append, List.nodup_append]
      refine ⟨h.published _, List.nodup_singleton _, fun a ha b hb => ?_⟩
      obtain ⟨n, hn, rfl⟩ := List.mem_map.mp ha
      obtain rfl := List.mem_singleton.mp hb
      exact h.waiting _ i n hn m hm
    · rw [Function.update_of_ne hc]
      exact h.published c
  · rcases hmem ha with ha | ⟨rfl, rfl⟩
    · exact hdrop.waiting c j a ha b hb
    · rcases mem_pending hb with ⟨rfl, hrest⟩ | ⟨hne, hother⟩
      · have honce := h.once j
        rw [hi, List.map_cons, List.nodup_cons] at honce
        exact fun heq => honce.1 (heq ▸ List.mem_map_of_mem hrest)
      · exact h.apart i j (Ne.symm hne) a hm b hother

theorem Inv.step (h : Inv jwt s) {l : Label} (hs : step jwt s l = some s') : Inv jwt s' := by
  have hturn : ∀ l : Label, (l.socket.bind fun w => (s.sockets w).bind fun k =>
      LiveUpdates.turn jwt s w k l) = some s' → Inv jwt s' := by
    intro l hl
    obtain ⟨w, -, hl⟩ := Option.bind_eq_some_iff.mp hl
    obtain ⟨k, hk, hl⟩ := Option.bind_eq_some_iff.mp hl
    exact h.turn hk hl
  cases l with
  | write users servers =>
    obtain rfl := Option.some.inj hs
    exact ⟨h.sound, ⟨h.numbered.1, h.numbered.2, h.numbered.3, h.numbered.4, h.numbered.5,
      h.numbered.6⟩, h.fresh, h.fits⟩
  | commit i u =>
    obtain rfl := Option.some.inj hs
    exact ⟨h.sound, h.numbered.commit i u, h.fresh, h.fits⟩
  | publish i =>
    simp only [LiveUpdates.step] at hs
    split at hs
    · cases hs
    · next m rest hi =>
      obtain rfl := Option.some.inj hs
      refine ⟨h.sound.publish _ m, h.numbered.publish hi, fun w hw => ?_, fun w k hk => ?_⟩
      · simp only [Broker.publish]
        rw [h.fresh w hw, Option.map_none]
      · refine (h.fits w k hk).keep (fun t => ?_) (Or.inl fun t => ?_)
        · split <;> exact ⟨rfl, rfl⟩
        · split <;> rfl
  | lose i =>
    simp only [LiveUpdates.step] at hs
    split at hs
    · cases hs
    · next m rest hi =>
      obtain rfl := Option.some.inj hs
      exact ⟨h.sound, h.numbered.drop hi, h.fresh, h.fits⟩
  | connect w kind serverId token =>
    simp only [LiveUpdates.step] at hs
    split at hs
    · next hfresh =>
      obtain rfl := Option.some.inj hs
      have hnone := h.fresh w (Option.isNone_iff_eq_none.mp hfresh)
      refine h.put ?_
      rw [hnone]
      exact ⟨by simp, by simp, by simp, fun _ => rfl, by simp, fun _ => rfl, by simp, by simp,
        by simp⟩
    · cases hs
  | authenticate w => exact hturn (.authenticate w) hs
  | own w => exact hturn (.own w) hs
  | subscribe w => exact hturn (.subscribe w) hs
  | take w => exact hturn (.take w) hs
  | sent w ok => exact hturn (.sent w ok) hs
  | left w done => exact hturn (.left w done) hs
  | reconnect w => exact hturn (.reconnect w) hs
  | finish w => exact hturn (.finish w) hs

end

/-- A client is sent updates of its kind and server alone, which its token must own; each at
most once, in the order they were published; and until its connection to Redis is lost,
without a gap since it subscribed. -/
theorem live_updates_delivered {s : State} (hr : Reachable (step jwt) init s) {w : ℕ}
    {k : Socket} (hk : s.sockets w = some k) : Delivered jwt s w k :=
  (reachable_invariant (Inv jwt) (fun _ _ _ h hs => h.step hs) (inv_init jwt) hr).delivered hk

/- Tokens of a test: the text is the subject. -/
def plainJwt : Jwt := ⟨fun text => some ⟨none, some text⟩⟩

/- A sample of server 7, which belongs to user 1, or of another one. -/
def sample (id : ℕ) (serverId : ℕ := 7) : Update :=
  .metric ⟨id, serverId, .fin 20, .fin 30, .fin 40, 0⟩

/- The client of socket 0 subscribes after the first sample of its server and gets the other
two; a sample of another server is committed and published in between. -/
def twoSamples : List Label :=
  [.write [⟨1, "a@x.test", "hash", none, true, none, false⟩]
      [⟨7, "web", "hash", 1, none, true, none, false⟩],
    .connect 0 .metrics 7 (some "1"), .authenticate 0, .own 0, .commit 0 (sample 1), .publish 0,
    .subscribe 0, .commit 1 (sample 2), .commit 2 (sample 3 9), .publish 1, .commit 0 (sample 4),
    .publish 2, .take 0, .publish 0, .sent 0 true, .take 0, .sent 0 true]

theorem twoSamples_received : ((run (step plainJwt) init twoSamples).bind fun s => s.sockets 0).map
    Socket.received = some [⟨1, sample 2⟩, ⟨3, sample 4⟩] := by decide

theorem two_samples_delivered : ∃ s k, run (step plainJwt) init twoSamples = some s ∧
    s.sockets 0 = some k ∧ k.received = [⟨1, sample 2⟩, ⟨3, sample 4⟩] ∧
      Delivered plainJwt s 0 k := by
  obtain ⟨k, hk, hreceived⟩ := Option.map_eq_some_iff.mp twoSamples_received
  obtain ⟨s, hs, hk⟩ := Option.bind_eq_some_iff.mp hk
  exact ⟨s, k, hs, hk, hreceived, live_updates_delivered plainJwt ⟨twoSamples, hs⟩ hk⟩

/-! ### The order of the commits -/

/- A request commits for a channel when no other one has still to publish on it. -/
def Alone (s : State) : Label → Prop
  | .commit i u => ∀ j, j ≠ i → ∀ m ∈ s.pending j, m.update.channel ≠ u.channel
  | _ => True

def State.waitingOn (s : State) (c : String) (i : ℕ) : List Message :=
  (s.pending i).filter fun m => m.update.channel = c

/- Each channel has one request at most, and its messages are behind the published ones. -/
structure InOrder (s : State) : Prop where
  sorted : ∀ c i, ((s.broker.history c ++ s.waitingOn c i).map Message.serial).Pairwise (· < ·)
  single : ∀ i j, i ≠ j → ∀ m ∈ s.pending i, ∀ n ∈ s.pending j,
    m.update.channel ≠ n.update.channel

section
variable {jwt} {s s' : State}

theorem turn_frame {w : ℕ} {k : Socket} {l : Label} (ht : turn jwt s w k l = some s') :
    s'.pending = s.pending ∧ s'.broker.history = s.broker.history := by
  cases l with
  | authenticate v =>
    simp only [turn] at ht
    split at ht
    · split at ht <;> (obtain rfl := Option.some.inj ht; exact ⟨rfl, rfl⟩)
    · cases ht
  | own v =>
    simp only [turn] at ht
    split at ht
    · split at ht <;> (obtain rfl := Option.some.inj ht; exact ⟨rfl, rfl⟩)
    · cases ht
  | subscribe v =>
    simp only [turn] at ht
    split at ht
    · obtain rfl := Option.some.inj ht
      exact ⟨rfl, rfl⟩
    · cases ht
  | take v =>
    simp only [turn] at ht
    split at ht
    · obtain ⟨⟨m, b⟩, hb, rfl⟩ := Option.map_eq_some_iff.mp ht
      obtain ⟨sub, queue, -, -, rfl⟩ := Broker.take_spec hb
      exact ⟨rfl, rfl⟩
    · cases ht
  | sent v ok =>
    simp only [turn] at ht
    split at ht
    · split at ht <;> (obtain rfl := Option.some.inj ht; exact ⟨rfl, rfl⟩)
    · cases ht
  | left v done =>
    simp only [turn] at ht
    split at ht
    · obtain rfl := Option.some.inj ht
      exact ⟨rfl, rfl⟩
    · obtain rfl := Option.some.inj ht
      exact ⟨rfl, rfl⟩
    · obtain rfl := Option.some.inj ht
      exact ⟨rfl, rfl⟩
    · cases ht
  | reconnect v =>
    simp only [turn] at ht
    split at ht
    · obtain rfl := Option.some.inj ht
      exact ⟨rfl, Broker.history_modify w _⟩
    · obtain rfl := Option.some.inj ht
      exact ⟨rfl, Broker.history_modify w _⟩
    · cases ht
  | finish v =>
    simp only [turn] at ht
    split at ht
    · obtain rfl := Option.some.inj ht
      exact ⟨rfl, Broker.history_modify w _⟩
    · cases ht
  | _ => cases ht

theorem InOrder.commit (h : InOrder s) (hn : Numbered s) {i : ℕ} {u : Update}
    (halone : Alone s (.commit i u)) :
    InOrder { s with
      pending := Function.update s.pending i (s.pending i ++ [⟨s.nextSerial, u⟩])
      nextSerial := s.nextSerial + 1 } := by
  refine ⟨fun c j => ?_, fun j l hjl m hm n hn' => ?_⟩
  · simp only [State.waitingOn]
    by_cases hj : j = i
    · subst hj
      rw [Function.update_self, List.filter_append, ← List.append_assoc, List.map_append,
        List.pairwise_append]
      refine ⟨h.sorted c j, ?_, fun a ha b hb => ?_⟩
      · refine List.Pairwise.map _ (fun _ _ h => h) (List.Pairwise.filter _ ?_)
        exact List.pairwise_singleton _ _
      · obtain ⟨m, hm, rfl⟩ := List.mem_map.mp ha
        obtain ⟨n, hb', rfl⟩ := List.mem_map.mp hb
        obtain rfl := List.mem_singleton.mp (List.mem_filter.mp hb').1
        rcases List.mem_append.mp hm with hm | hm
        · exact (hn.channels c m hm).2
        · exact hn.pending j m (List.mem_filter.mp hm).1
    · rw [Function.update_of_ne hj]
      exact h.sorted c j
  · rcases mem_pending hm with ⟨rfl, hm'⟩ | ⟨hj, hm'⟩
    · rcases mem_pending hn' with ⟨rfl, -⟩ | ⟨-, hn''⟩
      · exact absurd rfl hjl
      · rcases List.mem_append.mp hm' with hm' | hm'
        · exact h.single j l hjl m hm' n hn''
        · obtain rfl := List.mem_singleton.mp hm'
          exact (halone l (Ne.symm hjl) n hn'').symm
    · rcases mem_pending hn' with ⟨rfl, hn''⟩ | ⟨-, hn''⟩
      · rcases List.mem_append.mp hn'' with hn'' | hn''
        · exact h.single j l hjl m hm' n hn''
        · obtain rfl := List.mem_singleton.mp hn''
          exact halone j hj m hm'
      · exact h.single j l hjl m hm' n hn''

theorem waitingOn_drop {i : ℕ} {m : Message} {rest : List Message} (hi : s.pending i = m :: rest)
    (c : String) (j : ℕ) :
    ({ s with pending := Function.update s.pending i rest }.waitingOn c j).Sublist
      (s.waitingOn c j) := by
  unfold State.waitingOn
  dsimp only
  by_cases hj : j = i
  · subst hj
    rw [Function.update_self, hi]
    exact (List.sublist_cons_self m rest).filter _
  · rw [Function.update_of_ne hj]

theorem InOrder.drop (h : InOrder s) {i : ℕ} {m : Message} {rest : List Message}
    (hi : s.pending i = m :: rest) :
    InOrder { s with pending := Function.update s.pending i rest } := by
  have hold : ∀ {j : ℕ} {n : Message}, n ∈ Function.update s.pending i rest j →
      n ∈ s.pending j := by
    intro j n hn
    rcases mem_pending hn with ⟨rfl, hrest⟩ | ⟨-, hother⟩
    · rw [hi]
      exact List.mem_cons_of_mem m hrest
    · exact hother
  refine ⟨fun c j => ?_, fun j l hjl a ha b hb => h.single j l hjl a (hold ha) b (hold hb)⟩
  have hsub := (List.Sublist.refl (s.broker.history c)).append (waitingOn_drop hi c j)
  exact (h.sorted c j).sublist (hsub.map _)

theorem InOrder.publish (h : InOrder s) {i : ℕ} {m : Message} {rest : List Message}
    (hi : s.pending i = m :: rest) :
    InOrder { s with
      broker := s.broker.publish m.update.channel m
      pending := Function.update s.pending i rest } := by
  have hm : m ∈ s.pending i := hi ▸ List.mem_cons_self
  have hdrop := h.drop hi
  refine ⟨fun c j => ?_, hdrop.single⟩
  simp only [Broker.publish]
  by_cases hc : c = m.update.channel
  · subst hc
    have hsorted := h.sorted m.update.channel i
    have hfirst : s.waitingOn m.update.channel i =
        m :: rest.filter fun n => n.update.channel = m.update.channel := by
      rw [State.waitingOn, hi, List.filter_cons_of_pos (by simp)]
    rw [hfirst] at hsorted
    rw [Function.update_self]
    refine hsorted.sublist (List.Sublist.map _ ?_)
    rw [List.append_assoc]
    refine (List.Sublist.refl _).append (List.Sublist.cons_cons m ?_)
    unfold State.waitingOn
    dsimp only
    by_cases hj : j = i
    · subst hj
      rw [Function.update_self]
      exact List.Sublist.refl _
    · have hnone : ((s.pending j).filter fun n => n.update.channel = m.update.channel) = [] := by
        rw [List.filter_eq_nil_iff]
        intro n hn
        simpa using (h.single i j (Ne.symm hj) m hm n hn).symm
      rw [Function.update_of_ne hj, hnone]
      exact List.nil_sublist _
  · rw [Function.update_of_ne hc]
    exact hdrop.sorted c j

theorem InOrder.step (h : InOrder s) (hn : Numbered s) {l : Label} (hok : Alone s l)
    (hs : step jwt s l = some s') : InOrder s' := by
  have hframe : s'.pending = s.pending ∧ s'.broker.history = s.broker.history → InOrder s' := by
    rintro ⟨hpending, hhistory⟩
    refine ⟨fun c i => ?_, fun i j hij => ?_⟩
    · rw [State.waitingOn, hpending, hhistory]
      exact h.sorted c i
    · rw [hpending]
      exact h.single i j hij
  have hturn : ∀ l : Label, (l.socket.bind fun w => (s.sockets w).bind fun k =>
      turn jwt s w k l) = some s' → InOrder s' := by
    intro l hl
    obtain ⟨w, -, hl⟩ := Option.bind_eq_some_iff.mp hl
    obtain ⟨k, -, hl⟩ := Option.bind_eq_some_iff.mp hl
    exact hframe (turn_frame hl)
  cases l with
  | write users servers =>
    obtain rfl := Option.some.inj hs
    exact hframe ⟨rfl, rfl⟩
  | commit i u =>
    obtain rfl := Option.some.inj hs
    exact h.commit hn hok
  | publish i =>
    simp only [LiveUpdates.step] at hs
    split at hs
    · cases hs
    · next m rest hi =>
      obtain rfl := Option.some.inj hs
      exact h.publish hi
  | lose i =>
    simp only [LiveUpdates.step] at hs
    split at hs
    · cases hs
    · next m rest hi =>
      obtain rfl := Option.some.inj hs
      exact h.drop hi
  | connect w kind serverId token =>
    simp only [LiveUpdates.step] at hs
    split at hs
    · obtain rfl := Option.some.inj hs
      exact hframe ⟨rfl, rfl⟩
    · cases hs
  | authenticate w => exact hturn (.authenticate w) hs
  | own w => exact hturn (.own w) hs
  | subscribe w => exact hturn (.subscribe w) hs
  | take w => exact hturn (.take w) hs
  | sent w ok => exact hturn (.sent w ok) hs
  | left w done => exact hturn (.left w done) hs
  | reconnect w => exact hturn (.reconnect w) hs
  | finish w => exact hturn (.finish w) hs

end

/-- While the requests of one server do not overlap, its clients are sent its updates in the
order they were committed. -/
theorem live_updates_in_commit_order {ls : List Label} {s : State}
    (ha : Along (step jwt) Alone init ls) (hr : run (step jwt) init ls = some s) {w : ℕ}
    {k : Socket} (hk : s.sockets w = some k) :
    (k.received.map Message.serial).Pairwise (· < ·) := by
  have hinit : InOrder init := ⟨by simp [init, Broker.init, State.waitingOn], by simp [init]⟩
  obtain ⟨hinv, horder⟩ := run_invariant (fun s => Inv jwt s ∧ InOrder s) Alone
    (fun _ _ _ hi hok hs => ⟨hi.1.step hs, hi.2.step hi.1.numbered hok hs⟩)
    ⟨inv_init jwt, hinit⟩ ha hr
  have hsorted := horder.sorted k.channel 0
  rw [List.map_append] at hsorted
  have hhistory := (List.pairwise_append.mp hsorted).1
  exact hhistory.sublist ((hinv.delivered hk).order.map _)

/- `Alone` as it is read off the first `n` requests, where no other one commits. -/
def AloneAmong (n : ℕ) (s : State) : Label → Prop
  | .commit i u => i < n ∧ ∀ j < n, j ≠ i → ∀ m ∈ s.pending j, m.update.channel ≠ u.channel
  | _ => True

instance (n : ℕ) (s : State) : ∀ l, Decidable (AloneAmong n s l)
  | .commit i _ => inferInstanceAs (Decidable (i < n ∧ _))
  | .write _ _ | .publish _ | .lose _ | .connect _ _ _ _ | .authenticate _ | .own _ | .subscribe _
  | .take _ | .sent _ _ | .left _ _ | .reconnect _ | .finish _ => inferInstanceAs (Decidable True)

section
variable {jwt}

theorem along_alone {n : ℕ} {ls : List Label} (h : Along (step jwt) (AloneAmong n) init ls) :
    Along (step jwt) Alone init ls := by
  refine along_of_invariant (fun s => ∀ j, n ≤ j → s.pending j = []) ?_ ?_ (fun _ _ => rfl) h
  · intro s l s' hnone hok hs j hj
    have hturn : ∀ l : Label, (l.socket.bind fun w => (s.sockets w).bind fun k =>
        turn jwt s w k l) = some s' → s'.pending j = [] := by
      intro l hl
      obtain ⟨w, -, hl⟩ := Option.bind_eq_some_iff.mp hl
      obtain ⟨k, -, hl⟩ := Option.bind_eq_some_iff.mp hl
      rw [(turn_frame hl).1]
      exact hnone j hj
    have hdrop : ∀ i m rest, s.pending i = m :: rest →
        Function.update s.pending i rest j = [] := by
      intro i m rest hi
      have hne : j ≠ i := by
        rintro rfl
        rw [hnone j hj] at hi
        cases hi
      rw [Function.update_of_ne hne]
      exact hnone j hj
    cases l with
    | write users servers =>
      obtain rfl := Option.some.inj hs
      exact hnone j hj
    | commit i u =>
      obtain rfl := Option.some.inj hs
      have hne : j ≠ i := fun he => absurd (he ▸ hj) (Nat.not_le.mpr hok.1)
      show Function.update s.pending i _ j = []
      rw [Function.update_of_ne hne]
      exact hnone j hj
    | publish i =>
      simp only [LiveUpdates.step] at hs
      split at hs
      · cases hs
      · next m rest hi =>
        obtain rfl := Option.some.inj hs
        exact hdrop i m rest hi
    | lose i =>
      simp only [LiveUpdates.step] at hs
      split at hs
      · cases hs
      · next m rest hi =>
        obtain rfl := Option.some.inj hs
        exact hdrop i m rest hi
    | connect w kind serverId token =>
      simp only [LiveUpdates.step] at hs
      split at hs
      · obtain rfl := Option.some.inj hs
        exact hnone j hj
      · cases hs
    | authenticate w => exact hturn (.authenticate w) hs
    | own w => exact hturn (.own w) hs
    | subscribe w => exact hturn (.subscribe w) hs
    | take w => exact hturn (.take w) hs
    | sent w ok => exact hturn (.sent w ok) hs
    | left w done => exact hturn (.left w done) hs
    | reconnect w => exact hturn (.reconnect w) hs
    | finish w => exact hturn (.finish w) hs
  · intro s l hnone hok
    cases l with
    | commit i u =>
      intro j hj m hm
      by_cases hjn : j < n
      · exact hok.2 j hjn hj m hm
      · rw [hnone j (Nat.not_lt.mp hjn)] at hm
        cases hm
    | _ => trivial

end

theorem two_samples_in_commit_order :
    ∃ s k, run (step plainJwt) init twoSamples = some s ∧ s.sockets 0 = some k ∧
      k.received = [⟨1, sample 2⟩, ⟨3, sample 4⟩] ∧
      (k.received.map Message.serial).Pairwise (· < ·) := by
  have halong : Along (step plainJwt) Alone init twoSamples := along_alone (n := 3) (by decide)
  obtain ⟨k, hk, hreceived⟩ := Option.map_eq_some_iff.mp twoSamples_received
  obtain ⟨s, hs, hk⟩ := Option.bind_eq_some_iff.mp hk
  exact ⟨s, k, hs, hk, hreceived, live_updates_in_commit_order plainJwt halong hs hk⟩

end PulseWatch.LiveUpdates
