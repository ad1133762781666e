import PulseWatch.RuleOwners

/-!
# The two-step `/delete` of the bot (`app/telegram_bot.py`, `app/redis_client.py`)

`/delete <id>` writes the server into the chat's one Redis slot for 60 seconds,
`/delete <id> confirm` takes the slot out whatever it holds and deletes on a match.
A journal beside the bot keeps what its commands did; what the slot of a chat holds
is a function of the journal.
-/

namespace PulseWatch.PendingDelete
open ExpiringStore RedisClient RuleLedger TelegramBot

/- The message in hand: when it came, and, once the bot has looked the chat up, the
linked user and the servers he owned at that moment. -/
structure Receipt where
  chatId : ℤ
  text : String
  receivedAt : Instant
  user : Option ℕ := none
  own : List ℕ := []
  deriving DecidableEq, Repr

/- A request is noted at its SET, a confirm at its GET and DEL, a deletion at its
COMMIT. Nothing reads the journal. -/
inductive Entry where
  | requested (m : Receipt) (serverId : ℕ) (storedAt : Instant)
  | tried (m : Receipt) (serverId : ℕ) (accepted : Bool) (triedAt : Instant)
  | deleted (serverId : ℕ)
  deriving DecidableEq, Repr

/-- The chat whose slot the entry has changed. -/
def Entry.chatId : Entry → Option ℤ
  | .requested m _ _ => some m.chatId
  | .tried m _ _ _ => some m.chatId
  | .deleted _ => none

structure Desk where
  state : State
  hand : Receipt
  journal : List Entry

def opened (now : Instant) : Desk := ⟨init now, ⟨0, "", now, none, []⟩, []⟩

def identify (s : State) (m : Receipt) : Receipt :=
  match findUserByChatId m.chatId s.users with
  | .one user => { m with
      user := some user.id
      own := (s.db.fleet.servers.filter fun r => r.ownerId = user.id).map Server.id }
  | _ => m

/- What a step adds to the notes. -/
def Desk.observe (d : Desk) : Label → Receipt × List Entry
  | .message chatId text => ({ chatId, text, receivedAt := d.state.db.fleet.now }, d.journal)
  | .bot => match d.state.bot with
    | .finding _ _ => (identify d.state d.hand, d.journal)
    | .remembering _ serverId =>
      (d.hand, .requested d.hand serverId d.state.db.fleet.now :: d.journal)
    | .checking chatId serverId =>
      (d.hand, .tried d.hand serverId (d.state.consumePendingDelete chatId serverId).1
        d.state.db.fleet.now :: d.journal)
    | .dropping serverId => (d.hand, .deleted serverId :: d.journal)
    | _ => (d.hand, d.journal)
  | _ => (d.hand, d.journal)

section
variable (py : PyStr) (cr : Crypto) (floatStr : PyFloat → String) (attrs : Alerts.Attributes)

def watch (d : Desk) (l : Label) : Option Desk :=
  (step py cr floatStr attrs d.state l).map fun state =>
    ⟨state, (d.observe l).1, (d.observe l).2⟩

def RequestText (text : String) (serverId : ℕ) : Prop :=
  ∃ id, PyText.split text = ["/delete", id] ∧ py.decimal id = some serverId

def ConfirmText (text : String) (serverId : ℕ) : Prop :=
  ∃ id, PyText.split text = ["/delete", id, "confirm"] ∧ py.decimal id = some serverId

/- A deletion in a journal, with the confirm and the request before it; `first` is
what lies between these two. -/
structure Deletion where
  newer : List Entry
  serverId : ℕ
  confirm : Receipt
  confirmedAt : Instant
  first : List Entry
  request : Receipt
  requestedAt : Instant
  rest : List Entry

def Deletion.journal (x : Deletion) : List Entry :=
  x.newer ++ .deleted x.serverId :: .tried x.confirm x.serverId true x.confirmedAt ::
    (x.first ++ .requested x.request x.serverId x.requestedAt :: x.rest)

structure Deletion.Granted (x : Deletion) : Prop where
  confirmText : ConfirmText py x.confirm.text x.serverId
  requestText : RequestText py x.request.text x.serverId
  sameChat : x.request.chatId = x.confirm.chatId
  inTime : x.confirmedAt ≤ x.requestedAt + seconds 60
  undisturbed : ∀ e ∈ x.first, e.chatId ≠ some x.confirm.chatId
  linked : x.confirm.user.isSome = true
  owned : x.serverId ∈ x.confirm.own

/- A server row disappears in a step of the bot only with a deletion noted; every
deletion has its request and its confirm, and no two have the same request. -/
structure DeleteLaw (d : Desk) : Prop where
  noted : ∀ d', watch py cr floatStr attrs d .bot = some d' →
    ∀ r ∈ d.state.db.fleet.servers, (∀ q ∈ d'.state.db.fleet.servers, q.id ≠ r.id) →
      d'.journal = .deleted r.id :: d.journal
  granted : ∀ newer serverId older, d.journal = newer ++ .deleted serverId :: older →
    ∃ x : Deletion, x.journal = d.journal ∧ x.newer = newer ∧ x.serverId = serverId ∧
      x.Granted py
  once : ∀ x y : Deletion, x.journal = d.journal → y.journal = d.journal → x.Granted py →
    y.Granted py → x.rest = y.rest → x.newer = y.newer

end

/-! ### The slot of a chat -/

/- The server and the time of the request a confirm of the chat would find. -/
def slot (chatId : ℤ) : List Entry → Option (ℕ × Instant)
  | [] => none
  | .requested m serverId storedAt :: entries =>
    if m.chatId = chatId then some (serverId, storedAt) else slot chatId entries
  | .tried m _ _ _ :: entries => if m.chatId = chatId then none else slot chatId entries
  | .deleted _ :: entries => slot chatId entries

theorem slot_other {chatId : ℤ} {e : Entry} (h : e.chatId ≠ some chatId) (entries : List Entry) :
    slot chatId (e :: entries) = slot chatId entries := by
  cases e with
  | requested m serverId storedAt => exact if_neg fun hc => h (congrArg some hc)
  | tried m serverId accepted triedAt => exact if_neg fun hc => h (congrArg some hc)
  | deleted serverId => rfl

theorem slot_request {chatId : ℤ} {entries : List Entry} {serverId : ℕ} {storedAt : Instant}
    (h : slot chatId entries = some (serverId, storedAt)) :
    ∃ first m rest, entries = first ++ .requested m serverId storedAt :: rest ∧
      m.chatId = chatId ∧ ∀ e ∈ first, e.chatId ≠ some chatId := by
  induction entries with
  | nil => cases h
  | cons e entries ih =>
    by_cases hc : e.chatId = some chatId
    · cases e with
      | requested m n t =>
        have hm : m.chatId = chatId := Option.some.inj hc
        rw [slot, if_pos hm] at h
        cases h
        exact ⟨[], m, entries, rfl, hm, fun e he => absurd he List.not_mem_nil⟩
      | tried m n accepted t =>
        rw [slot, if_pos (Option.some.inj hc)] at h
        cases h
      | deleted n => cases hc
    · rw [slot_other hc] at h
      obtain ⟨first, m, rest, rfl, hm, hfirst⟩ := ih h
      refine ⟨e :: first, m, rest, rfl, hm, ?_⟩
      intro f hf
      rcases List.mem_cons.mp hf with rfl | hf
      · exact hc
      · exact hfirst f hf

/- Of two deletions granted by one request neither is the newer one: the confirm of
the older would stand between the request and the confirm of the newer. -/
theorem granted_newest {py : PyStr} {x y : Deletion} (hj : x.journal = y.journal)
    (hx : x.Granted py) (hy : y.Granted py) (hrest : x.rest = y.rest) :
    y.newer.length ≤ x.newer.length := by
  by_contra hlt
  have hsplit : (x.newer ++ .deleted x.serverId :: .tried x.confirm x.serverId true x.confirmedAt ::
      x.first) ++ .requested x.request x.serverId x.requestedAt :: x.rest =
      (y.newer ++ .deleted y.serverId :: .tried y.confirm y.serverId true y.confirmedAt ::
      y.first) ++ .requested y.request y.serverId y.requestedAt :: y.rest := by
    simpa [Deletion.journal] using hj
  obtain ⟨hnew, hold⟩ := List.append_inj' hsplit (by simp only [List.length_cons, hrest])
  have hchat : y.confirm.chatId = x.confirm.chatId := by
    have hreq := (Entry.requested.inj (List.cons.inj hold).1).1
    rw [← hy.sameChat, ← hx.sameChat, hreq]
  rcases List.append_eq_append_iff.mp hnew with ⟨c, hc, hrest'⟩ | ⟨c, hc, hrest'⟩
  · match c with
    | [] => simp [hc] at hlt
    | [e] => simp at hrest'
    | e :: f :: c =>
      have hmem : Entry.tried y.confirm y.serverId true y.confirmedAt ∈ x.first := by
        have htail := (List.cons.inj (List.cons.inj hrest').2).2
        rw [htail]
        simp
      exact hx.undisturbed _ hmem (congrArg some hchat)
  · have hlen := congrArg List.length hc
    rw [List.length_append] at hlen
    omega

theorem granted_once {py : PyStr} {x y : Deletion} (hj : x.journal = y.journal)
    (hx : x.Granted py) (hy : y.Granted py) (hrest : x.rest = y.rest) : x.newer = y.newer := by
  have hle := granted_newest hj hx hy hrest
  have hge := granted_newest hj.symm hy hx hrest.symm
  exact (List.append_inj hj (by omega)).1

/-! ### Owners do not change -/

/- New servers have new ids: a server with an id of before had its owner before. -/
structure Grown (g g' : Ledger) : Prop where
  servers : ∀ r ∈ g'.servers, r.1 < g.nextServer → r ∈ g.servers
  next : g.nextServer ≤ g'.nextServer

theorem Grown.move {g g' : Ledger} (h : g.Move g') : Grown g g' := by
  cases h with
  | registered ownerId =>
    refine ⟨fun r hr hlt => ?_, Nat.le_succ _⟩
    rcases List.mem_cons.mp hr with rfl | hr
    · exact absurd hlt (lt_irrefl _)
    · exact hr
  | shrunk events pending he hp => exact ⟨fun r hr _ => hr, le_refl _⟩
  | created serverId ownerId own => exact ⟨fun r hr _ => hr, le_refl _⟩
  | removed rules events hr he => exact ⟨fun r hr _ => hr, le_refl _⟩
  | loaded i keys hk => exact ⟨fun r hr _ => hr, le_refl _⟩
  | fired i rest hp => exact ⟨fun r hr _ => hr, le_refl _⟩

section
variable {py : PyStr} {cr : Crypto} {floatStr : PyFloat → String} {attrs : Alerts.Attributes}

theorem step_grown {s s' : State} {l : TelegramBot.Label} (h : Inv s)
    (hs : step py cr floatStr attrs s l = some s') : Grown (ledger s.db) (ledger s'.db) := by
  by_cases hl : l = .bot
  · subst hl
    cases botStep_move h.sound hs with
    | quiet same old =>
      rw [same]
      exact ⟨fun r hr _ => hr, le_refl _⟩
    | chosen userId chatId server own owner same old =>
      rw [same]
      exact ⟨fun r hr _ => hr, le_refl _⟩
    | confirmed userId chatId data at' added old =>
      obtain ⟨hledger, -⟩ := addRule_ledger rfl added
      rw [hledger]
      exact ⟨fun r hr _ => hr, le_refl _⟩
    | dropped serverId gone old =>
      obtain ⟨events, -, hledger⟩ := ledger_removeServer s.db serverId
      rw [gone, hledger]
      exact ⟨fun r hr _ => List.mem_of_mem_filter hr, le_refl _⟩
  · exact Grown.move (step_beside h.sound hl hs).1

end

/-! ### The invariant -/

/-- A request for this server has been noted. -/
def Asked (journal : List Entry) (serverId : ℕ) : Prop :=
  ∃ m storedAt, .requested m serverId storedAt ∈ journal

theorem asked_cons {journal : List Entry} {e : Entry} {n : ℕ} (h : Asked (e :: journal) n) :
    (∃ m t, e = .requested m n t) ∨ Asked journal n := by
  obtain ⟨m, t, hin⟩ := h
  rcases List.mem_cons.mp hin with he | hin
  · exact Or.inl ⟨m, t, he.symm⟩
  · exact Or.inr ⟨m, t, hin⟩

/- What the bot has in hand on its way to a request or a deletion; `next` is the next
server id. -/
def InHand (py : PyStr) (bot : Bot) (hand : Receipt) (journal : List Entry) (next : ℕ) : Prop :=
  match bot with
  | .finding chatId text => hand.chatId = chatId ∧ hand.text = text
  | .found userId chatId text | .leaving userId chatId text =>
    hand.chatId = chatId ∧ hand.text = text ∧ hand.user = some userId
  | .deleting userId chatId serverId isConfirm =>
    hand.chatId = chatId ∧ hand.user = some userId ∧
      if isConfirm then ConfirmText py hand.text serverId else RequestText py hand.text serverId
  | .remembering chatId serverId =>
    hand.chatId = chatId ∧ RequestText py hand.text serverId ∧ serverId < next
  | .checking chatId serverId =>
    hand.chatId = chatId ∧ ConfirmText py hand.text serverId ∧ hand.user.isSome = true ∧
      (Asked journal serverId → serverId ∈ hand.own)
  | .dropping serverId =>
    ∃ triedAt rest, journal = .tried hand serverId true triedAt :: rest
  | _ => True

/-- What stands behind an accepted confirm. -/
def Backed (py : PyStr) (m : Receipt) (serverId : ℕ) (triedAt : Instant) (older : List Entry) :
    Prop :=
  ConfirmText py m.text serverId ∧ m.user.isSome = true ∧ serverId ∈ m.own ∧
    ∃ storedAt, slot m.chatId older = some (serverId, storedAt) ∧ triedAt ≤ storedAt + seconds 60

/- Every request and every accepted confirm in the journal has its reason, and a
deletion stands right after its confirm. -/
structure Reasoned (py : PyStr) (journal : List Entry) : Prop where
  texts : ∀ m n t, .requested m n t ∈ journal → RequestText py m.text n
  backed : ∀ newer m n t older, journal = newer ++ .tried m n true t :: older →
    Backed py m n t older
  followed : ∀ newer n older, journal = newer ++ .deleted n :: older →
    ∃ m t rest, older = .tried m n true t :: rest

structure DeskInv (py : PyStr) (d : Desk) : Prop where
  base : Inv d.state
  pending : ∀ e ∈ d.state.redis, ∀ chatId, e.key = .pendingDelete chatId →
    ∃ serverId storedAt, e.value = .serverId serverId ∧
      slot chatId d.journal = some (serverId, storedAt) ∧ e.deadline = storedAt + seconds 60
  below : ∀ n, Asked d.journal n → n < (ledger d.state.db).nextServer
  known : d.state.bot ≠ .idle → ∀ userId, d.hand.user = some userId → ∀ n, Asked d.journal n →
    (n, userId) ∈ (ledger d.state.db).servers → n ∈ d.hand.own
  inHand : InHand py d.state.bot d.hand d.journal (ledger d.state.db).nextServer
  reasoned : Reasoned py d.journal

section
variable {py : PyStr}

/- One more entry at the top of a journal. -/
theorem Reasoned.cons {journal : List Entry} {e : Entry} (h : Reasoned py journal)
    (ht : ∀ m n t, e = .requested m n t → RequestText py m.text n)
    (hb : ∀ m n t, e = .tried m n true t → Backed py m n t journal)
    (hf : ∀ n, e = .deleted n → ∃ m t rest, journal = .tried m n true t :: rest) :
    Reasoned py (e :: journal) := by
  refine ⟨fun m n t hin => ?_, fun newer m n t older hj => ?_, fun newer n older hj => ?_⟩
  · rcases List.mem_cons.mp hin with he | hin
    · exact ht m n t he.symm
    · exact h.texts m n t hin
  · cases newer with
    | nil =>
      obtain ⟨he, hrest⟩ := List.cons.inj hj
      rw [← hrest]
      exact hb m n t he
    | cons e' newer => exact h.backed newer m n t older (List.cons.inj hj).2
  · cases newer with
    | nil =>
      obtain ⟨he, hrest⟩ := List.cons.inj hj
      rw [← hrest]
      exact hf n he
    | cons e' newer => exact h.followed newer n older (List.cons.inj hj).2

theorem DeskInv.opened (now : Instant) : DeskInv py (opened now) where
  base := Inv.init now
  pending := fun _ he => absurd he List.not_mem_nil
  below := by
    rintro n ⟨m, t, hin⟩
    cases hin
  known := fun hb => absurd rfl hb
  inHand := trivial
  reasoned := by
    refine ⟨fun m n t hin => ?_, fun newer m n t older hj => ?_, fun newer n older hj => ?_⟩
    · cases hin
    · simp [PendingDelete.opened] at hj
    · simp [PendingDelete.opened] at hj

theorem InHand.mono {bot : Bot} {hand : Receipt} {journal : List Entry} {next next' : ℕ}
    (h : InHand py bot hand journal next) (hle : next ≤ next') :
    InHand py bot hand journal next' := by
  cases bot with
  | remembering chatId serverId => exact ⟨h.1, h.2.1, lt_of_lt_of_le h.2.2 hle⟩
  | _ => exact h

theorem DeskInv.quiet {d : Desk} {s' : State} {hand : Receipt} (h : DeskInv py d)
    (hbase : Inv s') (hg : Grown (ledger d.state.db) (ledger s'.db))
    (hredis : ∀ e ∈ s'.redis, ∀ chatId, e.key = .pendingDelete chatId → e ∈ d.state.redis)
    (hknown : s'.bot ≠ .idle → ∀ userId, hand.user = some userId → ∀ n, Asked d.journal n →
      (n, userId) ∈ (ledger s'.db).servers → n ∈ hand.own)
    (hhand : InHand py s'.bot hand d.journal (ledger s'.db).nextServer) :
    DeskInv py ⟨s', hand, d.journal⟩ where
  base := hbase
  pending := fun e he chatId hk => h.pending e (hredis e he chatId hk) chatId hk
  below := fun n hn => lt_of_lt_of_le (h.below n hn) hg.next
  known := hknown
  inHand := hhand
  reasoned := h.reasoned

/-- What the bot knew of the chat's user stays true while it handles the message. -/
theorem DeskInv.keeps {d : Desk} {s' : State} (h : DeskInv py d) (hb : d.state.bot ≠ .idle)
    (hg : Grown (ledger d.state.db) (ledger s'.db)) (userId : ℕ) (hu : d.hand.user = some userId)
    (n : ℕ) (hn : Asked d.journal n) (hs : (n, userId) ∈ (ledger s'.db).servers) :
    n ∈ d.hand.own :=
  h.known hb userId hu n hn (hg.servers _ hs (h.below n hn))

theorem dispatch_inHand {hand : Receipt} {journal : List Entry} {next userId : ℕ} {chatId : ℤ}
    {text : String} (hchat : hand.chatId = chatId) (htext : hand.text = text)
    (huser : hand.user = some userId) :
    InHand py (dispatch py userId chatId text) hand journal next := by
  subst htext
  unfold dispatch
  split
  · split
    · trivial
    · trivial
  · next id hsplit =>
    split
    · next serverId hid => exact ⟨hchat, huser, id, hsplit, hid⟩
    · trivial
  · next id hsplit =>
    split
    · next serverId hid => exact ⟨hchat, huser, id, hsplit, hid⟩
    · trivial
  · split
    · trivial
    · trivial

theorem resumeDraft_inHand {hand : Receipt} {journal : List Entry} {next userId : ℕ} {chatId : ℤ}
    {text : String} (hchat : hand.chatId = chatId) (htext : hand.text = text)
    (huser : hand.user = some userId) (draft : Option Draft) :
    InHand py (resumeDraft py userId chatId text draft) hand journal next := by
  cases draft with
  | none =>
    simp only [resumeDraft]
    split
    · exact dispatch_inHand hchat htext huser
    · trivial
  | some d =>
    simp only [resumeDraft]
    split
    · exact ⟨hchat, htext, huser⟩
    · split <;> trivial

end

section
variable {py : PyStr} {cr : Crypto} {floatStr : PyFloat → String} {attrs : Alerts.Attributes}

theorem DeskInv.beside {d d' : Desk} {l : TelegramBot.Label} (h : DeskInv py d) (hl : l ≠ .bot)
    (hs : watch py cr floatStr attrs d l = some d') : DeskInv py d' := by
  obtain ⟨s', hstep, rfl⟩ := Option.map_eq_some_iff.mp hs
  have hbase := h.base.step hstep
  have hg := step_grown h.base hstep
  have hstay : s'.bot = d.state.bot → (d.observe l).1 = d.hand → (d.observe l).2 = d.journal →
      (∀ e ∈ s'.redis, ∀ chatId, e.key = .pendingDelete chatId → e ∈ d.state.redis) →
      DeskInv py ⟨s', (d.observe l).1, (d.observe l).2⟩ := by
    intro hbot hhand hjournal hredis
    rw [hhand, hjournal]
    refine h.quiet hbase hg hredis (fun hb => h.keeps (hbot ▸ hb) hg) ?_
    rw [hbot]
    exact h.inHand.mono hg.next
  cases l with
  | registerUser email passwordHash =>
    simp only [step] at hstep
    split at hstep
    · cases hstep
    · obtain rfl := Option.some.inj hstep
      exact hstay rfl rfl rfl fun e he _ _ => he
  | linkCode userId code =>
    simp only [step] at hstep
    split at hstep
    · obtain rfl := Option.some.inj hstep
      refine hstay rfl rfl rfl fun e he chatId hk => ?_
      rcases ExpiringStore.mem_set he with rfl | ⟨he, -⟩
      · cases hk
      · exact he
    · cases hstep
  | load i userId chatId =>
    simp only [step] at hstep
    split at hstep
    · obtain ⟨user, -, rfl⟩ := Option.map_eq_some_iff.mp hstep
      exact hstay rfl rfl rfl fun e he _ _ => he
    · cases hstep
  | save i =>
    simp only [step] at hstep
    split at hstep
    · obtain rfl := Option.some.inj hstep
      exact hstay rfl rfl rfl fun e he _ _ => he
    · cases hstep
  | rest l =>
    simp only [step] at hstep
    split at hstep
    · cases hstep
    · obtain ⟨db, hdb, rfl⟩ := Option.map_eq_some_iff.mp hstep
      exact hstay rfl rfl rfl fun e he _ _ => he
  | message chatId text =>
    simp only [step] at hstep
    split at hstep
    · obtain rfl := Option.some.inj hstep
      refine h.quiet hbase hg (fun e he _ _ => he) (fun _ userId hu => by cases hu) ?_
      show InHand py (handleMessage chatId text) _ _ _
      unfold handleMessage
      split
      · trivial
      · split
        · split <;> trivial
        · exact ⟨rfl, rfl⟩
    · cases hstep
  | bot => exact absurd rfl hl
  | abort =>
    simp only [step] at hstep
    split at hstep
    · cases hstep
    · obtain rfl := Option.some.inj hstep
      exact h.quiet hbase hg (fun e he _ _ => he) (fun hb => absurd rfl hb) trivial

def silent : Bot → Bool
  | .idle | .finding .. | .remembering .. | .checking .. | .dropping _ => false
  | _ => true

theorem observe_silent {d : Desk} {b : Bot} (hb : d.state.bot = b) (hs : silent b = true) :
    d.state.bot ≠ .idle ∧ d.observe .bot = (d.hand, d.journal) := by
  constructor
  · rw [hb]
    rintro rfl
    cases hs
  · cases b with
    | idle | finding | remembering | checking | dropping => cases hs
    | _ => simp only [Desk.observe, hb]

theorem ownServer_mem {s : Alerts.Db} {userId serverId : ℕ} {r : Server}
    (h : ownServer userId serverId s = some r) : (serverId, userId) ∈ (ledger s).servers := by
  have hmem := List.mem_of_find?_eq_some h
  have hr : r.id = serverId ∧ r.ownerId = userId := by simpa using List.find?_some h
  exact mem_servers.mpr ⟨r, hmem, hr.1, hr.2⟩

section
variable {d : Desk} (h : DeskInv py d)
include h

theorem DeskInv.remember {chatId : ℤ} {serverId : ℕ}
    (hb : d.state.bot = .remembering chatId serverId) :
    DeskInv py ⟨(d.state.setPendingDelete chatId serverId).goto .idle, d.hand,
      .requested d.hand serverId d.state.db.fleet.now :: d.journal⟩ := by
  have hhand := h.inHand
  rw [hb] at hhand
  obtain ⟨hchat, htext, hlt⟩ := hhand
  refine ⟨⟨h.base.sound, fun c hc => h.base.vouched c ?_⟩, fun e he chatId' hk => ?_,
    fun n hn => ?_, fun hidle => absurd rfl hidle, trivial, h.reasoned.cons ?_ ?_ ?_⟩
  · refine Carries.of_same rfl (fun e he draft hdraft => ?_) hc
    rcases ExpiringStore.mem_set he with rfl | ⟨he, -⟩
    · cases hdraft
    · exact he
  · rcases ExpiringStore.mem_set he with rfl | ⟨he, hne⟩
    · cases hk
      exact ⟨serverId, d.state.db.fleet.now, rfl, if_pos hchat, rfl⟩
    · obtain ⟨n, t, hv, hslot, hd⟩ := h.pending e he chatId' hk
      refine ⟨n, t, hv, ?_, hd⟩
      rw [slot_other]
      · exact hslot
      · intro hc
        have hcc : d.hand.chatId = chatId' := Option.some.inj hc
        exact hne (by rw [hk, ← hcc, hchat])
  · rcases asked_cons hn with ⟨m, t, he⟩ | hn
    · cases he
      exact hlt
    · exact h.below n hn
  · rintro m n t he
    cases he
    exact htext
  · rintro m n t he
    cases he
  · rintro n he
    cases he

theorem DeskInv.try {chatId : ℤ} {serverId : ℕ} {accepted : Bool}
    (hb : d.state.bot = .checking chatId serverId)
    (ha : (d.state.consumePendingDelete chatId serverId).1 = accepted) :
    DeskInv py ⟨(d.state.delKey (.pendingDelete chatId)).goto
        (if accepted then .dropping serverId else .idle), d.hand,
      .tried d.hand serverId accepted d.state.db.fleet.now :: d.journal⟩ := by
  have hhand := h.inHand
  rw [hb] at hhand
  obtain ⟨hchat, htext, hlinked, hown⟩ := hhand
  have hasked : ∀ n, Asked (.tried d.hand serverId accepted d.state.db.fleet.now :: d.journal) n →
      Asked d.journal n := by
    intro n hn
    rcases asked_cons hn with ⟨m, t, he⟩ | hn
    · cases he
    · exact hn
  refine ⟨⟨h.base.sound, fun c hc => h.base.vouched c ?_⟩, fun e he chatId' hk => ?_,
    fun n hn => h.below n (hasked n hn), ?_, ?_, h.reasoned.cons ?_ ?_ ?_⟩
  · refine Carries.of_same ?_ (fun e he draft hdraft => (ExpiringStore.mem_del he).1) hc
    cases accepted <;> rfl
  · obtain ⟨he, hne⟩ := ExpiringStore.mem_del he
    obtain ⟨n, t, hv, hslot, hd⟩ := h.pending e he chatId' hk
    refine ⟨n, t, hv, ?_, hd⟩
    rw [slot_other]
    · exact hslot
    · intro hc
      have hcc : d.hand.chatId = chatId' := Option.some.inj hc
      exact hne (by rw [hk, ← hcc, hchat])
  · intro _ userId hu n hn hs
    exact h.known (by simp [hb]) userId hu n (hasked n hn) hs
  · cases accepted with
    | false => trivial
    | true => exact ⟨_, _, rfl⟩
  · rintro m n t he
    cases he
  · rintro m n t he
    cases he
    -- the slot held the server, and the journal knows since when
    simp only [State.consumePendingDelete] at ha
    split at ha
    · next k hk =>
      have hkn : k = serverId := of_decide_eq_true ha
      subst hkn
      obtain ⟨e, he, hkey, hv, hlive⟩ := get?_mem hk
      obtain ⟨n, t, hv', hslot, hd⟩ := h.pending e he chatId hkey
      rw [hv] at hv'
      cases hv'
      obtain ⟨first, m, rest, hj, -, -⟩ := slot_request hslot
      refine ⟨htext, hlinked, hown ⟨m, t, by simp [hj]⟩, t, ?_, hd ▸ hlive⟩
      rw [hchat]
      exact hslot
    · cases ha
  · rintro n he
    cases he

theorem DeskInv.drop {serverId : ℕ} (hb : d.state.bot = .dropping serverId) :
    DeskInv py ⟨{ d.state with db := d.state.db.removeServer serverId }.goto .idle, d.hand,
      .deleted serverId :: d.journal⟩ := by
  have hhand := h.inHand
  rw [hb] at hhand
  have hasked : ∀ n, Asked (.deleted serverId :: d.journal) n → Asked d.journal n := by
    intro n hn
    rcases asked_cons hn with ⟨m, t, he⟩ | hn
    · cases he
    · exact hn
  have hmove : BotMove d.state
      ({ d.state with db := d.state.db.removeServer serverId }.goto .idle) :=
    .dropped serverId rfl fun c => Carries.of_same rfl fun e he _ _ => he
  have hbase := h.base.botMove hmove
  obtain ⟨events, -, hledger⟩ := ledger_removeServer d.state.db serverId
  refine ⟨hbase, h.pending, fun n hn => ?_, fun hidle => absurd rfl hidle, trivial,
    h.reasoned.cons ?_ ?_ ?_⟩
  · have hlt := h.below n (hasked n hn)
    show n < (ledger (d.state.db.removeServer serverId)).nextServer
    rw [hledger]
    exact hlt
  · rintro m n t he
    cases he
  · rintro m n t he
    cases he
  · rintro n he
    cases he
    obtain ⟨t, rest, hj⟩ := hhand
    exact ⟨d.hand, t, rest, hj⟩

theorem DeskInv.bot {d' : Desk} (hs : watch py cr floatStr attrs d .bot = some d') :
    DeskInv py d' := by
  obtain ⟨s', hstep, rfl⟩ := Option.map_eq_some_iff.mp hs
  have hbase := h.base.step hstep
  have hg := step_grown h.base hstep
  have hhand := h.inHand
  have hquiet : ∀ {b : Bot}, d.state.bot = b → silent b = true →
      (∀ e ∈ s'.redis, ∀ chatId, e.key = .pendingDelete chatId → e ∈ d.state.redis) →
      InHand py s'.bot d.hand d.journal (ledger s'.db).nextServer →
      DeskInv py ⟨s', (d.observe .bot).1, (d.observe .bot).2⟩ := by
    intro b hbot hsilent hredis hplace
    obtain ⟨hidle, hobserve⟩ := observe_silent hbot hsilent
    rw [hobserve]
    exact h.quiet hbase hg hredis (fun _ => h.keeps hidle hg) hplace
  simp only [step, botStep] at hstep
  cases hb : d.state.bot with
  | idle => simp [hb] at hstep
  | remembering chatId serverId =>
    simp only [hb, Option.some.injEq] at hstep
    subst hstep
    simp only [Desk.observe, hb]
    exact h.remember hb
  | checking chatId serverId =>
    simp only [hb] at hstep
    simp only [Desk.observe, hb]
    split at hstep
    · next t ht =>
      obtain rfl := Option.some.inj hstep
      obtain ⟨ha, rfl⟩ := Prod.mk.inj ht
      rw [show (d.state.consumePendingDelete chatId serverId).1 = true from ha]
      exact h.try hb ha
    · next t ht =>
      obtain rfl := Option.some.inj hstep
      obtain ⟨ha, rfl⟩ := Prod.mk.inj ht
      rw [show (d.state.consumePendingDelete chatId serverId).1 = false from ha]
      exact h.try hb ha
  | dropping serverId =>
    simp only [hb, Option.some.injEq] at hstep
    subst hstep
    simp only [Desk.observe, hb]
    exact h.drop hb
  | finding chatId text =>
    rw [hb] at hhand
    simp only [hb] at hstep
    simp only [Desk.observe, hb]
    split at hstep
    · next user hfind =>
      obtain rfl := Option.some.inj hstep
      have hfind' : findUserByChatId d.hand.chatId d.state.users = .one user := by
        rw [show d.hand.chatId = chatId from hhand.1]
        exact hfind
      simp only [identify, hfind']
      refine h.quiet hbase hg (fun e he _ _ => he) (fun _ userId hu n _ hn => ?_)
        ⟨hhand.1, hhand.2, rfl⟩
      cases hu
      obtain ⟨r, hr, hrid, hrowner⟩ := mem_servers.mp hn
      exact List.mem_map.mpr ⟨r, List.mem_filter.mpr ⟨hr, decide_eq_true hrowner⟩, hrid⟩
    · obtain rfl := Option.some.inj hstep
      exact h.quiet hbase hg (fun e he _ _ => he) (fun hidle => absurd rfl hidle) trivial
  | found userId chatId text =>
    rw [hb] at hhand
    simp only [hb] at hstep
    split at hstep
    · obtain rfl := Option.some.inj hstep
      exact hquiet hb rfl (fun e he _ _ => (ExpiringStore.mem_del he).1) trivial
    · obtain rfl := Option.some.inj hstep
      exact hquiet hb rfl (fun e he _ _ => he)
        (resumeDraft_inHand hhand.1 hhand.2.1 hhand.2.2 _)
  | leaving userId chatId text =>
    rw [hb] at hhand
    simp only [hb, Option.some.injEq] at hstep
    subst hstep
    exact hquiet hb rfl (fun e he _ _ => (ExpiringStore.mem_del he).1)
      (dispatch_inHand hhand.1 hhand.2.1 hhand.2.2)
  | deleting userId chatId serverId isConfirm =>
    rw [hb] at hhand
    obtain ⟨hchat, huser, htext⟩ := hhand
    simp only [hb] at hstep
    split at hstep
    · next r hown =>
      obtain rfl := Option.some.inj hstep
      have hmem := ownServer_mem hown
      refine hquiet hb rfl (fun e he _ _ => he) ?_
      cases isConfirm with
      | false => exact ⟨hchat, htext, h.base.sound.serverBelow _ hmem⟩
      | true =>
        refine ⟨hchat, htext, by rw [huser]; rfl, fun hasked => ?_⟩
        exact h.known (by simp [hb]) userId huser serverId hasked hmem
    · obtain rfl := Option.some.inj hstep
      exact hquiet hb rfl (fun e he _ _ => he) trivial
  | starting chatId code =>
    simp only [hb] at hstep
    split at hstep
    · next userId t ht =>
      obtain rfl := Option.some.inj hstep
      obtain ⟨-, rfl⟩ := Prod.mk.inj ht
      exact hquiet hb rfl (fun e he _ _ => (ExpiringStore.mem_del he).1) trivial
    · next t ht =>
      obtain rfl := Option.some.inj hstep
      obtain ⟨-, rfl⟩ := Prod.mk.inj ht
      exact hquiet hb rfl (fun e he _ _ => (ExpiringStore.mem_del he).1) trivial
  | saving chatId draft =>
    simp only [hb, Option.some.injEq] at hstep
    subst hstep
    refine hquiet hb rfl (fun e he chatId' hk => ?_) trivial
    rcases ExpiringStore.mem_set he with rfl | ⟨he, -⟩
    · cases hk
    · exact he
  | clearing chatId =>
    simp only [hb, Option.some.injEq] at hstep
    subst hstep
    exact hquiet hb rfl (fun e he _ _ => (ExpiringStore.mem_del he).1) trivial
  | linking userId chatId =>
    simp only [hb, Option.some.injEq] at hstep
    subst hstep
    exact hquiet hb rfl (fun e he _ _ => he) trivial
  | toggling userId ruleId =>
    simp only [hb, Option.some.injEq] at hstep
    subst hstep
    exact hquiet hb rfl (fun e he _ _ => he) trivial
  | listing userId chatId =>
    simp only [hb] at hstep
    split at hstep
    · obtain rfl := Option.some.inj hstep
      exact hquiet hb rfl (fun e he _ _ => he) trivial
    · obtain rfl := Option.some.inj hstep
      exact hquiet hb rfl (fun e he _ _ => he) trivial
  | choosing userId chatId serverId =>
    simp only [hb] at hstep
    split at hstep
    · obtain rfl := Option.some.inj hstep
      exact hquiet hb rfl (fun e he _ _ => he) trivial
    · obtain rfl := Option.some.inj hstep
      exact hquiet hb rfl (fun e he _ _ => he) trivial
  | confirming userId chatId data =>
    simp only [hb] at hstep
    split at hstep
    · obtain rfl := Option.some.inj hstep
      exact hquiet hb rfl (fun e he _ _ => he) trivial
    · obtain rfl := Option.some.inj hstep
      exact hquiet hb rfl (fun e he _ _ => he) trivial

end
end

section
variable {py : PyStr} {cr : Crypto} {floatStr : PyFloat → String} {attrs : Alerts.Attributes}

/- A deletion is the only thing the bot does to the table of servers. -/
theorem botStep_servers {s s' : State} (h : botStep py s = some s') :
    s'.db.fleet.servers = s.db.fleet.servers ∨
      ∃ serverId, s.bot = .dropping serverId ∧
        s'.db.fleet.servers = s.db.fleet.servers.filter fun r => r.id ≠ serverId := by
  cases botStep_writes h with
  | nothing db _ _ =>
    rw [db]
    exact Or.inl rfl
  | chat _ _ _ db =>
    rw [db]
    exact Or.inl rfl
  | rule userId chatId data _ hadd _ _ =>
    obtain ⟨row, -, -, hdb⟩ := Alerts.addRule_inv hadd
    rw [hdb]
    exact Or.inl rfl
  | toggled userId ruleId _ db _ _ =>
    rw [db]
    unfold Alerts.handleToggle
    split
    · exact Or.inl rfl
    · exact Or.inl rfl
  | deleted serverId place db _ _ =>
    rw [db]
    exact Or.inr ⟨serverId, place, rfl⟩

theorem removed_noted {d d' : Desk} (hs : watch py cr floatStr attrs d .bot = some d') :
    ∀ r ∈ d.state.db.fleet.servers, (∀ q ∈ d'.state.db.fleet.servers, q.id ≠ r.id) →
      d'.journal = .deleted r.id :: d.journal := by
  intro r hr hgone
  obtain ⟨s', hstep, rfl⟩ := Option.map_eq_some_iff.mp hs
  rcases botStep_servers hstep with hsame | ⟨serverId, hb, hfilter⟩
  · exact absurd rfl (hgone r (by rw [hsame]; exact hr))
  · have hid : r.id = serverId := by
      by_contra hne
      exact hgone r (by rw [hfilter]; exact List.mem_filter.mpr ⟨hr, decide_eq_true hne⟩) rfl
    simp only [Desk.observe, hb, hid]

theorem Reasoned.law {d : Desk} (h : Reasoned py d.journal) :
    DeleteLaw py cr floatStr attrs d where
  noted := fun d' hs => removed_noted hs
  granted := by
    intro newer serverId older hj
    obtain ⟨m, t, rest, rfl⟩ := h.followed newer serverId older hj
    have htried :
        d.journal = (newer ++ [.deleted serverId]) ++ .tried m serverId true t :: rest := by
      simp [hj]
    obtain ⟨htext, hlinked, hown, storedAt, hslot, hle⟩ := h.backed _ m serverId t rest htried
    obtain ⟨first, r, oldest, rfl, hchat, hfirst⟩ := slot_request hslot
    refine ⟨⟨newer, serverId, m, t, first, r, storedAt, oldest⟩, hj.symm, rfl, rfl, htext, ?_,
      hchat, hle, hfirst, hlinked, hown⟩
    exact h.texts r serverId storedAt (by simp [hj])
  once := by
    intro x y hx hy hgx hgy hrest
    exact granted_once (hx.trans hy.symm) hgx hgy hrest

theorem DeskInv.step {d d' : Desk} {l : TelegramBot.Label} (h : DeskInv py d)
    (hs : watch py cr floatStr attrs d l = some d') : DeskInv py d' := by
  by_cases hl : l = .bot
  · subst hl
    exact h.bot hs
  · exact h.beside hl hs

end

/- Every deletion has a stored request of its own, at most 60 seconds old and the last
thing that touched the slot of the chat, and a confirm whose sender owned the server. -/
theorem deletes_follow_stored_requests (py : PyStr) (cr : Crypto) (floatStr : PyFloat → String)
    (attrs : Alerts.Attributes) (now : Instant) (ls : List TelegramBot.Label) :
    Runs.Throughout (watch py cr floatStr attrs) (DeleteLaw py cr floatStr attrs) (opened now)
      ls :=
  Runs.throughout_of_invariant (DeskInv py) (DeleteLaw py cr floatStr attrs) (fun _ _ => True)
    (fun _ _ _ hi _ hs => hi.step hs) (fun _ hi => hi.reasoned.law) (DeskInv.opened now)
    (Runs.along_true _ ls)

/- User 1 with two servers and chat 5. -/
def twoServers : List TelegramBot.Label :=
  [.registerUser "alice@example.com" "",
    .rest (.fleet (.register 0 1 "web" "pwk_agent" "$2b$12$KeyKeyKeyKeyKeyKeyKeyu")),
    .rest (.fleet (.register 1 1 "db" "pwk_agent" "$2b$12$KeyKeyKeyKeyKeyKeyKeyu")),
    .linkCode 1 "a1"] ++ say 5 "/start a1" 2

/- The SET of the request comes 50 seconds after its message. -/
def slowRequest : List TelegramBot.Label :=
  twoServers ++ say 5 "/delete 1" 3 ++ [.rest (.fleet (.tick 50000000)), .bot,
    .rest (.fleet (.tick 50000000))] ++ say 5 "/delete 1 confirm" 5

/- The SET of the second request fails. -/
def lostRequest : List TelegramBot.Label :=
  twoServers ++ say 5 "/delete 1" 4 ++ say 5 "/delete 2" 3 ++ [.abort] ++
    say 5 "/delete 1 confirm" 5

/- A server deleted 100 seconds after the message that asked for it, and one deleted
although another server was asked for in between. -/
theorem deleted_past_the_minute :
    (∃ d, Runs.run (watch asciiStr tabledCrypto Threshold.tabledFloatStr Alerts.plainAttributes)
        (opened 0) slowRequest = some d ∧
      d.state.db.fleet.servers.map Server.id = [2] ∧
      d.journal = [.deleted 1,
        .tried ⟨5, "/delete 1 confirm", seconds 100, some 1, [2, 1]⟩ 1 true (seconds 100),
        .requested ⟨5, "/delete 1", 0, some 1, [2, 1]⟩ 1 (seconds 50)]) ∧
    ∃ d, Runs.run (watch asciiStr tabledCrypto Threshold.tabledFloatStr Alerts.plainAttributes)
        (opened 0) lostRequest = some d ∧
      d.state.db.fleet.servers.map Server.id = [2] ∧
      d.journal = [.deleted 1, .tried ⟨5, "/delete 1 confirm", 0, some 1, [2, 1]⟩ 1 true 0,
        .requested ⟨5, "/delete 1", 0, some 1, [2, 1]⟩ 1 0] := by
  exact ⟨⟨_, rfl, rfl, rfl⟩, _, rfl, rfl, rfl⟩

end PulseWatch.PendingDelete
