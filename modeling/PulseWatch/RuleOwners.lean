import PulseWatch.RuleLedger

/-!
# Rules stay with the owner of their server

A draft of the bot's dialog was checked for the user who answered its first
question; the rule goes to the user its last message is from. In a whole run every
rule belongs to the owner of its server, and the lists of the API show no user
another one's data, exactly when each rule the dialog inserts is confirmed under
the user who chose its server.
-/

namespace PulseWatch.TelegramBot
open ExpiringStore RedisClient Alerts RuleLedger

/- `list_alert_rules`, before ORDER BY. -/
def listAlertRules (userId : ℕ) (serverId : Option ℕ) (s : Db) : List AlertRule :=
  s.rules.filter fun r => r.ownerId = userId && serverId.all fun id => r.serverId = id

/- `list_alert_events`, before ORDER BY and LIMIT. -/
def listAlertEvents (userId : ℕ) (serverId ruleId : Option ℕ) (s : Db) : List AlertEvent :=
  s.events.filter fun e =>
    (s.rules.any fun r => e.ruleId = r.id && r.ownerId = userId) &&
      (serverId.all fun id => e.serverId = id) && ruleId.all fun id => e.ruleId = id

def Owns (s : Db) (userId serverId : ℕ) : Prop :=
  ∃ server ∈ s.fleet.servers, server.id = serverId ∧ server.ownerId = userId

structure OwnersMatch (s : State) : Prop where
  rules : ∀ r ∈ s.db.rules, Owns s.db r.ownerId r.serverId
  listedRules : ∀ userId serverId, ∀ r ∈ listAlertRules userId serverId s.db,
    Owns s.db userId r.serverId
  listedEvents : ∀ userId serverId ruleId, ∀ e ∈ listAlertEvents userId serverId ruleId s.db,
    Owns s.db userId e.serverId

/- A rule the dialog inserts goes to the user who chose its server. -/
def Confirmed (s : State) : Label → Prop
  | .bot => ∀ userId chatId data, s.bot = .confirming userId chatId data →
      (s.db.addRule (data.rule.rule s.db.nextRule userId)).isSome = true → data.chosenBy = userId
  | _ => True

/-! ### The drafts -/

def Bot.chosen : Bot → Option Chosen
  | .saving _ draft => draft.chosen
  | .confirming _ _ data => some data.toChosen
  | _ => none

/- A choice some draft has written down, in Redis or in the bot's hands. -/
def State.Carries (s : State) (c : Chosen) : Prop :=
  (∃ e ∈ s.redis, ∃ d, e.value = .draft d ∧ d.chosen = some c) ∨ s.bot.chosen = some c

theorem carries_iff {s : State} {c : Chosen} :
    s.Carries c ↔ ∃ d, s.Holds d ∧ d.chosen = some c := by
  have hbot : s.bot.chosen = some c ↔ ∃ d, s.bot.draft = some d ∧ d.chosen = some c := by
    cases s.bot <;> simp [Bot.chosen, Bot.draft, Draft.chosen]
  unfold State.Carries State.Holds
  rw [hbot]
  constructor
  · rintro (⟨e, he, d, hv, hc⟩ | ⟨d, hd, hc⟩)
    · exact ⟨d, Or.inl ⟨e, he, hv⟩, hc⟩
    · exact ⟨d, Or.inr hd, hc⟩
  · rintro ⟨d, ⟨e, he, hv⟩ | hd, hc⟩
    · exact Or.inl ⟨e, he, d, hv, hc⟩
    · exact Or.inr ⟨d, hd, hc⟩

/- Redis and the bot's hands change without a new choice. -/
theorem Carries.of_same {s s' : State} {c : Chosen} (hb : s'.bot.chosen = none)
    (hr : ∀ e ∈ s'.redis, ∀ d, e.value = .draft d → e ∈ s.redis) (h : s'.Carries c) :
    s.Carries c := by
  rcases h with ⟨e, he, d, hd, hc⟩ | h
  · exact Or.inl ⟨e, hr e he d hd, d, hd, hc⟩
  · rw [hb] at h
    cases h

def Answer.chosen : Answer → Option Chosen
  | .next draft => draft.chosen
  | .create data => some data.toChosen
  | _ => none

/- The dialog hands the choice on from step to step. -/
theorem processRuleDraft_chosen {py : PyStr} {text : String} {d : Draft} {a : Answer} {c : Chosen}
    (h : processRuleDraft py text d = some a) (hc : a.chosen = some c) : d.chosen = some c := by
  cases d with
  | server =>
    simp only [processRuleDraft] at h
    split at h
    · obtain ⟨id, -, rfl⟩ := Option.map_eq_some_iff.mp h
      cases hc
    · obtain rfl := Option.some.inj h
      cases hc
  | confirm data =>
    simp only [processRuleDraft] at h
    split at h
    · obtain rfl := Option.some.inj h
      cases hc
    · split at h
      · obtain rfl := Option.some.inj h
        exact hc
      · obtain rfl := Option.some.inj h
        cases hc
  | metric data =>
    simp only [processRuleDraft] at h
    split at h
    · split at h
      · obtain rfl := Option.some.inj h
        exact hc
      · obtain rfl := Option.some.inj h
        exact hc
    · obtain rfl := Option.some.inj h
      cases hc
  | _ =>
    simp only [processRuleDraft] at h
    split at h
    · obtain rfl := Option.some.inj h
      first
        | exact hc
        | cases hc
    · obtain rfl := Option.some.inj h
      first
        | exact hc
        | cases hc

/- A step of the bot writes down no choice but the one its SELECT has found. -/
theorem botStep_carries {py : PyStr} {s s' : State} {c : Chosen} (h : botStep py s = some s')
    (hc : s'.Carries c) : s.Carries c ∨ ∃ userId chatId serverId server,
      s.bot = .choosing userId chatId serverId ∧
        ownServer userId serverId s.db = some server ∧ c = ⟨serverId, server.name, userId⟩ := by
  obtain ⟨d, hd, hdc⟩ := carries_iff.mp hc
  cases botStep_drafts h hd with
  | held mem => exact Or.inl (carries_iff.mpr ⟨d, mem, hdc⟩)
  | opened same =>
    subst same
    cases hdc
  | chosen userId chatId serverId server place own same =>
    subst same
    exact Or.inr ⟨userId, chatId, serverId, server, place, own, (Option.some.inj hdc).symm⟩
  | answered text old mem answer =>
    exact Or.inl (carries_iff.mpr ⟨old, mem, processRuleDraft_chosen answer hdc⟩)
  | confirmed text old data mem answer same =>
    subst same
    exact Or.inl (carries_iff.mpr ⟨old, mem, processRuleDraft_chosen answer hdc⟩)

/-! ### One step of the bot -/

/- What the step does to the tables and which choices it may newly carry. -/
inductive BotMove (s s' : State) : Prop where
  | quiet (same : ledger s'.db = ledger s.db) (old : ∀ c, s'.Carries c → s.Carries c)
  | chosen (userId : ℕ) (chatId : ℤ) (server : Server) (own : server ∈ s.db.fleet.servers)
      (owner : server.ownerId = userId) (same : s'.db = s.db)
      (old : ∀ c, s'.Carries c → s.Carries c ∨ (c.serverId = server.id ∧ c.chosenBy = userId))
  | confirmed (userId : ℕ) (chatId : ℤ) (data : Ready)
      (at' : s.bot = .confirming userId chatId data)
      (added : s.db.addRule (data.rule.rule s.db.nextRule userId) = some s'.db)
      (old : ∀ c, s'.Carries c → s.Carries c)
  | dropped (serverId : ℕ) (gone : s'.db = s.db.removeServer serverId)
      (old : ∀ c, s'.Carries c → s.Carries c)

theorem handleToggle_ledger {s : Db} (hs : (ledger s).Sound) (ownerId ruleId : ℕ) :
    ledger (handleToggle ownerId ruleId s) = ledger s := by
  unfold handleToggle
  split
  · rfl
  · next r hr =>
    have hrow : ruleKey { r with isActive := !r.isActive } = ruleKey r := rfl
    have hkeys := putRule_keys hs (findRule_mem hr) hrow
    exact congrArg (fun rules => { ledger s with rules }) hkeys

theorem botStep_move {py : PyStr} {s s' : State} (hs : (ledger s.db).Sound)
    (h : botStep py s = some s') : BotMove s s' := by
  have hold : (∀ userId chatId serverId, s.bot ≠ .choosing userId chatId serverId) →
      ∀ c, s'.Carries c → s.Carries c := by
    intro hne c hc
    rcases botStep_carries h hc with hc | ⟨userId, chatId, serverId, -, hb, -⟩
    · exact hc
    · exact absurd hb (hne userId chatId serverId)
  cases botStep_writes h with
  | chat userId chatId place db =>
    exact .quiet (congrArg ledger db) (hold (by simp [place]))
  | rule userId chatId data place db =>
    exact .confirmed userId chatId data place db (hold (by simp [place]))
  | toggled userId ruleId place db =>
    refine .quiet ?_ (hold (by simp [place]))
    rw [db]
    exact handleToggle_ledger hs userId ruleId
  | deleted serverId place db => exact .dropped serverId db (hold (by simp [place]))
  | nothing db =>
    by_cases hb : ∃ userId chatId serverId, s.bot = .choosing userId chatId serverId
    · obtain ⟨userId, chatId, serverId, hb⟩ := hb
      cases hown : ownServer userId serverId s.db with
      | none =>
        refine .quiet (congrArg ledger db) fun c hc => ?_
        rcases botStep_carries h hc with hc | ⟨_, _, _, server, hb', hown', -⟩
        · exact hc
        · obtain ⟨rfl, rfl, rfl⟩ := Bot.choosing.inj (hb.symm.trans hb')
          cases hown.symm.trans hown'
      | some server =>
        have hkey := List.find?_some hown
        simp only [decide_eq_true_eq] at hkey
        refine .chosen userId chatId server (List.mem_of_find?_eq_some hown) hkey.2 db
          fun c hc => ?_
        rcases botStep_carries h hc with hc | ⟨_, _, _, server', hb', hown', rfl⟩
        · exact Or.inl hc
        · obtain ⟨rfl, rfl, rfl⟩ := Bot.choosing.inj (hb.symm.trans hb')
          exact Or.inr ⟨hkey.1.symm, rfl⟩
    · refine .quiet (congrArg ledger db) (hold fun userId chatId serverId hc => ?_)
      exact hb ⟨userId, chatId, serverId, hc⟩

/-! ### Whole runs -/

theorem mem_servers {s : Db} {userId serverId : ℕ} :
    (serverId, userId) ∈ (ledger s).servers ↔ Owns s userId serverId := by
  unfold Owns
  constructor
  · intro h
    obtain ⟨server, hmem, hkey⟩ := List.mem_map.mp h
    obtain ⟨hid, howner⟩ := Prod.mk.inj hkey
    exact ⟨server, hmem, hid, howner⟩
  · intro h
    obtain ⟨server, hmem, hid, howner⟩ := h
    exact List.mem_map.mpr ⟨server, hmem, by simp only [serverKey, hid, howner]⟩

theorem ledger_removeServer (s : Db) (serverId : ℕ) : ∃ events, events ⊆ (ledger s).events ∧
    ledger (s.removeServer serverId) = (ledger s).dropServer serverId events := by
  refine ⟨(s.removeServer serverId).events.map eventKey, ?_, ?_⟩
  · exact ((List.filter_sublist.trans List.filter_sublist).map _).subset
  · have hrules : (s.rules.filter fun r => !decide (r.serverId = serverId)).map ruleKey =
        (s.rules.map ruleKey).filter fun r => r.serverId ≠ serverId := by
      rw [List.filter_map]
      simp only [Function.comp_def, ruleKey, decide_not]
      rfl
    have hservers : (s.fleet.servers.filter fun r => r.id ≠ serverId).map serverKey =
        (s.fleet.servers.map serverKey).filter fun r => r.1 ≠ serverId := by
      rw [List.filter_map]
      rfl
    simp only [ledger, Ledger.dropServer, ← hrules, ← hservers]
    rfl

/- What holds along every run: the ledger is sound, and each choice written down was
made by the owner of the server. -/
structure Inv (s : State) : Prop where
  sound : (ledger s.db).Sound
  vouched : ∀ c, s.Carries c → (ledger s.db).Vouched c.serverId c.chosenBy

theorem Inv.init (now : Instant) : Inv (init now) := by
  refine ⟨⟨List.nodup_nil, ?_, List.nodup_nil, ?_, ?_, ?_, ?_⟩, ?_⟩
  · intro r hr
    cases hr
  · intro r hr
    cases hr
  · intro r hr
    cases hr
  · intro i k hk
    cases hk
  · intro k hk
    cases hk
  · rintro c (⟨e, he, -⟩ | hc)
    · cases he
    · cases hc

theorem Inv.of_same {s s' : State} (h : Inv s) (hd : s'.db = s.db)
    (hold : ∀ c, s'.Carries c → s.Carries c) : Inv s' := by
  refine ⟨?_, fun c hc => ?_⟩
  · rw [hd]
    exact h.sound
  · rw [hd]
    exact h.vouched c (hold c hc)

theorem Inv.botMove {s s' : State} (h : Inv s) (hm : BotMove s s') : Inv s' := by
  cases hm with
  | quiet same old =>
    refine ⟨?_, fun c hc => ?_⟩
    · rw [same]
      exact h.sound
    · rw [same]
      exact h.vouched c (old c hc)
  | chosen userId chatId server own owner same old =>
    refine ⟨?_, fun c hc => ?_⟩
    · rw [same]
      exact h.sound
    · rw [same]
      rcases old c hc with hc | ⟨hid, hby⟩
      · exact h.vouched c hc
      · rw [hid, hby]
        exact h.sound.vouched (mem_servers.mpr ⟨server, own, rfl, owner⟩)
  | confirmed userId chatId data at' added old =>
    obtain ⟨hledger, owner, hserver⟩ := addRule_ledger rfl added
    refine ⟨?_, fun c hc => ?_⟩
    · rw [hledger]
      exact h.sound.confirm hserver
    · rw [hledger]
      exact h.vouched c (old c hc)
  | dropped serverId gone old =>
    obtain ⟨events, hsub, hledger⟩ := ledger_removeServer s.db serverId
    refine ⟨?_, fun c hc => ?_⟩
    · rw [gone, hledger]
      exact h.sound.dropServer serverId hsub
    · rw [gone, hledger]
      obtain ⟨hlt, hv⟩ := h.vouched c (old c hc)
      exact ⟨hlt, fun owner ho => hv owner (List.mem_of_mem_filter ho)⟩

section
variable {py : PyStr} {cr : Crypto} {floatStr : PyFloat → String} {attrs : Attributes}

/- The steps beside the bot's: a move of the alert machine, or none of the tables. -/
theorem step_beside {s s' : State} {l : Label} (hs : (ledger s.db).Sound) (hl : l ≠ .bot)
    (h : step py cr floatStr attrs s l = some s') :
    (ledger s.db).Move (ledger s'.db) ∧ ∀ c, s'.Carries c → s.Carries c := by
  constructor
  · rcases beside_db hl h with hdb | ⟨m, -, hbot, hdb⟩
    · rw [hdb]
      exact stayed_self s.db
    · exact step_ledger hs hbot hdb
  · intro c hc
    obtain ⟨d, hd, hdc⟩ := carries_iff.mp hc
    exact carries_iff.mpr ⟨d, beside_drafts hl h hd, hdc⟩

theorem Inv.step {s s' : State} {l : Label} (h : Inv s)
    (hs : step py cr floatStr attrs s l = some s') : Inv s' := by
  by_cases hl : l = .bot
  · subst hl
    exact h.botMove (botStep_move h.sound hs)
  · obtain ⟨hmove, hold⟩ := step_beside h.sound hl hs
    exact ⟨h.sound.move hmove, fun c hc => (h.vouched c (hold c hc)).move hmove⟩

theorem Owned.step {s s' : State} {l : Label} (h : Inv s) (ho : (ledger s.db).Owned)
    (hok : Confirmed s l) (hs : TelegramBot.step py cr floatStr attrs s l = some s') :
    (ledger s'.db).Owned := by
  by_cases hl : l = .bot
  · subst hl
    cases botStep_move h.sound hs with
    | quiet same old => exact same ▸ ho
    | chosen userId chatId server own owner same old => exact same ▸ ho
    | confirmed userId chatId data at' added old =>
      obtain ⟨hledger, owner, hserver⟩ := addRule_ledger rfl added
      have hby := hok userId chatId data at' (by rw [added]; rfl)
      have hcarried : s.Carries data.toChosen := Or.inr (by rw [at']; rfl)
      have howner := (h.vouched _ hcarried).2 owner (data.sameServer ▸ hserver)
      rw [hledger]
      refine ho.confirm ?_
      show (data.rule.serverId, userId) ∈ _
      rw [← hby, ← howner]
      exact hserver
    | dropped serverId gone old =>
      obtain ⟨events, -, hledger⟩ := ledger_removeServer s.db serverId
      rw [gone, hledger]
      exact ho.dropServer serverId events
  · exact ho.move (step_beside h.sound hl hs).1

theorem ownersMatch_iff {s : State} (hs : (ledger s.db).Sound) :
    OwnersMatch s ↔ (ledger s.db).Owned := by
  constructor
  · intro h r hr
    obtain ⟨rule, hrule, rfl⟩ := List.mem_map.mp hr
    exact mem_servers.mpr (h.rules rule hrule)
  · intro h
    have howns : ∀ r ∈ s.db.rules, Owns s.db r.ownerId r.serverId :=
      fun r hr => mem_servers.mp (h _ (List.mem_map_of_mem hr))
    refine ⟨howns, fun userId serverId r hr => ?_, fun userId serverId ruleId e he => ?_⟩
    · obtain ⟨hmem, hkey⟩ := List.mem_filter.mp hr
      simp only [Bool.and_eq_true, decide_eq_true_eq] at hkey
      exact hkey.1 ▸ howns r hmem
    · obtain ⟨hmem, hkey⟩ := List.mem_filter.mp he
      simp only [Bool.and_eq_true, List.any_eq_true, decide_eq_true_eq] at hkey
      obtain ⟨⟨⟨r, hr, hid, howner⟩, -⟩, -⟩ := hkey
      have hserver : r.serverId = e.serverId := (hs.shown _ (List.mem_map_of_mem hmem)).2
        (ruleKey r) (List.mem_map_of_mem hr) hid.symm
      exact howner ▸ hserver ▸ howns r hr

theorem unconfirmed_step {s : State} {l : Label} (h : Inv s) (hn : ¬ Confirmed s l) :
    ∃ s', step py cr floatStr attrs s l = some s' ∧ ¬ OwnersMatch s' := by
  cases l with
  | bot =>
    simp only [Confirmed, not_forall] at hn
    obtain ⟨userId, chatId, data, hb, hadd, hne⟩ := hn
    obtain ⟨db, hdb⟩ := Option.isSome_iff_exists.mp hadd
    have hs : step py cr floatStr attrs s .bot =
        some ({ s with db }.goto (.clearing chatId)) := by
      simp only [step, botStep, hb, hdb]
    refine ⟨_, hs, fun hmatch => hne ?_⟩
    have howned := (ownersMatch_iff (h.step hs).sound).mp hmatch
    obtain ⟨hledger, -⟩ := addRule_ledger rfl hdb
    have hmem : (data.rule.serverId, userId) ∈ (ledger s.db).servers := by
      have hrule := howned ⟨s.db.nextRule, data.rule.serverId, userId⟩ (by
        show _ ∈ (ledger db).rules
        rw [hledger]
        exact List.mem_cons_self ..)
      have hservers : (ledger db).servers = (ledger s.db).servers := by
        rw [hledger]
        rfl
      exact hservers ▸ hrule
    have hcarried : s.Carries data.toChosen := Or.inr (by rw [hb]; rfl)
    exact ((h.vouched _ hcarried).2 userId (data.sameServer ▸ hmem)).symm
  | _ => exact absurd trivial hn

/-- In a whole run every rule belongs to the owner of its server, and no list shows a
user data of a server he does not own, exactly when each rule the dialog inserts goes
to the user who chose its server. -/
theorem rules_owned_iff_confirmed (py : PyStr) (cr : Crypto) (floatStr : PyFloat → String)
    (attrs : Attributes) (now : Instant) (ls : List Label) :
    Runs.Throughout (step py cr floatStr attrs) OwnersMatch (init now) ls ↔
      Runs.Along (step py cr floatStr attrs) Confirmed (init now) ls := by
  constructor
  · exact Runs.along_of_throughout Inv OwnersMatch Confirmed (fun _ _ _ h hs => h.step hs)
      (fun _ _ h hn => unconfirmed_step h hn) (Inv.init now)
  · refine Runs.throughout_of_invariant (fun s => Inv s ∧ (ledger s.db).Owned) OwnersMatch
      Confirmed ?_ ?_ ⟨Inv.init now, fun r hr => by cases hr⟩
    · exact fun s l s' hinv hok hs => ⟨hinv.1.step hs, Owned.step hinv.1 hinv.2 hok hs⟩
    · exact fun s hinv => (ownersMatch_iff hinv.1.sound).mpr hinv.2

end

/- User 1 comes to the last question in chat 5 and unlinks the chat; user 2 links it and
says yes. -/
def handedOver : List Label :=
  [.registerUser "alice@example.com" "", .registerUser "bob@example.com" "",
    .rest (.fleet (.register 0 1 "web" "pwk_agent" "$2b$12$KeyKeyKeyKeyKeyKeyKeyu")),
    .linkCode 1 "a1"] ++
  say 5 "/start a1" 2 ++ say 5 "/createrule" 4 ++ say 5 "1" 4 ++ say 5 "system" 3 ++
  say 5 "cpu" 3 ++ say 5 "cpu_percent" 3 ++ say 5 "gt" 3 ++ say 5 "80" 3 ++ say 5 "both" 3 ++
  [.load 0 1 none, .save 0, .linkCode 2 "b2"] ++ say 5 "/start b2" 2 ++ say 5 "y" 3

theorem rule_given_to_another :
    ∃ s, Runs.run (step asciiStr tabledCrypto Threshold.tabledFloatStr plainAttributes) (init 0)
        handedOver = some s ∧
      s.db.rules.map (fun r => (r.serverId, r.ownerId)) = [(1, 2)] ∧
      s.db.fleet.servers.map (fun r => (r.id, r.ownerId)) = [(1, 1)] ∧ ¬ OwnersMatch s := by
  refine ⟨_, rfl, rfl, rfl, fun h => ?_⟩
  obtain ⟨server, hserver, -, howner⟩ := h.rules _ (List.mem_cons_self ..)
  obtain rfl := List.mem_singleton.mp hserver
  cases howner

end PulseWatch.TelegramBot
