import PulseWatch.BotViews
import PulseWatch.ChatLinks

/-!
# A command of a chat, from the lookup on

`_handle_message` finds the user of the chat before it answers: a chat that two users
have linked is an exception, so another user who links it silences the bot. Nothing
else that others do, by API or by bot, changes what a chat is answered.
-/

namespace PulseWatch.ChatReplies
open Alerts RuleLedger Runs TenantIsolation BotViews
open TelegramBot (State findUserByChatId written)

def notLinked : String :=
  "Этот чат не привязан к аккаунту. Получи код через " ++
    "POST /auth/me/telegram/code и отправь /start <код>."

/- `_handle_message` on the text of a command; `s k` is what its k-th query sees, the
lookup first. `none` is an exception. -/
def answer (c : BotViews.Choices) (chatId : ℤ) (ttl : ℕ → String → Option ℕ) (s : ℕ → State)
    (cmd : Command) : Option String :=
  match findUserByChatId chatId (s 0).users with
  | .nobody => some notLinked
  | .one user => reply c user.id ttl (fun k => (s (k + 1)).db) cmd
  | .multipleResultsFound => none

/-! ### The steps of others -/

/- What the step is to the tables of the API. -/
def request (s : State) : TelegramBot.Label → Option Alerts.Label
  | .rest l => some l
  | .bot => match s.bot with
    | .confirming userId _ data => some (.confirm userId data.rule)
    | .toggling userId ruleId => some (.toggle userId ruleId)
    | _ => none
  | _ => none

/- The DELETE of a server, which was looked up two awaits before. -/
def dropped (s : State) : TelegramBot.Label → Option ℕ
  | .bot => match s.bot with
    | .dropping serverId => some serverId
    | _ => none
  | _ => none

def properBot (s : State) (l : TelegramBot.Label) : Bool := (request s l).all (proper s.db)

/- Nothing of the user's, and no chat id that is the chat's. -/
def foreignBot (u : ℕ) (chatId : ℤ) (s : State) (l : TelegramBot.Label) : Bool :=
  (request s l).all (foreign u s.db) && elsewhere u s.db (dropped s l) &&
    (written s l).all fun w => w.1 ≠ u && w.2 ≠ some (toString chatId)

section
variable {py : TelegramBot.PyStr} {cr : Crypto} {floatStr : PyFloat → String}
  {attrs : Attributes} {u : ℕ} {s s' : State} {l : TelegramBot.Label}

theorem db_step (h : TelegramBot.step py cr floatStr attrs s l = some s') :
    s'.db = s.db ∨
      (∃ r, request s l = some r ∧ Alerts.step cr floatStr attrs s.db r = some s'.db) ∨
      ∃ serverId, dropped s l = some serverId ∧ s'.db = s.db.removeServer serverId := by
  by_cases hl : l = .bot
  · subst hl
    cases TelegramBot.botStep_writes h with
    | nothing db => exact Or.inl db
    | chat _ _ _ db => exact Or.inl db
    | rule userId chat data place db =>
      refine Or.inr (Or.inl ⟨.confirm userId data.rule, by simp only [request, place], ?_⟩)
      rw [Alerts.step, confirmDraft, db]
      rfl
    | toggled userId ruleId place db =>
      refine Or.inr (Or.inl ⟨.toggle userId ruleId, by simp only [request, place], ?_⟩)
      rw [Alerts.step, db]
    | deleted serverId place db =>
      exact Or.inr (Or.inr ⟨serverId, by simp only [dropped, place], db⟩)
  · rcases TelegramBot.beside_db hl h with hdb | ⟨r, rfl, -, hstep⟩
    · exact Or.inl hdb
    · exact Or.inr (Or.inl ⟨r, rfl, hstep⟩)

theorem kept_step (h : Kept s.db) (hok : properBot s l = true)
    (hs : TelegramBot.step py cr floatStr attrs s l = some s') : Kept s'.db := by
  rcases db_step hs with hdb | ⟨r, hr, hstep⟩ | ⟨serverId, -, hdb⟩
  · rwa [hdb]
  · rw [properBot, hr] at hok
    exact h.step hok hstep
  · rw [hdb]
    exact h.removeServer serverId

theorem view_step {chatId : ℤ} (h : Kept s.db) (hf : foreignBot u chatId s l = true)
    (hs : TelegramBot.step py cr floatStr attrs s l = some s') : view u s'.db = view u s.db := by
  simp only [foreignBot, Bool.and_eq_true] at hf
  rcases db_step hs with hdb | ⟨r, hr, hstep⟩ | ⟨serverId, hdrop, hdb⟩
  · rw [hdb]
  · have hforeign := hf.1.1
    rw [hr] at hforeign
    exact h.view_step hforeign hstep
  · rw [hdb]
    exact view_removeServer h (not_owns hf.1.2 hdrop)

/-! ### The lookup -/

theorem find_one_iff {chatId : ℤ} {users : List User} {user : User} :
    findUserByChatId chatId users = .one user ↔
      users.filter (fun v => v.telegramChatId = some (toString chatId)) = [user] := by
  unfold findUserByChatId
  split
  · next h =>
    rw [h]
    exact iff_of_false nofun nofun
  · next v h =>
    rw [h]
    constructor
    · intro he
      rw [TelegramBot.Lookup.one.inj he]
    · intro he
      rw [List.singleton_inj.mp he]
  · next hmany => exact iff_of_false nofun (hmany user)

theorem found_step {chatId : ℤ} {user : User}
    (h : findUserByChatId chatId s.users = .one user)
    (hf : foreignBot user.id chatId s l = true)
    (hs : TelegramBot.step py cr floatStr attrs s l = some s') :
    findUserByChatId chatId s'.users = .one user := by
  rw [find_one_iff] at h ⊢
  cases TelegramBot.step_users hs with
  | same users => rw [users, h]
  | registered v _ unlinked users =>
    rw [users, List.filter_cons_of_neg (by simp [unlinked]), h]
  | wrote userId value w users =>
    simp only [foreignBot, Bool.and_eq_true, w, Option.all_some, decide_eq_true_eq] at hf
    obtain ⟨hid, hvalue⟩ := hf.2
    rw [users, ← h]
    refine filter_map_own fun v hv => ?_
    split
    · next hv' =>
      -- the written row is not the one the lookup finds
      have hnot : decide (v.telegramChatId = some (toString chatId)) = false := by
        rw [decide_eq_false_iff_not]
        intro hc
        have hmem : v ∈ s.users.filter fun v => v.telegramChatId = some (toString chatId) :=
          List.mem_filter.mpr ⟨hv, decide_eq_true hc⟩
        rw [h, List.mem_singleton] at hmem
        exact hid (hmem ▸ hv'.symm)
      refine ⟨?_, fun howner => ?_⟩
      · rw [hnot]
        exact decide_eq_false hvalue
      · rw [hnot] at howner
        cases howner
    · exact ⟨rfl, fun _ => rfl⟩

/-! ### Whole runs -/

/- Requests and chats of others may come before, after and between the queries of a
command: the chat is answered as without them, if none of them links it. -/
theorem chat_answered_as_without_others (c : BotViews.Choices) {now : Instant}
    {ls : List TelegramBot.Label}
    (hls : Along (TelegramBot.step py cr floatStr attrs) (fun t l => properBot t l = true)
      (TelegramBot.init now) ls)
    (hr : run (TelegramBot.step py cr floatStr attrs) (TelegramBot.init now) ls = some s)
    {chatId : ℤ} {user : User} (huser : findUserByChatId chatId s.users = .one user)
    {t : ℕ → State}
    (ht : ∀ k, ∃ ms, Along (TelegramBot.step py cr floatStr attrs)
      (fun t l => properBot t l = true ∧ foreignBot user.id chatId t l = true) s ms ∧
        run (TelegramBot.step py cr floatStr attrs) s ms = some (t k))
    (ttl : ℕ → String → Option ℕ) (cmd : Command) :
    answer c chatId ttl t cmd = answer c chatId ttl (fun _ => s) cmd ∧
      answer c chatId ttl t cmd = reply c user.id ttl (fun _ => s.db) cmd := by
  have hkept : Kept s.db := run_invariant (fun t : State => Kept t.db)
    (fun t l => properBot t l = true) (fun _ _ _ h hok hs => kept_step h hok hs)
    (Kept.init now) hls hr
  have hinv : ∀ k, (Kept (t k).db ∧ view user.id (t k).db = view user.id s.db) ∧
      findUserByChatId chatId (t k).users = .one user := by
    intro k
    obtain ⟨ms, hms, hrun⟩ := ht k
    refine run_invariant (fun t : State => (Kept t.db ∧ view user.id t.db = view user.id s.db) ∧
      findUserByChatId chatId t.users = .one user)
      (fun t l => properBot t l = true ∧ foreignBot user.id chatId t l = true) ?_
      ⟨⟨hkept, rfl⟩, huser⟩ hms hrun
    rintro t l t' ⟨⟨hk, hview⟩, hfound⟩ ⟨hproper, hforeign⟩ hs
    exact ⟨⟨kept_step hk hproper hs, (view_step hk hforeign hs).trans hview⟩,
      found_step hfound hforeign hs⟩
  have hown : answer c chatId ttl t cmd = reply c user.id ttl (fun _ => s.db) cmd := by
    rw [answer, (hinv 0).2]
    dsimp only
    rw [reply_own ttl (fun k => (hinv (k + 1)).1.1) fun k => (hinv (k + 1)).1.2]
    exact (reply_own ttl (fun _ => hkept) (fun _ => rfl) cmd).symm
  refine ⟨?_, hown⟩
  rw [hown, answer, huser]

end

def aliceInChat : List TelegramBot.Label :=
  [.registerUser "alice@example.com" "", .registerUser "bob@example.com" "",
    .load 0 1 (some "5"), .save 0] ++ aliceAlone.map .rest

/- User 2 links a chat of his own, fires an alert and switches the rule off by bot. -/
def bobInChat : List TelegramBot.Label :=
  [.load 1 2 (some "6"), .save 1] ++ (bobMovesIn.filter (!TelegramBot.ofBot ·)).map .rest ++
    TelegramBot.say 6 "/toggle 2" 3

theorem neighbour_unnoticed_in_chat :
    ∃ s s', run (TelegramBot.step TelegramBot.asciiStr tabledCrypto Threshold.tabledFloatStr
        plainAttributes) (TelegramBot.init 0) aliceInChat = some s ∧
      run (TelegramBot.step TelegramBot.asciiStr tabledCrypto Threshold.tabledFloatStr
        plainAttributes) s bobInChat = some s' ∧
      (s.db.events.length, s'.db.events.length) = (1, 2) ∧
      ∀ cmd, answer plainChoices 5 (fun _ _ => none) (fun k => if k = 0 then s else s') cmd =
        reply plainChoices 1 (fun _ _ => none) (fun _ => s.db) cmd := by
  have hevents : ((run (TelegramBot.step TelegramBot.asciiStr tabledCrypto
        Threshold.tabledFloatStr plainAttributes) (TelegramBot.init 0) aliceInChat).bind fun s =>
      (run (TelegramBot.step TelegramBot.asciiStr tabledCrypto Threshold.tabledFloatStr
        plainAttributes) s bobInChat).map
        fun s' => (s.db.events.length, s'.db.events.length)) = some (1, 2) := by decide
  have hfound : (run (TelegramBot.step TelegramBot.asciiStr tabledCrypto
      Threshold.tabledFloatStr plainAttributes) (TelegramBot.init 0) aliceInChat).map
        (fun s => findUserByChatId 5 s.users) =
      some (.one { id := 1, email := "alice@example.com", passwordHash := "",
                   telegramChatId := some "5" }) := by decide
  have halong : ((run (TelegramBot.step TelegramBot.asciiStr tabledCrypto
        Threshold.tabledFloatStr plainAttributes) (TelegramBot.init 0) aliceInChat).map fun s =>
      decide (Along (TelegramBot.step TelegramBot.asciiStr tabledCrypto Threshold.tabledFloatStr
        plainAttributes) (fun t l => properBot t l = true ∧ foreignBot 1 5 t l = true)
          s bobInChat)) = some true := by decide
  obtain ⟨s, hs, hevents⟩ := Option.bind_eq_some_iff.mp hevents
  obtain ⟨s', hs', hevents⟩ := Option.map_eq_some_iff.mp hevents
  rw [hs, Option.map_some, Option.some.injEq] at hfound
  rw [hs, Option.map_some, Option.some.injEq, decide_eq_true_eq] at halong
  refine ⟨s, s', hs, hs', hevents, fun cmd => ?_⟩
  refine (chat_answered_as_without_others plainChoices (by decide) hs hfound (fun k => ?_) _
    cmd).2
  split
  · exact ⟨[], trivial, rfl⟩
  · exact ⟨bobInChat, halong, hs'⟩

end PulseWatch.ChatReplies
