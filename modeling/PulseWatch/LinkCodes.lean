import PulseWatch.ChatLinks

/-!
# Where a linked chat is from

A chat gets into `users.telegram_chat_id` by a PATCH of the user or by `/start` with a
code. In a whole run a chat linked by `/start` has sent the code within ten minutes of
its being shown to this user, and no code shown once links twice, whatever else the
bot, the API and the clock do in between.
-/

namespace PulseWatch.LinkCodes
open Runs ExpiringStore RedisClient TelegramBot
open Alerts (Attributes)

/-! ### One step -/

/- The bot is at `/start`. -/
def starts : Bot → Bool
  | .starting _ _ => true
  | .linking _ _ => true
  | _ => false

/- `/start` finds the code. -/
def redeems (code : String) (s : State) : Label → Bool
  | .bot => match s.bot with
    | .starting _ sent => sent = code && (s.consumeTgLinkCode sent).1.isSome
    | _ => false
  | _ => false

def shows (code : String) (_ : State) : Label → Bool
  | .linkCode _ shown => shown = code
  | _ => false

/- What a step does to the link codes and to the place of the bot. -/
inductive LinkMove (s : State) : Label → State → Prop
  | aside {l s'} (keys : ∀ code, find? (.tgLink code) s'.redis = find? (.tgLink code) s.redis)
      (place : s'.bot = s.bot ∨ starts s'.bot = false)
      (quiet : ∀ code, redeems code s l = false) : LinkMove s l s'
  | shown {s'} (userId : ℕ) (code : String) (known : ∃ u ∈ s.users, u.id = userId)
      (redis : s'.redis = set (.tgLink code) (.userId userId)
        (s.db.fleet.now + seconds 600) s.redis)
      (place : s'.bot = s.bot) : LinkMove s (.linkCode userId code) s'
  | began {s'} (chatId : ℤ) (text code : String) (words : PyText.split text = ["/start", code])
      (redis : s'.redis = s.redis) (place : s'.bot = .starting chatId code) :
      LinkMove s (.message chatId text) s'
  | sent {s'} (chatId : ℤ) (code : String) (place : s.bot = .starting chatId code)
      (redis : s'.redis = del (.tgLink code) s.redis)
      (next : s'.bot = .idle ∨ ∃ userId, (s.consumeTgLinkCode code).1 = some userId ∧
        s'.bot = .linking userId chatId) : LinkMove s .bot s'

theorem dispatch_starts (py : PyStr) (userId : ℕ) (chatId : ℤ) (text : String) :
    starts (dispatch py userId chatId text) = false := by
  unfold dispatch
  split
  · split <;> rfl
  · split <;> rfl
  · split <;> rfl
  · split <;> rfl

theorem resumeDraft_starts (py : PyStr) (userId : ℕ) (chatId : ℤ) (text : String)
    (draft : Option Draft) : starts (resumeDraft py userId chatId text draft) = false := by
  cases draft with
  | none =>
    simp only [resumeDraft]
    split
    · exact dispatch_starts py userId chatId text
    · rfl
  | some draft =>
    simp only [resumeDraft]
    split
    · rfl
    · split <;> rfl

section
variable {py : PyStr} {cr : Crypto} {floatStr : PyFloat → String} {attrs : Attributes}
  {s s' : State} {l : Label}

theorem botStep_link (h : botStep py s = some s') : LinkMove s .bot s' := by
  unfold botStep at h
  cases hb : s.bot with
  | idle => simp [hb] at h
  | starting chatId code =>
    simp only [hb] at h
    split at h
    · next userId t ht =>
      obtain ⟨hcode, rfl⟩ := Prod.mk.inj ht
      obtain rfl := Option.some.inj h
      exact .sent chatId code hb rfl (Or.inr ⟨userId, hcode, rfl⟩)
    · next t ht =>
      obtain ⟨-, rfl⟩ := Prod.mk.inj ht
      obtain rfl := Option.some.inj h
      exact .sent chatId code hb rfl (Or.inl rfl)
  | checking chatId serverId =>
    have hq : ∀ code, redeems code s .bot = false := fun code => by simp only [redeems, hb]
    simp only [hb] at h
    split at h
    · next t ht =>
      obtain ⟨-, rfl⟩ := Prod.mk.inj ht
      obtain rfl := Option.some.inj h
      exact .aside (fun code => find?_del_ne _ _ _ (by simp)) (Or.inr rfl) hq
    · next t ht =>
      obtain ⟨-, rfl⟩ := Prod.mk.inj ht
      obtain rfl := Option.some.inj h
      exact .aside (fun code => find?_del_ne _ _ _ (by simp)) (Or.inr rfl) hq
  | linking userId chatId | toggling userId ruleId | dropping serverId =>
    have hq : ∀ code, redeems code s .bot = false := fun code => by simp only [redeems, hb]
    simp only [hb] at h
    obtain rfl := Option.some.inj h
    exact .aside (fun code => rfl) (Or.inr rfl) hq
  | finding chatId text | confirming userId chatId data | listing userId chatId
  | choosing userId chatId serverId =>
    have hq : ∀ code, redeems code s .bot = false := fun code => by simp only [redeems, hb]
    simp only [hb] at h
    split at h
    · obtain rfl := Option.some.inj h
      exact .aside (fun code => rfl) (Or.inr rfl) hq
    · obtain rfl := Option.some.inj h
      exact .aside (fun code => rfl) (Or.inr rfl) hq
  | deleting userId chatId serverId isConfirm =>
    have hq : ∀ code, redeems code s .bot = false := fun code => by simp only [redeems, hb]
    simp only [hb] at h
    split at h
    · obtain rfl := Option.some.inj h
      cases isConfirm <;> exact .aside (fun code => rfl) (Or.inr rfl) hq
    · obtain rfl := Option.some.inj h
      exact .aside (fun code => rfl) (Or.inr rfl) hq
  | found userId chatId text =>
    have hq : ∀ code, redeems code s .bot = false := fun code => by simp only [redeems, hb]
    simp only [hb] at h
    split at h
    · obtain rfl := Option.some.inj h
      exact .aside (fun code => find?_del_ne _ _ _ (by simp)) (Or.inr rfl) hq
    · obtain rfl := Option.some.inj h
      exact .aside (fun code => rfl) (Or.inr (resumeDraft_starts _ _ _ _ _)) hq
  | leaving userId chatId text =>
    have hq : ∀ code, redeems code s .bot = false := fun code => by simp only [redeems, hb]
    simp only [hb] at h
    obtain rfl := Option.some.inj h
    exact .aside (fun code => find?_del_ne _ _ _ (by simp)) (Or.inr (dispatch_starts _ _ _ _)) hq
  | clearing chatId =>
    have hq : ∀ code, redeems code s .bot = false := fun code => by simp only [redeems, hb]
    simp only [hb] at h
    obtain rfl := Option.some.inj h
    exact .aside (fun code => find?_del_ne _ _ _ (by simp)) (Or.inr rfl) hq
  | saving chatId draft | remembering chatId serverId =>
    have hq : ∀ code, redeems code s .bot = false := fun code => by simp only [redeems, hb]
    simp only [hb] at h
    obtain rfl := Option.some.inj h
    exact .aside (fun code => find?_set_ne _ _ _ _ _ (by simp)) (Or.inr rfl) hq

theorem message_link (chatId : ℤ) (text : String) :
    LinkMove s (.message chatId text) (s.goto (handleMessage chatId text)) := by
  unfold handleMessage
  split
  · exact .aside (fun code => rfl) (Or.inr rfl) fun code => rfl
  · split
    · split
      · next code hwords => exact .began chatId text code hwords rfl rfl
      · exact .aside (fun code => rfl) (Or.inr rfl) fun code => rfl
    · exact .aside (fun code => rfl) (Or.inr rfl) fun code => rfl

theorem step_link (h : step py cr floatStr attrs s l = some s') : LinkMove s l s' := by
  cases l with
  | registerUser email passwordHash =>
    simp only [step] at h
    split at h
    · cases h
    · obtain rfl := Option.some.inj h
      exact .aside (fun code => rfl) (Or.inl rfl) fun code => rfl
  | linkCode userId code =>
    simp only [step] at h
    split at h
    · next hany =>
      obtain rfl := Option.some.inj h
      obtain ⟨u, hu, hid⟩ := List.any_eq_true.mp hany
      exact .shown userId code ⟨u, hu, of_decide_eq_true hid⟩ rfl rfl
    · cases h
  | load i userId chatId =>
    simp only [step] at h
    split at h
    · obtain ⟨user, -, rfl⟩ := Option.map_eq_some_iff.mp h
      exact .aside (fun code => rfl) (Or.inl rfl) fun code => rfl
    · cases h
  | save i =>
    simp only [step] at h
    split at h
    · obtain rfl := Option.some.inj h
      exact .aside (fun code => rfl) (Or.inl rfl) fun code => rfl
    · cases h
  | rest l =>
    simp only [step] at h
    split at h
    · cases h
    · obtain ⟨db, -, rfl⟩ := Option.map_eq_some_iff.mp h
      exact .aside (fun code => rfl) (Or.inl rfl) fun code => rfl
  | message chatId text =>
    simp only [step] at h
    split at h
    · obtain rfl := Option.some.inj h
      exact message_link chatId text
    · cases h
  | bot => exact botStep_link h
  | abort =>
    simp only [step] at h
    split at h
    · cases h
    · obtain rfl := Option.some.inj h
      exact .aside (fun code => rfl) (Or.inr rfl) fun code => rfl

theorem botStep_patches (h : botStep py s = some s') : s'.patches = s.patches := by
  unfold botStep at h
  cases hb : s.bot with
  | idle => simp [hb] at h
  | starting chatId code | checking chatId serverId =>
    simp only [hb] at h
    split at h
    · next t ht =>
      obtain ⟨-, rfl⟩ := Prod.mk.inj ht
      obtain rfl := Option.some.inj h
      rfl
    · next t ht =>
      obtain ⟨-, rfl⟩ := Prod.mk.inj ht
      obtain rfl := Option.some.inj h
      rfl
  | finding chatId text | found userId chatId text | listing userId chatId
  | choosing userId chatId serverId | confirming userId chatId data
  | deleting userId chatId serverId isConfirm =>
    simp only [hb] at h
    split at h
    · obtain rfl := Option.some.inj h
      rfl
    · obtain rfl := Option.some.inj h
      rfl
  | linking userId chatId | leaving userId chatId text | saving chatId draft | clearing chatId
  | toggling userId ruleId | remembering chatId serverId | dropping serverId =>
    simp only [hb] at h
    obtain rfl := Option.some.inj h
    rfl

/- The request a loaded row is from. -/
theorem step_patches (h : step py cr floatStr attrs s l = some s') {i : ℕ} {user : User}
    {chatId : Option String} (hi : s'.patches i = .loaded user chatId) :
    s.patches i = .loaded user chatId ∨
      ∃ raw, l = .load i user.id raw ∧ validateChatId py raw = some chatId := by
  cases l with
  | registerUser email passwordHash =>
    simp only [step] at h
    split at h
    · cases h
    · obtain rfl := Option.some.inj h
      exact Or.inl hi
  | linkCode userId code =>
    simp only [step] at h
    split at h
    · obtain rfl := Option.some.inj h
      exact Or.inl hi
    · cases h
  | load j userId raw =>
    simp only [step] at h
    split at h
    · next value hidle hvalue =>
      obtain ⟨loaded, hfind, rfl⟩ := Option.map_eq_some_iff.mp h
      by_cases hj : i = j
      · subst hj
        simp only [Function.update_self, Patch.loaded.injEq] at hi
        obtain ⟨rfl, rfl⟩ := hi
        have hid := List.find?_some hfind
        simp only [decide_eq_true_eq] at hid
        exact Or.inr ⟨raw, by rw [hid], hvalue⟩
      · simp only [Function.update_of_ne hj] at hi
        exact Or.inl hi
    · cases h
  | save j =>
    simp only [step] at h
    split at h
    · obtain rfl := Option.some.inj h
      by_cases hj : i = j
      · subst hj
        simp only [Function.update_self] at hi
        cases hi
      · simp only [Function.update_of_ne hj] at hi
        exact Or.inl hi
    · cases h
  | rest l =>
    simp only [step] at h
    split at h
    · cases h
    · obtain ⟨db, -, rfl⟩ := Option.map_eq_some_iff.mp h
      exact Or.inl hi
  | message chatId text =>
    simp only [step] at h
    split at h
    · obtain rfl := Option.some.inj h
      exact Or.inl hi
    · cases h
  | bot => exact Or.inl (congrFun (botStep_patches h) i ▸ hi)
  | abort =>
    simp only [step] at h
    split at h
    · cases h
    · obtain rfl := Option.some.inj h
      exact Or.inl hi

end

/-! ### What a link rests on -/

section
variable (py : PyStr) (cr : Crypto) (floatStr : PyFloat → String) (attrs : Attributes)
  (now : Instant) (ls : List Label)

/- The user has asked for the code, less than ten minutes before `deadline`. -/
def Shown (userId : ℕ) (code : String) (deadline : Instant) : Prop :=
  Took (step py cr floatStr attrs) (init now) ls fun _ s l =>
    l = .linkCode userId code ∧ deadline = s.db.fleet.now + seconds 600

/- The chat has sent the code. -/
def Sent (chatId : ℤ) (code : String) : Prop :=
  Took (step py cr floatStr attrs) (init now) ls fun _ _ l =>
    ∃ text, l = .message chatId text ∧ PyText.split text = ["/start", code]

/- The bot has found the code the chat sent among those that have not expired. -/
def Redeemed (userId : ℕ) (chatId : ℤ) : Prop :=
  Took (step py cr floatStr attrs) (init now) ls fun p s l => l = .bot ∧ ∃ code deadline,
    Sent py cr floatStr attrs now p chatId code ∧
      Shown py cr floatStr attrs now p userId code deadline ∧ s.db.fleet.now ≤ deadline

/- A PATCH of the user. -/
def Patched (userId : ℕ) (chatId : Option String) : Prop :=
  Took (step py cr floatStr attrs) (init now) ls fun _ _ l =>
    ∃ i raw, l = .load i userId raw ∧ validateChatId py raw = some chatId

/- Where the value of the column is from. -/
def Linked (userId : ℕ) (c : String) : Prop :=
  (∃ chatId, Patched py cr floatStr attrs now ls userId chatId ∧
    PgText.varchar? 64 chatId = some (some c)) ∨
  ∃ chatId, c = toString chatId ∧ Redeemed py cr floatStr attrs now ls userId chatId

structure Traced (s : State) : Prop where
  codes : ∀ code e, find? (.tgLink code) s.redis = some e → ∃ userId,
    e.value = .userId userId ∧ Shown py cr floatStr attrs now ls userId code e.deadline
  starting : ∀ chatId code, s.bot = .starting chatId code →
    Sent py cr floatStr attrs now ls chatId code
  linking : ∀ userId chatId, s.bot = .linking userId chatId →
    Redeemed py cr floatStr attrs now ls userId chatId
  patches : ∀ i user chatId, s.patches i = .loaded user chatId →
    Patched py cr floatStr attrs now ls user.id chatId
  users : ∀ u ∈ s.users, ∀ c, u.telegramChatId = some c →
    Linked py cr floatStr attrs now ls u.id c

end

section
variable {py : PyStr} {cr : Crypto} {floatStr : PyFloat → String} {attrs : Attributes}
  {now : Instant} {ls : List Label} {s s' : State} {l : Label}

theorem Linked.later {userId : ℕ} {c : String}
    (h : Linked py cr floatStr attrs now ls userId c) (ms : List Label) :
    Linked py cr floatStr attrs now (ls ++ ms) userId c := by
  rcases h with ⟨chatId, hpatched, hvalue⟩ | ⟨chatId, hc, hredeemed⟩
  · exact Or.inl ⟨chatId, Took.later hpatched ms, hvalue⟩
  · exact Or.inr ⟨chatId, hc, Took.later hredeemed ms⟩

theorem Traced.start : Traced py cr floatStr attrs now [] (init now) where
  codes code e he := by cases he
  starting chatId code hb := by cases hb
  linking userId chatId hb := by cases hb
  patches i user chatId hi := by cases hi
  users u hu := by cases hu

theorem Traced.patches_step (hr : run (step py cr floatStr attrs) (init now) ls = some s)
    (h : Traced py cr floatStr attrs now ls s) (hs : step py cr floatStr attrs s l = some s') :
    ∀ i user chatId, s'.patches i = .loaded user chatId →
      Patched py cr floatStr attrs now (ls ++ [l]) user.id chatId := by
  intro i user chatId hi
  rcases step_patches hs hi with hold | ⟨raw, hl, hvalue⟩
  · exact Took.later (h.patches i user chatId hold) [l]
  · exact Took.here hr ⟨i, raw, hl, hvalue⟩

theorem Traced.users_step (h : Traced py cr floatStr attrs now ls s)
    (hs : step py cr floatStr attrs s l = some s') :
    ∀ u ∈ s'.users, ∀ c, u.telegramChatId = some c →
      Linked py cr floatStr attrs now (ls ++ [l]) u.id c := by
  intro u hu c hc
  cases step_users hs with
  | same users next =>
    rw [users] at hu
    exact (h.users u hu c hc).later [l]
  | registered v fresh unlinked users next =>
    rw [users] at hu
    rcases List.mem_cons.mp hu with rfl | hu
    · rw [unlinked] at hc
      cases hc
    · exact (h.users u hu c hc).later [l]
  | wrote userId chatId w users next =>
    rw [users] at hu
    rcases mem_setChatId hu with ⟨rfl, hvalue⟩ | ⟨-, hu⟩
    · obtain rfl : chatId = some c := hvalue.symm.trans hc
      refine Linked.later ?_ [l]
      cases l with
      | save i =>
        simp only [written] at w
        split at w
        · next user typed hi =>
          split at w
          · cases w
          · obtain ⟨value, hvarchar, hw⟩ := Option.map_eq_some_iff.mp w
            obtain ⟨hid, hval⟩ := Prod.mk.inj hw
            rw [hval] at hvarchar
            exact Or.inl ⟨typed, hid ▸ h.patches i user typed hi, hvarchar⟩
        · cases w
      | bot =>
        simp only [written] at w
        split at w
        · next userId chatId hb =>
          obtain ⟨rfl, hval⟩ := Prod.mk.inj (Option.some.inj w)
          exact Or.inr ⟨chatId, (Option.some.inj hval).symm, h.linking _ _ hb⟩
        · cases w
      | _ => cases w
    · exact (h.users u hu c hc).later [l]

/- A code taken out is one that was shown, not long ago. -/
theorem consumed {code : String} {userId : ℕ} (h : (s.consumeTgLinkCode code).1 = some userId) :
    ∃ e, find? (.tgLink code) s.redis = some e ∧ e.value = .userId userId ∧
      s.db.fleet.now ≤ e.deadline := by
  unfold State.consumeTgLinkCode State.getKey get? at h
  simp only at h
  split at h
  · next n hget =>
    obtain rfl := Option.some.inj h
    obtain ⟨e, he, hvalue⟩ := Option.bind_eq_some_iff.mp hget
    split at hvalue
    · next hlive => exact ⟨e, he, Option.some.inj hvalue, hlive⟩
    · cases hvalue
  · cases h

theorem Traced.codes_step (hr : run (step py cr floatStr attrs) (init now) ls = some s)
    (h : Traced py cr floatStr attrs now ls s) (hm : LinkMove s l s') :
    ∀ code e, find? (.tgLink code) s'.redis = some e → ∃ userId, e.value = .userId userId ∧
      Shown py cr floatStr attrs now (ls ++ [l]) userId code e.deadline := by
  intro code e he
  have hold : find? (.tgLink code) s.redis = some e → ∃ userId, e.value = .userId userId ∧
      Shown py cr floatStr attrs now (ls ++ [l]) userId code e.deadline := by
    intro hin
    obtain ⟨userId, hvalue, hshown⟩ := h.codes code e hin
    exact ⟨userId, hvalue, Took.later hshown [l]⟩
  cases hm with
  | aside keys place quiet => exact hold (keys code ▸ he)
  | shown userId code' known redis place =>
    rw [redis] at he
    by_cases hcode : code = code'
    · subst hcode
      rw [find?_set_self] at he
      obtain rfl := Option.some.inj he
      exact ⟨userId, rfl, Took.here hr ⟨rfl, rfl⟩⟩
    · rw [find?_set_ne _ _ _ _ _ (by simpa using hcode)] at he
      exact hold he
  | began chatId text code' words redis place => exact hold (redis ▸ he)
  | sent chatId code' place redis next =>
    rw [redis] at he
    by_cases hcode : code = code'
    · subst hcode
      rw [find?_del_self] at he
      cases he
    · rw [find?_del_ne _ _ _ (by simpa using hcode)] at he
      exact hold he

theorem Traced.starting_step (hr : run (step py cr floatStr attrs) (init now) ls = some s)
    (h : Traced py cr floatStr attrs now ls s) (hm : LinkMove s l s') :
    ∀ chatId code, s'.bot = .starting chatId code →
      Sent py cr floatStr attrs now (ls ++ [l]) chatId code := by
  intro chatId code hb
  cases hm with
  | aside keys place quiet =>
    rcases place with hsame | haside
    · exact Took.later (h.starting chatId code (hsame ▸ hb)) [l]
    · rw [hb] at haside
      cases haside
  | shown userId code' known redis place =>
    exact Took.later (h.starting chatId code (place ▸ hb)) _
  | began chatId' text code' words redis place =>
    obtain ⟨rfl, rfl⟩ := Bot.starting.inj (place.symm.trans hb)
    exact Took.here hr ⟨text, rfl, words⟩
  | sent chatId' code' place redis next =>
    rcases next with hidle | ⟨userId, -, hlinking⟩
    · cases hidle.symm.trans hb
    · cases hlinking.symm.trans hb

theorem Traced.linking_step (hr : run (step py cr floatStr attrs) (init now) ls = some s)
    (h : Traced py cr floatStr attrs now ls s) (hm : LinkMove s l s') :
    ∀ userId chatId, s'.bot = .linking userId chatId →
      Redeemed py cr floatStr attrs now (ls ++ [l]) userId chatId := by
  intro userId chatId hb
  cases hm with
  | aside keys place quiet =>
    rcases place with hsame | haside
    · exact Took.later (h.linking userId chatId (hsame ▸ hb)) [l]
    · rw [hb] at haside
      cases haside
  | shown userId' code known redis place =>
    exact Took.later (h.linking userId chatId (place ▸ hb)) _
  | began chatId' text code words redis place => cases place.symm.trans hb
  | sent chatId' code place redis next =>
    rcases next with hidle | ⟨userId', hcode, hlinking⟩
    · cases hidle.symm.trans hb
    · obtain ⟨rfl, rfl⟩ := Bot.linking.inj (hlinking.symm.trans hb)
      obtain ⟨e, he, hvalue, hlive⟩ := consumed hcode
      obtain ⟨shownTo, hvalue', hshown⟩ := h.codes code e he
      obtain rfl := BotValue.userId.inj (hvalue.symm.trans hvalue')
      exact Took.here hr ⟨rfl, code, e.deadline, h.starting _ code place, hshown, hlive⟩

theorem Traced.step (hr : run (TelegramBot.step py cr floatStr attrs) (init now) ls = some s)
    (h : Traced py cr floatStr attrs now ls s)
    (hs : TelegramBot.step py cr floatStr attrs s l = some s') :
    Traced py cr floatStr attrs now (ls ++ [l]) s' where
  codes := h.codes_step hr (step_link hs)
  starting := h.starting_step hr (step_link hs)
  linking := h.linking_step hr (step_link hs)
  patches := h.patches_step hr hs
  users := h.users_step hs

/-! ### Whole runs -/

/-- A chat id in the row of a user was given by a PATCH of this user, or is that of a
chat that has sent a code which this user had been shown at most ten minutes earlier. -/
theorem linked_chat_is_vouched
    (hr : run (TelegramBot.step py cr floatStr attrs) (init now) ls = some s)
    {u : User} (hu : u ∈ s.users) {c : String} (hc : u.telegramChatId = some c) :
    Linked py cr floatStr attrs now ls u.id c :=
  (run_history (Traced py cr floatStr attrs now) Traced.start
    (fun _ _ _ _ hls h hs => h.step hls hs) hr).users u hu c hc

end

/- A code is sent in the last moment, and once more. -/
def lastMoment : List Label :=
  [.registerUser "alice@example.com" "", .linkCode 1 "a1", .rest (.fleet (.tick 600000000)),
    .message 5 "/start a1", .bot, .bot, .message 6 "/start a1", .bot]

theorem linked_in_the_last_moment : ∃ s u,
    run (TelegramBot.step asciiStr tabledCrypto Threshold.tabledFloatStr Alerts.plainAttributes)
      (init 0) lastMoment = some s ∧ u ∈ s.users ∧ u.telegramChatId = some "5" ∧
    Linked asciiStr tabledCrypto Threshold.tabledFloatStr Alerts.plainAttributes 0 lastMoment
      u.id "5" := by
  have hmem := List.mem_singleton_self ({ id := 1, email := "alice@example.com"
                                          passwordHash := "", telegramChatId := some "5" } : User)
  exact ⟨_, _, rfl, hmem, rfl, linked_chat_is_vouched rfl hmem rfl⟩

/-! ### A code links once -/

section
variable {py : PyStr} {cr : Crypto} {floatStr : PyFloat → String} {attrs : Attributes}
  {now : Instant} {ls : List Label} {s s' : State} {l : Label}

/- What a step adds on both sides, the code in Redis counted as not yet redeemed. -/
theorem redeems_balance (hm : LinkMove s l s') (code : String) :
    (redeems code s l).toNat + (find? (.tgLink code) s'.redis).isSome.toNat ≤
      (shows code s l).toNat + (find? (.tgLink code) s.redis).isSome.toNat := by
  cases hm with
  | aside keys place quiet =>
    rw [quiet code, keys code, Bool.toNat_false]
    omega
  | shown userId code' known redis place =>
    rw [redis]
    by_cases hcode : code = code'
    · subst hcode
      simp [redeems, shows]
    · have hquiet : redeems code s (.linkCode userId code') = false := rfl
      rw [find?_set_ne _ _ _ _ _ (by simpa using hcode), hquiet, Bool.toNat_false]
      omega
  | began chatId text code' words redis place =>
    rw [redis]
    exact Nat.le_refl _
  | sent chatId code' place redis next =>
    rw [redis]
    by_cases hcode : code = code'
    · subst hcode
      cases hsome : (s.consumeTgLinkCode code).1 with
      | none => simp [redeems, place, hsome]
      | some userId =>
        obtain ⟨e, he, -⟩ := consumed hsome
        simp [redeems, shows, place, hsome, he]
    · have hother : redeems code s .bot = false := by
        simp [redeems, place, Ne.symm hcode]
      rw [find?_del_ne _ _ _ (by simpa using hcode), hother, Bool.toNat_false]
      omega

/-- A code is found by `/start` at most as often as it was shown: once, as codes go. -/
theorem redeemed_at_most_as_shown
    (hr : run (TelegramBot.step py cr floatStr attrs) (init now) ls = some s) (code : String) :
    tally (TelegramBot.step py cr floatStr attrs) (redeems code) (init now) ls ≤
      tally (TelegramBot.step py cr floatStr attrs) (shows code) (init now) ls := by
  have hbalance : tally (TelegramBot.step py cr floatStr attrs) (redeems code) (init now) ls +
      (find? (.tgLink code) s.redis).isSome.toNat ≤
        tally (TelegramBot.step py cr floatStr attrs) (shows code) (init now) ls := by
    refine run_history (fun ls (s : State) =>
      tally (TelegramBot.step py cr floatStr attrs) (redeems code) (init now) ls +
        (find? (.tgLink code) s.redis).isSome.toNat ≤
          tally (TelegramBot.step py cr floatStr attrs) (shows code) (init now) ls)
      ?_ ?_ hr
    · exact Nat.le_refl 0
    intro ls s l s' hls h hs
    rw [tally_snoc hls, tally_snoc hls]
    have hstep := redeems_balance (step_link hs) code
    omega
  omega

end

theorem second_start_finds_nothing : ∃ s,
    run (TelegramBot.step asciiStr tabledCrypto Threshold.tabledFloatStr Alerts.plainAttributes)
      (init 0) lastMoment = some s ∧
    tally (TelegramBot.step asciiStr tabledCrypto Threshold.tabledFloatStr Alerts.plainAttributes)
        (redeems "a1") (init 0) lastMoment ≤
      tally (TelegramBot.step asciiStr tabledCrypto Threshold.tabledFloatStr
        Alerts.plainAttributes) (shows "a1") (init 0) lastMoment :=
  ⟨_, rfl, redeemed_at_most_as_shown rfl "a1"⟩

end PulseWatch.LinkCodes
