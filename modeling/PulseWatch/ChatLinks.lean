import PulseWatch.TelegramBot

/-!
# One user for each chat

`users.telegram_chat_id` has two writers, the PATCH of the API and the bot's
`/start`, and no constraint. A chat is found for one user at most, and each linked
chat can use the bot, in a whole run exactly when neither writer ever writes a chat
id that another user's row holds.
-/

namespace PulseWatch.TelegramBot
open Alerts (Attributes)

/- A chat id is in one row at most, the lookup never meets two rows, and the chat of
a row is found as that user's. -/
structure ChatsLinked (s : State) : Prop where
  once : ∀ u ∈ s.users, ∀ v ∈ s.users, ∀ c, u.telegramChatId = some c →
    v.telegramChatId = some c → u.id = v.id
  found : ∀ chatId, findUserByChatId chatId s.users ≠ .multipleResultsFound
  usable : ∀ u ∈ s.users, ∀ chatId : ℤ, u.telegramChatId = some (toString chatId) →
    findUserByChatId chatId s.users = .one u

/- The user and the value a step writes to the column. -/
def written (s : State) : Label → Option (ℕ × Option String)
  | .save i => match s.patches i with
    | .loaded user chatId =>
      if chatId = user.telegramChatId then none
      else (PgText.varchar? 64 chatId).map fun value => (user.id, value)
    | .idle => none
  | .bot => match s.bot with
    | .linking userId chatId => some (userId, some (toString chatId))
    | _ => none
  | _ => none

/- No step writes a chat id that another user's row holds. -/
def Exclusive (s : State) (l : Label) : Prop :=
  ∀ userId c, written s l = some (userId, some c) → (∃ u ∈ s.users, u.id = userId) →
    ∀ u ∈ s.users, u.id ≠ userId → u.telegramChatId ≠ some c

/-! ### The column -/

theorem setChatId_ids (userId : ℕ) (chatId : Option String) (users : List User) :
    (setChatId userId chatId users).map User.id = users.map User.id := by
  unfold setChatId
  rw [List.map_map]
  refine List.map_congr_left fun u _ => ?_
  simp only [Function.comp]
  split <;> rfl

theorem mem_setChatId {userId : ℕ} {chatId : Option String} {users : List User} {v : User}
    (h : v ∈ setChatId userId chatId users) :
    (v.id = userId ∧ v.telegramChatId = chatId) ∨ (v.id ≠ userId ∧ v ∈ users) := by
  obtain ⟨u, hu, rfl⟩ := List.mem_map.mp h
  by_cases hid : u.id = userId
  · rw [if_pos hid]
    exact Or.inl ⟨hid, rfl⟩
  · rw [if_neg hid]
    exact Or.inr ⟨hid, hu⟩

theorem setChatId_other {userId : ℕ} {chatId : Option String} {users : List User} {u : User}
    (hu : u ∈ users) (hid : u.id ≠ userId) : u ∈ setChatId userId chatId users :=
  List.mem_map.mpr ⟨u, hu, if_neg hid⟩

theorem setChatId_self {userId : ℕ} (chatId : Option String) {users : List User}
    (h : ∃ u ∈ users, u.id = userId) :
    ∃ v ∈ setChatId userId chatId users, v.id = userId ∧ v.telegramChatId = chatId := by
  obtain ⟨u, hu, hid⟩ := h
  exact ⟨{ u with telegramChatId := chatId }, List.mem_map.mpr ⟨u, hu, if_pos hid⟩, hid, rfl⟩

/-! ### Steps -/

structure Numbered (s : State) : Prop where
  ids : (s.users.map User.id).Nodup
  below : ∀ id ∈ s.users.map User.id, id < s.nextUser

/- What a step does to the users. -/
inductive UsersMove (s : State) (l : Label) (s' : State) : Prop where
  | same (users : s'.users = s.users) (next : s'.nextUser = s.nextUser)
      (quiet : written s l = none)
  | registered (u : User) (fresh : u.id = s.nextUser) (unlinked : u.telegramChatId = none)
      (users : s'.users = u :: s.users) (next : s'.nextUser = s.nextUser + 1)
  | wrote (userId : ℕ) (chatId : Option String) (w : written s l = some (userId, chatId))
      (users : s'.users = setChatId userId chatId s.users) (next : s'.nextUser = s.nextUser)

section
variable {py : PyStr} {cr : Crypto} {floatStr : PyFloat → String} {attrs : Attributes}

theorem botStep_users {s s' : State} (h : botStep py s = some s')
    (hb : ∀ userId chatId, s.bot ≠ .linking userId chatId) :
    s'.users = s.users ∧ s'.nextUser = s.nextUser := by
  cases botStep_writes h with
  | nothing _ husers hnext => exact ⟨husers, hnext⟩
  | chat userId chatId place _ => exact absurd place (hb userId chatId)
  | rule _ _ _ _ _ husers hnext => exact ⟨husers, hnext⟩
  | toggled _ _ _ _ husers hnext => exact ⟨husers, hnext⟩
  | deleted _ _ _ husers hnext => exact ⟨husers, hnext⟩

theorem step_users {s s' : State} {l : Label} (h : step py cr floatStr attrs s l = some s') :
    UsersMove s l s' := by
  cases l with
  | registerUser email passwordHash =>
    simp only [step] at h
    split at h
    · cases h
    · exact Option.some.inj h ▸ .registered _ rfl rfl rfl rfl
  | linkCode userId code =>
    simp only [step] at h
    split at h
    · exact Option.some.inj h ▸ .same rfl rfl rfl
    · cases h
  | load i userId chatId =>
    simp only [step] at h
    split at h
    · obtain ⟨user, -, rfl⟩ := Option.map_eq_some_iff.mp h
      exact .same rfl rfl rfl
    · cases h
  | save i =>
    simp only [step] at h
    split at h
    · next user chatId hi =>
      obtain rfl := Option.some.inj h
      by_cases hsame : chatId = user.telegramChatId
      · exact .same (if_pos hsame) rfl (by simp [written, hi, hsame])
      · cases hv : PgText.varchar? 64 chatId with
        | none => exact .same (by simp [saveChatId, hsame, hv]) rfl (by simp [written, hi, hv])
        | some value =>
          exact .wrote user.id value (by simp [written, hi, hsame, hv])
            (by simp [saveChatId, hsame, hv]) rfl
    · cases h
  | rest l =>
    simp only [step] at h
    split at h
    · cases h
    · obtain ⟨db, -, rfl⟩ := Option.map_eq_some_iff.mp h
      exact .same rfl rfl rfl
  | message chatId text =>
    simp only [step] at h
    split at h
    · exact Option.some.inj h ▸ .same rfl rfl rfl
    · cases h
  | bot =>
    have hbot : botStep py s = some s' := h
    by_cases hl : ∃ userId chatId, s.bot = .linking userId chatId
    · obtain ⟨userId, chatId, hb⟩ := hl
      simp only [botStep, hb, Option.some.injEq] at hbot
      exact hbot ▸ .wrote userId (some (toString chatId)) (by simp only [written, hb]) rfl rfl
    · have hnot : ∀ userId chatId, s.bot ≠ .linking userId chatId :=
        fun userId chatId hb => hl ⟨userId, chatId, hb⟩
      obtain ⟨husers, hnext⟩ := botStep_users hbot hnot
      exact .same husers hnext (by simp only [written])
  | abort =>
    simp only [step] at h
    split at h
    · cases h
    · exact Option.some.inj h ▸ .same rfl rfl rfl

theorem Numbered.step {s s' : State} {l : Label} (h : Numbered s)
    (hs : step py cr floatStr attrs s l = some s') : Numbered s' := by
  cases step_users hs with
  | same users next => exact ⟨users ▸ h.ids, users ▸ next ▸ h.below⟩
  | registered u fresh unlinked users next =>
    refine ⟨?_, ?_⟩
    · rw [users, List.map_cons]
      refine List.nodup_cons.mpr ⟨fun hin => ?_, h.ids⟩
      have hlt := h.below _ hin
      omega
    · rw [users, List.map_cons, next]
      intro id hid
      rcases List.mem_cons.mp hid with rfl | hid
      · omega
      · have hlt := h.below id hid
        omega
  | wrote userId chatId w users next =>
    refine ⟨?_, ?_⟩
    · rw [users, setChatId_ids]
      exact h.ids
    · rw [users, setChatId_ids, next]
      exact h.below

theorem Numbered.eq {s : State} (h : Numbered s) {u v : User} (hu : u ∈ s.users)
    (hv : v ∈ s.users) (hid : u.id = v.id) : u = v :=
  List.inj_on_of_nodup_map h.ids hu hv hid

end

/- The column without repetitions, as far as chats go. -/
def Once (s : State) : Prop :=
  ∀ u ∈ s.users, ∀ v ∈ s.users, ∀ c, u.telegramChatId = some c →
    v.telegramChatId = some c → u.id = v.id

theorem Once.step {s s' : State} {l : Label} (h : Once s) (hok : Exclusive s l)
    (hm : UsersMove s l s') : Once s' := by
  cases hm with
  | same users next quiet =>
    unfold Once
    rw [users]
    exact h
  | registered u fresh unlinked users next =>
    intro x hx y hy c hxc hyc
    rw [users] at hx hy
    rcases List.mem_cons.mp hx with rfl | hx
    · rw [unlinked] at hxc
      cases hxc
    · rcases List.mem_cons.mp hy with rfl | hy
      · rw [unlinked] at hyc
        cases hyc
      · exact h x hx y hy c hxc hyc
  | wrote userId chatId w users next =>
    intro x hx y hy c hxc hyc
    rw [users] at hx hy
    have hexists : ∀ z ∈ setChatId userId chatId s.users, z.id = userId →
        ∃ u ∈ s.users, u.id = userId := by
      intro z hz hid
      have hin : z.id ∈ (setChatId userId chatId s.users).map User.id := List.mem_map_of_mem hz
      rw [setChatId_ids] at hin
      obtain ⟨u, hu, hzu⟩ := List.mem_map.mp hin
      exact ⟨u, hu, hzu.trans hid⟩
    rcases mem_setChatId hx with ⟨hxid, hxv⟩ | ⟨hxid, hx'⟩
    · rcases mem_setChatId hy with ⟨hyid, -⟩ | ⟨hyid, hy'⟩
      · exact hxid.trans hyid.symm
      · have hw : written s l = some (userId, some c) := by rw [w, ← hxv, hxc]
        exact absurd hyc (hok userId c hw (hexists x hx hxid) y hy' hyid)
    · rcases mem_setChatId hy with ⟨hyid, hyv⟩ | ⟨hyid, hy'⟩
      · have hw : written s l = some (userId, some c) := by rw [w, ← hyv, hyc]
        exact absurd hxc (hok userId c hw (hexists y hy hyid) x hx' hxid)
      · exact h x hx' y hy' c hxc hyc

theorem eq_singleton {A : Type} {a : A} {as : List A} (hn : as.Nodup) (ha : a ∈ as)
    (hall : ∀ b ∈ as, b = a) : as = [a] := by
  cases as with
  | nil => cases ha
  | cons b bs =>
    obtain rfl := hall b (List.mem_cons_self ..)
    have hnot := (List.nodup_cons.mp hn).1
    have hnil : bs = [] := by
      refine List.eq_nil_iff_forall_not_mem.mpr fun c hc => hnot ?_
      have hcb := hall c (List.mem_cons_of_mem _ hc)
      exact hcb ▸ hc
    rw [hnil]

/- The lookup is right when the column is. -/
theorem chatsLinked_iff {s : State} (hn : Numbered s) : ChatsLinked s ↔ Once s := by
  refine ⟨fun h => h.once, fun h => ?_⟩
  have hlookup : ∀ chatId : ℤ, ∀ u ∈ s.users, u.telegramChatId = some (toString chatId) →
      s.users.filter (fun v => v.telegramChatId = some (toString chatId)) = [u] := by
    intro chatId u hu hc
    have hnodup : (s.users.filter fun v => v.telegramChatId = some (toString chatId)).Nodup :=
      (List.Nodup.of_map _ hn.ids).filter _
    have hall : ∀ v ∈ s.users.filter (fun v => v.telegramChatId = some (toString chatId)),
        v = u := by
      intro v hv
      obtain ⟨hmem, hvc⟩ := List.mem_filter.mp hv
      exact hn.eq hmem hu (h v hmem u hu _ (of_decide_eq_true hvc) hc)
    have hin : u ∈ s.users.filter (fun v => v.telegramChatId = some (toString chatId)) :=
      List.mem_filter.mpr ⟨hu, decide_eq_true hc⟩
    exact eq_singleton hnodup hin hall
  refine ⟨h, fun chatId hmany => ?_, fun u hu chatId hc => ?_⟩
  · unfold findUserByChatId at hmany
    cases hf : s.users.filter (fun v => v.telegramChatId = some (toString chatId)) with
    | nil =>
      rw [hf] at hmany
      cases hmany
    | cons v vs =>
      have hv : v ∈ s.users.filter (fun v => v.telegramChatId = some (toString chatId)) := by
        rw [hf]
        exact List.mem_cons_self ..
      obtain ⟨hmem, hvc⟩ := List.mem_filter.mp hv
      rw [hlookup chatId v hmem (of_decide_eq_true hvc)] at hmany
      cases hmany
  · unfold findUserByChatId
    rw [hlookup chatId u hu hc]

section
variable {py : PyStr} {cr : Crypto} {floatStr : PyFloat → String} {attrs : Attributes}

theorem written_enabled {s : State} {l : Label} {userId : ℕ} {chatId : Option String}
    (h : written s l = some (userId, chatId)) :
    ∃ s', step py cr floatStr attrs s l = some s' ∧
      s'.users = setChatId userId chatId s.users := by
  cases l with
  | save i =>
    simp only [written] at h
    split at h
    · next user value hi =>
      split at h
      · cases h
      · next hne =>
        obtain ⟨stored, hv, hw⟩ := Option.map_eq_some_iff.mp h
        obtain ⟨rfl, rfl⟩ := Prod.mk.inj hw
        refine ⟨_, by simp only [step, hi]; rfl, ?_⟩
        simp [saveChatId, hne, hv]
    · cases h
  | bot =>
    simp only [written] at h
    split at h
    · next id chat hb =>
      obtain ⟨rfl, rfl⟩ := Prod.mk.inj (Option.some.inj h)
      exact ⟨_, by simp only [step, botStep, hb]; rfl, rfl⟩
    · cases h
  | _ => cases h

theorem taken_step {s : State} {l : Label} (hno : ¬ Exclusive s l) :
    ∃ s', step py cr floatStr attrs s l = some s' ∧ ¬ ChatsLinked s' := by
  simp only [Exclusive, not_forall, not_not] at hno
  obtain ⟨userId, c, hw, hexists, u, hu, hid, hc⟩ := hno
  have henabled : ∃ s', step py cr floatStr attrs s l = some s' ∧
      s'.users = setChatId userId (some c) s.users := written_enabled hw
  obtain ⟨s', hs, husers⟩ := henabled
  refine ⟨s', hs, fun h => hid ?_⟩
  obtain ⟨v, hv, hvid, hvc⟩ := setChatId_self (some c) hexists
  have hsame := h.once u (husers ▸ setChatId_other hu hid) v (husers ▸ hv) c hc hvc
  exact hsame.trans hvid

/-- In a whole run no chat id is in two rows and every linked chat can use the bot
exactly when no step writes a chat id that another user's row holds. -/
theorem chats_linked_iff_exclusive (py : PyStr) (cr : Crypto) (floatStr : PyFloat → String)
    (attrs : Attributes) (now : Instant) (ls : List Label) :
    Runs.Throughout (step py cr floatStr attrs) ChatsLinked (init now) ls ↔
      Runs.Along (step py cr floatStr attrs) Exclusive (init now) ls := by
  have hinit : Numbered (init now) := ⟨List.nodup_nil, fun id hid => by cases hid⟩
  constructor
  · exact Runs.along_of_throughout Numbered ChatsLinked Exclusive (fun _ _ _ h hs => h.step hs)
      (fun _ _ _ hno => taken_step hno) hinit
  · refine Runs.throughout_of_invariant (fun s => Numbered s ∧ Once s) ChatsLinked Exclusive
      ?_ ?_ ⟨hinit, fun u hu => by cases hu⟩
    · exact fun s l s' hinv hok hs => ⟨hinv.1.step hs, hinv.2.step hok (step_users hs)⟩
    · exact fun s hinv => (chatsLinked_iff hinv.1).mpr hinv.2

end

/- Two users link the same chat, each with a code of his own. -/
def sharedChat : List Label :=
  [.registerUser "alice@example.com" "", .registerUser "bob@example.com" "", .linkCode 1 "a1",
    .message 5 "/start a1", .bot, .bot, .linkCode 2 "b2", .message 5 "/start b2", .bot, .bot]

theorem chat_linked_twice :
    ∃ s, Runs.run (step asciiStr tabledCrypto Threshold.tabledFloatStr Alerts.plainAttributes)
        (init 0) sharedChat = some s ∧
      findUserByChatId 5 s.users = .multipleResultsFound ∧ ¬ ChatsLinked s := by
  exact ⟨_, rfl, rfl, fun h => h.found 5 rfl⟩

end PulseWatch.TelegramBot
