import PulseWatch.NotificationTasks
import PulseWatch.TelegramBot

/-!
# `/mute` (`app/telegram_bot.py`, `app/redis_client.py`)

`_handle_mute` beside everything else the bot and the API do: it checks the server
against the user the chat was linked to, and sets a key for each channel, one awaited
command after the other. The notification tasks ask for these keys. The bot takes no
message while it is at `/mute`.
-/

namespace PulseWatch.Mutes
open Runs ExpiringStore RedisClient TelegramBot

/-- `MUTE_CHANNELS`. -/
def muteChannels : List String := ["telegram", "email"]

/- What `/mute` asks for, and the user it is handled for. -/
structure Order where
  userId : ℕ
  serverId : ℕ
  minutes : ℕ
  channels : List String
  deriving DecidableEq, Repr

def channelsOf (channel : String) : Option (List String) :=
  if channel = "all" then some muteChannels
  else if channel ∈ muteChannels then some [channel]
  else none

section
variable (py : PyStr)

def order (userId : ℕ) (serverId minutes : String) (channel : Option String) : Option Order :=
  match py.decimal serverId, py.decimal minutes with
  | some serverId, some minutes =>
    if minutes = 0 ∨ 1440 < minutes then none
    else (channelsOf ((channel.map py.lower).getD "all")).map fun channels =>
      ⟨userId, serverId, minutes, channels⟩
  | _, _ => none

/- `_handle_mute` up to its first await. -/
def handleMute (userId : ℕ) (text : String) : Option Order :=
  match PyText.split text with
  | ["/mute", serverId, minutes] => order py userId serverId minutes none
  | ["/mute", serverId, minutes, channel] => order py userId serverId minutes (some channel)
  | _ => none

/- The bot is at the end of `_handle_message`, where the command is chosen. -/
def dispatched (s : State) : Option Order :=
  match s.bot with
  | .found userId chatId text =>
    if PyText.startsWith text "/cancel" = false ∧ (s.getRuleDraft chatId).isNone ∧
        PyText.startsWith text "/" then handleMute py userId text
    else none
  | .leaving userId _ text => handleMute py userId text
  | _ => none

end

/- The SELECT of the server, or the next SET. -/
inductive Muting where
  | looking (order : Order)
  | setting (order : Order) (channel : String) (rest : List String)
  deriving DecidableEq, Repr

/- A SET that Redis has executed. -/
structure Mute where
  order : Order
  channel : String
  since : Instant
  deriving DecidableEq, Repr

def Mute.deadline (m : Mute) : Instant := m.since + minutes m.order.minutes

/- `redis` has the mute keys; nothing reads `mutes`, newest first. -/
structure Sys where
  bot : State
  redis : Store RedisKey Unit Instant := []
  muting : Option Muting := none
  mutes : List Mute := []

/- `failed` is an exception; the SET it comes from may have been executed. -/
inductive Label where
  | other (l : TelegramBot.Label)
  | look
  | set
  | failed (applied : Bool)

namespace Sys
variable (s : Sys)

def now : Instant := s.bot.db.fleet.now

def goto (muting : Option Muting) : Sys := { s with muting }

/- `set_channel_mute`. -/
def setChannelMute (order : Order) (channel : String) : Sys :=
  { s with
    redis := ExpiringStore.set (.mute order.serverId channel) ()
      (s.now + minutes order.minutes) s.redis
    mutes := ⟨order, channel, s.now⟩ :: s.mutes }

def isChannelMuted (serverId : ℕ) (channel : String) : Bool :=
  alive s.now (.mute serverId channel) s.redis

/- The last SET of the key. -/
def lastMute (serverId : ℕ) (channel : String) : Option Mute :=
  s.mutes.find? fun m => m.order.serverId = serverId ∧ m.channel = channel

end Sys

def usesBot : TelegramBot.Label → Bool
  | .message _ _ => true
  | .bot => true
  | .abort => true
  | _ => false

def nextSet (order : Order) : List String → Option Muting
  | [] => none
  | channel :: rest => some (.setting order channel rest)

def init (now : Instant) : Sys := { bot := TelegramBot.init now }

section
variable (py : PyStr) (cr : Crypto) (floatStr : PyFloat → String) (attrs : Alerts.Attributes)

def step (s : Sys) : Label → Option Sys
  | .other l =>
    if s.muting.isSome && usesBot l then none
    else (TelegramBot.step py cr floatStr attrs s.bot l).map fun bot =>
      { s with
        bot
        muting := match l with
          | .bot => (dispatched py s.bot).map .looking
          | _ => s.muting }
  | .look => match s.muting with
    | some (.looking order) =>
      if (ownServer order.userId order.serverId s.bot.db).isSome then
        some (s.goto (nextSet order order.channels))
      else some (s.goto none)
    | _ => none
  | .set => match s.muting with
    | some (.setting order channel rest) =>
      some ((s.setChannelMute order channel).goto (nextSet order rest))
    | _ => none
  | .failed applied => match s.muting with
    | some (.setting order channel _) =>
      some ((if applied then s.setChannelMute order channel else s).goto none)
    | some (.looking _) => some (s.goto none)
    | none => none

end

/-! ### The key and the last command -/

theorem order_spec {py : PyStr} {userId : ℕ} {serverId minutes : String} {channel : Option String}
    {o : Order} (h : order py userId serverId minutes channel = some o) :
    o.userId = userId ∧ 1 ≤ o.minutes ∧ o.minutes ≤ 1440 ∧
      ∀ ch ∈ o.channels, ch ∈ muteChannels := by
  unfold order at h
  split at h
  · split at h
    · cases h
    · next hrange =>
      obtain ⟨channels, hchannels, rfl⟩ := Option.map_eq_some_iff.mp h
      refine ⟨rfl, by simp only; omega, by simp only; omega, fun ch hch => ?_⟩
      unfold channelsOf at hchannels
      split at hchannels
      · rw [Option.some.inj hchannels]
        exact hch
      · split at hchannels
        · next hmem =>
          rw [← Option.some.inj hchannels] at hch
          exact List.mem_singleton.mp hch ▸ hmem
        · cases hchannels
  · cases h

theorem handleMute_spec {py : PyStr} {userId : ℕ} {text : String} {o : Order}
    (h : handleMute py userId text = some o) : o.userId = userId ∧ 1 ≤ o.minutes ∧
      o.minutes ≤ 1440 ∧ ∀ ch ∈ o.channels, ch ∈ muteChannels := by
  unfold handleMute at h
  split at h
  · exact order_spec h
  · exact order_spec h
  · cases h

/- Redis has the deadline of the last SET of a key. -/
def Recorded (s : Sys) : Prop :=
  ∀ serverId channel, deadline? (.mute serverId channel) s.redis =
    (s.lastMute serverId channel).map Mute.deadline

theorem Recorded.setChannelMute {s : Sys} (h : Recorded s) (o : Order) (channel : String) :
    Recorded (s.setChannelMute o channel) := by
  intro serverId ch
  unfold Sys.setChannelMute Sys.lastMute
  by_cases hkey : o.serverId = serverId ∧ channel = ch
  · obtain ⟨rfl, rfl⟩ := hkey
    rw [deadline?_set_self, List.find?_cons_of_pos (by simp)]
    rfl
  · have hne : RedisKey.mute serverId ch ≠ RedisKey.mute o.serverId channel := by
      intro he
      exact hkey ⟨(RedisKey.mute.inj he).1.symm, (RedisKey.mute.inj he).2.symm⟩
    rw [deadline?_set_ne _ _ _ _ _ hne, List.find?_cons_of_neg (by simpa using hkey)]
    exact h serverId ch

theorem Recorded.muted_iff {s : Sys} (h : Recorded s) (serverId : ℕ) (channel : String) :
    s.isChannelMuted serverId channel = true ↔
      ∃ m, s.lastMute serverId channel = some m ∧ s.now ≤ m.deadline := by
  unfold Sys.isChannelMuted
  rw [alive_iff, h serverId channel]
  constructor
  · rintro ⟨d, hd, hle⟩
    obtain ⟨m, hm, rfl⟩ := Option.map_eq_some_iff.mp hd
    exact ⟨m, hm, hle⟩
  · rintro ⟨m, hm, hle⟩
    exact ⟨m.deadline, by rw [hm]; rfl, hle⟩

/-! ### The message in hand -/

/- The bot has a message to look into. -/
def listens : Bot → Bool
  | .finding _ _ => true
  | .found _ _ _ => true
  | .leaving _ _ _ => true
  | _ => false

/- How the bot comes to a message, and from one look at it to the next. -/
inductive Heard (s : State) : TelegramBot.Label → State → Prop
  | aside {l s'} (place : s'.bot = s.bot ∨ listens s'.bot = false) : Heard s l s'
  | heard {s'} (chatId : ℤ) (text : String) (place : s'.bot = .finding chatId text) :
      Heard s (.message chatId text) s'
  | found {s'} (chatId : ℤ) (text : String) (user : User) (place : s.bot = .finding chatId text)
      (linked : findUserByChatId chatId s.users = .one user)
      (next : s'.bot = .found user.id chatId text) : Heard s .bot s'
  | left {s'} (userId : ℕ) (chatId : ℤ) (text : String) (place : s.bot = .found userId chatId text)
      (next : s'.bot = .leaving userId chatId text) : Heard s .bot s'

theorem dispatch_listens (py : PyStr) (userId : ℕ) (chatId : ℤ) (text : String) :
    listens (dispatch py userId chatId text) = false := by
  unfold dispatch
  split
  · split <;> rfl
  · split <;> rfl
  · split <;> rfl
  · split <;> rfl

theorem resumeDraft_listens (py : PyStr) (userId : ℕ) (chatId : ℤ) (text : String)
    (draft : Option Draft) : listens (resumeDraft py userId chatId text draft) = false ∨
      resumeDraft py userId chatId text draft = .leaving userId chatId text := by
  cases draft with
  | none =>
    left
    simp only [resumeDraft]
    split
    · exact dispatch_listens py userId chatId text
    · rfl
  | some draft =>
    simp only [resumeDraft]
    split
    · exact Or.inr rfl
    · left
      split <;> rfl

section
variable {py : PyStr} {cr : Crypto} {floatStr : PyFloat → String} {attrs : Alerts.Attributes}

theorem botStep_heard {s s' : State} (h : botStep py s = some s') : Heard s .bot s' := by
  unfold botStep at h
  cases hb : s.bot with
  | idle => simp [hb] at h
  | starting chatId code | checking chatId serverId =>
    simp only [hb] at h
    split at h
    · obtain rfl := Option.some.inj h
      exact .aside (Or.inr rfl)
    · obtain rfl := Option.some.inj h
      exact .aside (Or.inr rfl)
  | finding chatId text =>
    simp only [hb] at h
    split at h
    · next user hone =>
      obtain rfl := Option.some.inj h
      exact .found chatId text user hb hone rfl
    · obtain rfl := Option.some.inj h
      exact .aside (Or.inr rfl)
  | found userId chatId text =>
    simp only [hb] at h
    split at h
    · obtain rfl := Option.some.inj h
      exact .aside (Or.inr rfl)
    · obtain rfl := Option.some.inj h
      rcases resumeDraft_listens py userId chatId text (s.getRuleDraft chatId) with haside | hleave
      · exact .aside (Or.inr haside)
      · exact .left userId chatId text hb hleave
  | leaving userId chatId text =>
    simp only [hb] at h
    obtain rfl := Option.some.inj h
    exact .aside (Or.inr (dispatch_listens py userId chatId text))
  | deleting userId chatId serverId isConfirm =>
    simp only [hb] at h
    split at h
    · obtain rfl := Option.some.inj h
      cases isConfirm <;> exact .aside (Or.inr rfl)
    · obtain rfl := Option.some.inj h
      exact .aside (Or.inr rfl)
  | confirming userId chatId data | listing userId chatId | choosing userId chatId serverId =>
    simp only [hb] at h
    split at h
    · obtain rfl := Option.some.inj h
      exact .aside (Or.inr rfl)
    · obtain rfl := Option.some.inj h
      exact .aside (Or.inr rfl)
  | linking userId chatId | toggling userId ruleId | dropping serverId | clearing chatId
  | saving chatId draft | remembering chatId serverId =>
    simp only [hb] at h
    obtain rfl := Option.some.inj h
    exact .aside (Or.inr rfl)

theorem step_heard {s s' : State} {l : TelegramBot.Label}
    (h : TelegramBot.step py cr floatStr attrs s l = some s') : Heard s l s' := by
  cases l with
  | registerUser email passwordHash =>
    simp only [TelegramBot.step] at h
    split at h
    · cases h
    · obtain rfl := Option.some.inj h
      exact .aside (Or.inl rfl)
  | linkCode userId code =>
    simp only [TelegramBot.step] at h
    split at h
    · obtain rfl := Option.some.inj h
      exact .aside (Or.inl rfl)
    · cases h
  | load i userId chatId =>
    simp only [TelegramBot.step] at h
    split at h
    · obtain ⟨user, -, rfl⟩ := Option.map_eq_some_iff.mp h
      exact .aside (Or.inl rfl)
    · cases h
  | save i =>
    simp only [TelegramBot.step] at h
    split at h
    · obtain rfl := Option.some.inj h
      exact .aside (Or.inl rfl)
    · cases h
  | rest l =>
    simp only [TelegramBot.step] at h
    split at h
    · cases h
    · obtain ⟨db, -, rfl⟩ := Option.map_eq_some_iff.mp h
      exact .aside (Or.inl rfl)
  | message chatId text =>
    simp only [TelegramBot.step] at h
    split at h
    · obtain rfl := Option.some.inj h
      simp only [handleMessage]
      split
      · exact .aside (Or.inr rfl)
      · split
        · split
          · exact .aside (Or.inr rfl)
          · exact .aside (Or.inr rfl)
        · exact .heard chatId text rfl
    · cases h
  | bot => exact botStep_heard h
  | abort =>
    simp only [TelegramBot.step] at h
    split at h
    · cases h
    · obtain rfl := Option.some.inj h
      exact .aside (Or.inr rfl)

end

/-! ### What a mute rests on -/

section
variable (py : PyStr) (cr : Crypto) (floatStr : PyFloat → String) (attrs : Alerts.Attributes)
  (now : Instant) (ls : List Label)

/- The chat has sent the text. -/
def Sent (chatId : ℤ) (text : String) : Prop :=
  Took (step py cr floatStr attrs) (init now) ls fun _ _ l => l = .other (.message chatId text)

/- The chat that has sent it was that of this user and of nobody else. -/
def From (userId : ℕ) (text : String) : Prop :=
  Took (step py cr floatStr attrs) (init now) ls fun p s l => l = .other .bot ∧
    ∃ chatId user, Sent py cr floatStr attrs now p chatId text ∧
      findUserByChatId chatId s.bot.users = .one user ∧ user.id = userId

/- The text is a `/mute` of this user. -/
def Ordered (o : Order) : Prop :=
  ∃ text, handleMute py o.userId text = some o ∧ From py cr floatStr attrs now ls o.userId text

/- And the server was his when the bot looked. -/
def Allowed (o : Order) : Prop :=
  Took (step py cr floatStr attrs) (init now) ls fun p s l => l = .look ∧
    Ordered py cr floatStr attrs now p o ∧
    (ownServer o.userId o.serverId s.bot.db).isSome = true

structure Traced (s : Sys) : Prop where
  finding : ∀ chatId text, s.bot.bot = .finding chatId text →
    Sent py cr floatStr attrs now ls chatId text
  found : ∀ userId chatId text, s.bot.bot = .found userId chatId text ∨
    s.bot.bot = .leaving userId chatId text → From py cr floatStr attrs now ls userId text
  looking : ∀ o, s.muting = some (.looking o) → Ordered py cr floatStr attrs now ls o
  setting : ∀ o channel rest, s.muting = some (.setting o channel rest) →
    Allowed py cr floatStr attrs now ls o ∧ ∀ ch ∈ channel :: rest, ch ∈ o.channels
  mutes : ∀ m ∈ s.mutes, m.channel ∈ m.order.channels ∧
    Allowed py cr floatStr attrs now ls m.order
  recorded : Recorded s

end

section
variable {py : PyStr} {cr : Crypto} {floatStr : PyFloat → String} {attrs : Alerts.Attributes}
  {now : Instant} {ls : List Label} {s s' : Sys}

theorem Ordered.later {o : Order} (h : Ordered py cr floatStr attrs now ls o) (ms : List Label) :
    Ordered py cr floatStr attrs now (ls ++ ms) o := by
  obtain ⟨text, htext, hfrom⟩ := h
  exact ⟨text, htext, Took.later hfrom ms⟩

theorem Traced.start : Traced py cr floatStr attrs now [] (init now) where
  finding chatId text hb := by cases hb
  found userId chatId text hb := by rcases hb with hb | hb <;> cases hb
  looking o ho := by cases ho
  setting o channel rest ho := by cases ho
  mutes m hm := by cases hm
  recorded serverId channel := rfl

/- A command chosen by the dispatcher is in a message of the user. -/
theorem Traced.dispatched (h : Traced py cr floatStr attrs now ls s) {o : Order}
    (ho : dispatched py s.bot = some o) : Ordered py cr floatStr attrs now ls o := by
  unfold Mutes.dispatched at ho
  split at ho
  · next userId chatId text hb =>
    split at ho
    · have huser := (handleMute_spec ho).1
      exact ⟨text, huser.symm ▸ ho, huser.symm ▸ h.found userId chatId text (Or.inl hb)⟩
    · cases ho
  · next userId chatId text hb =>
    have huser := (handleMute_spec ho).1
    exact ⟨text, huser.symm ▸ ho, huser.symm ▸ h.found userId chatId text (Or.inr hb)⟩
  · cases ho

theorem Traced.other (hr : run (step py cr floatStr attrs) (init now) ls = some s)
    (h : Traced py cr floatStr attrs now ls s) {l : TelegramBot.Label} {bot : State}
    (hs : TelegramBot.step py cr floatStr attrs s.bot l = some bot) {muting : Option Muting}
    (hm : muting = s.muting ∨ muting = (Mutes.dispatched py s.bot).map .looking) :
    Traced py cr floatStr attrs now (ls ++ [.other l]) { s with bot, muting } := by
  have hheard := step_heard hs
  refine ⟨fun chatId text hb => ?_, fun userId chatId text hb => ?_, fun o ho => ?_,
    fun o channel rest ho => ?_, fun m hmem => ?_, h.recorded⟩
  · have hb' : bot.bot = .finding chatId text := hb
    cases hheard with
    | aside place =>
      rcases place with hsame | haside
      · exact Took.later (h.finding chatId text (hsame ▸ hb')) _
      · rw [hb'] at haside
        cases haside
    | heard chatId' text' place =>
      obtain ⟨rfl, rfl⟩ := Bot.finding.inj (place.symm.trans hb')
      exact Took.here hr rfl
    | found chatId' text' user place linked next => cases next.symm.trans hb'
    | left userId chatId' text' place next => cases next.symm.trans hb'
  · have hb' : bot.bot = .found userId chatId text ∨ bot.bot = .leaving userId chatId text := hb
    cases hheard with
    | aside place =>
      rcases place with hsame | haside
      · exact Took.later (h.found userId chatId text (hsame ▸ hb')) _
      · rcases hb' with hb' | hb' <;> rw [hb'] at haside <;> cases haside
    | heard chatId' text' place => rcases hb' with hb' | hb' <;> cases place.symm.trans hb'
    | found chatId' text' user place linked next =>
      rcases hb' with hb' | hb'
      · obtain ⟨rfl, rfl, rfl⟩ := Bot.found.inj (next.symm.trans hb')
        exact Took.here hr ⟨rfl, chatId', user, h.finding _ _ place, linked, rfl⟩
      · cases next.symm.trans hb'
    | left userId' chatId' text' place next =>
      rcases hb' with hb' | hb'
      · cases next.symm.trans hb'
      · obtain ⟨rfl, rfl, rfl⟩ := Bot.leaving.inj (next.symm.trans hb')
        exact Took.later (h.found _ _ _ (Or.inl place)) _
  · have ho' : muting = some (.looking o) := ho
    rcases hm with hsame | hdispatched
    · exact (h.looking o (hsame ▸ ho')).later _
    · obtain ⟨o', hd, heq⟩ := Option.map_eq_some_iff.mp (hdispatched.symm.trans ho')
      obtain rfl := Muting.looking.inj heq
      exact (h.dispatched hd).later _
  · have ho' : muting = some (.setting o channel rest) := ho
    rcases hm with hsame | hdispatched
    · obtain ⟨hallowed, hchannels⟩ := h.setting o channel rest (hsame ▸ ho')
      exact ⟨Took.later hallowed _, hchannels⟩
    · obtain ⟨o', -, heq⟩ := Option.map_eq_some_iff.mp (hdispatched.symm.trans ho')
      cases heq
  · obtain ⟨hchannel, hallowed⟩ := h.mutes m hmem
    exact ⟨hchannel, Took.later hallowed _⟩

/- The steps of `/mute` leave the bot at its place. -/
theorem Traced.muting (h : Traced py cr floatStr attrs now ls s) (l : Label)
    {muting : Option Muting} (hlook : ∀ o, muting ≠ some (.looking o))
    (hset : ∀ o channel rest, muting = some (.setting o channel rest) →
      Allowed py cr floatStr attrs now (ls ++ [l]) o ∧ ∀ ch ∈ channel :: rest, ch ∈ o.channels) :
    Traced py cr floatStr attrs now (ls ++ [l]) (s.goto muting) where
  finding chatId text hb := Took.later (h.finding chatId text hb) _
  found userId chatId text hb := Took.later (h.found userId chatId text hb) _
  looking o ho := absurd ho (hlook o)
  setting := hset
  mutes m hm := ⟨(h.mutes m hm).1, Took.later (h.mutes m hm).2 _⟩
  recorded := h.recorded

theorem Traced.setChannelMute (h : Traced py cr floatStr attrs now ls s) {o : Order}
    {channel : String} {rest : List String} (ho : s.muting = some (.setting o channel rest)) :
    Traced py cr floatStr attrs now ls (s.setChannelMute o channel) where
  finding := h.finding
  found := h.found
  looking := h.looking
  setting := h.setting
  mutes m hm := by
    obtain ⟨hallowed, hchannels⟩ := h.setting o channel rest ho
    rcases List.mem_cons.mp hm with rfl | hm
    · exact ⟨hchannels channel List.mem_cons_self, hallowed⟩
    · exact h.mutes m hm
  recorded := h.recorded.setChannelMute o channel

theorem nextSet_inv {o o' : Order} {channels rest : List String} {channel : String}
    (h : nextSet o channels = some (.setting o' channel rest)) :
    o' = o ∧ channels = channel :: rest := by
  cases channels with
  | nil => cases h
  | cons ch chs =>
    obtain ⟨rfl, rfl, rfl⟩ := Muting.setting.inj (Option.some.inj h)
    exact ⟨rfl, rfl⟩

theorem nextSet_look (o o' : Order) (channels : List String) :
    nextSet o channels ≠ some (.looking o') := by
  cases channels <;> simp [nextSet]

theorem Traced.step {l : Label} (hr : run (step py cr floatStr attrs) (init now) ls = some s)
    (h : Traced py cr floatStr attrs now ls s) (hs : step py cr floatStr attrs s l = some s') :
    Traced py cr floatStr attrs now (ls ++ [l]) s' := by
  cases l with
  | other l =>
    simp only [Mutes.step] at hs
    split at hs
    · cases hs
    · obtain ⟨bot, hbot, rfl⟩ := Option.map_eq_some_iff.mp hs
      refine h.other hr hbot ?_
      cases l with
      | bot => exact Or.inr rfl
      | _ => exact Or.inl rfl
  | look =>
    simp only [Mutes.step] at hs
    split at hs
    · next o ho =>
      split at hs
      · next hown =>
        obtain rfl := Option.some.inj hs
        refine h.muting _ (fun o' => nextSet_look o o' _) fun o' channel rest hnext => ?_
        obtain ⟨rfl, hchannels⟩ := nextSet_inv hnext
        refine ⟨Took.here hr ⟨rfl, h.looking o' ho, hown⟩, fun ch hch => ?_⟩
        rw [hchannels]
        exact hch
      · obtain rfl := Option.some.inj hs
        exact h.muting _ (by simp) (by simp)
    · cases hs
  | set =>
    simp only [Mutes.step] at hs
    split at hs
    · next o channel rest ho =>
      obtain rfl := Option.some.inj hs
      obtain ⟨hallowed, hchannels⟩ := h.setting o channel rest ho
      refine (h.setChannelMute ho).muting _ (fun o' => nextSet_look o o' _)
        fun o' channel' rest' hnext => ?_
      obtain ⟨rfl, rfl⟩ := nextSet_inv hnext
      exact ⟨Took.later hallowed _, fun ch hch => hchannels ch (List.mem_cons_of_mem _ hch)⟩
    · cases hs
  | failed applied =>
    simp only [Mutes.step] at hs
    split at hs
    · next o channel rest ho =>
      obtain rfl := Option.some.inj hs
      cases applied with
      | true => exact (h.setChannelMute ho).muting _ (by simp) (by simp)
      | false => exact h.muting _ (by simp) (by simp)
    · obtain rfl := Option.some.inj hs
      exact h.muting _ (by simp) (by simp)
    · cases hs

theorem traced_run (hr : run (Mutes.step py cr floatStr attrs) (init now) ls = some s) :
    Traced py cr floatStr attrs now ls s :=
  run_history (Traced py cr floatStr attrs now) Traced.start
    (fun _ _ _ _ hls h hs => h.step hls hs) hr

/-- A channel of a server is muted exactly as long as the last SET of its key says. Each
SET comes from a `/mute` of 1 to 1440 minutes that a chat has sent whose user, and no
other, was linked to it and owned the server. -/
theorem muted_by_the_owner (hr : run (Mutes.step py cr floatStr attrs) (init now) ls = some s)
    (serverId : ℕ) (channel : String) :
    (s.isChannelMuted serverId channel = true ↔
      ∃ m, s.lastMute serverId channel = some m ∧ s.now ≤ m.since + minutes m.order.minutes) ∧
    ∀ m, s.lastMute serverId channel = some m → m.order.serverId = serverId ∧
      m.channel = channel ∧ channel ∈ muteChannels ∧
      1 ≤ m.order.minutes ∧ m.order.minutes ≤ 1440 ∧
      Allowed py cr floatStr attrs now ls m.order := by
  have htraced := traced_run hr
  refine ⟨htraced.recorded.muted_iff serverId channel, fun m hm => ?_⟩
  have hkey := List.find?_some hm
  simp only [decide_eq_true_eq] at hkey
  obtain ⟨hchannel, hallowed⟩ := htraced.mutes m (List.mem_of_find?_eq_some hm)
  obtain ⟨p, t, l, -, -, -, ⟨text, htext, -⟩, -⟩ := hallowed
  obtain ⟨-, hmin, hmax, hchannels⟩ := handleMute_spec htext
  exact ⟨hkey.1, hkey.2, hkey.2 ▸ hchannels _ hchannel, hmin, hmax,
    (htraced.mutes m (List.mem_of_find?_eq_some hm)).2⟩

end

/- A linked owner mutes his server for half an hour; it is the last minute of it. -/
def halfHour : List Label :=
  [.other (.registerUser "alice@example.com" ""), .other (.linkCode 1 "a1"),
    .other (.message 5 "/start a1"), .other .bot, .other .bot,
    .other (.rest (.fleet (.register 0 1 "web" "pwk_agent" "$2b$12$KeyKeyKeyKeyKeyKeyKeyu"))),
    .other (.message 5 "/mute 1 30 telegram"), .other .bot, .other .bot, .look, .set,
    .other (.rest (.fleet (.tick 1740000000)))]

theorem halfHour_muted :
    ((run (step asciiStr tabledCrypto Threshold.tabledFloatStr Alerts.plainAttributes)
      (init 0) halfHour).map fun s => (s.isChannelMuted 1 "telegram",
        s.isChannelMuted 1 "email", (s.lastMute 1 "telegram").map Mute.order)) =
      some (true, false, some ⟨1, 1, 30, ["telegram"]⟩) := by
  decide

theorem muted_in_the_last_minute :
    ∃ s m, run (step asciiStr tabledCrypto Threshold.tabledFloatStr Alerts.plainAttributes)
        (init 0) halfHour = some s ∧ s.lastMute 1 "telegram" = some m ∧
      s.now ≤ m.since + minutes 30 ∧ s.isChannelMuted 1 "email" = false ∧
      Allowed asciiStr tabledCrypto Threshold.tabledFloatStr Alerts.plainAttributes 0 halfHour
        ⟨1, 1, 30, ["telegram"]⟩ := by
  obtain ⟨s, hr, hs⟩ := Option.map_eq_some_iff.mp halfHour_muted
  obtain ⟨hmuted, hs⟩ := Prod.mk.inj hs
  obtain ⟨hemail, hlast⟩ := Prod.mk.inj hs
  obtain ⟨m, hm, horder⟩ := Option.map_eq_some_iff.mp hlast
  have howner := muted_by_the_owner hr 1 "telegram"
  obtain ⟨m', hm', hle⟩ := howner.1.mp hmuted
  obtain rfl : m = m' := Option.some.inj (hm.symm.trans hm')
  obtain ⟨-, -, -, -, -, hallowed⟩ := howner.2 m hm
  rw [horder] at hle hallowed
  exact ⟨s, m, hr, hm, hle, hemail, hallowed⟩

/-! ### The notification tasks -/

section
open Effects NotificationTasks
variable {Body : Type} {pk : Packages Body} {w : World Body}

/- Redis answers the worker from the mute keys. -/
def Answers (s : Sys) (w : World Body) : Prop := ∀ serverId channel,
  w.redis (.mute serverId channel) = .ok (if s.isChannelMuted serverId channel then 1 else 0)

def channelOf : Call → String
  | .telegram _ => "telegram"
  | .smtp _ _ => "email"

/- What a call on the channel is. -/
def on (channel : String) (c : Call) : Bool := channelOf c = channel

/- The task is about this server, if its row is still there. -/
def About (serverId : ℕ) (w : World Body) : Job → Prop
  | .sendTelegramAlert eventId => ∀ row ∈ w.db.alertRow eventId, row.2.2.1.id = serverId
  | .sendEmailAlert eventId => ∀ row ∈ w.db.alertRow eventId, row.2.2.1.id = serverId
  | .sendHeartbeatDown id => id = serverId
  | .sendHeartbeatRecovery id => id = serverId

theorem on_telegram (c : Call) : on "telegram" c = c.isTelegram := by
  cases c <;> simp [on, channelOf, Call.isTelegram]

theorem on_email (c : Call) : on "email" c = c.isMail := by
  cases c <;> simp [on, channelOf, Call.isMail]

/- Behind the question for the mute the channel is not used while the answer is 1. -/
theorem muted_body {p : Call → Bool} {serverId : ℕ} {channel : String}
    (h : w.redis (.mute serverId channel) = .ok 1) (body : Program Body Unit) :
    seen p (isChannelMuted serverId channel >>= fun muted => if muted then pure () else body) w =
      [] := by
  unfold isChannelMuted seen
  rw [run_bind_ask w (v := true) (by rw [h]; rfl), if_pos rfl]
  rfl

theorem muted_send {eventId serverId : ℕ} (ha : About serverId w (.sendTelegramAlert eventId))
    (h : w.redis (.mute serverId "telegram") = .ok 1) :
    seen Call.isTelegram (send pk eventId) w = [] := by
  rw [send, seen_after_silent (Silent.ask _), run_ask]
  cases hrow : w.db.alertRow eventId with
  | none => rfl
  | some row =>
    obtain ⟨event, rule, server, user⟩ := row
    obtain rfl : server.id = serverId := ha _ hrow
    cases hchat : PyText.present user.telegramChatId with
    | none =>
      simp only [hchat]
      rfl
    | some chatId =>
      simp only [hchat]
      exact muted_body h _

theorem muted_sendEmailAlert {eventId serverId : ℕ}
    (ha : About serverId w (.sendEmailAlert eventId))
    (h : w.redis (.mute serverId "email") = .ok 1) :
    seen Call.isMail (sendEmailAlert pk eventId) w = [] := by
  rw [sendEmailAlert, seen_after_silent (Silent.ask _), run_ask]
  cases hrow : w.db.alertRow eventId with
  | none => rfl
  | some row =>
    obtain ⟨event, rule, server, user⟩ := row
    obtain rfl : server.id = serverId := ha _ hrow
    cases hon : user.emailAlertsEnabled with
    | false =>
      simp only [hon, if_true]
      rfl
    | true =>
      simp only [hon, Bool.true_eq_false, if_false]
      exact muted_body h _

theorem serverRow_id {db : NotificationTasks.Db} {serverId : ℕ} {server : Server} {user : User}
    (h : db.serverRow serverId = some (server, user)) : server.id = serverId := by
  unfold Db.serverRow at h
  obtain ⟨found, hfound, h⟩ := Option.bind_eq_some_iff.mp h
  obtain ⟨owner, -, h⟩ := Option.bind_eq_some_iff.mp h
  obtain ⟨rfl, -⟩ := Prod.mk.inj (Option.some.inj h)
  simpa using List.find?_some hfound

theorem muted_heartbeatTelegram {serverId : ℕ} (h : w.redis (.mute serverId "telegram") = .ok 1)
    (recovered : Bool) : seen Call.isTelegram (sendHeartbeat pk serverId recovered) w = [] := by
  rw [sendHeartbeat, seen_after_silent (Silent.ask _), run_ask]
  cases hrow : w.db.serverRow serverId with
  | none => rfl
  | some row =>
    obtain ⟨server, user⟩ := row
    obtain rfl := serverRow_id hrow
    simp only
    rw [seen_before_silent _ fun _ => heartbeatEmail_silent recovered server user]
    unfold heartbeatTelegram
    split
    · rfl
    · exact muted_body h _

theorem muted_heartbeatEmail {serverId : ℕ} (h : w.redis (.mute serverId "email") = .ok 1)
    (recovered : Bool) : seen Call.isMail (sendHeartbeat pk serverId recovered) w = [] := by
  rw [sendHeartbeat, seen_after_silent (Silent.ask _), run_ask]
  cases hrow : w.db.serverRow serverId with
  | none => rfl
  | some row =>
    obtain ⟨server, user⟩ := row
    obtain rfl := serverRow_id hrow
    simp only
    rw [seen_after_silent (heartbeatTelegram_silent recovered server user)]
    split
    · unfold heartbeatEmail
      split
      · rfl
      · exact muted_body h _
    · rfl

/- Every attempt of the task in its own world. -/
theorem seen_retried {p : Call → Bool} {a : Program Body Unit} (again : Exc → Bool) (n : ℕ)
    {ws : ℕ → World Body} (h : ∀ i, seen p a (ws i) = []) :
    (retried again a n ws).filter p = [] := by
  induction n generalizing ws with
  | zero => exact h 0
  | succ n ih =>
    have hfirst : (a.run (ws 0)).2.filter p = [] := h 0
    rw [retried, List.filter_append, hfirst, List.nil_append]
    split
    · rfl
    · split
      · exact ih fun i => h (i + 1)
      · rfl

theorem muted_job {job : Job} {serverId : ℕ} {channel : String} {ws : ℕ → World Body}
    (hchannel : channel ∈ muteChannels) (ha : ∀ i, About serverId (ws i) job)
    (h : ∀ i, (ws i).redis (.mute serverId channel) = .ok 1) :
    (job.perform pk ws).filter (on channel) = [] := by
  rcases List.mem_pair.mp hchannel with rfl | rfl
  · rw [funext on_telegram]
    cases job with
    | sendTelegramAlert eventId => exact seen_retried _ 5 fun i => muted_send (ha i) (h i)
    | sendEmailAlert eventId => exact (sendEmailAlert_silent eventId).retried _ 5 ws
    | sendHeartbeatDown id =>
      obtain rfl : id = serverId := ha 0
      exact seen_retried (fun _ => false) 0 fun i => muted_heartbeatTelegram (h i) false
    | sendHeartbeatRecovery id =>
      obtain rfl : id = serverId := ha 0
      exact seen_retried (fun _ => false) 0 fun i => muted_heartbeatTelegram (h i) true
  · rw [funext on_email]
    cases job with
    | sendTelegramAlert eventId => exact (send_silent eventId).retried _ 5 ws
    | sendEmailAlert eventId => exact seen_retried _ 5 fun i => muted_sendEmailAlert (ha i) (h i)
    | sendHeartbeatDown id =>
      obtain rfl : id = serverId := ha 0
      exact seen_retried (fun _ => false) 0 fun i => muted_heartbeatEmail (h i) false
    | sendHeartbeatRecovery id =>
      obtain rfl : id = serverId := ha 0
      exact seen_retried (fun _ => false) 0 fun i => muted_heartbeatEmail (h i) true

/-- A task whose attempts all fall into the time of the last `/mute` for its server and a
channel sends nothing over this channel, whatever has happened since. -/
theorem muted_server_is_left_alone {py : PyStr} {cr : Crypto} {floatStr : PyFloat → String}
    {attrs : Alerts.Attributes} {start : Instant} {ss : ℕ → Sys} {ws : ℕ → World Body}
    (hr : ∀ i, Reachable (step py cr floatStr attrs) (init start) (ss i))
    (hw : ∀ i, Answers (ss i) (ws i)) {job : Job} {serverId : ℕ}
    (ha : ∀ i, About serverId (ws i) job) {channel : String} (hc : channel ∈ muteChannels)
    (hm : ∀ i, ∃ m, (ss i).lastMute serverId channel = some m ∧
      (ss i).now ≤ m.since + minutes m.order.minutes) :
    (job.perform pk ws).filter (on channel) = [] := by
  refine muted_job hc ha fun i => ?_
  obtain ⟨ls, hrun⟩ := hr i
  rw [hw i, ((traced_run hrun).recorded.muted_iff serverId channel).mpr (hm i), if_pos rfl]

/- The worker of the run: the chat is linked, the Telegram API answers. -/
def answering (s : Sys) : World String :=
  { emptyAnswer (some "5") with
    redis := fun
      | .mute serverId channel => .ok (if s.isChannelMuted serverId channel then 1 else 0)
      | _ => .ok 0 }

theorem down_in_the_last_minute :
    ∃ s, run (step asciiStr tabledCrypto Threshold.tabledFloatStr Alerts.plainAttributes)
        (init 0) halfHour = some s ∧
      ((Job.sendHeartbeatDown 1).perform plainPackages fun _ => answering s).filter
        (on "telegram") = [] := by
  obtain ⟨s, hr, hs⟩ := Option.map_eq_some_iff.mp halfHour_muted
  have hm := ((traced_run hr).recorded.muted_iff 1 "telegram").mp (Prod.mk.inj hs).1
  have ha : ∀ _ : ℕ, About 1 (answering s) (.sendHeartbeatDown 1) := fun _ => rfl
  exact ⟨s, hr, muted_server_is_left_alone (fun _ => ⟨halfHour, hr⟩) (fun _ _ _ => rfl) ha
    (by decide) fun _ => hm⟩

end

end PulseWatch.Mutes
