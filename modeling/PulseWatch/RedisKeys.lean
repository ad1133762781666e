import Mathlib
import PulseWatch.Lib.Glob
import PulseWatch.Lib.PyInt
import PulseWatch.RedisClient

/-!
# The texts of the Redis keys (`app/redis_client.py`)

Eight functions write into one database. A key is the name of its family and what the
caller put behind a colon; names have no colon and differ, and so do the integers in
front of a second one.
-/

namespace PulseWatch.RedisClient
open ExpiringStore Glob

/- `f"dashboard:{user_id}"` of `cache_dashboard` and `get_cached_dashboard`. -/
def dashboardKey (userId : ℤ) : String := "dashboard:" ++ toString userId

def tgLinkKey (code : String) : String := "tg:linkcode:" ++ code

def muteKey (serverId : ℤ) (channel : String) : String :=
  "mute:" ++ toString serverId ++ ":" ++ channel

def pendingDeleteKey (chatId : ℤ) : String := "pending_delete:" ++ toString chatId

def refreshKey (userId : ℤ) (jti : String) : String :=
  "refresh:" ++ toString userId ++ ":" ++ jti

def refreshUsedKey (userId : ℤ) (jti : String) : String :=
  "refresh_used:" ++ toString userId ++ ":" ++ jti

def ruleDraftKey (chatId : ℤ) : String := "rule_draft:" ++ toString chatId

def passwordResetKey (token : String) : String := "pwd_reset:" ++ token

/- The pattern of `revoke_all_refresh_for_user`. -/
def refreshGlob (userId : ℤ) : String := "refresh:" ++ toString userId ++ ":" ++ "*"

/- A call of one of the eight with its arguments. -/
inductive KeyCall where
  | dashboard (userId : ℤ)
  | tgLink (code : String)
  | mute (serverId : ℤ) (channel : String)
  | pendingDelete (chatId : ℤ)
  | refresh (userId : ℤ) (jti : String)
  | refreshUsed (userId : ℤ) (jti : String)
  | ruleDraft (chatId : ℤ)
  | passwordReset (token : String)
  deriving DecidableEq, Repr

def KeyCall.key : KeyCall → String
  | .dashboard userId => dashboardKey userId
  | .tgLink code => tgLinkKey code
  | .mute serverId channel => muteKey serverId channel
  | .pendingDelete chatId => pendingDeleteKey chatId
  | .refresh userId jti => refreshKey userId jti
  | .refreshUsed userId jti => refreshUsedKey userId jti
  | .ruleDraft chatId => ruleDraftKey chatId
  | .passwordReset token => passwordResetKey token

/-! ### Fields before a colon -/

/- `str(n)` has a minus and digits only. -/
theorem notMem_toString {c : Char} (hminus : c ≠ '-') (hdigit : c.isDigit = false) (n : ℤ) :
    c ∉ (toString n).toList := by
  obtain ⟨negative, ds, hs, -, hds, -⟩ := (PyInt.canonical_iff _).mp ⟨n, rfl⟩
  rw [hs, List.mem_append]
  rintro (hc | hc)
  · cases negative with
    | false => exact absurd hc List.not_mem_nil
    | true => exact hminus (List.mem_singleton.mp hc)
  · rw [hds c hc] at hdigit
    cases hdigit

theorem colon_notMem_toString (n : ℤ) : ':' ∉ (toString n).toList :=
  notMem_toString (by decide) (by decide) n

theorem toString_injective : Function.Injective (toString : ℤ → String) := by
  intro m n h
  rw [Int.toString_eq_repr, Int.toString_eq_repr] at h
  exact Int.repr_injective h

/- The first colon ends the field in front of it. -/
theorem takeWhile_field {a : String} (ha : ':' ∉ a.toList) (x : List Char) :
    (a.toList ++ ':' :: x).takeWhile (· ≠ ':') = a.toList := by
  rw [List.takeWhile_append_of_pos, List.takeWhile_cons_of_neg, List.append_nil]
  · simp
  · intro c hc
    rw [decide_eq_true_eq]
    rintro rfl
    exact ha hc

theorem field_inj {a b x y : String} (ha : ':' ∉ a.toList) (hb : ':' ∉ b.toList)
    (h : a ++ ":" ++ x = b ++ ":" ++ y) : a = b ∧ x = y := by
  have hlist : a.toList ++ ':' :: x.toList = b.toList ++ ':' :: y.toList := by
    have htexts := congrArg String.toList h
    rw [String.toList_append, String.toList_append, String.toList_append, String.toList_append,
      List.append_assoc, List.append_assoc] at htexts
    exact htexts
  have hfront : a = b := by
    rw [← String.toList_inj, ← takeWhile_field ha x.toList, hlist, takeWhile_field hb]
  subst hfront
  have htail := List.append_cancel_left hlist
  exact ⟨rfl, String.toList_inj.mp (List.cons.inj htail).2⟩

theorem id_inj {m n : ℤ} {x y : String}
    (h : toString m ++ ":" ++ x = toString n ++ ":" ++ y) : m = n ∧ x = y := by
  obtain ⟨hid, hrest⟩ := field_inj (colon_notMem_toString m) (colon_notMem_toString n) h
  exact ⟨toString_injective hid, hrest⟩

/-! ### Families -/

namespace KeyCall

/- The name of a family and what stands behind its colon. -/
def family : KeyCall → String
  | .dashboard _ => "dashboard"
  | .tgLink _ => "tg"
  | .mute _ _ => "mute"
  | .pendingDelete _ => "pending_delete"
  | .refresh _ _ => "refresh"
  | .refreshUsed _ _ => "refresh_used"
  | .ruleDraft _ => "rule_draft"
  | .passwordReset _ => "pwd_reset"

def body : KeyCall → String
  | .dashboard userId => toString userId
  | .tgLink code => "linkcode" ++ ":" ++ code
  | .mute serverId channel => toString serverId ++ ":" ++ channel
  | .pendingDelete chatId => toString chatId
  | .refresh userId jti => toString userId ++ ":" ++ jti
  | .refreshUsed userId jti => toString userId ++ ":" ++ jti
  | .ruleDraft chatId => toString chatId
  | .passwordReset token => token

theorem key_eq (k : KeyCall) : k.key = k.family ++ ":" ++ k.body := by
  have hassoc : ∀ a b c d : String, a ++ b ++ c ++ d = a ++ (b ++ c ++ d) := by
    intro a b c d
    rw [String.append_assoc, String.append_assoc, String.append_assoc]
  cases k with
  | dashboard userId => rfl
  | tgLink code => exact (hassoc "tg:" "linkcode" ":" code).symm ▸ rfl
  | mute serverId channel => exact hassoc "mute:" _ ":" channel
  | pendingDelete chatId => rfl
  | refresh userId jti => exact hassoc "refresh:" _ ":" jti
  | refreshUsed userId jti => exact hassoc "refresh_used:" _ ":" jti
  | ruleDraft chatId => rfl
  | passwordReset token => rfl

theorem colon_notMem_family (k : KeyCall) : ':' ∉ k.family.toList := by
  cases k <;> simp [family]

theorem key_injective : Function.Injective key := by
  intro k l h
  rw [key_eq, key_eq] at h
  obtain ⟨hfamily, hbody⟩ := field_inj (colon_notMem_family k) (colon_notMem_family l) h
  -- Calls of two families have two names.
  cases k <;> cases l <;> simp only [family, String.reduceEq] at hfamily
  case dashboard.dashboard => rw [toString_injective hbody]
  case tgLink.tgLink => rw [(String.append_right_inj _).mp hbody]
  case mute.mute =>
    obtain ⟨rfl, rfl⟩ := id_inj hbody
    rfl
  case pendingDelete.pendingDelete => rw [toString_injective hbody]
  case refresh.refresh =>
    obtain ⟨rfl, rfl⟩ := id_inj hbody
    rfl
  case refreshUsed.refreshUsed =>
    obtain ⟨rfl, rfl⟩ := id_inj hbody
    rfl
  case ruleDraft.ruleDraft => rw [toString_injective hbody]
  case passwordReset.passwordReset => exact congrArg passwordReset hbody

end KeyCall

/-! ### The glob -/

/- The glob of a user: the texts that begin like a key of that user. -/
theorem refreshGlob_iff (userId : ℤ) (text : String) :
    glob (refreshGlob userId) text = true ↔ ∃ jti, text = refreshKey userId jti := by
  have hspecial : ∀ c ∈ specials, c ≠ '-' ∧ c.isDigit = false := by simp [specials]
  have hname : ∀ c ∈ "refresh:".toList, c ∉ specials := by simp [specials]
  have hcolon : ∀ c ∈ ":".toList, c ∉ specials := by simp [specials]
  have hliteral : ∀ c ∈ ("refresh:" ++ toString userId ++ ":").toList, c ∉ specials := by
    intro c hc hs
    simp only [String.toList_append, List.mem_append] at hc
    obtain ⟨hminus, hdigit⟩ := hspecial c hs
    rcases hc with (hc | hc) | hc
    · exact hname c hc hs
    · exact notMem_toString hminus hdigit userId hc
    · exact hcolon c hc hs
  exact glob_star hliteral text

/- Of the keys it matches those the key function of that user makes. -/
theorem refreshGlob_key (userId : ℤ) (k : KeyCall) :
    glob (refreshGlob userId) k.key = true ↔ ∃ jti, k = .refresh userId jti := by
  rw [refreshGlob_iff]
  constructor
  · rintro ⟨jti, hkey⟩
    exact ⟨jti, KeyCall.key_injective (hkey.trans rfl)⟩
  · rintro ⟨jti, rfl⟩
    exact ⟨jti, rfl⟩

/- Two calls with one key are one call, and the glob of a user takes the refresh keys of
that user and nothing else. -/
theorem keys_never_collide :
    (∀ k l : KeyCall, k.key = l.key → k = l) ∧
    (∀ userId text, glob (refreshGlob userId) text = true ↔
      ∃ jti, text = refreshKey userId jti) ∧
    ∀ userId (k : KeyCall), glob (refreshGlob userId) k.key = true ↔
      ∃ jti, k = .refresh userId jti :=
  ⟨fun _ _ h => KeyCall.key_injective h, refreshGlob_iff, refreshGlob_key⟩

example : glob (refreshGlob 1) (refreshKey 1 "a") = true ∧
    glob (refreshGlob 1) (refreshKey 12 "a") = false ∧
    glob (refreshGlob 1) (refreshUsedKey 1 "a") = false := by decide

/-! ### The database under its texts -/

/- What the commands of `RedisClient` take as keys, as calls. -/
def RedisKey.call : RedisKey → KeyCall
  | .dashboard userId => .dashboard userId
  | .tgLink code => .tgLink code
  | .mute serverId channel => .mute serverId channel
  | .pendingDelete chatId => .pendingDelete chatId
  | .refresh userId jti => .refresh userId jti
  | .refreshUsed userId jti => .refreshUsed userId jti
  | .ruleDraft chatId => .ruleDraft chatId
  | .passwordReset token => .passwordReset token

def RedisKey.text (k : RedisKey) : String := k.call.key

theorem RedisKey.text_injective : Function.Injective RedisKey.text := by
  intro k l h
  have hcall := KeyCall.key_injective h
  cases k <;> cases l <;> simp_all [RedisKey.call]

/- Redis as it is: the keys are texts. -/
def texts (r : Redis) : Store String RedisValue ℕ := rename RedisKey.text r

theorem texts_set (k : RedisKey) (v : RedisValue) (d : ℕ) (r : Redis) :
    texts (set k v d r) = set k.text v d (texts r) := rename_set RedisKey.text_injective k v d r

theorem texts_del (k : RedisKey) (r : Redis) : texts (del k r) = del k.text (texts r) :=
  rename_del RedisKey.text_injective k r

theorem texts_get? (now : ℕ) (k : RedisKey) (r : Redis) :
    get? now k.text (texts r) = get? now k r := get?_rename RedisKey.text_injective now k r

theorem matchesRefresh_eq (userId : ℕ) (k : RedisKey) :
    glob (refreshGlob userId) k.text = matchesRefresh userId k := by
  rw [Bool.eq_iff_iff, RedisKey.text, refreshGlob_key]
  cases k <;> simp [RedisKey.call, matchesRefresh, eq_comm]

/- The scan over the texts returns the texts of the scan over the keys. -/
theorem texts_scan (now userId : ℕ) (r : Redis) :
    (liveKeys now (texts r)).filter (glob (refreshGlob userId)) =
      (scanRefresh now userId r).map RedisKey.text := by
  have hmatch : glob (refreshGlob userId) ∘ RedisKey.text = matchesRefresh userId := by
    funext k
    rw [Function.comp_apply, matchesRefresh_eq]
  rw [texts, liveKeys_rename RedisKey.text_injective, List.filter_map, hmatch, scanRefresh]

end PulseWatch.RedisClient
