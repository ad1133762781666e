import Mathlib.Data.List.TakeWhile
import PulseWatch.ChatLinks

/-!
# Chat ids as texts (`app/schemas/user.py`, `app/telegram_bot.py`)

`telegram_chat_id` is a text. The bot finds a chat by `str(chat_id)` and its `/start`
stores just that; the validator of the PATCH lets through whatever is digits after some
dashes.
-/

namespace PulseWatch.TelegramBot
open PyInt (Canonical minus isDigit)

/- The validator accepts the texts of integers and no others, and a chat linked with an
accepted text is found by the bot. -/
structure LinksIntegers (py : PyStr) (v : String) : Prop where
  accepts : (validateChatId py (some v)).isSome = true ↔ Canonical (PyText.strip v)
  found : ∀ chatId, validateChatId py (some v) = some (some chatId) → ∃ n : ℤ,
    ∀ (users : List User) (user : User), (users.map User.id).Nodup → user ∈ users →
      PgText.varchar 64 chatId = some chatId →
      (∀ u ∈ users, u.id ≠ user.id → u.telegramChatId ≠ some chatId) →
      ∃ u, findUserByChatId n (saveChatId user (some chatId) users) = .one u ∧ u.id = user.id

/- Where the text is dashes and digits, there is one dash at most, the digits are those of
ASCII, and they start with no zero, `0` itself apart. -/
def PlainId (text : String) : Prop :=
  ∀ k ds, text.toList = List.replicate k '-' ++ ds → ds ≠ [] →
    (∀ c ∈ ds, isDigit c = true) → k ≤ 1 ∧ (∀ c ∈ ds, c.isDigit = true) ∧
      (ds.head? = some '0' → ds = ['0'] ∧ k = 0)

/-! ### What the validator accepts -/

/- Some dashes, then digits. -/
def Dashed (text : String) : Prop :=
  ∃ k ds, text.toList = List.replicate k '-' ++ ds ∧ ds ≠ [] ∧ ∀ c ∈ ds, isDigit c = true

theorem dash_not_digit : isDigit '-' = false := by decide

theorem dropWhile_dashes (k : ℕ) {ds : List Char} (h : ∀ c ∈ ds.head?, isDigit c = true) :
    (List.replicate k '-' ++ ds).dropWhile (· = '-') = ds := by
  induction k with
  | zero =>
    cases ds with
    | nil => rfl
    | cons c ds =>
      refine List.dropWhile_cons_of_neg ?_
      simp only [decide_eq_true_eq]
      rintro rfl
      have hc := h '-' rfl
      rw [dash_not_digit] at hc
      cases hc
  | succ k ih =>
    rw [List.replicate_succ, List.cons_append, List.dropWhile_cons_of_pos (by simp)]
    exact ih

theorem takeWhile_dashes (cs : List Char) :
    cs.takeWhile (· = '-') = List.replicate (cs.takeWhile (· = '-')).length '-' := by
  refine List.eq_replicate_iff.mpr ⟨rfl, fun c hc => ?_⟩
  simpa using List.mem_takeWhile_imp hc

theorem dashed_iff (text : String) :
    Dashed text ↔ text ≠ "" ∧ PyInt.isdigit (PyText.lstrip '-' text) = true ∧ text ≠ "-" := by
  have hdigits : PyInt.isdigit (PyText.lstrip '-' text) = true ↔
      text.toList.dropWhile (· = '-') ≠ [] ∧
        ∀ c ∈ text.toList.dropWhile (· = '-'), isDigit c = true := by
    rw [PyInt.isdigit, Bool.and_eq_true, decide_eq_true_eq, List.all_eq_true, PyText.lstrip,
      String.toList_ofList, Ne, ← String.toList_inj, String.toList_ofList]
    rfl
  rw [hdigits]
  constructor
  · rintro ⟨k, ds, htext, hne, hdigit⟩
    have hdrop : text.toList.dropWhile (· = '-') = ds := by
      rw [htext]
      exact dropWhile_dashes k fun c hc => hdigit c (List.mem_of_mem_head? hc)
    rw [hdrop]
    refine ⟨?_, ⟨hne, hdigit⟩, ?_⟩
    · rintro rfl
      rw [String.toList_empty] at hdrop
      exact hne hdrop.symm
    · rintro rfl
      exact hne hdrop.symm
  · rintro ⟨-, ⟨hne, hdigit⟩, -⟩
    refine ⟨(text.toList.takeWhile (· = '-')).length, _, ?_, hne, hdigit⟩
    rw [← takeWhile_dashes, List.takeWhile_append_dropWhile]

theorem validateChatId_accepts {py : PyStr} {v : String} (h : PyText.strip v ≠ "" ∧
    py.isdigit (PyText.lstrip '-' (PyText.strip v)) = true ∧ PyText.strip v ≠ "-") :
    validateChatId py (some v) = some (some (PyText.strip v)) := if_pos h

theorem validateChatId_refuses {py : PyStr} {v : String} (h : ¬ (PyText.strip v ≠ "" ∧
    py.isdigit (PyText.lstrip '-' (PyText.strip v)) = true ∧ PyText.strip v ≠ "-")) :
    validateChatId py (some v) = none := if_neg h

section
variable {lower : String → String} {float : String → Option PyFloat} {v : String}

theorem unicodeStr_isdigit : (unicodeStr lower float).isdigit = PyInt.isdigit := rfl

theorem validateChatId_dashed (h : Dashed (PyText.strip v)) :
    validateChatId (unicodeStr lower float) (some v) = some (some (PyText.strip v)) := by
  refine validateChatId_accepts ?_
  rw [unicodeStr_isdigit]
  exact (dashed_iff (PyText.strip v)).mp h

theorem validateChatId_other (h : ¬ Dashed (PyText.strip v)) :
    validateChatId (unicodeStr lower float) (some v) = none := by
  refine validateChatId_refuses fun hd => h ?_
  rw [unicodeStr_isdigit] at hd
  exact (dashed_iff (PyText.strip v)).mpr hd

theorem validateChatId_isSome :
    (validateChatId (unicodeStr lower float) (some v)).isSome = true ↔
      Dashed (PyText.strip v) := by
  by_cases h : Dashed (PyText.strip v)
  · rw [validateChatId_dashed h]
    exact ⟨fun _ => h, fun _ => rfl⟩
  · rw [validateChatId_other h]
    exact ⟨fun hs => (by cases hs), fun hd => absurd hd h⟩

theorem validateChatId_some {chatId : String}
    (h : validateChatId (unicodeStr lower float) (some v) = some (some chatId)) :
    chatId = PyText.strip v ∧ Dashed (PyText.strip v) := by
  have hdashed : Dashed (PyText.strip v) := by
    rw [← @validateChatId_isSome lower float, h]
    rfl
  rw [validateChatId_dashed hdashed] at h
  exact ⟨(Option.some.inj (Option.some.inj h)).symm, hdashed⟩

end

theorem minus_eq (negative : Bool) : minus negative = List.replicate negative.toNat '-' := by
  cases negative <;> rfl

theorem dashed_of_canonical {text : String} (h : Canonical text) : Dashed text := by
  obtain ⟨negative, ds, htext, hne, hdigit, -⟩ := (PyInt.canonical_iff text).mp h
  rw [minus_eq] at htext
  exact ⟨negative.toNat, ds, htext, hne, fun c hc => PyInt.isDigit_ascii (hdigit c hc)⟩

/- Dashes and digits are read off in one way. -/
theorem dashed_unique {k k' : ℕ} {ds ds' : List Char} (hds : ∀ c ∈ ds, isDigit c = true)
    (hds' : ∀ c ∈ ds', isDigit c = true)
    (h : List.replicate k '-' ++ ds = List.replicate k' '-' ++ ds') : k = k' ∧ ds = ds' := by
  have hdrop := congrArg (List.dropWhile (· = '-')) h
  rw [dropWhile_dashes k fun c hc => hds c (List.mem_of_mem_head? hc),
    dropWhile_dashes k' fun c hc => hds' c (List.mem_of_mem_head? hc)] at hdrop
  subst hdrop
  have hlen := congrArg List.length h
  simp only [List.length_append, List.length_replicate] at hlen
  exact ⟨by omega, rfl⟩

/- Of dashes and digits the plain ones are the integers. -/
theorem canonical_iff_plain {text : String} (h : Dashed text) : Canonical text ↔ PlainId text := by
  obtain ⟨k, ds, htext, hne, hdigit⟩ := h
  constructor
  · intro hc k' ds' htext' hne' hdigit'
    obtain ⟨negative, es, hes, hne'', hes', hlead⟩ := (PyInt.canonical_iff text).mp hc
    rw [minus_eq, htext'] at hes
    obtain ⟨rfl, rfl⟩ := dashed_unique hdigit' (fun c hc => PyInt.isDigit_ascii (hes' c hc)) hes
    refine ⟨Bool.toNat_le negative, hes', fun h0 => ?_⟩
    obtain ⟨hzero, rfl⟩ := hlead h0
    exact ⟨hzero, rfl⟩
  · intro hp
    obtain ⟨hk, hascii, hlead⟩ := hp k ds htext hne hdigit
    refine (PyInt.canonical_iff text).mpr ⟨decide (k = 1), ds, ?_, hne, hascii, fun h0 => ?_⟩
    · rw [htext, minus_eq]
      have hone : (decide (k = 1)).toNat = k := by
        rcases Nat.le_one_iff_eq_zero_or_eq_one.mp hk with rfl | rfl
        · rfl
        · rfl
      rw [hone]
    · obtain ⟨hzero, rfl⟩ := hlead h0
      exact ⟨hzero, rfl⟩

/-! ### What the bot finds -/

/- The row written is the one row with its chat id. -/
theorem findUserByChatId_saved {users : List User} {user : User} {n : ℤ}
    (hids : (users.map User.id).Nodup) (hmem : user ∈ users)
    (hfits : PgText.varchar 64 (toString n) = some (toString n))
    (hothers : ∀ u ∈ users, u.id ≠ user.id → u.telegramChatId ≠ some (toString n)) :
    ∃ u, findUserByChatId n (saveChatId user (some (toString n)) users) = .one u ∧
      u.id = user.id := by
  have hset : (saveChatId user (some (toString n)) users).map User.id = users.map User.id ∧
      (∃ u ∈ saveChatId user (some (toString n)) users, u.id = user.id ∧
        u.telegramChatId = some (toString n)) ∧
      ∀ u ∈ saveChatId user (some (toString n)) users,
        u.telegramChatId = some (toString n) → u.id = user.id := by
    unfold saveChatId
    split
    · next hsame =>
      refine ⟨rfl, ⟨user, hmem, rfl, hsame.symm⟩, fun u hu hc => ?_⟩
      by_contra hid
      exact hothers u hu hid hc
    · rw [PgText.varchar?, hfits]
      refine ⟨setChatId_ids _ _ _, setChatId_self _ ⟨user, hmem, rfl⟩, fun u hu hc => ?_⟩
      rcases mem_setChatId hu with ⟨hid, -⟩ | ⟨hid, hu⟩
      · exact hid
      · exact absurd hc (hothers u hu hid)
  obtain ⟨hsame, ⟨u, hu, hid, hc⟩, honly⟩ := hset
  rw [← hsame] at hids
  refine ⟨u, ?_, hid⟩
  have hone : (saveChatId user (some (toString n)) users).filter
      (fun u => u.telegramChatId = some (toString n)) = [u] := by
    refine eq_singleton ((List.Nodup.of_map _ hids).filter _)
      (List.mem_filter.mpr ⟨hu, decide_eq_true hc⟩) fun w hw => ?_
    obtain ⟨hw, hwc⟩ := List.mem_filter.mp hw
    exact List.inj_on_of_nodup_map hids hw hu
      ((honly w hw (of_decide_eq_true hwc)).trans hid.symm)
  rw [findUserByChatId, hone]

/- The validator and the lookup agree on the plain texts and on no others. -/
theorem links_integers_iff_plain (lower : String → String) (float : String → Option PyFloat)
    (v : String) : LinksIntegers (unicodeStr lower float) v ↔ PlainId (PyText.strip v) := by
  constructor
  · intro h k ds htext hne hdigit
    have hdashed : Dashed (PyText.strip v) := ⟨k, ds, htext, hne, hdigit⟩
    have hcanonical := h.accepts.mp (validateChatId_isSome.mpr hdashed)
    exact (canonical_iff_plain hdashed).mp hcanonical k ds htext hne hdigit
  · intro h
    refine ⟨?_, ?_⟩
    · rw [validateChatId_isSome]
      exact ⟨fun hd => (canonical_iff_plain hd).mpr h, dashed_of_canonical⟩
    · intro chatId hchat
      obtain ⟨rfl, hdashed⟩ := validateChatId_some hchat
      obtain ⟨n, hn⟩ := (canonical_iff_plain hdashed).mpr h
      rw [hn]
      exact ⟨n, fun users user => findUserByChatId_saved⟩

/- Two dashes before the digit. -/
theorem two_dashes_accepted : ¬ LinksIntegers (unicodeStr PyText.lower fun _ => none) "--5" := by
  intro h
  have hdigit : ∀ c ∈ ['5'], isDigit c = true := List.forall_mem_singleton.mpr (by decide)
  have hdashed : Dashed "--5" := ⟨2, ['5'], rfl, by decide, hdigit⟩
  have haccepted := h.accepts.mp (by decide)
  have hplain := (canonical_iff_plain hdashed).mp haccepted
  exact absurd (hplain 2 ['5'] rfl (by decide) hdigit).1 (by decide)

end PulseWatch.TelegramBot
