import Mathlib.Data.List.Basic
import Mathlib.Logic.Function.Basic

/-!
# Publish and subscribe

A broker pushes a message to the connections that are subscribed to its channel at that
moment and keeps nothing. A connection reads what was pushed to it in order. When it is
lost, what it had not read is lost with it; the client may connect and subscribe anew.
-/

namespace PubSub

variable {χ M ι : Type*}

/- `since` counts the messages of the channel before the subscription, `taken` is what the
client has read, `whole` says that no connection was lost. -/
structure Subscription (χ M : Type*) where
  channel : χ
  since : ℕ
  taken : List M := []
  queue : List M := []
  whole : Bool := true
  active : Bool := true
  deriving DecidableEq, Repr

/- `history` is what was published, oldest first; nothing reads it. -/
structure Broker (χ M ι : Type*) where
  history : χ → List M
  subscription : ι → Option (Subscription χ M)

namespace Broker

def init : Broker χ M ι := ⟨fun _ => [], fun _ => none⟩

section
variable (b : Broker χ M ι)

/-- `PUBLISH`. -/
def publish [DecidableEq χ] (c : χ) (m : M) : Broker χ M ι where
  history := Function.update b.history c (b.history c ++ [m])
  subscription i := (b.subscription i).map fun sub =>
    if sub.channel = c ∧ sub.active = true then { sub with queue := sub.queue ++ [m] } else sub

variable [DecidableEq ι]

def set (i : ι) (sub : Subscription χ M) : Broker χ M ι :=
  { b with subscription := Function.update b.subscription i (some sub) }

/-- `SUBSCRIBE`. -/
def subscribe (i : ι) (c : χ) : Broker χ M ι :=
  b.set i { channel := c, since := (b.history c).length }

def modify (i : ι) (f : Subscription χ M → Subscription χ M) : Broker χ M ι :=
  match b.subscription i with
  | none => b
  | some sub => b.set i (f sub)

/- The client reads the next message. -/
def take (i : ι) : Option (M × Broker χ M ι) :=
  match b.subscription i with
  | none => none
  | some sub =>
    match sub.queue with
    | [] => none
    | m :: queue => some (m, b.set i { sub with taken := sub.taken ++ [m], queue })

/- The connection is lost; the client has connected and subscribed anew. -/
def reconnect (i : ι) : Broker χ M ι :=
  b.modify i fun sub => { sub with queue := [], whole := false }

/-- `UNSUBSCRIBE`, or the end of the connection. -/
def unsubscribe (i : ι) : Broker χ M ι :=
  b.modify i fun sub => { sub with queue := [], active := false }

end

/- What a client has read and may still read was published since it subscribed, in that
order and each message once; without a loss nothing was left out in between. -/
structure Follows (history : List M) (sub : Subscription χ M) : Prop where
  since : sub.since ≤ history.length
  order : (sub.taken ++ sub.queue).Sublist (history.drop sub.since)
  gapless : sub.whole = true → sub.taken ++ sub.queue <+: history.drop sub.since
  current : sub.whole = true → sub.active = true →
    sub.taken ++ sub.queue = history.drop sub.since

def Sound (b : Broker χ M ι) : Prop :=
  ∀ i sub, b.subscription i = some sub → Follows (b.history sub.channel) sub

theorem sound_init : Sound (init : Broker χ M ι) := fun _ _ h => by cases h

section
variable {b : Broker χ M ι} {history : List M} {sub : Subscription χ M}

theorem Follows.publish (h : Follows history sub) (ha : sub.active = true) (m : M) :
    Follows (history ++ [m]) { sub with queue := sub.queue ++ [m] } := by
  have hdrop : (history ++ [m]).drop sub.since = history.drop sub.since ++ [m] :=
    List.drop_append_of_le_length h.since
  refine ⟨?_, ?_, fun hw => ?_, fun hw _ => ?_⟩
  · rw [List.length_append]
    exact Nat.le_add_right_of_le h.since
  · rw [hdrop, ← List.append_assoc]
    exact h.order.append (List.Sublist.refl [m])
  · have hcurrent : sub.taken ++ (sub.queue ++ [m]) = history.drop sub.since ++ [m] := by
      rw [← List.append_assoc, h.current hw ha]
    exact hdrop ▸ hcurrent ▸ List.prefix_rfl
  · rw [hdrop, ← List.append_assoc, h.current hw ha]

/- A message of the channel that is not pushed to the client. -/
theorem Follows.miss (h : Follows history sub) (ha : sub.active = false) (m : M) :
    Follows (history ++ [m]) sub := by
  have hdrop : (history ++ [m]).drop sub.since = history.drop sub.since ++ [m] :=
    List.drop_append_of_le_length h.since
  refine ⟨?_, ?_, fun hw => ?_, fun _ hactive => ?_⟩
  · rw [List.length_append]
    exact Nat.le_add_right_of_le h.since
  · rw [hdrop]
    exact h.order.trans (List.sublist_append_left _ _)
  · rw [hdrop]
    exact (h.gapless hw).trans (List.prefix_append _ _)
  · rw [ha] at hactive
    cases hactive

theorem Follows.drop (h : Follows history sub) (whole active : Bool)
    (hwhole : whole = true → sub.whole = true) (hnot : whole = true → active = false) :
    Follows history { sub with queue := [], whole, active } := by
  refine ⟨h.since, ?_, fun hw => ?_, fun hw ha => ?_⟩
  · rw [List.append_nil]
    exact (List.sublist_append_left _ _).trans h.order
  · rw [List.append_nil]
    exact (List.prefix_append _ _).trans (h.gapless (hwhole hw))
  · have hw' : whole = true := hw
    have ha' : active = true := ha
    rw [hnot hw'] at ha'
    cases ha'

section
variable [DecidableEq ι]

theorem subscription_set (i j : ι) (sub : Subscription χ M) :
    (b.set i sub).subscription j = if j = i then some sub else b.subscription j := by
  by_cases h : j = i
  · subst h
    simp [set]
  · simp [set, h]

@[simp] theorem history_set (i : ι) (sub : Subscription χ M) :
    (b.set i sub).history = b.history := rfl

theorem subscription_modify (i j : ι) (f : Subscription χ M → Subscription χ M) :
    (b.modify i f).subscription j =
      if j = i then (b.subscription i).map f else b.subscription j := by
  cases hi : b.subscription i with
  | none =>
    simp only [modify, hi, Option.map_none]
    split
    · next hj => rw [hj, hi]
    · rfl
  | some sub =>
    simp only [modify, hi, Option.map_some]
    rw [subscription_set]

@[simp] theorem history_modify (i : ι) (f : Subscription χ M → Subscription χ M) :
    (b.modify i f).history = b.history := by
  unfold modify
  split <;> rfl

theorem take_spec {i : ι} {m : M} {b' : Broker χ M ι} (h : b.take i = some (m, b')) :
    ∃ sub queue, b.subscription i = some sub ∧ sub.queue = m :: queue ∧
      b' = b.set i { sub with taken := sub.taken ++ [m], queue } := by
  unfold Broker.take at h
  split at h
  · cases h
  · next sub hsub =>
    split at h
    · cases h
    · next queue hqueue =>
      cases h
      exact ⟨sub, queue, hsub, hqueue, rfl⟩

theorem Sound.set (h : b.Sound) {i : ι} {sub : Subscription χ M}
    (hsub : Follows (b.history sub.channel) sub) : (b.set i sub).Sound := by
  intro j other hj
  rw [subscription_set] at hj
  split at hj
  · obtain rfl := Option.some.inj hj
    exact hsub
  · exact h j other hj

omit [DecidableEq ι] in
theorem Sound.publish [DecidableEq χ] (h : b.Sound) (c : χ) (m : M) : (b.publish c m).Sound := by
  intro i sub hi
  obtain ⟨before, hbefore, rfl⟩ := Option.map_eq_some_iff.mp hi
  have hfollows := h i before hbefore
  simp only [Broker.publish]
  by_cases hc : before.channel = c
  · subst hc
    by_cases ha : before.active = true
    · rw [if_pos ⟨rfl, ha⟩]
      simp only [Function.update_self]
      exact hfollows.publish ha m
    · rw [if_neg fun hboth => ha hboth.2]
      rw [Function.update_self]
      exact hfollows.miss (by simpa using ha) m
  · rw [if_neg fun hboth => hc hboth.1, Function.update_of_ne hc]
    exact hfollows

theorem Sound.subscribe (h : b.Sound) (i : ι) (c : χ) : (b.subscribe i c).Sound :=
  h.set ⟨Nat.le_refl _, by simp, by simp, by simp⟩

theorem Sound.take (h : b.Sound) {i : ι} {m : M} {b' : Broker χ M ι}
    (ht : b.take i = some (m, b')) : b'.Sound := by
  obtain ⟨sub, queue, hsub, hqueue, rfl⟩ := take_spec ht
  have hfollows := h i sub hsub
  have hsame : sub.taken ++ sub.queue = sub.taken ++ [m] ++ queue := by
    rw [hqueue, List.append_assoc]
    rfl
  refine h.set ⟨hfollows.since, ?_, fun hw => ?_, fun hw ha => ?_⟩
  · exact hsame ▸ hfollows.order
  · exact hsame ▸ hfollows.gapless hw
  · exact hsame ▸ hfollows.current hw ha

theorem Sound.reconnect (h : b.Sound) (i : ι) : (b.reconnect i).Sound := by
  unfold Broker.reconnect modify
  split
  · exact h
  · next sub hsub => exact h.set ((h i sub hsub).drop false sub.active nofun nofun)

theorem Sound.unsubscribe (h : b.Sound) (i : ι) : (b.unsubscribe i).Sound := by
  unfold Broker.unsubscribe modify
  split
  · exact h
  · next sub hsub => exact h.set ((h i sub hsub).drop sub.whole false id fun _ => rfl)

end

end

end Broker

end PubSub
