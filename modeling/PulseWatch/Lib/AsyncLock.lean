import Mathlib.Data.List.Count
import Mathlib.Logic.Function.Basic

/-!
# A cooperative lock with a queue (`asyncio.Lock`)

Parties of a type `K` stand outside a critical section, wait in the queue for it,
or are inside. The lock is taken at once when it is free and nobody waits; a
released lock goes to the head of the queue; a waiting party may give up. The
flag, the queue and the parties' places agree in every reachable state, so at
most one party is inside.
-/

namespace AsyncLock

inductive Place where
  | outside
  | waiting
  | inside
  deriving DecidableEq, Repr

structure Lock (K : Type*) where
  locked : Bool
  waiters : List K
  place : K → Place

variable {K : Type*} [DecidableEq K]

/- What the parties can do with the lock; `giveUp` also covers a party that is
woken and leaves within the same turn. -/
inductive Move : Lock K → Lock K → Prop where
  | stay (l : Lock K) : Move l l
  | enter {l : Lock K} (k : K) (free : l.locked = false) (out : l.place k = .outside) :
      Move l ⟨true, l.waiters, Function.update l.place k .inside⟩
  | wait {l : Lock K} (k : K) (out : l.place k = .outside) :
      Move l ⟨l.locked, l.waiters ++ [k], Function.update l.place k .waiting⟩
  | wake {l : Lock K} (k : K) (ws : List K) (head : l.waiters = k :: ws)
      (free : l.locked = false) : Move l ⟨true, ws, Function.update l.place k .inside⟩
  | leave {l : Lock K} (k : K) (here : l.place k = .inside) :
      Move l ⟨false, l.waiters, Function.update l.place k .outside⟩
  | giveUp {l : Lock K} (k : K) (here : l.place k = .waiting) :
      Move l ⟨l.locked, l.waiters.erase k, Function.update l.place k .outside⟩

structure Consistent (l : Lock K) : Prop where
  locked : l.locked = true ↔ ∃ k, l.place k = .inside
  exclusive : ∀ k k', l.place k = .inside → l.place k' = .inside → k = k'
  queued : ∀ k, l.waiters.count k = if l.place k = .waiting then 1 else 0

theorem consistent_idle : Consistent (K := K) ⟨false, [], fun _ => .outside⟩ :=
  ⟨by simp, by simp, by simp⟩

section
variable {l : Lock K}

theorem Consistent.nobody (h : Consistent l) (free : l.locked = false) (k : K) :
    l.place k ≠ .inside := by
  intro hk
  have ht := h.locked.mpr ⟨k, hk⟩
  simp [free] at ht

theorem Consistent.of_inside (h : Consistent l) {k k' : K} (here : l.place k = .inside)
    (hne : k' ≠ k) : l.place k' ≠ .inside := fun hk' => hne (h.exclusive k' k hk' here)

/- The queue of a party that moved, and of the others. -/
theorem queued_update {place : K → Place} {ws ws' : List K} {k : K} {p : Place}
    (h : ∀ j, ws.count j = if place j = .waiting then 1 else 0)
    (hk : ws'.count k = if p = .waiting then 1 else 0)
    (ho : ∀ j, j ≠ k → ws'.count j = ws.count j) (j : K) :
    ws'.count j = if Function.update place k p j = .waiting then 1 else 0 := by
  by_cases hj : j = k
  · subst hj
    rw [Function.update_self, hk]
  · rw [Function.update_of_ne hj, ho j hj, h j]

theorem Consistent.taken (h : Consistent l) (free : l.locked = false) {ws : List K} {k : K}
    (hk : ws.count k = 0) (ho : ∀ j, j ≠ k → ws.count j = l.waiters.count j) :
    Consistent ⟨true, ws, Function.update l.place k .inside⟩ := by
  refine ⟨by simp only [true_iff]; exact ⟨k, Function.update_self ..⟩, fun j j' hj hj' => ?_,
    queued_update h.queued (by simpa using hk) ho⟩
  have hall : ∀ i, Function.update l.place k Place.inside i = .inside → i = k := by
    intro i hi
    by_contra hne
    rw [Function.update_of_ne hne] at hi
    exact h.nobody free i hi
  rw [hall j hj, hall j' hj']

/- A party that was not inside, and is not inside afterwards. -/
theorem Consistent.aside (h : Consistent l) {ws : List K} {k : K} {p : Place}
    (out : l.place k ≠ .inside) (hp : p ≠ .inside)
    (hk : ws.count k = if p = .waiting then 1 else 0)
    (ho : ∀ j, j ≠ k → ws.count j = l.waiters.count j) :
    Consistent ⟨l.locked, ws, Function.update l.place k p⟩ := by
  have hsame : ∀ i, Function.update l.place k p i = .inside ↔ l.place i = .inside := by
    intro i
    by_cases hi : i = k
    · subst hi
      rw [Function.update_self]
      exact ⟨fun he => absurd he hp, fun he => absurd he out⟩
    · rw [Function.update_of_ne hi]
  refine ⟨?_, fun j j' hj hj' => ?_, queued_update h.queued hk ho⟩
  · simp only [hsame]
    exact h.locked
  · exact h.exclusive j j' ((hsame j).mp hj) ((hsame j').mp hj')

theorem Consistent.move {l' : Lock K} (h : Consistent l) (hm : Move l l') : Consistent l' := by
  cases hm with
  | stay => exact h
  | enter k free out =>
    have hk := h.queued k
    simp only [out, reduceCtorEq, if_false] at hk
    exact h.taken free hk fun _ _ => rfl
  | wait k out =>
    have hk := h.queued k
    simp only [out, reduceCtorEq, if_false] at hk
    refine h.aside (by simp [out]) (by simp) ?_ fun j hj => ?_
    · simp [List.count_append, hk]
    · simp [List.count_append, Ne.symm hj]
  | wake k ws head free =>
    have hk := h.queued k
    rw [head, List.count_cons_self] at hk
    refine h.taken free (by split at hk <;> omega) fun j hj => ?_
    rw [head, List.count_cons_of_ne (Ne.symm hj)]
  | leave k here =>
    have hk := h.queued k
    simp only [here, reduceCtorEq, if_false] at hk
    have hout : ∀ i, Function.update l.place k Place.outside i ≠ .inside := by
      intro i
      by_cases hi : i = k
      · subst hi
        simp
      · rw [Function.update_of_ne hi]
        exact h.of_inside here hi
    refine ⟨?_, fun j j' hj _ => absurd hj (hout j), queued_update h.queued hk fun _ _ => rfl⟩
    simp [hout]
  | giveUp k here =>
    have hk := h.queued k
    simp only [here, if_true] at hk
    refine h.aside (by simp [here]) (by simp) ?_ fun j hj => List.count_erase_of_ne hj ..
    simp [List.count_erase_self, hk]

/-- Nobody waits and nobody is inside: the lock can be taken at once. -/
theorem Consistent.idle (h : Consistent l) (hout : ∀ k, l.place k = .outside) :
    l.locked = false ∧ l.waiters = [] := by
  constructor
  · rw [← Bool.not_eq_true, h.locked]
    rintro ⟨k, hk⟩
    simp [hout k] at hk
  · refine List.eq_nil_iff_forall_not_mem.mpr fun k hk => ?_
    have hc := List.count_pos_iff.mpr hk
    simp [h.queued k, hout k] at hc

end

end AsyncLock
