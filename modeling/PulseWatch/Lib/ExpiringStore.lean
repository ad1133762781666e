import Mathlib.Order.Basic
import Mathlib.Data.List.Basic

/-!
# A key-value store whose keys expire

Entries carry a deadline on a linear clock. A key is present up to and
including its deadline; writing a key replaces its entry, deleting removes it.
`get?` and `deadline?` are characterised by how `set` and `del` change them, so
users never look at the list of entries.
-/

namespace ExpiringStore

structure Entry (K V T : Type*) where
  key : K
  value : V
  deadline : T
  deriving DecidableEq, Repr

abbrev Store (K V T : Type*) := List (Entry K V T)

section
variable {K V T : Type*} [DecidableEq K]

def set (k : K) (v : V) (d : T) (s : Store K V T) : Store K V T :=
  ⟨k, v, d⟩ :: s.filter fun e => e.key ≠ k

def del (k : K) (s : Store K V T) : Store K V T := s.filter fun e => e.key ≠ k

def find? (k : K) (s : Store K V T) : Option (Entry K V T) := s.find? fun e => e.key = k

/-- Deadline of the stored entry, expired or not. -/
def deadline? (k : K) (s : Store K V T) : Option T := (find? k s).map Entry.deadline

theorem find?_filter_ne (k k' : K) (h : k ≠ k') (s : Store K V T) :
    find? k (s.filter fun e => e.key ≠ k') = find? k s := by
  unfold find?
  rw [List.find?_filter]
  congr 1
  funext e
  by_cases he : e.key = k
  · simp [he, h]
  · simp [he]

theorem find?_filter_self (k : K) (s : Store K V T) :
    find? k (s.filter fun e => e.key ≠ k) = none := by
  simp [find?, List.find?_eq_none]

@[simp] theorem find?_set_self (k : K) (v : V) (d : T) (s : Store K V T) :
    find? k (set k v d s) = some ⟨k, v, d⟩ := by
  simp [find?, set]

@[simp] theorem find?_set_ne (k k' : K) (v : V) (d : T) (s : Store K V T) (h : k ≠ k') :
    find? k (set k' v d s) = find? k s := by
  have hf := find?_filter_ne k k' h s
  unfold find? at hf ⊢
  rw [set, List.find?_cons_of_neg (by simpa using Ne.symm h), hf]

@[simp] theorem find?_del_self (k : K) (s : Store K V T) : find? k (del k s) = none :=
  find?_filter_self k s

@[simp] theorem find?_del_ne (k k' : K) (s : Store K V T) (h : k ≠ k') :
    find? k (del k' s) = find? k s := find?_filter_ne k k' h s

/- The entries after a write: its own, and the old ones of the other keys. -/
theorem mem_set {k : K} {v : V} {d : T} {s : Store K V T} {e : Entry K V T}
    (h : e ∈ set k v d s) : e = ⟨k, v, d⟩ ∨ e ∈ s ∧ e.key ≠ k := by
  rcases List.mem_cons.mp h with he | he
  · exact Or.inl he
  · exact Or.inr (by simpa using List.mem_filter.mp he)

theorem mem_del {k : K} {s : Store K V T} {e : Entry K V T} (h : e ∈ del k s) :
    e ∈ s ∧ e.key ≠ k := by
  simpa using List.mem_filter.mp h

theorem deadline?_set_self (k : K) (v : V) (d : T) (s : Store K V T) :
    deadline? k (set k v d s) = some d := by
  simp [deadline?]

theorem deadline?_set_ne (k k' : K) (v : V) (d : T) (s : Store K V T) (h : k ≠ k') :
    deadline? k (set k' v d s) = deadline? k s := by
  simp [deadline?, h]

theorem deadline?_del_self (k : K) (s : Store K V T) : deadline? k (del k s) = none := by
  simp [deadline?]

theorem deadline?_del_ne (k k' : K) (s : Store K V T) (h : k ≠ k') :
    deadline? k (del k' s) = deadline? k s := by
  simp [deadline?, h]

end

section
variable {K V T : Type*} [DecidableEq K] [LE T] [DecidableLE T]

/-- Value of an unexpired key. -/
def get? (now : T) (k : K) (s : Store K V T) : Option V :=
  (find? k s).bind fun e => if now ≤ e.deadline then some e.value else none

/-- `EXISTS`: the key is stored and has not expired. -/
def alive (now : T) (k : K) (s : Store K V T) : Bool := (get? now k s).isSome

/-- Keys a full scan returns. -/
def liveKeys (now : T) (s : Store K V T) : List K :=
  (s.map Entry.key).filter fun k => alive now k s

theorem get?_mem {now : T} {k : K} {v : V} {s : Store K V T} (h : get? now k s = some v) :
    ∃ e ∈ s, e.key = k ∧ e.value = v ∧ now ≤ e.deadline := by
  obtain ⟨e, he, hv⟩ := Option.bind_eq_some_iff.mp h
  split at hv
  · next hd =>
    exact ⟨e, List.mem_of_find?_eq_some he, by simpa using List.find?_some he,
      Option.some.inj hv, hd⟩
  · cases hv

theorem alive_iff (now : T) (k : K) (s : Store K V T) :
    alive now k s = true ↔ ∃ d, deadline? k s = some d ∧ now ≤ d := by
  unfold alive get? deadline?
  cases hf : find? k s with
  | none => simp
  | some e => by_cases hd : now ≤ e.deadline <;> simp [hd]

theorem not_alive_del (now : T) (k : K) (s : Store K V T) : alive now k (del k s) = false := by
  rw [← Bool.not_eq_true, alive_iff, deadline?_del_self]
  simp

theorem mem_liveKeys (now : T) (k : K) (s : Store K V T) :
    k ∈ liveKeys now s ↔ alive now k s = true := by
  unfold liveKeys
  rw [List.mem_filter]
  refine ⟨fun h => h.2, fun h => ⟨?_, h⟩⟩
  obtain ⟨d, hd, -⟩ := (alive_iff now k s).mp h
  obtain ⟨e, he, -⟩ := Option.map_eq_some_iff.mp hd
  have hm := List.mem_of_find?_eq_some he
  have hk : e.key = k := by simpa using List.find?_some he
  exact List.mem_map.mpr ⟨e, hm, hk⟩

end

/-! ### Renaming the keys -/

section
variable {K L V T : Type*} (f : K → L)

def rename (s : Store K V T) : Store L V T := s.map fun e => ⟨f e.key, e.value, e.deadline⟩

variable [DecidableEq K] [DecidableEq L] {f} (hf : Function.Injective f)
include hf

theorem rename_filter_ne (k : K) (s : Store K V T) :
    (rename f s).filter (fun e => e.key ≠ f k) = rename f (s.filter fun e => e.key ≠ k) := by
  unfold rename
  rw [List.filter_map]
  congr 1
  refine List.filter_congr fun e _ => ?_
  simp [hf.eq_iff]

theorem rename_set (k : K) (v : V) (d : T) (s : Store K V T) :
    rename f (set k v d s) = set (f k) v d (rename f s) := by
  rw [set, set, rename_filter_ne hf]
  rfl

theorem rename_del (k : K) (s : Store K V T) : rename f (del k s) = del (f k) (rename f s) :=
  (rename_filter_ne hf k s).symm

theorem find?_rename (k : K) (s : Store K V T) :
    find? (f k) (rename f s) = (find? k s).map fun e => ⟨f e.key, e.value, e.deadline⟩ := by
  unfold find? rename
  rw [List.find?_map]
  congr 2
  funext e
  simp [hf.eq_iff]

variable [LE T] [DecidableLE T]

theorem get?_rename (now : T) (k : K) (s : Store K V T) :
    get? now (f k) (rename f s) = get? now k s := by
  rw [get?, find?_rename hf, Option.bind_map]
  rfl

theorem alive_rename (now : T) (k : K) (s : Store K V T) :
    alive now (f k) (rename f s) = alive now k s := by
  rw [alive, get?_rename hf, alive]

theorem liveKeys_rename (now : T) (s : Store K V T) :
    liveKeys now (rename f s) = (liveKeys now s).map f := by
  have hkeys : (rename f s).map Entry.key = (s.map Entry.key).map f := by
    rw [rename, List.map_map, List.map_map]
    rfl
  rw [liveKeys, hkeys, List.filter_map, liveKeys]
  congr 1
  exact List.filter_congr fun k _ => alive_rename hf now k s

end

end ExpiringStore
