import Mathlib.Data.List.Perm.Subperm
import Mathlib.Data.List.Nodup
import Mathlib.Data.Nat.Notation

/-!
# Sessions over a bounded connection pool

A session takes a connection from the pool with its first statement and keeps it
until it is given back (commit, rollback or close); meanwhile its statements run on
that connection. The pool never lends more than its capacity.
-/

namespace ConnectionPool

/- The sessions that hold a connection. -/
structure Pool (ι : Type) (capacity : ℕ) where
  holders : List ι
  nodup : holders.Nodup
  bounded : holders.length ≤ capacity

variable {ι : Type} {capacity : ℕ}

def empty : Pool ι capacity := ⟨[], List.nodup_nil, Nat.zero_le _⟩

variable [DecidableEq ι]

/- A statement of session `i`; `none` while it has to wait for a connection. -/
def execute (i : ι) (p : Pool ι capacity) : Option (Pool ι capacity) :=
  if hi : i ∈ p.holders then some p
  else if hn : p.holders.length < capacity then
    some ⟨i :: p.holders, List.nodup_cons.mpr ⟨hi, p.nodup⟩, hn⟩
  else none

def release (i : ι) (p : Pool ι capacity) : Pool ι capacity :=
  ⟨p.holders.erase i, p.nodup.erase i, Nat.le_trans List.length_erase_le p.bounded⟩

section
variable {i j : ι} {p q : Pool ι capacity}

theorem mem_execute (h : execute i p = some q) : j ∈ q.holders ↔ j = i ∨ j ∈ p.holders := by
  unfold execute at h
  split at h
  · next hi =>
    obtain rfl := Option.some.inj h
    refine ⟨Or.inr, ?_⟩
    rintro (rfl | hj)
    · exact hi
    · exact hj
  · split at h
    · obtain rfl := Option.some.inj h
      exact List.mem_cons
    · cases h

@[simp] theorem mem_release : j ∈ (release i p).holders ↔ j ≠ i ∧ j ∈ p.holders :=
  p.nodup.mem_erase_iff

theorem execute_holder (h : i ∈ p.holders) : execute i p = some p := by
  unfold execute
  rw [dif_pos h]

theorem execute_eq_none : execute i p = none ↔ i ∉ p.holders ∧ p.holders.length = capacity := by
  have hle := p.bounded
  unfold execute
  split
  · next hi => simp [hi]
  · next hi =>
    split
    · next hn =>
      simp only [reduceCtorEq, false_iff, not_and]
      omega
    · next hn =>
      simp only [true_iff]
      exact ⟨hi, by omega⟩

theorem execute_free (h : p.holders.length < capacity) : ∃ q, execute i p = some q := by
  cases he : execute i p with
  | none =>
    have hfull := (execute_eq_none.mp he).2
    omega
  | some q => exact ⟨q, rfl⟩

/- As many holders as the pool has connections keep every other session waiting. -/
theorem execute_blocked {js : List ι} (hnodup : js.Nodup) (hheld : ∀ j ∈ js, j ∈ p.holders)
    (hcapacity : capacity ≤ js.length) (hi : i ∉ js) : execute i p = none := by
  have hle := p.bounded
  have hsub : js.length ≤ p.holders.length :=
    (List.subperm_of_subset hnodup hheld).length_le
  refine execute_eq_none.mpr ⟨fun hmem => ?_, by omega⟩
  have hcons : (i :: js).length ≤ p.holders.length := by
    refine (List.subperm_of_subset (List.nodup_cons.mpr ⟨hi, hnodup⟩) ?_).length_le
    intro j hj
    rcases List.mem_cons.mp hj with rfl | hj
    · exact hmem
    · exact hheld j hj
  rw [List.length_cons] at hcons
  omega

end

end ConnectionPool
