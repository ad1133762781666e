import Mathlib.Data.List.Nodup
import Mathlib.Data.List.Pairwise
import Mathlib.Order.Lattice

/-!
# ORDER BY

A query with ORDER BY gives its rows in ascending order of the key, and rows with
equal keys in any order: its results are the sorted permutations of the rows.
-/

namespace OrderBy

variable {α κ : Type*} [LinearOrder κ]

structure Ordered (key : α → κ) (rows result : List α) : Prop where
  perm : result.Perm rows
  sorted : result.Pairwise fun a b => key a ≤ key b

instance [DecidableEq α] (key : α → κ) (rows result : List α) :
    Decidable (Ordered key rows result) :=
  decidable_of_iff (result.Perm rows ∧ result.Pairwise fun a b => key a ≤ key b)
    ⟨fun h => ⟨h.1, h.2⟩, fun h => ⟨h.perm, h.sorted⟩⟩

/- A database that has made its choice. -/
structure Sorter (key : α → κ) where
  sort : List α → List α
  ordered : ∀ rows, Ordered key rows (sort rows)

def mergeSorter (key : α → κ) : Sorter key where
  sort rows := rows.mergeSort fun a b => key a ≤ key b
  ordered rows := by
    refine ⟨List.mergeSort_perm rows _, (List.pairwise_mergeSort ?_ ?_ rows).imp ?_⟩
    · intro a b c hab hbc
      exact decide_eq_true (le_trans (of_decide_eq_true hab) (of_decide_eq_true hbc))
    · intro a b
      simpa using le_total (key a) (key b)
    · intro a b hab
      exact of_decide_eq_true hab

variable {key : α → κ} {rows result : List α}

theorem Ordered.filter (h : Ordered key rows result) (p : α → Bool) :
    Ordered key (rows.filter p) (result.filter p) :=
  ⟨h.perm.filter p, h.sorted.filter p⟩

theorem Ordered.head_le (h : Ordered key rows result) {a b : α} (ha : result.head? = some a)
    (hb : b ∈ rows) : key a ≤ key b := by
  obtain ⟨rest, rfl⟩ := List.head?_eq_some_iff.mp ha
  rcases List.mem_cons.mp (h.perm.mem_iff.mpr hb) with rfl | hb
  · exact le_refl _
  · exact List.rel_of_pairwise_cons h.sorted hb

theorem Ordered.map {β : Type*} {key : β → κ} {f : α → β}
    (h : Ordered (fun a => key (f a)) rows result) : Ordered key (rows.map f) (result.map f) :=
  ⟨h.perm.map f, List.pairwise_map.mpr h.sorted⟩

/- Rows with one key may come out backwards. -/
theorem ordered_reverse {k : κ} (h : ∀ a ∈ rows, key a = k) : Ordered key rows rows.reverse := by
  refine ⟨rows.reverse_perm, ?_⟩
  rw [List.pairwise_reverse]
  exact List.pairwise_of_forall_mem_list fun a ha b hb => le_of_eq ((h b hb).trans (h a ha).symm)

variable {before : α → α → Prop}

/- Rows that came in with growing keys are given as they came. -/
theorem Ordered.keeps (h : Ordered key rows result)
    (hrows : rows.Pairwise fun a b => before a b ∧ key a < key b) : result.Pairwise before := by
  have hnodup : result.Nodup := by
    rw [h.perm.nodup_iff]
    refine hrows.imp fun {a b} hab heq => ?_
    rw [heq] at hab
    exact lt_irrefl _ hab.2
  have hone : rows.Pairwise fun a b =>
      (before a b ∧ key a < key b) ∨ (before b a ∧ key b < key a) :=
    hrows.imp fun hab => Or.inl hab
  have : Std.Symm fun a b => (before a b ∧ key a < key b) ∨ (before b a ∧ key b < key a) :=
    ⟨fun _ _ hab => hab.symm⟩
  refine (h.sorted.and hnodup).imp_of_mem fun ha hb hab => ?_
  rcases hone.forall (h.perm.mem_iff.mp ha) (h.perm.mem_iff.mp hb) hab.2 with hlt | hlt
  · exact hlt.1
  · exact absurd hlt.2 hab.1.not_gt

/- Two rows with one key may be given the other way round. -/
theorem distinct_of_keeps (hrows : rows.Pairwise before) (hasymm : ∀ a b, before a b → ¬ before b a)
    (h : ∀ k result, Ordered key (rows.filter fun a => key a = k) result →
      result.Pairwise before) : (rows.map key).Nodup := by
  rw [List.Nodup, List.pairwise_map]
  refine hrows.imp_of_mem fun {a b} ha hb hab heq => ?_
  let tied := rows.filter fun c => key c = key a
  have hforward : tied.Pairwise before := hrows.filter _
  have hback : tied.Pairwise fun x y => before y x := by
    rw [← List.pairwise_reverse]
    refine h (key a) tied.reverse (ordered_reverse (k := key a) fun c hc => ?_)
    simpa using (List.mem_filter.mp hc).2
  have hnone : tied.Pairwise fun _ _ => False :=
    (hforward.and hback).imp fun hxy => hasymm _ _ hxy.1 hxy.2
  have : Std.Symm fun _ _ : α => False := ⟨fun _ _ hf => hf⟩
  have hne : a ≠ b := by
    rintro rfl
    exact hasymm a a hab hab
  exact hnone.forall (List.mem_filter.mpr ⟨ha, by simp⟩)
    (List.mem_filter.mpr ⟨hb, by simp [heq]⟩) hne

end OrderBy
