import Mathlib.Algebra.BigOperators.Group.List.Basic
import Mathlib.Algebra.Order.BigOperators.Group.List
import Mathlib.Algebra.Order.Field.Basic
import Mathlib.Data.List.Nodup
import Mathlib.Tactic.FieldSimp

/-!
# Means and bounds of a list, from those of its parts

A list of exact values is summarized by its length, mean, minimum and maximum.
The summary of a concatenation follows from the summaries of the parts: lengths
add up, bounds are the bounds of the bounds, the mean is weighted by the lengths.
A selection by several keys is the concatenation of the selections by one key.
-/

namespace Summaries

section
variable {A J : Type*} [DecidableEq J]

/- The keys cut the list into groups, each once. -/
theorem filter_groups_perm (key : A → J) {keys : List J} (hn : keys.Nodup) (xs : List A) :
    (xs.filter fun x => key x ∈ keys).Perm
      ((keys.map fun k => xs.filter fun x => key x = k).flatten) := by
  induction keys with
  | nil => simp
  | cons k keys ih =>
    rw [List.nodup_cons] at hn
    have hfirst : (xs.filter fun x => key x ∈ k :: keys).filter (fun x => key x = k) =
        xs.filter fun x => key x = k := by
      rw [List.filter_filter]
      refine List.filter_congr fun x _ => ?_
      by_cases hx : key x = k <;> simp [hx]
    have hrest : (xs.filter fun x => key x ∈ k :: keys).filter (fun x => !decide (key x = k)) =
        xs.filter fun x => key x ∈ keys := by
      rw [List.filter_filter]
      refine List.filter_congr fun x _ => ?_
      by_cases hx : key x = k
      · simp [hx, hn.1]
      · simp [hx]
    have hsplit := List.filter_append_perm (fun x => decide (key x = k))
      (xs.filter fun x => key x ∈ k :: keys)
    rw [hfirst, hrest] at hsplit
    exact hsplit.symm.trans (List.Perm.append_left _ (ih hn.2))

end

/-! ### Summaries that combine -/

section
variable {A S : Type*}

/- What is known of a list: nothing if it is empty. -/
def summary? (stats : List A → S) : List A → Option S
  | [] => none
  | x :: xs => some (stats (x :: xs))

theorem summary?_of_ne {stats : List A → S} {xs : List A} (h : xs ≠ []) :
    summary? stats xs = some (stats xs) := by
  cases xs with
  | nil => exact absurd rfl h
  | cons x xs => rfl

theorem summary?_eq_none {stats : List A → S} {xs : List A} :
    summary? stats xs = none ↔ xs = [] := by
  cases xs with
  | nil => exact ⟨fun _ => rfl, fun _ => rfl⟩
  | cons x xs => exact ⟨fun h => (by cases h), fun h => (by cases h)⟩

theorem filterMap_summary? (stats : List A → S) (xss : List (List A)) :
    xss.filterMap (summary? stats) = (xss.filter fun xs => !xs.isEmpty).map stats := by
  induction xss with
  | nil => rfl
  | cons xs xss ih =>
    cases xs with
    | nil => exact ih
    | cons x xs => exact congrArg (stats (x :: xs) :: ·) ih

/- `combine` computes the summary of a whole from those of its non-empty parts. -/
structure Combines (stats : List A → S) (combine : List S → Option S) : Prop where
  empty : combine [] = none
  perm : ∀ {xs ys : List A}, xs.Perm ys → stats xs = stats ys
  flatten : ∀ {xss : List (List A)}, xss ≠ [] → (∀ xs ∈ xss, xs ≠ []) →
    combine (xss.map stats) = some (stats xss.flatten)

theorem Combines.summary? {stats : List A → S} {combine : List S → Option S}
    (h : Combines stats combine) {xs : List A} {xss : List (List A)} (hp : xs.Perm xss.flatten) :
    Summaries.summary? stats xs = combine (xss.filterMap (Summaries.summary? stats)) := by
  have hparts := filterMap_summary? stats xss
  have hflat : (xss.filter fun ys => !ys.isEmpty).flatten = xss.flatten :=
    List.flatten_filter_not_isEmpty
  rw [hparts]
  by_cases hnil : (xss.filter fun ys => !ys.isEmpty) = []
  · rw [hnil] at hflat ⊢
    rw [← hflat] at hp
    rw [hp.eq_nil, List.map_nil, h.empty]
    rfl
  · have hne : ∀ ys ∈ xss.filter fun ys => !ys.isEmpty, ys ≠ [] := by
      intro ys hys he
      have hkept := (List.mem_filter.mp hys).2
      rw [he] at hkept
      cases hkept
    have hxs : xs ≠ [] := by
      rintro rfl
      obtain ⟨ys, hys⟩ := List.exists_mem_of_ne_nil _ hnil
      rw [← hflat] at hp
      have hempty := List.flatten_eq_nil_iff.mp hp.nil_eq.symm ys hys
      exact hne ys hys hempty
    rw [h.flatten hnil hne, hflat, ← h.perm hp, summary?_of_ne hxs]

end

/-! ### Bounds -/

section
variable {K : Type*} [LinearOrder K]

theorem min?_perm {xs ys : List K} (h : xs.Perm ys) : xs.min? = ys.min? := by
  cases hx : xs.min? with
  | none =>
    have hnil : xs = [] := List.min?_eq_none_iff.mp hx
    rw [hnil, List.nil_perm] at h
    rw [h]
    rfl
  | some a =>
    obtain ⟨hmem, hle⟩ := List.min?_eq_some_iff.mp hx
    exact (List.min?_eq_some_iff.mpr
      ⟨h.mem_iff.mp hmem, fun b hb => hle b (h.mem_iff.mpr hb)⟩).symm

theorem max?_perm {xs ys : List K} (h : xs.Perm ys) : xs.max? = ys.max? :=
  min?_perm (K := Kᵒᵈ) h

theorem min?_getD_mem {xs : List K} (h : xs ≠ []) (d : K) : xs.min?.getD d ∈ xs := by
  cases hx : xs.min? with
  | none => exact absurd (List.min?_eq_none_iff.mp hx) h
  | some a => exact (List.min?_eq_some_iff.mp hx).1

theorem min?_getD_le {xs : List K} {x : K} (h : x ∈ xs) (d : K) : xs.min?.getD d ≤ x := by
  cases hx : xs.min? with
  | none =>
    rw [List.min?_eq_none_iff.mp hx] at h
    cases h
  | some a => exact (List.min?_eq_some_iff.mp hx).2 x h

theorem le_max?_getD {xs : List K} {x : K} (h : x ∈ xs) (d : K) : x ≤ xs.max?.getD d :=
  min?_getD_le (K := Kᵒᵈ) h d

theorem min?_flatten (d : K) {xss : List (List K)} (h : ∀ xs ∈ xss, xs ≠ []) :
    (xss.map fun xs => xs.min?.getD d).min? = xss.flatten.min? := by
  cases hm : xss.flatten.min? with
  | none =>
    have hall : xss = [] := by
      cases xss with
      | nil => rfl
      | cons xs xss =>
        have hflat := List.min?_eq_none_iff.mp hm
        exact absurd (List.append_eq_nil_iff.mp hflat).1 (h xs List.mem_cons_self)
    rw [hall]
    rfl
  | some a =>
    obtain ⟨hmem, hle⟩ := List.min?_eq_some_iff.mp hm
    obtain ⟨xs, hxs, ha⟩ := List.mem_flatten.mp hmem
    have hpart : ∀ b ∈ xs, a ≤ b := fun b hb => hle b (List.mem_flatten_of_mem hxs hb)
    have hleast : xs.min? = some a := List.min?_eq_some_iff.mpr ⟨ha, hpart⟩
    rw [List.min?_eq_some_iff]
    constructor
    · exact List.mem_map.mpr ⟨xs, hxs, by rw [hleast]; rfl⟩
    · intro b hb
      obtain ⟨ys, hys, rfl⟩ := List.mem_map.mp hb
      exact hle _ (List.mem_flatten_of_mem hys (min?_getD_mem (h ys hys) d))

theorem max?_flatten (d : K) {xss : List (List K)} (h : ∀ xs ∈ xss, xs ≠ []) :
    (xss.map fun xs => xs.max?.getD d).max? = xss.flatten.max? :=
  min?_flatten (K := Kᵒᵈ) d h

end

/-! ### Means -/

section
variable {K : Type*} [Field K]

def mean (xs : List K) : K := xs.sum / xs.length

/- The mean of values given with their multiplicities. -/
def weightedMean (parts : List (ℕ × K)) : K :=
  (parts.map fun part => (part.1 : K) * part.2).sum / ((parts.map Prod.fst).sum : ℕ)

theorem mean_perm {xs ys : List K} (h : xs.Perm ys) : mean xs = mean ys := by
  rw [mean, mean, h.sum_eq, h.length_eq]

variable [LinearOrder K] [IsStrictOrderedRing K]

theorem length_mul_mean (xs : List K) : xs.length * mean xs = xs.sum := by
  cases xs with
  | nil => simp [mean]
  | cons x xs =>
    have hpos : ((x :: xs).length : K) ≠ 0 := Nat.cast_ne_zero.mpr (Nat.succ_ne_zero _)
    exact mul_div_cancel₀ _ hpos

theorem weightedMean_flatten (xss : List (List K)) :
    weightedMean (xss.map fun xs => (xs.length, mean xs)) = mean xss.flatten := by
  have hsum : ((xss.map fun xs => (xs.length, mean xs)).map
      fun part => (part.1 : K) * part.2).sum = xss.flatten.sum := by
    induction xss with
    | nil => rfl
    | cons xs xss ih =>
      simp only [List.map_cons, List.sum_cons, List.flatten_cons, List.sum_append, ih,
        length_mul_mean]
  have hcount : ((xss.map fun xs => (xs.length, mean xs)).map Prod.fst).sum =
      xss.flatten.length := by
    rw [List.map_map, List.length_flatten]
    rfl
  rw [weightedMean, hsum, hcount, mean]

theorem least_le_mean {xs : List K} (h : xs ≠ []) (d : K) : xs.min?.getD d ≤ mean xs := by
  have hpos : (0 : K) < xs.length := Nat.cast_pos.mpr (List.length_pos_iff.mpr h)
  have hle := List.card_nsmul_le_sum xs (xs.min?.getD d) fun x hx => min?_getD_le hx d
  rw [nsmul_eq_mul] at hle
  rw [mean, le_div_iff₀ hpos, mul_comm]
  exact hle

theorem mean_le_greatest {xs : List K} (h : xs ≠ []) (d : K) : mean xs ≤ xs.max?.getD d := by
  have hpos : (0 : K) < xs.length := Nat.cast_pos.mpr (List.length_pos_iff.mpr h)
  have hle := List.sum_le_card_nsmul xs (xs.max?.getD d) fun x hx => le_max?_getD hx d
  rw [nsmul_eq_mul] at hle
  rw [mean, div_le_iff₀ hpos, mul_comm]
  exact hle

end
end Summaries
