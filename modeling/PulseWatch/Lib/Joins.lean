import Mathlib.Data.List.Nodup

/-!
# Inner joins

`FROM left JOIN right ON ...`: the pairs that meet the condition, in the order of the
left table.
-/

namespace Joins

variable {α β κ : Type*}

def join (on : α → β → Bool) (left : List α) (right : List β) : List (α × β) :=
  left.flatMap fun a => (right.filter (on a)).map fun b => (a, b)

variable {on : α → β → Bool} {left : List α} {right : List β}

theorem mem_join {row : α × β} :
    row ∈ join on left right ↔ row.1 ∈ left ∧ row.2 ∈ right ∧ on row.1 row.2 = true := by
  unfold join
  rw [List.mem_flatMap]
  constructor
  · rintro ⟨a, ha, hrow⟩
    obtain ⟨b, hb, rfl⟩ := List.mem_map.mp hrow
    obtain ⟨hb, hon⟩ := List.mem_filter.mp hb
    exact ⟨ha, hb, hon⟩
  · rintro ⟨ha, hb, hon⟩
    exact ⟨row.1, ha, List.mem_map.mpr ⟨row.2, List.mem_filter.mpr ⟨hb, hon⟩, rfl⟩⟩

/- A condition on one of the tables may be applied before the join or after it. -/
theorem filter_fst_join (own : α → Bool) :
    (join on left right).filter (fun row => own row.1) = join on (left.filter own) right := by
  induction left with
  | nil => rfl
  | cons a left ih =>
    simp only [join, List.flatMap_cons, List.filter_append, List.filter_map] at ih ⊢
    rw [ih]
    cases hown : own a with
    | true =>
      have hall : (right.filter (on a)).filter ((fun row => own row.1) ∘ fun b => (a, b)) =
          right.filter (on a) := List.filter_eq_self.mpr fun b _ => hown
      rw [hall, List.filter_cons_of_pos hown, List.flatMap_cons]
    | false =>
      have hnone :
          (right.filter (on a)).filter ((fun row => own row.1) ∘ fun b => (a, b)) = [] := by
        rw [List.filter_eq_nil_iff]
        intro b _
        simp [hown]
      rw [hnone, List.filter_cons_of_neg (by simp [hown])]
      rfl

theorem filter_snd_join (own : β → Bool) :
    (join on left right).filter (fun row => own row.2) = join on left (right.filter own) := by
  induction left with
  | nil => rfl
  | cons a left ih =>
    simp only [join, List.flatMap_cons, List.filter_append, List.filter_map] at ih ⊢
    rw [ih, List.filter_filter, List.filter_filter]
    congr 2
    refine List.filter_congr fun b _ => ?_
    exact Bool.and_comm _ _

/- Rows that no row of the other table joins may be left out. -/
theorem join_filter_left {own : α → Bool}
    (h : ∀ a ∈ left, ∀ b ∈ right, on a b = true → own a = true) :
    join on (left.filter own) right = join on left right := by
  rw [← filter_fst_join, List.filter_eq_self]
  intro row hrow
  obtain ⟨ha, hb, hon⟩ := mem_join.mp hrow
  exact h row.1 ha row.2 hb hon

theorem join_filter_right {own : β → Bool}
    (h : ∀ a ∈ left, ∀ b ∈ right, on a b = true → own b = true) :
    join on left (right.filter own) = join on left right := by
  rw [← filter_snd_join, List.filter_eq_self]
  intro row hrow
  obtain ⟨ha, hb, hon⟩ := mem_join.mp hrow
  exact h row.1 ha row.2 hb hon

/- Where no row has two partners, the join gives each row that has one once. -/
theorem map_fst_join (h : ∀ a ∈ left, (right.filter (on a)).length ≤ 1) :
    (join on left right).map Prod.fst = left.filter fun a => right.any (on a) := by
  induction left with
  | nil => rfl
  | cons a left ih =>
    have hrest := ih fun x hx => h x (List.mem_cons_of_mem a hx)
    have hone := h a List.mem_cons_self
    simp only [join, List.flatMap_cons, List.map_append, List.map_map] at hrest ⊢
    rw [hrest]
    cases hpartners : right.filter (on a) with
    | nil =>
      have hnone : right.any (on a) = false := by
        rw [List.any_eq_false]
        exact List.filter_eq_nil_iff.mp hpartners
      rw [List.filter_cons_of_neg (by rw [hnone]; exact Bool.false_ne_true)]
      rfl
    | cons b rest =>
      have hrest : rest = [] := by
        rw [hpartners, List.length_cons] at hone
        exact List.length_eq_zero_iff.mp (by omega)
      have hb : b ∈ right.filter (on a) := by
        rw [hpartners]
        exact List.mem_cons_self
      obtain ⟨hb, hon⟩ := List.mem_filter.mp hb
      have hany : right.any (on a) = true := List.any_eq_true.mpr ⟨b, hb, hon⟩
      rw [List.filter_cons, if_pos hany, hrest]
      rfl

/- A condition on a unique key finds at most one row. -/
theorem length_filter_key (key : β → κ) (h : (right.map key).Nodup) {k : κ} {p : β → Bool}
    (hp : ∀ b ∈ right, p b = true → key b = k) : (right.filter p).length ≤ 1 := by
  have hsame : (right.filter p).map key = List.replicate (right.filter p).length k := by
    rw [List.eq_replicate_iff, List.length_map]
    refine ⟨rfl, fun x hx => ?_⟩
    obtain ⟨b, hb, rfl⟩ := List.mem_map.mp hx
    obtain ⟨hb, hpb⟩ := List.mem_filter.mp hb
    exact hp b hb hpb
  have hnodup : ((right.filter p).map key).Nodup := h.sublist (List.filter_sublist.map key)
  rw [hsame] at hnodup
  exact List.nodup_replicate.mp hnodup

end Joins
