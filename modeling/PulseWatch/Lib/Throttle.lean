import Mathlib

/-!
# Throttled selection

A scan over a list selects the elements it wants, but none before `gap` has passed
since the last one it selected; the element at position `k` is met at `clock k`. Which
elements are selected depends on their order, unless the throttle lets all of them pass
wherever they stand, or none.
-/

namespace Throttle

/-- Enough time has passed since the last selection. -/
def Free (gap : ℤ) (last : Option ℤ) (now : ℤ) : Prop := ∀ t ∈ last, gap ≤ now - t

instance (gap : ℤ) (last : Option ℤ) (now : ℤ) : Decidable (Free gap last now) := by
  unfold Free
  infer_instance

section
variable {A : Type*} (gap : ℤ) (clock : ℕ → ℤ) (wants : A → Bool)

def thin : Option ℤ → ℕ → List A → List A
  | _, _, [] => []
  | last, k, x :: xs =>
    if wants x = true ∧ Free gap last (clock k) then x :: thin (some (clock k)) (k + 1) xs
    else thin last (k + 1) xs

/- The time of the last selection after the scan. -/
def lastAfter : Option ℤ → ℕ → List A → Option ℤ
  | last, _, [] => last
  | last, k, x :: xs =>
    if wants x = true ∧ Free gap last (clock k) then lastAfter (some (clock k)) (k + 1) xs
    else lastAfter last (k + 1) xs

end

section
variable {A : Type*} {gap : ℤ} {clock : ℕ → ℤ} {wants : A → Bool}

theorem Free.later {last : Option ℤ} {now later : ℤ} (h : Free gap last now) (hle : now ≤ later) :
    Free gap last later := fun t ht => (h t ht).trans (Int.sub_le_sub_right hle t)

theorem thin_sublist (last : Option ℤ) (k : ℕ) (xs : List A) :
    (thin gap clock wants last k xs).Sublist (xs.filter wants) := by
  induction xs generalizing last k with
  | nil => exact List.Sublist.slnil
  | cons x xs ih =>
    rw [thin]
    split
    · next h =>
      rw [List.filter_cons_of_pos h.1]
      exact (ih _ _).cons_cons x
    · cases hw : wants x with
      | true =>
        rw [List.filter_cons_of_pos hw]
        exact (ih _ _).cons x
      | false =>
        rw [List.filter_cons_of_neg (by simp [hw])]
        exact ih _ _

theorem thin_append (last : Option ℤ) (k : ℕ) (xs ys : List A) :
    thin gap clock wants last k (xs ++ ys) = thin gap clock wants last k xs ++
      thin gap clock wants (lastAfter gap clock wants last k xs) (k + xs.length) ys := by
  induction xs generalizing last k with
  | nil => rfl
  | cons x xs ih =>
    have hlen : k + 1 + xs.length = k + (x :: xs).length := by
      rw [List.length_cons]
      omega
    rw [List.cons_append, thin, thin, lastAfter]
    split
    · rw [ih, hlen]
      rfl
    · rw [ih, hlen]

theorem lastAfter_append (last : Option ℤ) (k : ℕ) (xs ys : List A) :
    lastAfter gap clock wants last k (xs ++ ys) = lastAfter gap clock wants
      (lastAfter gap clock wants last k xs) (k + xs.length) ys := by
  induction xs generalizing last k with
  | nil => rfl
  | cons x xs ih =>
    have hlen : k + 1 + xs.length = k + (x :: xs).length := by
      rw [List.length_cons]
      omega
    rw [List.cons_append, lastAfter, lastAfter]
    split
    · rw [ih, hlen]
    · rw [ih, hlen]

theorem thin_closed {last : Option ℤ} {k : ℕ} {xs : List A}
    (h : ∀ i < xs.length, ¬ Free gap last (clock (k + i))) :
    thin gap clock wants last k xs = [] ∧ lastAfter gap clock wants last k xs = last := by
  induction xs generalizing k with
  | nil => exact ⟨rfl, rfl⟩
  | cons x xs ih =>
    have hhead : ¬ (wants x = true ∧ Free gap last (clock k)) :=
      fun hx => h 0 (Nat.succ_pos _) hx.2
    have hrest := ih fun i hi => by
      have hnot := h (i + 1) (Nat.succ_lt_succ hi)
      rwa [show k + 1 + i = k + (i + 1) by omega]
    rw [thin, lastAfter, if_neg hhead, if_neg hhead]
    exact hrest

/- A throttle that is open from one position to the next lets everything pass. -/
theorem thin_open {last : Option ℤ} {k n : ℕ} {xs : List A} (hn : k + xs.length ≤ n)
    (hmono : Monotone clock) (hopen : xs ≠ [] → Free gap last (clock k))
    (hgap : ∀ i, i + 1 < n → gap ≤ clock (i + 1) - clock i) :
    thin gap clock wants last k xs = xs.filter wants := by
  induction xs generalizing last k with
  | nil => rfl
  | cons x xs ih =>
    rw [List.length_cons] at hn
    have hfree := hopen (List.cons_ne_nil x xs)
    rw [thin]
    cases hw : wants x with
    | true =>
      rw [if_pos ⟨rfl, hfree⟩, List.filter_cons_of_pos hw, ih (by omega)]
      intro hne t ht
      have hpos := List.length_pos_of_ne_nil hne
      obtain rfl := Option.some.inj ht
      exact hgap k (by omega)
    | false =>
      rw [if_neg (fun h => Bool.false_ne_true h.1), List.filter_cons_of_neg (by simp [hw]),
        ih (by omega)]
      exact fun _ => hfree.later (hmono (Nat.le_succ k))

theorem thin_single {last : Option ℤ} {k : ℕ} {xs : List A} (hmono : Monotone clock)
    (hopen : Free gap last (clock k)) (hone : (xs.filter wants).length ≤ 1) :
    thin gap clock wants last k xs = xs.filter wants := by
  induction xs generalizing k with
  | nil => rfl
  | cons x xs ih =>
    rw [thin]
    cases hw : wants x with
    | true =>
      rw [List.filter_cons_of_pos hw, List.length_cons] at hone
      have hnil : xs.filter wants = [] := List.eq_nil_of_length_eq_zero (by omega)
      have hthin : (thin gap clock wants (some (clock k)) (k + 1) xs).Sublist (xs.filter wants) :=
        thin_sublist _ _ _
      rw [hnil, List.sublist_nil] at hthin
      rw [if_pos ⟨rfl, hopen⟩, List.filter_cons_of_pos hw, hthin, hnil]
    | false =>
      rw [List.filter_cons_of_neg (by simp [hw])] at hone ⊢
      rw [if_neg (fun h => Bool.false_ne_true h.1)]
      exact ih (hopen.later (hmono (Nat.le_succ k))) hone

/- Whether an element is selected depends on what was selected before it. -/
theorem mem_thin_middle {last : Option ℤ} {k : ℕ} {a : A} {xs ys : List A} (hx : a ∉ xs)
    (hy : a ∉ ys) : a ∈ thin gap clock wants last k (xs ++ a :: ys) ↔
      wants a = true ∧ Free gap (lastAfter gap clock wants last k xs) (clock (k + xs.length)) := by
  have hnone : ∀ (last : Option ℤ) (k : ℕ) (zs : List A), a ∉ zs →
      a ∉ thin gap clock wants last k zs :=
    fun last k zs hz hin => hz (List.mem_of_mem_filter ((thin_sublist last k zs).subset hin))
  rw [thin_append, List.mem_append, or_iff_right (hnone _ _ _ hx), thin]
  split
  · next h => exact iff_of_true List.mem_cons_self h
  · next h => exact iff_of_false (hnone _ _ _ hy) h

/-- The selection is the same set in every order. -/
def Steady (gap : ℤ) (clock : ℕ → ℤ) (wants : A → Bool) (last : Option ℤ) (xs : List A) : Prop :=
  ∀ ys : List A, ys.Perm xs → ∀ a,
    a ∈ thin gap clock wants last 0 ys ↔ a ∈ thin gap clock wants last 0 xs

section
variable {last : Option ℤ} {xs : List A}

theorem perm_head (hn : xs.Nodup) {a : A} (ha : a ∈ xs) : ∃ zs, (a :: zs).Perm xs ∧ a ∉ zs := by
  obtain ⟨us, vs, rfl⟩ := List.append_of_mem ha
  have hperm : (a :: (us ++ vs)).Perm (us ++ a :: vs) := List.perm_middle.symm
  exact ⟨us ++ vs, hperm, (List.nodup_cons.mp (hperm.nodup_iff.mpr hn)).1⟩

/- A wanted element can be moved to where the throttle opens first. -/
theorem Steady.selected (h : Steady gap clock wants last xs) (hn : xs.Nodup)
    (hopen : Free gap last (clock (xs.length - 1))) {a : A} (ha : a ∈ xs) (hw : wants a = true)
    {ys : List A} (hys : ys.Perm xs) : a ∈ thin gap clock wants last 0 ys := by
  obtain ⟨j, hfree, hfirst⟩ : ∃ j, Free gap last (clock j) ∧ ∀ i < j, ¬ Free gap last (clock i) :=
    have hex : ∃ j, Free gap last (clock j) := ⟨_, hopen⟩
    ⟨Nat.find hex, Nat.find_spec hex, fun i hi => Nat.find_min hex hi⟩
  have hj : j ≤ xs.length - 1 := not_lt.mp fun hlt => hfirst _ hlt hopen
  obtain ⟨zs, hperm, hz⟩ := perm_head hn ha
  have hlen := hperm.length_eq
  rw [List.length_cons] at hlen
  have htake : (zs.take j).length = j := by
    rw [List.length_take]
    omega
  have hmoved : (zs.take j ++ a :: zs.drop j).Perm xs := by
    refine List.perm_middle.trans ?_
    rwa [List.take_append_drop]
  have hclosed : lastAfter gap clock wants last 0 (zs.take j) = last := by
    refine (thin_closed fun i hi => ?_).2
    rw [htake] at hi
    rw [Nat.zero_add]
    exact hfirst i hi
  rw [h ys hys, ← h _ hmoved, mem_thin_middle (fun hin => hz (List.mem_of_mem_take hin))
    (fun hin => hz (List.mem_of_mem_drop hin)), hclosed, htake, Nat.zero_add]
  exact ⟨hw, hfree⟩

/- Two wanted elements can be moved next to each other. -/
theorem Steady.gaps (h : Steady gap clock wants last xs) (hn : xs.Nodup)
    (hopen : Free gap last (clock (xs.length - 1))) {a b : A} (hab : a ≠ b) (ha : a ∈ xs)
    (hwa : wants a = true) (hb : b ∈ xs) (hwb : wants b = true) {i : ℕ} (hi : i + 1 < xs.length) :
    gap ≤ clock (i + 1) - clock i := by
  obtain ⟨us, husa, hua⟩ := perm_head hn ha
  have hbu : b ∈ us := (List.mem_cons.mp (husa.mem_iff.mpr hb)).resolve_left hab.symm
  obtain ⟨zs, hperm, hzb⟩ := perm_head (List.nodup_cons.mp (husa.nodup_iff.mpr hn)).2 hbu
  have hza : a ∉ zs := fun hin => hua (hperm.mem_iff.mp (List.mem_cons_of_mem b hin))
  have hlen := (hperm.cons a).trans husa |>.length_eq
  rw [List.length_cons, List.length_cons] at hlen
  have htake : (zs.take i).length = i := by
    rw [List.length_take]
    omega
  have hmoved : (zs.take i ++ a :: b :: zs.drop i).Perm xs := by
    refine (List.perm_middle.trans (List.Perm.cons a List.perm_middle)).trans ?_
    rw [List.take_append_drop]
    exact (hperm.cons a).trans husa
  have hafter : ∀ c ∉ zs, c ∉ zs.take i ∧ c ∉ zs.drop i := fun c hc =>
    ⟨fun hin => hc (List.mem_of_mem_take hin), fun hin => hc (List.mem_of_mem_drop hin)⟩
  have hsela := h.selected hn hopen ha hwa hmoved
  have hselb := h.selected hn hopen hb hwb hmoved
  rw [mem_thin_middle (hafter a hza).1 (by simp [hab, (hafter a hza).2]), htake, Nat.zero_add]
    at hsela
  rw [List.append_cons (zs.take i) a (b :: zs.drop i), mem_thin_middle
    (by simp [hab.symm, (hafter b hzb).1]) (hafter b hzb).2, lastAfter_append, htake,
    List.length_append, htake, Nat.zero_add, List.length_singleton, lastAfter, if_pos hsela,
    lastAfter] at hselb
  simpa only [Nat.zero_add] using hselb.2 (clock i) rfl

/- Everything passes in every order, so the order does not matter. -/
theorem steady_of_all (hall : ∀ ys : List A, ys.Perm xs →
    thin gap clock wants last 0 ys = ys.filter wants) : Steady gap clock wants last xs := by
  intro ys hys a
  rw [hall ys hys, hall xs (List.Perm.refl xs)]
  exact (hys.filter wants).mem_iff

theorem Steady.iff (hn : xs.Nodup) (hmono : Monotone clock) :
    Steady gap clock wants last xs ↔
      xs.filter wants = [] ∨ ¬ Free gap last (clock (xs.length - 1)) ∨
        Free gap last (clock 0) ∧ ((xs.filter wants).length = 1 ∨
          ∀ i, i + 1 < xs.length → gap ≤ clock (i + 1) - clock i) := by
  constructor
  · intro h
    cases hwanted : xs.filter wants with
    | nil => exact Or.inl rfl
    | cons a rest =>
      refine Or.inr (or_iff_not_imp_left.mpr fun hopen => ?_)
      have hopen := not_not.mp hopen
      obtain ⟨ha, hwa⟩ := List.mem_filter.mp (hwanted ▸ List.mem_cons_self)
      constructor
      · obtain ⟨zs, hperm, hz⟩ := perm_head hn ha
        have hsel := h.selected hn hopen ha hwa hperm
        exact ((mem_thin_middle List.not_mem_nil hz).mp hsel).2
      · cases rest with
        | nil => exact Or.inl rfl
        | cons b rest =>
          obtain ⟨hb, hwb⟩ := List.mem_filter.mp
            (hwanted ▸ List.mem_cons_of_mem a List.mem_cons_self : b ∈ xs.filter wants)
          have hnd := hn.filter wants
          rw [hwanted] at hnd
          have hab : a ≠ b := fun he => (List.nodup_cons.mp hnd).1 (he ▸ List.mem_cons_self)
          exact Or.inr fun i hi => h.gaps hn hopen hab ha hwa hb hwb hi
  · rintro (hnone | hclosed | ⟨hopen, hone | hgap⟩)
    · refine steady_of_all fun ys hys => ?_
      have hnil : ys.filter wants = [] := (hnone ▸ hys.filter wants).eq_nil
      have hthin : (thin gap clock wants last 0 ys).Sublist (ys.filter wants) :=
        thin_sublist _ _ _
      rw [hnil, List.sublist_nil] at hthin
      rw [hthin, hnil]
    · have hnone : ∀ ys : List A, ys.Perm xs → thin gap clock wants last 0 ys = [] := by
        intro ys hys
        refine (thin_closed fun i hi hfree => hclosed (hfree.later (hmono ?_))).1
        have hlen := hys.length_eq
        omega
      intro ys hys a
      rw [hnone ys hys, hnone xs (List.Perm.refl xs)]
    · refine steady_of_all fun ys hys => thin_single hmono hopen ?_
      rw [(hys.filter wants).length_eq]
      omega
    · refine steady_of_all fun ys hys => thin_open ?_ hmono (fun _ => hopen) hgap
      rw [hys.length_eq, Nat.zero_add]

end

end

end Throttle
