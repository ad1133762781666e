import Mathlib.Data.List.Basic
import Mathlib.Data.List.Nodup

/-!
# Tables with a unique key

`INSERT ... ON CONFLICT (key) DO UPDATE` on a table read back as a list: the
row with the key of the new one is merged with it, a new key is appended. A
row is `Held` when inserting it would change nothing.
-/

namespace KeyedTable

variable {R K : Type*} [DecidableEq K]

def get? (key : R → K) (k : K) (rows : List R) : Option R := rows.find? fun r => key r = k

/- `merge old new` is the row an update of `old` leaves. -/
def upsert (key : R → K) (merge : R → R → R) (row : R) : List R → List R
  | [] => [row]
  | r :: rs => if key r = key row then merge r row :: rs else r :: upsert key merge row rs

def upsertAll (key : R → K) (merge : R → R → R) (news rows : List R) : List R :=
  news.foldl (fun rs row => upsert key merge row rs) rows

def Held (key : R → K) (merge : R → R → R) (row : R) (rows : List R) : Prop :=
  ∃ r, get? key (key row) rows = some r ∧ merge r row = r

section
variable {key : R → K} {merge : R → R → R}

theorem upsert_cons_eq {row r : R} (h : key r = key row) (rs : List R) :
    upsert key merge row (r :: rs) = merge r row :: rs := if_pos h

theorem upsert_cons_ne {row r : R} (h : key r ≠ key row) (rs : List R) :
    upsert key merge row (r :: rs) = r :: upsert key merge row rs := if_neg h

theorem get?_key {k : K} {r : R} {rows : List R} (h : get? key k rows = some r) : key r = k := by
  have hkey := List.find?_some h
  exact of_decide_eq_true hkey

/- A row is the one its key finds. -/
theorem get?_of_mem {rows : List R} (h : (rows.map key).Nodup) {r : R} (hr : r ∈ rows) {k : K}
    (hk : key r = k) : get? key k rows = some r := by
  cases hf : get? key k rows with
  | none =>
    have hno := List.find?_eq_none.mp hf r hr
    exact absurd (decide_eq_true hk) hno
  | some q =>
    have hmem := List.mem_of_find?_eq_some hf
    rw [List.inj_on_of_nodup_map h hmem hr ((get?_key hf).trans hk.symm)]

theorem get?_upsert_ne {k : K} {row : R} (hkey : ∀ a b, key (merge a b) = key a)
    (h : k ≠ key row) (rows : List R) :
    get? key k (upsert key merge row rows) = get? key k rows := by
  induction rows with
  | nil => simp [upsert, get?, h.symm]
  | cons r rs ih =>
    unfold get? at ih ⊢
    unfold upsert
    split
    · next hr =>
      have hmerged : key (merge r row) ≠ k := by
        rw [hkey, hr]
        exact h.symm
      have hold : key r ≠ k := by
        rw [hr]
        exact h.symm
      rw [List.find?_cons_of_neg (by simpa using hmerged),
        List.find?_cons_of_neg (by simpa using hold)]
    · by_cases hr : key r = k
      · rw [List.find?_cons_of_pos (by simpa using hr),
          List.find?_cons_of_pos (by simpa using hr)]
      · rw [List.find?_cons_of_neg (by simpa using hr),
          List.find?_cons_of_neg (by simpa using hr), ih]

theorem get?_upsert_self (hkey : ∀ a b, key (merge a b) = key a) (row : R) (rows : List R) :
    ∃ r, get? key (key row) (upsert key merge row rows) = some r ∧
      (r = row ∨ ∃ old, r = merge old row) := by
  induction rows with
  | nil => exact ⟨row, by simp [upsert, get?], Or.inl rfl⟩
  | cons r rs ih =>
    unfold get? at ih ⊢
    unfold upsert
    split
    · next hr =>
      have hmerged : key (merge r row) = key row := by rw [hkey, hr]
      refine ⟨merge r row, ?_, Or.inr ⟨r, rfl⟩⟩
      rw [List.find?_cons_of_pos (by simpa using hmerged)]
    · next hr =>
      obtain ⟨q, hq, hform⟩ := ih
      refine ⟨q, ?_, hform⟩
      rw [List.find?_cons_of_neg (by simpa using hr)]
      exact hq

theorem upsert_of_held {row : R} {rows : List R} (h : Held key merge row rows) :
    upsert key merge row rows = rows := by
  obtain ⟨q, hq, hm⟩ := h
  induction rows with
  | nil => cases hq
  | cons r rs ih =>
    unfold get? at ih hq
    unfold upsert
    split
    · next hr =>
      rw [List.find?_cons_of_pos (by simpa using hr)] at hq
      rw [Option.some.inj hq, hm]
    · next hr =>
      rw [List.find?_cons_of_neg (by simpa using hr)] at hq
      rw [ih hq]

theorem mem_upsert_other {row r : R} {rows : List R} (h : r ∈ rows) (hr : key r ≠ key row) :
    r ∈ upsert key merge row rows := by
  induction rows with
  | nil => cases h
  | cons q rs ih =>
    unfold upsert
    split
    · next hq =>
      rcases List.mem_cons.mp h with rfl | h
      · exact absurd hq hr
      · exact List.mem_cons_of_mem _ h
    · rcases List.mem_cons.mp h with rfl | h
      · exact List.mem_cons_self
      · exact List.mem_cons_of_mem _ (ih h)

/- With unique keys a row after an upsert is the new one, the old one of that key
merged with it, or one of another key. -/
theorem mem_upsert {row r : R} {rows : List R} (hn : (rows.map key).Nodup)
    (h : r ∈ upsert key merge row rows) :
    r = row ∨ (∃ old ∈ rows, key old = key row ∧ r = merge old row) ∨
      r ∈ rows ∧ key r ≠ key row := by
  induction rows with
  | nil => exact Or.inl (List.mem_singleton.mp h)
  | cons q rs ih =>
    rw [List.map_cons, List.nodup_cons] at hn
    by_cases hq : key q = key row
    · rw [upsert_cons_eq hq] at h
      rcases List.mem_cons.mp h with rfl | h
      · exact Or.inr (Or.inl ⟨q, List.mem_cons_self, hq, rfl⟩)
      · refine Or.inr (Or.inr ⟨List.mem_cons_of_mem _ h, ?_⟩)
        intro hr
        exact hn.1 (List.mem_map.mpr ⟨r, h, hr.trans hq.symm⟩)
    · rw [upsert_cons_ne hq] at h
      rcases List.mem_cons.mp h with rfl | h
      · exact Or.inr (Or.inr ⟨List.mem_cons_self, hq⟩)
      · rcases ih hn.2 h with hnew | ⟨old, hold, hk, hm⟩ | ⟨hmem, hk⟩
        · exact Or.inl hnew
        · exact Or.inr (Or.inl ⟨old, List.mem_cons_of_mem _ hold, hk, hm⟩)
        · exact Or.inr (Or.inr ⟨List.mem_cons_of_mem _ hmem, hk⟩)

/- What holds of every row, of the new one, and of an old one it is merged into. -/
theorem forall_upsert {P : R → Prop} {row : R} {rows : List R} (h : ∀ r ∈ rows, P r)
    (hrow : P row) (hmerge : ∀ old, P old → key old = key row → P (merge old row)) :
    ∀ r ∈ upsert key merge row rows, P r := by
  induction rows with
  | nil =>
    intro r hr
    rw [List.mem_singleton.mp hr]
    exact hrow
  | cons q rs ih =>
    have hq := h q List.mem_cons_self
    have hrs : ∀ r ∈ rs, P r := fun r hr => h r (List.mem_cons_of_mem _ hr)
    by_cases hk : key q = key row
    · rw [upsert_cons_eq hk, List.forall_mem_cons]
      exact ⟨hmerge q hq hk, hrs⟩
    · rw [upsert_cons_ne hk, List.forall_mem_cons]
      exact ⟨hq, ih hrs⟩

/- Inserting a row that the table holds already, or no row of its key. -/
theorem mem_upsert_same (hself : ∀ a, merge a a = a) {row : R} {rows : List R}
    (hsame : ∀ old ∈ rows, key old = key row → old = row) (r : R) :
    r ∈ upsert key merge row rows ↔ r = row ∨ r ∈ rows := by
  induction rows with
  | nil => simp [upsert]
  | cons q rs ih =>
    by_cases hk : key q = key row
    · obtain rfl := hsame q List.mem_cons_self hk
      rw [upsert_cons_eq rfl, hself, List.mem_cons]
      exact ⟨Or.inr, fun h => h.elim Or.inl id⟩
    · have hrs := ih fun old hold => hsame old (List.mem_cons_of_mem _ hold)
      rw [upsert_cons_ne hk, List.mem_cons, List.mem_cons, hrs]
      exact or_left_comm

theorem keys_upsert (hkey : ∀ a b, key (merge a b) = key a) (row : R) {rows : List R}
    (hn : (rows.map key).Nodup) : ((upsert key merge row rows).map key).Nodup := by
  induction rows with
  | nil => exact List.nodup_singleton _
  | cons q rs ih =>
    rw [List.map_cons, List.nodup_cons] at hn
    by_cases hq : key q = key row
    · rw [upsert_cons_eq hq, List.map_cons, hkey]
      exact List.nodup_cons.mpr hn
    · rw [upsert_cons_ne hq, List.map_cons]
      refine List.nodup_cons.mpr ⟨?_, ih hn.2⟩
      intro hmem
      obtain ⟨r, hr, he⟩ := List.mem_map.mp hmem
      rcases mem_upsert hn.2 hr with rfl | ⟨old, hold, hk, rfl⟩ | ⟨hrs, -⟩
      · exact hq he.symm
      · rw [hkey] at he
        exact hq (he.symm.trans hk)
      · exact hn.1 (List.mem_map.mpr ⟨r, hrs, he⟩)

theorem keys_upsertAll (hkey : ∀ a b, key (merge a b) = key a) (news : List R) {rows : List R}
    (hn : (rows.map key).Nodup) : ((upsertAll key merge news rows).map key).Nodup := by
  induction news generalizing rows with
  | nil => exact hn
  | cons row news ih => exact ih (keys_upsert hkey row hn)

/- Inserting rows, each of which is the only row of its key there will be. -/
theorem mem_upsertAll_same (hself : ∀ a, merge a a = a) {news rows : List R}
    (hsame : ∀ row ∈ news, ∀ old, old ∈ news ∨ old ∈ rows → key old = key row → old = row) (r : R) :
    r ∈ upsertAll key merge news rows ↔ r ∈ news ∨ r ∈ rows := by
  induction news generalizing rows with
  | nil => simp [upsertAll]
  | cons row news ih =>
    have hrow : ∀ q, q ∈ upsert key merge row rows ↔ q = row ∨ q ∈ rows :=
      mem_upsert_same hself fun old hold =>
        hsame row List.mem_cons_self old (Or.inr hold)
    have hrest : ∀ new ∈ news, ∀ old, old ∈ news ∨ old ∈ upsert key merge row rows →
        key old = key new → old = new := by
      intro new hnew old hold
      refine hsame new (List.mem_cons_of_mem _ hnew) old ?_
      rcases hold with hold | hold
      · exact Or.inl (List.mem_cons_of_mem _ hold)
      · rcases (hrow old).mp hold with rfl | hold
        · exact Or.inl List.mem_cons_self
        · exact Or.inr hold
    show r ∈ upsertAll key merge news (upsert key merge row rows) ↔ _
    rw [ih hrest, hrow, List.mem_cons]
    exact ⟨fun h => h.elim (Or.inl ∘ Or.inr) (Or.imp_left Or.inl), fun h =>
      h.elim (fun h => h.elim (Or.inr ∘ Or.inl) Or.inl) (Or.inr ∘ Or.inr)⟩

/- Rows of another group keep their place: a selection that follows the key sees
an upsert as an upsert, or not at all. -/
theorem filter_upsert {p : R → Bool} (hp : ∀ a b, key a = key b → p a = p b)
    (hkey : ∀ a b, key (merge a b) = key a) (row : R) (rows : List R) :
    (upsert key merge row rows).filter p =
      if p row then upsert key merge row (rows.filter p) else rows.filter p := by
  induction rows with
  | nil => cases hrow : p row <;> simp [upsert, hrow]
  | cons r rs ih =>
    by_cases hr : key r = key row
    · have hmerged : p (merge r row) = p row := hp _ _ (by rw [hkey, hr])
      have hold : p r = p row := hp _ _ hr
      rw [upsert_cons_eq hr, List.filter_cons, List.filter_cons, hmerged, hold]
      split
      · rw [upsert_cons_eq hr]
      · rfl
    · rw [upsert_cons_ne hr, List.filter_cons, List.filter_cons, ih]
      split
      · split
        · rw [upsert_cons_ne hr]
        · rfl
      · rfl

section
variable (key) (merge)

theorem filter_upsertAll {p : R → Bool} (hp : ∀ a b, key a = key b → p a = p b)
    (hkey : ∀ a b, key (merge a b) = key a) {news : List R} (hnews : ∀ row ∈ news, p row = true)
    (rows : List R) :
    (upsertAll key merge news rows).filter p = upsertAll key merge news (rows.filter p) := by
  induction news generalizing rows with
  | nil => rfl
  | cons row news ih =>
    show (upsertAll key merge news (upsert key merge row rows)).filter p = _
    rw [ih (fun r hr => hnews r (List.mem_cons_of_mem _ hr)), filter_upsert hp hkey,
      if_pos (hnews row List.mem_cons_self)]
    rfl

end

variable (hkey : ∀ a b, key (merge a b) = key a) (hself : ∀ a, merge a a = a)
  (habsorb : ∀ a b, merge (merge a b) b = merge a b)
include hkey

theorem get?_upsertAll_ne {k : K} {news : List R} (h : ∀ row ∈ news, key row ≠ k)
    (rows : List R) : get? key k (upsertAll key merge news rows) = get? key k rows := by
  induction news generalizing rows with
  | nil => rfl
  | cons row news ih =>
    show get? key k (upsertAll key merge news (upsert key merge row rows)) = get? key k rows
    rw [ih (fun r hr => h r (List.mem_cons_of_mem _ hr)),
      get?_upsert_ne hkey (h row List.mem_cons_self).symm]

include hself habsorb

theorem held_upsert (row : R) (rows : List R) : Held key merge row (upsert key merge row rows) := by
  obtain ⟨r, hr, rfl | ⟨old, rfl⟩⟩ := get?_upsert_self hkey row rows
  · exact ⟨r, hr, hself r⟩
  · exact ⟨_, hr, habsorb old row⟩

theorem held_upsertAll {news : List R} (hn : (news.map key).Nodup) (rows : List R) :
    ∀ row ∈ news, Held key merge row (upsertAll key merge news rows) := by
  induction news generalizing rows with
  | nil => exact fun row h => absurd h List.not_mem_nil
  | cons first news ih =>
    rw [List.map_cons, List.nodup_cons] at hn
    intro row hrow
    rcases List.mem_cons.mp hrow with rfl | hrow
    · have hother : ∀ r ∈ news, key r ≠ key row := by
        intro r hr he
        exact hn.1 (he ▸ List.mem_map_of_mem hr)
      obtain ⟨r, hr, hm⟩ := held_upsert hkey hself habsorb row rows
      refine ⟨r, ?_, hm⟩
      show get? key (key row) (upsertAll key merge news (upsert key merge row rows)) = some r
      rw [get?_upsertAll_ne hkey hother, hr]
    · exact ih hn.2 (upsert key merge first rows) row hrow

theorem upsertAll_eq_self_iff {news : List R} (hn : (news.map key).Nodup) (rows : List R) :
    upsertAll key merge news rows = rows ↔ ∀ row ∈ news, Held key merge row rows := by
  constructor
  · intro he
    have hheld := held_upsertAll hkey hself habsorb hn rows
    rw [he] at hheld
    exact hheld
  · intro h
    induction news with
    | nil => rfl
    | cons row news ih =>
      rw [List.map_cons, List.nodup_cons] at hn
      show upsertAll key merge news (upsert key merge row rows) = rows
      rw [upsert_of_held (h row List.mem_cons_self)]
      exact ih hn.2 fun r hr => h r (List.mem_cons_of_mem _ hr)

end
end KeyedTable
