import Mathlib.Data.List.Basic

/-!
# PostgreSQL character columns

What assigning a text value to a column does: a NUL character is refused
always, and `VARCHAR(n)` refuses a value longer than `n` characters unless the
excess is made of spaces, which it cuts off. `none` is the statement's error.
-/

namespace PgText

def text (s : String) : Option String :=
  if '\x00' ∈ s.toList then none else some s

def varchar (n : ℕ) (s : String) : Option String :=
  if '\x00' ∈ s.toList then none
  else if s.toList.length ≤ n then some s
  else if (s.toList.drop n).all (· = ' ') then some (String.ofList (s.toList.take n))
  else none

/-- A nullable column. -/
def varchar? (n : ℕ) : Option String → Option (Option String)
  | none => some none
  | some s => (varchar n s).map some

theorem varchar_length {n : ℕ} {s t : String} (h : varchar n s = some t) :
    t.toList.length ≤ n := by
  unfold varchar at h
  split at h
  · cases h
  · split at h
    · cases h
      assumption
    · split at h
      · cases h
        simp only [String.toList_ofList, List.length_take]
        exact Nat.min_le_left _ _
      · cases h

/- A value that fits is stored as it is. -/
theorem varchar_fits {n : ℕ} {s t : String} (h : varchar n s = some t) (hn : s.toList.length ≤ n) :
    t = s := by
  unfold varchar at h
  split at h
  · cases h
  · exact (Option.some.inj h).symm

/- A value that is too long and does not end in a space is refused. -/
theorem varchar_refused {n : ℕ} {s : String} {c : Char} (hn : n < s.toList.length)
    (hlast : s.toList.getLast? = some c) (hc : c ≠ ' ') : varchar n s = none := by
  have hexcess : ¬ (s.toList.drop n).all (· = ' ') = true := by
    intro hall
    have hne : s.toList.drop n ≠ [] := by
      rw [Ne, List.drop_eq_nil_iff]
      omega
    have hlastmem := List.getLast_mem hne
    have hsame : (s.toList.drop n).getLast hne = c := by
      rw [List.getLast_drop, ← Option.some.injEq, ← List.getLast?_eq_some_getLast, hlast]
    rw [hsame] at hlastmem
    exact hc (of_decide_eq_true (List.all_eq_true.mp hall c hlastmem))
  unfold varchar
  rw [if_neg (Nat.not_le.mpr hn), if_neg hexcess, ite_self]

/- A stored value is stored as it is. -/
theorem varchar_stored {n : ℕ} {s t : String} (h : varchar n s = some t) :
    varchar n t = some t := by
  have hlen := varchar_length h
  have hplain : '\x00' ∉ t.toList := by
    unfold varchar at h
    split at h
    · cases h
    · next hnul =>
      split at h
      · obtain rfl := Option.some.inj h
        exact hnul
      · split at h
        · obtain rfl := Option.some.inj h
          rw [String.toList_ofList]
          exact fun hin => hnul (List.mem_of_mem_take hin)
        · cases h
  rw [varchar, if_neg hplain, if_pos hlen]

theorem varchar?_stored {n : ℕ} {s t : Option String} (h : varchar? n s = some t) :
    varchar? n t = some t := by
  cases s with
  | none =>
    obtain rfl := Option.some.inj h
    rfl
  | some s =>
    obtain ⟨u, hu, rfl⟩ := Option.map_eq_some_iff.mp h
    rw [varchar?, varchar_stored hu]
    rfl

/-- A value stored in a `VARCHAR(n)` column. -/
abbrev VarChar (n : ℕ) := { s : String // s.toList.length ≤ n }

/- The stored value, or the statement's error. -/
def VarChar.store (n : ℕ) (s : String) : Option (VarChar n) :=
  match h : varchar n s with
  | none => none
  | some t => some ⟨t, varchar_length h⟩

theorem VarChar.store_none {n : ℕ} {s : String} (h : varchar n s = none) :
    VarChar.store n s = none := by
  unfold VarChar.store
  split
  · rfl
  · next he =>
    rw [h] at he
    cases he

theorem VarChar.store_some {n : ℕ} {s t : String} (h : varchar n s = some t) :
    ∃ v, VarChar.store n s = some v ∧ v.val = t := by
  unfold VarChar.store
  split
  · next he =>
    rw [h] at he
    cases he
  · next u he =>
    rw [h] at he
    exact ⟨_, rfl, (Option.some.inj he).symm⟩

end PgText
