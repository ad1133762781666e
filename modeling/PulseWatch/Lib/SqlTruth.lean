import Mathlib.Data.List.Basic
import Mathlib.Data.List.Count

/-!
# Conditions of SQL

A condition is true, false or unknown (`none`); comparing a NULL is unknown, and WHERE
keeps the rows for which the condition is true.
-/

namespace Sql

abbrev Truth := Option Bool

def isTrue (t : Truth) : Bool := t == some true

def and : Truth → Truth → Truth
  | some true, t => t
  | some false, _ => some false
  | none, some false => some false
  | none, _ => none

def or : Truth → Truth → Truth
  | some false, t => t
  | some true, _ => some true
  | none, some true => some true
  | none, _ => none

variable {α β : Type*}

/-- A comparison of a nullable column with a value. -/
def compare (p : β → Bool) (column : Option β) : Truth := column.map p

/-- `IS NULL`. -/
def isNull (column : Option β) : Truth := some column.isNone

/-- `SELECT count(*) ... WHERE`. -/
def count (condition : α → Truth) (rows : List α) : ℕ := rows.countP fun r => isTrue (condition r)

@[simp] theorem isTrue_some (b : Bool) : isTrue (some b) = b := by cases b <;> rfl

@[simp] theorem isTrue_none : isTrue none = false := rfl

@[simp] theorem isTrue_and (s t : Truth) : isTrue (and s t) = (isTrue s && isTrue t) := by
  rcases s with _ | _ | _ <;> rcases t with _ | _ | _ <;> rfl

@[simp] theorem isTrue_or (s t : Truth) : isTrue (or s t) = (isTrue s || isTrue t) := by
  rcases s with _ | _ | _ <;> rcases t with _ | _ | _ <;> rfl

@[simp] theorem isTrue_isNull (column : Option β) : isTrue (isNull column) = column.isNone :=
  isTrue_some _

@[simp] theorem isTrue_compare (p : β → Bool) (column : Option β) :
    isTrue (compare p column) = column.any p := by
  cases column with
  | none => rfl
  | some v => exact isTrue_some (p v)

theorem countP_cons (p : α → Bool) (r : α) (rows : List α) :
    (r :: rows).countP p = rows.countP p + (p r).toNat := by
  rw [List.countP_cons]
  cases p r <;> rfl

/- A condition that falls into two that exclude each other. -/
theorem countP_add {p q q' : α → Bool} (h : ∀ r, (p r).toNat = (q r).toNat + (q' r).toNat)
    (rows : List α) : rows.countP p = rows.countP q + rows.countP q' := by
  induction rows with
  | nil => rfl
  | cons r rows ih =>
    rw [countP_cons, countP_cons, countP_cons, ih, h r]
    omega

/- Three conditions of which each row meets exactly one count every row once. -/
theorem count_partition {c d e : α → Truth} {rows : List α}
    (h : ∀ r ∈ rows, (isTrue (c r)).toNat + (isTrue (d r)).toNat + (isTrue (e r)).toNat = 1) :
    count c rows + count d rows + count e rows = rows.length := by
  induction rows with
  | nil => rfl
  | cons r rows ih =>
    have hone := h r List.mem_cons_self
    have hrest := ih fun r' hr' => h r' (List.mem_cons_of_mem _ hr')
    unfold count at hrest ⊢
    rw [countP_cons, countP_cons, countP_cons, List.length_cons]
    omega

end Sql
