import Mathlib.Tactic.Ring
import Mathlib.Tactic.Linarith
import Mathlib.Algebra.Order.Group.Unbundled.Int

/-!
# Aligned windows and a periodic task with jitter

Time is cut into windows `[j * P, (j + 1) * P)`. A task is due at `φ + k * P` and
runs a delay in `[0, P)` later. The delay carries a run over at most one window
boundary; consecutive runs leave a window out exactly when the second is carried
over a boundary and the first was not.
-/

namespace Windows

/-- The window an instant lies in. -/
def index (P t : ℤ) : ℤ := t / P

section
variable {P : ℤ} (hP : 0 < P)
include hP

theorem index_eq_iff (t j : ℤ) : index P t = j ↔ j * P ≤ t ∧ t < (j + 1) * P := by
  unfold index
  constructor
  · rintro rfl
    exact ⟨Int.ediv_mul_le t hP.ne', Int.lt_ediv_add_one_mul_self t hP⟩
  · rintro ⟨hlow, hhigh⟩
    have h1 := Int.le_ediv_of_mul_le hP hlow
    have h2 := Int.ediv_lt_of_lt_mul hP hhigh
    omega

theorem index_mono {s t : ℤ} (h : s ≤ t) : index P s ≤ index P t :=
  Int.ediv_le_ediv hP h

end

section
variable (P φ : ℤ) (d : ℕ → ℤ)

def time (k : ℕ) : ℤ := φ + k * P + d k

/- The delay of run `k` carries it over a window boundary. -/
def Carried (k : ℕ) : Prop := P ≤ φ % P + d k

instance (k : ℕ) : Decidable (Carried P φ d k) := inferInstanceAs (Decidable (_ ≤ _))

end

section
variable {P : ℤ} {d : ℕ → ℤ} (φ : ℤ) (hP : 0 < P) (hd : ∀ k, 0 ≤ d k ∧ d k < P)
include hP hd

theorem index_time (k : ℕ) :
    index P (time P φ d k) = φ / P + k + if Carried P φ d k then 1 else 0 := by
  have hsplit := Int.mul_ediv_add_emod φ P
  have hlow := Int.emod_nonneg φ hP.ne'
  have hhigh := Int.emod_lt_of_pos φ hP
  obtain ⟨hd0, hd1⟩ := hd k
  rw [index_eq_iff hP]
  unfold time
  split
  · next hc =>
    unfold Carried at hc
    constructor <;> nlinarith
  · next hc =>
    unfold Carried at hc
    constructor <;> nlinarith

theorem time_lt {i k : ℕ} (h : i < k) : time P φ d i < time P φ d k := by
  have hstep : ((i : ℤ) + 1) * P ≤ k * P := by
    refine mul_le_mul_of_nonneg_right ?_ hP.le
    omega
  have hi := (hd i).2
  have hk := (hd k).1
  unfold time
  linarith

theorem time_mono {i k : ℕ} (h : i ≤ k) : time P φ d i ≤ time P φ d k := by
  rcases Nat.eq_or_lt_of_le h with rfl | hlt
  · exact le_refl _
  · exact (time_lt φ hP hd hlt).le

theorem index_time_mono {i k : ℕ} (h : i ≤ k) :
    index P (time P φ d i) ≤ index P (time P φ d k) := index_mono hP (time_mono φ hP hd h)

/- Runs `0..n` visit every window between their first and their last one exactly
when no run is carried over a boundary right after one that is not. -/
theorem visited_iff (n : ℕ) :
    (∀ j, index P (time P φ d 0) ≤ j → j ≤ index P (time P φ d n) →
        ∃ k ≤ n, index P (time P φ d k) = j) ↔
      ∀ k < n, Carried P φ d (k + 1) → Carried P φ d k := by
  constructor
  · intro h k hk hnext
    by_contra hthis
    have hk0 := index_time φ hP hd k
    have hk1 := index_time φ hP hd (k + 1)
    rw [if_neg hthis] at hk0
    rw [if_pos hnext] at hk1
    have hfirst := index_time_mono φ hP hd (Nat.zero_le k)
    have hlast : index P (time P φ d (k + 1)) ≤ index P (time P φ d n) :=
      index_time_mono φ hP hd hk
    push_cast at hk1
    obtain ⟨i, -, hi⟩ := h (index P (time P φ d k) + 1) (by omega) (by omega)
    rcases Nat.lt_or_ge k i with hlt | hle
    · have hup : index P (time P φ d (k + 1)) ≤ index P (time P φ d i) :=
        index_time_mono φ hP hd hlt
      omega
    · have hdown := index_time_mono φ hP hd hle
      omega
  · intro h j hlow hhigh
    -- the first run that is not before window `j`
    induction n with
    | zero => exact ⟨0, Nat.le_refl 0, le_antisymm hlow hhigh⟩
    | succ n ih =>
      by_cases hj : j ≤ index P (time P φ d n)
      · obtain ⟨k, hk, hkj⟩ := ih (fun k hk => h k (Nat.lt_succ_of_lt hk)) hj
        exact ⟨k, Nat.le_succ_of_le hk, hkj⟩
      · refine ⟨n + 1, Nat.le_refl _, ?_⟩
        have hn := index_time φ hP hd n
        have hn1 := index_time φ hP hd (n + 1)
        have hcarry := h n (Nat.lt_succ_self n)
        push_cast at hn1
        split at hn1
        · next hc =>
          rw [if_pos (hcarry hc)] at hn
          omega
        · split at hn <;> omega

end

end Windows
