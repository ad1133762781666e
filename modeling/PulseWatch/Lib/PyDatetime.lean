import Mathlib.Algebra.Order.Group.Int
import Mathlib.Tactic.Basic

/-!
# Python's `datetime`

A reading of the wall clock between the years 1 and 9999, in microseconds since the
first of January 1970, naive or with its offset from UTC. A `timedelta` is a number of
microseconds; the difference of two datetimes always fits one.
-/

namespace PyDatetime

inductive PyError where
  | typeError
  | overflowError
  deriving DecidableEq, Repr

/-- `datetime.min` and `datetime.max`. -/
def minWall : ℤ := -62135596800000000
def maxWall : ℤ := 253402300799999999

def InRange (wall : ℤ) : Prop := minWall ≤ wall ∧ wall ≤ maxWall

instance (wall : ℤ) : Decidable (InRange wall) := inferInstanceAs (Decidable (_ ∧ _))

structure Datetime where
  wall : ℤ
  offset : Option ℤ
  inRange : InRange wall
  offsetOk : ∀ o ∈ offset, -86400000000 < o ∧ o < 86400000000

namespace Datetime

def aware (d : Datetime) : Bool := d.offset.isSome

/- The instant of an aware datetime, and of a naive one that is meant in UTC; the
instants reach beyond the years a datetime can show. -/
def utc (d : Datetime) : ℤ := d.wall - d.offset.getD 0

/-- `d.replace(tzinfo=UTC)`. -/
def replaceUtc (d : Datetime) : Datetime :=
  { d with offset := some 0, offsetOk := by simp }

/-- `datetime.now(UTC)` at a moment. -/
def nowUtc (t : {t : ℤ // InRange t}) : Datetime := ⟨t.1, some 0, t.2, by simp⟩

/-- `a - b`; naive and aware ones do not mix. -/
def sub (a b : Datetime) : Except PyError ℤ :=
  match a.offset, b.offset with
  | none, none => .ok (a.wall - b.wall)
  | some o, some p => .ok ((a.wall - o) - (b.wall - p))
  | _, _ => .error .typeError

/-- `a <= b`. -/
def le (a b : Datetime) : Except PyError Bool :=
  match a.offset, b.offset with
  | none, none => .ok (a.wall ≤ b.wall)
  | some o, some p => .ok (a.wall - o ≤ b.wall - p)
  | _, _ => .error .typeError

/-- `d - timedelta`, on the wall clock. -/
def subDelta (d : Datetime) (delta : ℤ) : Except PyError Datetime :=
  if h : InRange (d.wall - delta) then .ok { d with wall := d.wall - delta, inRange := h }
  else .error .overflowError

variable {a b d : Datetime}

theorem utc_naive (h : d.aware = false) : d.utc = d.wall := by
  cases ho : d.offset with
  | none => simp [utc, ho]
  | some o => simp [aware, ho] at h

@[simp] theorem utc_replaceUtc : d.replaceUtc.utc = d.wall := by
  simp [utc, replaceUtc]

@[simp] theorem aware_replaceUtc : d.replaceUtc.aware = true := rfl

theorem sub_eq (a b : Datetime) :
    a.sub b = if a.aware = b.aware then .ok (a.utc - b.utc) else .error .typeError := by
  unfold sub utc aware
  cases a.offset <;> cases b.offset <;> simp

theorem le_eq (a b : Datetime) :
    a.le b = if a.aware = b.aware then .ok (decide (a.utc ≤ b.utc)) else .error .typeError := by
  unfold le utc aware
  cases a.offset <;> cases b.offset <;> simp

/- The difference is taken as an instant as well, whatever the offset. -/
theorem subDelta_ok {delta : ℤ} (h : a.subDelta delta = .ok d) :
    d.aware = a.aware ∧ d.utc = a.utc - delta := by
  unfold subDelta at h
  split at h
  · obtain rfl := Except.ok.inj h
    refine ⟨rfl, ?_⟩
    simp only [utc]
    omega
  · cases h

end Datetime

end PyDatetime
