import Mathlib.Data.Rat.Defs
import Mathlib.Algebra.Order.Ring.Rat

/-!
# Python floats under comparison

A finite float is the rational it denotes; comparing floats (or a float with
an int) compares these rationals exactly. Every comparison with `nan` is false
except `!=`. There is no negative zero: `-0.0` compares as `0.0` does, and its text
differs by the sign alone.
-/

inductive PyFloat where
  | fin (q : ℚ)
  | posInf
  | negInf
  | nan
  deriving DecidableEq, Repr

namespace PyFloat

instance : Inhabited PyFloat := ⟨nan⟩

def lt : PyFloat → PyFloat → Bool
  | nan, _ | _, nan => false
  | fin a, fin b => decide (a < b)
  | posInf, _ | _, negInf => false
  | _, posInf | negInf, _ => true

def eq : PyFloat → PyFloat → Bool
  | nan, _ | _, nan => false
  | a, b => decide (a = b)

def le (a b : PyFloat) : Bool := lt a b || eq a b

/-- An `int` meeting a float in a comparison. -/
def ofInt (n : ℤ) : PyFloat := fin n

/- `str` of a float. The longest text is that of `-2.2250738585072014e-308`. -/
structure Str where
  toString : PyFloat → String
  short : ∀ x, (toString x).toList.length ≤ 24
  plain : ∀ x, '\x00' ∉ (toString x).toList

end PyFloat
