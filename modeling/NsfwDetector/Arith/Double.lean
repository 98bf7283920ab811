import Mathlib.Algebra.Order.Floor.Ring
import Mathlib.Data.Int.Log
import Mathlib.Data.Rat.Floor

/-!
# Binary floating-point numbers

A `binary64` number by its value: the sign of a zero and the payload of a NaN are left out.
-/

/-- A number in `binary64`. -/
inductive Double
  | finite (value : ℚ)
  | infinity (negative : Bool)
  | nan
  deriving DecidableEq

namespace Double

/-! ## Rounding -/

/-- The nearest integer, and of two the even one. -/
def roundHalfEven (x : ℚ) : ℤ :=
  if x - ⌊x⌋ < 1 / 2 then ⌊x⌋
  else if 1 / 2 < x - ⌊x⌋ then ⌊x⌋ + 1
  else if ⌊x⌋ % 2 = 0 then ⌊x⌋ else ⌊x⌋ + 1

/-- The exponent of the last place: 53 bits, or fewer near zero. -/
def lastPlace (x : ℚ) : ℤ := max (Int.log 2 |x| - 52) (-1074)

def nearest (x : ℚ) : ℚ := roundHalfEven (x / 2 ^ lastPlace x) * 2 ^ lastPlace x

/-- From here on a number is rounded to an infinity. -/
def threshold : ℚ := 2 ^ 1024 - 2 ^ 970

def ofRat (x : ℚ) : Double :=
  if |x| < threshold then .finite (nearest x) else .infinity (x < 0)

/-! ## Operations -/

def isZero : Double → Bool
  | finite value => value = 0
  | _ => false

/-- The integer part. -/
def truncate (value : ℚ) : ℤ := if 0 ≤ value then ⌊value⌋ else ⌈value⌉

/-- `x / y`, for a `y` that is not zero. -/
def div : Double → Double → Double
  | nan, _ | _, nan => nan
  | infinity _, infinity _ => nan
  | infinity negative, finite y => infinity (negative != decide (y < 0))
  | finite _, infinity _ => finite 0
  | finite x, finite y => ofRat (x / y)

/-- `x * y` -/
def mul : Double → Double → Double
  | nan, _ | _, nan => nan
  | infinity negative, infinity negative' => infinity (negative != negative')
  | infinity negative, finite y | finite y, infinity negative =>
    if y = 0 then nan else infinity (negative != decide (y < 0))
  | finite x, finite y => ofRat (x * y)

/-- `x < y` -/
def lt : Double → Double → Bool
  | nan, _ | _, nan => false
  | finite x, finite y => x < y
  | finite _, infinity negative => !negative
  | infinity negative, finite _ => negative
  | infinity negative, infinity negative' => negative && !negative'

/-- `x <= y` -/
def le : Double → Double → Bool
  | nan, _ | _, nan => false
  | finite x, finite y => x ≤ y
  | finite _, infinity negative => !negative
  | infinity negative, finite _ => negative
  | infinity negative, infinity negative' => negative || !negative'

theorem ofRat_cases (x : ℚ) : |x| < threshold ∧ ofRat x = .finite (nearest x) ∨
    threshold ≤ |x| ∧ ofRat x = .infinity (x < 0) := by
  rcases lt_or_ge |x| threshold with h | h
  · exact .inl ⟨h, if_pos h⟩
  · exact .inr ⟨h, if_neg (not_lt.mpr h)⟩

end Double
