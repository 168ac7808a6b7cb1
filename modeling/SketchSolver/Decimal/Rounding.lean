/-!
# Exact fractions and rounding

Numbers are written and read by way of exact fractions of natural numbers. A quotient is rounded
to the nearest whole number, and a quotient half way between two goes to the even one.
-/

namespace SketchSolver.Decimal

/-- The whole number nearest to a quotient; a half goes to the even neighbour. -/
def roundDiv (num den : Nat) : Nat :=
  let q := num / den
  let r := num % den
  if 2 * r < den then q
  else if den < 2 * r then q + 1
  else if q % 2 = 0 then q else q + 1

/-- A fraction of two natural numbers. -/
structure Fraction where
  /-- What is divided. -/
  num : Nat
  /-- What it is divided by. -/
  den : Nat

namespace Fraction

/-- The fraction times a power of a whole number, whose exponent may be negative. -/
def scale (q : Fraction) (base : Nat) (exponent : Int) : Fraction :=
  if 0 ≤ exponent then ⟨q.num * Nat.pow base exponent.toNat, q.den⟩
  else ⟨q.num, q.den * Nat.pow base (-exponent).toNat⟩

/-- The nearest whole number. -/
def round (q : Fraction) : Nat := roundDiv q.num q.den

end Fraction

/-- The number of decimal digits of a whole number, which is one for zero. -/
def digitCount (n : Nat) : Nat := (Nat.toDigits 10 n).length

/-- The exponent of the power of ten that a positive fraction reaches and not the next one. -/
def leadingExponent (q : Fraction) : Int :=
  if q.den ≤ q.num then (digitCount (q.num / q.den) : Int) - 1
  else -(digitCount ((q.den + q.num - 1) / q.num - 1) : Int)

end SketchSolver.Decimal
