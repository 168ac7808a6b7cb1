import SketchSolver.Decimal.Rounding

/-!
# Double precision numbers as exact values

A finite double is a whole number times a power of two. `Binary.ofFloat` takes a double apart and
`nearestFloat` finds the double nearest to a fraction, both in whole number arithmetic.
-/

namespace SketchSolver.Decimal

/-- What a double precision number stands for. -/
inductive Binary
  /-- No number. -/
  | nan
  /-- Beyond all numbers, in one direction. -/
  | infinite (negative : Bool)
  /-- A sign, a whole number and the power of two that it is multiplied by. -/
  | finite (negative : Bool) (mantissa : Nat) (exponent : Int)
  deriving DecidableEq, Repr

/-- The value of a double, read off its 64 bits: a sign, eleven bits of exponent and 52 bits of
fraction. -/
def Binary.ofFloat (x : Float) : Binary :=
  let bits := x.toBits.toNat
  let negative := decide (Nat.pow 2 63 ≤ bits)
  let biased : Nat := bits / Nat.pow 2 52 % Nat.pow 2 11
  let fraction : Nat := bits % Nat.pow 2 52
  if biased = 2047 then
    if fraction = 0 then .infinite negative else .nan
  else if biased = 0 then .finite negative fraction (-1074)
  else .finite negative (Nat.pow 2 52 + fraction) ((biased : Int) - 1075)

/-- The fraction that a whole number times a power of two is. -/
def Binary.fraction (mantissa : Nat) (exponent : Int) : Fraction :=
  Fraction.scale ⟨mantissa, 1⟩ 2 exponent

/-- The bits of the double nearest to a positive fraction, without the sign: the fraction is
counted in units of the spacing of doubles at its size, and a count that reaches the next power of
two carries into the exponent. -/
def nearestBits (q : Fraction) : Nat :=
  let guess : Int := (q.num.log2 : Int) - (q.den.log2 : Int) - 52
  let scaled := q.scale 2 (-guess)
  let exact := if scaled.num / scaled.den < Nat.pow 2 52 then guess - 1 else guess
  let exponent := max exact (-1074)
  let bits := (exponent + 1074).toNat * Nat.pow 2 52 + (q.scale 2 (-exponent)).round
  min bits (2047 * Nat.pow 2 52)

/-- The double nearest to a fraction with a sign; what is too large becomes infinite. -/
def nearestFloat (negative : Bool) (q : Fraction) : Float :=
  let bits := if q.num = 0 then 0 else nearestBits q
  Float.ofBits (UInt64.ofNat (if negative then Nat.pow 2 63 + bits else bits))

/-- The double nearest to a whole number times a power of ten. Beyond the range of doubles the
power itself is not computed. -/
def floatOfDecimal (negative : Bool) (digits : Nat) (exponent : Int) : Float :=
  let size := (digitCount digits : Int) + exponent
  if digits = 0 ∨ size < -400 then nearestFloat negative ⟨0, 1⟩
  else if 400 < size then nearestFloat negative ⟨Nat.pow 2 1100, 1⟩
  else nearestFloat negative (Fraction.scale ⟨digits, 1⟩ 10 exponent)

end SketchSolver.Decimal
