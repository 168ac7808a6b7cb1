/-!
# Scalars

Every equation, vector and solver step of this library is written over one class of scalars, so
that one definition runs on double precision numbers and is reasoned about over any other number
system. The class asks for operations only. It states no law: the laws that a theorem needs are
hypotheses of that theorem.
-/

namespace SketchSolver

/-- Scalars with field operations, elementary functions and decidable comparison. Comparison
follows the number system at hand, so a value that is not a number may differ from itself. -/
class Arith (R : Type) extends Add R, Sub R, Mul R, Div R, Neg R, OfScientific R, LT R, LE R,
    BEq R where
  /-- The strict order can be tested. -/
  decLt (a b : R) : Decidable (a < b)
  /-- The order can be tested. -/
  decLe (a b : R) : Decidable (a ≤ b)
  /-- Square root. -/
  sqrt : R → R
  /-- Sine of an angle in radians. -/
  sin : R → R
  /-- Cosine of an angle in radians. -/
  cos : R → R
  /-- Inverse sine, in radians. -/
  asin : R → R
  /-- Inverse cosine, in radians. -/
  acos : R → R
  /-- Angle of the point whose second coordinate comes first, in radians. -/
  atan2 : R → R → R
  /-- Absolute value. -/
  abs : R → R
  /-- Whether the value is the result of an undefined operation. -/
  isNaN : R → Bool
  /-- Whether the value is a number within range. -/
  isFinite : R → Bool
  /-- Half the circumference of the unit circle. -/
  pi : R
  /-- The value that stands for an undefined result. -/
  nan : R
  /-- A value above every number within range. -/
  infinity : R

namespace Arith

variable {R : Type} [Arith R]

instance : DecidableLT R := Arith.decLt

instance : DecidableLE R := Arith.decLe

/-- The greater of two scalars. An undefined operand is ignored. -/
def larger (a b : R) : R :=
  if isNaN a then b else if isNaN b then a else if a < b then b else a

/-- The smaller of two scalars. An undefined operand is ignored. -/
def smaller (a b : R) : R :=
  if isNaN a then b else if isNaN b then a else if b < a then b else a

/-- The scalar moved into the interval from `low` to `high`. An undefined scalar stays so. -/
def clamp (x low high : R) : R :=
  if x < low then low else if high < x then high else x

/-- The square of a scalar. -/
def square (x : R) : R := x * x

end Arith

/-- Double precision numbers. -/
instance : Arith Float where
  decLt := inferInstance
  decLe := inferInstance
  sqrt := Float.sqrt
  sin := Float.sin
  cos := Float.cos
  asin := Float.asin
  acos := Float.acos
  atan2 := Float.atan2
  abs := Float.abs
  isNaN := Float.isNaN
  isFinite := Float.isFinite
  pi := 3.141592653589793
  nan := 0.0 / 0.0
  infinity := 1.0 / 0.0

/-- In double precision, zero is a number within range. -/
theorem isFinite_zero : Arith.isFinite (0.0 : Float) = true := by decide

/-- In double precision, zero is within every positive bound. -/
theorem abs_zero_le_of_pos {x : Float} (h : 0.0 < x) : Arith.abs (0.0 : Float) ≤ x := by
  have hzero : Arith.abs (0.0 : Float) = 0.0 := by decide
  have hlt : (Float.toModel 0.0).unpack.lt x.toModel.unpack = true := of_decide_eq_true h
  have hcompare : (Float.toModel 0.0).unpack.compare x.toModel.unpack = some .lt := eq_of_beq hlt
  have hle : (Float.toModel 0.0).unpack.le x.toModel.unpack = true := by
    change ((Float.toModel 0.0).unpack.compare x.toModel.unpack).any Ordering.isLE = true
    rw [hcompare]
    rfl
  rw [hzero]
  exact decide_eq_true hle

end SketchSolver
