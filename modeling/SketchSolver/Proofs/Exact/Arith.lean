import Mathlib.Analysis.SpecialFunctions.Trigonometric.Inverse
import Mathlib.Analysis.SpecialFunctions.Complex.Arg
import SketchSolver.Arith

/-!
# Exact arithmetic

The real numbers as scalars. Every operation is exact, and an operation without a result gives
zero: a quotient by zero, and the square root of a negative number. No real number is undefined or
out of range, so the values that stand for these are not distinguished from others.
-/

namespace SketchSolver

/-- The real numbers. -/
noncomputable instance Arith.real : Arith ℝ where
  decLt := inferInstance
  decLe := inferInstance
  sqrt := Real.sqrt
  sin := Real.sin
  cos := Real.cos
  asin := Real.arcsin
  acos := Real.arccos
  atan2 y x := Complex.arg ⟨x, y⟩
  abs x := |x|
  isNaN _ := false
  isFinite _ := true
  pi := Real.pi
  nan := 0
  infinity := 0

namespace Arith

/-- The literal zero of exact arithmetic is zero. -/
theorem real_zero : (@OfScientific.ofScientific ℝ Arith.real.toOfScientific 0 true 1) = 0 := by
  change ((0.0 : ℝ)) = 0
  norm_num

/-- The literal one of exact arithmetic is one. -/
theorem real_one : (@OfScientific.ofScientific ℝ Arith.real.toOfScientific 10 true 1) = 1 := by
  change ((1.0 : ℝ)) = 1
  norm_num

/-- The literal two of exact arithmetic is two. -/
theorem real_two : (@OfScientific.ofScientific ℝ Arith.real.toOfScientific 20 true 1) = 2 := by
  change ((2.0 : ℝ)) = 2
  norm_num

/-- The literal half of exact arithmetic is a half. -/
theorem real_half : (@OfScientific.ofScientific ℝ Arith.real.toOfScientific 5 true 1) = 1 / 2 := by
  change ((0.5 : ℝ)) = 1 / 2
  norm_num

/-- The literal zero of exact arithmetic is within every bound that is not negative. -/
theorem real_abs_zero_le {x : ℝ} (hx : 0 ≤ x) :
    Arith.abs (@OfScientific.ofScientific ℝ Arith.real.toOfScientific 0 true 1) ≤ x := by
  rw [real_zero]
  exact abs_zero.trans_le hx

/-- Two real numbers are the same exactly if they compare as the same. -/
theorem real_beq {x y : ℝ} : (x == y) = true ↔ x = y := by
  simp

end Arith

end SketchSolver
