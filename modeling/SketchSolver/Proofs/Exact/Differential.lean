import Mathlib.LinearAlgebra.Pi
import Mathlib.Tactic.Ring
import SketchSolver.Expr.Derivative
import SketchSolver.Expr.Rename
import SketchSolver.Proofs.Exact.Folding

/-!
# Differentials

In exact arithmetic the partial derivatives of an expression at an assignment are the coordinates of
a linear map, its differential. The differential follows the tree of the expression, so what
renaming and folding do to derivatives is an induction over trees.
-/

namespace SketchSolver

/-- The slopes of an operation in its two operands, by the rules of calculus. -/
noncomputable def BinaryOp.slopes : BinaryOp → ℝ → ℝ → ℝ × ℝ
  | .plus, _, _ => (1, 1)
  | .minus, _, _ => (1, -1)
  | .times, x, y => (y, x)
  | .over, x, y => (y / (y * y), -(x / (y * y)))

/-- The slope of an operation, by the rules of calculus. -/
noncomputable def UnaryOp.slope : UnaryOp → ℝ → ℝ
  | .negate, _ => -1
  | .sqrt, x => 0.5 / √x
  | .square, x => 2.0 * x
  | .sin, x => Real.cos x
  | .cos, x => -Real.sin x
  | .asin, x => 1.0 / √(1.0 - x * x)
  | .acos, x => -1.0 / √(1.0 - x * x)

namespace Expr

/-- What an expression changes by, to first order, when the parameters change from an assignment. -/
noncomputable def differential (v : ParamId → ℝ) : Expr ℝ → (ParamId → ℝ) →ₗ[ℝ] ℝ
  | param p => LinearMap.proj p
  | constant _ => 0
  | binary op a b =>
    (op.slopes (a.eval v) (b.eval v)).1 • a.differential v +
      (op.slopes (a.eval v) (b.eval v)).2 • b.differential v
  | unary op a => op.slope (a.eval v) • a.differential v

variable {e : Expr ℝ} {v v' w w' : ParamId → ℝ} {p : ParamId}

/-- The differential of a parameter is its own change. -/
@[simp] theorem differential_param (v w : ParamId → ℝ) (p : ParamId) :
    (param p : Expr ℝ).differential v w = w p := rfl

/-- The differential of a constant is zero. -/
@[simp] theorem differential_constant (v w : ParamId → ℝ) (x : ℝ) :
    (constant x).differential v w = 0 := rfl

/-- The differential of an operation in two operands, by the chain rule. -/
theorem differential_binary (op : BinaryOp) (a b : Expr ℝ) (v w : ParamId → ℝ) :
    (binary op a b).differential v w =
      (op.slopes (a.eval v) (b.eval v)).1 * a.differential v w +
        (op.slopes (a.eval v) (b.eval v)).2 * b.differential v w := rfl

/-- The differential of an operation in one operand, by the chain rule. -/
theorem differential_unary (op : UnaryOp) (a : Expr ℝ) (v w : ParamId → ℝ) :
    (unary op a).differential v w = op.slope (a.eval v) * a.differential v w := rfl

/-- The differential of a difference of parameters is the difference of their changes. -/
theorem differential_param_sub_param (v w : ParamId → ℝ) (a b : ParamId) :
    (param a - param b : Expr ℝ).differential v w = w a - w b := by
  change (1 : ℝ) * w a + -1 * w b = w a - w b
  ring

/-- The differential depends on the listed parameters only. -/
theorem differential_congr (hv : ∀ p ∈ e.params, v p = v' p) (hw : ∀ p ∈ e.params, w p = w' p) :
    e.differential v w = e.differential v' w' := by
  induction e with
  | param q => exact hw q List.mem_cons_self
  | constant x => rfl
  | binary op a b iha ihb =>
    simp only [params, List.forall_mem_append] at hv hw
    rw [differential_binary, differential_binary, eval_congr hv.1, eval_congr hv.2,
      iha hv.1 hw.1, ihb hv.2 hw.2]
  | unary op a ih =>
    rw [differential_unary, differential_unary, eval_congr (e := a) hv, ih hv hw]

/-- The differential along changes of parameters that do not occur is zero. -/
theorem differential_eq_zero (h : ∀ p ∈ e.params, w p = 0) : e.differential v w = 0 := by
  have hsame : e.differential v w = e.differential v 0 := differential_congr (fun _ _ ↦ rfl) h
  rw [hsame, map_zero]

/-- Substitution renames the assignment and the changes. -/
theorem differential_substitute (m : Table ParamId ParamId) (v w : ParamId → ℝ) (e : Expr ℝ) :
    (e.substitute m).differential v w =
      e.differential (fun p ↦ v (renamed m p)) (fun p ↦ w (renamed m p)) := by
  induction e with
  | param q => rfl
  | constant x => rfl
  | binary op a b iha ihb =>
    simp only [substitute, differential_binary, eval_substitute, iha, ihb]
  | unary op a ih => simp only [substitute, differential_unary, eval_substitute, ih]

/-! ## Partial derivatives -/

private theorem eval_binaryDerivative (op : BinaryOp) (a b da db : Expr ℝ) :
    (op.derivative a b da db).eval v =
      (op.slopes (a.eval v) (b.eval v)).1 * da.eval v +
        (op.slopes (a.eval v) (b.eval v)).2 * db.eval v := by
  cases op with
  | plus =>
    change da.eval v + db.eval v = 1 * da.eval v + 1 * db.eval v
    ring
  | minus =>
    change da.eval v - db.eval v = 1 * da.eval v + -1 * db.eval v
    ring
  | times =>
    change a.eval v * db.eval v + b.eval v * da.eval v =
      b.eval v * da.eval v + a.eval v * db.eval v
    ring
  | «over» =>
    change (da.eval v * b.eval v - a.eval v * db.eval v) / (b.eval v * b.eval v) =
      b.eval v / (b.eval v * b.eval v) * da.eval v +
        -(a.eval v / (b.eval v * b.eval v)) * db.eval v
    ring

private theorem eval_unaryDerivative (op : UnaryOp) (a da : Expr ℝ) :
    (op.derivative a da).eval v = op.slope (a.eval v) * da.eval v := by
  cases op with
  | negate =>
    change -da.eval v = -1 * da.eval v
    ring
  | cos =>
    change -(Real.sin (a.eval v) * da.eval v) = -Real.sin (a.eval v) * da.eval v
    ring
  | _ => rfl

/-- The value of a partial derivative is the differential along the change of its parameter. -/
theorem eval_derivative (e : Expr ℝ) (v : ParamId → ℝ) (p : ParamId) :
    (e.derivative p).eval v = e.differential v (Pi.single p 1) := by
  have hzero : ∀ f : Expr ℝ, f.dependsOn p = false → f.differential v (Pi.single p 1) = 0 := by
    intro f hf
    apply differential_eq_zero
    intro q hq
    apply Pi.single_eq_of_ne
    rintro rfl
    rw [dependsOn_eq_true_iff.mpr hq] at hf
    cases hf
  induction e with
  | param q =>
    by_cases hq : q = p
    · rw [derivative, if_pos hq, eval_constant, differential_param, hq, Pi.single_eq_same]
      exact Arith.real_one
    · rw [derivative, if_neg hq, eval_constant, differential_param, Pi.single_eq_of_ne hq]
      exact Arith.real_zero
  | constant x => exact Arith.real_zero
  | binary op a b iha ihb =>
    unfold derivative
    split
    · rw [eval_binaryDerivative, iha, ihb]
      rfl
    · next hnone =>
      rw [hzero (binary op a b) (Bool.eq_false_iff.mpr hnone)]
      exact Arith.real_zero
  | unary op a ih =>
    unfold derivative
    split
    · rw [eval_unaryDerivative, ih]
      rfl
    · next hnone =>
      rw [hzero (unary op a) (Bool.eq_false_iff.mpr hnone)]
      exact Arith.real_zero

/-- The differential of an expression in one parameter is its derivative times the change. -/
theorem differential_of_referenced_eq_one (h : e.referenced = .one p) (v w : ParamId → ℝ) :
    e.differential v w = (e.derivative p).eval v * w p := by
  have hw : e.differential v w = e.differential v (w p • Pi.single p (1 : ℝ)) := by
    apply differential_congr (fun _ _ ↦ rfl)
    intro q hq
    rw [(referenced_eq_one_iff.mp h).2 q hq]
    simp
  rw [hw, map_smul, eval_derivative, smul_eq_mul, mul_comm]

/-! ## Folding -/

/-- Folding keeps the value in exact arithmetic. -/
theorem eval_fold (e : Expr ℝ) : e.fold.eval v = e.eval v :=
  eval_fold_of_laws Arith.foldingLaws_real v e

/-- An expression that is recognised as zero has the value zero. -/
theorem eval_of_isZero (h : e.isZero = true) : e.eval v = 0 := by
  unfold isZero at h
  split at h
  · rw [eval_constant, Arith.real_beq.mp h, Arith.real_zero]
  · cases h

end Expr

end SketchSolver
