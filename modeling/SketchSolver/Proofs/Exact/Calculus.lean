import Mathlib
import SketchSolver.Proofs.Exact.Differential

/-!
# Derivatives are derivatives

The rules by which an expression is differentiated are those of calculus. Where no square root is
taken of zero or less, nothing is divided by zero and inverse sines and cosines are taken strictly
inside their range, an expression changes along every differentiable motion of the parameters at the
rate of its differential. Its partial derivatives are then the slopes of its value in one parameter.
-/

namespace SketchSolver

/-! ## Operations -/

/-- Whether an operation is smooth at its second operand. -/
def BinaryOp.IsRegular : BinaryOp → ℝ → Prop
  | .over, y => y ≠ 0
  | _, _ => True

/-- Whether an operation is smooth at its operand. -/
def UnaryOp.IsRegular : UnaryOp → ℝ → Prop
  | .sqrt, x => 0 < x
  | .asin, x => -1 < x ∧ x < 1
  | .acos, x => -1 < x ∧ x < 1
  | _, _ => True

variable {f g : ℝ → ℝ} {f' g' t : ℝ}

/-- An operation on changing operands changes at the rate that its slopes give. -/
theorem BinaryOp.hasDerivAt_apply (op : BinaryOp) (h : op.IsRegular (g t))
    (hf : HasDerivAt f f' t) (hg : HasDerivAt g g' t) :
    HasDerivAt (fun u ↦ op.apply (f u) (g u))
      ((op.slopes (f t) (g t)).1 * f' + (op.slopes (f t) (g t)).2 * g') t := by
  cases op with
  | plus =>
    refine (hf.add hg).congr_deriv ?_
    change f' + g' = 1 * f' + 1 * g'
    ring
  | minus =>
    refine (hf.sub hg).congr_deriv ?_
    change f' - g' = 1 * f' + -1 * g'
    ring
  | times =>
    refine (hf.mul hg).congr_deriv ?_
    change f' * g t + f t * g' = g t * f' + f t * g'
    ring
  | «over» =>
    refine (hf.div hg h).congr_deriv ?_
    change (f' * g t - f t * g') / g t ^ 2 = g t / (g t * g t) * f' + -(f t / (g t * g t)) * g'
    ring

private theorem sqrt_one_sub_square (x : ℝ) : √(1.0 - x * x) = √(1 - x ^ 2) := by
  rw [Arith.real_one, sq]

/-- An operation on a changing operand changes at the rate that its slope gives. -/
theorem UnaryOp.hasDerivAt_apply (op : UnaryOp) (h : op.IsRegular (f t))
    (hf : HasDerivAt f f' t) :
    HasDerivAt (fun u ↦ op.apply (f u)) (op.slope (f t) * f') t := by
  cases op with
  | negate =>
    refine hf.neg.congr_deriv ?_
    change -f' = -1 * f'
    ring
  | sqrt =>
    refine (hf.sqrt (ne_of_gt h)).congr_deriv ?_
    change f' / (2 * √(f t)) = 0.5 / √(f t) * f'
    rw [Arith.real_half]
    ring
  | square =>
    refine (hf.mul hf).congr_deriv ?_
    change f' * f t + f t * f' = 2.0 * f t * f'
    rw [Arith.real_two]
    ring
  | sin => exact hf.sin
  | cos => exact hf.cos
  | asin =>
    refine ((Real.hasDerivAt_arcsin (ne_of_gt h.1) (ne_of_lt h.2)).comp t hf).congr_deriv ?_
    change 1 / √(1 - f t ^ 2) * f' = 1.0 / √(1.0 - f t * f t) * f'
    rw [sqrt_one_sub_square, Arith.real_one]
  | acos =>
    refine ((Real.hasDerivAt_arccos (ne_of_gt h.1) (ne_of_lt h.2)).comp t hf).congr_deriv ?_
    change -(1 / √(1 - f t ^ 2)) * f' = -1.0 / √(1.0 - f t * f t) * f'
    rw [sqrt_one_sub_square, Arith.real_one]
    ring

/-! ## Expressions -/

namespace Expr

/-- Whether all operations of an expression are smooth at an assignment. -/
def IsRegular (v : ParamId → ℝ) : Expr ℝ → Prop
  | param _ => True
  | constant _ => True
  | binary op a b => a.IsRegular v ∧ b.IsRegular v ∧ op.IsRegular (b.eval v)
  | unary op a => a.IsRegular v ∧ op.IsRegular (a.eval v)

/-- While the parameters move, a regular expression changes at the rate of its differential. -/
theorem hasDerivAt_eval (e : Expr ℝ) {motion : ℝ → ParamId → ℝ} {velocity : ParamId → ℝ}
    (h : e.IsRegular (motion t)) (hmotion : ∀ p, HasDerivAt (fun u ↦ motion u p) (velocity p) t) :
    HasDerivAt (fun u ↦ e.eval (motion u)) (e.differential (motion t) velocity) t := by
  induction e with
  | param p => exact hmotion p
  | constant x => exact hasDerivAt_const t x
  | binary op a b iha ihb =>
    obtain ⟨ha, hb, hop⟩ := h
    exact op.hasDerivAt_apply hop (iha ha) (ihb hb)
  | unary op a ih =>
    obtain ⟨ha, hop⟩ := h
    exact op.hasDerivAt_apply hop (ih ha)

/-- Moving one parameter moves it at rate one and leaves the others where they are. -/
theorem hasDerivAt_update (v : ParamId → ℝ) (p q : ParamId) (x : ℝ) :
    HasDerivAt (fun u ↦ Function.update v p u q) ((Pi.single p 1 : ParamId → ℝ) q) x := by
  by_cases hq : q = p
  · subst hq
    simp only [Function.update_self, Pi.single_eq_same]
    exact hasDerivAt_id x
  · simp only [Function.update_of_ne hq, Pi.single_eq_of_ne hq]
    exact hasDerivAt_const x (v q)

/-- At an assignment at which an expression is regular, its partial derivative by a parameter is the
derivative of its value as a function of that parameter. Folding the partial derivative does not
change it. -/
theorem hasDerivAt_eval_update (e : Expr ℝ) (p : ParamId) (v : ParamId → ℝ)
    (h : e.IsRegular v) :
    HasDerivAt (fun x ↦ e.eval (Function.update v p x)) ((e.derivative p).eval v) (v p) ∧
      (e.derivative p).fold.eval v = (e.derivative p).eval v := by
  refine ⟨?_, eval_fold _⟩
  have hstart : Function.update v p (v p) = v := Function.update_eq_self p v
  have hrate : HasDerivAt (fun x ↦ e.eval (Function.update v p x))
      (e.differential (Function.update v p (v p)) (Pi.single p 1)) (v p) :=
    e.hasDerivAt_eval (by rwa [hstart]) fun q ↦ hasDerivAt_update v p q (v p)
  rwa [hstart, ← eval_derivative] at hrate

/-- An expression with every operation that is not smooth everywhere. -/
def rootsAndAngles : Expr ℝ :=
  (param ⟨1⟩).sqrt / param ⟨2⟩ + (param ⟨1⟩).asin * (param ⟨2⟩).acos

/-- Where both parameters are a half, the expression is regular and has its derivative. -/
theorem hasDerivAt_eval_update_rootsAndAngles :
    rootsAndAngles.IsRegular (fun _ ↦ 1 / 2) ∧
      HasDerivAt (fun x ↦ rootsAndAngles.eval (Function.update (fun _ ↦ 1 / 2) ⟨1⟩ x))
          ((rootsAndAngles.derivative ⟨1⟩).eval fun _ ↦ 1 / 2) (1 / 2) ∧
        (rootsAndAngles.derivative ⟨1⟩).fold.eval (fun _ ↦ 1 / 2) =
          (rootsAndAngles.derivative ⟨1⟩).eval fun _ ↦ 1 / 2 := by
  have hhalf : (-1 : ℝ) < 1 / 2 ∧ (1 / 2 : ℝ) < 1 := by norm_num
  have hpositive : (0 : ℝ) < 1 / 2 := by norm_num
  have hregular : rootsAndAngles.IsRegular fun _ ↦ 1 / 2 :=
    ⟨⟨⟨trivial, hpositive⟩, trivial, ne_of_gt hpositive⟩,
      ⟨⟨trivial, hhalf⟩, ⟨trivial, hhalf⟩, trivial⟩, trivial⟩
  exact ⟨hregular, hasDerivAt_eval_update rootsAndAngles ⟨1⟩ (fun _ ↦ 1 / 2) hregular⟩

end Expr

end SketchSolver
