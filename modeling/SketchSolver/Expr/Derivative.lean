import SketchSolver.Expr.Params

/-!
# Derivatives

The partial derivative of an expression is again an expression, built by the rules of calculus and
not simplified. An expression without the parameter has the constant zero as its derivative.

Specification: section 4.1.
-/

namespace SketchSolver

variable {R : Type} [Arith R]

/-- The derivative of an operation, from its operands and their derivatives. -/
def BinaryOp.derivative (op : BinaryOp) (a b da db : Expr R) : Expr R :=
  match op with
  | .plus => da + db
  | .minus => da - db
  | .times => a * db + b * da
  | .over => (da * b - a * db) / b.square

/-- The derivative of an operation, from its operand and the derivative of that. -/
def UnaryOp.derivative (op : UnaryOp) (a da : Expr R) : Expr R :=
  match op with
  | .negate => -da
  | .sqrt => (.constant 0.5 / a.sqrt) * da
  | .square => (.constant 2.0 * a) * da
  | .sin => a.cos * da
  | .cos => -(a.sin * da)
  | .asin => (.constant 1.0 / (.constant 1.0 - a.square).sqrt) * da
  | .acos => (.constant (-1.0) / (.constant 1.0 - a.square).sqrt) * da

/-- The partial derivative with respect to a parameter. -/
def Expr.derivative (p : ParamId) : Expr R → Expr R
  | .param q => .constant (if q = p then 1.0 else 0.0)
  | .constant _ => .constant 0.0
  | .binary op a b =>
    if a.dependsOn p || b.dependsOn p then
      op.derivative a b (a.derivative p) (b.derivative p)
    else .constant 0.0
  | .unary op a =>
    if a.dependsOn p then op.derivative a (a.derivative p) else .constant 0.0

end SketchSolver
