import SketchSolver.Arith
import SketchSolver.Handle

/-!
# Expressions

Equations are trees of parameters, constants and operations. The value of a tree under an
assignment of the parameters is `Expr.eval`; `eval_add` and its siblings give the value of each
operation.

Specification: section 4.1.
-/

namespace SketchSolver

/-- Operations on two operands. -/
inductive BinaryOp
  /-- The sum. -/
  | plus
  /-- The difference. -/
  | minus
  /-- The product. -/
  | times
  /-- The quotient. -/
  | over
  deriving DecidableEq, Repr

/-- Operations on one operand. -/
inductive UnaryOp
  /-- The opposite. -/
  | negate
  /-- The square root. -/
  | sqrt
  /-- The square. -/
  | square
  /-- The sine. -/
  | sin
  /-- The cosine. -/
  | cos
  /-- The inverse sine. -/
  | asin
  /-- The inverse cosine. -/
  | acos
  deriving DecidableEq, Repr

/-- A scalar expression over parameters. -/
inductive Expr (R : Type)
  /-- The value of a parameter. -/
  | param (p : ParamId)
  /-- A fixed value. -/
  | constant (value : R)
  /-- An operation on two expressions. -/
  | binary (op : BinaryOp) (a b : Expr R)
  /-- An operation on one expression. -/
  | unary (op : UnaryOp) (a : Expr R)
  deriving BEq, Repr

section

variable {R : Type} [Arith R]

/-- The operation on scalars. -/
def BinaryOp.apply : BinaryOp → R → R → R
  | .plus, x, y => x + y
  | .minus, x, y => x - y
  | .times, x, y => x * y
  | .over, x, y => x / y

/-- The operation on scalars. -/
def UnaryOp.apply : UnaryOp → R → R
  | .negate, x => -x
  | .sqrt, x => Arith.sqrt x
  | .square, x => Arith.square x
  | .sin, x => Arith.sin x
  | .cos, x => Arith.cos x
  | .asin, x => Arith.asin x
  | .acos, x => Arith.acos x

end

namespace Expr

variable {R : Type}

instance : Inhabited (Expr R) := ⟨param ⟨0⟩⟩

instance : Add (Expr R) := ⟨binary .plus⟩

instance : Sub (Expr R) := ⟨binary .minus⟩

instance : Mul (Expr R) := ⟨binary .times⟩

instance : Div (Expr R) := ⟨binary .over⟩

instance : Neg (Expr R) := ⟨unary .negate⟩

/-- The square root of an expression. -/
def sqrt (e : Expr R) : Expr R := unary .sqrt e

/-- The square of an expression. -/
def square (e : Expr R) : Expr R := unary .square e

/-- The sine of an expression. -/
def sin (e : Expr R) : Expr R := unary .sin e

/-- The cosine of an expression. -/
def cos (e : Expr R) : Expr R := unary .cos e

/-- The inverse sine of an expression. -/
def asin (e : Expr R) : Expr R := unary .asin e

/-- The inverse cosine of an expression. -/
def acos (e : Expr R) : Expr R := unary .acos e

/-- The value of an expression that is a constant. -/
def constant? : Expr R → Option R
  | constant x => some x
  | _ => none

/-- The parameter of an expression that is a parameter. -/
def param? : Expr R → Option ParamId
  | param p => some p
  | _ => none

/-- The two sides of an expression that is the difference of two parameters. -/
def paramDifference? : Expr R → Option (ParamId × ParamId)
  | binary .minus (param a) (param b) => some (a, b)
  | _ => none

/-- The number of nodes of an expression. -/
def nodes : Expr R → Nat
  | param _ => 1
  | constant _ => 1
  | binary _ a b => 1 + a.nodes + b.nodes
  | unary _ a => 1 + a.nodes

/-- An expression is a constant exactly if it has a constant value. -/
theorem constant?_eq_some_iff {e : Expr R} {x : R} : e.constant? = some x ↔ e = constant x := by
  cases e <;> simp [constant?]

/-- The differences of two parameters are recognised, and nothing else. -/
theorem paramDifference?_eq_some_iff {e : Expr R} {a b : ParamId} :
    e.paramDifference? = some (a, b) ↔ e = param a - param b := by
  constructor
  · intro h
    unfold paramDifference? at h
    split at h
    · cases h
      rfl
    · cases h
  · rintro rfl
    rfl

variable [Arith R]

/-- Whether an expression is a constant that equals zero. -/
def isZero (e : Expr R) : Bool :=
  match e with
  | constant x => x == 0.0
  | _ => false

/-- The value of an expression under an assignment of the parameters. -/
def eval (v : ParamId → R) : Expr R → R
  | param p => v p
  | constant x => x
  | binary op a b => op.apply (a.eval v) (b.eval v)
  | unary op a => op.apply (a.eval v)

variable (v : ParamId → R) (a b : Expr R)

/-- A parameter has its assigned value. -/
@[simp] theorem eval_param (p : ParamId) : (param p : Expr R).eval v = v p := rfl

/-- A constant has its own value. -/
@[simp] theorem eval_constant (x : R) : (constant x).eval v = x := rfl

/-- The value of a sum. -/
@[simp] theorem eval_add : (a + b).eval v = a.eval v + b.eval v := rfl

/-- The value of a difference. -/
@[simp] theorem eval_sub : (a - b).eval v = a.eval v - b.eval v := rfl

/-- The value of a product. -/
@[simp] theorem eval_mul : (a * b).eval v = a.eval v * b.eval v := rfl

/-- The value of a quotient. -/
@[simp] theorem eval_div : (a / b).eval v = a.eval v / b.eval v := rfl

/-- The value of an opposite. -/
@[simp] theorem eval_neg : (-a).eval v = -a.eval v := rfl

/-- The value of a square root. -/
@[simp] theorem eval_sqrt : a.sqrt.eval v = Arith.sqrt (a.eval v) := rfl

/-- The value of a square. -/
@[simp] theorem eval_square : a.square.eval v = a.eval v * a.eval v := rfl

/-- The value of a sine. -/
@[simp] theorem eval_sin : a.sin.eval v = Arith.sin (a.eval v) := rfl

/-- The value of a cosine. -/
@[simp] theorem eval_cos : a.cos.eval v = Arith.cos (a.eval v) := rfl

/-- The value of an inverse sine. -/
@[simp] theorem eval_asin : a.asin.eval v = Arith.asin (a.eval v) := rfl

/-- The value of an inverse cosine. -/
@[simp] theorem eval_acos : a.acos.eval v = Arith.acos (a.eval v) := rfl

end Expr

end SketchSolver
