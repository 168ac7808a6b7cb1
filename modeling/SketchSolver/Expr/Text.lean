import SketchSolver.Expr.Basic

/-!
# Expression text

An operation on two expressions is written between them, in parentheses. An operation on one
expression is written as a function of it, and the opposite as a sign in parentheses. How a
constant is written is left to the caller.
-/

namespace SketchSolver

/-- The sign between two operands. -/
def BinaryOp.sign : BinaryOp → String
  | .plus => " + "
  | .minus => " - "
  | .times => " * "
  | .over => " / "

/-- What is written before an operand and its closing parenthesis. -/
def UnaryOp.opening : UnaryOp → String
  | .negate => "(-"
  | .sqrt => "sqrt("
  | .square => "square("
  | .sin => "sin("
  | .cos => "cos("
  | .asin => "asin("
  | .acos => "acos("

/-- The text of an expression, given the text of its constants. -/
def Expr.text {R : Type} (number : R → String) : Expr R → String
  | .param p => p.text
  | .constant x => number x
  | .binary op a b => "(" ++ a.text number ++ op.sign ++ b.text number ++ ")"
  | .unary op a => op.opening ++ a.text number ++ ")"

end SketchSolver
