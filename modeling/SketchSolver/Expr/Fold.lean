import SketchSolver.Expr.Params

/-!
# Constant folding

Folding replaces an operation on constants by its value, and drops a zero from a sum and a one
from a product; a product with a zero is zero. It works from the leaves upwards.

Specification: section E.5.
-/

namespace SketchSolver.Expr

variable {R : Type} [Arith R]

/-- The sum of two folded expressions, folded. -/
def foldPlus (a b : Expr R) : Expr R :=
  match a.constant?, b.constant? with
  | some x, some y => constant (x + y)
  | none, some y => if y == 0.0 then a else a + b
  | some x, none => if x == 0.0 then b else a + b
  | none, none => a + b

/-- The product of two folded expressions, folded. -/
def foldTimes (a b : Expr R) : Expr R :=
  match a.constant?, b.constant? with
  | some x, some y => constant (x * y)
  | none, some y => if y == 1.0 then a else if y == 0.0 then constant 0.0 else a * b
  | some x, none => if x == 1.0 then b else if x == 0.0 then constant 0.0 else a * b
  | none, none => a * b

/-- An operation on two folded expressions, folded. -/
def foldBinary (op : BinaryOp) (a b : Expr R) : Expr R :=
  match op with
  | .plus => foldPlus a b
  | .times => foldTimes a b
  | op =>
    match a.constant?, b.constant? with
    | some x, some y => constant (op.apply x y)
    | _, _ => binary op a b

/-- An operation on a folded expression, folded. -/
def foldUnary (op : UnaryOp) (a : Expr R) : Expr R :=
  match a.constant? with
  | some x => constant (op.apply x)
  | none => unary op a

/-- The expression with its constant parts replaced by their values. -/
def fold : Expr R → Expr R
  | param p => param p
  | constant x => constant x
  | binary op a b => foldBinary op a.fold b.fold
  | unary op a => foldUnary op a.fold

private theorem mem_params_foldPlus {a b : Expr R} {p : ParamId}
    (h : p ∈ (foldPlus a b).params) : p ∈ a.params ∨ p ∈ b.params := by
  have hsum : (a + b).params = a.params ++ b.params := rfl
  unfold foldPlus at h
  split at h
  · exact absurd h List.not_mem_nil
  · split at h
    · exact .inl h
    · exact List.mem_append.mp (hsum ▸ h)
  · split at h
    · exact .inr h
    · exact List.mem_append.mp (hsum ▸ h)
  · exact List.mem_append.mp (hsum ▸ h)

private theorem mem_params_foldTimes {a b : Expr R} {p : ParamId}
    (h : p ∈ (foldTimes a b).params) : p ∈ a.params ∨ p ∈ b.params := by
  have hproduct : (a * b).params = a.params ++ b.params := rfl
  unfold foldTimes at h
  split at h
  · exact absurd h List.not_mem_nil
  · split at h
    · exact .inl h
    · split at h
      · exact absurd h List.not_mem_nil
      · exact List.mem_append.mp (hproduct ▸ h)
  · split at h
    · exact .inr h
    · split at h
      · exact absurd h List.not_mem_nil
      · exact List.mem_append.mp (hproduct ▸ h)
  · exact List.mem_append.mp (hproduct ▸ h)

private theorem mem_params_foldBinary {op : BinaryOp} {a b : Expr R} {p : ParamId}
    (h : p ∈ (foldBinary op a b).params) : p ∈ a.params ∨ p ∈ b.params := by
  unfold foldBinary at h
  split at h
  · exact mem_params_foldPlus h
  · exact mem_params_foldTimes h
  · split at h
    · exact absurd h List.not_mem_nil
    · exact List.mem_append.mp h

private theorem mem_params_foldUnary {op : UnaryOp} {a : Expr R} {p : ParamId}
    (h : p ∈ (foldUnary op a).params) : p ∈ a.params := by
  unfold foldUnary at h
  split at h
  · exact absurd h List.not_mem_nil
  · exact h

/-- Folding brings in no parameter. -/
theorem mem_params_of_mem_fold {e : Expr R} {p : ParamId} (h : p ∈ e.fold.params) :
    p ∈ e.params := by
  induction e with
  | param q => exact h
  | constant x => exact h
  | binary op a b iha ihb => exact List.mem_append.mpr ((mem_params_foldBinary h).imp iha ihb)
  | unary op a ih => exact ih (mem_params_foldUnary h)

end SketchSolver.Expr
