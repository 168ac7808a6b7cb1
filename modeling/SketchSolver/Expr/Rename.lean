import SketchSolver.Expr.Params

/-!
# Replacing parameters

`Expr.freeze` puts known values in place of parameters and `Expr.substitute` puts other parameters
there, all at once. `eval_freeze` and `eval_substitute` give the value of the result.

Specification: sections 4.4 and E.5.
-/

namespace SketchSolver

/-- The parameter that stands for another one, which is itself where the table has no entry. -/
def renamed (m : Table ParamId ParamId) (p : ParamId) : ParamId := (m.find? p).getD p

namespace Expr

variable {R : Type}

/-- The expression with each parameter of known value replaced by that value. -/
def freeze (known : ParamId → Option R) : Expr R → Expr R
  | param p =>
    match known p with
    | some x => constant x
    | none => param p
  | constant x => constant x
  | binary op a b => binary op (a.freeze known) (b.freeze known)
  | unary op a => unary op (a.freeze known)

/-- The expression with each parameter replaced by the one that a table puts in its place. -/
def substitute (m : Table ParamId ParamId) : Expr R → Expr R
  | param p => param (renamed m p)
  | constant x => constant x
  | binary op a b => binary op (a.substitute m) (b.substitute m)
  | unary op a => unary op (a.substitute m)

/-- Freezing has the value of the expression where known values come first. -/
theorem eval_freeze [Arith R] (known : ParamId → Option R) (v : ParamId → R) (e : Expr R) :
    (e.freeze known).eval v = e.eval fun p ↦ (known p).getD (v p) := by
  induction e with
  | param p => cases h : known p <;> simp [freeze, eval, h]
  | constant x => rfl
  | binary op a b iha ihb => simp only [freeze, eval, iha, ihb]
  | unary op a ih => simp only [freeze, eval, ih]

/-- Freezing leaves the parameters of unknown value. -/
theorem params_freeze (known : ParamId → Option R) (e : Expr R) :
    (e.freeze known).params = e.params.filter fun p ↦ (known p).isNone := by
  induction e with
  | param p => cases h : known p <;> simp [freeze, params, h]
  | constant x => rfl
  | binary op a b iha ihb => simp only [freeze, params, iha, ihb, List.filter_append]
  | unary op a ih => simp only [freeze, params, ih]

/-- Freezing depends on what is known of the listed parameters only. -/
theorem freeze_congr {known known' : ParamId → Option R} {e : Expr R}
    (h : ∀ p ∈ e.params, known p = known' p) : e.freeze known = e.freeze known' := by
  induction e with
  | param p => simp only [freeze, h p (by simp [params])]
  | constant x => rfl
  | binary op a b iha ihb =>
    simp only [freeze]
    rw [iha fun p hp ↦ h p (by simp [params, hp]), ihb fun p hp ↦ h p (by simp [params, hp])]
  | unary op a ih =>
    simp only [freeze]
    rw [ih fun p hp ↦ h p (by simp [params, hp])]

/-- Substitution has the value of the expression under the renamed assignment. -/
theorem eval_substitute [Arith R] (m : Table ParamId ParamId) (v : ParamId → R) (e : Expr R) :
    (e.substitute m).eval v = e.eval fun p ↦ v (renamed m p) := by
  induction e with
  | param p => rfl
  | constant x => rfl
  | binary op a b iha ihb => simp only [substitute, eval, iha, ihb]
  | unary op a ih => simp only [substitute, eval, ih]

/-- Substitution renames each listed parameter. -/
theorem params_substitute (m : Table ParamId ParamId) (e : Expr R) :
    (e.substitute m).params = e.params.map (renamed m) := by
  induction e with
  | param p => rfl
  | constant x => rfl
  | binary op a b iha ihb => simp only [substitute, params, iha, ihb, List.map_append]
  | unary op a ih => simp only [substitute, params, ih]

/-- Substitution with an empty table changes nothing. -/
theorem substitute_empty (e : Expr R) : e.substitute .empty = e := by
  induction e with
  | param p => rfl
  | constant x => rfl
  | binary op a b iha ihb => rw [substitute, iha, ihb]
  | unary op a ih => rw [substitute, ih]

/-- Two substitutions after one another are the one that renames each parameter twice. -/
theorem substitute_substitute {m₁ m₂ m : Table ParamId ParamId} {e : Expr R}
    (h : ∀ p ∈ e.params, renamed m₂ (renamed m₁ p) = renamed m p) :
    (e.substitute m₁).substitute m₂ = e.substitute m := by
  induction e with
  | param p => exact congrArg param (h p (by simp [params]))
  | constant x => rfl
  | binary op a b iha ihb =>
    simp only [substitute]
    rw [iha fun p hp ↦ h p (by simp [params, hp]), ihb fun p hp ↦ h p (by simp [params, hp])]
  | unary op a ih =>
    simp only [substitute]
    rw [ih fun p hp ↦ h p (by simp [params, hp])]

end Expr

end SketchSolver
