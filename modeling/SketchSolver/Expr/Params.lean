import SketchSolver.Expr.Basic
import SketchSolver.Table

/-!
# Parameters of an expression

`Expr.params` lists the parameters in the order of the tree. The other questions about them are
asked of that list: the set of parameters, whether there is none, one or several, and whether a
given one occurs.
-/

namespace SketchSolver

/-- How many different parameters there are, and which if there is one. -/
inductive Referenced
  /-- No parameter. -/
  | none
  /-- One parameter, perhaps several times. -/
  | one (p : ParamId)
  /-- Two different parameters or more. -/
  | multiple
  deriving DecidableEq, Repr

/-- The classification after one more parameter. -/
def Referenced.add : Referenced → ParamId → Referenced
  | .none, p => .one p
  | .one q, p => if q = p then .one q else .multiple
  | .multiple, _ => .multiple

namespace Expr

variable {R : Type}

/-- The parameters in the order of the tree, with repeats. -/
def params : Expr R → List ParamId
  | param p => [p]
  | constant _ => []
  | binary _ a b => a.params ++ b.params
  | unary _ a => a.params

/-- The set of parameters. -/
def usedParams (e : Expr R) : HandleSet ParamId := HandleSet.ofHandles e.params

/-- Whether the expression has no parameter, one or several. -/
def referenced (e : Expr R) : Referenced := e.params.foldl Referenced.add .none

/-- Whether a parameter occurs. -/
def dependsOn (p : ParamId) : Expr R → Bool
  | param q => q == p
  | constant _ => false
  | binary _ a b => a.dependsOn p || b.dependsOn p
  | unary _ a => a.dependsOn p

/-- A parameter occurs exactly if it is listed. -/
theorem dependsOn_eq_true_iff {p : ParamId} {e : Expr R} :
    e.dependsOn p = true ↔ p ∈ e.params := by
  induction e with
  | param q => simpa [dependsOn, params] using eq_comm
  | constant x => simp [dependsOn, params]
  | binary op a b iha ihb => simp [dependsOn, params, iha, ihb]
  | unary op a ih => simp [dependsOn, params, ih]

/-- The set of parameters has exactly the listed ones. -/
theorem contains_usedParams {e : Expr R} {p : ParamId} :
    e.usedParams.contains p = true ↔ p ∈ e.params := HandleSet.contains_ofHandles _ _

/-- The members of the set of parameters are the listed ones. -/
theorem mem_keys_usedParams {e : Expr R} {p : ParamId} : p ∈ e.usedParams.keys ↔ p ∈ e.params := by
  rw [← Table.contains_eq_true_iff, contains_usedParams]

private theorem foldl_add_multiple (ps : List ParamId) :
    ps.foldl Referenced.add .multiple = .multiple := by
  induction ps with
  | nil => rfl
  | cons q ps ih => rw [List.foldl_cons, Referenced.add, ih]

private theorem foldl_add_one_iff {ps : List ParamId} {p q : ParamId} :
    ps.foldl Referenced.add (.one q) = .one p ↔ q = p ∧ ∀ r ∈ ps, r = p := by
  induction ps with
  | nil => simp
  | cons r ps ih =>
    rw [List.foldl_cons, Referenced.add]
    by_cases hqr : q = r
    · rw [if_pos hqr, ih, List.forall_mem_cons]
      constructor
      · rintro ⟨hq, hps⟩
        exact ⟨hq, hqr ▸ hq, hps⟩
      · rintro ⟨hq, _, hps⟩
        exact ⟨hq, hps⟩
    · rw [if_neg hqr, foldl_add_multiple, List.forall_mem_cons]
      constructor
      · intro h
        cases h
      · rintro ⟨hq, hr, _⟩
        exact absurd (hq.trans hr.symm) hqr

private theorem foldl_add_ne_none {ps : List ParamId} {r : Referenced} (hr : r ≠ .none) :
    ps.foldl Referenced.add r ≠ .none := by
  induction ps generalizing r with
  | nil => exact hr
  | cons q ps ih =>
    apply ih
    cases r with
    | none => exact absurd rfl hr
    | one p =>
      rw [Referenced.add]
      split <;> nofun
    | multiple => nofun

/-- An expression has no parameter exactly if none is listed. -/
theorem referenced_eq_none_iff {e : Expr R} : e.referenced = .none ↔ e.params = [] := by
  unfold referenced
  cases e.params with
  | nil => simp
  | cons q ps =>
    have hone : ps.foldl Referenced.add (.one q) ≠ .none := foldl_add_ne_none nofun
    simpa [Referenced.add] using hone

/-- The only parameter of an expression is the one that every listed parameter is. -/
theorem referenced_eq_one_iff {e : Expr R} {p : ParamId} :
    e.referenced = .one p ↔ e.params ≠ [] ∧ ∀ q ∈ e.params, q = p := by
  unfold referenced
  cases e.params with
  | nil => simp
  | cons q ps =>
    rw [List.foldl_cons, Referenced.add, foldl_add_one_iff, List.forall_mem_cons]
    simp

/-- The value depends on the listed parameters only. -/
theorem eval_congr [Arith R] {v w : ParamId → R} {e : Expr R}
    (h : ∀ p ∈ e.params, v p = w p) : e.eval v = e.eval w := by
  induction e with
  | param q => exact h q (by simp [params])
  | constant x => rfl
  | binary op a b iha ihb =>
    simp only [eval]
    rw [iha fun p hp ↦ h p (by simp [params, hp]), ihb fun p hp ↦ h p (by simp [params, hp])]
  | unary op a ih =>
    simp only [eval]
    rw [ih fun p hp ↦ h p (by simp [params, hp])]

end Expr

end SketchSolver
