import SketchSolver.Handle

/-!
# Solve reports

What a solve of a group found: how it ended, the degrees of freedom that are left, and which
constraints and parameters to look at.

Specification: section E.5.
-/

namespace SketchSolver

/-- How a solve ended. -/
inductive SolveStatus
  /-- All equations hold and none is superfluous. -/
  | okay
  /-- All equations hold and some are superfluous. -/
  | redundantOkay
  /-- The equations contradict each other. -/
  | inconsistent
  /-- No solution was found. -/
  | didntConverge
  /-- The group is larger than the configuration allows. -/
  | tooManyUnknowns
  deriving DecidableEq, Repr

/-- Whether the solved values were written to the sketch. -/
def SolveStatus.isOk : SolveStatus → Bool
  | .okay => true
  | .redundantOkay => true
  | _ => false

/-- What a solve found. -/
structure SolveReport (R : Type) where
  /-- How it ended. -/
  status : SolveStatus
  /-- The degrees of freedom, if all equations hold. -/
  dof : Option Nat
  /-- The constraints behind a failure or a redundancy. -/
  badConstraints : List ConstraintId
  /-- The unknowns that no equation fixes. -/
  freeParams : List ParamId
  /-- The number of Newton steps. -/
  iterations : Nat
  /-- The largest magnitude of an equation at the end. -/
  residual : R
  deriving Repr

end SketchSolver
