import SketchSolver.Sketch.Operation
import SketchSolver.Solve.Alone
import SketchSolver.Solve.Iteration
import SketchSolver.Solve.Report
import SketchSolver.Solve.Substitution

/-!
# Solving a group

A group is solved by writing its system, merging equal unknowns, solving equations in one unknown
and iterating the rest. The sketch changes only if all equations hold at the end. The report says
how many degrees of freedom are left and which constraints contradict the others or repeat them.

Specification: sections 4.5 and E.5.
-/

namespace SketchSolver

variable {R : Type} [Arith R]

/-- How bad a violated equation is: its magnitude, or beyond all magnitudes if it is undefined. -/
def violation (f : R) : R := if Arith.isNaN f then Arith.infinity else Arith.abs f

/-- The worst violation of each constraint, after one more row: the place of its equation and what
is left of it. -/
def EquationSystem.recordViolation (sys : EquationSystem R) (tolerance : R)
    (worst : Table ConstraintId R) (row : Nat × R) : Table ConstraintId R :=
  match sys.equations[row.1]?.map Equation.source with
  | some (.constraint id) =>
    let v := violation row.2
    if tolerance < v then worst.insert id (Arith.larger ((worst.find? id).getD 0.0) v) else worst
  | _ => worst

/-- The worst violation of each constraint with a violated equation. -/
def EquationSystem.worstViolations (sys : EquationSystem R) (nw : NewtonSystem R)
    (residuals : List R) (tolerance : R) : Table ConstraintId R :=
  (List.zip nw.rows residuals).foldl (sys.recordViolation tolerance) Table.empty

/-- The constraints with a violated equation, the worst first and equally bad ones in order. -/
def unsatisfiedConstraints (sys : EquationSystem R) (nw : NewtonSystem R) (residuals : List R)
    (tolerance : R) : List ConstraintId :=
  ((sys.worstViolations nw residuals tolerance).toList.mergeSort fun a b ↦
    decide (b.2 ≤ a.2)).map Prod.fst

/-- The constraints of a group, those that bring points together last. -/
def Sketch.redundancyCandidates (s : Sketch R) (g : GroupId) : List (Constraint R) :=
  let (coincident, others) := (s.constraintsIn g).partition Constraint.isCoincidence
  others ++ coincident

/-- Whether the equations of a group are independent without one constraint. -/
def Sketch.isIndependentWithout (la : LinearAlgebra R) (rankTolerance : R) (s : Sketch R)
    (g : GroupId) (dragged : HandleSet ParamId) (id : ConstraintId) : Outcome R Bool := do
  let sys := (← s.assembleExcluding g dragged (some id)).substitute
  let nw := sys.newton
  return la.rank (nw.jacobian sys (nw.initial sys)) rankTolerance == nw.height

/-- The constraints of a group without which its equations are independent. -/
def Sketch.redundantConstraints (la : LinearAlgebra R) (rankTolerance : R) (s : Sketch R)
    (g : GroupId) (dragged : HandleSet ParamId) : Outcome R (List ConstraintId) :=
  ((s.redundancyCandidates g).map Constraint.id).filterM
    (s.isIndependentWithout la rankTolerance g dragged)

/-- The constraints of a solved system that repeat others, if there are such and they are asked for.
They are looked for in a copy of the sketch with the solved values. -/
def Sketch.diagnosis (la : LinearAlgebra R) (config : Config R) (s : Sketch R)
    (sys : EquationSystem R) (redundant : Bool) : Outcome R (List ConstraintId) :=
  if redundant && config.findBadConstraints then
    (s.commit sys.group sys.resolvedValues 0).redundantConstraints la config.rankTolerance
      sys.group sys.dragged
  else .ok []

/-- The unknowns without whose column the rank stays full. -/
def NewtonSystem.freeParams (la : LinearAlgebra R) (rankTolerance : R) (nw : NewtonSystem R)
    (sys : EquationSystem R) (x : List R) : List ParamId :=
  (nw.unknowns.zipIdx.filter fun p ↦
    la.rank (nw.jacobianWithout sys x p.2) rankTolerance == nw.height).map Prod.fst

/-- The report of a solve that ended before the iteration. -/
def SolveReport.early (status : SolveStatus) (bad : List ConstraintId) : SolveReport R :=
  ⟨status, none, bad, [], 0, 0.0⟩

/-- The constraint that an equation comes from. -/
def EquationSystem.constraintAt (sys : EquationSystem R) (i : Nat) : List ConstraintId :=
  match sys.equations[i]? with
  | some eq =>
    match eq.source with
    | .constraint id => [id]
    | .entity _ => []
  | none => []

/-- The report of a solve whose iteration failed. A rank that was too low from the start or a stall
is taken for a contradiction. -/
def SolveReport.failure (config : Config R) (sys : EquationSystem R) (nw : NewtonSystem R)
    (residuals : List R) (independent : Bool) (outcome : Iteration R) : SolveReport R where
  status := if !independent || outcome.stalled then .inconsistent else .didntConverge
  dof := none
  badConstraints :=
    if config.findBadConstraints then unsatisfiedConstraints sys nw residuals config.tolerance
    else []
  freeParams := []
  iterations := outcome.iterations
  residual := maxAbs residuals

/-- The report of a solve whose iteration succeeded, given the rank at the solution and the
constraints that repeat others. -/
def SolveReport.success (la : LinearAlgebra R) (config : Config R) (sys : EquationSystem R)
    (nw : NewtonSystem R) (residuals : List R) (outcome : Iteration R) (rank : Nat)
    (bad : List ConstraintId) : SolveReport R where
  status := if rank == nw.height then .okay else .redundantOkay
  dof := some (nw.width - rank)
  badConstraints := bad
  freeParams :=
    if rank == nw.height && config.findFreeParams then
      nw.freeParams la config.rankTolerance sys outcome.x
    else []
  iterations := outcome.iterations
  residual := maxAbs residuals

namespace Operation

/-- Reports on an iteration that succeeded. The solved values are written to the sketch at the very
end, after the report is complete. -/
def finish (la : LinearAlgebra R) (config : Config R) (sys : EquationSystem R)
    (nw : NewtonSystem R) (residuals : List R) (outcome : Iteration R) :
    Operation R (SolveReport R) := do
  let rank := la.rank (nw.jacobian sys outcome.x) config.rankTolerance
  let bad ← consult fun s ↦ s.diagnosis la config sys (rank != nw.height)
  modify fun s ↦ s.commit sys.group sys.resolvedValues (nw.width - rank)
  return .success la config sys nw residuals outcome rank bad

/-- Iterates what is left of a system and reports on it. -/
def solveNewton (la : LinearAlgebra R) (config : Config R) (sys : EquationSystem R) :
    Operation R (SolveReport R) :=
  let nw := sys.newton
  let independent :=
    la.rank (nw.jacobian sys (nw.initial sys)) config.rankTolerance == nw.height
  let outcome := nw.iterate la config sys
  let residuals := nw.residuals sys outcome.x
  if outcome.converged then
    finish la config (sys.store nw.unknowns outcome.x) nw residuals outcome
  else return .failure config sys nw residuals independent outcome

/-- Solves a group with given settings. Parameters of earlier groups stay as they are unless they
are dragged. -/
def solveWith (la : LinearAlgebra R) (config : Config R) (g : GroupId)
    (dragged : HandleSet ParamId) : Operation R (SolveReport R) := do
  let _ ← consult fun s ↦ s.group g
  let sys ← consult fun s ↦ s.assemble g dragged
  if config.maxUnknowns < sys.referencedUnknowns.length ∨
      config.maxUnknowns < sys.equations.length then
    return .early .tooManyUnknowns []
  else
    let alone := sys.substitute.solveAlone config.tolerance config.maxIterations
    match alone.2 with
    | some i =>
      return .early .didntConverge
        (if config.findBadConstraints then alone.1.constraintAt i else [])
    | none => solveNewton la config alone.1

/-- Goes on only if some parameters exist. -/
def requireParams (ps : List ParamId) : Operation R Unit :=
  ps.forM fun p ↦ do
    let _ ← consult fun s ↦ s.param p
    return ()

/-- Solves a group with the settings of the sketch. Each dragged parameter has to exist. -/
def solveDragged (la : LinearAlgebra R) (g : GroupId) (dragged : List ParamId) :
    Operation R (SolveReport R) := do
  requireParams dragged
  solveWith la (← get).config g (HandleSet.ofHandles dragged)

/-- Solves a group with the settings of the sketch. -/
def solve (la : LinearAlgebra R) (g : GroupId) : Operation R (SolveReport R) :=
  solveDragged la g []

end Operation

namespace Sketch

/-- The report of a solve with given settings and the sketch after it. -/
def solveWith (la : LinearAlgebra R) (config : Config R) (s : Sketch R) (g : GroupId)
    (dragged : HandleSet ParamId) : Outcome R (SolveReport R × Sketch R) :=
  (Operation.solveWith la config g dragged).outcome s

/-- The report of a solve with dragged parameters and the sketch after it. -/
def solveDragged (la : LinearAlgebra R) (s : Sketch R) (g : GroupId) (dragged : List ParamId) :
    Outcome R (SolveReport R × Sketch R) := (Operation.solveDragged la g dragged).outcome s

/-- The report of a solve and the sketch after it. -/
def solve (la : LinearAlgebra R) (s : Sketch R) (g : GroupId) :
    Outcome R (SolveReport R × Sketch R) := (Operation.solve la g).outcome s

end Sketch

end SketchSolver
