import SketchSolver.Solve.Newton

/-!
# Newton iteration

Each step takes the smallest correction that the linearised equations ask for, or a fraction of it.
The iteration ends when all equations hold, when the latest steps got no further than earlier ones,
when the steps are used up, and when no usable step can be taken.

Specification: sections 4.5 and E.5.
-/

namespace SketchSolver

variable {R : Type} [Arith R]

/-- The largest magnitude in a list, taken from left to right. An undefined entry makes the result
undefined until a defined one follows. -/
def maxAbs (v : List R) : R :=
  v.foldl (fun m x ↦ if Arith.isNaN x then Arith.nan else Arith.larger m (Arith.abs x)) 0.0

/-- Whether all equations hold. -/
def isConverged (f : List R) (tolerance : R) : Bool :=
  f.all fun x ↦ decide (Arith.abs x ≤ tolerance)

/-- The magnitude above which a value is not usable. -/
def valueLimit : R := 1e11

/-- Whether a value is undefined or too large. -/
def outOfRange (v : List R) : Bool :=
  v.any fun x ↦ Arith.isNaN x || decide (valueLimit < Arith.abs x)

/-- Whether the best of the latest residuals is above a fraction of the best earlier one. The
residuals stand in the order of the steps; with too few of them there is no stall. -/
def isStalled (history : List R) (window : Nat) (ratio : R) : Bool :=
  if window = 0 ∨ history.length ≤ window then false
  else
    let (earlier, recent) := history.splitAt (history.length - window)
    decide (ratio * smallest earlier < smallest recent)

/-- How an iteration ended. -/
structure Iteration (R : Type) where
  /-- Whether all equations hold. -/
  converged : Bool
  /-- Whether the latest steps got no further. -/
  stalled : Bool
  /-- The number of steps taken. -/
  iterations : Nat
  /-- The values of the unknowns. -/
  x : List R

/-- The unknowns after a fraction of a step. -/
def takeStep (damping : R) (x step : List R) : List R :=
  List.zipWith (fun x d ↦ x - d * damping) x step

/-- The iteration from some values of the unknowns, with a given number of steps left, the number of
steps taken so far and the residuals after each of them. -/
def iterateFrom (la : LinearAlgebra R) (config : Config R) (nw : NewtonSystem R)
    (sys : EquationSystem R) (left taken : Nat) (x : List R) (history : List R) : Iteration R :=
  let f := nw.residuals sys x
  if isConverged f config.tolerance then ⟨true, false, taken, x⟩
  else if isStalled history config.stallWindow config.stallRatio then ⟨false, true, taken, x⟩
  else
    match left with
    | 0 => ⟨false, false, taken, x⟩
    | left + 1 =>
      if nw.unknowns.isEmpty then ⟨false, false, taken, x⟩
      else
        match la.leastSquaresStep? (nw.jacobian sys x) f (nw.scale config.draggedScale) with
        | none => ⟨false, false, taken, x⟩
        | some step =>
          let x := takeStep config.damping x step
          let f := nw.residuals sys x
          if outOfRange x || outOfRange f then ⟨false, false, taken + 1, x⟩
          else iterateFrom la config nw sys left (taken + 1) x (history ++ [maxAbs f])

/-- The iteration from the working values. -/
def NewtonSystem.iterate (la : LinearAlgebra R) (config : Config R) (nw : NewtonSystem R)
    (sys : EquationSystem R) : Iteration R :=
  let x := nw.initial sys
  iterateFrom la config nw sys config.maxIterations 0 x [maxAbs (nw.residuals sys x)]

end SketchSolver
