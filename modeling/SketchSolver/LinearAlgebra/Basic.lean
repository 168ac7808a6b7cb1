import SketchSolver.LinearAlgebra.DenseMatrix

/-!
# Numeric rank and least squares steps

What the solver needs of linear algebra is the rank of a matrix and the smallest correction that
meets a system of linear equations. Both are defined over two factorisations, which are parameters:
any accurate ones will do, and exact ones serve for reasoning.

Specification: section E.5.
-/

namespace SketchSolver

/-- The factorisation of a symmetric positive matrix. -/
structure CholeskyFactor (R : Type) where
  /-- The diagonal of the triangular factor. -/
  diagonal : List R
  /-- The solution of the system with a given right-hand side. -/
  solve : List R → List R

/-- The factorisations that the solver uses. -/
structure LinearAlgebra (R : Type) where
  /-- The factorisation of a symmetric matrix, if the matrix is positive. -/
  cholesky? : DenseMatrix R → Option (CholeskyFactor R)
  /-- The singular values, one for each row or each column, whichever are fewer. -/
  singularValues : DenseMatrix R → List R
  /-- The pseudo-inverse, built from the singular values above a bound, applied to a vector. -/
  pseudoSolve : DenseMatrix R → R → List R → List R

variable {R : Type} [Arith R]

/-- The largest of a list of scalars, at least zero. -/
def largest (xs : List R) : R := xs.foldl Arith.larger 0.0

/-- The smallest of a list of scalars. -/
def smallest (xs : List R) : R := xs.foldl Arith.smaller Arith.infinity

/-- Whether a factorisation is safely away from one of a singular matrix. -/
def CholeskyFactor.wellConditioned (f : CholeskyFactor R) : Bool :=
  decide (largest f.diagonal * 1e-6 < smallest f.diagonal)

namespace LinearAlgebra

/-- The number of singular values above a fraction of the largest one. Entries out of range, such
as a derivative at a singular point has, count as zero. -/
def rank (la : LinearAlgebra R) (a : DenseMatrix R) (tolerance : R) : Nat :=
  if a.height = 0 ∨ a.cols = 0 then 0
  else
    let singular := la.singularValues (a.map fun x ↦ if Arith.isFinite x then x else 0.0)
    let top := largest singular
    if top == 0.0 then 0 else (singular.filter fun s ↦ decide (tolerance * top < s)).length

/-- The solution of least weighted length of the system with given right-hand side, where column
`j` is scaled by weight `j` and so is the result. The square of the scaled matrix is factored if it
is safely regular, and else the pseudo-inverse is used. A result out of range is none. -/
def leastSquaresStep? (la : LinearAlgebra R) (a : DenseMatrix R) (f scale : List R) :
    Option (List R) :=
  let scaled := a.scaleColumns scale
  let step :=
    match (la.cholesky? scaled.rowProducts).filter CholeskyFactor.wellConditioned with
    | some factor => scaled.transpose.apply (factor.solve f)
    | none => la.pseudoSolve scaled (largest (la.singularValues scaled) * 1e-12) f
  let step := List.zipWith (· * ·) step scale
  if step.all Arith.isFinite then some step else none

end LinearAlgebra

end SketchSolver
