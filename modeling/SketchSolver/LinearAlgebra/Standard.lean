import SketchSolver.LinearAlgebra.Cholesky
import SketchSolver.LinearAlgebra.Rotation

/-!
# The factorisations in use

The solver runs with the Cholesky factorisation by rows and with singular values by plane
rotations.
-/

namespace SketchSolver

/-- Linear algebra by Cholesky factors and plane rotations. -/
def LinearAlgebra.standard {R : Type} [Arith R] : LinearAlgebra R where
  cholesky? := Cholesky.cholesky?
  singularValues := Rotation.singularValues
  pseudoSolve := Rotation.pseudoSolve

end SketchSolver
