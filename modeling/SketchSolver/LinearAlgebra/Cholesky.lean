import SketchSolver.LinearAlgebra.Basic

/-!
# Cholesky factorisation

A symmetric positive matrix is a lower triangular matrix times its transpose. The triangular
matrix is found row by row: the part of a row before the diagonal solves the triangular system of
the rows above it, and the diagonal entry is the root of what is left.
-/

namespace SketchSolver.Cholesky

/-- A row of a lower triangular matrix. -/
structure Row (R : Type) where
  /-- The entries before the diagonal. -/
  before : List R
  /-- The entry on the diagonal. -/
  pivot : R

variable {R : Type} [Arith R]

/-- A scalar less the products of two lists, one after the other. -/
def lessProducts (x : R) (a b : List R) : R := (List.zip a b).foldl (fun s p ↦ s - p.1 * p.2) x

/-- The solution of a lower triangular system, from the first unknown on. -/
def forward (rows : List (Row R)) (b : List R) : List R :=
  (List.zip rows b).foldl (fun y p ↦ y ++ [lessProducts p.2 p.1.before y / p.1.pivot]) []

/-- The solution of the transposed system in reversed order, from the last unknown on: a known
unknown is taken out of the equations of the earlier ones. -/
def backward : List (Row R) → List R → List R
  | row :: rows, y :: ys =>
    let x := y / row.pivot
    x :: backward rows (List.zipWith (fun y l ↦ y - x * l) ys row.before.reverse)
  | _, _ => []

/-- The next row of the factor, unless what is left for its pivot is not positive. -/
def nextRow? (rows : List (Row R)) (a : List R) : Option (Row R) :=
  let before := forward rows a
  match a[rows.length]? with
  | none => none
  | some d =>
    let rest := lessProducts d before before
    if (0.0 : R) < rest then some ⟨before, Arith.sqrt rest⟩ else none

/-- The rows of the factor of a symmetric matrix. -/
def factor? (a : DenseMatrix R) : Option (List (Row R)) :=
  a.rows.foldlM (fun rows row ↦ (nextRow? rows row).map fun r ↦ rows ++ [r]) []

/-- The factorisation of a symmetric matrix. -/
def cholesky? (a : DenseMatrix R) : Option (CholeskyFactor R) :=
  (factor? a).map fun rows ↦
    ⟨rows.map Row.pivot, fun b ↦ (backward rows.reverse (forward rows b).reverse).reverse⟩

end SketchSolver.Cholesky
