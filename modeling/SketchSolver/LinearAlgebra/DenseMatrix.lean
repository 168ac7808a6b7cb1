import SketchSolver.Arith

/-!
# Matrices

A matrix is a list of rows of one length. The number of columns is kept, so that a matrix without
rows has columns all the same.
-/

namespace SketchSolver

/-- A scalar plus the products of two lists, added from left to right. -/
def addProducts {R : Type} [Arith R] (s : R) : List R → List R → R
  | a :: as, b :: bs => addProducts (s + a * b) as bs
  | _, _ => s

/-- The inner product of two lists of scalars, added from left to right. -/
def dotProduct {R : Type} [Arith R] (a b : List R) : R := addProducts 0.0 a b

/-- A matrix given by its rows. -/
structure DenseMatrix (R : Type) where
  /-- The rows from top to bottom. -/
  rows : List (List R)
  /-- The number of columns. -/
  cols : Nat
  deriving Repr

namespace DenseMatrix

variable {R : Type}

/-- The number of rows. -/
def height (a : DenseMatrix R) : Nat := a.rows.length

/-- The matrix with a function applied to each entry. -/
def map {S : Type} (f : R → S) (a : DenseMatrix R) : DenseMatrix S := ⟨a.rows.map (·.map f), a.cols⟩

/-- The rows of the transposed matrix, which are the columns. -/
def columns (a : DenseMatrix R) : List (List R) :=
  (List.range a.cols).map fun j ↦ a.rows.filterMap (·[j]?)

/-- The transposed matrix. -/
def transpose (a : DenseMatrix R) : DenseMatrix R := ⟨a.columns, a.height⟩

variable [Arith R]

/-- The matrix with each column times its factor. -/
def scaleColumns (a : DenseMatrix R) (scale : List R) : DenseMatrix R :=
  ⟨a.rows.map fun row ↦ List.zipWith (· * ·) row scale, a.cols⟩

/-- The products of all pairs of rows: the matrix times its transpose. -/
def rowProducts (a : DenseMatrix R) : DenseMatrix R :=
  ⟨a.rows.map fun r ↦ a.rows.map fun s ↦ dotProduct r s, a.height⟩

/-- The matrix applied to a vector. -/
def apply (a : DenseMatrix R) (x : List R) : List R := a.rows.map fun row ↦ dotProduct row x

end DenseMatrix

end SketchSolver
