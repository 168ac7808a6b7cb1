import SketchSolver.LinearAlgebra.Basic

/-!
# Singular values by plane rotations

The columns of a matrix are rotated in pairs until all are orthogonal; their lengths are then the
singular values. Along with each column the combination of unit vectors is rotated that the matrix
maps to it. A matrix with more columns than rows is transposed first.
-/

namespace SketchSolver.Rotation

/-- A vector and its image under the matrix. -/
structure Direction (R : Type) where
  /-- The vector. -/
  source : List R
  /-- What the matrix maps it to. -/
  image : List R

variable {R : Type} [Arith R]

/-- The sum of two multiples of vectors. -/
def combine (s : R) (a : List R) (t : R) (b : List R) : List R :=
  List.zipWith (fun x y ↦ s * x + t * y) a b

/-- The sum of two multiples of directions. -/
def Direction.combine (s : R) (a : Direction R) (t : R) (b : Direction R) : Direction R :=
  ⟨Rotation.combine s a.source t b.source, Rotation.combine s a.image t b.image⟩

/-- Two directions rotated in their plane so that their images become orthogonal, and whether that
took a rotation. -/
def rotate (a b : Direction R) : Direction R × Direction R × Bool :=
  let aa := dotProduct a.image a.image
  let bb := dotProduct b.image b.image
  let ab := dotProduct a.image b.image
  if Arith.sqrt (aa * bb) * 1e-15 < Arith.abs ab then
    let zeta := (bb - aa) / (2.0 * ab)
    let magnitude := 1.0 / (Arith.abs zeta + Arith.sqrt (1.0 + zeta * zeta))
    let t := if zeta < 0.0 then -magnitude else magnitude
    let c := 1.0 / Arith.sqrt (1.0 + t * t)
    let s := c * t
    (.combine c a (-s) b, .combine s a c b, true)
  else (a, b, false)

/-- One direction rotated against each of the others, and whether any rotation took place. -/
def rotateAll (a : Direction R) : List (Direction R) → Direction R × List (Direction R) × Bool
  | [] => (a, [], false)
  | b :: bs =>
    let (a, b, moved) := rotate a b
    let (a, bs, movedLater) := rotateAll a bs
    (a, b :: bs, moved || movedLater)

/-- As many directions remain as there were. -/
theorem length_rotateAll (a : Direction R) (bs : List (Direction R)) :
    (rotateAll a bs).2.1.length = bs.length := by
  induction bs generalizing a with
  | nil => rfl
  | cons b bs ih => simp [rotateAll, ih]

/-- Each pair of directions rotated once, and whether any rotation took place. -/
def sweep : List (Direction R) → List (Direction R) × Bool
  | [] => ([], false)
  | a :: bs =>
    let rotated := rotateAll a bs
    let rest := sweep rotated.2.1
    (rotated.1 :: rest.1, rotated.2.2 || rest.2)
termination_by ds => ds.length
decreasing_by
  simp [length_rotateAll]

/-- Sweeps until nothing moves, but no more than a given number. -/
def orthogonalize : Nat → List (Direction R) → List (Direction R)
  | 0, ds => ds
  | n + 1, ds =>
    let (ds, moved) := sweep ds
    if moved then orthogonalize n ds else ds

/-- The unit vector with a one at one place. -/
def unitVector (n i : Nat) : List R := (List.range n).map fun j ↦ if j = i then 1.0 else 0.0

/-- The directions whose images are the columns of a matrix, made orthogonal. -/
def directions (a : DenseMatrix R) : List (Direction R) :=
  orthogonalize 60 (a.columns.mapIdx fun i column ↦ ⟨unitVector a.cols i, column⟩)

/-- The length of a vector. -/
def norm (x : List R) : R := Arith.sqrt (dotProduct x x)

/-- The largest magnitude of an entry. -/
def magnitude (a : DenseMatrix R) : R := largest (a.rows.map fun row ↦ largest (row.map Arith.abs))

/-- The matrix with its largest magnitude brought to one, which keeps squares within range. -/
def normalized (a : DenseMatrix R) : DenseMatrix R :=
  let top := magnitude a
  if top == 0.0 then a else a.map (· / top)

/-- A matrix with at least as many rows as columns: itself or its transpose. -/
def tall (a : DenseMatrix R) : DenseMatrix R := if a.height < a.cols then a.transpose else a

/-- The singular values of a matrix. -/
def singularValues (a : DenseMatrix R) : List R :=
  let top := magnitude a
  let values := (directions (tall (normalized a))).map fun d ↦ norm d.image
  if top == 0.0 then values else values.map (· * top)

/-- The pseudo-inverse of a matrix applied to a vector. A direction whose singular value is above
the bound contributes its part of the vector divided by the singular value, and any other one
contributes nothing but what is undefined in it. -/
def pseudoSolve (a : DenseMatrix R) (bound : R) (b : List R) : List R :=
  let top := magnitude a
  let factor := if top == 0.0 then 1.0 else top
  let wide := decide (a.height < a.cols)
  (directions (tall (normalized a))).foldl (fun x d ↦
    let (input, output) := if wide then (d.source, d.image) else (d.image, d.source)
    let length := norm d.image
    let value := length * factor
    let part := if bound < value then dotProduct input b / (value * length) else 0.0
    combine 1.0 x part output) (List.replicate a.cols 0.0)

end SketchSolver.Rotation
