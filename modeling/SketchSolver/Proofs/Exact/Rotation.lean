import Mathlib.Algebra.Quaternion
import SketchSolver.Expr.Vector
import SketchSolver.Proofs.Exact.Arith

/-!
# Rotations

A quaternion sends a vector to its product from the left with the quaternion and from the right with
the conjugate. This turns the vector and multiplies its length by the squared length of the
quaternion. The axes are the images of the coordinate directions, so they stay at right angles and
right-handed, and the Hamilton product of two quaternions acts like one after the other.
`imaginary_turn` ties the axes to the algebra of quaternions, where the product is associative and
the squared length multiplicative; the same laws of expressions are read off there.
-/

section

open scoped Quaternion

namespace SketchSolver

/-- Three directions of one length at right angles to each other. The outer product of the first two
points along the third. -/
structure Vec3.AreAxes (u v n : Vec3 ℝ) (length : ℝ) : Prop where
  /-- The first and the second direction are at right angles. -/
  uv : u.dot v = 0
  /-- The second and the third direction are at right angles. -/
  vn : v.dot n = 0
  /-- The third and the first direction are at right angles. -/
  nu : n.dot u = 0
  /-- The squared length of the first direction. -/
  uu : u.dot u = length ^ 2
  /-- The squared length of the second direction. -/
  vv : v.dot v = length ^ 2
  /-- The squared length of the third direction. -/
  nn : n.dot n = length ^ 2
  /-- The outer product of the first two directions. -/
  cross : u.cross v = n.scale length

/-- A vector times one is itself. -/
theorem Vec3.scale_one (a : Vec3 ℝ) : a.scale 1 = a := by
  simp only [scale, mul_one]

namespace Quaternion

/-! ## Quaternions of numbers -/

section

variable (q : Quaternion ℝ) (p : Vec3 ℝ)

/-- The axes of a quaternion are at right angles, and as long as its squared length. -/
theorem areAxes : Vec3.AreAxes q.axisU q.axisV q.axisN q.lengthSquared where
  uv := by
    simp only [axisU, axisV, Vec3.dot, Arith.real_two]
    ring
  vn := by
    simp only [axisV, axisN, Vec3.dot, Arith.real_two]
    ring
  nu := by
    simp only [axisU, axisN, Vec3.dot, Arith.real_two]
    ring
  uu := by
    simp only [axisU, lengthSquared, Vec3.dot, Arith.real_two]
    ring
  vv := by
    simp only [axisV, lengthSquared, Vec3.dot, Arith.real_two]
    ring
  nn := by
    simp only [axisN, lengthSquared, Vec3.dot, Arith.real_two]
    ring
  cross := by
    simp only [axisU, axisV, axisN, lengthSquared, Vec3.cross, Vec3.scale, Arith.real_two,
      Vec3.mk.injEq]
    refine ⟨?_, ?_, ?_⟩ <;> ring

/-- The vector with the coordinates of another one along the axes of a quaternion. -/
noncomputable def turn : Vec3 ℝ := q.axisU.scale p.x + q.axisV.scale p.y + q.axisN.scale p.z

/-- A quaternion as an element of the algebra of quaternions. -/
@[simps]
def toAlgebra : ℍ[ℝ] := ⟨q.w, q.x, q.y, q.z⟩

/-- A vector as an element of the algebra of quaternions whose real part is zero. -/
@[simps]
def imaginary : ℍ[ℝ] := ⟨0, p.x, p.y, p.z⟩

/-- A vector is determined by its imaginary quaternion. -/
theorem imaginary_injective : Function.Injective imaginary := by
  rintro ⟨x, y, z⟩ ⟨x', y', z'⟩ h
  rw [Vec3.mk.injEq]
  exact ⟨congrArg QuaternionAlgebra.imI h, congrArg QuaternionAlgebra.imJ h,
    congrArg QuaternionAlgebra.imK h⟩

/-- A vector turns by the product with the quaternion and its conjugate. -/
theorem imaginary_turn : imaginary (q.turn p) = q.toAlgebra * imaginary p * star q.toAlgebra := by
  ext
  · simp
    ring
  · simp [turn, axisU, axisV, axisN, Vec3.add_def, Vec3.scale, Arith.real_two]
    ring
  · simp [turn, axisU, axisV, axisN, Vec3.add_def, Vec3.scale, Arith.real_two]
    ring
  · simp [turn, axisU, axisV, axisN, Vec3.add_def, Vec3.scale, Arith.real_two]
    ring

/-- The squared length is that of the algebra. -/
theorem normSq_toAlgebra : Quaternion.normSq q.toAlgebra = q.lengthSquared := by
  rw [Quaternion.normSq_def']
  simp [lengthSquared]
  ring

end

/-! ## Quaternions of expressions -/

variable {v : ParamId → ℝ} {q r : Quaternion (Expr ℝ)} {p : Vec3 (Expr ℝ)}

/-- The value of twice a product. -/
theorem eval_twice (a b : Expr ℝ) : (twice a b).eval v = 2.0 * a.eval v * b.eval v :=
  (mul_assoc _ _ _).symm

/-- The first direction of a quaternion of expressions is the first axis of its value. -/
theorem eval_rotationU : q.rotationU.eval v = (q.eval v).axisU := by
  simp [rotationU, axisU, Vec3.eval, Vec3.map, eval, map, eval_twice]

/-- The second direction of a quaternion of expressions is the second axis of its value. -/
theorem eval_rotationV : q.rotationV.eval v = (q.eval v).axisV := by
  simp [rotationV, axisV, Vec3.eval, Vec3.map, eval, map, eval_twice]

/-- The normal of a quaternion of expressions is the third axis of its value. -/
theorem eval_rotationN : q.rotationN.eval v = (q.eval v).axisN := by
  simp [rotationN, axisN, Vec3.eval, Vec3.map, eval, map, eval_twice]

/-- The value of a rotated vector. -/
theorem eval_rotate : (q.rotate p).eval v = (q.eval v).turn (p.eval v) := by
  rw [turn, ← eval_rotationU, ← eval_rotationV, ← eval_rotationN]
  rfl

/-- The value of a Hamilton product is the product of the algebra. -/
theorem toAlgebra_eval_times :
    ((q.times r).eval v).toAlgebra = (q.eval v).toAlgebra * (r.eval v).toAlgebra := by
  ext
  · simp [times, eval, map, Vec3.dot]
    ring
  · simp [times, eval, map, Vec3.cross, Vec3.scale, Vec3.add_def]
    ring
  · simp [times, eval, map, Vec3.cross, Vec3.scale, Vec3.add_def]
    ring
  · simp [times, eval, map, Vec3.cross, Vec3.scale, Vec3.add_def]
    ring

/-- The value of the length of a quaternion of expressions. -/
theorem eval_magnitude_sq : q.magnitude.eval v ^ 2 = (q.eval v).lengthSquared := by
  have hsum : q.w.eval v * q.w.eval v + q.x.eval v * q.x.eval v + q.y.eval v * q.y.eval v +
      q.z.eval v * q.z.eval v = (q.eval v).lengthSquared := by
    simp only [lengthSquared, eval, map]
    ring
  have hnonneg : 0 ≤ (q.eval v).lengthSquared := by
    rw [← normSq_toAlgebra]
    exact Quaternion.normSq_nonneg
  change √(q.w.eval v * q.w.eval v + q.x.eval v * q.x.eval v + q.y.eval v * q.y.eval v +
    q.z.eval v * q.z.eval v) ^ 2 = _
  rw [hsum, Real.sq_sqrt hnonneg]

/-- A Hamilton product rotates like its factors one after the other. -/
theorem eval_rotate_times :
    ((q.times r).rotate p).eval v = (q.rotate (r.rotate p)).eval v := by
  apply imaginary_injective
  rw [eval_rotate, eval_rotate, eval_rotate, imaginary_turn, imaginary_turn, imaginary_turn,
    toAlgebra_eval_times, star_mul]
  simp only [mul_assoc]

/-- The squared length of a Hamilton product is the product of the squared lengths. -/
theorem eval_magnitude_times_sq : (q.times r).magnitude.eval v ^ 2 =
    q.magnitude.eval v ^ 2 * r.magnitude.eval v ^ 2 := by
  rw [eval_magnitude_sq, eval_magnitude_sq, eval_magnitude_sq, ← normSq_toAlgebra,
    toAlgebra_eval_times, map_mul, normSq_toAlgebra, normSq_toAlgebra]

/-- Quaternions of expressions rotate. Their directions have the axes of the value as values, which
are at right angles and as long as the squared length of the quaternion. Hamilton products rotate
like their factors one after the other, and squared lengths are multiplied. -/
theorem rotation_laws (v : ParamId → ℝ) (q r : Quaternion (Expr ℝ))
    (p : Vec3 (Expr ℝ)) :
    (q.rotationU.eval v = (q.eval v).axisU ∧ q.rotationV.eval v = (q.eval v).axisV ∧
      q.rotationN.eval v = (q.eval v).axisN) ∧
    Vec3.AreAxes (q.rotationU.eval v) (q.rotationV.eval v) (q.rotationN.eval v)
      (q.magnitude.eval v ^ 2) ∧
    ((q.times r).rotate p).eval v = (q.rotate (r.rotate p)).eval v ∧
    (q.times r).magnitude.eval v ^ 2 = q.magnitude.eval v ^ 2 * r.magnitude.eval v ^ 2 := by
  refine ⟨⟨eval_rotationU, eval_rotationV, eval_rotationN⟩, ?_, eval_rotate_times,
    eval_magnitude_times_sq⟩
  rw [eval_rotationU, eval_rotationV, eval_rotationN, eval_magnitude_sq]
  exact (q.eval v).areAxes

end Quaternion

end SketchSolver

end
