import SketchSolver.Vector

/-!
# Quaternions and plane bases

The orientation of a plane is a unit quaternion. The images of the coordinate axes under its
rotation are the U and V directions of the plane and its normal N. `ofBasis` finds the quaternion
of two given directions.

Specification: section E.3.
-/

namespace SketchSolver

/-- A quaternion with its real part first. -/
structure Quaternion (A : Type) where
  /-- Real part. -/
  w : A
  /-- Coefficient of the first imaginary unit. -/
  x : A
  /-- Coefficient of the second imaginary unit. -/
  y : A
  /-- Coefficient of the third imaginary unit. -/
  z : A
  deriving DecidableEq, Repr, Inhabited

namespace Quaternion

/-- The quaternion with a function applied to each component. -/
def map {A B : Type} (f : A → B) (q : Quaternion A) : Quaternion B :=
  ⟨f q.w, f q.x, f q.y, f q.z⟩

/-- The components, the real part first. -/
def toList {A : Type} (q : Quaternion A) : List A := [q.w, q.x, q.y, q.z]

variable {R : Type} [Arith R]

/-- The squared length. -/
def lengthSquared (q : Quaternion R) : R := q.x * q.x + q.y * q.y + q.z * q.z + q.w * q.w

/-- The quaternion brought to length one. -/
def normalize (q : Quaternion R) : Quaternion R :=
  let r := 1.0 / Arith.sqrt q.lengthSquared
  ⟨q.w * r, q.x * r, q.y * r, q.z * r⟩

/-- The U direction of a plane. -/
def axisU (q : Quaternion R) : Vec3 R :=
  ⟨q.w * q.w + q.x * q.x - q.y * q.y - q.z * q.z,
    2.0 * q.w * q.z + 2.0 * q.x * q.y,
    2.0 * q.x * q.z - 2.0 * q.w * q.y⟩

/-- The V direction of a plane. -/
def axisV (q : Quaternion R) : Vec3 R :=
  ⟨2.0 * q.x * q.y - 2.0 * q.w * q.z,
    q.w * q.w - q.x * q.x + q.y * q.y - q.z * q.z,
    2.0 * q.w * q.x + 2.0 * q.y * q.z⟩

/-- The normal of a plane. -/
def axisN (q : Quaternion R) : Vec3 R :=
  ⟨2.0 * q.w * q.y + 2.0 * q.x * q.z,
    2.0 * q.y * q.z - 2.0 * q.w * q.x,
    q.w * q.w - q.x * q.x - q.y * q.y + q.z * q.z⟩

/-- The unit quaternion of a plane with two given orthonormal directions. Of the four components
the one is computed first that is safely away from zero. -/
def ofBasis (u v : Vec3 R) : Quaternion R :=
  let n := u.cross v
  let trace := 1.0 + u.x + v.y + n.z
  let q : Quaternion R :=
    if (1e-4 : R) < trace then
      let s := 2.0 * Arith.sqrt trace
      ⟨s / 4.0, (v.z - n.y) / s, (n.x - u.z) / s, (u.y - v.x) / s⟩
    else if v.y < u.x ∧ n.z < u.x then
      let s := 2.0 * Arith.sqrt (1.0 + u.x - v.y - n.z)
      ⟨(v.z - n.y) / s, s / 4.0, (u.y + v.x) / s, (n.x + u.z) / s⟩
    else if n.z < v.y then
      let s := 2.0 * Arith.sqrt (1.0 - u.x + v.y - n.z)
      ⟨(n.x - u.z) / s, (u.y + v.x) / s, s / 4.0, (v.z + n.y) / s⟩
    else
      let s := 2.0 * Arith.sqrt (1.0 - u.x - v.y + n.z)
      ⟨(u.y - v.x) / s, (n.x + u.z) / s, (v.z + n.y) / s, s / 4.0⟩
  q.normalize

end Quaternion

end SketchSolver
