import SketchSolver.Expr.Basic
import SketchSolver.Quaternion

/-!
# Vector and quaternion expressions

Vectors and quaternions whose components are expressions. The value of each operation is the same
operation on the values; `eval_dot`, `eval_cross` and their siblings say so.

Specification: section 4.1.
-/

namespace SketchSolver

variable {R : Type}

namespace Vec3

/-- A vector of three parameters. -/
def ofParams (x y z : ParamId) : Vec3 (Expr R) := ⟨.param x, .param y, .param z⟩

/-- The length, as an expression. -/
def magnitude (a : Vec3 (Expr R)) : Expr R := (a.x.square + a.y.square + a.z.square).sqrt

/-- The vector brought to a given length. -/
def withMagnitude (a : Vec3 (Expr R)) (s : Expr R) : Vec3 (Expr R) := a.scale (s / a.magnitude)

variable [Arith R]

/-- The value of a vector. -/
def eval (v : ParamId → R) (a : Vec3 (Expr R)) : Vec3 R := a.map (Expr.eval v)

variable (v : ParamId → R) (a b : Vec3 (Expr R))

/-- The value of a sum. -/
theorem eval_add : (a + b).eval v = a.eval v + b.eval v := rfl

/-- The value of a difference. -/
theorem eval_sub : (a - b).eval v = a.eval v - b.eval v := rfl

/-- The value of a scaled vector. -/
theorem eval_scale (s : Expr R) : (a.scale s).eval v = (a.eval v).scale (s.eval v) := rfl

/-- The value of an inner product. -/
theorem eval_dot : (a.dot b).eval v = (a.eval v).dot (b.eval v) := rfl

/-- The value of an outer product. -/
theorem eval_cross : (a.cross b).eval v = (a.eval v).cross (b.eval v) := rfl

/-- The value of the length. -/
theorem eval_magnitude : a.magnitude.eval v = (a.eval v).length := rfl

end Vec3

namespace Quaternion

/-- A quaternion of four parameters. -/
def ofParams (w x y z : ParamId) : Quaternion (Expr R) :=
  ⟨.param w, .param x, .param y, .param z⟩

section

variable [Arith R]

/-- Twice the product of two expressions. -/
def twice (a b : Expr R) : Expr R := .constant 2.0 * (a * b)

/-- The U direction, as expressions. -/
def rotationU (q : Quaternion (Expr R)) : Vec3 (Expr R) :=
  ⟨q.w.square + q.x.square - q.y.square - q.z.square,
    twice q.w q.z + twice q.x q.y,
    twice q.x q.z - twice q.w q.y⟩

/-- The V direction, as expressions. -/
def rotationV (q : Quaternion (Expr R)) : Vec3 (Expr R) :=
  ⟨twice q.x q.y - twice q.w q.z,
    q.w.square - q.x.square + q.y.square - q.z.square,
    twice q.w q.x + twice q.y q.z⟩

/-- The normal, as expressions. -/
def rotationN (q : Quaternion (Expr R)) : Vec3 (Expr R) :=
  ⟨twice q.w q.y + twice q.x q.z,
    twice q.y q.z - twice q.w q.x,
    q.w.square - q.x.square - q.y.square + q.z.square⟩

/-- The image of a vector under the rotation of a unit quaternion. -/
def rotate (q : Quaternion (Expr R)) (p : Vec3 (Expr R)) : Vec3 (Expr R) :=
  q.rotationU.scale p.x + q.rotationV.scale p.y + q.rotationN.scale p.z

/-- The value of a quaternion. -/
def eval (v : ParamId → R) (q : Quaternion (Expr R)) : Quaternion R := q.map (Expr.eval v)

end

/-- The Hamilton product. -/
def times (a b : Quaternion (Expr R)) : Quaternion (Expr R) :=
  let va : Vec3 (Expr R) := ⟨a.x, a.y, a.z⟩
  let vb : Vec3 (Expr R) := ⟨b.x, b.y, b.z⟩
  let imaginary := vb.scale a.w + (va.scale b.w + va.cross vb)
  ⟨a.w * b.w - va.dot vb, imaginary.x, imaginary.y, imaginary.z⟩

/-- The length, as an expression. -/
def magnitude (q : Quaternion (Expr R)) : Expr R :=
  (q.w.square + q.x.square + q.y.square + q.z.square).sqrt

end Quaternion

end SketchSolver
