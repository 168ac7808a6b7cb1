import SketchSolver.Quaternion
import SketchSolver.Sketch.Operation

/-!
# Drawing entities

What can be drawn is described by a request. A request is first checked against the sketch, which
gives the shape of the new entity with the values of its parameters; only then does the sketch
change.

Specification: sections 6 and E.3.
-/

namespace SketchSolver

/-- An entity to be drawn. -/
inductive EntityRequest (R : Type)
  /-- A point in space. -/
  | point3d (position : Vec3 R)
  /-- A point in a workplane at given coordinates. -/
  | point2d (workplane : EntityId) (u v : R)
  /-- A free normal with a given orientation, which is brought to length one. -/
  | normal3d (orientation : Quaternion R)
  /-- A free normal with given directions in its plane. -/
  | normalFromBasis (u v : Vec3 R)
  /-- The normal of a workplane. -/
  | normal2d (workplane : EntityId)
  /-- A length. -/
  | distance (workplane : EntityId) (value : R)
  /-- A workplane at a point in space with a free normal. -/
  | workplane (origin normal : EntityId)
  /-- A line between two points of a workplane. -/
  | line2d (workplane a b : EntityId)
  /-- A line between two points in space. -/
  | line3d (a b : EntityId)
  /-- A cubic curve on four points of a workplane. -/
  | cubic (workplane start afterStart beforeFinish finish : EntityId)
  /-- An arc on points of a workplane, counter-clockwise about a free normal. -/
  | arc (workplane normal center start finish : EntityId)
  /-- A circle around a point of a workplane. -/
  | circle (workplane normal center radius : EntityId)
  deriving Repr

/-- A checked request: where the entity is drawn and its shape. -/
structure EntityPlan (R : Type) where
  /-- The workplane that the entity is drawn in. -/
  workplane : Option EntityId
  /-- The shape with the values of its parameters. -/
  shape : Shape R
  deriving Repr

namespace Sketch

variable {R : Type}

/-- Refuses values to start with that are not numbers within range, naming the first. -/
def checkFinite [Arith R] (values : List R) : Outcome R Unit :=
  match values.find? fun x ↦ !Arith.isFinite x with
  | some x => .error (.invalidValue (.initial x))
  | none => .ok ()

/-- The argument that names the workplane of an operation. -/
def requireWorkplane (s : Sketch R) (g : GroupId) (wp : EntityId) : Outcome R Entity :=
  s.require g "workplane" .workplane wp

/-- An argument that is a point drawn in a given workplane. -/
def requirePointIn (s : Sketch R) (g : GroupId) (wp : EntityId) (role operation : String)
    (point : EntityId) : Outcome R Entity := do
  let e ← s.require g role .point2d point
  if e.workplane = some wp then .ok e else .error (.invalidArguments operation)

/-- The plan of a free normal. -/
def planNormal3d [Arith R] (q : Quaternion R) : Outcome R (EntityPlan R) := do
  checkFinite q.toList
  if q.lengthSquared == 0.0 then .error (.invalidValue .zeroQuaternion)
  else
    let n := q.normalize
    return ⟨none, .normal3d n.w n.x n.y n.z⟩

/-- The checked request, for an entity of a group. -/
def planEntity [Arith R] (s : Sketch R) (g : GroupId) :
    EntityRequest R → Outcome R (EntityPlan R)
  | .point3d p => do
    checkFinite p.toList
    return ⟨none, .point3d p.x p.y p.z⟩
  | .point2d wp u v => do
    checkFinite [u, v]
    let _ ← s.requireWorkplane g wp
    return ⟨some wp, .point2d u v⟩
  | .normal3d q => planNormal3d q
  | .normalFromBasis u v => planNormal3d (.ofBasis u v)
  | .normal2d wp => do
    let _ ← s.requireWorkplane g wp
    return ⟨some wp, .normal2d⟩
  | .distance wp x => do
    checkFinite [x]
    let _ ← s.requireWorkplane g wp
    return ⟨some wp, .distance x⟩
  | .workplane origin normal => do
    let _ ← s.require g "origin" .point3d origin
    let _ ← s.require g "normal" .normal3d normal
    return ⟨none, .workplane origin normal⟩
  | .line2d wp a b => do
    let _ ← s.requireWorkplane g wp
    let _ ← s.requirePointIn g wp "point" "Line" a
    let _ ← s.requirePointIn g wp "point" "Line" b
    return ⟨some wp, .line a b⟩
  | .line3d a b => do
    let _ ← s.require g "point" .point3d a
    let _ ← s.require g "point" .point3d b
    return ⟨none, .line a b⟩
  | .cubic wp a b c d => do
    let _ ← s.requireWorkplane g wp
    let _ ← s.requirePointIn g wp "point" "Cubic" a
    let _ ← s.requirePointIn g wp "point" "Cubic" b
    let _ ← s.requirePointIn g wp "point" "Cubic" c
    let _ ← s.requirePointIn g wp "point" "Cubic" d
    return ⟨some wp, .cubic a b c d⟩
  | .arc wp normal center start finish => do
    let _ ← s.requireWorkplane g wp
    let _ ← s.require g "normal" .normal3d normal
    let _ ← s.requirePointIn g wp "center" "Arc" center
    let _ ← s.requirePointIn g wp "start" "Arc" start
    let _ ← s.requirePointIn g wp "end" "Arc" finish
    return ⟨some wp, .arc normal center start finish⟩
  | .circle wp normal center radius => do
    let _ ← s.requireWorkplane g wp
    let _ ← s.require g "normal" .normal3d normal
    let _ ← s.requirePointIn g wp "center" "Circle" center
    let _ ← s.require g "radius" .distance radius
    return ⟨some wp, .circle center normal radius⟩

/-- The sketch with a requested entity. -/
def draw [Arith R] (s : Sketch R) (g : GroupId) (request : EntityRequest R) :
    Outcome R (EntityId × Sketch R) := do
  let plan ← s.planEntity g request
  return s.addEntity g plan.workplane plan.shape

end Sketch

/-- Draws the workplane of the first two coordinates, after its normal and its origin. -/
def Operation.drawBase {R : Type} [Arith R] (g : GroupId) : Operation R EntityId := do
  let normal ← change fun s ↦ s.draw g (.normalFromBasis ⟨1.0, 0.0, 0.0⟩ ⟨0.0, 1.0, 0.0⟩)
  let origin ← change fun s ↦ s.draw g (.point3d ⟨0.0, 0.0, 0.0⟩)
  change fun s ↦ s.draw g (.workplane origin normal)

end SketchSolver
