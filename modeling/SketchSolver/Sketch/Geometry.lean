import SketchSolver.Expr.Vector
import SketchSolver.Sketch.Basic

/-!
# Geometry of entities

Positions, directions, lengths and distances of entities as expressions over the parameters of
the sketch. In a workplane, coordinates are taken along the U and V directions of its frame; a
point that is drawn in the workplane has its own parameters as coordinates.

Specification: section E.3.
-/

namespace SketchSolver

/-- The origin of a workplane and its directions, as expressions. -/
structure Frame (R : Type) where
  /-- The origin. -/
  origin : Vec3 (Expr R)
  /-- The first direction in the plane. -/
  u : Vec3 (Expr R)
  /-- The second direction in the plane. -/
  v : Vec3 (Expr R)
  /-- The direction of the normal. -/
  n : Vec3 (Expr R)

namespace Sketch

variable {R : Type}

/-- The complaint about an entity of the wrong kind. -/
def wrongKind {α : Type} (e : Entity) (role : String) (kind : EntityClass) : Outcome R α :=
  .error (.wrongEntityKind role e.id kind.description e.typeName)

/-- The workplane that an entity is drawn in. -/
def ownWorkplane (e : Entity) : Outcome R EntityId :=
  match e.workplane with
  | some wp => .ok wp
  | none => .error (.workplaneRequired e.typeName)

/-! ## Workplanes and normals -/

/-- The origin and the normal of a workplane. -/
def workplaneParts (s : Sketch R) (wp : EntityId) : Outcome R (EntityId × EntityId) := do
  let e ← s.entity wp
  match e.shape with
  | .workplane origin normal => .ok (origin, normal)
  | _ => wrongKind e "workplane" .workplane

/-- The position of a point in space. -/
def point3dExprs (s : Sketch R) (point : EntityId) : Outcome R (Vec3 (Expr R)) := do
  let e ← s.entity point
  match e.shape with
  | .point3d x y z => .ok (.ofParams x y z)
  | _ => wrongKind e "point" .point

/-- The quaternion of a free normal. -/
def normal3dQuaternion (s : Sketch R) (normal : EntityId) : Outcome R (Quaternion (Expr R)) := do
  let e ← s.entity normal
  match e.shape with
  | .normal3d w x y z => .ok (.ofParams w x y z)
  | _ => wrongKind e "normal" .normal

/-- The quaternion of a normal, which is that of its workplane if it is not free. -/
def normalQuaternion (s : Sketch R) (normal : EntityId) : Outcome R (Quaternion (Expr R)) := do
  let e ← s.entity normal
  match e.shape with
  | .normal3d w x y z => .ok (.ofParams w x y z)
  | .normal2d => do
    let parts ← s.workplaneParts (← ownWorkplane e)
    s.normal3dQuaternion parts.2
  | _ => wrongKind e "normal" .normal

/-! ## Parts of lines and circles -/

/-- The ends of a line. -/
def linePoints (s : Sketch R) (line : EntityId) : Outcome R (EntityId × EntityId) := do
  let e ← s.entity line
  match e.shape with
  | .line a b => .ok (a, b)
  | _ => wrongKind e "line" .line

/-- The center and the normal of a circle or arc. -/
def circleCenterNormal (s : Sketch R) (circle : EntityId) :
    Outcome R (EntityId × EntityId) := do
  let e ← s.entity circle
  match e.shape with
  | .circle center normal _ => .ok (center, normal)
  | .arc normal center _ _ => .ok (center, normal)
  | _ => wrongKind e "circle" .circle

/-! ## Directions of workplanes -/

variable [Arith R]

/-- The direction of a normal. -/
def normalDirection (s : Sketch R) (normal : EntityId) : Outcome R (Vec3 (Expr R)) := do
  return (← s.normalQuaternion normal).rotationN

/-- The frame of a workplane. -/
def frame (s : Sketch R) (wp : EntityId) : Outcome R (Frame R) := do
  let (origin, normal) ← s.workplaneParts wp
  let q ← s.normal3dQuaternion normal
  return ⟨← s.point3dExprs origin, q.rotationU, q.rotationV, q.rotationN⟩

/-- The normal direction of a workplane. -/
def workplaneNormal (s : Sketch R) (wp : EntityId) : Outcome R (Vec3 (Expr R)) := do
  s.normalDirection (← s.workplaneParts wp).2

/-! ## Points -/

/-- The position of a point. -/
def pointExprs (s : Sketch R) (point : EntityId) : Outcome R (Vec3 (Expr R)) := do
  let e ← s.entity point
  match e.shape with
  | .point3d x y z => .ok (.ofParams x y z)
  | .point2d u v => do
    let f ← s.frame (← ownWorkplane e)
    return f.origin + f.u.scale (.param u) + f.v.scale (.param v)
  | _ => wrongKind e "point" .point

/-- The coordinates of a point in a workplane. -/
def pointInWorkplane (s : Sketch R) (point wp : EntityId) : Outcome R (Expr R × Expr R) := do
  let e ← s.entity point
  let measured : Outcome R (Expr R × Expr R) := do
    let f ← s.frame wp
    let offset := (← s.pointExprs point) - f.origin
    return (offset.dot f.u, offset.dot f.v)
  match e.shape with
  | .point2d u v => if e.workplane = some wp then return (.param u, .param v) else measured
  | _ => measured

/-- The position of a point in space, or its coordinates in a workplane with a zero behind. -/
def pointIn (s : Sketch R) (point : EntityId) (wp : Option EntityId) :
    Outcome R (Vec3 (Expr R)) :=
  match wp with
  | none => s.pointExprs point
  | some wp => do
    let (u, v) ← s.pointInWorkplane point wp
    return ⟨u, v, .constant 0.0⟩

/-- The position in space of given coordinates in a workplane. -/
def pointInSpace (s : Sketch R) (wp : EntityId) (u v : Expr R) : Outcome R (Vec3 (Expr R)) := do
  let f ← s.frame wp
  return f.u.scale u + f.v.scale v + f.origin

/-- The current position of a point. -/
def position (s : Sketch R) (point : EntityId) : Outcome R (Vec3 R) := do
  return (← s.pointExprs point).eval s.value

/-- The signed distance of a position from a workplane. -/
def pointPlaneDistance (s : Sketch R) (point : Vec3 (Expr R)) (wp : EntityId) :
    Outcome R (Expr R) := do
  let f ← s.frame wp
  return point.dot f.n - f.origin.dot f.n

/-! ## Directions -/

/-- The direction of a line, from its second point to its first, or of a normal; in a workplane,
its coordinates there. -/
def vectorIn (s : Sketch R) (id : EntityId) (wp : Option EntityId) :
    Outcome R (Vec3 (Expr R)) := do
  let e ← s.entity id
  let normal : Outcome R (Vec3 (Expr R)) := do
    let n ← s.normalDirection id
    match wp with
    | none => return n
    | some wp => do
      let f ← s.frame wp
      return ⟨n.dot f.u, n.dot f.v, .constant 0.0⟩
  match e.shape with
  | .line a b => return (← s.pointIn a wp) - (← s.pointIn b wp)
  | .normal3d .. => normal
  | .normal2d => normal
  | _ => wrongKind e "direction" .direction

/-- The direction of a line or normal in space. -/
def vectorExprs (s : Sketch R) (id : EntityId) : Outcome R (Vec3 (Expr R)) := s.vectorIn id none

/-- The current direction of a line or normal in space. -/
def vectorValue (s : Sketch R) (id : EntityId) : Outcome R (Vec3 R) := do
  return (← s.vectorExprs id).eval s.value

/-- The length of a vector in a plane. -/
def planeLength (u v : Expr R) : Expr R := (u.square + v.square).sqrt

/-- The cosine of the angle between two directions, or between what is seen of them in a
workplane. -/
def directionCosine (s : Sketch R) (wp : Option EntityId) (a b : Vec3 (Expr R)) :
    Outcome R (Expr R) :=
  match wp with
  | none => .ok (a.dot b / (a.magnitude * b.magnitude))
  | some wp => do
    let f ← s.frame wp
    let (ua, va) := (a.dot f.u, a.dot f.v)
    let (ub, vb) := (b.dot f.u, b.dot f.v)
    return (ua * ub + va * vb) / (planeLength ua va * planeLength ub vb)

/-- The direction of a cubic at its start or finish, from the control point outwards. -/
def cubicTangent (s : Sketch R) (cubic : EntityId) (atFinish : Bool) :
    Outcome R (Vec3 (Expr R)) := do
  let e ← s.entity cubic
  match e.shape with
  | .cubic start afterStart beforeFinish finish =>
    if atFinish then return (← s.pointExprs finish) - (← s.pointExprs beforeFinish)
    else return (← s.pointExprs start) - (← s.pointExprs afterStart)
  | _ => wrongKind e "curve" .cubic

/-! ## Lengths and distances -/

/-- The distance of two points, in space or in a workplane. -/
def distanceExpr (s : Sketch R) (wp : Option EntityId) (a b : EntityId) : Outcome R (Expr R) :=
  match wp with
  | none => do return ((← s.pointExprs a) - (← s.pointExprs b)).magnitude
  | some wp => do
    let (au, av) ← s.pointInWorkplane a wp
    let (bu, bv) ← s.pointInWorkplane b wp
    return planeLength (au - bu) (av - bv)

/-- The length of a line, in space or in a workplane. -/
def lineLength (s : Sketch R) (wp : Option EntityId) (line : EntityId) : Outcome R (Expr R) := do
  let (a, b) ← s.linePoints line
  s.distanceExpr wp a b

/-- The distance of a point from a line, in space or with a sign in a workplane. -/
def pointLineDistance (s : Sketch R) (wp : Option EntityId) (point line : EntityId) :
    Outcome R (Expr R) := do
  let (la, lb) ← s.linePoints line
  match wp with
  | none =>
    let a ← s.pointExprs la
    let b ← s.pointExprs lb
    let p ← s.pointExprs point
    let ab := a - b
    return (ab.cross (a - p)).magnitude / ab.magnitude
  | some wp =>
    let (ua, va) ← s.pointInWorkplane la wp
    let (ub, vb) ← s.pointInWorkplane lb wp
    let (u, v) ← s.pointInWorkplane point wp
    let (du, dv) := (ua - ub, va - vb)
    return (dv * (ua - u) - du * (va - v)) / planeLength du dv

/-- The radius of a circle or arc. -/
def circleRadius (s : Sketch R) (circle : EntityId) : Outcome R (Expr R) := do
  let e ← s.entity circle
  match e.shape with
  | .circle _ _ radius => do
    let r ← s.entity radius
    match r.shape with
    | .distance p => return .param p
    | _ => wrongKind r "radius" .distance
  | .arc _ center start _ => s.distanceExpr e.workplane center start
  | _ => wrongKind e "circle" .circle

/-! ## The sweep of an arc -/

/-- The start angle, the finish angle and the counter-clockwise sweep of an arc. -/
structure ArcAngles (R : Type) where
  /-- Angle of the start. -/
  start : R
  /-- Angle of the finish. -/
  finish : R
  /-- Angle from the start to the finish. -/
  sweep : R

/-- A sweep that is too small, with a full turn added. -/
def addTurn (sweep : R) : R := if sweep < 1e-6 then sweep + 2.0 * Arith.pi else sweep

/-- A sweep of more than a full turn, with a full turn taken away. -/
def dropTurn (sweep : R) : R :=
  if 2.0 * Arith.pi < sweep then sweep - 2.0 * Arith.pi else sweep

/-- The sweep from one angle to another. The difference of two angles is at most a full turn either
way, so a turn is added at most twice and then taken away at most once. -/
def sweepBetween (start finish : R) : R := dropTurn (addTurn (addTurn (finish - start)))

/-- The current angles of an arc, measured in the frame of its normal. -/
def arcAngles (s : Sketch R) (arc : EntityId) : Outcome R (ArcAngles R) := do
  let e ← s.entity arc
  match e.shape with
  | .arc normal center start finish => do
    let q ← s.normalQuaternion normal
    let u := q.rotationU.eval s.value
    let v := q.rotationV.eval s.value
    let c ← s.position center
    let angle (p : Vec3 R) : R := Arith.atan2 ((p - c).dot v) ((p - c).dot u)
    let a := angle (← s.position start)
    let b := angle (← s.position finish)
    return ⟨a, b, sweepBetween a b⟩
  | _ => wrongKind e "arc" .arc

end Sketch

end SketchSolver
