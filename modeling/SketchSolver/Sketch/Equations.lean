import SketchSolver.Sketch.Geometry

/-!
# Equations

Each constraint is written as expressions that are zero exactly when it holds, and so is what an
entity needs to stay well formed. Some equations depend on the current values: where a dragged
point is, which way an arc is measured, which of two orientations is closer.

Specification: sections 4.2, 4.3 and E.4.
-/

namespace SketchSolver

namespace Sketch

variable {R : Type} [Arith R]

/-- The first direction is a multiple of the second. -/
def parallelEquations (a b : Vec3 (Expr R)) (scale : ParamId) : List (Expr R) :=
  (a - b.scale (.param scale)).toList

/-- The coordinates of the middle of two points in a workplane. -/
def workplaneMidpoint (s : Sketch R) (wp a b : EntityId) : Outcome R (Expr R × Expr R) := do
  let (au, av) ← s.pointInWorkplane a wp
  let (bu, bv) ← s.pointInWorkplane b wp
  return (.constant 0.5 * (au + bu), .constant 0.5 * (av + bv))

/-- The middle of two points in space. -/
def midpoint (s : Sketch R) (a b : EntityId) : Outcome R (Vec3 (Expr R)) := do
  return ((← s.pointExprs a) + (← s.pointExprs b)).scale (.constant 0.5)

/-- The cosine of the angle between two directions, the first perhaps reversed. -/
def orientedCosine (s : Sketch R) (wp : Option EntityId) (a b : EntityId) (inverse : Bool) :
    Outcome R (Expr R) := do
  let va ← s.vectorExprs a
  let va := if inverse then va.scale (.constant (-1.0)) else va
  s.directionCosine wp va (← s.vectorExprs b)

/-- The direction of a curve at its start or finish, and whether it is that of a radius. -/
def curveDirection (s : Sketch R) (curve : EntityId) (atFinish : Bool) :
    Outcome R (Vec3 (Expr R) × Bool) := do
  let e ← s.entity curve
  match e.shape with
  | .arc _ center start finish =>
    let endpoint ← s.pointExprs (if atFinish then finish else start)
    return (endpoint - (← s.pointExprs center), true)
  | .cubic .. => return (← s.cubicTangent curve atFinish, false)
  | _ => .error (.invalidArguments "Curve-Curve Tangent")

/-- The length of an arc, or the circumference of a circle. The inverse cosine is flat near half a
turn, so the inverse sine is used around there. -/
def arcLength (s : Sketch R) (arc : EntityId) : Outcome R (Expr R) := do
  let e ← s.entity arc
  match e.shape with
  | .arc normal center start finish => do
    let c ← s.pointExprs center
    let toStart := (← s.pointExprs start) - c
    let toFinish := (← s.pointExprs finish) - c
    let r := toFinish.magnitude
    let n ← s.normalDirection normal
    let u := toStart.withMagnitude (.constant 1.0)
    let v := n.cross u
    let cos := toFinish.dot u / r
    let sin := toFinish.dot v / r
    let sweep := (← s.arcAngles arc).sweep
    let angle : Expr R :=
      if sweep < 3.0 * Arith.pi / 4.0 then cos.acos
      else if sweep < 5.0 * Arith.pi / 4.0 then .constant Arith.pi - sin.asin
      else .constant (2.0 * Arith.pi) - cos.acos
    return r * angle
  | _ => return (← s.circleRadius arc) * .constant (2.0 * Arith.pi)

/-- How strongly an angle counts: more if its directions are nearly parallel, where the cosine
hardly changes. -/
def angleGain (target : R) : R :=
  if 0.99 < Arith.abs target then 0.01 / (1.00001 - Arith.abs target) else 1.0

/-- A point stays at its coordinates. -/
def stayEquations (s : Sketch R) (coordinates : List (Expr R)) : List (Expr R) :=
  coordinates.map fun e ↦ e - .constant (e.eval s.value)

end Sketch

namespace Constraint

variable {R : Type}

/-- The workplane of a constraint that cannot do without. -/
def requireWorkplane (c : Constraint R) : Outcome R EntityId :=
  match c.workplane with
  | some wp => .ok wp
  | none => .error (.workplaneRequired c.typeName)

variable [Arith R]

/-- The expressions that are zero exactly when the constraint holds. -/
def equations (c : Constraint R) (s : Sketch R) : Outcome R (List (Expr R)) := do
  let wp := c.workplane
  match c.relation with
  | .pointsCoincident a b =>
    match wp with
    | none => return ((← s.pointExprs a) - (← s.pointExprs b)).toList
    | some wp =>
      let (au, av) ← s.pointInWorkplane a wp
      let (bu, bv) ← s.pointInWorkplane b wp
      return [au - bu, av - bv]
  | .pointInPlane point plane =>
    return [← s.pointPlaneDistance (← s.pointExprs point) plane]
  | .pointOnLine point line place =>
    let (la, lb) ← s.linePoints line
    let a ← s.pointIn la wp
    let b ← s.pointIn lb wp
    let p ← s.pointIn point wp
    let d := a + (b - a).scale (.param place) - p
    match wp with
    | none => return [d.x, d.y, d.z]
    | some _ => return [d.x, d.y]
  | .pointOnCircle point circle =>
    let (center, normal) ← s.circleCenterNormal circle
    let q ← s.normalQuaternion normal
    let d := (← s.pointExprs center) - (← s.pointExprs point)
    return [Sketch.planeLength (d.dot q.rotationU) (d.dot q.rotationV) - (← s.circleRadius circle)]
  | .pointPointDistance a b distance =>
    return [(← s.distanceExpr wp a b) - .constant distance]
  | .projectedPointDistance a b direction distance =>
    let d := (← s.pointExprs b) - (← s.pointExprs a)
    let along := (← s.vectorExprs direction).withMagnitude (.constant 1.0)
    return [d.dot along - .constant distance]
  | .pointPlaneDistance point plane distance =>
    return [(← s.pointPlaneDistance (← s.pointExprs point) plane) - .constant distance]
  | .pointLineDistance point line distance =>
    return [(← s.pointLineDistance wp point line) - .constant distance]
  | .equalLength a b =>
    return [(← s.lineLength wp a) - (← s.lineLength wp b)]
  | .lengthRatio a b ratio =>
    return [(← s.lineLength wp a) / (← s.lineLength wp b) - .constant ratio]
  | .lengthDifference a b difference =>
    return [(← s.lineLength wp a) - (← s.lineLength wp b) - .constant difference]
  | .equalLengthPointLineDistance line point otherLine =>
    let length ← s.lineLength wp line
    let distance ← s.pointLineDistance wp point otherLine
    return [length.square - distance.square]
  | .equalPointLineDistances pointA lineA pointB lineB =>
    let da ← s.pointLineDistance wp pointA lineA
    let db ← s.pointLineDistance wp pointB lineB
    return [da.square - db.square]
  | .equalLineArcLength line arc =>
    return [(← s.arcLength arc) - (← s.lineLength none line)]
  | .equalRadius a b =>
    return [(← s.circleRadius a) - (← s.circleRadius b)]
  | .diameter circle diameter =>
    return [(← s.circleRadius circle) * .constant 2.0 - .constant diameter]
  | .symmetric a b plane =>
    match wp with
    | none =>
      let m ← s.midpoint a b
      let (au, av) ← s.pointInWorkplane a plane
      let (bu, bv) ← s.pointInWorkplane b plane
      return [← s.pointPlaneDistance m plane, au - bu, av - bv]
    | some wp =>
      let (mu, mv) ← s.workplaneMidpoint wp a b
      let m ← s.pointInSpace wp mu mv
      let f ← s.frame wp
      let n := (← s.frame plane).n
      let d := (← s.pointExprs a) - (← s.pointExprs b)
      return [← s.pointPlaneDistance m plane, (n.cross (f.u.cross f.v)).dot d]
  | .symmetricHorizontal a b =>
    let wp ← c.requireWorkplane
    let (au, av) ← s.pointInWorkplane a wp
    let (bu, bv) ← s.pointInWorkplane b wp
    return [av - bv, au + bu]
  | .symmetricVertical a b =>
    let wp ← c.requireWorkplane
    let (au, av) ← s.pointInWorkplane a wp
    let (bu, bv) ← s.pointInWorkplane b wp
    return [au - bu, av + bv]
  | .symmetricLine a b line =>
    let wp ← c.requireWorkplane
    let (la, lb) ← s.linePoints line
    let (au, av) ← s.pointInWorkplane a wp
    let (bu, bv) ← s.pointInWorkplane b wp
    let (lau, lav) ← s.pointInWorkplane la wp
    let (lbu, lbv) ← s.pointInWorkplane lb wp
    let (du, dv) := (lbu - lau, lbv - lav)
    let across := du * (bu - au) + dv * (bv - av)
    let distanceA := dv * (lau - au) - du * (lav - av)
    let distanceB := dv * (lau - bu) - du * (lav - bv)
    return [across, distanceA + distanceB]
  | .pointAtMidpoint point line =>
    let (la, lb) ← s.linePoints line
    match wp with
    | none => return ((← s.midpoint la lb) - (← s.pointExprs point)).toList
    | some wp =>
      let (mu, mv) ← s.workplaneMidpoint wp la lb
      let (pu, pv) ← s.pointInWorkplane point wp
      return [pu - mu, pv - mv]
  | .midpointInPlane line plane =>
    let (la, lb) ← s.linePoints line
    let m ←
      match wp with
      | none => s.midpoint la lb
      | some wp => do
        let (mu, mv) ← s.workplaneMidpoint wp la lb
        s.pointInSpace wp mu mv
    return [← s.pointPlaneDistance m plane]
  | .horizontal _ a b =>
    let wp ← c.requireWorkplane
    return [(← s.pointInWorkplane a wp).2 - (← s.pointInWorkplane b wp).2]
  | .vertical _ a b =>
    let wp ← c.requireWorkplane
    return [(← s.pointInWorkplane a wp).1 - (← s.pointInWorkplane b wp).1]
  | .sameOrientation a b scale =>
    let qa ← s.normalQuaternion a
    let qb ← s.normalQuaternion b
    let toV := qa.rotationU.dot qb.rotationV
    let toU := qa.rotationU.dot qb.rotationU
    let twist := if Arith.abs (toV.eval s.value) < Arith.abs (toU.eval s.value) then toV else toU
    return Sketch.parallelEquations qa.rotationN qb.rotationN scale ++ [twist]
  | .angle a b degrees inverse =>
    let cos ← s.orientedCosine wp a b inverse
    let target := Arith.cos (degrees * Arith.pi / 180.0)
    return [(cos - .constant target) * .constant (Sketch.angleGain target)]
  | .perpendicular a b inverse =>
    return [← s.orientedCosine wp a b inverse]
  | .equalAngle a b c d inverse =>
    let first ← s.orientedCosine wp a b inverse
    let second ← s.orientedCosine wp c d false
    return [first - second]
  | .parallel a b scale =>
    let va ← s.vectorIn a wp
    let vb ← s.vectorIn b wp
    match wp, scale with
    | none, some scale => return Sketch.parallelEquations va vb scale
    | some _, _ => return [va.x * vb.y - va.y * vb.x]
    | none, none => .error (.invalidArguments c.typeName)
  | .arcLineTangent arc line atFinish =>
    let e ← s.entity arc
    match e.shape with
    | .arc _ center start finish =>
      let toCenter :=
        (← s.pointExprs center) - (← s.pointExprs (if atFinish then finish else start))
      return [(← s.vectorExprs line).dot toCenter]
    | _ => .error (.invalidArguments c.typeName)
  | .cubicLineTangent cubic line atFinish scale =>
    let a ← s.cubicTangent cubic atFinish
    let b ← s.vectorExprs line
    match wp, scale with
    | some wp, _ => return [(a.cross b).dot (← s.workplaneNormal wp)]
    | none, some scale => return Sketch.parallelEquations a b scale
    | none, none => .error (.invalidArguments c.typeName)
  | .curveCurveTangent a b aAtFinish bAtFinish =>
    let wp ← c.requireWorkplane
    let (da, aRadius) ← s.curveDirection a aAtFinish
    let (db, bRadius) ← s.curveDirection b bAtFinish
    if aRadius != bRadius then return [da.dot db]
    else return [(da.cross db).dot (← s.workplaneNormal wp)]
  | .whereDragged point =>
    match wp with
    | none => return s.stayEquations (← s.pointExprs point).toList
    | some wp =>
      let (u, v) ← s.pointInWorkplane point wp
      return s.stayEquations [u, v]

end Constraint

namespace Sketch

variable {R : Type}

/-- Whether a constraint of a group brings two points together. -/
def areJoined (s : Sketch R) (g : GroupId) (a b : EntityId) : Bool :=
  (s.constraintsIn g).any fun c ↦
    match c.relation with
    | .pointsCoincident p q => (p == a && q == b) || (p == b && q == a)
    | _ => false

/-- The expressions that are zero exactly when an entity is well formed. A free normal keeps its
quaternion at length one. An arc keeps its finish as far from the center as its start, unless its
center is not in a workplane or its ends are brought together in its own group. -/
def entityEquations [Arith R] (s : Sketch R) (e : Entity) : Outcome R (List (Expr R)) :=
  match e.shape with
  | .normal3d w x y z =>
    let q : Quaternion (Expr R) := .ofParams w x y z
    .ok [q.magnitude - .constant 1.0]
  | .arc _ center start finish => do
    let c ← s.entity center
    if !c.isPoint2d || s.areJoined e.group start finish then return []
    let toStart ← s.distanceExpr e.workplane center start
    let toFinish ← s.distanceExpr e.workplane center finish
    return [toStart - toFinish]
  | _ => .ok []

end Sketch

end SketchSolver
