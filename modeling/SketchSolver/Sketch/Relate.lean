import SketchSolver.Sketch.Draw
import SketchSolver.Sketch.Geometry

/-!
# Relating entities

What can be demanded of entities is described by a request. A request is first checked against the
sketch: its arguments have to be of the right kinds and of no later group, and they choose the
relation. Then the handle is taken. An auxiliary unknown starts at the value that comes closest to
the relation, which for some relations is found before the handle is taken and for others after it.

Specification: sections 6 and E.4.
-/

namespace SketchSolver

/-- A constraint to be added. -/
inductive ConstraintRequest (R : Type)
  /-- A point lies on another entity. -/
  | coincident (a b : EntityId) (wp : Option EntityId)
  /-- The distance of a point from a point, workplane or line. -/
  | distance (a b : EntityId) (value : R) (wp : Option EntityId)
  /-- The distance of two points along a line or normal. -/
  | projectedDistance (a b direction : EntityId) (value : R)
  /-- Two lengths or radii are equal. -/
  | equal (a b : EntityId) (wp : Option EntityId)
  /-- Two angles are equal. -/
  | equalAngle (a b c d : EntityId) (inverse : Bool) (wp : Option EntityId)
  /-- Two distances of a point from a line are equal. -/
  | equalPointToLine (pointA lineA pointB lineB : EntityId) (wp : Option EntityId)
  /-- The length of a line is the distance of a point from another line. -/
  | equalLengthPointLineDistance (line point otherLine : EntityId) (wp : Option EntityId)
  /-- The ratio of two lengths. -/
  | ratio (a b : EntityId) (value : R) (wp : Option EntityId)
  /-- The difference of two lengths. -/
  | lengthDifference (a b : EntityId) (value : R) (wp : Option EntityId)
  /-- The diameter of a circle or arc. -/
  | diameter (circle : EntityId) (value : R)
  /-- Two points are mirror images at a workplane or line. -/
  | symmetric (a b about : EntityId) (wp : Option EntityId)
  /-- Two points are mirror images at the V axis. -/
  | symmetricHorizontal (a b wp : EntityId)
  /-- Two points are mirror images at the U axis. -/
  | symmetricVertical (a b wp : EntityId)
  /-- A point is the middle of a line. -/
  | midpoint (point line : EntityId) (wp : Option EntityId)
  /-- The middle of a line lies in a workplane. -/
  | midpointOnPlane (line plane : EntityId) (wp : Option EntityId)
  /-- A line runs along the U axis. -/
  | horizontal (line wp : EntityId)
  /-- A line runs along the V axis. -/
  | vertical (line wp : EntityId)
  /-- Two points share their V coordinate. -/
  | horizontalPoints (a b wp : EntityId)
  /-- Two points share their U coordinate. -/
  | verticalPoints (a b wp : EntityId)
  /-- Two normals describe one orientation. -/
  | sameOrientation (a b : EntityId)
  /-- The angle between two directions in degrees. -/
  | angle (a b : EntityId) (degrees : R) (inverse : Bool) (wp : Option EntityId)
  /-- Two directions are perpendicular. -/
  | perpendicular (a b : EntityId) (inverse : Bool) (wp : Option EntityId)
  /-- Two directions are parallel. -/
  | parallel (a b : EntityId) (wp : Option EntityId)
  /-- Two curves are tangent where they meet. -/
  | tangent (a b : EntityId) (wp : Option EntityId)
  /-- A point stays where it is. -/
  | dragged (point : EntityId) (wp : Option EntityId)
  deriving Repr

/-- Where an auxiliary unknown starts. -/
inductive Seed (R : Type)
  /-- At a value. -/
  | value (x : R)
  /-- At the factor between the directions of two lines or normals. -/
  | scale (a b : EntityId)
  /-- At the factor between the direction of a cubic at its start or finish and that of a line. -/
  | tangentScale (cubic : EntityId) (atFinish : Bool) (line : EntityId)
  deriving Repr

/-- A checked request: where the constraint is measured and what it demands. -/
structure ConstraintPlan (R : Type) where
  /-- The workplane that the constraint is measured in. -/
  workplane : Option EntityId
  /-- The relation with the start of its auxiliary unknown. -/
  relation : Relation R (Seed R)
  deriving Repr

namespace Sketch

variable {R : Type}

/-- The workplane of an operation, if there is one. -/
def checkWorkplane (s : Sketch R) (g : GroupId) : Option EntityId → Outcome R Unit
  | none => .ok ()
  | some wp => do
    let _ ← s.requireWorkplane g wp
    return ()

/-- Two points of workplanes as arguments of an operation in a workplane. -/
def requirePoints2d (s : Sketch R) (g : GroupId) (a b wp : EntityId) : Outcome R Unit := do
  s.checkWorkplane g (some wp)
  let _ ← s.require g "first" .point2d a
  let _ ← s.require g "second" .point2d b
  return ()

/-- A line of a workplane as the argument of an operation in a workplane, and its ends. -/
def requireLine2d (s : Sketch R) (g : GroupId) (line wp : EntityId) :
    Outcome R (EntityId × EntityId) := do
  s.checkWorkplane g (some wp)
  let _ ← s.require g "line" .line2d line
  s.linePoints line

/-- Two lines as arguments of an operation. -/
def requireLines (s : Sketch R) (g : GroupId) (a b : EntityId) (wp : Option EntityId) :
    Outcome R Unit := do
  s.checkWorkplane g wp
  let _ ← s.require g "first" .line a
  let _ ← s.require g "second" .line b
  return ()

/-- Two directions as arguments of an operation. -/
def requireDirections (s : Sketch R) (g : GroupId) (a b : EntityId) (wp : Option EntityId) :
    Outcome R Unit := do
  s.checkWorkplane g wp
  let _ ← s.require g "first" .direction a
  let _ ← s.require g "second" .direction b
  return ()

variable [Arith R]

/-- The factor that brings the second vector closest to the first, zero if it has no length. -/
def closestScale (a b : Vec3 R) : R :=
  let square := b.dot b
  if (0.0 : R) < square then a.dot b / square else 0.0

/-- The place along the line from one point to another that is closest to a third, zero if the line
has no length. -/
def closestPlace (a b p : Vec3 R) : R :=
  let d := b - a
  let square := d.dot d
  if (0.0 : R) < square then d.dot (p - a) / square else 0.0

/-- Whether two points are at one place now. -/
def pointsMatch (s : Sketch R) (a b : EntityId) : Outcome R Bool := do
  if a = b then return true
  else return decide ((← s.position a).distance (← s.position b) < 1e-6)

/-- The factor between the current directions of two lines or normals. -/
def scaleOf (s : Sketch R) (a b : EntityId) : Outcome R R := do
  return closestScale (← s.vectorValue a) (← s.vectorValue b)

/-- The plan of a point on another entity. -/
def planCoincident (s : Sketch R) (g : GroupId) (a b : EntityId) (wp : Option EntityId) :
    Outcome R (ConstraintPlan R) := do
  s.checkWorkplane g wp
  let _ ← s.require g "first" .point a
  let other ← s.require g "second" .locus b
  if other.isPoint then return ⟨wp, .pointsCoincident a b⟩
  else if other.isWorkplane then
    if wp.isSome then .error (.workplaneNotAllowed "Point In Plane")
    else return ⟨wp, .pointInPlane a b⟩
  else if other.isLine then
    let (la, lb) ← s.linePoints b
    let pa := (← s.pointIn la wp).eval s.value
    let pb := (← s.pointIn lb wp).eval s.value
    let p := (← s.pointIn a wp).eval s.value
    return ⟨wp, .pointOnLine a b (.value (closestPlace pa pb p))⟩
  else return ⟨wp, .pointOnCircle a b⟩

/-- The plan of a distance from a point. -/
def planDistance (s : Sketch R) (g : GroupId) (a b : EntityId) (x : R) (wp : Option EntityId) :
    Outcome R (ConstraintPlan R) := do
  s.checkWorkplane g wp
  let _ ← s.require g "first" .point a
  let other ← s.require g "second" .landmark b
  if other.isPoint then return ⟨wp, .pointPointDistance a b x⟩
  else if other.isWorkplane then
    if wp.isSome then .error (.workplaneNotAllowed "Point-Plane Distance")
    else return ⟨wp, .pointPlaneDistance a b x⟩
  else return ⟨wp, .pointLineDistance a b x⟩

/-- The plan of two equal lengths or radii. -/
def planEqual (s : Sketch R) (g : GroupId) (a b : EntityId) (wp : Option EntityId) :
    Outcome R (ConstraintPlan R) := do
  s.checkWorkplane g wp
  let ea ← s.require g "first" .measured a
  let eb ← s.require g "second" .measured b
  match ea.isLine, eb.isLine with
  | true, true => return ⟨wp, .equalLength a b⟩
  | true, false => return ⟨wp, .equalLineArcLength a b⟩
  | false, true => return ⟨wp, .equalLineArcLength b a⟩
  | false, false => return ⟨wp, .equalRadius a b⟩

/-- The plan of two points mirrored at a workplane or line. Points of workplanes are mirrored
within the workplane of the first unless another one is given. -/
def planSymmetric (s : Sketch R) (g : GroupId) (a b about : EntityId) (wp : Option EntityId) :
    Outcome R (ConstraintPlan R) := do
  s.checkWorkplane g wp
  let ea ← s.require g "first" .point a
  let eb ← s.require g "second" .point b
  let mirror ← s.require g "mirror" .mirror about
  if mirror.isLine then
    match wp with
    | none => .error (.workplaneRequired "Symmetric Line")
    | some wp => return ⟨some wp, .symmetricLine a b about⟩
  else
    match wp with
    | some wp => return ⟨some wp, .symmetric a b about⟩
    | none =>
      return ⟨if ea.isPoint2d && eb.isPoint2d then ea.workplane else none, .symmetric a b about⟩

/-- The plan of a line that is tangent to an arc or cubic, at the end where they meet. The start is
tried first. -/
def planLineTangent (s : Sketch R) (curve line : Entity) (ends lineEnds : EntityId × EntityId)
    (wp : Option EntityId) : Outcome R (ConstraintPlan R) := do
  let touches (p : EntityId) : Outcome R Bool := do
    if ← s.pointsMatch p lineEnds.1 then return true else s.pointsMatch p lineEnds.2
  let atStart ← touches ends.1
  let atFinish ← if atStart then pure false else touches ends.2
  if !atStart && !atFinish then .error (.noSharedEndpoint curve.id line.id)
  else if curve.isArc then
    match wp with
    | none => .error (.workplaneRequired "Arc-Line Tangent")
    | some wp => return ⟨some wp, .arcLineTangent curve.id line.id atFinish⟩
  else
    match wp with
    | some wp => return ⟨some wp, .cubicLineTangent curve.id line.id atFinish none⟩
    | none =>
      let scale := Seed.tangentScale curve.id atFinish line.id
      return ⟨none, .cubicLineTangent curve.id line.id atFinish (some scale)⟩

/-- The plan of two arcs or cubics that are tangent at the ends where they meet. Starts are tried
before finishes. -/
def planCurveTangent (s : Sketch R) (a b : Entity) (aEnds bEnds : EntityId × EntityId)
    (wp : Option EntityId) : Outcome R (ConstraintPlan R) := do
  match wp with
  | none => .error (.workplaneRequired "Curve-Curve Tangent")
  | some wp =>
    if ← s.pointsMatch aEnds.1 bEnds.1 then
      return ⟨some wp, .curveCurveTangent a.id b.id false false⟩
    else if ← s.pointsMatch aEnds.1 bEnds.2 then
      return ⟨some wp, .curveCurveTangent a.id b.id false true⟩
    else if ← s.pointsMatch aEnds.2 bEnds.1 then
      return ⟨some wp, .curveCurveTangent a.id b.id true false⟩
    else if ← s.pointsMatch aEnds.2 bEnds.2 then
      return ⟨some wp, .curveCurveTangent a.id b.id true true⟩
    else .error (.noSharedEndpoint a.id b.id)

/-- The plan of two tangent curves. A line is put second, and two lines are refused. -/
def planTangent (s : Sketch R) (g : GroupId) (a b : EntityId) (wp : Option EntityId) :
    Outcome R (ConstraintPlan R) := do
  s.checkWorkplane g wp
  let ea ← s.require g "first" .curve a
  let eb ← s.require g "second" .curve b
  let (ea, eb) := if ea.isLine then (eb, ea) else (ea, eb)
  if ea.isLine then .error (.invalidArguments "Tangent")
  else
    match ea.shape.endpoints?, eb.shape.endpoints? with
    | some aEnds, some bEnds =>
      if eb.isLine then s.planLineTangent ea eb aEnds bEnds wp
      else s.planCurveTangent ea eb aEnds bEnds wp
    | _, _ => .error (.invalidArguments "Tangent")

/-- The checked request, for a constraint of a group. -/
def planConstraint (s : Sketch R) (g : GroupId) :
    ConstraintRequest R → Outcome R (ConstraintPlan R)
  | .coincident a b wp => s.planCoincident g a b wp
  | .distance a b x wp => s.planDistance g a b x wp
  | .projectedDistance a b direction x => do
    let _ ← s.require g "first" .point a
    let _ ← s.require g "second" .point b
    let _ ← s.require g "direction" .direction direction
    return ⟨none, .projectedPointDistance a b direction x⟩
  | .equal a b wp => s.planEqual g a b wp
  | .equalAngle a b c d inverse wp => do
    s.checkWorkplane g wp
    let _ ← s.require g "direction" .direction a
    let _ ← s.require g "direction" .direction b
    let _ ← s.require g "direction" .direction c
    let _ ← s.require g "direction" .direction d
    return ⟨wp, .equalAngle a b c d inverse⟩
  | .equalPointToLine pointA lineA pointB lineB wp => do
    s.checkWorkplane g wp
    let _ ← s.require g "point" .point pointA
    let _ ← s.require g "line" .line lineA
    let _ ← s.require g "point" .point pointB
    let _ ← s.require g "line" .line lineB
    return ⟨wp, .equalPointLineDistances pointA lineA pointB lineB⟩
  | .equalLengthPointLineDistance line point otherLine wp => do
    s.checkWorkplane g wp
    let _ ← s.require g "line" .line line
    let _ ← s.require g "point" .point point
    let _ ← s.require g "line" .line otherLine
    return ⟨wp, .equalLengthPointLineDistance line point otherLine⟩
  | .ratio a b x wp => do
    s.requireLines g a b wp
    return ⟨wp, .lengthRatio a b x⟩
  | .lengthDifference a b x wp => do
    s.requireLines g a b wp
    return ⟨wp, .lengthDifference a b x⟩
  | .diameter circle x => do
    let _ ← s.require g "circle" .circle circle
    return ⟨none, .diameter circle x⟩
  | .symmetric a b about wp => s.planSymmetric g a b about wp
  | .symmetricHorizontal a b wp => do
    s.requirePoints2d g a b wp
    return ⟨some wp, .symmetricHorizontal a b⟩
  | .symmetricVertical a b wp => do
    s.requirePoints2d g a b wp
    return ⟨some wp, .symmetricVertical a b⟩
  | .midpoint point line wp => do
    s.checkWorkplane g wp
    let _ ← s.require g "point" .point point
    let _ ← s.require g "line" .line line
    return ⟨wp, .pointAtMidpoint point line⟩
  | .midpointOnPlane line plane wp => do
    s.checkWorkplane g wp
    let _ ← s.require g "line" .line line
    let _ ← s.require g "plane" .workplane plane
    return ⟨wp, .midpointInPlane line plane⟩
  | .horizontal line wp => do
    let (a, b) ← s.requireLine2d g line wp
    return ⟨some wp, .horizontal (some line) a b⟩
  | .vertical line wp => do
    let (a, b) ← s.requireLine2d g line wp
    return ⟨some wp, .vertical (some line) a b⟩
  | .horizontalPoints a b wp => do
    s.requirePoints2d g a b wp
    return ⟨some wp, .horizontal none a b⟩
  | .verticalPoints a b wp => do
    s.requirePoints2d g a b wp
    return ⟨some wp, .vertical none a b⟩
  | .sameOrientation a b => do
    let _ ← s.require g "first" .normal3d a
    let _ ← s.require g "second" .normal3d b
    return ⟨none, .sameOrientation a b (.value (← s.scaleOf a b))⟩
  | .angle a b degrees inverse wp => do
    s.requireDirections g a b wp
    return ⟨wp, .angle a b degrees inverse⟩
  | .perpendicular a b inverse wp => do
    s.requireDirections g a b wp
    return ⟨wp, .perpendicular a b inverse⟩
  | .parallel a b wp => do
    s.requireDirections g a b wp
    match wp with
    | some wp => return ⟨some wp, .parallel a b none⟩
    | none => return ⟨none, .parallel a b (some (.scale a b))⟩
  | .tangent a b wp => s.planTangent g a b wp
  | .dragged point wp => do
    s.checkWorkplane g wp
    let _ ← s.require g "point" .point point
    return ⟨wp, .whereDragged point⟩

/-- The value at which an auxiliary unknown starts. -/
def seedValue (s : Sketch R) : Seed R → Outcome R R
  | .value x => .ok x
  | .scale a b => s.scaleOf a b
  | .tangentScale cubic atFinish line => do
    let tangent := (← s.cubicTangent cubic atFinish).eval s.value
    return closestScale tangent (← s.vectorValue line)

/-- The value at which the auxiliary unknown of a relation starts, if it has one. -/
def startOf (s : Sketch R) (relation : Relation R (Seed R)) : Outcome R (Option R) :=
  match relation.aux? with
  | some seed => (s.seedValue seed).map some
  | none => .ok none

/-- A start is found exactly for a relation with an auxiliary unknown. -/
theorem isSome_startOf {s : Sketch R} {relation : Relation R (Seed R)} {start : Option R}
    (h : s.startOf relation = .ok start) : start.isSome = relation.aux?.isSome := by
  unfold startOf at h
  cases haux : relation.aux? with
  | none =>
    rw [haux] at h
    cases h
    rfl
  | some seed =>
    cases hx : s.seedValue seed with
    | error e =>
      simp only [haux, hx] at h
      cases h
    | ok x =>
      simp only [haux, hx] at h
      cases h
      rfl

/-- Taking a handle does not change where an auxiliary unknown starts. -/
theorem startOf_takeConstraint (s : Sketch R)
    (relation : Relation R (Seed R)) :
    s.takeConstraint.2.startOf relation = s.startOf relation := by
  unfold startOf
  cases relation.aux? with
  | none => rfl
  | some seed => cases seed <;> rfl

end Sketch

namespace Operation

variable {R : Type} [Arith R]

/-- Adds a requested constraint. Its handle is taken as soon as the request is checked. -/
def relate (g : GroupId) (request : ConstraintRequest R) : Operation R ConstraintId := do
  let plan ← consult fun s ↦ s.planConstraint g request
  let id ← change fun s ↦ .ok s.takeConstraint
  let start ← consult fun s ↦ s.startOf plan.relation
  change fun s ↦ .ok (id, s.placeConstraint id g plan.workplane plan.relation start)

/-- Adding a constraint checks the request, takes a handle, finds the start of the auxiliary unknown
and then changes the sketch. -/
theorem run_relate (g : GroupId) (request : ConstraintRequest R) (s : Sketch R) :
    (relate g request).run s =
      match s.planConstraint g request with
      | .error e => .error e s
      | .ok plan =>
        match s.startOf plan.relation with
        | .error e => .error e s.takeConstraint.2
        | .ok start =>
          let (id, t) := s.addConstraint g plan.workplane plan.relation start
          .ok id t := by
  unfold relate
  rw [EStateM.run_bind, run_consult]
  cases s.planConstraint g request with
  | error e => rfl
  | ok plan =>
    change ((consult fun t ↦ t.startOf plan.relation) >>= _).run s.takeConstraint.2 = _
    rw [EStateM.run_bind, run_consult, Sketch.startOf_takeConstraint]
    dsimp only
    cases s.startOf plan.relation <;> rfl

end Operation

end SketchSolver
