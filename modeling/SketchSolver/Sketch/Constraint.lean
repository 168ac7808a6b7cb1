import SketchSolver.Handle

/-!
# Constraints

A constraint holds between entities of a sketch. Some relations have a numeric value and some an
auxiliary unknown of their own; a relation is written over what stands at the place of that
unknown, a handle in a sketch or a starting value before it is made.

Specification: sections 3 and E.4.
-/

namespace SketchSolver

/-- What a constraint demands, over scalars and what stands for the auxiliary unknown. -/
inductive Relation (R P : Type)
  /-- Two points are at one place. -/
  | pointsCoincident (a b : EntityId)
  /-- A point lies in the plane of a workplane. -/
  | pointInPlane (point plane : EntityId)
  /-- A point lies on the line through a segment, at some place along it. -/
  | pointOnLine (point line : EntityId) (place : P)
  /-- A point lies on a circle or arc. -/
  | pointOnCircle (point circle : EntityId)
  /-- The distance of two points. -/
  | pointPointDistance (a b : EntityId) (distance : R)
  /-- The distance of two points along a line or normal. -/
  | projectedPointDistance (a b direction : EntityId) (distance : R)
  /-- The signed distance of a point from a workplane. -/
  | pointPlaneDistance (point plane : EntityId) (distance : R)
  /-- The distance of a point from a line, signed in a workplane. -/
  | pointLineDistance (point line : EntityId) (distance : R)
  /-- Two lines have one length. -/
  | equalLength (a b : EntityId)
  /-- The length of the first line divided by that of the second. -/
  | lengthRatio (a b : EntityId) (ratio : R)
  /-- The length of the first line less that of the second. -/
  | lengthDifference (a b : EntityId) (difference : R)
  /-- The length of a line is the distance of a point from another line. -/
  | equalLengthPointLineDistance (line point otherLine : EntityId)
  /-- Two distances of a point from a line are equal. -/
  | equalPointLineDistances (pointA lineA pointB lineB : EntityId)
  /-- The length of a line is that of an arc, or the circumference of a circle. -/
  | equalLineArcLength (line arc : EntityId)
  /-- Two circles or arcs have one radius. -/
  | equalRadius (a b : EntityId)
  /-- The diameter of a circle or arc. -/
  | diameter (circle : EntityId) (diameter : R)
  /-- Two points are mirror images at a workplane. -/
  | symmetric (a b plane : EntityId)
  /-- Two points are mirror images at the V axis. -/
  | symmetricHorizontal (a b : EntityId)
  /-- Two points are mirror images at the U axis. -/
  | symmetricVertical (a b : EntityId)
  /-- Two points are mirror images at a line. -/
  | symmetricLine (a b line : EntityId)
  /-- A point is the middle of a line. -/
  | pointAtMidpoint (point line : EntityId)
  /-- The middle of a line lies in a workplane. -/
  | midpointInPlane (line plane : EntityId)
  /-- Two points, perhaps the ends of a line, share their V coordinate. -/
  | horizontal (line : Option EntityId) (a b : EntityId)
  /-- Two points, perhaps the ends of a line, share their U coordinate. -/
  | vertical (line : Option EntityId) (a b : EntityId)
  /-- Two normals describe one orientation, up to a scale between them. -/
  | sameOrientation (a b : EntityId) (scale : P)
  /-- The angle between two directions in degrees, perhaps with the first reversed. -/
  | angle (a b : EntityId) (degrees : R) (inverse : Bool)
  /-- Two directions are perpendicular. -/
  | perpendicular (a b : EntityId) (inverse : Bool)
  /-- The angle of the first two directions is that of the last two. -/
  | equalAngle (a b c d : EntityId) (inverse : Bool)
  /-- Two directions are parallel, in space up to a scale between them. -/
  | parallel (a b : EntityId) (scale : Option P)
  /-- A line is tangent to an arc at its start or finish. -/
  | arcLineTangent (arc line : EntityId) (atFinish : Bool)
  /-- A line is tangent to a cubic at its start or finish, in space up to a scale. -/
  | cubicLineTangent (cubic line : EntityId) (atFinish : Bool) (scale : Option P)
  /-- Two arcs or cubics are tangent where they meet. -/
  | curveCurveTangent (a b : EntityId) (aAtFinish bAtFinish : Bool)
  /-- A point stays where it is when its equations are written. -/
  | whereDragged (point : EntityId)
  deriving Repr

namespace Relation

variable {R P : Type}

/-- The name of the kind of relation. -/
def typeName : Relation R P → String
  | pointsCoincident .. => "Points Coincident"
  | pointInPlane .. => "Point In Plane"
  | pointOnLine .. => "Point On Line"
  | pointOnCircle .. => "Point On Circle"
  | pointPointDistance .. => "Distance"
  | projectedPointDistance .. => "Projected Distance"
  | pointPlaneDistance .. => "Point-Plane Distance"
  | pointLineDistance .. => "Point-Line Distance"
  | equalLength .. => "Equal Length"
  | lengthRatio .. => "Length Ratio"
  | lengthDifference .. => "Length Difference"
  | equalLengthPointLineDistance .. => "Equal Length Point-Line Distance"
  | equalPointLineDistances .. => "Equal Point-Line Distances"
  | equalLineArcLength .. => "Equal Line-Arc Length"
  | equalRadius .. => "Equal Radius"
  | diameter .. => "Diameter"
  | symmetric .. => "Symmetric"
  | symmetricHorizontal .. => "Symmetric Horizontal"
  | symmetricVertical .. => "Symmetric Vertical"
  | symmetricLine .. => "Symmetric Line"
  | pointAtMidpoint .. => "Midpoint"
  | midpointInPlane .. => "Midpoint In Plane"
  | horizontal .. => "Horizontal"
  | vertical .. => "Vertical"
  | sameOrientation .. => "Same Orientation"
  | angle .. => "Angle"
  | perpendicular .. => "Perpendicular"
  | equalAngle .. => "Equal Angle"
  | parallel .. => "Parallel"
  | arcLineTangent .. => "Arc-Line Tangent"
  | cubicLineTangent .. => "Cubic-Line Tangent"
  | curveCurveTangent .. => "Curve-Curve Tangent"
  | whereDragged .. => "Where Dragged"

/-- The entities that the relation is between. -/
def parts : Relation R P → List EntityId
  | pointsCoincident a b => [a, b]
  | pointInPlane point plane => [point, plane]
  | pointOnLine point line _ => [point, line]
  | pointOnCircle point circle => [point, circle]
  | pointPointDistance a b _ => [a, b]
  | projectedPointDistance a b direction _ => [a, b, direction]
  | pointPlaneDistance point plane _ => [point, plane]
  | pointLineDistance point line _ => [point, line]
  | equalLength a b => [a, b]
  | lengthRatio a b _ => [a, b]
  | lengthDifference a b _ => [a, b]
  | equalLengthPointLineDistance line point otherLine => [line, point, otherLine]
  | equalPointLineDistances pointA lineA pointB lineB => [pointA, lineA, pointB, lineB]
  | equalLineArcLength line arc => [line, arc]
  | equalRadius a b => [a, b]
  | diameter circle _ => [circle]
  | symmetric a b plane => [a, b, plane]
  | symmetricHorizontal a b => [a, b]
  | symmetricVertical a b => [a, b]
  | symmetricLine a b line => [a, b, line]
  | pointAtMidpoint point line => [point, line]
  | midpointInPlane line plane => [line, plane]
  | horizontal (some line) _ _ => [line]
  | horizontal none a b => [a, b]
  | vertical (some line) _ _ => [line]
  | vertical none a b => [a, b]
  | sameOrientation a b _ => [a, b]
  | angle a b _ _ => [a, b]
  | perpendicular a b _ => [a, b]
  | equalAngle a b c d _ => [a, b, c, d]
  | parallel a b _ => [a, b]
  | arcLineTangent arc line _ => [arc, line]
  | cubicLineTangent cubic line _ _ => [cubic, line]
  | curveCurveTangent a b _ _ => [a, b]
  | whereDragged point => [point]

/-- What stands for the auxiliary unknown, if the relation has one. -/
def aux? : Relation R P → Option P
  | pointOnLine _ _ place => some place
  | sameOrientation _ _ scale => some scale
  | parallel _ _ scale => scale
  | cubicLineTangent _ _ _ scale => scale
  | _ => none

/-- The numeric value, if the relation has one. -/
def value? : Relation R P → Option R
  | pointPointDistance _ _ distance => some distance
  | projectedPointDistance _ _ _ distance => some distance
  | pointPlaneDistance _ _ distance => some distance
  | pointLineDistance _ _ distance => some distance
  | lengthRatio _ _ ratio => some ratio
  | lengthDifference _ _ difference => some difference
  | diameter _ d => some d
  | angle _ _ degrees _ => some degrees
  | _ => none

/-- At which end of each curve a tangent touches: false for a start and true for a finish. -/
def atFinish : Relation R P → List Bool
  | arcLineTangent _ _ atFinish => [atFinish]
  | cubicLineTangent _ _ atFinish _ => [atFinish]
  | curveCurveTangent _ _ aAtFinish bAtFinish => [aAtFinish, bAtFinish]
  | _ => []

/-- The relation with another thing standing for the auxiliary unknown. -/
def mapAux {Q : Type} (f : P → Q) : Relation R P → Relation R Q
  | pointsCoincident a b => pointsCoincident a b
  | pointInPlane point plane => pointInPlane point plane
  | pointOnLine point line place => pointOnLine point line (f place)
  | pointOnCircle point circle => pointOnCircle point circle
  | pointPointDistance a b distance => pointPointDistance a b distance
  | projectedPointDistance a b direction distance => projectedPointDistance a b direction distance
  | pointPlaneDistance point plane distance => pointPlaneDistance point plane distance
  | pointLineDistance point line distance => pointLineDistance point line distance
  | equalLength a b => equalLength a b
  | lengthRatio a b ratio => lengthRatio a b ratio
  | lengthDifference a b difference => lengthDifference a b difference
  | equalLengthPointLineDistance line point otherLine =>
    equalLengthPointLineDistance line point otherLine
  | equalPointLineDistances pointA lineA pointB lineB =>
    equalPointLineDistances pointA lineA pointB lineB
  | equalLineArcLength line arc => equalLineArcLength line arc
  | equalRadius a b => equalRadius a b
  | diameter circle d => diameter circle d
  | symmetric a b plane => symmetric a b plane
  | symmetricHorizontal a b => symmetricHorizontal a b
  | symmetricVertical a b => symmetricVertical a b
  | symmetricLine a b line => symmetricLine a b line
  | pointAtMidpoint point line => pointAtMidpoint point line
  | midpointInPlane line plane => midpointInPlane line plane
  | horizontal line a b => horizontal line a b
  | vertical line a b => vertical line a b
  | sameOrientation a b scale => sameOrientation a b (f scale)
  | angle a b degrees inverse => angle a b degrees inverse
  | perpendicular a b inverse => perpendicular a b inverse
  | equalAngle a b c d inverse => equalAngle a b c d inverse
  | parallel a b scale => parallel a b (scale.map f)
  | arcLineTangent arc line atFinish => arcLineTangent arc line atFinish
  | cubicLineTangent cubic line atFinish scale => cubicLineTangent cubic line atFinish (scale.map f)
  | curveCurveTangent a b aAtFinish bAtFinish => curveCurveTangent a b aAtFinish bAtFinish
  | whereDragged point => whereDragged point

/-- What stands for the auxiliary unknown after it was replaced. -/
theorem aux?_mapAux {Q : Type} (f : P → Q) (r : Relation R P) :
    (r.mapAux f).aux? = r.aux?.map f := by
  cases r <;> rfl

end Relation

/-- A constraint of a sketch. -/
structure Constraint (R : Type) where
  /-- Its handle. -/
  id : ConstraintId
  /-- The group that it belongs to. -/
  group : GroupId
  /-- The workplane that it is measured in, or none if it holds in space. -/
  workplane : Option EntityId
  /-- What it demands. -/
  relation : Relation R ParamId
  deriving Repr

namespace Constraint

variable {R : Type}

/-- The name of the kind of constraint. -/
def typeName (c : Constraint R) : String := c.relation.typeName

/-- The entities that the constraint refers to: its workplane and those it is between. -/
def references (c : Constraint R) : List EntityId := c.workplane.toList ++ c.relation.parts

/-- Whether the constraint brings two points together. -/
def isCoincidence (c : Constraint R) : Bool := c.relation matches .pointsCoincident ..

end Constraint

end SketchSolver
