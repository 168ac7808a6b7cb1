import SketchSolver.Handle

/-!
# Entities

Entities are the geometric objects of a sketch. Points in space, points in a workplane, free
normals and distances own parameters; every other shape is built from other entities. A shape is
written over what stands at the place of a parameter: handles in a sketch, or values while the
parameters are still to be made.

Specification: sections 3, 4.2 and E.3.
-/

namespace SketchSolver

/-- An entity or a constraint: what owns a parameter, writes an equation or uses a group. -/
inductive Item
  | entity (id : EntityId)
  | constraint (id : ConstraintId)
  deriving DecidableEq, Repr

/-- The handle of an item as text. -/
def Item.text : Item → String
  | entity id => id.text
  | constraint id => id.text

/-- A scalar unknown of a sketch. -/
structure Param (R : Type) where
  /-- Its handle. -/
  id : ParamId
  /-- The group that solves for it. -/
  group : GroupId
  /-- The entity or constraint that it belongs to. -/
  owner : Item
  /-- Its current value. -/
  value : R
  deriving Repr

/-- The shape of an entity, over what stands for its parameters. -/
inductive Shape (P : Type)
  /-- A point in space. -/
  | point3d (x y z : P)
  /-- A point given by its coordinates in a workplane. -/
  | point2d (u v : P)
  /-- An orientation given by a unit quaternion. -/
  | normal3d (w x y z : P)
  /-- The orientation of the entity's workplane. -/
  | normal2d
  /-- A length, such as the radius of a circle. -/
  | distance (value : P)
  /-- A coordinate frame given by a point in space and a free normal. -/
  | workplane (origin normal : EntityId)
  /-- A segment between two points. -/
  | line (a b : EntityId)
  /-- A cubic curve from its first point to its last, with two control points between. -/
  | cubic (start afterStart beforeFinish finish : EntityId)
  /-- A circle around a point in the plane of a normal, whose radius is a distance entity. -/
  | circle (center normal radius : EntityId)
  /-- The arc around a point, counter-clockwise about a normal. Its start gives the radius. -/
  | arc (normal center start finish : EntityId)
  deriving DecidableEq, Repr

namespace Shape

variable {P : Type}

/-- The name of the kind of shape. -/
def typeName : Shape P → String
  | point3d .. => "Point 3D"
  | point2d .. => "Point 2D"
  | normal3d .. => "Normal 3D"
  | normal2d => "Normal 2D"
  | distance .. => "Distance"
  | workplane .. => "Workplane"
  | line .. => "Line"
  | cubic .. => "Cubic"
  | circle .. => "Circle"
  | arc .. => "Arc"

/-- What stands for the parameters, in order. -/
def params : Shape P → List P
  | point3d x y z => [x, y, z]
  | point2d u v => [u, v]
  | normal3d w x y z => [w, x, y, z]
  | distance d => [d]
  | _ => []

/-- The entities that the shape is built from, in order. -/
def parts : Shape P → List EntityId
  | workplane origin normal => [origin, normal]
  | line a b => [a, b]
  | cubic a b c d => [a, b, c, d]
  | circle center normal radius => [center, normal, radius]
  | arc normal center start finish => [normal, center, start, finish]
  | _ => []

/-- The shape with its parameters numbered in order, from the number after the given one. -/
def numbered (n : Nat) : Shape P → Shape ParamId
  | point3d .. => point3d ⟨n + 1⟩ ⟨n + 2⟩ ⟨n + 3⟩
  | point2d .. => point2d ⟨n + 1⟩ ⟨n + 2⟩
  | normal3d .. => normal3d ⟨n + 1⟩ ⟨n + 2⟩ ⟨n + 3⟩ ⟨n + 4⟩
  | normal2d => normal2d
  | distance _ => distance ⟨n + 1⟩
  | workplane origin normal => workplane origin normal
  | line a b => line a b
  | cubic a b c d => cubic a b c d
  | circle center normal radius => circle center normal radius
  | arc normal center start finish => arc normal center start finish

/-- The parameters of a numbered shape are consecutive. -/
theorem params_numbered (n : Nat) (s : Shape P) :
    (s.numbered n).params =
      (List.range s.params.length).map fun (i : Nat) ↦ (⟨n + 1 + i⟩ : ParamId) := by
  cases s <;> simp [numbered, params, List.range_succ]

/-- The ends of a line, cubic or arc, from its start to its finish. -/
def endpoints? : Shape P → Option (EntityId × EntityId)
  | line a b => some (a, b)
  | cubic a _ _ d => some (a, d)
  | arc _ _ start finish => some (start, finish)
  | _ => none

end Shape

/-- A geometric object of a sketch. -/
structure Entity where
  /-- Its handle. -/
  id : EntityId
  /-- The group that it belongs to. -/
  group : GroupId
  /-- The workplane that it is drawn in, or none if it is free in space. -/
  workplane : Option EntityId
  /-- Its shape. -/
  shape : Shape ParamId
  deriving DecidableEq, Repr

namespace Entity

/-- The name of the kind of entity. -/
def typeName (e : Entity) : String := e.shape.typeName

/-- The parameters that the entity owns, in order. -/
def params (e : Entity) : List ParamId := e.shape.params

/-- The entities that the entity refers to: its workplane and its parts. -/
def references (e : Entity) : List EntityId := e.workplane.toList ++ e.shape.parts

/-- Whether the entity is a point in space. -/
def isPoint3d (e : Entity) : Bool := e.shape matches .point3d ..

/-- Whether the entity is a point in a workplane. -/
def isPoint2d (e : Entity) : Bool := e.shape matches .point2d ..

/-- Whether the entity is a point. -/
def isPoint (e : Entity) : Bool := e.isPoint3d || e.isPoint2d

/-- Whether the entity is a free normal. -/
def isNormal3d (e : Entity) : Bool := e.shape matches .normal3d ..

/-- Whether the entity is a normal. -/
def isNormal (e : Entity) : Bool := e.isNormal3d || e.shape matches .normal2d

/-- Whether the entity is a distance. -/
def isDistance (e : Entity) : Bool := e.shape matches .distance _

/-- Whether the entity is a workplane. -/
def isWorkplane (e : Entity) : Bool := e.shape matches .workplane ..

/-- Whether the entity is a line. -/
def isLine (e : Entity) : Bool := e.shape matches .line ..

/-- Whether the entity is a line in a workplane. -/
def isLine2d (e : Entity) : Bool := e.isLine && e.workplane.isSome

/-- Whether the entity is a cubic curve. -/
def isCubic (e : Entity) : Bool := e.shape matches .cubic ..

/-- Whether the entity is an arc. -/
def isArc (e : Entity) : Bool := e.shape matches .arc ..

/-- Whether the entity is a circle or an arc. -/
def isCircle (e : Entity) : Bool := e.isArc || e.shape matches .circle ..

/-- Whether the entity has a direction: a line or a normal. -/
def hasVector (e : Entity) : Bool := e.isLine || e.isNormal

end Entity

/-- A kind of entity that an argument may be required to have. -/
structure EntityClass where
  /-- What the kind is called in a complaint. -/
  description : String
  /-- Which entities are of the kind. -/
  holds : Entity → Bool

namespace EntityClass

/-- Points. -/
def point : EntityClass := ⟨"a point", Entity.isPoint⟩

/-- Points in a workplane. -/
def point2d : EntityClass := ⟨"a 2d point", Entity.isPoint2d⟩

/-- Points in space. -/
def point3d : EntityClass := ⟨"a 3d point", Entity.isPoint3d⟩

/-- Normals. -/
def normal : EntityClass := ⟨"a normal", Entity.isNormal⟩

/-- Free normals. -/
def normal3d : EntityClass := ⟨"a 3d normal", Entity.isNormal3d⟩

/-- Distances. -/
def distance : EntityClass := ⟨"a distance", Entity.isDistance⟩

/-- Workplanes. -/
def workplane : EntityClass := ⟨"a workplane", Entity.isWorkplane⟩

/-- Lines. -/
def line : EntityClass := ⟨"a line", Entity.isLine⟩

/-- Lines in a workplane. -/
def line2d : EntityClass := ⟨"a 2d line", Entity.isLine2d⟩

/-- Cubic curves. -/
def cubic : EntityClass := ⟨"a cubic", Entity.isCubic⟩

/-- Arcs. -/
def arc : EntityClass := ⟨"an arc", Entity.isArc⟩

/-- Circles and arcs. -/
def circle : EntityClass := ⟨"a circle or arc", Entity.isCircle⟩

/-- Lines and normals. -/
def direction : EntityClass := ⟨"a line or normal", Entity.hasVector⟩

/-- What a point can lie on. -/
def locus : EntityClass :=
  ⟨"a point, workplane, line or circle", fun e ↦
    e.isPoint || e.isWorkplane || e.isLine || e.isCircle⟩

/-- What a point can have a distance from. -/
def landmark : EntityClass :=
  ⟨"a point, workplane or line", fun e ↦ e.isPoint || e.isWorkplane || e.isLine⟩

/-- What has a length or a radius. -/
def measured : EntityClass := ⟨"a line, circle or arc", fun e ↦ e.isLine || e.isCircle⟩

/-- What points can be mirrored at. -/
def mirror : EntityClass := ⟨"a workplane or line", fun e ↦ e.isWorkplane || e.isLine⟩

/-- What can be tangent. -/
def curve : EntityClass :=
  ⟨"an arc, cubic or line", fun e ↦ e.isArc || e.isCubic || e.isLine⟩

end EntityClass

end SketchSolver
