import SketchSolver.Sketch.Entity

/-!
# Refused operations

Why an operation on a sketch is refused. Each cause carries what its message names, and all
wording is in `SketchError.message`.

Specification: sections 7 and E.2.
-/

namespace SketchSolver

/-- A value that cannot be stored. -/
inductive InvalidValue (R : Type)
  /-- A coordinate or length to start with is not a number within range. -/
  | initial (value : R)
  /-- A quaternion without a direction. -/
  | zeroQuaternion
  /-- A new value of a parameter is not a number within range. -/
  | assigned (param : ParamId) (value : R)
  deriving Repr

/-- Why an operation on a sketch is refused. -/
inductive SketchError (R : Type)
  /-- No parameter has the handle. -/
  | paramNotFound (id : ParamId)
  /-- No entity has the handle. -/
  | entityNotFound (id : EntityId)
  /-- No constraint has the handle. -/
  | constraintNotFound (id : ConstraintId)
  /-- No group has the handle. -/
  | groupNotFound (id : GroupId)
  /-- An argument is an entity of another kind than its role asks for. -/
  | wrongEntityKind (role : String) (entity : EntityId) (expected found : String)
  /-- An argument belongs to a group that is solved later. -/
  | laterGroup (entity : EntityId) (entityGroup group : GroupId)
  /-- The operation needs a workplane. -/
  | workplaneRequired (operation : String)
  /-- The operation has no meaning in a workplane. -/
  | workplaneNotAllowed (operation : String)
  /-- The arguments do not fit each other. -/
  | invalidArguments (operation : String)
  /-- Two curves do not meet at their ends. -/
  | noSharedEndpoint (a b : EntityId)
  /-- An item of another group refers to the group. -/
  | groupInUse (group : GroupId) (user : Item)
  /-- A value cannot be stored. -/
  | invalidValue (cause : InvalidValue R)
  deriving Repr

variable {R : Type}

/-- What is wrong with a value, given the text of scalars. -/
def InvalidValue.message (number : R → String) : InvalidValue R → String
  | initial x => "initial value must be finite, got " ++ number x
  | zeroQuaternion => "normal quaternion must not be zero"
  | assigned p x => p.text ++ " must be finite, got " ++ number x

/-- The complaint, given the text of scalars. -/
def SketchError.message (number : R → String) : SketchError R → String
  | paramNotFound id => "Parameter not found: " ++ id.text
  | entityNotFound id => "Entity not found: " ++ id.text
  | constraintNotFound id => "Constraint not found: " ++ id.text
  | groupNotFound id => "Group not found: " ++ id.text
  | wrongEntityKind role entity expected found =>
    role ++ " argument " ++ entity.text ++ " must be " ++ expected ++ ", found " ++ found
  | laterGroup entity entityGroup group =>
    entity.text ++ " belongs to " ++ entityGroup.text ++ ", which is solved after " ++ group.text
  | workplaneRequired operation => operation ++ " requires a workplane"
  | workplaneNotAllowed operation => operation ++ " must be free in 3D"
  | invalidArguments operation => "Invalid arguments for " ++ operation
  | noSharedEndpoint a b => a.text ++ " and " ++ b.text ++ " share no endpoint"
  | groupInUse group user => group.text ++ " is still referenced by " ++ user.text
  | invalidValue cause => "Invalid value: " ++ cause.message number

end SketchSolver
