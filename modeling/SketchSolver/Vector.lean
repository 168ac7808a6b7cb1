import SketchSolver.Arith

/-!
# Vectors

Vectors of three components, over scalars or over expressions. Sums of three terms are added from
left to right.
-/

namespace SketchSolver

/-- A vector of three components. -/
structure Vec3 (A : Type) where
  /-- First component. -/
  x : A
  /-- Second component. -/
  y : A
  /-- Third component. -/
  z : A
  deriving DecidableEq, Repr, Inhabited

namespace Vec3

variable {A B : Type}

/-- The vector with a function applied to each component. -/
def map (f : A → B) (a : Vec3 A) : Vec3 B := ⟨f a.x, f a.y, f a.z⟩

/-- The components in order. -/
def toList (a : Vec3 A) : List A := [a.x, a.y, a.z]

instance [Add A] : Add (Vec3 A) := ⟨fun a b ↦ ⟨a.x + b.x, a.y + b.y, a.z + b.z⟩⟩

instance [Sub A] : Sub (Vec3 A) := ⟨fun a b ↦ ⟨a.x - b.x, a.y - b.y, a.z - b.z⟩⟩

/-- The components of a sum. -/
theorem add_def [Add A] (a b : Vec3 A) : a + b = ⟨a.x + b.x, a.y + b.y, a.z + b.z⟩ := rfl

/-- The components of a difference. -/
theorem sub_def [Sub A] (a b : Vec3 A) : a - b = ⟨a.x - b.x, a.y - b.y, a.z - b.z⟩ := rfl

/-- Each component times a factor. -/
def scale [Mul A] (a : Vec3 A) (s : A) : Vec3 A := ⟨a.x * s, a.y * s, a.z * s⟩

/-- The inner product. -/
def dot [Add A] [Mul A] (a b : Vec3 A) : A := a.x * b.x + a.y * b.y + a.z * b.z

/-- The outer product. -/
def cross [Sub A] [Mul A] (a b : Vec3 A) : Vec3 A :=
  ⟨a.y * b.z - a.z * b.y, a.z * b.x - a.x * b.z, a.x * b.y - a.y * b.x⟩

variable {R : Type} [Arith R]

/-- The Euclidean length. -/
def length (a : Vec3 R) : R := Arith.sqrt (a.dot a)

/-- The Euclidean distance of two points. -/
def distance (a b : Vec3 R) : R := (a - b).length

end Vec3

end SketchSolver
