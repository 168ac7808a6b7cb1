/-!
# Handles

A sketch names its parts by numbered handles. Handles of different kinds are different types, so
that a parameter cannot stand where an entity is meant. Each handle is written as a letter for
its kind followed by its number.
-/

namespace SketchSolver

/-- Keys that carry a number, where two keys with one number are the same key. -/
class Numbered (K : Type) where
  /-- The number of a key. -/
  index : K → Nat
  /-- The number determines the key. -/
  index_inj : ∀ {a b : K}, index a = index b → a = b

/-- Handle of a scalar unknown. -/
structure ParamId where
  /-- Number of the parameter. -/
  index : Nat
  deriving DecidableEq, Repr, Inhabited

/-- Handle of a geometric entity. -/
structure EntityId where
  /-- Number of the entity. -/
  index : Nat
  deriving DecidableEq, Repr, Inhabited

/-- Handle of a constraint. -/
structure ConstraintId where
  /-- Number of the constraint. -/
  index : Nat
  deriving DecidableEq, Repr, Inhabited

/-- Handle of a solve group. Groups are solved in ascending order. -/
structure GroupId where
  /-- Number of the group. -/
  index : Nat
  deriving DecidableEq, Repr, Inhabited

instance : Numbered ParamId := ⟨ParamId.index, fun {a b} h ↦ by cases a; cases b; simp_all⟩

instance : Numbered EntityId := ⟨EntityId.index, fun {a b} h ↦ by cases a; cases b; simp_all⟩

instance : Numbered ConstraintId :=
  ⟨ConstraintId.index, fun {a b} h ↦ by cases a; cases b; simp_all⟩

instance : Numbered GroupId := ⟨GroupId.index, fun {a b} h ↦ by cases a; cases b; simp_all⟩

namespace GroupId

/-- Groups are ordered by number. -/
instance : LE GroupId := ⟨fun a b ↦ a.index ≤ b.index⟩

/-- Groups are ordered by number. -/
instance : LT GroupId := ⟨fun a b ↦ a.index < b.index⟩

instance (a b : GroupId) : Decidable (a ≤ b) := inferInstanceAs (Decidable (a.index ≤ b.index))

instance (a b : GroupId) : Decidable (a < b) := inferInstanceAs (Decidable (a.index < b.index))

/-- The order of groups is the order of their numbers. -/
theorem le_def {a b : GroupId} : a ≤ b ↔ a.index ≤ b.index := Iff.rfl

/-- The strict order of groups is the strict order of their numbers. -/
theorem lt_def {a b : GroupId} : a < b ↔ a.index < b.index := Iff.rfl

end GroupId

/-- A parameter is written `p` and its number. -/
def ParamId.text (p : ParamId) : String := "p" ++ Nat.repr p.index

/-- An entity is written `e` and its number. -/
def EntityId.text (e : EntityId) : String := "e" ++ Nat.repr e.index

/-- A constraint is written `c` and its number. -/
def ConstraintId.text (c : ConstraintId) : String := "c" ++ Nat.repr c.index

/-- A group is written `g` and its number. -/
def GroupId.text (g : GroupId) : String := "g" ++ Nat.repr g.index

end SketchSolver
