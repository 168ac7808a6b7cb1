import SketchSolver.Expr.Fold
import SketchSolver.Expr.Rename
import SketchSolver.Sketch.Equations

/-!
# Equation systems

To solve a group, its equations and those of all earlier groups are written down. The parameters
of the group are unknowns, and so are dragged parameters of earlier groups; every other parameter
is frozen at its value. What is left of an earlier group's equation without unknowns is dropped.

Specification: sections 4.4 and E.5.
-/

namespace SketchSolver

/-- An equation of a system. -/
structure Equation (R : Type) where
  /-- The constraint or entity that it comes from. -/
  source : Item
  /-- The group of its source. -/
  group : GroupId
  /-- The expression that has to be zero. -/
  expr : Expr R
  /-- Whether it is dealt with and takes no part in the iteration. -/
  retired : Bool
  deriving Repr

/-- The equations and unknowns of a group. -/
structure EquationSystem (R : Type) where
  /-- The group to be solved. -/
  group : GroupId
  /-- The equations in the order they were written. -/
  equations : List (Equation R)
  /-- The unknowns with their working values. -/
  values : Table ParamId R
  /-- The unknowns that are dragged. -/
  dragged : HandleSet ParamId
  /-- The unknowns that another one stands for, each with that one. -/
  substituted : Table ParamId ParamId
  /-- The unknowns that an equation of their own has fixed. -/
  solvedAlone : HandleSet ParamId

namespace Sketch

variable {R : Type} [Arith R]

/-- Whether a parameter is dragged in a solve of a group. -/
def isDragged (dragged : HandleSet ParamId) (g : GroupId) (p : Param R) : Bool :=
  dragged.contains p.id && decide (p.group ≤ g)

/-- Whether a parameter is an unknown in a solve of a group. -/
def isUnknown (dragged : HandleSet ParamId) (g : GroupId) (p : Param R) : Bool :=
  p.group == g || isDragged dragged g p

/-- The unknowns of a group with their current values. -/
def unknowns (s : Sketch R) (g : GroupId) (dragged : HandleSet ParamId) : Table ParamId R :=
  (s.params.filter fun _ p ↦ isUnknown dragged g p).map fun _ p ↦ p.value

/-- The equations of a constraint. -/
def constraintRows (s : Sketch R) (c : Constraint R) : Outcome R (List (Equation R)) := do
  return (← c.equations s).map fun e ↦ ⟨.constraint c.id, c.group, e, false⟩

/-- The equations of an entity. -/
def entityRows (s : Sketch R) (e : Entity) : Outcome R (List (Equation R)) := do
  return (← s.entityEquations e).map fun x ↦ ⟨.entity e.id, e.group, x, false⟩

/-- The equations of a group and all earlier ones, first of constraints and then of entities. One
constraint may be left out. -/
def writeEquations (s : Sketch R) (g : GroupId) (excluded : Option ConstraintId) :
    Outcome R (List (Equation R)) := do
  let constraints := s.constraints.values.filter fun c ↦
    decide (c.group ≤ g) && decide (excluded ≠ some c.id)
  let entities := s.entities.values.filter fun e ↦ decide (e.group ≤ g)
  let fromConstraints ← constraints.mapM s.constraintRows
  let fromEntities ← entities.mapM s.entityRows
  return fromConstraints.flatten ++ fromEntities.flatten

/-- The value at which a parameter is frozen, unless it is an unknown. -/
def frozenValue (s : Sketch R) (unknowns : Table ParamId R) (p : ParamId) : Option R :=
  if unknowns.contains p then none else some (s.value p)

/-- The system of a group, from the equations as they were written. -/
def system (s : Sketch R) (g : GroupId) (dragged : HandleSet ParamId)
    (written : List (Equation R)) : EquationSystem R :=
  let unknowns := s.unknowns g dragged
  let frozen := written.map fun eq ↦
    { eq with expr := (eq.expr.freeze (s.frozenValue unknowns)).fold }
  { group := g
    equations := frozen.filter fun eq ↦ eq.group == g || eq.expr.referenced != .none
    values := unknowns
    dragged := (s.params.filter fun _ p ↦ isDragged dragged g p).map fun _ _ ↦ ()
    substituted := .empty
    solvedAlone := .empty }

/-- The system of a group. One constraint may be left out. -/
def assembleExcluding (s : Sketch R) (g : GroupId) (dragged : HandleSet ParamId)
    (excluded : Option ConstraintId) : Outcome R (EquationSystem R) := do
  return s.system g dragged (← s.writeEquations g excluded)

/-- The system of a group. -/
def assemble (s : Sketch R) (g : GroupId) (dragged : HandleSet ParamId) :
    Outcome R (EquationSystem R) := s.assembleExcluding g dragged none

end Sketch

namespace EquationSystem

variable {R : Type}

/-- The unknowns that occur in an equation, in order. -/
def referencedUnknowns (sys : EquationSystem R) : List ParamId :=
  (HandleSet.ofHandles (sys.equations.flatMap fun eq ↦ eq.expr.params)).keys.filter
    sys.values.contains

/-- The system with an equation retired. -/
def retire (sys : EquationSystem R) (i : Nat) : EquationSystem R :=
  { sys with equations := sys.equations.modify i fun eq ↦ { eq with retired := true } }

/-- After an equation is retired, the equations are those from before, one of them retired. -/
theorem getElem?_retire (sys : EquationSystem R) (i j : Nat) :
    (sys.retire i).equations[j]? =
      (sys.equations[j]?).map fun eq ↦ if i = j then { eq with retired := true } else eq := by
  rw [retire, List.getElem?_modify]
  rfl

/-- Retiring an equation changes no expression. -/
theorem exprs_retire (sys : EquationSystem R) (i : Nat) :
    (sys.retire i).equations.map Equation.expr = sys.equations.map Equation.expr := by
  apply List.ext_getElem?
  intro j
  rw [List.getElem?_map, getElem?_retire, List.getElem?_map]
  by_cases hij : i = j
  · cases sys.equations[j]? <;> simp [hij]
  · cases sys.equations[j]? <;> simp [hij]

/-- After an equation is retired, the retired equations are those from before and that one. -/
theorem mem_retire {sys : EquationSystem R} {i : Nat} {eq : Equation R}
    (h : eq ∈ (sys.retire i).equations) :
    eq ∈ sys.equations ∨
      ∃ old, sys.equations[i]? = some old ∧ eq = { old with retired := true } := by
  obtain ⟨j, hj⟩ := List.mem_iff_getElem?.mp h
  rw [getElem?_retire] at hj
  by_cases hij : i = j
  · obtain ⟨old, ho, he⟩ := Option.map_eq_some_iff.mp hj
    rw [if_pos hij] at he
    exact .inr ⟨old, hij ▸ ho, he.symm⟩
  · obtain ⟨old, ho, he⟩ := Option.map_eq_some_iff.mp hj
    rw [if_neg hij] at he
    exact .inl (he ▸ List.mem_of_getElem? ho)

/-- The places of the equations that are retired. -/
def retiredRows (sys : EquationSystem R) : List Nat :=
  (sys.equations.zipIdx.filter fun eq ↦ eq.1.retired).map Prod.snd

/-- The working value of a parameter: that of the unknown that stands for it. -/
def value [Arith R] (sys : EquationSystem R) (p : ParamId) : R :=
  match sys.values.find? (renamed sys.substituted p) with
  | some x => x
  | none => Arith.nan

/-- The final values of all unknowns. -/
def resolvedValues [Arith R] (sys : EquationSystem R) : Table ParamId R :=
  sys.values.map fun p _ ↦ sys.value p

/-- The system with new working values of some unknowns. -/
def store (sys : EquationSystem R) (unknowns : List ParamId) (x : List R) : EquationSystem R :=
  { sys with values := (List.zip unknowns x).foldl (fun t e ↦ t.insert e.1 e.2) sys.values }

end EquationSystem

end SketchSolver
