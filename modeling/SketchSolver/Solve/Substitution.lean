import SketchSolver.Solve.System

/-!
# Merging unknowns

An equation that is the difference of two unknowns says that they are equal. It is retired, and one
of the two stands for the other from then on, in all equations. A dragged unknown is never replaced
by one that is not.

Specification: sections 4.4 and E.5.
-/

namespace SketchSolver.EquationSystem

variable {R : Type}

/-- The system in which one unknown stands for another. -/
def merge (sys : EquationSystem R) (gone kept : ParamId) : EquationSystem R :=
  { sys with
    substituted := (sys.substituted.map fun _ p ↦ if p = gone then kept else p).insert gone kept
    equations := sys.equations.map fun eq ↦
      { eq with expr := eq.expr.substitute (Table.empty.insert gone kept) } }

/-- Of two equal unknowns, the one to be replaced and the one to stand for it. -/
def mergeOrder (sys : EquationSystem R) (a b : ParamId) : ParamId × ParamId :=
  if sys.dragged.contains a && !sys.dragged.contains b then (b, a) else (a, b)

/-- The two unknowns that an equation in use says are equal. -/
def equated? (sys : EquationSystem R) (i : Nat) : Option (ParamId × ParamId) :=
  match sys.equations[i]? with
  | none => none
  | some eq =>
    if eq.retired then none
    else eq.expr.paramDifference?.filter fun d ↦
      sys.values.contains d.1 && sys.values.contains d.2

/-- The system after looking at one equation. -/
def substituteAt (sys : EquationSystem R) (i : Nat) : EquationSystem R :=
  match sys.equated? i with
  | none => sys
  | some (a, b) =>
    let order := sys.mergeOrder a b
    if a = b then sys.retire i else (sys.retire i).merge order.1 order.2

/-- The system after looking at each equation in turn. -/
def substitute (sys : EquationSystem R) : EquationSystem R :=
  (List.range sys.equations.length).foldl substituteAt sys

end SketchSolver.EquationSystem
