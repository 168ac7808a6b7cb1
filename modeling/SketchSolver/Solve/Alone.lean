import SketchSolver.Expr.Derivative
import SketchSolver.Solve.System

/-!
# Equations in one unknown

An equation in a single unknown is solved by itself, by Newton's method from the working value. The
unknown is then fixed and the equation retired. An equation that cannot be solved fails the solve.

Specification: section E.5.
-/

namespace SketchSolver

/-- The assignment of a single parameter. -/
def assignOne {R : Type} [Arith R] (p : ParamId) (x : R) (q : ParamId) : R :=
  if q = p then x else Arith.nan

/-- Newton steps for one unknown, until the equation holds, a step cannot be taken or the given
number of steps is done. -/
def aloneSteps {R : Type} [Arith R] (f derivative : Expr R) (p : ParamId) (tolerance : R) :
    Nat → R → R
  | 0, x => x
  | n + 1, x =>
    let y := f.eval (assignOne p x)
    let d := derivative.eval (assignOne p x)
    if Arith.abs y ≤ tolerance then x
    else if Arith.isFinite d && !(d == 0.0) && Arith.isFinite y then
      aloneSteps f derivative p tolerance n (x - y / d)
    else x

/-- The value of one unknown at which an equation holds, if Newton's method finds it. -/
def aloneRoot? {R : Type} [Arith R] (f : Expr R) (p : ParamId) (tolerance : R) (cap : Nat)
    (start : R) : Option R :=
  let x := aloneSteps f (f.derivative p).fold p tolerance cap start
  if Arith.abs (f.eval (assignOne p x)) ≤ tolerance then some x else none

namespace EquationSystem

variable {R : Type} [Arith R]

/-- The only unknown of an equation in use, with its working value, unless the unknown is fixed or
replaced. -/
def lonely? (sys : EquationSystem R) (eq : Equation R) : Option (ParamId × R) :=
  if eq.retired then none
  else
    match eq.expr.referenced with
    | .one p =>
      if sys.solvedAlone.contains p || sys.substituted.contains p then none
      else (sys.values.find? p).map (p, ·)
    | _ => none

/-- The system after looking at one equation, if the equation can be solved where it has to be. -/
def solveAloneAt? (sys : EquationSystem R) (tolerance : R) (cap i : Nat) :
    Option (EquationSystem R) :=
  match sys.equations[i]? with
  | none => some sys
  | some eq =>
    match sys.lonely? eq with
    | none => some sys
    | some (p, start) =>
      (aloneRoot? eq.expr p tolerance cap start).map fun x ↦
        { sys.retire i with
          values := sys.values.insert p x
          solvedAlone := sys.solvedAlone.add p }

/-- The system after looking at some equations in turn, and the first of them that cannot be
solved. What was solved before stays solved. -/
def solveAloneOn (tolerance : R) (cap : Nat) :
    List Nat → EquationSystem R → EquationSystem R × Option Nat
  | [], sys => (sys, none)
  | i :: is, sys =>
    match sys.solveAloneAt? tolerance cap i with
    | some sys => solveAloneOn tolerance cap is sys
    | none => (sys, some i)

/-- The system after looking at each equation in turn, and the first that cannot be solved. -/
def solveAlone (sys : EquationSystem R) (tolerance : R) (cap : Nat) :
    EquationSystem R × Option Nat :=
  solveAloneOn tolerance cap (List.range sys.equations.length) sys

end EquationSystem

end SketchSolver
