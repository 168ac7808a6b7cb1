import SketchSolver.Expr.Derivative
import SketchSolver.LinearAlgebra.Basic
import SketchSolver.Solve.System

/-!
# Newton systems

What is left of a system after merging and after solving equations alone is iterated: the equations
in use and the unknowns that are neither replaced nor fixed. The partial derivatives are kept as
expressions, without those that are zero.

Specification: section 4.5.
-/

namespace SketchSolver

/-- The equations and unknowns that are iterated. -/
structure NewtonSystem (R : Type) where
  /-- The unknowns, one for each column. -/
  unknowns : List ParamId
  /-- The place of the equation of each row. -/
  rows : List Nat
  /-- The equation of each row. -/
  equations : List (Equation R)
  /-- The partial derivatives of each row that are not zero, with their columns. -/
  partials : List (List (Nat × Expr R))
  /-- Whether the unknown of each column is dragged. -/
  dragged : List Bool

variable {R : Type} [Arith R]

/-- The partial derivatives of an expression that are not zero, in the order of the parameters. -/
def Expr.partials (unknowns : List ParamId) (e : Expr R) : List (Nat × Expr R) :=
  let columns := e.usedParams.keys.filterMap fun p ↦ (unknowns.idxOf? p).map (·, p)
  let derivatives := columns.map fun c ↦ (c.1, (e.derivative c.2).fold)
  derivatives.filter fun d ↦ !d.2.isZero

/-- What is left of a system to be iterated. -/
def EquationSystem.newton (sys : EquationSystem R) : NewtonSystem R :=
  let unknowns := sys.values.keys.filter fun p ↦
    !sys.substituted.contains p && !sys.solvedAlone.contains p
  let active := sys.equations.zipIdx.filter fun eq ↦ !eq.1.retired
  { unknowns := unknowns
    rows := active.map Prod.snd
    equations := active.map Prod.fst
    partials := active.map fun eq ↦ eq.1.expr.partials unknowns
    dragged := unknowns.map sys.dragged.contains }

namespace NewtonSystem

/-- The number of equations. -/
def height (nw : NewtonSystem R) : Nat := nw.equations.length

/-- The number of unknowns. -/
def width (nw : NewtonSystem R) : Nat := nw.unknowns.length

/-- The working values of the unknowns. -/
def initial (nw : NewtonSystem R) (sys : EquationSystem R) : List R :=
  nw.unknowns.map sys.value

/-- The weight of the step of each unknown. -/
def scale (nw : NewtonSystem R) (draggedScale : R) : List R :=
  nw.dragged.map fun d ↦ if d then draggedScale else 1.0

/-- The place of a parameter in an ascending list, looked for between two bounds by halving. The
number of looks that are left only has to be large enough. -/
def placeBetween? (ps : List ParamId) (p : ParamId) : Nat → Nat → Nat → Option Nat
  | 0, _, _ => none
  | looks + 1, low, high =>
    if high ≤ low then none
    else
      let middle := (low + high) / 2
      match ps[middle]? with
      | none => none
      | some q =>
        if q.index < p.index then placeBetween? ps p looks (middle + 1) high
        else if p.index < q.index then placeBetween? ps p looks low middle
        else some middle

/-- The column of a parameter, if it is one of the unknowns. -/
def column? (nw : NewtonSystem R) (p : ParamId) : Option Nat :=
  placeBetween? nw.unknowns p nw.unknowns.length 0 nw.unknowns.length

/-- The assignment that gives the unknowns some values and all other parameters their working
values. -/
def assignment (nw : NewtonSystem R) (sys : EquationSystem R) (x : List R) (p : ParamId) : R :=
  match (nw.column? p).bind (x[·]?) with
  | some v => v
  | none => sys.value p

/-- The values of the equations. -/
def residuals (nw : NewtonSystem R) (sys : EquationSystem R) (x : List R) : List R :=
  nw.equations.map fun eq ↦ eq.expr.eval (nw.assignment sys x)

/-- A row of a matrix, from its entries that are not zero. -/
def denseRow (width : Nat) (entries : List (Nat × R)) : List R :=
  (List.range width).map fun j ↦ (entries.lookup j).getD 0.0

/-- The matrix of partial derivatives. -/
def jacobian (nw : NewtonSystem R) (sys : EquationSystem R) (x : List R) : DenseMatrix R :=
  let v := nw.assignment sys x
  ⟨nw.partials.map fun row ↦ denseRow nw.width (row.map fun d ↦ (d.1, d.2.eval v)), nw.width⟩

/-- The entries of a row without those of one column. Later columns move up by one. -/
def skipColumn (skip : Nat) (entries : List (Nat × Expr R)) : List (Nat × Expr R) :=
  (entries.filter fun d ↦ d.1 != skip).map fun d ↦ (if skip < d.1 then d.1 - 1 else d.1, d.2)

/-- The matrix of partial derivatives without one column. -/
def jacobianWithout (nw : NewtonSystem R) (sys : EquationSystem R) (x : List R) (skip : Nat) :
    DenseMatrix R :=
  let v := nw.assignment sys x
  ⟨nw.partials.map fun row ↦
      denseRow (nw.width - 1) ((skipColumn skip row).map fun d ↦ (d.1, d.2.eval v)), nw.width - 1⟩

end NewtonSystem

end SketchSolver
