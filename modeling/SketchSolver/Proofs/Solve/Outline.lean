import SketchSolver.Proofs.Solve.Ending

/-!
# Outlines of systems

Where a dragged point stays is a constant that is subtracted from a coordinate, and it is another
constant each time the equations are written. The outline of a system forgets these constants and
the working values. Nothing else about the passes before the iteration depends on them: merging
looks at the outline only, and so does what an equation in one unknown fixes if it can be solved.
-/

namespace SketchSolver

variable {R : Type} [Arith R]

/-! ## Outlines of expressions -/

namespace Expr

/-- The expression with zero in place of a constant that is subtracted last. -/
def outline : Expr R → Expr R
  | binary .minus a (constant _) => binary .minus a (constant 0.0)
  | e => e

/-- An expression is its own outline or is outlined by a difference. -/
theorem outline_cases (e : Expr R) :
    e.outline = e ∨ ∃ a x, e = a - constant x ∧ e.outline = a - constant 0.0 := by
  unfold outline
  split
  · next a x => exact .inr ⟨a, x, rfl, rfl⟩
  · exact .inl rfl

/-- An outline mentions the same parameters. -/
theorem params_outline (e : Expr R) : e.outline.params = e.params := by
  rcases e.outline_cases with h | ⟨a, x, he, h⟩
  · rw [h]
  · rw [h, he]
    rfl

/-- An outline mentions as many parameters. -/
theorem referenced_outline (e : Expr R) : e.outline.referenced = e.referenced := by
  rw [referenced, params_outline, referenced]

/-- An outline is the difference of the same parameters. -/
theorem paramDifference?_outline (e : Expr R) :
    e.outline.paramDifference? = e.paramDifference? := by
  rcases e.outline_cases with h | ⟨a, x, he, h⟩
  · rw [h]
  · rw [h, he]
    cases a <;> rfl

/-- An outline has the same derivatives. -/
theorem derivative_outline (p : ParamId) (e : Expr R) :
    e.outline.derivative p = e.derivative p := by
  rcases e.outline_cases with h | ⟨a, x, he, h⟩
  · rw [h]
  · rw [h, he]
    rfl

/-- An outline has the same partial derivatives. -/
theorem partials_outline (unknowns : List ParamId) (e : Expr R) :
    e.outline.partials unknowns = e.partials unknowns := by
  simp only [partials, usedParams, params_outline, derivative_outline]

/-- Renaming parameters and outlining can be done in either order. -/
theorem outline_substitute (m : Table ParamId ParamId) (e : Expr R) :
    (e.substitute m).outline = e.outline.substitute m := by
  cases e with
  | binary op a b =>
    cases op with
    | minus => cases b <;> rfl
    | _ => rfl
  | _ => rfl

end Expr

/-! ## Outlines of systems -/

/-- The equation with the outline of its expression. -/
def Equation.outline (eq : Equation R) : Equation R := { eq with expr := eq.expr.outline }

namespace EquationSystem

/-- The system with the outlines of its equations, and zero for each working value. -/
def outline (sys : EquationSystem R) : EquationSystem R :=
  { sys with
    equations := sys.equations.map Equation.outline
    values := sys.values.map fun _ _ ↦ 0.0 }

variable {sys : EquationSystem R}

/-- Systems of the same outline agree on what an outline keeps. -/
theorem fields_of_outline_eq {again sys : EquationSystem R} (h : again.outline = sys.outline) :
    again.group = sys.group ∧ again.dragged = sys.dragged ∧
      again.substituted = sys.substituted := by
  rw [outline, outline, EquationSystem.mk.injEq] at h
  exact ⟨h.1, h.2.2.2.1, h.2.2.2.2.1⟩

/-- The outline has the same unknowns. -/
theorem contains_outline (sys : EquationSystem R) (p : ParamId) :
    sys.outline.values.contains p = sys.values.contains p := by
  rw [outline, Table.contains, Table.find?_map, Option.isSome_map, Table.contains]

/-- The equation at a place of the outline. -/
theorem getElem?_outline (sys : EquationSystem R) (i : Nat) :
    sys.outline.equations[i]? = sys.equations[i]?.map Equation.outline := List.getElem?_map

/-- The outline has as many equations. -/
theorem length_outline (sys : EquationSystem R) :
    sys.outline.equations.length = sys.equations.length := List.length_map _

/-- The outline mentions the same unknowns. -/
theorem referencedUnknowns_outline (sys : EquationSystem R) :
    sys.outline.referencedUnknowns = sys.referencedUnknowns := by
  have hparams : (sys.equations.map Equation.outline).flatMap (fun eq ↦ eq.expr.params) =
      sys.equations.flatMap fun eq ↦ eq.expr.params := by
    simp only [List.flatMap_map, Equation.outline, Expr.params_outline]
  have hcontains : sys.outline.values.contains = sys.values.contains :=
    funext sys.contains_outline
  unfold referencedUnknowns
  rw [hcontains, outline]
  dsimp only
  rw [hparams]

/-- The outline is as large. -/
theorem oversized_outline {config : Config R} :
    sys.outline.Oversized config ↔ sys.Oversized config := by
  rw [Oversized, referencedUnknowns_outline, length_outline, Oversized]

/-! ## Merging -/

/-- Retiring an equation and outlining can be done in either order. -/
theorem outline_retire (sys : EquationSystem R) (i : Nat) :
    (sys.retire i).outline = sys.outline.retire i := by
  simp only [outline, retire, EquationSystem.mk.injEq, true_and, and_true]
  apply List.ext_getElem?
  intro j
  simp only [List.getElem?_map, List.getElem?_modify]
  by_cases hij : i = j
  · cases sys.equations[j]? <;> simp [hij, Equation.outline]
  · cases sys.equations[j]? <;> simp [hij]

/-- Merging two unknowns and outlining can be done in either order. -/
theorem outline_merge (sys : EquationSystem R) (gone kept : ParamId) :
    (sys.merge gone kept).outline = sys.outline.merge gone kept := by
  simp only [outline, merge, EquationSystem.mk.injEq, true_and, and_true, List.map_map]
  apply List.map_congr_left
  intro eq _
  simp only [Function.comp_apply, Equation.outline, Expr.outline_substitute]

/-- The outline of an equation equates the same unknowns. -/
theorem equated?_outline (sys : EquationSystem R) (i : Nat) :
    sys.outline.equated? i = sys.equated? i := by
  unfold equated?
  rw [getElem?_outline]
  cases sys.equations[i]? with
  | none => rfl
  | some eq =>
    simp only [Option.map_some, Equation.outline, Expr.paramDifference?_outline, contains_outline]

/-- Looking at one equation and outlining can be done in either order. -/
theorem outline_substituteAt (sys : EquationSystem R) (i : Nat) :
    (sys.substituteAt i).outline = sys.outline.substituteAt i := by
  unfold substituteAt
  rw [equated?_outline]
  cases sys.equated? i with
  | none => rfl
  | some ab =>
    have horder : sys.outline.mergeOrder ab.1 ab.2 = sys.mergeOrder ab.1 ab.2 := rfl
    dsimp only
    rw [horder]
    split
    · exact outline_retire sys i
    · rw [outline_merge, outline_retire]

/-- Looking at some equations in turn and outlining can be done in either order. -/
theorem outline_foldl_substituteAt (is : List Nat) (sys : EquationSystem R) :
    (is.foldl substituteAt sys).outline = is.foldl substituteAt sys.outline := by
  induction is generalizing sys with
  | nil => rfl
  | cons i is ih => rw [List.foldl_cons, ih, outline_substituteAt, List.foldl_cons]

/-- Merging and outlining can be done in either order. -/
theorem outline_substitute (sys : EquationSystem R) :
    sys.substitute.outline = sys.outline.substitute := by
  rw [substitute, outline_foldl_substituteAt, substitute, length_outline]

/-! ## Fixing -/

/-- The system after looking at one equation, whose only unknown is fixed where it is. -/
def fixAt (sys : EquationSystem R) (i : Nat) : EquationSystem R :=
  match sys.equations[i]?.bind sys.lonely? with
  | none => sys
  | some (p, _) => { sys.retire i with solvedAlone := sys.solvedAlone.add p }

/-- The system after looking at each equation in turn, with unknowns fixed where they are. -/
def fix (sys : EquationSystem R) : EquationSystem R :=
  (List.range sys.equations.length).foldl fixAt sys

/-- The outline of an equation is lonely if the equation is, and with the same unknown. -/
theorem lonely?_outline (sys : EquationSystem R) (eq : Equation R) :
    sys.outline.lonely? eq.outline = (sys.lonely? eq).map fun d ↦ (d.1, 0.0) := by
  unfold lonely?
  simp only [Equation.outline, Expr.referenced_outline]
  split
  · rfl
  · split
    · next p _ =>
      have hfree : (sys.outline.solvedAlone.contains p || sys.outline.substituted.contains p) =
          (sys.solvedAlone.contains p || sys.substituted.contains p) := rfl
      rw [hfree]
      split
      · rfl
      · rw [outline, Table.find?_map, Option.map_map, Option.map_map]
        rfl
    · rfl

private theorem outline_assign {p : ParamId} (hp : sys.values.contains p = true) (x : R) (i : Nat) :
    ({ sys.retire i with
        values := sys.values.insert p x
        solvedAlone := sys.solvedAlone.add p } : EquationSystem R).outline =
      { sys.outline.retire i with solvedAlone := sys.solvedAlone.add p } := by
  have hvalues : (sys.values.insert p x).map (fun _ _ ↦ (0.0 : R)) =
      sys.values.map fun _ _ ↦ 0.0 :=
    Table.map_const_congr (fun q ↦ Table.contains_insert_of_contains hp q x) _
  rw [← outline_retire]
  simp only [outline, hvalues, retire]

/-- An equation that can be solved where it has to be fixes what it fixes in the outline. -/
theorem outline_of_solveAloneAt? {tolerance : R} {cap i : Nat} {after : EquationSystem R}
    (h : sys.solveAloneAt? tolerance cap i = some after) :
    after.outline = sys.outline.fixAt i := by
  unfold fixAt
  rw [getElem?_outline]
  unfold solveAloneAt? at h
  cases heq : sys.equations[i]? with
  | none =>
    rw [heq] at h
    cases h
    rfl
  | some eq =>
    rw [heq] at h
    rw [Option.map_some, Option.bind_some, lonely?_outline]
    cases hlonely : sys.lonely? eq with
    | none =>
      simp only [hlonely] at h
      cases h
      rfl
    | some d =>
      simp only [hlonely] at h
      obtain ⟨x, _, rfl⟩ := Option.map_eq_some_iff.mp h
      have hvalue := (lonely?_eq_some hlonely).2.2.2.2
      exact outline_assign (Table.contains_iff_exists.mpr ⟨d.2, hvalue⟩) x i

/-- A run over equations that can all be solved where they have to be fixes what it fixes in the
outline. -/
theorem outline_of_solveAloneOn {tolerance : R} {cap : Nat} {is : List Nat}
    {after : EquationSystem R} (h : solveAloneOn tolerance cap is sys = (after, none)) :
    after.outline = is.foldl fixAt sys.outline := by
  induction is generalizing sys with
  | nil =>
    cases h
    rfl
  | cons i is ih =>
    unfold solveAloneOn at h
    split at h
    · next next hi => rw [List.foldl_cons, ← outline_of_solveAloneAt? hi, ih h]
    · cases h

/-- If all equations in one unknown can be solved, the outline is left with what they fix. -/
theorem outline_of_solveAlone {tolerance : R} {cap : Nat} {after : EquationSystem R}
    (h : sys.solveAlone tolerance cap = (after, none)) : after.outline = sys.outline.fix := by
  rw [outline_of_solveAloneOn h, fix, length_outline]

/-! ## What is left to be iterated -/

/-- Outlines of the equations that are left are left of the outline. -/
theorem newton_outline (sys : EquationSystem R) :
    sys.outline.newton =
      { sys.newton with equations := sys.newton.equations.map Equation.outline } := by
  have hkeys : sys.outline.values.keys = sys.values.keys := by
    rw [outline, Table.keys, Table.toList_map, List.map_map]
    rfl
  have hactive : (sys.outline.equations.zipIdx.filter fun eq ↦ !eq.1.retired) =
      (sys.equations.zipIdx.filter fun eq ↦ !eq.1.retired).map (Prod.map Equation.outline id) := by
    rw [outline]
    dsimp only
    rw [List.zipIdx_map, List.filter_map]
    rfl
  unfold newton
  rw [hkeys, hactive]
  simp only [List.map_map, NewtonSystem.mk.injEq]
  refine ⟨rfl, rfl, rfl, ?_, rfl⟩
  apply List.map_congr_left
  intro eq _
  exact eq.1.expr.partials_outline _

end EquationSystem

end SketchSolver
