import SketchSolver.Command
import SketchSolver.LinearAlgebra.Standard
import SketchSolver.Proofs.Solve.Ending

/-!
# Soundness

After a successful solve every equation of the system that was assembled holds up to the tolerance
at the values that the sketch has then. An equation gets there in one of three ways: it said that
two unknowns are equal and they were merged, its only unknown was fixed at a root of it, or it was
iterated. In each of them it holds at the values with which the iteration ends, and these are
written to the sketch for every unknown, merged ones included.
-/

namespace SketchSolver

variable {R : Type} [Arith R]

namespace Prepared

variable {la : LinearAlgebra R} {config : Config R} {s : Sketch R} {g : GroupId}
  {dragged : HandleSet ParamId} {start fixed : EquationSystem R}

/-! ## Merged unknowns -/

/-- What a parameter is renamed to is not merged at the end either. -/
theorem find?_renamed (h : Prepared config s g dragged start fixed) (p : ParamId) :
    fixed.substituted.find? (renamed fixed.substituted p) = none := by
  rw [h.fixedFrom.substituted]
  exact h.merged.find?_renamed p

/-- What an unknown is renamed to is an unknown. -/
theorem contains_renamed (h : Prepared config s g dragged start fixed) {p : ParamId}
    (hp : start.values.contains p = true) :
    start.values.contains (renamed fixed.substituted p) = true := by
  rw [h.fixedFrom.substituted, ← h.merged.values]
  exact h.merged.contains_renamed (h.merged.values ▸ hp)

/-- A merged unknown has the final value of the one that stands for it. -/
theorem value_renamed (h : Prepared config s g dragged start fixed) (p : ParamId) :
    (fixed.iterated la config).value (renamed fixed.substituted p) =
      (fixed.iterated la config).value p := by
  have hone : (fixed.iterated la config).substituted = fixed.substituted := rfl
  unfold EquationSystem.value
  rw [hone, renamed_of_none (h.find?_renamed p)]

/-- An equation is iterated or retired under another name, and keeps its final value. -/
theorem exists_eval_eq (h : Prepared config s g dragged start fixed) {old : Equation R}
    (hold : old ∈ start.equations) :
    ∃ eq ∈ fixed.equations, old.expr.eval (fixed.iterated la config).value =
      eq.expr.eval (fixed.iterated la config).value := by
  obtain ⟨eq, heq, hexpr⟩ := h.exists_successor hold
  refine ⟨eq, heq, ?_⟩
  rw [hexpr, Expr.eval_substitute]
  apply Expr.eval_congr
  intro p _
  exact (h.value_renamed p).symm

/-- No equation mentions a merged unknown. -/
theorem find?_of_mem_params (h : Prepared config s g dragged start fixed) {eq : Equation R}
    (heq : eq ∈ fixed.equations) {p : ParamId} (hp : p ∈ eq.expr.params) :
    fixed.substituted.find? p = none := by
  obtain ⟨old, _, hexpr⟩ := h.exists_origin heq
  rw [hexpr, Expr.params_substitute] at hp
  obtain ⟨q, _, rfl⟩ := List.mem_map.mp hp
  exact h.find?_renamed q

/-! ## The three ways in which an equation holds -/

/-- An equation that is iterated holds at the final values. -/
theorem abs_eval_of_in_use (h : Prepared config s g dragged start fixed)
    (hconverged : (fixed.newton.iterate la config fixed).converged = true) {eq : Equation R}
    (heq : eq ∈ fixed.equations) (hr : eq.retired = false) :
    Arith.abs (eq.expr.eval (fixed.iterated la config).value) ≤ config.tolerance := by
  have hiterated : eq ∈ fixed.newton.equations :=
    (EquationSystem.mem_newton_equations fixed).mpr ⟨heq, hr⟩
  have heval : eq.expr.eval (fixed.iterated la config).value = eq.expr.eval
      (fixed.newton.assignment fixed (fixed.newton.iterate la config fixed).x) := by
    apply Expr.eval_congr
    intro p hp
    exact (NewtonSystem.assignment_eq_value (EquationSystem.sorted_newton_unknowns fixed)
      (h.find?_of_mem_params heq hp) _).symm
  rw [heval]
  apply isConverged_iff.mp (isConverged_of_iterate hconverged)
  exact List.mem_map.mpr ⟨eq, hiterated, rfl⟩

/-- A fixed unknown has the final value at which it is fixed. -/
theorem value_of_solvedAlone (h : Prepared config s g dragged start fixed) {p : ParamId} {x : R}
    (hp : fixed.solvedAlone.contains p = true) (hx : fixed.values.find? p = some x) :
    (fixed.iterated la config).value p = x := by
  have hmerged : (fixed.iterated la config).substituted.find? p = none := h.fixedFrom.unmerged p hp
  rw [EquationSystem.value_of_none hmerged, EquationSystem.iterated,
    EquationSystem.find?_store (EquationSystem.nodup_newton_unknowns fixed)]
  cases hl : (List.zip fixed.newton.unknowns (fixed.newton.iterate la config fixed).x).lookup p with
  | none => rw [Option.none_or, hx, Option.getD_some]
  | some y =>
    obtain ⟨before, after, hzip, _⟩ := List.lookup_eq_some_iff.mp hl
    have hmem : (p, y) ∈ List.zip fixed.newton.unknowns (fixed.newton.iterate la config fixed).x :=
      hzip ▸ List.mem_append_right before List.mem_cons_self
    exact absurd (List.of_mem_zip hmem).1 (EquationSystem.notMem_newton_unknowns fixed hp)

/-- A retired equation holds at the final values if a value less itself is zero. -/
theorem abs_eval_of_retired (h : Prepared config s g dragged start fixed)
    (hpositive : Arith.abs (0.0 : R) ≤ config.tolerance)
    (hself : ∀ p, start.values.contains p = true →
      (fixed.iterated la config).value p - (fixed.iterated la config).value p = 0.0)
    {eq : Equation R} (heq : eq ∈ fixed.equations) (hr : eq.retired = true) :
    Arith.abs (eq.expr.eval (fixed.iterated la config).value) ≤ config.tolerance := by
  rcases h.fixedFrom.solved eq heq hr with hmerged | ⟨p, x, hone, hp, hx, hroot⟩
  · obtain ⟨p, hp, he⟩ := h.merged.trivial eq hmerged hr
    rw [h.merged.values] at hp
    rw [he, Expr.eval_sub, Expr.eval_param, hself p hp]
    exact hpositive
  · rw [eval_assignOne hone (h.value_of_solvedAlone hp hx)]
    exact hroot

/-- Every equation that was assembled holds at the final values. -/
theorem abs_eval_le (h : Prepared config s g dragged start fixed)
    (hconverged : (fixed.newton.iterate la config fixed).converged = true)
    (hpositive : Arith.abs (0.0 : R) ≤ config.tolerance)
    (hself : ∀ p, start.values.contains p = true →
      (fixed.iterated la config).value p - (fixed.iterated la config).value p = 0.0)
    {old : Equation R} (hold : old ∈ start.equations) :
    Arith.abs (old.expr.eval (fixed.iterated la config).value) ≤ config.tolerance := by
  obtain ⟨eq, heq, heval⟩ := h.exists_eval_eq hold
  rw [heval]
  cases hr : eq.retired with
  | false => exact h.abs_eval_of_in_use hconverged heq hr
  | true => exact h.abs_eval_of_retired hpositive hself heq hr

/-- Every equation that was assembled holds where the unknowns have their final values. -/
theorem abs_eval_le_of_value_eq (h : Prepared config s g dragged start fixed)
    (hconverged : (fixed.newton.iterate la config fixed).converged = true)
    (hpositive : Arith.abs (0.0 : R) ≤ config.tolerance) {v : ParamId → R}
    (hv : ∀ p, start.values.contains p = true → v p = (fixed.iterated la config).value p)
    (hself : ∀ p, start.values.contains p = true → v p - v p = 0.0)
    {eq : Equation R} (heq : eq ∈ start.equations) :
    Arith.abs (eq.expr.eval v) ≤ config.tolerance := by
  have hvalues : eq.expr.eval v = eq.expr.eval (fixed.iterated la config).value :=
    Expr.eval_congr fun p hp ↦ hv p (h.untouched.closed eq heq p hp)
  rw [hvalues]
  exact h.abs_eval_le hconverged hpositive (fun p hp ↦ hv p hp ▸ hself p hp) heq

/-! ## What is written -/

/-- An unknown is a parameter that has its final value after the solved values are written. -/
theorem exists_param_commit (h : Prepared config s g dragged start fixed) (la : LinearAlgebra R)
    (dof : Nat) {p : ParamId} (hp : start.values.contains p = true) :
    ∃ q, (s.commit g (fixed.iterated la config).resolvedValues dof).params.find? p = some q ∧
      q.value = (fixed.iterated la config).value p := by
  have hunknown := hp
  rw [Sketch.values_of_assemble h.assembled, Table.contains, Sketch.find?_unknowns] at hunknown
  rw [Sketch.find?_params_commit, h.find?_resolvedValues, if_pos hp]
  cases hq : s.params.find? p with
  | none =>
    rw [hq] at hunknown
    cases hunknown
  | some q => exact ⟨_, rfl, rfl⟩

/-- An unknown has its final value in the sketch after the solved values are written. -/
theorem value_commit (h : Prepared config s g dragged start fixed) (la : LinearAlgebra R)
    (dof : Nat) {p : ParamId} (hp : start.values.contains p = true) :
    (s.commit g (fixed.iterated la config).resolvedValues dof).value p =
      (fixed.iterated la config).value p := by
  obtain ⟨q, hq, hvalue⟩ := h.exists_param_commit la dof hp
  rw [Sketch.value, hq]
  exact hvalue

end Prepared

/-! ## The result of a solve -/

/-- After a successful solve with a valid configuration, every equation of the system of the group
holds up to the tolerance at the values in the sketch. Of arithmetic this asks that zero is within
every positive bound and that the values in the sketch, each less itself, are zero. -/
theorem abs_eval_le_of_solveWith {la : LinearAlgebra R} {config : Config R} {s t : Sketch R}
    {g : GroupId} {dragged : HandleSet ParamId} {r : SolveReport R}
    (hconfig : config.validate = .ok ())
    (hzero : ∀ x : R, 0.0 < x → Arith.abs (0.0 : R) ≤ x)
    (hself : ∀ p ∈ t.params.values, p.value - p.value = 0.0)
    (h : s.solveWith la config g dragged = .ok (r, t)) (hok : r.status.isOk = true) :
    ∃ sys, s.assemble g dragged = .ok sys ∧
      ∀ eq ∈ sys.equations, Arith.abs (eq.expr.eval t.value) ≤ config.tolerance := by
  obtain ⟨start, fixed, hp, hconverged, _, rfl⟩ :=
    exists_prepared_of_isOk (Operation.outcome_eq_ok_iff.mp h) hok
  refine ⟨start, hp.assembled, ?_⟩
  intro eq heq
  have hvalues : eq.expr.eval (s.commit g (fixed.iterated la config).resolvedValues
      (fixed.finalDof la config)).value = eq.expr.eval (fixed.iterated la config).value := by
    apply Expr.eval_congr
    intro p hmem
    exact hp.value_commit la _ (hp.untouched.closed eq heq p hmem)
  rw [hvalues]
  apply hp.abs_eval_le hconverged (hzero _ (Config.tolerance_pos hconfig)) _ heq
  intro p hunknown
  obtain ⟨q, hq, hvalue⟩ := hp.exists_param_commit la (fixed.finalDof la config) hunknown
  rw [← hvalue]
  exact hself q (Table.mem_values_iff.mpr ⟨p, hq⟩)

/-- A point that stays where it is, one at a distance from it, and one at the place of the second. A
solve merges unknowns, fixes others and iterates the rest. -/
def linkedPoints : Sketch Float :=
  (Sketch.empty .default).runAll .standard
    [.draw ⟨1⟩ (.point3d ⟨0.0, 0.0, 0.0⟩),
      .draw ⟨1⟩ (.point3d ⟨3.0, 0.0, 0.0⟩),
      .draw ⟨1⟩ (.point3d ⟨3.0, 1.0, 0.0⟩),
      .relate ⟨1⟩ (.dragged ⟨1⟩ none),
      .relate ⟨1⟩ (.coincident ⟨3⟩ ⟨2⟩ none),
      .relate ⟨1⟩ (.distance ⟨1⟩ ⟨2⟩ 5.0 none)]

/-- The linked points are solved in double precision, where all equations hold afterwards. -/
theorem abs_eval_le_of_solveWith_linkedPoints :
    ∃ r t, linkedPoints.solveWith .standard .default ⟨1⟩ .empty = .ok (r, t) ∧
      r.status.isOk = true ∧
      ∃ sys, linkedPoints.assemble ⟨1⟩ .empty = .ok sys ∧
        ∀ eq ∈ sys.equations,
          Arith.abs (eq.expr.eval t.value) ≤ (Config.default : Config Float).tolerance := by
  have hconfig : (Config.default : Config Float).validate = .ok () := by rfl
  have hsolved : (linkedPoints.solveWith .standard .default ⟨1⟩ .empty).toOption.any
      (fun result ↦ result.1.status.isOk &&
        result.2.params.values.all fun p ↦ decide (p.value - p.value = 0.0)) = true := by
    decide +kernel
  obtain ⟨⟨r, t⟩, hrun, hboth⟩ := Outcome.exists_of_any_toOption hsolved
  obtain ⟨hok, hself⟩ := Bool.and_eq_true_iff.mp hboth
  refine ⟨r, t, hrun, hok, ?_⟩
  refine abs_eval_le_of_solveWith hconfig (fun _ ↦ abs_zero_le_of_pos) ?_ hrun hok
  intro p hp
  exact of_decide_eq_true (List.all_eq_true.mp hself p hp)

end SketchSolver
