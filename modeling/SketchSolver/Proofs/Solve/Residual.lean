import Mathlib.Data.List.Induction
import SketchSolver.Proofs.Order
import SketchSolver.Proofs.Solve.Soundness

/-!
# Residuals of reports

A report carries the largest magnitude of the iterated equations at the end. After a success it is
within the tolerance. After an iteration that failed it is not, unless a step took a value out of
the usable range: then the iteration is given up without asking whether the equations hold. The
largest magnitude of a list does not tell of an undefined entry that is followed by another one.
-/

namespace SketchSolver

variable {R : Type} [Arith R]

/-! ## The largest magnitude -/

/-- The largest magnitude of a list with one more entry. -/
theorem maxAbs_concat (v : List R) (x : R) :
    maxAbs (v ++ [x]) =
      if Arith.isNaN x then Arith.nan else Arith.larger (maxAbs v) (Arith.abs x) := by
  unfold maxAbs
  rw [List.foldl_append]
  rfl

variable [OrderedArith R]

/-- The largest magnitude is bounded if every magnitude is. -/
theorem maxAbs_le {v : List R} {bound : R} (hbound : 0.0 ≤ bound)
    (h : ∀ x ∈ v, Arith.abs x ≤ bound) : maxAbs v ≤ bound := by
  induction v using List.reverseRecOn with
  | nil => exact hbound
  | append_singleton v x ih =>
    have hx := h x List.mem_concat_self
    rw [maxAbs_concat, isNaN_of_abs_le hx, if_neg Bool.false_ne_true]
    exact larger_le (ih fun y hy ↦ h y (List.mem_append_left _ hy)) hx

/-- The largest of defined magnitudes is defined. -/
theorem isNaN_maxAbs {v : List R} (h : ∀ x ∈ v, Arith.isNaN x = false) :
    Arith.isNaN (maxAbs v) = false := by
  induction v using List.reverseRecOn with
  | nil => exact OrderedArith.isNaN_zero
  | append_singleton v x ih =>
    have hx := h x List.mem_concat_self
    rw [maxAbs_concat, hx, if_neg Bool.false_ne_true]
    exact isNaN_larger (ih fun y hy ↦ h y (List.mem_append_left _ hy))
      ((OrderedArith.isNaN_abs x).trans hx)

/-- A bound on the largest magnitude bounds every magnitude, unless an undefined entry is followed
by another one. -/
theorem abs_le_of_maxAbs_le {v : List R} {bound : R}
    (hdefined : ∀ x ∈ v.dropLast, Arith.isNaN x = false) (h : maxAbs v ≤ bound) :
    ∀ x ∈ v, Arith.abs x ≤ bound := by
  induction v using List.reverseRecOn with
  | nil => exact fun _ hx ↦ absurd hx List.not_mem_nil
  | append_singleton v x ih =>
    rw [List.dropLast_concat] at hdefined
    rw [maxAbs_concat] at h
    split at h
    · -- An undefined entry at the end shows.
      have hnan := OrderedArith.isNaN_of_le h
      rw [OrderedArith.isNaN_nan] at hnan
      cases hnan
    · next hx =>
      have habs : Arith.isNaN (Arith.abs x) = false :=
        (OrderedArith.isNaN_abs x).trans (Bool.eq_false_iff.mpr hx)
      obtain ⟨hv, hlast⟩ := le_of_larger_le (isNaN_maxAbs hdefined) habs h
      have hfirst := ih (fun y hy ↦ hdefined y (List.dropLast_subset _ hy)) hv
      intro y hy
      rcases List.mem_append.mp hy with hy | hy
      · exact hfirst y hy
      · rw [List.mem_singleton.mp hy]
        exact hlast

/-! ## Where an iteration ends -/

namespace EquationSystem

/-- The values of the iterated equations where the iteration ends. -/
def finalResiduals (la : LinearAlgebra R) (config : Config R) (sys : EquationSystem R) : List R :=
  sys.newton.residuals sys (sys.newton.iterate la config sys).x

/-- Whether the iteration ends with an unknown out of the usable range or with an equation beyond
the limit of usable values. -/
def LeavesRange (la : LinearAlgebra R) (config : Config R) (sys : EquationSystem R) : Prop :=
  outOfRange (sys.newton.iterate la config sys).x = true ∨
    ∃ f ∈ sys.finalResiduals la config, valueLimit < Arith.abs f

end EquationSystem

omit [OrderedArith R] in
/-- An iteration that fails where all equations hold has left the usable range. -/
theorem outOfRange_of_iterateFrom {la : LinearAlgebra R} {config : Config R} {nw : NewtonSystem R}
    {sys : EquationSystem R} {left taken : Nat} {x history : List R}
    (hfailed : (iterateFrom la config nw sys left taken x history).converged = false)
    (hholds : isConverged (nw.residuals sys (iterateFrom la config nw sys left taken x history).x)
      config.tolerance = true) :
    outOfRange (iterateFrom la config nw sys left taken x history).x = true ∨
      outOfRange (nw.residuals sys (iterateFrom la config nw sys left taken x history).x) =
        true := by
  fun_induction iterateFrom la config nw sys left taken x history with
  | case1 => cases hfailed
  | case2 _ _ _ _ _ hnot => exact absurd hholds hnot
  | case3 _ _ _ _ hnot => exact absurd hholds hnot
  | case4 _ _ _ _ hnot => exact absurd hholds hnot
  | case5 _ _ _ _ hnot => exact absurd hholds hnot
  | case6 _ _ _ _ _ _ _ _ _ _ _ _ hrange => exact Bool.or_eq_true_iff.mp hrange
  | case7 _ _ _ _ _ _ _ _ _ _ _ _ _ ih => exact ih hfailed hholds

/-! ## The residual that is reported -/

section

variable {la : LinearAlgebra R} {config : Config R} {s t : Sketch R} {g : GroupId}
  {dragged : HandleSet ParamId} {r : SolveReport R}

omit [OrderedArith R] in
/-- Solves of a group that end at an equation in one unknown, before anything is iterated. -/
def StuckAlone (config : Config R) (s : Sketch R) (g : GroupId) (dragged : HandleSet ParamId) :
    Prop :=
  ∃ start fixed i, s.assemble g dragged = .ok start ∧
    start.substitute.solveAlone config.tolerance config.maxIterations = (fixed, some i)

/-- The residual of a report agrees with how the solve ended. -/
structure ResidualAgrees (la : LinearAlgebra R) (config : Config R) (s : Sketch R) (g : GroupId)
    (dragged : HandleSet ParamId) (r : SolveReport R) : Prop where
  /-- After a success it is within the tolerance. -/
  success : r.status.isOk = true → r.residual ≤ config.tolerance
  /-- After a failure it is not, unless the solve is stuck at an equation in one unknown, the
  iteration leaves the usable range or an undefined equation is followed by another one. -/
  failure : r.status = .inconsistent ∨ r.status = .didntConverge →
    StuckAlone config s g dragged ∨
      ∃ start fixed, Prepared config s g dragged start fixed ∧
        (fixed.newton.iterate la config fixed).converged = false ∧
        (¬ fixed.LeavesRange la config →
          (∀ x ∈ (fixed.finalResiduals la config).dropLast, Arith.isNaN x = false) →
            ¬ r.residual ≤ config.tolerance)

/-- A successful solve reports a residual within the tolerance. -/
theorem residual_le_of_isOk (hconfig : config.validate = .ok ())
    (h : s.solveWith la config g dragged = .ok (r, t)) (hok : r.status.isOk = true) :
    r.residual ≤ config.tolerance := by
  obtain ⟨start, fixed, bad, _, hconverged, rfl, _⟩ :=
    exists_finalReport_of_isOk (Operation.outcome_eq_ok_iff.mp h) hok
  refine maxAbs_le (OrderedArith.le_of_lt (Config.tolerance_pos hconfig)) ?_
  exact isConverged_iff.mp (isConverged_of_iterate hconverged)

/-- An iteration that failed within the usable range reports a residual that is not within the
tolerance, unless an undefined equation is followed by another one. -/
theorem not_maxAbs_finalResiduals_le {sys : EquationSystem R}
    (hfailed : (sys.newton.iterate la config sys).converged = false)
    (hrange : ¬ sys.LeavesRange la config)
    (hdefined : ∀ x ∈ (sys.finalResiduals la config).dropLast, Arith.isNaN x = false) :
    ¬ maxAbs (sys.finalResiduals la config) ≤ config.tolerance := by
  intro hle
  have hbounded := abs_le_of_maxAbs_le hdefined hle
  rcases outOfRange_of_iterateFrom hfailed (isConverged_iff.mpr hbounded) with hx | hf
  · exact hrange (.inl hx)
  · obtain ⟨f, hmem, hf⟩ := List.any_eq_true.mp hf
    rw [isNaN_of_abs_le (hbounded f hmem), Bool.false_or] at hf
    exact hrange (.inr ⟨f, hmem, of_decide_eq_true hf⟩)

/-- With a valid configuration the reported residual agrees with how the solve ended. -/
theorem residualAgrees_of_solveWith (hconfig : config.validate = .ok ())
    (h : s.solveWith la config g dragged = .ok (r, t)) :
    ResidualAgrees la config s g dragged r := by
  refine ⟨residual_le_of_isOk hconfig h, fun hstatus ↦ ?_⟩
  have hend := solveEnd_solveWith la config s g dragged
  rw [Operation.outcome_eq_ok_iff.mp h] at hend
  cases hend with
  | oversized => rcases hstatus with h | h <;> cases h
  | stuck ha halone => exact .inl ⟨_, _, _, ha, halone⟩
  | diverged hp hfailed =>
    exact .inr ⟨_, _, hp, hfailed, fun hrange hdefined ↦
      not_maxAbs_finalResiduals_le hfailed hrange hdefined⟩
  | @solved _ fixed bad =>
    have hok : (fixed.finalReport la config bad).status.isOk = true := isOk_finalReport
    rcases hstatus with h | h <;> rw [h] at hok <;> cases hok

end

/-- Two points that are to be at two distances from each other. -/
def pointsAtTwoDistances : Sketch Float :=
  (Sketch.empty .default).runAll .standard
    [.draw ⟨1⟩ (.point3d ⟨0.0, 0.0, 0.0⟩),
      .draw ⟨1⟩ (.point3d ⟨1.0, 0.0, 0.0⟩),
      .relate ⟨1⟩ (.distance ⟨1⟩ ⟨2⟩ 5.0 none),
      .relate ⟨1⟩ (.distance ⟨1⟩ ⟨2⟩ 6.0 none)]

/-- The settings of a solver that takes a single step. -/
def singleStep : Config Float := { Config.default with maxIterations := 1 }

/-- The two distances contradict each other, and a single step reports a residual that agrees with
that. -/
theorem residualAgrees_of_solveWith_pointsAtTwoDistances :
    ∃ r t, pointsAtTwoDistances.solveWith .standard singleStep ⟨1⟩ .empty = .ok (r, t) ∧
      r.status = .inconsistent ∧
      ResidualAgrees .standard singleStep pointsAtTwoDistances ⟨1⟩ .empty r := by
  have hconfig : singleStep.validate = .ok () := by rfl
  have hsolved : (pointsAtTwoDistances.solveWith .standard singleStep ⟨1⟩ .empty).toOption.any
      (fun result ↦ decide (result.1.status = .inconsistent)) = true := by decide +kernel
  obtain ⟨⟨r, t⟩, hrun, hstatus⟩ := Outcome.exists_of_any_toOption hsolved
  exact ⟨r, t, hrun, of_decide_eq_true hstatus, residualAgrees_of_solveWith hconfig hrun⟩

/-- Two points that are to be farther from each other than values may be large. -/
def pointsTooFar : Sketch Float :=
  (Sketch.empty .default).runAll .standard
    [.draw ⟨1⟩ (.point3d ⟨0.0, 0.0, 0.0⟩),
      .draw ⟨1⟩ (.point3d ⟨1.0, 0.0, 0.0⟩),
      .relate ⟨1⟩ (.distance ⟨1⟩ ⟨2⟩ 2.4e11 none)]

/-- One step takes the two points to where their distance is right and out of the usable range, so
the solve fails with a residual within the tolerance. -/
theorem residual_le_pointsTooFar :
    pointsTooFar.Reachable .standard ∧ (Config.default : Config Float).validate = .ok () ∧
      ∃ r t, pointsTooFar.solveWith .standard .default ⟨1⟩ .empty = .ok (r, t) ∧
        r.status = .didntConverge ∧
        r.residual ≤ (Config.default : Config Float).tolerance := by
  have hsolved : (pointsTooFar.solveWith .standard .default ⟨1⟩ .empty).toOption.any
      (fun result ↦ decide (result.1.status = .didntConverge) &&
        decide (result.1.residual ≤ (Config.default : Config Float).tolerance)) = true := by
    decide +kernel
  obtain ⟨⟨r, t⟩, hrun, hboth⟩ := Outcome.exists_of_any_toOption hsolved
  obtain ⟨hstatus, hresidual⟩ := Bool.and_eq_true_iff.mp hboth
  exact ⟨⟨.default, _, rfl⟩, rfl, r, t, hrun, of_decide_eq_true hstatus,
    of_decide_eq_true hresidual⟩

end SketchSolver
