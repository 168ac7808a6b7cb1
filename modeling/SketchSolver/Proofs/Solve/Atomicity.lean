import SketchSolver.Proofs.Solve.Ending

/-!
# All or nothing

A solve works on the sketch in place and has seven exits, at most of which working values exist.
Nothing of them gets into the sketch unless the solve succeeds: a refusal and a report without a
solution leave the sketch as it was, and a solution is written by a single commit whose degrees of
freedom are the reported ones. This holds for every way of asking for a solve.
-/

namespace SketchSolver

variable {R : Type} [Arith R]

/-- What an all-or-nothing solve of a group ends with: the sketch as it was, or a solution in it. -/
def AllOrNothing (s : Sketch R) (g : GroupId) :
    EStateM.Result (SketchError R) (Sketch R) (SolveReport R) → Prop
  | .error _ t => t = s
  | .ok r t =>
    if r.status.isOk then ∃ values d, r.dof = some d ∧ t = s.commit g values d
    else r.dof = none ∧ t = s

variable {la : LinearAlgebra R} {config : Config R} {s : Sketch R} {g : GroupId}

/-- Every way in which a solve ends is all or nothing. -/
theorem SolveEnd.allOrNothing {dragged : HandleSet ParamId}
    {result : EStateM.Result (SketchError R) (Sketch R) (SolveReport R)}
    (h : SolveEnd la config s g dragged result) : AllOrNothing s g result := by
  cases h with
  | missing => rfl
  | unwritten => rfl
  | oversized => exact ⟨rfl, rfl⟩
  | stuck => exact ⟨rfl, rfl⟩
  | diverged =>
    rw [AllOrNothing, if_neg (Bool.eq_false_iff.mp isOk_failure)]
    exact ⟨rfl, rfl⟩
  | undiagnosed => rfl
  | @solved _ fixed _ hp =>
    rw [AllOrNothing, if_pos isOk_finalReport, ← hp.group]
    exact ⟨(fixed.iterated la config).resolvedValues, fixed.finalDof la config, rfl, rfl⟩

omit [Arith R] in
/-- An all-or-nothing solve leaves the sketch as it was or with a solution in it. -/
theorem AllOrNothing.left {op : Operation R (SolveReport R)} (h : AllOrNothing s g (op.run s)) :
    op.left s = s ∨ ∃ values d, op.left s = s.commit g values d := by
  unfold Operation.left
  cases hrun : op.run s with
  | error e t =>
    rw [hrun] at h
    exact .inl h
  | ok r t =>
    rw [hrun, AllOrNothing] at h
    split at h
    · obtain ⟨values, d, _, ht⟩ := h
      exact .inr ⟨values, d, ht⟩
    · exact .inl h.2

/-- A solve with dragged parameters is all or nothing, also if one of them is missing. -/
theorem allOrNothing_solveDragged (la : LinearAlgebra R) (s : Sketch R) (g : GroupId)
    (dragged : List ParamId) :
    AllOrNothing s g ((Operation.solveDragged la g dragged).run s) := by
  rw [run_solveDragged]
  split
  · exact (solveEnd_solveWith la s.config s g _).allOrNothing
  · rfl

/-- However a group is asked to be solved, the solve is all or nothing. -/
theorem allOrNothing_solves (la : LinearAlgebra R) (config : Config R) (s : Sketch R)
    (g : GroupId) (dragged : HandleSet ParamId) (ps : List ParamId) :
    AllOrNothing s g ((Operation.solveWith la config g dragged).run s) ∧
      AllOrNothing s g ((Operation.solveDragged la g ps).run s) ∧
      AllOrNothing s g ((Operation.solve la g).run s) :=
  ⟨(solveEnd_solveWith la config s g dragged).allOrNothing, allOrNothing_solveDragged la s g ps,
    allOrNothing_solveDragged la s g []⟩

end SketchSolver
