import SketchSolver.Proofs.Exact.Freedom

/-!
# Superfluous equations

A successful solve says whether the equations that it iterated are independent. If all equations
that were assembled are independent, so are those that are iterated. The converse fails in two
ways: merging retires an equation that has come to say that an unknown equals itself, and fixing an
unknown retires an equation whose slope may be zero there.
-/

namespace SketchSolver

open Module

variable {la : LinearAlgebra ℝ} {config : Config ℝ} {s t : Sketch ℝ} {g : GroupId}
  {dragged : HandleSet ParamId}

/-- The rank at the end is at most the number of equations that are iterated. -/
theorem EquationSystem.finalRank_le_height (hrank : la.RanksExactly config.rankTolerance)
    (sys : EquationSystem ℝ) : sys.finalRank la config ≤ sys.newton.height := by
  have hheight : (sys.newton.jacobian (sys.iterated la config)
      (sys.newton.iterate la config sys).x).height = sys.newton.height := by
    rw [jacobian_newton]
    exact (List.length_map _).trans (List.length_map _)
  rw [finalRank, hrank, ← hheight]
  exact Matrix.rank_le_height _

/-- All equations are independent exactly if those that are iterated are, merging retires no more
equations than it replaces unknowns, and fixed unknowns stay in all motions. -/
theorem Prepared.rank_fullJacobian_eq_length_iff {start fixed : EquationSystem ℝ}
    {v : ParamId → ℝ} (h : Prepared config s g dragged start fixed)
    (hrank : la.RanksExactly config.rankTolerance)
    (hv : ∀ p, start.values.contains p = true → v p = (fixed.iterated la config).value p) :
    (start.fullJacobian v).toMatrix.rank = start.equations.length ↔
      fixed.finalRank la config = fixed.newton.height ∧
        start.substitute.retiredCount = start.substitute.substituted.size ∧
        ∀ w ∈ start.motions v, ∀ p, fixed.solvedAlone.contains p = true → w p = 0 := by
  have hfull := start.rank_fullJacobian_add_finrank v
  have hfinal := h.finalRank_add_finrank hrank hv
  have hwidth := h.width_newton
  have hheight := h.height_newton
  have hmerged := (EquationSystem.mergeCounts_substitute h.untouched).size_le
  have hle := fixed.finalRank_le_height hrank
  obtain ⟨hfewer, hsame⟩ := start.finrank_motions_inf_still v
    fun p ↦ fixed.solvedAlone.contains p = true
  rw [h.fixedFrom.substituted] at hwidth
  rw [← hsame]
  -- Equations lost by merging and motions lost by fixing both lower the rank that is compared, so a
  -- full rank of all equations leaves room for neither.
  omega

/-- With exact ranks, all equations of a system that was solved are independent exactly if the
solve reports no superfluous ones, merging retired no more equations than it replaced unknowns, and
the unknowns that were fixed by an equation of their own stay in every motion of the system. -/
theorem independent_iff_of_solveWith {r : SolveReport ℝ}
    (hrank : la.RanksExactly config.rankTolerance)
    (h : s.solveWith la config g dragged = .ok (r, t)) (hok : r.status.isOk = true) :
    ∃ sys, s.assemble g dragged = .ok sys ∧
      ((sys.fullJacobian t.value).toMatrix.rank = sys.equations.length ↔
        r.status = .okay ∧
          sys.substitute.retiredCount = sys.substitute.substituted.size ∧
          ∀ w ∈ sys.motions t.value, ∀ p,
            (sys.substitute.solveAlone config.tolerance
              config.maxIterations).1.solvedAlone.contains p = true → w p = 0) := by
  obtain ⟨start, fixed, bad, hp, _, rfl, rfl⟩ :=
    exists_finalReport_of_isOk (Operation.outcome_eq_ok_iff.mp h) hok
  refine ⟨start, hp.assembled, ?_⟩
  rw [status_finalReport_eq_okay_iff, hp.alone]
  exact hp.rank_fullJacobian_eq_length_iff hrank fun p hknown ↦ hp.value_commit la _ hknown

/-- The equations of two points at one place are independent exactly if no superfluous ones are
reported and none was lost. -/
theorem independent_iff_of_solveWith_pointsTogether :
    ∃ r t, pointsTogether.solveWith .exact .default ⟨1⟩ .empty = .ok (r, t) ∧
      r.status.isOk = true ∧
      ∃ sys, pointsTogether.assemble ⟨1⟩ .empty = .ok sys ∧
        ((sys.fullJacobian t.value).toMatrix.rank = sys.equations.length ↔
          r.status = .okay ∧
            sys.substitute.retiredCount = sys.substitute.substituted.size ∧
            ∀ w ∈ sys.motions t.value, ∀ p,
              (sys.substitute.solveAlone (Config.default : Config ℝ).tolerance
                (Config.default : Config ℝ).maxIterations).1.solvedAlone.contains p = true →
                w p = 0) := by
  have hsolved : ∃ r t, pointsTogether.solveWith .exact .default ⟨1⟩ .empty = .ok (r, t) ∧
      r.status.isOk = true := ⟨_, _, rfl, rfl⟩
  obtain ⟨r, t, h, hok⟩ := hsolved
  exact ⟨r, t, h, hok, independent_iff_of_solveWith LinearAlgebra.ranksExactly_exact_default h hok⟩

/-! ## Equations that merging retires -/

/-- Where each equation sets two unknowns equal, all unknowns move by one and the same step. -/
theorem together_mem_motions {sys : EquationSystem ℝ} {v : ParamId → ℝ}
    {pairs : List (ParamId × ParamId)}
    (hpairs : ∀ ab ∈ pairs, ab.1 ∈ sys.values.keys ∧ ab.2 ∈ sys.values.keys)
    (h : sys.equations.map Equation.expr = pairs.map fun ab ↦ .param ab.1 - .param ab.2) :
    (fun p ↦ if p ∈ sys.values.keys then 1 else 0) ∈ sys.motions v := by
  refine ⟨fun p hp ↦ if_neg hp, ?_⟩
  rw [h]
  intro e he
  obtain ⟨ab, hab, rfl⟩ := List.mem_map.mp he
  rw [Expr.differential_param_sub_param, if_pos (hpairs ab hab).1, if_pos (hpairs ab hab).2,
    sub_self]

/-- Two points at one place, which is said twice. -/
noncomputable def pointsTogetherTwice : Sketch ℝ :=
  pointsTogether.runAll .exact [.relate ⟨1⟩ (.coincident ⟨1⟩ ⟨2⟩ none)]

/-- The coordinates that are equal where two points are at one place. -/
def coordinatesTogether : List (ParamId × ParamId) := [(⟨1⟩, ⟨4⟩), (⟨2⟩, ⟨5⟩), (⟨3⟩, ⟨6⟩)]

/-- No equation is reported as superfluous where two points are said to be at one place twice: what
is said the second time holds of unknowns that have been replaced by one another. -/
theorem independent_pointsTogetherTwice :
    LinearAlgebra.exact.RanksExactly (Config.default : Config ℝ).rankTolerance ∧
      ∃ r t sys, pointsTogetherTwice.solveWith .exact .default ⟨1⟩ .empty = .ok (r, t) ∧
        r.status = .okay ∧ pointsTogetherTwice.assemble ⟨1⟩ .empty = .ok sys ∧
        (sys.fullJacobian t.value).toMatrix.rank ≠ sys.equations.length := by
  have hsolved : ∃ r t sys,
      pointsTogetherTwice.solveWith .exact .default ⟨1⟩ .empty = .ok (r, t) ∧
        r.status = .okay ∧ pointsTogetherTwice.assemble ⟨1⟩ .empty = .ok sys ∧
        sys.values.keys = [⟨1⟩, ⟨2⟩, ⟨3⟩, ⟨4⟩, ⟨5⟩, ⟨6⟩] ∧
        sys.equations.map Equation.expr = (coordinatesTogether ++ coordinatesTogether).map
          fun ab ↦ .param ab.1 - .param ab.2 :=
    ⟨_, _, _, rfl, rfl, rfl, rfl, rfl⟩
  obtain ⟨r, t, sys, h, hstatus, hsys, hkeys, hexprs⟩ := hsolved
  have hmotion := together_mem_motions (v := t.value) (by rw [hkeys]; decide) hexprs
  have hmoves : (if (⟨1⟩ : ParamId) ∈ sys.values.keys then (1 : ℝ) else 0) ≠ 0 := by
    rw [hkeys, if_pos List.mem_cons_self]
    exact one_ne_zero
  have hrank := EquationSystem.rank_fullJacobian_lt hmotion hmoves
  have hsize : sys.values.size = sys.equations.length := by
    rw [← Table.length_keys, hkeys, ← List.length_map (f := Equation.expr), hexprs]
    rfl
  refine ⟨LinearAlgebra.ranksExactly_exact_default, r, t, sys, h, hstatus, hsys, ?_⟩
  rw [← hsize]
  exact hrank.ne

end SketchSolver
