import SketchSolver.Proofs.Exact.Redundancy

/-!
# Parameters that are left free

A solve that finds all iterated equations independent can name the parameters that are left free: it
leaves out one column of the matrix after the other and asks whether the rank stays full. With exact
ranks it does so exactly if the unknown of the column moves in some motion of what is iterated. An
unknown that is merged is never named, although it moves along with the one that stands for it, and
neither is one that an equation of its own has fixed where it can move. `NamesFree` says what the
list is, and when it is what it is meant to be.
-/

namespace SketchSolver

open Module

/-! ## Leaving a column out -/

section

variable {v : ParamId → ℝ} {es : List (Expr ℝ)} {unknowns : List ParamId} {j : Nat}

/-- The motions without one unknown are those in which it stays. -/
theorem motions_eraseIdx (h : unknowns.Nodup) (hj : j < unknowns.length) :
    motions v es (unknowns.eraseIdx j) = motions v es unknowns ⊓ still (· = unknowns[j]) := by
  ext w
  have hmem : ∀ p, p ∈ unknowns.eraseIdx j ↔ p ∈ unknowns ∧ p ≠ unknowns[j] := fun p ↦ by
    rw [← h.erase_getElem j hj, h.mem_erase_iff, and_comm]
  rw [Submodule.mem_inf, mem_motions, mem_motions]
  constructor
  · rintro ⟨hoff, hes⟩
    refine ⟨⟨fun p hp ↦ hoff p fun hin ↦ hp ((hmem p).mp hin).1, hes⟩, fun p hp ↦ ?_⟩
    exact hoff p fun hin ↦ ((hmem p).mp hin).2 hp
  · rintro ⟨⟨hoff, hes⟩, hstill⟩
    refine ⟨fun p hp ↦ ?_, hes⟩
    by_cases hpj : p = unknowns[j]
    · exact hstill p hpj
    · exact hoff p fun hin ↦ hp ((hmem p).mpr ⟨hin, hpj⟩)

/-- A matrix of full rank keeps its rank without one column exactly if the unknown of the column
moves in some motion. -/
theorem rank_partialsAt_eraseIdx_iff (h : unknowns.Nodup) (hj : j < unknowns.length)
    (hfull : (partialsAt v es unknowns).toMatrix.rank = es.length) :
    (partialsAt v es (unknowns.eraseIdx j)).toMatrix.rank = es.length ↔
      ∃ w ∈ motions v es unknowns, w unknowns[j] ≠ 0 := by
  have hall : (partialsAt v es unknowns).toMatrix.rank + finrank ℝ (motions v es unknowns) =
      unknowns.length := rank_partialsAt_add_finrank_motions h
  have hrest : (partialsAt v es (unknowns.eraseIdx j)).toMatrix.rank +
      finrank ℝ (motions v es (unknowns.eraseIdx j)) = (unknowns.eraseIdx j).length :=
    rank_partialsAt_add_finrank_motions (h.eraseIdx j)
  have hle : (partialsAt v es (unknowns.eraseIdx j)).toMatrix.rank ≤ es.length :=
    (Matrix.rank_le_height _).trans (List.length_map _).le
  obtain ⟨hfewer, hsame⟩ := finrank_motions_inf_still (v := v) h (· = unknowns[j])
  rw [motions_eraseIdx h hj, List.length_eraseIdx_of_lt hj] at hrest
  have hstays : (∃ w ∈ motions v es unknowns, w unknowns[j] ≠ 0) ↔
      finrank ℝ ↥(motions v es unknowns ⊓ still (· = unknowns[j])) ≠
        finrank ℝ (motions v es unknowns) := by
    rw [ne_eq, hsame]
    constructor
    · rintro ⟨w, hw, hne⟩ hzero
      exact hne (hzero w hw _ rfl)
    · intro hmoves
      by_contra hnone
      refine hmoves fun w hw p hp ↦ by_contra fun hne ↦ hnone ⟨w, hw, ?_⟩
      rwa [← hp]
  -- One column less leaves one motion less or lowers the rank by one.
  rw [hstays]
  omega

end

/-- The matrix with one column left out is that of the other unknowns. -/
theorem jacobianWithout_newton (sys current : EquationSystem ℝ) (x : List ℝ) {j : Nat}
    (hj : j < sys.newton.width) :
    sys.newton.jacobianWithout current x j =
      partialsAt (sys.newton.assignment current x) (sys.newton.equations.map Equation.expr)
        (sys.newton.unknowns.eraseIdx j) := by
  rw [NewtonSystem.jacobianWithout_eq _ _ _ hj, jacobian_newton]
  unfold partialsAt
  dsimp only
  rw [List.map_map, List.length_eraseIdx_of_lt hj]
  congr 1
  apply List.map_congr_left
  intro e _
  exact List.eraseIdx_map _ _ _

/-! ## The list of free parameters -/

namespace NewtonSystem

variable {R : Type} [Arith R] {la : LinearAlgebra R} {tolerance : R} {nw : NewtonSystem R}
  {sys : EquationSystem R} {x : List R} {p : ParamId}

/-- An unknown is named exactly if the rank is full without its column. -/
theorem mem_freeParams_iff :
    p ∈ nw.freeParams la tolerance sys x ↔
      ∃ j, nw.unknowns[j]? = some p ∧
        la.rank (nw.jacobianWithout sys x j) tolerance = nw.height := by
  simp only [freeParams, List.mem_map, List.mem_filter, Prod.exists, beq_iff_eq,
    List.mk_mem_zipIdx_iff_getElem?]
  constructor
  · rintro ⟨_, j, ⟨hj, hrank⟩, rfl⟩
    exact ⟨j, hj, hrank⟩
  · rintro ⟨j, hj, hrank⟩
    exact ⟨p, j, ⟨hj, hrank⟩, rfl⟩

/-- The unknowns that are named are some of those that are iterated, in order. -/
theorem freeParams_sublist : (nw.freeParams la tolerance sys x).Sublist nw.unknowns := by
  have hsublist := (List.filter_sublist (l := nw.unknowns.zipIdx) (p := fun p ↦
    la.rank (nw.jacobianWithout sys x p.2) tolerance == nw.height)).map Prod.fst
  rwa [List.zipIdx_map_fst] at hsublist

end NewtonSystem

/-- An unknown can move: the kernel of the matrix of all partial derivatives has a vector whose
entry for the unknown is not zero. -/
def EquationSystem.CanMove (sys : EquationSystem ℝ) (v : ParamId → ℝ) (p : ParamId) : Prop :=
  ∃ x, (sys.fullJacobian v).toMatrix.mulVec x = 0 ∧
    ∃ j : Fin (sys.fullJacobian v).cols, sys.values.keys[(j : ℕ)]? = some p ∧ x j ≠ 0

/-- An unknown can move exactly if it does in some motion. -/
theorem EquationSystem.canMove_iff {sys : EquationSystem ℝ} {v : ParamId → ℝ} {p : ParamId} :
    sys.CanMove v p ↔ ∃ w ∈ sys.motions v, w p ≠ 0 :=
  exists_mulVec_partialsAt_iff sys.values.nodup_keys

/-- What the list of free parameters is, for a system, what became of it by merging and fixing
unknowns, and the values at the end. -/
structure NamesFree (start fixed : EquationSystem ℝ) (v : ParamId → ℝ) (ps : List ParamId) :
    Prop where
  /-- No parameter is named twice. -/
  nodup : ps.Nodup
  /-- An unknown is named if it is not merged and moves in some motion of all equations in which
  those stay that an equation of their own has fixed. -/
  mem_iff : ∀ p, p ∈ ps ↔ fixed.substituted.contains p = false ∧
    ∃ w ∈ start.motions v ⊓ still fun q ↦ fixed.solvedAlone.contains q = true, w p ≠ 0
  /-- A merged unknown moves along with the one that stands for it. -/
  renamed_mem_iff : ∀ p, renamed fixed.substituted p ∈ ps ↔
    ∃ w ∈ start.motions v ⊓ still fun q ↦ fixed.solvedAlone.contains q = true, w p ≠ 0
  /-- All unknowns that can move are named exactly if no merged and no fixed one can. -/
  complete_iff : (∀ p, p ∈ ps ↔ start.CanMove v p) ↔
    ∀ p, fixed.substituted.contains p = true ∨ fixed.solvedAlone.contains p = true →
      ¬ start.CanMove v p

namespace Prepared

variable {la : LinearAlgebra ℝ} {config : Config ℝ} {s : Sketch ℝ} {g : GroupId}
  {dragged : HandleSet ParamId} {start fixed : EquationSystem ℝ} {v : ParamId → ℝ}

/-- An unknown that is not merged moves in a motion of what is iterated exactly if it does in one of
all equations in which fixed unknowns stay. -/
theorem exists_iteratedMotion_iff (h : Prepared config s g dragged start fixed)
    (hv : Respects v fixed.substituted) {p : ParamId} :
    (∃ u ∈ motions v (fixed.newton.equations.map Equation.expr) fixed.newton.unknowns,
        u (renamed fixed.substituted p) ≠ 0) ↔
      ∃ w ∈ start.motions v ⊓ still fun q ↦ fixed.solvedAlone.contains q = true, w p ≠ 0 := by
  rw [← h.map_iteratedMotions hv]
  constructor
  · rintro ⟨u, hu, hp⟩
    exact ⟨_, Submodule.mem_map_of_mem hu, hp⟩
  · rintro ⟨_, ⟨u, hu, rfl⟩, hp⟩
    exact ⟨u, hu, hp⟩

/-- With exact ranks and a full one at the end, an unknown is named exactly if it moves in some
motion of what is iterated. -/
theorem mem_freeParams_iff (h : Prepared config s g dragged start fixed)
    (hrank : la.RanksExactly config.rankTolerance)
    (hfull : fixed.finalRank la config = fixed.newton.height)
    (hv : ∀ p, start.values.contains p = true → v p = (fixed.iterated la config).value p)
    {p : ParamId} :
    p ∈ fixed.newton.freeParams la config.rankTolerance (fixed.iterated la config)
        (fixed.newton.iterate la config fixed).x ↔
      ∃ u ∈ motions v (fixed.newton.equations.map Equation.expr) fixed.newton.unknowns,
        u p ≠ 0 := by
  have hnodup := EquationSystem.nodup_newton_unknowns fixed
  have hheight : fixed.newton.height = (fixed.newton.equations.map Equation.expr).length :=
    (List.length_map _).symm
  rw [EquationSystem.finalRank, hrank, jacobian_newton, hheight] at hfull
  rw [NewtonSystem.mem_freeParams_iff, ← h.motions_assignment_iterated hv]
  constructor
  · rintro ⟨j, hj, hkeeps⟩
    obtain ⟨hlt, rfl⟩ := List.getElem?_eq_some_iff.mp hj
    rw [hrank, jacobianWithout_newton _ _ _ hlt, hheight] at hkeeps
    exact (rank_partialsAt_eraseIdx_iff hnodup hlt hfull).mp hkeeps
  · rintro ⟨u, hu, hp⟩
    have hmem : p ∈ fixed.newton.unknowns := by
      by_contra hout
      exact hp (hu.1 p hout)
    obtain ⟨j, hlt, rfl⟩ := List.getElem_of_mem hmem
    refine ⟨j, List.getElem?_eq_getElem hlt, ?_⟩
    rw [hrank, jacobianWithout_newton _ _ _ hlt, hheight]
    exact (rank_partialsAt_eraseIdx_iff hnodup hlt hfull).mpr ⟨u, hu, hp⟩

/-- With exact ranks and a full one at the end, the list names the parameters that are left free. -/
theorem namesFree_freeParams (h : Prepared config s g dragged start fixed)
    (hrank : la.RanksExactly config.rankTolerance)
    (hfull : fixed.finalRank la config = fixed.newton.height)
    (hv : ∀ p, start.values.contains p = true → v p = (fixed.iterated la config).value p) :
    NamesFree start fixed v (fixed.newton.freeParams la config.rankTolerance
      (fixed.iterated la config) (fixed.newton.iterate la config fixed).x) := by
  generalize hps : fixed.newton.freeParams la config.rankTolerance (fixed.iterated la config)
    (fixed.newton.iterate la config fixed).x = ps
  have hsublist : ps.Sublist fixed.newton.unknowns := hps ▸ NewtonSystem.freeParams_sublist
  have hiterated : ∀ p ∈ ps, fixed.substituted.contains p = false ∧
      fixed.solvedAlone.contains p = false := fun p hp ↦
    ((EquationSystem.mem_newton_unknowns fixed).mp (hsublist.subset hp)).2
  have hrenamed : ∀ p, renamed fixed.substituted p ∈ ps ↔
      ∃ w ∈ start.motions v ⊓ still fun q ↦ fixed.solvedAlone.contains q = true, w p ≠ 0 := by
    intro p
    rw [← hps, h.mem_freeParams_iff hrank hfull hv]
    exact h.exists_iteratedMotion_iff (h.respects_of_final hv)
  have hself : ∀ {p}, fixed.substituted.contains p = false → renamed fixed.substituted p = p :=
    fun hp ↦ renamed_of_none (Table.contains_eq_false_iff.mp hp)
  have hmem : ∀ p, p ∈ ps ↔ fixed.substituted.contains p = false ∧
      ∃ w ∈ start.motions v ⊓ still fun q ↦ fixed.solvedAlone.contains q = true, w p ≠ 0 := by
    intro p
    rw [← hrenamed]
    constructor
    · intro hp
      exact ⟨(hiterated p hp).1, (hself (hiterated p hp).1).symm ▸ hp⟩
    · rintro ⟨hunmerged, hp⟩
      exact hself hunmerged ▸ hp
  refine ⟨hsublist.nodup (EquationSystem.nodup_newton_unknowns fixed), hmem, hrenamed, ?_, ?_⟩
  · intro hall p hgone hmoves
    obtain ⟨hunmerged, hfree⟩ := hiterated p ((hall p).mpr hmoves)
    rcases hgone with hgone | hgone
    · exact Bool.false_ne_true (hunmerged.symm.trans hgone)
    · exact Bool.false_ne_true (hfree.symm.trans hgone)
  · intro hnone p
    rw [hmem, EquationSystem.canMove_iff]
    constructor
    · rintro ⟨_, w, hw, hp⟩
      exact ⟨w, hw.1, hp⟩
    · rintro ⟨w, hw, hp⟩
      refine ⟨?_, w, ⟨hw, fun q hq ↦ ?_⟩, hp⟩
      · rw [← Bool.not_eq_true]
        exact fun hmerged ↦ hnone p (.inl hmerged) (EquationSystem.canMove_iff.mpr ⟨w, hw, hp⟩)
      · by_contra hne
        exact hnone q (.inr hq) (EquationSystem.canMove_iff.mpr ⟨w, hw, hne⟩)

end Prepared

/-! ## What is reported -/

/-- With exact ranks, a solve that ends without superfluous equations and is to name the free
parameters names those that are neither merged nor fixed by an equation of their own and move in
some motion in which the fixed ones stay. It names all unknowns that can move exactly if no merged
and no fixed one can. -/
theorem namesFree_of_solveWith {la : LinearAlgebra ℝ} {config : Config ℝ} {s t : Sketch ℝ}
    {g : GroupId} {dragged : HandleSet ParamId} {r : SolveReport ℝ}
    (hrank : la.RanksExactly config.rankTolerance) (hfind : config.findFreeParams = true)
    (h : s.solveWith la config g dragged = .ok (r, t)) (hokay : r.status = .okay) :
    ∃ start fixed, s.assemble g dragged = .ok start ∧
      start.substitute.solveAlone config.tolerance config.maxIterations = (fixed, none) ∧
      NamesFree start fixed t.value r.freeParams := by
  obtain ⟨start, fixed, bad, hp, _, rfl, rfl⟩ :=
    exists_finalReport_of_isOk (Operation.outcome_eq_ok_iff.mp h) (hokay ▸ rfl)
  have hfull := status_finalReport_eq_okay_iff.mp hokay
  refine ⟨start, fixed, hp.assembled, hp.alone, ?_⟩
  have hnamed : (fixed.finalReport la config bad).freeParams =
      fixed.newton.freeParams la config.rankTolerance (fixed.iterated la config)
        (fixed.newton.iterate la config fixed).x := by
    apply if_pos
    rw [hfull, hfind, beq_self_eq_true, Bool.and_self]
  rw [hnamed]
  exact hp.namesFree_freeParams hrank hfull fun p hknown ↦ hp.value_commit la _ hknown

/-- The settings that are used unless others are given, with free parameters to be named. -/
noncomputable def namingFreeParams : Config ℝ := { Config.default with findFreeParams := true }

/-- Of two points at one place, the coordinates of the second are named. -/
theorem namesFree_of_solveWith_pointsTogether :
    LinearAlgebra.exact.RanksExactly namingFreeParams.rankTolerance ∧
      namingFreeParams.findFreeParams = true ∧
      ∃ r t, pointsTogether.solveWith .exact namingFreeParams ⟨1⟩ .empty = .ok (r, t) ∧
        r.status = .okay ∧
        ∃ start fixed, pointsTogether.assemble ⟨1⟩ .empty = .ok start ∧
          start.substitute.solveAlone namingFreeParams.tolerance namingFreeParams.maxIterations =
            (fixed, none) ∧
          NamesFree start fixed t.value r.freeParams := by
  have hrank : LinearAlgebra.exact.RanksExactly namingFreeParams.rankTolerance :=
    LinearAlgebra.ranksExactly_exact_default
  have hsolved : ∃ r t, pointsTogether.solveWith .exact namingFreeParams ⟨1⟩ .empty = .ok (r, t) ∧
      r.status = .okay := ⟨_, _, rfl, rfl⟩
  obtain ⟨r, t, h, hokay⟩ := hsolved
  exact ⟨hrank, rfl, r, t, h, hokay, namesFree_of_solveWith hrank rfl h hokay⟩

/-- Of two points at one place, no coordinate of the first is named, although all can move. -/
theorem not_mem_freeParams_pointsTogether :
    LinearAlgebra.exact.RanksExactly namingFreeParams.rankTolerance ∧
      namingFreeParams.findFreeParams = true ∧
      ∃ r t sys, pointsTogether.solveWith .exact namingFreeParams ⟨1⟩ .empty = .ok (r, t) ∧
        r.status = .okay ∧ pointsTogether.assemble ⟨1⟩ .empty = .ok sys ∧
        sys.CanMove t.value ⟨1⟩ ∧ ⟨1⟩ ∉ r.freeParams := by
  have hsolved : ∃ r t sys,
      pointsTogether.solveWith .exact namingFreeParams ⟨1⟩ .empty = .ok (r, t) ∧
        r.status = .okay ∧ pointsTogether.assemble ⟨1⟩ .empty = .ok sys ∧
        sys.values.keys = [⟨1⟩, ⟨2⟩, ⟨3⟩, ⟨4⟩, ⟨5⟩, ⟨6⟩] ∧
        sys.equations.map Equation.expr =
          coordinatesTogether.map (fun ab ↦ .param ab.1 - .param ab.2) ∧
        ∃ nw : NewtonSystem ℝ, nw.unknowns = [⟨4⟩, ⟨5⟩, ⟨6⟩] ∧ ∃ tolerance current x,
          r.freeParams = nw.freeParams .exact tolerance current x :=
    ⟨_, _, _, rfl, rfl, rfl, rfl, rfl, _, rfl, _, _, _, rfl⟩
  obtain ⟨r, t, sys, h, hokay, hsys, hkeys, hexprs, nw, hunknowns, _, _, _, hnamed⟩ := hsolved
  refine ⟨LinearAlgebra.ranksExactly_exact_default, rfl, r, t, sys, h, hokay, hsys, ?_, ?_⟩
  · have hmotion := together_mem_motions (v := t.value) (by rw [hkeys]; decide) hexprs
    refine EquationSystem.canMove_iff.mpr ⟨_, hmotion, ?_⟩
    rw [hkeys, if_pos List.mem_cons_self]
    exact one_ne_zero
  · intro hmem
    have hin := NewtonSystem.freeParams_sublist.subset (hnamed ▸ hmem)
    rw [hunknowns] at hin
    revert hin
    decide

end SketchSolver
