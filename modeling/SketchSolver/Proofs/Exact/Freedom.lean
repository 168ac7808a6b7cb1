import SketchSolver.Command
import SketchSolver.Proofs.Exact.Jacobian
import SketchSolver.Proofs.Solve.Counting
import SketchSolver.Proofs.Solve.Soundness

/-!
# Degrees of freedom

The degrees of freedom that a solve reports are the dimension of the motions of the equations and
unknowns that are iterated. Each of them is a motion of the whole system in which merged unknowns
move together and fixed unknowns stay. The other motions of the system are not counted: an unknown
is fixed by an equation of its own even if its slope there is zero, so that the equation lets the
unknown move to first order.
-/

namespace SketchSolver

open Module

/-! ## Motions of the whole system -/

namespace EquationSystem

/-- The partial derivatives of all equations with respect to all unknowns. -/
noncomputable def fullJacobian (sys : EquationSystem ℝ) (v : ParamId → ℝ) : DenseMatrix ℝ :=
  partialsAt v (sys.equations.map Equation.expr) sys.values.keys

/-- The motions of all equations and unknowns. -/
def motions (sys : EquationSystem ℝ) (v : ParamId → ℝ) : Submodule ℝ (ParamId → ℝ) :=
  SketchSolver.motions v (sys.equations.map Equation.expr) sys.values.keys

end EquationSystem

/-- The changes along which some parameters stay. -/
def still (stays : ParamId → Prop) : Submodule ℝ (ParamId → ℝ) where
  carrier := {w | ∀ p, stays p → w p = 0}
  zero_mem' := fun _ _ ↦ rfl
  add_mem' := by
    intro w₁ w₂ h₁ h₂ p hp
    rw [Pi.add_apply, h₁ p hp, h₂ p hp, add_zero]
  smul_mem' := by
    intro c w h p hp
    rw [Pi.smul_apply, h p hp, smul_zero]

namespace Prepared

variable {la : LinearAlgebra ℝ} {config : Config ℝ} {s : Sketch ℝ} {g : GroupId}
  {dragged : HandleSet ParamId} {start fixed : EquationSystem ℝ} {v w : ParamId → ℝ}

private noncomputable def iteratedMotions (v : ParamId → ℝ) (fixed : EquationSystem ℝ) :
    Submodule ℝ (ParamId → ℝ) :=
  SketchSolver.motions v (fixed.newton.equations.map Equation.expr) fixed.newton.unknowns

private theorem differential_of_retired (h : Prepared config s g dragged start fixed)
    (hw : ∀ p, p ∉ fixed.newton.unknowns → w p = 0) {eq : Equation ℝ}
    (heq : eq ∈ fixed.equations) (hr : eq.retired = true) : eq.expr.differential v w = 0 := by
  rcases h.fixedFrom.solved eq heq hr with hmerged | ⟨p, x, hone, hp, _⟩
  · obtain ⟨p, _, he⟩ := h.merged.trivial eq hmerged hr
    rw [he, Expr.differential_param_sub_param, sub_self]
  · have hstill : w p = 0 := hw p (EquationSystem.notMem_newton_unknowns fixed hp)
    rw [Expr.differential_of_referenced_eq_one hone, hstill, mul_zero]

private theorem renamed_mem_motions (h : Prepared config s g dragged start fixed)
    (hv : Respects v fixed.substituted) (hw : w ∈ iteratedMotions v fixed) :
    (fun p ↦ w (renamed fixed.substituted p)) ∈
      start.motions v ⊓ still fun p ↦ fixed.solvedAlone.contains p = true := by
  have hrenamed : (fun p ↦ v (renamed fixed.substituted p)) = v := funext hv
  have hfixed : ∀ p, p ∉ fixed.newton.unknowns → fixed.substituted.find? p = none →
      w (renamed fixed.substituted p) = 0 := by
    intro p hp hnone
    rw [renamed_of_none hnone]
    exact hw.1 p hp
  refine ⟨⟨?_, ?_⟩, ?_⟩
  · intro p hp
    have hout : ¬ (p ∈ fixed.newton.unknowns ∨ fixed.substituted.contains p = true ∨
        fixed.solvedAlone.contains p = true) := by
      rw [← h.mem_unknowns_iff, Table.contains_eq_true_iff]
      exact hp
    rw [not_or, not_or] at hout
    exact hfixed p hout.1 (Table.contains_eq_false_iff.mp (Bool.eq_false_iff.mpr hout.2.1))
  · intro e he
    obtain ⟨old, hold, rfl⟩ := List.mem_map.mp he
    obtain ⟨eq, heq, hexpr⟩ := h.exists_successor hold
    have hsame : old.expr.differential v (fun p ↦ w (renamed fixed.substituted p)) =
        eq.expr.differential v w := by
      rw [hexpr, Expr.differential_substitute, hrenamed]
    rw [hsame]
    cases hr : eq.retired with
    | true => exact h.differential_of_retired hw.1 heq hr
    | false =>
      apply hw.2
      exact List.mem_map.mpr ⟨eq, (EquationSystem.mem_newton_equations fixed).mpr ⟨heq, hr⟩, rfl⟩
  · exact fun p hp ↦
      hfixed p (EquationSystem.notMem_newton_unknowns fixed hp) (h.fixedFrom.unmerged p hp)

private theorem respects_of_mem_motions (h : Prepared config s g dragged start fixed)
    (hw : w ∈ start.motions v) : Respects w fixed.substituted := by
  rw [h.fixedFrom.substituted]
  apply EquationSystem.respects_substitute h.untouched
  intro eq heq a b he
  have hzero := hw.2 _ (List.mem_map_of_mem heq)
  rw [he, Expr.differential_param_sub_param] at hzero
  exact sub_eq_zero.mp hzero

private theorem exists_iterated_motion (h : Prepared config s g dragged start fixed)
    (hv : Respects v fixed.substituted)
    (hw : w ∈ start.motions v ⊓ still fun p ↦ fixed.solvedAlone.contains p = true) :
    ∃ u ∈ iteratedMotions v fixed, (fun p ↦ u (renamed fixed.substituted p)) = w := by
  obtain ⟨⟨hoff, hequations⟩, hstill⟩ := hw
  have hrenamed : (fun p ↦ v (renamed fixed.substituted p)) = v := funext hv
  have hrespects := h.respects_of_mem_motions ⟨hoff, hequations⟩
  let u : ParamId → ℝ := fun p ↦ if p ∈ fixed.newton.unknowns then w p else 0
  have hu : (fun p ↦ u (renamed fixed.substituted p)) = w := by
    funext p
    rw [← hrespects p]
    by_cases hmem : renamed fixed.substituted p ∈ fixed.newton.unknowns
    · exact if_pos hmem
    · have hzero : w (renamed fixed.substituted p) = 0 := by
        by_cases hknown : start.values.contains (renamed fixed.substituted p) = true
        · rcases h.mem_unknowns_iff.mp hknown with hin | hmerged | halone
          · exact absurd hin hmem
          · rw [Table.contains, h.find?_renamed] at hmerged
            cases hmerged
          · exact hstill _ halone
        · apply hoff
          rwa [← Table.contains_eq_true_iff]
      rw [hzero]
      exact if_neg hmem
  refine ⟨u, ⟨fun p hp ↦ if_neg hp, ?_⟩, hu⟩
  intro e he
  obtain ⟨eq, heq, rfl⟩ := List.mem_map.mp he
  obtain ⟨old, hold, hexpr⟩ :=
    h.exists_origin ((EquationSystem.mem_newton_equations fixed).mp heq).1
  rw [hexpr, Expr.differential_substitute, hrenamed, hu]
  exact hequations _ (List.mem_map_of_mem hold)

/-- The motions of what is iterated are those of the whole system in which fixed unknowns stay, once
merged unknowns move along. -/
theorem map_iteratedMotions (h : Prepared config s g dragged start fixed)
    (hv : Respects v fixed.substituted) :
    (SketchSolver.motions v (fixed.newton.equations.map Equation.expr) fixed.newton.unknowns).map
        (LinearMap.funLeft ℝ ℝ (renamed fixed.substituted)) =
      start.motions v ⊓ still fun p ↦ fixed.solvedAlone.contains p = true := by
  ext w
  rw [Submodule.mem_map]
  constructor
  · rintro ⟨u, hu, rfl⟩
    exact h.renamed_mem_motions hv hu
  · intro hw
    exact h.exists_iterated_motion hv hw

/-- The motions of what is iterated are as many as the motions of the whole system in which fixed
unknowns stay. -/
theorem finrank_iteratedMotions (h : Prepared config s g dragged start fixed)
    (hv : Respects v fixed.substituted) :
    finrank ℝ (SketchSolver.motions v (fixed.newton.equations.map Equation.expr)
        fixed.newton.unknowns) =
      finrank ℝ ↥(start.motions v ⊓ still fun p ↦ fixed.solvedAlone.contains p = true) := by
  let along := LinearMap.funLeft ℝ ℝ (renamed fixed.substituted)
  have hmap : (iteratedMotions v fixed).map along =
      start.motions v ⊓ still fun p ↦ fixed.solvedAlone.contains p = true :=
    h.map_iteratedMotions hv
  -- A motion of iterated unknowns is determined by what merged unknowns do.
  have hinjective : Function.Injective (along.domRestrict (iteratedMotions v fixed)) := by
    rw [← LinearMap.ker_eq_bot, LinearMap.ker_eq_bot']
    rintro ⟨u, hu⟩ hzero
    apply Subtype.ext
    funext p
    by_cases hp : p ∈ fixed.newton.unknowns
    · have hnone := Table.contains_eq_false_iff.mp
        ((EquationSystem.mem_newton_unknowns fixed).mp hp).2.1
      have hvalue : u (renamed fixed.substituted p) = 0 := congrFun hzero p
      rwa [renamed_of_none hnone] at hvalue
    · exact hu.1 p hp
  rw [← hmap, ← LinearMap.range_domRestrict, LinearMap.finrank_range_of_inj hinjective]
  rfl

/-- Merged unknowns have one final value. -/
theorem respects_of_final (h : Prepared config s g dragged start fixed)
    (hv : ∀ p, start.values.contains p = true → v p = (fixed.iterated la config).value p) :
    Respects v fixed.substituted := by
  intro p
  cases hp : fixed.substituted.find? p with
  | none => rw [renamed_of_none hp]
  | some q =>
    have hknown : start.values.contains p = true :=
      h.mem_unknowns_iff.mpr (.inr (.inl (Table.contains_iff_exists.mpr ⟨q, hp⟩)))
    rw [hv p hknown, hv _ (h.contains_renamed hknown), h.value_renamed]

/-- The motions of what is iterated are the same at any values that agree with the final ones. -/
theorem motions_assignment_iterated (h : Prepared config s g dragged start fixed)
    (hv : ∀ p, start.values.contains p = true → v p = (fixed.iterated la config).value p) :
    SketchSolver.motions
        (fixed.newton.assignment (fixed.iterated la config)
          (fixed.newton.iterate la config fixed).x)
        (fixed.newton.equations.map Equation.expr) fixed.newton.unknowns =
      SketchSolver.motions v (fixed.newton.equations.map Equation.expr) fixed.newton.unknowns := by
  apply motions_congr
  intro e he p hp
  obtain ⟨eq, heq, rfl⟩ := List.mem_map.mp he
  have hmem := ((EquationSystem.mem_newton_equations fixed).mp heq).1
  rw [fixed.assignment_iterated]
  obtain ⟨old, hold, hexpr⟩ := h.exists_origin hmem
  rw [hexpr, Expr.params_substitute] at hp
  obtain ⟨q, hq, rfl⟩ := List.mem_map.mp hp
  exact (hv _ (h.contains_renamed (h.untouched.closed old hold q hq))).symm

/-- The rank at the end and the motions of what is iterated add up to the number of unknowns that
are iterated. -/
theorem finalRank_add_finrank (h : Prepared config s g dragged start fixed)
    (hrank : la.RanksExactly config.rankTolerance)
    (hv : ∀ p, start.values.contains p = true → v p = (fixed.iterated la config).value p) :
    fixed.finalRank la config + finrank ℝ
        ↥(start.motions v ⊓ still fun p ↦ fixed.solvedAlone.contains p = true) =
      fixed.newton.width := by
  rw [← h.finrank_iteratedMotions (h.respects_of_final hv), ← h.motions_assignment_iterated hv,
    EquationSystem.finalRank, hrank, jacobian_newton]
  exact rank_partialsAt_add_finrank_motions (EquationSystem.nodup_newton_unknowns fixed)

/-- The reported degrees of freedom are the motions of the whole system in which fixed unknowns
stay. -/
theorem finalDof_eq_finrank (h : Prepared config s g dragged start fixed)
    (hrank : la.RanksExactly config.rankTolerance)
    (hv : ∀ p, start.values.contains p = true → v p = (fixed.iterated la config).value p) :
    fixed.finalDof la config = finrank ℝ
      ↥(start.motions v ⊓ still fun p ↦ fixed.solvedAlone.contains p = true) := by
  have hsum := h.finalRank_add_finrank hrank hv
  rw [EquationSystem.finalDof]
  omega

end Prepared

/-- The rank of all partial derivatives and the motions of a system add up to its unknowns. -/
theorem EquationSystem.rank_fullJacobian_add_finrank (sys : EquationSystem ℝ) (v : ParamId → ℝ) :
    (sys.fullJacobian v).toMatrix.rank + finrank ℝ (sys.motions v) = sys.values.size :=
  (rank_partialsAt_add_finrank_motions sys.values.nodup_keys).trans (Table.length_keys _)

/-- The motions of a system are as many as its unknowns less the rank. -/
theorem EquationSystem.size_sub_rank_fullJacobian (sys : EquationSystem ℝ) (v : ParamId → ℝ) :
    sys.values.size - (sys.fullJacobian v).toMatrix.rank = finrank ℝ (sys.motions v) :=
  Nat.sub_eq_of_eq_add' (sys.rank_fullJacobian_add_finrank v).symm

/-- If an unknown moves, the rank of the partial derivatives is less than the number of unknowns. -/
theorem EquationSystem.rank_fullJacobian_lt {sys : EquationSystem ℝ} {v w : ParamId → ℝ}
    {p : ParamId} (h : w ∈ sys.motions v) (hp : w p ≠ 0) :
    (sys.fullJacobian v).toMatrix.rank < sys.values.size := by
  have hfinite : FiniteDimensional ℝ (sys.motions v) :=
    finiteDimensional_motions sys.values.nodup_keys
  have hpositive : finrank ℝ (sys.motions v) ≠ 0 := by
    intro hzero
    rw [Submodule.finrank_eq_zero.mp hzero, Submodule.mem_bot] at h
    exact hp (congrFun h p)
  have hsum := sys.rank_fullJacobian_add_finrank v
  omega

/-- The motions in which some parameters stay are fewer, unless these stay in all motions. -/
theorem finrank_motions_inf_still {v : ParamId → ℝ} {es : List (Expr ℝ)} {unknowns : List ParamId}
    (h : unknowns.Nodup) (stays : ParamId → Prop) :
    finrank ℝ ↥(motions v es unknowns ⊓ still stays) ≤ finrank ℝ (motions v es unknowns) ∧
      (finrank ℝ ↥(motions v es unknowns ⊓ still stays) = finrank ℝ (motions v es unknowns) ↔
        ∀ w ∈ motions v es unknowns, ∀ p, stays p → w p = 0) := by
  have hfinite : FiniteDimensional ℝ (motions v es unknowns) := finiteDimensional_motions h
  refine ⟨Submodule.finrank_mono inf_le_left, ?_, ?_⟩
  · intro heq w hw
    rw [← Submodule.eq_of_le_of_finrank_eq inf_le_left heq] at hw
    exact hw.2
  · intro hall
    rw [inf_eq_left.mpr fun w hw ↦ hall w hw]

/-- The motions of a system in which some parameters stay are fewer, unless these stay in all
motions. -/
theorem EquationSystem.finrank_motions_inf_still (sys : EquationSystem ℝ) (v : ParamId → ℝ)
    (stays : ParamId → Prop) :
    finrank ℝ ↥(sys.motions v ⊓ still stays) ≤ finrank ℝ (sys.motions v) ∧
      (finrank ℝ ↥(sys.motions v ⊓ still stays) = finrank ℝ (sys.motions v) ↔
        ∀ w ∈ sys.motions v, ∀ p, stays p → w p = 0) :=
  SketchSolver.finrank_motions_inf_still sys.values.nodup_keys stays

/-! ## The degrees of freedom that are reported -/

/-- With exact ranks, a successful solve reports at most as many degrees of freedom as the system
has unknowns less the rank of all its equations. It reports as many exactly if the unknowns that
were fixed by an equation of their own stay in every motion of the system. -/
theorem dof_of_solveWith {la : LinearAlgebra ℝ} {config : Config ℝ} {s t : Sketch ℝ} {g : GroupId}
    {dragged : HandleSet ParamId} {r : SolveReport ℝ}
    (hrank : la.RanksExactly config.rankTolerance)
    (h : s.solveWith la config g dragged = .ok (r, t)) (hok : r.status.isOk = true) :
    ∃ sys d, s.assemble g dragged = .ok sys ∧ r.dof = some d ∧
      d ≤ sys.values.size - (sys.fullJacobian t.value).toMatrix.rank ∧
      (d = sys.values.size - (sys.fullJacobian t.value).toMatrix.rank ↔
        ∀ w ∈ sys.motions t.value, ∀ p,
          (sys.substitute.solveAlone config.tolerance
            config.maxIterations).1.solvedAlone.contains p = true → w p = 0) := by
  obtain ⟨start, fixed, hp, _, hreported, rfl⟩ :=
    exists_prepared_of_isOk (Operation.outcome_eq_ok_iff.mp h) hok
  refine ⟨start, _, hp.assembled, hreported, ?_⟩
  have hdof := hp.finalDof_eq_finrank hrank fun p hknown ↦
    hp.value_commit la (fixed.finalDof la config) hknown
  rw [hdof, start.size_sub_rank_fullJacobian, hp.alone]
  exact start.finrank_motions_inf_still _ _

/-- Two points at one place. -/
noncomputable def pointsTogether : Sketch ℝ :=
  (Sketch.empty .default).runAll .exact
    [.draw ⟨1⟩ (.point3d ⟨0, 0, 0⟩),
      .draw ⟨1⟩ (.point3d ⟨1, 2, 3⟩),
      .relate ⟨1⟩ (.coincident ⟨1⟩ ⟨2⟩ none)]

/-- The exact factorisations rank exactly by default. -/
theorem LinearAlgebra.ranksExactly_exact_default :
    exact.RanksExactly (Config.default : Config ℝ).rankTolerance := by
  apply ranksExactly_exact
  change (1e-10 : ℝ) < 1
  norm_num

/-- The degrees of freedom of two points at one place are those of the whole system. -/
theorem dof_of_solveWith_pointsTogether :
    ∃ r t, pointsTogether.solveWith .exact .default ⟨1⟩ .empty = .ok (r, t) ∧
      r.status.isOk = true ∧
      ∃ sys d, pointsTogether.assemble ⟨1⟩ .empty = .ok sys ∧ r.dof = some d ∧
        d ≤ sys.values.size - (sys.fullJacobian t.value).toMatrix.rank ∧
        (d = sys.values.size - (sys.fullJacobian t.value).toMatrix.rank ↔
          ∀ w ∈ sys.motions t.value, ∀ p,
            (sys.substitute.solveAlone (Config.default : Config ℝ).tolerance
              (Config.default : Config ℝ).maxIterations).1.solvedAlone.contains p = true →
              w p = 0) := by
  have hsolved : ∃ r t, pointsTogether.solveWith .exact .default ⟨1⟩ .empty = .ok (r, t) ∧
      r.status.isOk = true := ⟨_, _, rfl, rfl⟩
  obtain ⟨r, t, h, hok⟩ := hsolved
  exact ⟨r, t, h, hok, dof_of_solveWith LinearAlgebra.ranksExactly_exact_default h hok⟩

/-! ## An unknown that is fixed where it can move -/

/-- A point right above another one, at the given distance from it. -/
noncomputable def pointAbovePoint : Sketch ℝ :=
  (Sketch.empty .default).runAll .exact
    [.draw ⟨1⟩ (.point3d ⟨0, 0, 0⟩),
      .draw ⟨1⟩ (.point3d ⟨0, 3, 0⟩),
      .relate ⟨2⟩ (.distance ⟨1⟩ ⟨2⟩ 3 none)]

private noncomputable def distanceAbove : Expr ℝ :=
  .binary .minus
    (.unary .sqrt (.binary .plus
      (.unary .square (.binary .minus (.param ⟨1⟩) (.constant 0))) (.constant ((0 - 3) * (0 - 3)))))
    (.constant 3)

private noncomputable def systemAbove (retired : Bool) (fixed : HandleSet ParamId) :
    EquationSystem ℝ :=
  ⟨⟨2⟩, [⟨.constraint ⟨1⟩, ⟨2⟩, distanceAbove, retired⟩], Table.empty.insert ⟨1⟩ 0,
    HandleSet.ofHandles [⟨1⟩], .empty, fixed⟩

private theorem fold_distanceAbove :
    ((⟨.param ⟨1⟩, .constant 0, .constant 0⟩ - ⟨.constant 0, .constant 3, .constant 0⟩ :
      Vec3 (Expr ℝ)).magnitude - .constant 3).fold = distanceAbove := by
  -- The folder asks of each constant whether it is zero.
  have hnine : ¬ ((0 - 3) * (0 - 3) == (0.0 : ℝ)) = true := by
    rw [Arith.real_beq]
    norm_num
  have hzero : ((0 - 0) * (0 - 0) == (0.0 : ℝ)) = true := by
    rw [Arith.real_beq]
    norm_num
  have hsum : Expr.foldPlus (.unary .square (.binary .minus (.param ⟨1⟩) (.constant 0)))
      (.constant ((0 - 3) * (0 - 3))) = .binary .plus
        (.unary .square (.binary .minus (.param ⟨1⟩) (.constant 0)))
        (.constant ((0 - 3) * (0 - 3) : ℝ)) := if_neg hnine
  change Expr.foldBinary .minus (Expr.foldUnary .sqrt (Expr.foldPlus (Expr.foldPlus
    (.unary .square (.binary .minus (.param ⟨1⟩) (.constant 0)))
    (.constant ((0 - 3) * (0 - 3)))) (.constant ((0 - 0) * (0 - 0))))) (.constant 3) = _
  rw [hsum]
  exact congrArg (fun e ↦ Expr.foldBinary .minus (Expr.foldUnary .sqrt e) (.constant 3))
    (if_pos hzero)

private theorem assemble_pointAbovePoint :
    pointAbovePoint.assemble ⟨2⟩ (.ofHandles [⟨1⟩]) = .ok (systemAbove false .empty) := by
  have hwritten : pointAbovePoint.assemble ⟨2⟩ (.ofHandles [⟨1⟩]) = .ok
      { systemAbove false .empty with
        equations := [⟨.constraint ⟨1⟩, ⟨2⟩,
          ((⟨.param ⟨1⟩, .constant 0, .constant 0⟩ -
            ⟨.constant 0, .constant 3, .constant 0⟩ : Vec3 (Expr ℝ)).magnitude -
              .constant 3).fold, false⟩] } := rfl
  rw [hwritten, fold_distanceAbove]
  rfl

private theorem aloneRoot?_distanceAbove :
    aloneRoot? distanceAbove ⟨1⟩ (Config.default : Config ℝ).tolerance
      (Config.default : Config ℝ).maxIterations 0 = some 0 := by
  apply aloneRoot?_of_le
  change |√((0 - 0) * (0 - 0) + (0 - 3) * (0 - 3)) - 3| ≤ (1e-8 : ℝ)
  have hsqrt : √((0 - 0) * (0 - 0) + (0 - 3) * (0 - 3)) = (3 : ℝ) := by
    rw [Real.sqrt_eq_iff_eq_sq] <;> norm_num
  rw [hsqrt, sub_self, abs_zero]
  norm_num

private theorem prepared_pointAbovePoint :
    Prepared .default pointAbovePoint ⟨2⟩ (.ofHandles [⟨1⟩]) (systemAbove false .empty)
      (systemAbove true (.ofHandles [⟨1⟩])) where
  assembled := assemble_pointAbovePoint
  fits := by
    unfold EquationSystem.Oversized
    decide
  alone := by
    have hstep : (systemAbove false .empty).solveAloneAt? (Config.default : Config ℝ).tolerance
        (Config.default : Config ℝ).maxIterations 0 =
          some (systemAbove true (.ofHandles [⟨1⟩])) := by
      change (aloneRoot? distanceAbove ⟨1⟩ (Config.default : Config ℝ).tolerance
        (Config.default : Config ℝ).maxIterations 0).map _ = _
      rw [aloneRoot?_distanceAbove]
      rfl
    change EquationSystem.solveAloneOn _ _ [0] (systemAbove false .empty) = _
    unfold EquationSystem.solveAloneOn
    rw [hstep]
    rfl

private theorem single_mem_motions_systemAbove {v : ParamId → ℝ} (hv : v ⟨1⟩ = 0) :
    Pi.single ⟨1⟩ 1 ∈ (systemAbove false .empty).motions v := by
  refine ⟨?_, ?_⟩
  · intro p hp
    apply Pi.single_eq_of_ne
    rintro rfl
    exact hp List.mem_cons_self
  · intro e he
    obtain rfl := List.mem_singleton.mp he
    have hflat :
        UnaryOp.square.slope (Expr.eval v (.binary .minus (.param ⟨1⟩) (.constant 0))) = 0 := by
      change 2.0 * (v ⟨1⟩ - 0) = 0
      rw [hv, sub_zero, mul_zero]
    simp only [distanceAbove, Expr.differential_binary, Expr.differential_unary,
      Expr.differential_constant, hflat, zero_mul, mul_zero, add_zero]

/-- A solve that drags the first coordinate of the lower point fixes it, although the distance does
not change to first order when the point moves sideways. -/
theorem dof_pointAbovePoint :
    LinearAlgebra.exact.RanksExactly (Config.default : Config ℝ).rankTolerance ∧
      ∃ r t sys d, pointAbovePoint.solveWith .exact .default ⟨2⟩ (.ofHandles [⟨1⟩]) = .ok (r, t) ∧
        r.status = .okay ∧ pointAbovePoint.assemble ⟨2⟩ (.ofHandles [⟨1⟩]) = .ok sys ∧
        r.dof = some d ∧ d ≠ sys.values.size - (sys.fullJacobian t.value).toMatrix.rank := by
  have hsolved : ∃ r t, pointAbovePoint.solveWith .exact .default ⟨2⟩ (.ofHandles [⟨1⟩]) =
      .ok (r, t) ∧ r.status = .okay ∧ r.dof = some 0 ∧ t.value ⟨1⟩ = 0 := by
    have hgroup : ∃ st, pointAbovePoint.group ⟨2⟩ = .ok st := ⟨_, rfl⟩
    obtain ⟨st, hgroup⟩ := hgroup
    have hdiagnosis : (systemAbove true (.ofHandles [⟨1⟩])).finalDiagnosis .exact .default
        pointAbovePoint = .ok [] := rfl
    have hrun := run_solveWith_of_prepared hgroup prepared_pointAbovePoint rfl hdiagnosis
    exact ⟨_, _, Operation.outcome_eq_ok_iff.mpr hrun, rfl, rfl, rfl⟩
  obtain ⟨r, t, h, hstatus, hdof, hzero⟩ := hsolved
  have hmoves : (Pi.single ⟨1⟩ 1 : ParamId → ℝ) ⟨1⟩ ≠ 0 := by
    rw [Pi.single_eq_same]
    exact one_ne_zero
  have hrank := EquationSystem.rank_fullJacobian_lt (single_mem_motions_systemAbove hzero) hmoves
  exact ⟨LinearAlgebra.ranksExactly_exact_default, r, t, _, 0, h, hstatus,
    assemble_pointAbovePoint, hdof, (Nat.sub_pos_of_lt hrank).ne⟩

end SketchSolver
