import SketchSolver.Command
import SketchSolver.Proofs.Exact.Differential
import SketchSolver.Proofs.Exact.Motion
import SketchSolver.Proofs.Solve.Rewriting
import SketchSolver.Proofs.Solve.Standstill

/-!
# Solving again

A group that was solved is left as it is by another solve. The equations are written again with the
same outlines, and they all hold at the values from before: those that are the same held there at
the end of the first solve, and those that keep an expression at its value keep it at the value that
it has now. So the second solve stands still and ends like the first.
-/

namespace SketchSolver

open List (Forall₂)

variable {la : LinearAlgebra ℝ} {config : Config ℝ} {s t : Sketch ℝ} {g : GroupId}
  {dragged : HandleSet ParamId} {start fixed : EquationSystem ℝ}

/-! ## Rewritten equations after freezing and folding -/

namespace Expr

/-- Freezing at current values and folding keeps the current value. -/
theorem eval_fold_freeze (s : Sketch ℝ) (unknowns : Table ParamId ℝ) (e : Expr ℝ) :
    (e.freeze (s.frozenValue unknowns)).fold.eval s.value = e.eval s.value := by
  rw [eval_fold, eval_freeze]
  apply eval_congr
  intro p _
  unfold Sketch.frozenValue
  split <;> rfl

private theorem outline_fold_freeze_stay (s : Sketch ℝ) (unknowns : Table ParamId ℝ) (e : Expr ℝ) :
    ((e - .constant (e.eval s.value)).freeze (s.frozenValue unknowns)).fold.outline =
      match (e.freeze (s.frozenValue unknowns)).fold.constant? with
      | some _ => .constant 0
      | none => ((e.freeze (s.frozenValue unknowns)).fold - .constant 0).outline := by
  have hvalue := eval_fold_freeze s unknowns e
  change (foldBinary .minus (e.freeze (s.frozenValue unknowns)).fold
    (.constant (e.eval s.value))).outline = _
  unfold foldBinary
  dsimp only
  cases hconstant : (e.freeze (s.frozenValue unknowns)).fold.constant? with
  | none => rfl
  | some x =>
    rw [constant?_eq_some_iff.mp hconstant, eval_constant] at hvalue
    have hzero : BinaryOp.minus.apply x (e.eval s.value) = 0 := by rw [hvalue]; exact sub_self _
    change (constant (BinaryOp.minus.apply x (e.eval s.value))).outline = _
    rw [hzero]
    rfl

variable {unknowns unknowns' : Table ParamId ℝ}

/-- Where the same values are frozen, a rewritten expression has the same outline. -/
theorem Rewritten.outline_eq {e e' : Expr ℝ} (h : e.Rewritten s t e')
    (hfrozen : t.frozenValue unknowns' = s.frozenValue unknowns) :
    (e'.freeze (t.frozenValue unknowns')).fold.outline =
      (e.freeze (s.frozenValue unknowns)).fold.outline := by
  cases h with
  | same => rw [hfrozen]
  | stay e => rw [outline_fold_freeze_stay, outline_fold_freeze_stay, hfrozen]

/-- Where the same values are frozen, a rewritten expression is the same or zero. -/
theorem Rewritten.eq_or_eval_eq_zero {e e' : Expr ℝ} (h : e.Rewritten s t e')
    (hfrozen : t.frozenValue unknowns' = s.frozenValue unknowns) :
    (e'.freeze (t.frozenValue unknowns')).fold = (e.freeze (s.frozenValue unknowns)).fold ∨
      (e'.freeze (t.frozenValue unknowns')).fold.eval t.value = 0 := by
  cases h with
  | same => exact .inl (by rw [hfrozen])
  | stay e =>
    right
    rw [eval_fold_freeze, eval_sub, eval_constant, sub_self]

end Expr

/-! ## The system that is written again -/

namespace Equation

variable {eq eq' : Equation ℝ} {unknowns unknowns' : Table ParamId ℝ}

/-- A rewritten equation has the same outline once it is frozen. -/
theorem Rewritten.outline_frozen (h : eq.Rewritten s t eq')
    (hfrozen : t.frozenValue unknowns' = s.frozenValue unknowns) :
    (eq'.frozen (t.frozenValue unknowns')).outline =
      (eq.frozen (s.frozenValue unknowns)).outline := by
  obtain ⟨e, he, rfl⟩ := h
  unfold frozen outline
  dsimp only
  rw [he.outline_eq hfrozen]

/-- A rewritten equation is the same once it is frozen, or zero. -/
theorem Rewritten.eq_or_eval_eq_zero (h : eq.Rewritten s t eq')
    (hfrozen : t.frozenValue unknowns' = s.frozenValue unknowns) :
    eq'.frozen (t.frozenValue unknowns') = eq.frozen (s.frozenValue unknowns) ∨
      (eq'.frozen (t.frozenValue unknowns')).expr.eval t.value = 0 := by
  obtain ⟨e, he, rfl⟩ := h
  refine (he.eq_or_eval_eq_zero hfrozen).imp_left fun hsame ↦ ?_
  unfold frozen
  dsimp only
  rw [hsame]

end Equation

private theorem map_outline_filter (g : GroupId) (eqs : List (Equation ℝ)) :
    (eqs.filter (Equation.isKept g)).map Equation.outline =
      (eqs.map Equation.outline).filter (Equation.isKept g) := by
  have hkept : Equation.isKept g ∘ (Equation.outline : Equation ℝ → _) = Equation.isKept g := by
    funext eq
    simp only [Function.comp_apply, Equation.isKept, Equation.outline, Expr.referenced_outline]
  rw [List.filter_map, hkept]

private theorem exists_mem_of_forall₂ {α β : Type} {Q : α → β → Prop} {xs : List α} {ys : List β}
    (h : Forall₂ Q xs ys) {y : β} (hy : y ∈ ys) : ∃ x ∈ xs, Q x y := by
  induction h with
  | nil => exact absurd hy List.not_mem_nil
  | @cons x _ xs _ hq _ ih =>
    rcases List.mem_cons.mp hy with rfl | hy
    · exact ⟨x, List.mem_cons_self, hq⟩
    · obtain ⟨x', hx', hq'⟩ := ih hy
      exact ⟨x', List.mem_cons_of_mem x hx', hq'⟩

namespace Prepared

variable {dof : Nat} {written written' : List (Equation ℝ)}

private theorem outline_system_commit (h : Prepared config s g dragged start fixed)
    (hwritten : Forall₂ (Equation.Rewritten s
      (s.commit g (fixed.iterated la config).resolvedValues dof)) written written') :
    ((s.commit g (fixed.iterated la config).resolvedValues dof).system g dragged written').outline =
      (s.system g dragged written).outline := by
  have hunknowns := h.unknowns_commit la dof
  have hfrozen := h.frozenValue_commit la dof
  have hequations : (written'.map (Equation.frozen ((s.commit g
        (fixed.iterated la config).resolvedValues dof).frozenValue
          (fixed.iterated la config).resolvedValues))).map Equation.outline =
      (written.map (Equation.frozen (s.frozenValue (s.unknowns g dragged)))).map
        Equation.outline := by
    rw [List.map_map, List.map_map, ← List.forall₂_eq_eq_eq, List.forall₂_map_left_iff,
      List.forall₂_map_right_iff]
    exact hwritten.flip.imp fun eq' eq heq ↦ Equation.Rewritten.outline_frozen heq hfrozen
  unfold EquationSystem.outline
  rw [Sketch.equations_system, Sketch.equations_system, hunknowns, map_outline_filter,
    map_outline_filter, hequations]
  simp only [Sketch.system, hunknowns, EquationSystem.mk.injEq, true_and, and_true]
  refine ⟨Table.map_const_congr (fun k ↦ ?_) _, Table.map_const_congr (fun k ↦ ?_) _⟩
  · rw [h.contains_resolvedValues, Sketch.values_of_assemble h.assembled]
  · rw [Table.contains, Table.contains, Table.find?_filter, Table.find?_filter,
      Sketch.find?_params_commit]
    cases s.params.find? k with
    | none => rfl
    | some p =>
      have hdragged (x : ℝ) : Sketch.isDragged dragged g { p with value := x } =
          Sketch.isDragged dragged g p := rfl
      rw [Option.map_some, Option.filter_some, Option.filter_some, hdragged]
      cases Sketch.isDragged dragged g p <;> rfl

private theorem abs_eval_system_commit_le (h : Prepared config s g dragged start fixed)
    (hconverged : (fixed.newton.iterate la config fixed).converged = true)
    (hpositive : 0 ≤ config.tolerance) (hsystem : s.system g dragged written = start)
    (hwritten : Forall₂ (Equation.Rewritten s
      (s.commit g (fixed.iterated la config).resolvedValues dof)) written written')
    {eq : Equation ℝ} (heq : eq ∈ ((s.commit g (fixed.iterated la config).resolvedValues
      dof).system g dragged written').equations) :
    Arith.abs (eq.expr.eval (s.commit g (fixed.iterated la config).resolvedValues dof).value) ≤
      config.tolerance := by
  rw [Sketch.equations_system, h.unknowns_commit] at heq
  obtain ⟨hmem, hkept⟩ := List.mem_filter.mp heq
  obtain ⟨new, hnew, rfl⟩ := List.mem_map.mp hmem
  obtain ⟨old, hold, hrewritten⟩ := exists_mem_of_forall₂ hwritten hnew
  rcases Equation.Rewritten.eq_or_eval_eq_zero hrewritten (h.frozenValue_commit la dof) with
    hsame | hzero
  · rw [hsame] at hkept ⊢
    have hstart : old.frozen (s.frozenValue (s.unknowns g dragged)) ∈ start.equations := by
      rw [← hsystem, Sketch.equations_system]
      exact List.mem_filter.mpr ⟨List.mem_map_of_mem hold, hkept⟩
    refine h.abs_eval_le_of_value_eq hconverged (Arith.real_abs_zero_le hpositive)
      (fun p hp ↦ h.value_commit la dof hp) ?_ hstart
    intro p _
    rw [sub_self, Arith.real_zero]
  · rw [hzero, ← Arith.real_zero]
    exact Arith.real_abs_zero_le hpositive

/-- A solved group can be written again, to a system of the same outline and with the solved values
as its working values, at which its equations hold. -/
theorem exists_assemble_commit (h : Prepared config s g dragged start fixed)
    (hconverged : (fixed.newton.iterate la config fixed).converged = true)
    (hpositive : 0 ≤ config.tolerance)
    (hs : ∀ c ∈ s.constraints.values, c.group ≤ g → c.chooses = false) (dof : Nat) :
    ∃ again, (s.commit g (fixed.iterated la config).resolvedValues dof).assemble g dragged =
        .ok again ∧
      again.outline = start.outline ∧ again.values = (fixed.iterated la config).resolvedValues ∧
      ∀ eq ∈ again.equations,
        Arith.abs (eq.expr.eval (fixed.iterated la config).value) ≤ config.tolerance := by
  obtain ⟨written, hw, hsystem⟩ := Sketch.assembleExcluding_eq_ok_iff.mp h.assembled
  obtain ⟨written', hw', hwritten⟩ := Sketch.exists_writeEquations_commit hs hw g
    (fixed.iterated la config).resolvedValues dof
  have hassembled : (s.commit g (fixed.iterated la config).resolvedValues dof).assemble g dragged =
      .ok _ := Sketch.assembleExcluding_eq_ok_iff.mpr ⟨written', hw', rfl⟩
  have houtline := h.outline_system_commit hwritten
  rw [hsystem] at houtline
  have hvalues := (Sketch.values_of_assemble hassembled).trans (h.unknowns_commit la dof)
  refine ⟨_, hassembled, houtline, hvalues, ?_⟩
  intro eq heq
  have hfinal : eq.expr.eval (fixed.iterated la config).value =
      eq.expr.eval (s.commit g (fixed.iterated la config).resolvedValues dof).value := by
    apply Expr.eval_congr
    intro p hp
    have hunknown := (Sketch.untouched_assembleExcluding hassembled).closed eq heq p hp
    rw [hvalues, h.contains_resolvedValues] at hunknown
    exact (h.value_commit la dof hunknown).symm
  rw [hfinal]
  exact h.abs_eval_system_commit_le hconverged hpositive hsystem hwritten heq

/-! ## The second solve -/

/-- A system that is written again is prepared again, to a system of the same outline whose
equations hold at its working values. -/
theorem exists_prepared_commit (h : Prepared config s g dragged start fixed)
    (hconverged : (fixed.newton.iterate la config fixed).converged = true)
    (hpositive : 0 ≤ config.tolerance)
    (hs : ∀ c ∈ s.constraints.values, c.group ≤ g → c.chooses = false) (dof : Nat) :
    ∃ again fixed', Prepared config (s.commit g (fixed.iterated la config).resolvedValues dof) g
        dragged again fixed' ∧
      fixed'.outline = fixed.outline ∧ fixed'.Holds config.tolerance ∧
      fixed'.values = (fixed.iterated la config).resolvedValues := by
  obtain ⟨again, hassembled, houtline, hvalues, hholds⟩ :=
    h.exists_assemble_commit hconverged hpositive hs dof
  have hmerged : again.substitute.outline = start.substitute.outline := by
    rw [EquationSystem.outline_substitute, houtline, EquationSystem.outline_substitute]
  have hfrom := EquationSystem.mergedFrom_substitute
    (Sketch.untouched_assembleExcluding hassembled)
  have hsubstituted : again.substitute.substituted = fixed.substituted :=
    (EquationSystem.fields_of_outline_eq hmerged).2.2.trans h.fixedFrom.substituted.symm
  have hvalue : again.substitute.value = (fixed.iterated la config).value :=
    h.value_of_resolvedValues la (hfrom.values.trans hvalues) hsubstituted
  have hmergedHolds : again.substitute.Holds config.tolerance := by
    intro eq heq
    obtain ⟨old, hold, hexpr⟩ := hfrom.exists_origin heq
    have heval : eq.expr.eval (fixed.iterated la config).value =
        old.expr.eval (fixed.iterated la config).value := by
      rw [hexpr, hsubstituted, Expr.eval_substitute]
      exact Expr.eval_congr fun p _ ↦ h.value_renamed p
    rw [hvalue, heval]
    exact hholds old hold
  obtain ⟨halone, hfixHolds, hfixValues⟩ := hmergedHolds.solveAlone
  have hfits : ¬ again.Oversized config := by
    rw [← EquationSystem.oversized_outline, houtline, EquationSystem.oversized_outline]
    exact h.fits
  refine ⟨again, again.substitute.fix, ⟨hassembled, hfits, halone⟩, ?_, hfixHolds,
    hfixValues.trans (hfrom.values.trans hvalues)⟩
  rw [EquationSystem.outline_of_solveAlone halone, hmerged,
    EquationSystem.outline_of_solveAlone h.alone]

section

variable {again : EquationSystem ℝ} (houtline : again.outline = fixed.outline)
  (hvalues : again.values = (fixed.iterated la config).resolvedValues)

include houtline hvalues

/-- The system that is prepared again has the final values of the first one as its working values,
and ends with them. -/
theorem value_and_resolvedValues_eq (h : Prepared config s g dragged start fixed) :
    again.value = (fixed.iterated la config).value ∧
      again.resolvedValues = (fixed.iterated la config).resolvedValues :=
  have hmerged := (EquationSystem.fields_of_outline_eq houtline).2.2
  ⟨h.value_of_resolvedValues la hvalues hmerged,
    h.resolvedValues_of_resolvedValues la hvalues hmerged⟩

/-- The second solve finds the same constraints to repeat others. -/
theorem finalDiagnosis_commit (h : Prepared config s g dragged start fixed)
    (hholds : again.Holds config.tolerance) (dof : Nat) :
    again.finalDiagnosis la config (s.commit g (fixed.iterated la config).resolvedValues dof) =
      fixed.finalDiagnosis la config s := by
  obtain ⟨hvalue, hresolved⟩ := h.value_and_resolvedValues_eq houtline hvalues
  have hheight := (EquationSystem.newton_eq_of_outline_eq houtline).2.2
  obtain ⟨hgroup, hdragged, _⟩ := EquationSystem.fields_of_outline_eq houtline
  have hfixed : (fixed.iterated la config).group = g := h.group
  unfold EquationSystem.finalDiagnosis Sketch.diagnosis
  rw [hholds.iterated la, hholds.finalRank_eq houtline hvalue, hheight, hresolved, hgroup, h.group,
    hdragged, hfixed, Sketch.commit_commit]
  rfl

end

end Prepared

/-- In exact arithmetic and with a valid configuration, a successful solve of a group can be done
again with the same parameters dragged. Unless current values choose the equations of a constraint
of the group or an earlier one, this leaves the sketch as it is, takes no step and reports the same
status, degrees of freedom, bad constraints and free parameters. -/
theorem exists_solveWith_again {r : SolveReport ℝ} (hconfig : config.validate = .ok ())
    (hs : ∀ c ∈ s.constraints.values, c.group ≤ g → c.chooses = false)
    (h : s.solveWith la config g dragged = .ok (r, t)) (hok : r.status.isOk = true) :
    ∃ r', t.solveWith la config g dragged = .ok (r', t) ∧ r'.iterations = 0 ∧
      r'.status = r.status ∧ r'.dof = r.dof ∧ r'.badConstraints = r.badConstraints ∧
      r'.freeParams = r.freeParams := by
  obtain ⟨start, fixed, bad, hp, hconverged, hdiagnosis, rfl, rfl⟩ :=
    exists_finalDiagnosis_of_isOk (Operation.outcome_eq_ok_iff.mp h) hok
  have hpositive : 0 < config.tolerance := by
    rw [← Arith.real_zero]
    exact Config.tolerance_pos hconfig
  obtain ⟨again, fixed', hp', houtline, hholds, hvalues⟩ :=
    hp.exists_prepared_commit hconverged hpositive.le hs (fixed.finalDof la config)
  obtain ⟨hvalue, hresolved⟩ := hp.value_and_resolvedValues_eq houtline hvalues
  have hgroup : ∃ st, (s.commit g (fixed.iterated la config).resolvedValues
      (fixed.finalDof la config)).group g = .ok st := by
    refine ⟨⟨g, true, some (fixed.finalDof la config)⟩, ?_⟩
    rw [Sketch.group, Sketch.find?_groups_commit, if_pos rfl]
  obtain ⟨st, hgroup⟩ := hgroup
  have hconverged' : (fixed'.newton.iterate la config fixed').converged = true := by
    rw [hholds.iterate la]
  have hrun := run_solveWith_of_prepared hgroup hp' hconverged'
    ((hp.finalDiagnosis_commit houtline hvalues hholds _).trans hdiagnosis)
  rw [hholds.iterated la, hresolved, hp'.group, Sketch.commit_commit,
    hholds.finalDof_eq houtline hvalue] at hrun
  refine ⟨fixed'.finalReport la config bad, Operation.outcome_eq_ok_iff.mpr hrun, ?_⟩
  rw [hholds.finalReport_eq houtline hvalue bad]
  exact ⟨rfl, rfl, rfl, rfl, rfl⟩

/-- Two points at one place, one of which stays where it is. -/
noncomputable def pinnedPoints : Sketch ℝ :=
  (Sketch.empty .default).runAll .exact
    [.draw ⟨1⟩ (.point3d ⟨1, 1, 1⟩),
      .draw ⟨1⟩ (.point3d ⟨1, 1, 1⟩),
      .relate ⟨1⟩ (.coincident ⟨1⟩ ⟨2⟩ none),
      .relate ⟨1⟩ (.dragged ⟨1⟩ none)]

private theorem isPositive_of_pos {x : ℝ} (h : 0 < x) : (!Config.isPositive x) = false := by
  unfold Config.isPositive
  rw [Arith.real_zero, Bool.not_eq_false']
  exact Bool.and_eq_true_iff.mpr ⟨rfl, decide_eq_true h⟩

private theorem isFraction_of_le {x : ℝ} (h : 0 < x) (hle : x ≤ 1) :
    (!Config.isFraction x) = false := by
  unfold Config.isFraction
  rw [Arith.real_zero, Arith.real_one, Bool.not_eq_false']
  exact Bool.and_eq_true_iff.mpr ⟨decide_eq_true h, decide_eq_true hle⟩

/-- The default settings are usable in exact arithmetic. -/
theorem Config.validate_default : (Config.default : Config ℝ).validate = .ok () := by
  unfold Config.validate Config.default
  dsimp only
  rw [isPositive_of_pos (by norm_num), isPositive_of_pos (by norm_num),
    isPositive_of_pos (by norm_num), isFraction_of_le (by norm_num) (by norm_num),
    isFraction_of_le (by norm_num) (by norm_num)]
  rfl

/-- The pinned points are solved, and solved again, where they are. -/
theorem exists_solveWith_again_pinnedPoints :
    ∃ r t, pinnedPoints.solveWith .exact .default ⟨1⟩ .empty = .ok (r, t) ∧
      r.status.isOk = true ∧
      ∃ r', t.solveWith .exact .default ⟨1⟩ .empty = .ok (r', t) ∧ r'.iterations = 0 ∧
        r'.status = r.status ∧ r'.dof = r.dof ∧ r'.badConstraints = r.badConstraints ∧
        r'.freeParams = r.freeParams := by
  obtain ⟨sys, st, hgroup, hsys, hfits, hexprs, hconverged, hdiagnosis⟩ :
      ∃ sys st, pinnedPoints.group ⟨1⟩ = .ok st ∧ pinnedPoints.assemble ⟨1⟩ .empty = .ok sys ∧
        ¬ sys.Oversized (.default : Config ℝ) ∧
        sys.substitute.equations.map (fun eq ↦ eq.expr.eval sys.substitute.value) =
          List.replicate 6 (1 - 1) ∧
        (sys.substitute.fix.newton.iterate .exact .default sys.substitute.fix).converged = true ∧
        sys.substitute.fix.finalDiagnosis .exact .default pinnedPoints = .ok [] :=
    ⟨_, _, rfl, rfl, by unfold EquationSystem.Oversized; decide, rfl, rfl, rfl⟩
  have hholds : sys.substitute.Holds (Config.default : Config ℝ).tolerance := by
    intro eq heq
    have hzero : eq.expr.eval sys.substitute.value = 0 := by
      have hmem := List.mem_map_of_mem (f := fun eq ↦ eq.expr.eval sys.substitute.value) heq
      rw [hexprs] at hmem
      simpa using hmem
    change |eq.expr.eval sys.substitute.value| ≤ (1e-8 : ℝ)
    rw [hzero, abs_zero]
    norm_num
  have hprepared : Prepared .default pinnedPoints ⟨1⟩ .empty sys sys.substitute.fix :=
    ⟨hsys, hfits, hholds.solveAlone.1⟩
  have hrun := run_solveWith_of_prepared hgroup hprepared hconverged hdiagnosis
  have hsolve := Operation.outcome_eq_ok_iff.mpr hrun
  have hplain : pinnedPoints.constraints.values.all (fun c ↦ !c.chooses) = true := rfl
  refine ⟨_, _, hsolve, isOk_finalReport, ?_⟩
  refine exists_solveWith_again Config.validate_default ?_ hsolve isOk_finalReport
  intro c hc _
  have hc' := List.all_eq_true.mp hplain c hc
  rwa [Bool.not_eq_true'] at hc'

end SketchSolver
