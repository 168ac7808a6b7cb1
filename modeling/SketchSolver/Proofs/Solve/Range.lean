import SketchSolver.Proofs.Order
import SketchSolver.Proofs.Solve.Atomicity
import SketchSolver.Proofs.Solve.Counting
import SketchSolver.Proofs.Solve.Soundness

/-!
# The range of solved values

A value gets into the sketch in one of three ways: it is merged, it is fixed by an equation of its
own, or it is iterated. The iteration gives up when a value leaves the usable range, and a merged
unknown has the value of one that is not merged. An unknown that is fixed by an equation of its own
is not looked at again, so a sketch within the limit stays so exactly if these values are.
-/

namespace SketchSolver

variable {R : Type} [Arith R]

/-- Sketches whose values are all within the limit of usable values. -/
def Sketch.WithinLimit (s : Sketch R) : Prop :=
  ∀ p ∈ s.params.values, Arith.abs p.value ≤ (valueLimit : R)

instance (s : Sketch R) : Decidable s.WithinLimit :=
  inferInstanceAs (Decidable (∀ p ∈ s.params.values, Arith.abs p.value ≤ (valueLimit : R)))

namespace EquationSystem

/-- Systems whose working values are all within the limit of usable values. -/
def WithinLimit (sys : EquationSystem R) : Prop :=
  ∀ p x, sys.values.find? p = some x → Arith.abs x ≤ valueLimit

/-- Systems whose unknowns are within the limit of usable values where they are fixed by equations
of their own. -/
def FixesWithinLimit (sys : EquationSystem R) : Prop :=
  ∀ p x, sys.solvedAlone.contains p = true → sys.values.find? p = some x →
    Arith.abs x ≤ valueLimit

variable {start sys : EquationSystem R} {tolerance : R} {cap : Nat} {p : ParamId}

/-- An unknown that is not fixed keeps its working value while others are. -/
theorem find?_values_solveAlone
    (hp : (start.solveAlone tolerance cap).1.solvedAlone.contains p = false) :
    (start.solveAlone tolerance cap).1.values.find? p = start.values.find? p := by
  let P : EquationSystem R → Prop := fun sys ↦
    sys.solvedAlone.contains p = false → sys.values.find? p = start.values.find? p
  have hstart : P start := fun _ ↦ rfl
  refine solveAlone_induction hstart (fun sys i after hsys hi ↦ ?_) hp
  rcases solveAloneAt?_cases hi with rfl | ⟨_, q, _, x, _, _, _, rfl⟩
  · exact hsys
  · intro hfree
    rw [HandleSet.contains_add, Bool.or_eq_false_iff, beq_eq_false_iff_ne] at hfree
    rw [Table.find?_insert, if_neg hfree.1]
    exact hsys hfree.2

end EquationSystem

variable [OrderedArith R]

/-! ## The iteration -/

/-- An iteration that succeeds ends within the limit if it starts there. -/
theorem abs_le_of_iterateFrom {la : LinearAlgebra R} {config : Config R} {nw : NewtonSystem R}
    {sys : EquationSystem R} {left taken : Nat} {x history : List R}
    (hx : ∀ v ∈ x, Arith.abs v ≤ valueLimit)
    (h : (iterateFrom la config nw sys left taken x history).converged = true) :
    ∀ v ∈ (iterateFrom la config nw sys left taken x history).x, Arith.abs v ≤ valueLimit := by
  fun_induction iterateFrom la config nw sys left taken x history with
  | case1 => exact hx
  | case2 => cases h
  | case3 => cases h
  | case4 => cases h
  | case5 => cases h
  | case6 => cases h
  | case7 _ _ _ _ _ _ _ _ _ _ _ _ hrange ih =>
    -- A step goes on only if it has not left the range.
    rw [Bool.not_eq_true, Bool.or_eq_false_iff] at hrange
    exact ih (outOfRange_eq_false_iff.mp hrange.1) h

/-- An iteration from working values within the limit ends within the limit if it succeeds. -/
theorem EquationSystem.WithinLimit.abs_le_of_iterate {la : LinearAlgebra R} {config : Config R}
    {sys : EquationSystem R} (h : sys.WithinLimit)
    (hconverged : (sys.newton.iterate la config sys).converged = true) :
    ∀ v ∈ (sys.newton.iterate la config sys).x, Arith.abs v ≤ valueLimit := by
  refine abs_le_of_iterateFrom ?_ hconverged
  intro v hv
  obtain ⟨p, hp, rfl⟩ := List.mem_map.mp hv
  obtain ⟨hvalue, hunmerged, _⟩ := (EquationSystem.mem_newton_unknowns sys).mp hp
  obtain ⟨x, hx⟩ := Table.contains_iff_exists.mp hvalue
  rw [EquationSystem.value_of_none (Table.contains_eq_false_iff.mp hunmerged), hx, Option.getD_some]
  exact h p x hx

/-! ## What is written -/

namespace Prepared

variable {la : LinearAlgebra R} {config : Config R} {s : Sketch R} {g : GroupId}
  {dragged : HandleSet ParamId} {start fixed : EquationSystem R}

omit [OrderedArith R] in
/-- The working values are within the limit if those of the sketch and of fixed unknowns are. -/
theorem withinLimit (h : Prepared config s g dragged start fixed) (hs : s.WithinLimit)
    (hfixes : fixed.FixesWithinLimit) : fixed.WithinLimit := by
  intro p x hx
  cases hp : fixed.solvedAlone.contains p with
  | true => exact hfixes p x hp hx
  | false =>
    have hkept : fixed.values.find? p = start.substitute.values.find? p := by
      have hfree : (start.substitute.solveAlone config.tolerance
          config.maxIterations).1.solvedAlone.contains p = false := by rwa [h.alone]
      have hvalues := EquationSystem.find?_values_solveAlone hfree
      rwa [h.alone] at hvalues
    rw [hkept, h.merged.values, Sketch.values_of_assemble h.assembled, Sketch.find?_unknowns] at hx
    obtain ⟨q, hq, rfl⟩ := Option.map_eq_some_iff.mp hx
    exact hs q (Table.mem_values_iff.mpr ⟨p, (Option.filter_eq_some_iff.mp hq).1⟩)

/-- The final value of an unknown is within the limit if the working values are. -/
theorem abs_value_le (h : Prepared config s g dragged start fixed) (hfixed : fixed.WithinLimit)
    (hconverged : (fixed.newton.iterate la config fixed).converged = true) {p : ParamId}
    (hp : start.values.contains p = true) :
    Arith.abs ((fixed.iterated la config).value p) ≤ valueLimit := by
  -- A merged unknown has the value of the one that stands for it.
  rw [← h.value_renamed p]
  have hunmerged :
      (fixed.iterated la config).substituted.find? (renamed fixed.substituted p) = none :=
    h.find?_renamed p
  have hvalue : ∃ x, fixed.values.find? (renamed fixed.substituted p) = some x := by
    apply Table.contains_iff_exists.mp
    rw [h.fixedFrom.contains, h.merged.values]
    exact h.contains_renamed hp
  obtain ⟨x, hx⟩ := hvalue
  rw [EquationSystem.value_of_none hunmerged, EquationSystem.iterated,
    EquationSystem.find?_store (EquationSystem.nodup_newton_unknowns fixed), hx]
  cases hl : (List.zip fixed.newton.unknowns (fixed.newton.iterate la config fixed).x).lookup
      (renamed fixed.substituted p) with
  | none => exact hfixed _ x hx
  | some y =>
    obtain ⟨before, after, hzip, _⟩ := List.lookup_eq_some_iff.mp hl
    have hmem := List.of_mem_zip (hzip ▸ List.mem_append_right before List.mem_cons_self)
    exact hfixed.abs_le_of_iterate hconverged y hmem.2

/-- Writing solved values keeps a sketch within the limit exactly if the unknowns that are fixed by
equations of their own are within it. -/
theorem withinLimit_commit_iff (h : Prepared config s g dragged start fixed) (hs : s.WithinLimit)
    (hconverged : (fixed.newton.iterate la config fixed).converged = true) (dof : Nat) :
    (s.commit g (fixed.iterated la config).resolvedValues dof).WithinLimit ↔
      fixed.FixesWithinLimit := by
  constructor
  · intro hafter p x hp hx
    have hunknown : start.values.contains p = true := by
      rw [← h.merged.values, ← h.fixedFrom.contains]
      exact Table.contains_iff_exists.mpr ⟨x, hx⟩
    obtain ⟨q, hq, hvalue⟩ := h.exists_param_commit la dof hunknown
    have hfinal : (fixed.iterated la config).value p = x := h.value_of_solvedAlone hp hx
    rw [← hfinal, ← hvalue]
    exact hafter q (Table.mem_values_iff.mpr ⟨p, hq⟩)
  · intro hfixes q hq
    obtain ⟨k, hk⟩ := Table.mem_values_iff.mp hq
    rw [Sketch.find?_params_commit] at hk
    obtain ⟨old, hold, rfl⟩ := Option.map_eq_some_iff.mp hk
    rw [h.find?_resolvedValues]
    split
    · next hunknown => exact h.abs_value_le (h.withinLimit hs hfixes) hconverged hunknown
    · exact hs old (Table.mem_values_iff.mpr ⟨k, hold⟩)

end Prepared

/-! ## The result of a solve -/

/-- A solve of a sketch within the limit leaves it within the limit, however it ends, exactly if it
does not succeed with an unknown that an equation of its own fixes beyond the limit. -/
theorem withinLimit_left_solveWith_iff {la : LinearAlgebra R} {config : Config R} {s : Sketch R}
    {g : GroupId} {dragged : HandleSet ParamId} (hs : s.WithinLimit) :
    ((Operation.solveWith la config g dragged).left s).WithinLimit ↔
      ∀ r t, s.solveWith la config g dragged = .ok (r, t) → r.status.isOk = true →
        ∀ start fixed, Prepared config s g dragged start fixed → fixed.FixesWithinLimit := by
  have hend := (solveEnd_solveWith la config s g dragged).allOrNothing
  unfold Operation.left
  cases hrun : (Operation.solveWith la config g dragged).run s with
  | error e t =>
    rw [hrun] at hend
    cases hend
    refine iff_of_true hs ?_
    intro r t h
    rw [Sketch.solveWith, Operation.outcome_eq_ok_iff, hrun] at h
    cases h
  | ok r t =>
    rw [hrun, AllOrNothing] at hend
    have honly : ∀ r' t', s.solveWith la config g dragged = .ok (r', t') → r' = r := by
      intro r' t' h
      rw [Sketch.solveWith, Operation.outcome_eq_ok_iff, hrun] at h
      cases h
      rfl
    cases hok : r.status.isOk with
    | false =>
      rw [hok, if_neg Bool.false_ne_true] at hend
      rw [hend.2]
      refine iff_of_true hs ?_
      intro r' t' h hok'
      rw [honly r' t' h, hok] at hok'
      cases hok'
    | true =>
      obtain ⟨start, fixed, hp, hconverged, _, rfl⟩ := exists_prepared_of_isOk hrun hok
      refine (hp.withinLimit_commit_iff hs hconverged _).trans ⟨?_, ?_⟩
      · intro hfixes r' t' _ _ start' fixed' hp'
        obtain ⟨_, rfl⟩ := hp.unique hp'
        exact hfixes
      · intro h
        exact h r _ (Operation.outcome_eq_ok_iff.mpr hrun) hok start fixed hp

/-- A solve leaves the linked points within the limit, so it fixes no unknown beyond it. -/
theorem withinLimit_left_solveWith_iff_linkedPoints :
    linkedPoints.WithinLimit ∧
      ((Operation.solveWith .standard .default ⟨1⟩ .empty).left linkedPoints).WithinLimit ∧
      ∀ r t, linkedPoints.solveWith .standard .default ⟨1⟩ .empty = .ok (r, t) →
        r.status.isOk = true → ∀ start fixed,
          Prepared .default linkedPoints ⟨1⟩ .empty start fixed → fixed.FixesWithinLimit := by
  have hbefore : linkedPoints.WithinLimit := by decide +kernel
  have hafter : ((Operation.solveWith .standard .default ⟨1⟩ .empty).left
      linkedPoints).WithinLimit := by decide +kernel
  exact ⟨hbefore, hafter, (withinLimit_left_solveWith_iff hbefore).mp hafter⟩

/-- Two points of one group that the next group wants far away from each other. -/
def pointsFarApart : Sketch Float :=
  (Sketch.empty .default).runAll .standard
    [.draw ⟨1⟩ (.point3d ⟨0.0, 0.0, 0.0⟩),
      .draw ⟨1⟩ (.point3d ⟨1.0, 0.0, 0.0⟩),
      .relate ⟨2⟩ (.distance ⟨1⟩ ⟨2⟩ 1e12 none)]

/-- With one coordinate dragged the distance is an equation in one unknown. The unknown is written
where the equation fixes it, beyond the limit. -/
theorem not_withinLimit_pointsFarApart :
    pointsFarApart.Reachable .standard ∧ (Config.default : Config Float).validate = .ok () ∧
      pointsFarApart.WithinLimit ∧
      ∃ r t, pointsFarApart.solveWith .standard .default ⟨2⟩ (.ofHandles [⟨4⟩]) = .ok (r, t) ∧
        r.status = .okay ∧ ¬ t.WithinLimit := by
  have hsolved : (pointsFarApart.solveWith .standard .default ⟨2⟩ (.ofHandles [⟨4⟩])).toOption.any
      (fun result ↦ decide (result.1.status = .okay) && !decide result.2.WithinLimit) = true := by
    decide +kernel
  obtain ⟨⟨r, t⟩, hrun, hboth⟩ := Outcome.exists_of_any_toOption hsolved
  obtain ⟨hstatus, hbeyond⟩ := Bool.and_eq_true_iff.mp hboth
  rw [Bool.not_eq_true'] at hbeyond
  refine ⟨⟨.default, _, rfl⟩, rfl, by decide +kernel, r, t, hrun, of_decide_eq_true hstatus, ?_⟩
  exact of_decide_eq_false hbeyond

end SketchSolver
