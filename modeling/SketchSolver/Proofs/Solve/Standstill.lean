import SketchSolver.Proofs.Solve.Outline

/-!
# Solving where all equations hold

A system whose equations hold at its working values is left where it is. Every equation in one
unknown is solved by the working value of that unknown, the iteration takes no step, and storing the
values that it ends with changes nothing.
-/

namespace SketchSolver

variable {R : Type} [Arith R]

namespace NewtonSystem

omit [Arith R] in
private theorem eq_of_lookup_zip_map {ps : List ParamId} {f : ParamId → R} {p : ParamId} {x : R}
    (h : (List.zip ps (ps.map f)).lookup p = some x) : p ∈ ps ∧ x = f p := by
  obtain ⟨before, after, hzip, _⟩ := List.lookup_eq_some_iff.mp h
  have hmem : (p, x) ∈ List.zip ps (ps.map f) :=
    hzip ▸ List.mem_append_right before List.mem_cons_self
  have hpairs : List.zip (ps.map id) (ps.map f) = ps.map fun q ↦ (q, f q) := List.zip_map'
  rw [List.map_id] at hpairs
  rw [hpairs] at hmem
  obtain ⟨q, hq, he⟩ := List.mem_map.mp hmem
  cases he
  exact ⟨hq, rfl⟩

/-- The working values of the unknowns assign the working value to each parameter. -/
theorem assignment_initial (nw : NewtonSystem R) (sys : EquationSystem R) :
    nw.assignment sys (nw.initial sys) = sys.value := by
  funext p
  unfold assignment
  cases hx : (nw.column? p).bind ((nw.initial sys)[·]?) with
  | none => rfl
  | some x =>
    obtain ⟨i, hi, hx⟩ := Option.bind_eq_some_iff.mp hx
    rw [initial, List.getElem?_map, getElem?_of_placeBetween? hi] at hx
    exact (Option.some.inj hx).symm

end NewtonSystem

namespace EquationSystem

/-- The equations of a system hold at its working values. -/
def Holds (tolerance : R) (sys : EquationSystem R) : Prop :=
  ∀ eq ∈ sys.equations, Arith.abs (eq.expr.eval sys.value) ≤ tolerance

variable {sys : EquationSystem R} {tolerance : R} {cap : Nat}

/-! ## Equations in one unknown -/

omit [Arith R] in
private theorem fixAt_cases (sys : EquationSystem R) (i : Nat) :
    sys.fixAt i = sys ∨ ∃ p, sys.fixAt i = { sys.retire i with
      solvedAlone := sys.solvedAlone.add p } := by
  unfold fixAt
  split
  · exact .inl rfl
  · next p _ _ => exact .inr ⟨p, rfl⟩

omit [Arith R] in
/-- Fixing an unknown where it is keeps all working values. -/
theorem values_fixAt (sys : EquationSystem R) (i : Nat) : (sys.fixAt i).values = sys.values := by
  rcases fixAt_cases sys i with h | ⟨p, h⟩ <;> rw [h]
  rfl

/-- What holds still holds when an unknown is fixed where it is. -/
theorem Holds.fixAt (h : sys.Holds tolerance) (i : Nat) : (sys.fixAt i).Holds tolerance := by
  rcases fixAt_cases sys i with hsame | ⟨p, hfixed⟩
  · rwa [hsame]
  · rw [hfixed]
    intro eq heq
    rcases mem_retire heq with hold | ⟨old, hold, rfl⟩
    · exact h eq hold
    · exact h old (List.mem_of_getElem? hold)

/-- An equation that holds is solved where its unknown is. -/
theorem Holds.solveAloneAt? (h : sys.Holds tolerance) (i : Nat) :
    sys.solveAloneAt? tolerance cap i = some (sys.fixAt i) := by
  unfold EquationSystem.solveAloneAt? EquationSystem.fixAt
  cases heq : sys.equations[i]? with
  | none => rfl
  | some eq =>
    rw [Option.bind_some]
    cases hlonely : sys.lonely? eq with
    | none => simp only [hlonely]
    | some d =>
      obtain ⟨p, x⟩ := d
      obtain ⟨_, hone, _, hunmerged, hvalue⟩ := lonely?_eq_some hlonely
      have hworking : sys.value p = x := by rw [value_of_none hunmerged, hvalue, Option.getD_some]
      have hroot : Arith.abs (eq.expr.eval (assignOne p x)) ≤ tolerance := by
        rw [← eval_assignOne hone hworking]
        exact h eq (List.mem_of_getElem? heq)
      have hkept : sys.values.insert p x = sys.values := by
        apply Table.ext
        intro q
        rw [Table.find?_insert]
        split
        · next hq => rw [← Numbered.index_inj hq, hvalue]
        · rfl
      simp only [hlonely, aloneRoot?_of_le hroot, Option.map_some, hkept]
      rfl

/-- Where all equations hold, a run over some of them fixes unknowns where they are. -/
theorem Holds.solveAloneOn (h : sys.Holds tolerance) (is : List Nat) :
    EquationSystem.solveAloneOn tolerance cap is sys =
        (is.foldl EquationSystem.fixAt sys, none) ∧
      (is.foldl EquationSystem.fixAt sys).Holds tolerance ∧
      (is.foldl EquationSystem.fixAt sys).values = sys.values := by
  induction is generalizing sys with
  | nil => exact ⟨rfl, h, rfl⟩
  | cons i is ih =>
    obtain ⟨hrun, hholds, hvalues⟩ := ih (h.fixAt i)
    refine ⟨?_, hholds, hvalues.trans (values_fixAt sys i)⟩
    unfold EquationSystem.solveAloneOn
    rw [h.solveAloneAt?]
    exact hrun

/-- If all equations hold, those in one unknown are solved where they are. -/
theorem Holds.solveAlone (h : sys.Holds tolerance) :
    sys.solveAlone tolerance cap = (sys.fix, none) ∧ sys.fix.Holds tolerance ∧
      sys.fix.values = sys.values := h.solveAloneOn _

/-! ## The iteration -/

/-- If all equations hold, the iteration succeeds without a step. -/
theorem Holds.iterate {config : Config R} (h : sys.Holds config.tolerance) (la : LinearAlgebra R) :
    sys.newton.iterate la config sys = ⟨true, false, 0, sys.newton.initial sys⟩ := by
  have hconverged : isConverged (sys.newton.residuals sys (sys.newton.initial sys))
      config.tolerance = true := by
    rw [isConverged_iff]
    intro x hx
    obtain ⟨eq, heq, rfl⟩ := List.mem_map.mp hx
    rw [NewtonSystem.assignment_initial]
    exact h eq ((mem_newton_equations sys).mp heq).1
  unfold NewtonSystem.iterate iterateFrom
  rw [if_pos hconverged]

/-- If all equations hold, the system is what the iteration ends with. -/
theorem Holds.iterated {config : Config R} (h : sys.Holds config.tolerance)
    (la : LinearAlgebra R) : sys.iterated la config = sys := by
  have hvalues : (sys.store sys.newton.unknowns (sys.newton.initial sys)).values = sys.values := by
    apply Table.ext
    intro p
    rw [find?_store (nodup_newton_unknowns sys)]
    cases hl : (List.zip sys.newton.unknowns (sys.newton.initial sys)).lookup p with
    | none => rw [Option.none_or]
    | some x =>
      obtain ⟨hp, rfl⟩ := NewtonSystem.eq_of_lookup_zip_map hl
      obtain ⟨hcontains, hunmerged, _⟩ := (mem_newton_unknowns sys).mp hp
      obtain ⟨y, hy⟩ := Table.contains_iff_exists.mp hcontains
      rw [Option.some_or, value_of_none (Table.contains_eq_false_iff.mp hunmerged), hy,
        Option.getD_some]
  rw [EquationSystem.iterated, h.iterate la]
  exact congrArg (fun values ↦ { sys with values := values }) hvalues

/-! ## Ending alike -/

section

variable {la : LinearAlgebra R} {config : Config R} {again : EquationSystem R}

/-- Systems of the same outline have the same unknowns and partial derivatives left. -/
theorem newton_eq_of_outline_eq (h : again.outline = sys.outline) :
    again.newton.unknowns = sys.newton.unknowns ∧ again.newton.partials = sys.newton.partials ∧
      again.newton.height = sys.newton.height := by
  have hnewton := congrArg newton h
  rw [newton_outline, newton_outline, NewtonSystem.mk.injEq] at hnewton
  obtain ⟨hunknowns, _, hequations, hpartials, _⟩ := hnewton
  refine ⟨hunknowns, hpartials, ?_⟩
  have hlength := congrArg List.length hequations
  rwa [List.length_map, List.length_map] at hlength

/-- A system whose equations hold at the final values of another one is evaluated in the end where
the other one is. -/
theorem Holds.assignment_eq (h : again.Holds config.tolerance)
    (hvalue : again.value = (sys.iterated la config).value) :
    again.newton.assignment (again.iterated la config) (again.newton.iterate la config again).x =
      sys.newton.assignment (sys.iterated la config) (sys.newton.iterate la config sys).x := by
  rw [assignment_iterated, h.iterated la, hvalue, assignment_iterated]

/-- A system of the same outline whose equations hold at the final values of another one has the
matrix of partial derivatives that the other one ends with. -/
theorem Holds.jacobian_eq (h : again.Holds config.tolerance)
    (houtline : again.outline = sys.outline)
    (hvalue : again.value = (sys.iterated la config).value) :
    again.newton.jacobian (again.iterated la config) (again.newton.iterate la config again).x =
      sys.newton.jacobian (sys.iterated la config) (sys.newton.iterate la config sys).x := by
  obtain ⟨hunknowns, hpartials, _⟩ := newton_eq_of_outline_eq houtline
  unfold NewtonSystem.jacobian NewtonSystem.width
  dsimp only
  rw [h.assignment_eq hvalue, hunknowns, hpartials]

/-- A system of the same outline whose equations hold at the final values of another one ends with
the same rank. -/
theorem Holds.finalRank_eq (h : again.Holds config.tolerance)
    (houtline : again.outline = sys.outline)
    (hvalue : again.value = (sys.iterated la config).value) :
    again.finalRank la config = sys.finalRank la config := by
  rw [finalRank, h.jacobian_eq houtline hvalue, finalRank]

/-- A system of the same outline whose equations hold at the final values of another one ends with
the same degrees of freedom. -/
theorem Holds.finalDof_eq (h : again.Holds config.tolerance)
    (houtline : again.outline = sys.outline)
    (hvalue : again.value = (sys.iterated la config).value) :
    again.finalDof la config = sys.finalDof la config := by
  unfold finalDof NewtonSystem.width
  rw [h.finalRank_eq houtline hvalue, (newton_eq_of_outline_eq houtline).1]

/-- A system of the same outline whose equations hold at the final values of another one is reported
on alike, but for the number of steps and for how well the equations hold. -/
theorem Holds.finalReport_eq (h : again.Holds config.tolerance)
    (houtline : again.outline = sys.outline)
    (hvalue : again.value = (sys.iterated la config).value) (bad : List ConstraintId) :
    again.finalReport la config bad = { sys.finalReport la config bad with
      iterations := 0
      residual := (again.finalReport la config bad).residual } := by
  obtain ⟨hunknowns, hpartials, hheight⟩ := newton_eq_of_outline_eq houtline
  have hrank := h.finalRank_eq houtline hvalue
  have hwidth : again.newton.width = sys.newton.width := congrArg List.length hunknowns
  have hfree : again.newton.freeParams la config.rankTolerance (again.iterated la config)
        (again.newton.iterate la config again).x =
      sys.newton.freeParams la config.rankTolerance (sys.iterated la config)
        (sys.newton.iterate la config sys).x := by
    unfold NewtonSystem.freeParams NewtonSystem.jacobianWithout
    dsimp only
    rw [h.assignment_eq hvalue, hunknowns, hpartials, hwidth, hheight]
  have hiterations : (again.newton.iterate la config again).iterations = 0 := by rw [h.iterate la]
  unfold finalReport SolveReport.success
  dsimp only
  rw [hrank, hheight, hwidth, hfree, hiterations]

end

end EquationSystem

end SketchSolver
