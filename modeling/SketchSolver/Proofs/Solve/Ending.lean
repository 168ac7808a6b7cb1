import SketchSolver.Proofs.Solve.Alone
import SketchSolver.Proofs.Solve.Iteration
import SketchSolver.Proofs.Solve.Merging
import SketchSolver.Solve.Solver

/-!
# How a solve ends

A solve of a group ends in one of seven ways, listed by `SolveEnd`. Two of them refuse it before
the system is written and one while its redundancy is diagnosed, three report that no solution was
found, and one writes the solution to the sketch. `solveEnd_solveWith` says that there is no other
way, whatever the factorisations return.
-/

namespace SketchSolver

variable {R : Type} [Arith R]

/-- The system with the values that its iteration ends with. -/
def EquationSystem.iterated (la : LinearAlgebra R) (config : Config R) (sys : EquationSystem R) :
    EquationSystem R :=
  sys.store sys.newton.unknowns (sys.newton.iterate la config sys).x

/-- The values of the unknowns that an iteration ends with assign the final value to each
parameter. -/
theorem EquationSystem.assignment_iterated (sys : EquationSystem R) (la : LinearAlgebra R)
    (config : Config R) :
    sys.newton.assignment (sys.iterated la config) (sys.newton.iterate la config sys).x =
      (sys.iterated la config).value := by
  funext p
  rw [NewtonSystem.assignment_eq_lookup (sorted_newton_unknowns sys)]
  cases hl : (List.zip sys.newton.unknowns (sys.newton.iterate la config sys).x).lookup p with
  | none => rfl
  | some x =>
    obtain ⟨before, after, hzip, _⟩ := List.lookup_eq_some_iff.mp hl
    have hmem : (p, x) ∈ List.zip sys.newton.unknowns (sys.newton.iterate la config sys).x :=
      hzip ▸ List.mem_append_right before List.mem_cons_self
    have hunmerged := ((EquationSystem.mem_newton_unknowns sys).mp (List.of_mem_zip hmem).1).2.1
    have hnone : (sys.iterated la config).substituted.find? p = none :=
      Table.contains_eq_false_iff.mp hunmerged
    rw [EquationSystem.value_of_none hnone, EquationSystem.iterated,
      EquationSystem.find?_store (EquationSystem.nodup_newton_unknowns sys), hl, Option.some_or,
      Option.getD_some, Option.getD_some]

/-- The rank of the equations that are iterated, where the iteration ends. -/
def EquationSystem.finalRank (la : LinearAlgebra R) (config : Config R) (sys : EquationSystem R) :
    Nat :=
  la.rank (sys.newton.jacobian (sys.iterated la config) (sys.newton.iterate la config sys).x)
    config.rankTolerance

/-- The number of degrees of freedom where the iteration ends. -/
def EquationSystem.finalDof (la : LinearAlgebra R) (config : Config R) (sys : EquationSystem R) :
    Nat := sys.newton.width - sys.finalRank la config

/-- The constraints that repeat others where the iteration ends. -/
def EquationSystem.finalDiagnosis (la : LinearAlgebra R) (config : Config R)
    (sys : EquationSystem R) (s : Sketch R) : Outcome R (List ConstraintId) :=
  s.diagnosis la config (sys.iterated la config) (sys.finalRank la config != sys.newton.height)

/-- The report where the iteration ends and succeeds, given the constraints that repeat others. -/
def EquationSystem.finalReport (la : LinearAlgebra R) (config : Config R)
    (sys : EquationSystem R) (bad : List ConstraintId) : SolveReport R :=
  .success la config (sys.iterated la config) sys.newton
    (sys.newton.residuals sys (sys.newton.iterate la config sys).x)
    (sys.newton.iterate la config sys) (sys.finalRank la config) bad

/-- Whether a system is larger than the configuration allows. -/
def EquationSystem.Oversized (config : Config R) (sys : EquationSystem R) : Prop :=
  config.maxUnknowns < sys.referencedUnknowns.length ∨
    config.maxUnknowns < sys.equations.length

/-- The systems that a solve of a group iterates: those of the group that are not too large, after
merging and after all equations in one unknown are solved. -/
structure Prepared (config : Config R) (s : Sketch R) (g : GroupId)
    (dragged : HandleSet ParamId) (start fixed : EquationSystem R) : Prop where
  /-- The system that is written. -/
  assembled : s.assemble g dragged = .ok start
  /-- It is not too large. -/
  fits : ¬ start.Oversized config
  /-- All equations in one unknown are solved. -/
  alone : start.substitute.solveAlone config.tolerance config.maxIterations = (fixed, none)

namespace Prepared

variable {config : Config R} {s : Sketch R} {g : GroupId} {dragged : HandleSet ParamId}
  {start fixed : EquationSystem R}

/-- A solve iterates one system only. -/
theorem unique {start' fixed' : EquationSystem R} (h : Prepared config s g dragged start fixed)
    (h' : Prepared config s g dragged start' fixed') : start' = start ∧ fixed' = fixed := by
  cases h.assembled.symm.trans h'.assembled
  cases h.alone.symm.trans h'.alone
  exact ⟨rfl, rfl⟩

/-- The written system is untouched. -/
theorem untouched (h : Prepared config s g dragged start fixed) : start.Untouched :=
  Sketch.untouched_assembleExcluding h.assembled

/-- The written system is merged. -/
theorem merged (h : Prepared config s g dragged start fixed) :
    start.MergedFrom start.substitute :=
  EquationSystem.mergedFrom_substitute h.untouched

/-- No unknown of the merged system has been fixed yet. -/
theorem solvedAlone_substitute (h : Prepared config s g dragged start fixed) :
    start.substitute.solvedAlone = .empty :=
  h.merged.solvedAlone.trans h.untouched.solvedAlone

/-- Unknowns of the merged system are fixed. -/
theorem fixedFrom (h : Prepared config s g dragged start fixed) :
    start.substitute.FixedFrom config.tolerance fixed := by
  have hfixed := EquationSystem.fixedFrom_solveAlone h.solvedAlone_substitute config.tolerance
    config.maxIterations
  rwa [h.alone] at hfixed

/-- The system is that of the group. -/
theorem group (h : Prepared config s g dragged start fixed) : fixed.group = g :=
  h.fixedFrom.group.trans (h.merged.group.trans (Sketch.group_of_assemble h.assembled))

/-- An equation that was assembled is still there with merged unknowns renamed. -/
theorem exists_successor (h : Prepared config s g dragged start fixed) {old : Equation R}
    (hold : old ∈ start.equations) :
    ∃ eq ∈ fixed.equations, eq.expr = old.expr.substitute fixed.substituted := by
  obtain ⟨merged, hmerged, he⟩ := h.merged.exists_successor hold
  have hmem : merged.expr ∈ fixed.equations.map Equation.expr := by
    rw [h.fixedFrom.exprs]
    exact List.mem_map.mpr ⟨merged, hmerged, rfl⟩
  obtain ⟨eq, heq, hexpr⟩ := List.mem_map.mp hmem
  exact ⟨eq, heq, by rw [hexpr, he, h.fixedFrom.substituted]⟩

/-- An equation comes from one that was assembled, with merged unknowns renamed. -/
theorem exists_origin (h : Prepared config s g dragged start fixed) {eq : Equation R}
    (heq : eq ∈ fixed.equations) :
    ∃ old ∈ start.equations, eq.expr = old.expr.substitute fixed.substituted := by
  have hmem : eq.expr ∈ start.substitute.equations.map Equation.expr := by
    rw [← h.fixedFrom.exprs]
    exact List.mem_map.mpr ⟨eq, heq, rfl⟩
  obtain ⟨merged, hmerged, hexpr⟩ := List.mem_map.mp hmem
  obtain ⟨old, hold, he⟩ := h.merged.exists_origin hmerged
  exact ⟨old, hold, by rw [← hexpr, he, h.fixedFrom.substituted]⟩

/-- The final system has the unknowns that were assembled. -/
theorem contains_iterated (h : Prepared config s g dragged start fixed) (la : LinearAlgebra R)
    (p : ParamId) :
    (fixed.iterated la config).values.contains p = start.values.contains p := by
  have hunknowns : ∀ q ∈ fixed.newton.unknowns, fixed.values.contains q = true := fun q hq ↦
    ((EquationSystem.mem_newton_unknowns fixed).mp hq).1
  rw [EquationSystem.iterated,
    EquationSystem.contains_store (EquationSystem.nodup_newton_unknowns fixed) hunknowns,
    h.fixedFrom.contains, h.merged.values]

/-- The solved value of an unknown is its final value. -/
theorem find?_resolvedValues (h : Prepared config s g dragged start fixed) (p : ParamId) :
    (fixed.iterated la config).resolvedValues.find? p =
      if start.values.contains p then some ((fixed.iterated la config).value p) else none := by
  rw [EquationSystem.resolvedValues, Table.find?_map, ← h.contains_iterated la, Table.contains]
  cases (fixed.iterated la config).values.find? p <;> rfl

end Prepared

instance (config : Config R) (sys : EquationSystem R) : Decidable (sys.Oversized config) :=
  inferInstanceAs (Decidable (_ ∨ _))

/-- The system that a solve of a group iterates, if it gets as far as that. -/
def Sketch.prepared? (config : Config R) (s : Sketch R) (g : GroupId)
    (dragged : HandleSet ParamId) : Option (EquationSystem R) :=
  match s.assemble g dragged with
  | .error _ => none
  | .ok start =>
    if start.Oversized config then none
    else
      match start.substitute.solveAlone config.tolerance config.maxIterations with
      | (fixed, none) => some fixed
      | (_, some _) => none

/-- The system that a solve iterates can be computed. -/
theorem Sketch.prepared?_eq_some_iff {config : Config R} {s : Sketch R} {g : GroupId}
    {dragged : HandleSet ParamId} {fixed : EquationSystem R} :
    s.prepared? config g dragged = some fixed ↔
      ∃ start, Prepared config s g dragged start fixed := by
  constructor
  · intro h
    unfold prepared? at h
    split at h
    · cases h
    · next start ha =>
      split at h
      · cases h
      · next hfits =>
        split at h
        · next halone =>
          cases h
          exact ⟨start, ha, hfits, halone⟩
        · cases h
  · rintro ⟨start, hp⟩
    unfold prepared?
    rw [hp.assembled]
    dsimp only
    rw [if_neg hp.fits, hp.alone]

/-- The ways in which a solve of a group ends, with what it reports and the sketch it leaves. -/
inductive SolveEnd (la : LinearAlgebra R) (config : Config R) (s : Sketch R) (g : GroupId)
    (dragged : HandleSet ParamId) :
    EStateM.Result (SketchError R) (Sketch R) (SolveReport R) → Prop
  /-- The group does not exist. -/
  | missing {e : SketchError R} (hg : s.group g = .error e) :
    SolveEnd la config s g dragged (.error e s)
  /-- An equation cannot be written. -/
  | unwritten {e : SketchError R} (ha : s.assemble g dragged = .error e) :
    SolveEnd la config s g dragged (.error e s)
  /-- The system is larger than the configuration allows. -/
  | oversized {start : EquationSystem R} (ha : s.assemble g dragged = .ok start)
    (hsize : start.Oversized config) :
    SolveEnd la config s g dragged (.ok (.early .tooManyUnknowns []) s)
  /-- An equation in one unknown cannot be solved. -/
  | stuck {start fixed : EquationSystem R} {i : Nat} {bad : List ConstraintId}
    (ha : s.assemble g dragged = .ok start)
    (halone : start.substitute.solveAlone config.tolerance config.maxIterations = (fixed, some i))
    (hbad : bad = if config.findBadConstraints then fixed.constraintAt i else []) :
    SolveEnd la config s g dragged (.ok (.early .didntConverge bad) s)
  /-- The iteration fails. -/
  | diverged {start fixed : EquationSystem R} {independent : Bool}
    (hp : Prepared config s g dragged start fixed)
    (hfailed : (fixed.newton.iterate la config fixed).converged = false) :
    SolveEnd la config s g dragged
      (.ok (.failure config fixed fixed.newton
        (fixed.newton.residuals fixed (fixed.newton.iterate la config fixed).x) independent
        (fixed.newton.iterate la config fixed)) s)
  /-- The iteration succeeds, but the constraints that repeat others cannot be named. -/
  | undiagnosed {start fixed : EquationSystem R} {e : SketchError R}
    (hp : Prepared config s g dragged start fixed)
    (hconverged : (fixed.newton.iterate la config fixed).converged = true)
    (hdiagnosis : fixed.finalDiagnosis la config s = .error e) :
    SolveEnd la config s g dragged (.error e s)
  /-- The iteration succeeds and the solved values are written. -/
  | solved {start fixed : EquationSystem R} {bad : List ConstraintId}
    (hp : Prepared config s g dragged start fixed)
    (hconverged : (fixed.newton.iterate la config fixed).converged = true)
    (hdiagnosis : fixed.finalDiagnosis la config s = .ok bad) :
    SolveEnd la config s g dragged
      (.ok (fixed.finalReport la config bad)
        (s.commit fixed.group (fixed.iterated la config).resolvedValues
          (fixed.finalDof la config)))

namespace Operation

variable {α β : Type}

omit [Arith R] in
/-- An operation that first asks something goes on with the answer. -/
theorem run_consult_bind_of_ok {f : Sketch R → Outcome R α} {s : Sketch R} {a : α}
    (h : f s = .ok a) (k : α → Operation R β) : (consult f >>= k).run s = (k a).run s := by
  rw [EStateM.run_bind, run_consult, h]

omit [Arith R] in
/-- An operation that first asks something is refused if the question is. -/
theorem run_consult_bind_of_error {f : Sketch R → Outcome R α} {s : Sketch R}
    {e : SketchError R} (h : f s = .error e) (k : α → Operation R β) :
    (consult f >>= k).run s = .error e s := by
  rw [EStateM.run_bind, run_consult, h]

end Operation

section

variable {la : LinearAlgebra R} {config : Config R} {s : Sketch R} {g : GroupId}
  {dragged : HandleSet ParamId} {start fixed : EquationSystem R}

private theorem run_finish_of_ok {sys : EquationSystem R} {nw : NewtonSystem R}
    {residuals : List R} {outcome : Iteration R} {rank : Nat} {bad : List ConstraintId}
    (hrank : rank = la.rank (nw.jacobian sys outcome.x) config.rankTolerance)
    (h : s.diagnosis la config sys (rank != nw.height) = .ok bad) :
    (Operation.finish la config sys nw residuals outcome).run s =
      .ok (.success la config sys nw residuals outcome rank bad)
        (s.commit sys.group sys.resolvedValues (nw.width - rank)) := by
  subst hrank
  unfold Operation.finish
  dsimp only
  rw [Operation.run_consult_bind_of_ok h]
  rfl

private theorem run_finish_of_error {sys : EquationSystem R} {nw : NewtonSystem R}
    {residuals : List R} {outcome : Iteration R} {rank : Nat} {e : SketchError R}
    (hrank : rank = la.rank (nw.jacobian sys outcome.x) config.rankTolerance)
    (h : s.diagnosis la config sys (rank != nw.height) = .error e) :
    (Operation.finish la config sys nw residuals outcome).run s = .error e s := by
  subst hrank
  unfold Operation.finish
  dsimp only
  rw [Operation.run_consult_bind_of_error h]

private theorem solveEnd_finish (hp : Prepared config s g dragged start fixed)
    (hconverged : (fixed.newton.iterate la config fixed).converged = true) :
    SolveEnd la config s g dragged
      ((Operation.finish la config (fixed.iterated la config) fixed.newton
        (fixed.newton.residuals fixed (fixed.newton.iterate la config fixed).x)
        (fixed.newton.iterate la config fixed)).run s) := by
  have hrank : fixed.finalRank la config = la.rank (fixed.newton.jacobian
    (fixed.iterated la config) (fixed.newton.iterate la config fixed).x) config.rankTolerance := rfl
  cases hdiagnosis : fixed.finalDiagnosis la config s with
  | ok bad =>
    rw [run_finish_of_ok hrank hdiagnosis]
    exact .solved hp hconverged hdiagnosis
  | error e =>
    rw [run_finish_of_error hrank hdiagnosis]
    exact .undiagnosed hp hconverged hdiagnosis

private theorem solveEnd_solveNewton (hp : Prepared config s g dragged start fixed) :
    SolveEnd la config s g dragged ((Operation.solveNewton la config fixed).run s) := by
  unfold Operation.solveNewton
  dsimp only
  split
  · next hconverged => exact solveEnd_finish hp hconverged
  · next hfailed => exact .diverged hp (Bool.eq_false_iff.mpr hfailed)

/-- A solve succeeds if the iteration does and its redundancy can be diagnosed. -/
theorem run_solveWith_of_prepared {st : GroupState} {bad : List ConstraintId}
    (hg : s.group g = .ok st) (hp : Prepared config s g dragged start fixed)
    (hconverged : (fixed.newton.iterate la config fixed).converged = true)
    (hdiagnosis : fixed.finalDiagnosis la config s = .ok bad) :
    (Operation.solveWith la config g dragged).run s =
      .ok (fixed.finalReport la config bad)
        (s.commit fixed.group (fixed.iterated la config).resolvedValues
          (fixed.finalDof la config)) := by
  have hfits : ¬ (config.maxUnknowns < start.referencedUnknowns.length ∨
      config.maxUnknowns < start.equations.length) := hp.fits
  unfold Operation.solveWith
  rw [Operation.run_consult_bind_of_ok hg, Operation.run_consult_bind_of_ok hp.assembled,
    if_neg hfits, hp.alone]
  dsimp only
  unfold Operation.solveNewton
  dsimp only
  rw [if_pos hconverged]
  exact run_finish_of_ok rfl hdiagnosis

/-- A solve of a group ends in one of the ways that are listed. -/
theorem solveEnd_solveWith (la : LinearAlgebra R) (config : Config R) (s : Sketch R) (g : GroupId)
    (dragged : HandleSet ParamId) :
    SolveEnd la config s g dragged ((Operation.solveWith la config g dragged).run s) := by
  unfold Operation.solveWith
  cases hg : s.group g with
  | error e =>
    rw [Operation.run_consult_bind_of_error hg]
    exact .missing hg
  | ok st =>
    rw [Operation.run_consult_bind_of_ok hg]
    cases ha : s.assemble g dragged with
    | error e =>
      rw [Operation.run_consult_bind_of_error ha]
      exact .unwritten ha
    | ok start =>
      rw [Operation.run_consult_bind_of_ok ha]
      split
      · next hsize => exact .oversized ha hsize
      · next hfits =>
        dsimp only
        split
        · next i hi => exact .stuck ha (Prod.ext rfl hi) rfl
        · next hnone => exact solveEnd_solveNewton ⟨ha, hfits, Prod.ext rfl hnone⟩

end

/-! ## Reports -/

/-- A failed iteration is no success and leaves no degrees of freedom to report. -/
theorem isOk_failure {config : Config R} {sys : EquationSystem R} {nw : NewtonSystem R}
    {residuals : List R} {independent : Bool} {outcome : Iteration R} :
    (SolveReport.failure config sys nw residuals independent outcome).status.isOk = false := by
  unfold SolveReport.failure
  dsimp only
  split <;> rfl

/-- A successful iteration is a success whether or not equations repeat others. -/
theorem isOk_finalReport {la : LinearAlgebra R} {config : Config R} {sys : EquationSystem R}
    {bad : List ConstraintId} : (sys.finalReport la config bad).status.isOk = true := by
  unfold EquationSystem.finalReport SolveReport.success
  dsimp only
  split <;> rfl

/-- A successful iteration is one without superfluous equations if the rank is full. -/
theorem status_finalReport_eq_okay_iff {la : LinearAlgebra R} {config : Config R}
    {sys : EquationSystem R} {bad : List ConstraintId} :
    (sys.finalReport la config bad).status = .okay ↔
      sys.finalRank la config = sys.newton.height := by
  change (if sys.finalRank la config == sys.newton.height then SolveStatus.okay
    else .redundantOkay) = .okay ↔ _
  cases h : sys.finalRank la config == sys.newton.height with
  | true => exact iff_of_true rfl (beq_iff_eq.mp h)
  | false => exact iff_of_false (fun he ↦ nomatch he) (beq_eq_false_iff_ne.mp h)

/-- A successful solve has iterated a system to a solution and diagnosed it, reports that and has
written the solution. -/
theorem exists_finalDiagnosis_of_isOk {la : LinearAlgebra R} {config : Config R} {s t : Sketch R}
    {g : GroupId} {dragged : HandleSet ParamId} {r : SolveReport R}
    (h : (Operation.solveWith la config g dragged).run s = .ok r t) (hok : r.status.isOk = true) :
    ∃ start fixed bad, Prepared config s g dragged start fixed ∧
      (fixed.newton.iterate la config fixed).converged = true ∧
      fixed.finalDiagnosis la config s = .ok bad ∧ r = fixed.finalReport la config bad ∧
      t = s.commit g (fixed.iterated la config).resolvedValues (fixed.finalDof la config) := by
  have hend := solveEnd_solveWith la config s g dragged
  rw [h] at hend
  cases hend with
  | oversized => cases hok
  | stuck => cases hok
  | diverged =>
    rw [isOk_failure] at hok
    cases hok
  | @solved start fixed bad hp hconverged hdiagnosis =>
    rw [hp.group]
    exact ⟨start, fixed, bad, hp, hconverged, hdiagnosis, rfl, rfl⟩

/-- A successful solve reports what it iterated to a solution, and has written the solution. -/
theorem exists_finalReport_of_isOk {la : LinearAlgebra R} {config : Config R} {s t : Sketch R}
    {g : GroupId} {dragged : HandleSet ParamId} {r : SolveReport R}
    (h : (Operation.solveWith la config g dragged).run s = .ok r t) (hok : r.status.isOk = true) :
    ∃ start fixed bad, Prepared config s g dragged start fixed ∧
      (fixed.newton.iterate la config fixed).converged = true ∧
      r = fixed.finalReport la config bad ∧
      t = s.commit g (fixed.iterated la config).resolvedValues (fixed.finalDof la config) := by
  obtain ⟨start, fixed, bad, hp, hconverged, _, hreport, ht⟩ := exists_finalDiagnosis_of_isOk h hok
  exact ⟨start, fixed, bad, hp, hconverged, hreport, ht⟩

/-- A successful solve has iterated a system to a solution and written the solution. -/
theorem exists_prepared_of_isOk {la : LinearAlgebra R} {config : Config R} {s t : Sketch R}
    {g : GroupId} {dragged : HandleSet ParamId} {r : SolveReport R}
    (h : (Operation.solveWith la config g dragged).run s = .ok r t) (hok : r.status.isOk = true) :
    ∃ start fixed, Prepared config s g dragged start fixed ∧
      (fixed.newton.iterate la config fixed).converged = true ∧
      r.dof = some (fixed.finalDof la config) ∧
      t = s.commit g (fixed.iterated la config).resolvedValues (fixed.finalDof la config) := by
  obtain ⟨start, fixed, bad, hp, hconverged, rfl, ht⟩ := exists_finalReport_of_isOk h hok
  exact ⟨start, fixed, hp, hconverged, rfl, ht⟩

/-! ## Dragged parameters -/

section

omit [Arith R]

private theorem run_requireParams_cons (p : ParamId) (ps : List ParamId) (s : Sketch R) :
    (Operation.requireParams (p :: ps)).run s =
      match s.params.find? p with
      | some _ => (Operation.requireParams ps).run s
      | none => .error (.paramNotFound p) s := by
  have hcons : (Operation.requireParams (p :: ps) : Operation R Unit) =
      (do
        let _ ← Operation.consult fun s ↦ s.param p
        return ()) >>= fun _ ↦ Operation.requireParams ps := rfl
  rw [hcons, EStateM.run_bind, EStateM.run_bind, Operation.run_consult, Sketch.param]
  cases s.params.find? p <;> rfl

/-- Asking for parameters leaves the sketch alone and is refused at the first that is missing. -/
theorem run_requireParams (ps : List ParamId) (s : Sketch R) :
    (Operation.requireParams ps).run s =
      match ps.find? fun p ↦ !s.params.contains p with
      | none => .ok () s
      | some p => .error (.paramNotFound p) s := by
  induction ps with
  | nil => rfl
  | cons p ps ih =>
    rw [run_requireParams_cons, ih, List.find?_cons, Table.contains]
    cases s.params.find? p <;> rfl

/-- A solve with dragged parameters is a solve with the settings of the sketch, if they all
exist. -/
theorem run_solveDragged [Arith R] (la : LinearAlgebra R) (s : Sketch R) (g : GroupId)
    (ps : List ParamId) :
    (Operation.solveDragged la g ps).run s =
      match ps.find? fun p ↦ !s.params.contains p with
      | none => (Operation.solveWith la s.config g (HandleSet.ofHandles ps)).run s
      | some p => .error (.paramNotFound p) s := by
  unfold Operation.solveDragged
  rw [EStateM.run_bind, run_requireParams]
  cases ps.find? fun p ↦ !s.params.contains p with
  | none =>
    dsimp only
    rw [EStateM.run_bind, EStateM.run_get]
  | some p => rfl

end

end SketchSolver
