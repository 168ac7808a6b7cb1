import SketchSolver.Proofs.Exact.Motion
import SketchSolver.Proofs.Exact.Undefined
import SketchSolver.Proofs.Solve.Range
import SketchSolver.Proofs.Solve.Solutions

/-!
# Parameters that no equation mentions

A parameter that occurs in no equation is still one of the unknowns that are iterated. It is neither
merged nor fixed by an equation of its own, its column of the matrix of partial derivatives is zero,
and so is its part of every step, whichever factorisation the step is found with. It is written back
with the others, and has the value then that it had before.
-/

namespace SketchSolver

variable {R : Type} [Arith R]

/-! ## Exact arithmetic -/

/-- Scalars whose zero is exact. -/
class ExactZero (R : Type) [Arith R] : Prop where
  /-- A sum is within range only if its terms are. -/
  isFinite_of_add {a b : R} : Arith.isFinite (a + b) = true →
    Arith.isFinite a = true ∧ Arith.isFinite b = true
  /-- A product is within range only if its factors are. -/
  isFinite_of_mul {a b : R} : Arith.isFinite (a * b) = true →
    Arith.isFinite a = true ∧ Arith.isFinite b = true
  /-- Zero times a number is zero. -/
  zero_mul {a : R} : Arith.isFinite a = true → 0.0 * a = 0.0
  /-- Zero and zero is zero. -/
  zero_add_zero : (0.0 + 0.0 : R) = 0.0
  /-- A value less zero times another is the value, unless that is undefined. -/
  sub_zero_mul {x d : R} : Arith.isNaN (x - 0.0 * d) = false → x - 0.0 * d = x

/-- The zero of the real numbers is exact. -/
instance : ExactZero ℝ where
  isFinite_of_add _ := ⟨rfl, rfl⟩
  isFinite_of_mul _ := ⟨rfl, rfl⟩
  zero_mul _ := by rw [Arith.real_zero, zero_mul]
  zero_add_zero := by rw [Arith.real_zero, add_zero]
  sub_zero_mul _ := by rw [Arith.real_zero, zero_mul, sub_zero]

/-- The zero of the real numbers with undefined results is exact. -/
instance : ExactZero PartialReal where
  isFinite_of_add {a b} h := by
    cases a <;> cases b <;> first | exact ⟨rfl, rfl⟩ | cases h
  isFinite_of_mul {a b} h := by
    cases a <;> cases b <;> first | exact ⟨rfl, rfl⟩ | cases h
  zero_mul {a} h := by
    cases a with
    | undefined => cases h
    | value x => rw [PartialReal.ofScientific_eq, Arith.real_zero, PartialReal.value_mul, zero_mul]
  zero_add_zero := by
    rw [PartialReal.ofScientific_eq, Arith.real_zero, PartialReal.value_add, add_zero]
  sub_zero_mul {x d} h := by
    cases x with
    | undefined => cases h
    | value x =>
      cases d with
      | undefined => cases h
      | value d =>
        rw [PartialReal.ofScientific_eq, Arith.real_zero, PartialReal.value_mul, zero_mul,
          PartialReal.value_sub, sub_zero]

/-! ## Steps -/

/-- Pseudo-inverses whose results are combinations of the rows of the matrix. -/
def LinearAlgebra.SolvesInRowSpace (la : LinearAlgebra R) : Prop :=
  ∀ a bound f, ∃ z, la.pseudoSolve a bound f = a.transpose.apply z

section

variable [ExactZero R] {as bs : List R} {s : R}

/-- A sum of products is within range only if what it starts from is. -/
theorem isFinite_of_isFinite_addProducts (h : Arith.isFinite (addProducts s as bs) = true) :
    Arith.isFinite s = true := by
  induction as generalizing s bs with
  | nil => exact h
  | cons a as ih =>
    cases bs with
    | nil => exact h
    | cons b bs => exact (ExactZero.isFinite_of_add (ih h)).1

/-- The products of zeros with numbers add up to zero. -/
theorem addProducts_zero (hzero : ∀ a ∈ as, a = 0.0)
    (h : Arith.isFinite (addProducts 0.0 as bs) = true) : addProducts 0.0 as bs = 0.0 := by
  induction as generalizing bs with
  | nil => rfl
  | cons a as ih =>
    cases bs with
    | nil => rfl
    | cons b bs =>
      obtain ⟨rfl, htail⟩ := List.forall_mem_cons.mp hzero
      rw [addProducts] at h ⊢
      have hproduct := (ExactZero.isFinite_of_add (isFinite_of_isFinite_addProducts h)).2
      rw [ExactZero.zero_mul (ExactZero.isFinite_of_mul hproduct).2,
        ExactZero.zero_add_zero] at h ⊢
      exact ih htail h

omit [ExactZero R] in
/-- A step is a combination of the rows of the scaled matrix, scaled once more, and within range. -/
theorem exists_of_leastSquaresStep? {la : LinearAlgebra R} (hla : la.SolvesInRowSpace)
    {a : DenseMatrix R} {f scale step : List R} (h : la.leastSquaresStep? a f scale = some step) :
    ∃ z, step = List.zipWith (· * ·) ((a.scaleColumns scale).transpose.apply z) scale ∧
      ∀ x ∈ step, Arith.isFinite x = true := by
  have hchecked : ∀ x : List R, (if x.all Arith.isFinite = true then some x else none) = some step →
      step = x ∧ ∀ y ∈ step, Arith.isFinite y = true := by
    intro x hx
    split at hx
    · next hfinite =>
      obtain rfl := Option.some.inj hx
      exact ⟨rfl, List.all_eq_true.mp hfinite⟩
    · cases hx
  unfold LinearAlgebra.leastSquaresStep? at h
  dsimp only at h
  split at h
  · exact ⟨_, hchecked _ h⟩
  · obtain ⟨z, hz⟩ := hla (a.scaleColumns scale) (largest (la.singularValues
      (a.scaleColumns scale)) * 1e-12) f
    rw [hz] at h
    exact ⟨z, hchecked _ h⟩

/-- Where a column of the matrix is zero, a step is. -/
theorem getElem?_leastSquaresStep? {la : LinearAlgebra R} (hla : la.SolvesInRowSpace)
    {a : DenseMatrix R} {f scale step : List R} {j : Nat} (hcols : j < a.cols)
    (hscale : j < scale.length) (hzero : ∀ row ∈ a.rows, row[j]? = some 0.0)
    (h : la.leastSquaresStep? a f scale = some step) : step[j]? = some 0.0 := by
  obtain ⟨z, hstep, hfinite⟩ := exists_of_leastSquaresStep? hla h
  let column := (a.scaleColumns scale).rows.filterMap (·[j]?)
  have hcolumn : ∀ c ∈ column, c = 0.0 * scale[j] := by
    intro c hc
    obtain ⟨scaled, hscaled, hentry⟩ := List.mem_filterMap.mp hc
    obtain ⟨row, hrow, rfl⟩ := List.mem_map.mp hscaled
    rw [List.getElem?_zipWith, hzero row hrow, List.getElem?_eq_getElem hscale] at hentry
    exact (Option.some.inj hentry).symm
  have hvalue : step[j]? = some (dotProduct column z * scale[j]) := by
    have happly : ((a.scaleColumns scale).transpose.apply z)[j]? = some (dotProduct column z) := by
      have hplace : j < (a.scaleColumns scale).cols := hcols
      unfold DenseMatrix.apply DenseMatrix.transpose DenseMatrix.columns
      rw [List.getElem?_map, List.getElem?_map, List.getElem?_range hplace]
      rfl
    rw [hstep, List.getElem?_zipWith, happly, List.getElem?_eq_getElem hscale]
  obtain ⟨hproduct, hscaled⟩ :=
    ExactZero.isFinite_of_mul (hfinite _ (List.mem_of_getElem? hvalue))
  have hzeros : ∀ c ∈ column, c = 0.0 := fun c hc ↦
    (hcolumn c hc).trans (ExactZero.zero_mul hscaled)
  rw [hvalue, show dotProduct column z = 0.0 from addProducts_zero hzeros hproduct,
    ExactZero.zero_mul hscaled]

end

/-! ## Columns -/

namespace EquationSystem

/-- No equation of a system mentions a parameter. -/
def Unmentioned (sys : EquationSystem R) (p : ParamId) : Prop :=
  ∀ eq ∈ sys.equations, p ∉ eq.expr.params

variable {sys : EquationSystem R} {p : ParamId} {j : Nat}

private theorem exists_mem_params_of_mem_partials {unknowns : List ParamId} {e : Expr R}
    {d : Nat × Expr R} (h : d ∈ e.partials unknowns) :
    ∃ q ∈ e.params, unknowns[d.1]? = some q := by
  obtain ⟨hd, _⟩ := List.mem_filter.mp h
  obtain ⟨c, hc, rfl⟩ := List.mem_map.mp hd
  obtain ⟨q, hq, hplace⟩ := List.mem_filterMap.mp hc
  obtain ⟨i, hi, rfl⟩ := Option.map_eq_some_iff.mp hplace
  obtain ⟨hlt, hget, _⟩ := List.idxOf?_eq_some_iff.mp hi
  exact ⟨q, Expr.mem_keys_usedParams.mp hq, List.getElem?_eq_some_iff.mpr ⟨hlt, hget⟩⟩

/-- The column of a parameter that is not mentioned is zero. -/
theorem Unmentioned.getElem?_jacobian (h : sys.Unmentioned p)
    (hj : sys.newton.unknowns[j]? = some p) (current : EquationSystem R) (x : List R) :
    ∀ row ∈ (sys.newton.jacobian current x).rows, row[j]? = some 0.0 := by
  intro row hrow
  obtain ⟨entries, hentries, rfl⟩ := List.mem_map.mp hrow
  obtain ⟨⟨eq, i⟩, heq, rfl⟩ := List.mem_map.mp hentries
  have hmem : eq ∈ sys.equations :=
    List.mem_of_getElem? (List.mem_zipIdx_iff_getElem?.mp (List.mem_filter.mp heq).1)
  have hlookup : ((eq.expr.partials sys.newton.unknowns).map fun d ↦
      (d.1, d.2.eval (sys.newton.assignment current x))).lookup j = none := by
    rw [List.lookup_eq_none_iff]
    intro entry hentry
    obtain ⟨d, hd, rfl⟩ := List.mem_map.mp hentry
    obtain ⟨q, hq, hplace⟩ := exists_mem_params_of_mem_partials hd
    rw [bne_iff_ne]
    rintro rfl
    obtain rfl := Option.some.inj (hj.symm.trans hplace)
    exact h eq hmem hq
  have hlt : j < sys.newton.width := (List.getElem?_eq_some_iff.mp hj).1
  unfold NewtonSystem.denseRow
  rw [List.getElem?_map, List.getElem?_range hlt, Option.map_some]
  exact congrArg (fun y ↦ some (y.getD 0.0)) hlookup

variable [ExactZero R] {la : LinearAlgebra R} {config : Config R}

/-- A step leaves the value of a parameter that is not mentioned alone, unless it makes it
undefined. -/
theorem Unmentioned.getElem?_takeStep (h : sys.Unmentioned p) (hla : la.SolvesInRowSpace)
    (hj : sys.newton.unknowns[j]? = some p) {x f step : List R} {v : R} (hx : x[j]? = some v)
    (hstep : la.leastSquaresStep? (sys.newton.jacobian sys x) f
      (sys.newton.scale config.draggedScale) = some step)
    (hrange : outOfRange (takeStep config.damping x step) = false) :
    (takeStep config.damping x step)[j]? = some v := by
  have hlt : j < sys.newton.unknowns.length := (List.getElem?_eq_some_iff.mp hj).1
  have hscale : j < (sys.newton.scale config.draggedScale).length := by
    simpa [NewtonSystem.scale, newton] using hlt
  have hzero := getElem?_leastSquaresStep? hla hlt hscale (h.getElem?_jacobian hj sys x) hstep
  have hvalue : (takeStep config.damping x step)[j]? = some (v - 0.0 * config.damping) := by
    unfold takeStep
    rw [List.getElem?_zipWith, hx, hzero]
  have hdefined := List.any_eq_false.mp hrange _ (List.mem_of_getElem? hvalue)
  rw [Bool.not_eq_true, Bool.or_eq_false_iff] at hdefined
  rw [hvalue, ExactZero.sub_zero_mul hdefined.1]

/-- An iteration that succeeds leaves the value of a parameter that is not mentioned alone. -/
theorem Unmentioned.getElem?_iterateFrom (h : sys.Unmentioned p) (hla : la.SolvesInRowSpace)
    (hj : sys.newton.unknowns[j]? = some p) {left taken : Nat} {x history : List R} {v : R}
    (hx : x[j]? = some v)
    (hconverged : (iterateFrom la config sys.newton sys left taken x history).converged = true) :
    (iterateFrom la config sys.newton sys left taken x history).x[j]? = some v := by
  fun_induction iterateFrom la config sys.newton sys left taken x history with
  | case1 => exact hx
  | case2 => cases hconverged
  | case3 => cases hconverged
  | case4 => cases hconverged
  | case5 => cases hconverged
  | case6 => cases hconverged
  | case7 _ _ _ _ _ _ _ _ _ hstep _ _ hrange ih =>
    rw [Bool.not_eq_true, Bool.or_eq_false_iff] at hrange
    exact ih (h.getElem?_takeStep hla hj hx hstep hrange.1) hconverged

/-- A parameter that is not mentioned has its working value where an iteration succeeds. -/
theorem Unmentioned.value_iterated (h : sys.Unmentioned p) (hla : la.SolvesInRowSpace)
    (hp : p ∈ sys.newton.unknowns)
    (hconverged : (sys.newton.iterate la config sys).converged = true) :
    (sys.iterated la config).value p = sys.value p := by
  obtain ⟨j, hj⟩ := List.mem_iff_getElem?.mp hp
  have hinitial : (sys.newton.initial sys)[j]? = some (sys.value p) := by
    rw [NewtonSystem.initial, List.getElem?_map, hj, Option.map_some]
  have hfinal : (sys.newton.iterate la config sys).x[j]? = some (sys.value p) :=
    h.getElem?_iterateFrom hla hj hinitial hconverged
  have hcolumn := (NewtonSystem.column?_eq_some_iff (sorted_newton_unknowns sys)).mpr hj
  rw [← assignment_iterated, NewtonSystem.assignment, hcolumn, Option.bind_some, hfinal]

end EquationSystem

/-! ## Solves -/

namespace Prepared

variable {la : LinearAlgebra R} {config : Config R} {s : Sketch R} {g : GroupId}
  {dragged : HandleSet ParamId} {start fixed : EquationSystem R} {p : ParamId}

/-- A parameter that is not mentioned is not merged, and no other one is renamed to it. -/
theorem renamed_eq_iff_of_unmentioned (h : Prepared config s g dragged start fixed)
    (hp : start.Unmentioned p) (q : ParamId) :
    renamed start.substitute.substituted q = p ↔ q = p := by
  -- Being this parameter is an assignment that satisfies all differences.
  have hmeets : start.MeetsDifferences fun q ↦ q = p := by
    intro eq heq a b he
    have hfree := hp eq heq
    rw [he] at hfree
    have ha : a ≠ p := fun hap ↦ hfree (hap ▸ List.mem_cons_self)
    have hb : b ≠ p := fun hbp ↦ hfree (hbp ▸ List.mem_cons_of_mem a List.mem_cons_self)
    exact propext (iff_of_false ha hb)
  exact iff_of_eq (EquationSystem.respects_substitute h.untouched hmeets q)

/-- A parameter that is not mentioned is not merged. -/
theorem find?_substituted_of_unmentioned (h : Prepared config s g dragged start fixed)
    (hp : start.Unmentioned p) : fixed.substituted.find? p = none := by
  rw [h.fixedFrom.substituted]
  have hself := (h.renamed_eq_iff_of_unmentioned hp p).mpr rfl
  rw [← hself]
  exact h.merged.find?_renamed p

/-- A parameter that is not mentioned is not mentioned after merging and fixing unknowns either. -/
theorem unmentioned (h : Prepared config s g dragged start fixed) (hp : start.Unmentioned p) :
    fixed.Unmentioned p := by
  intro eq heq hmem
  obtain ⟨old, hold, he⟩ := h.exists_origin heq
  rw [he, Expr.params_substitute] at hmem
  obtain ⟨q, hq, hrenamed⟩ := List.mem_map.mp hmem
  rw [h.fixedFrom.substituted, h.renamed_eq_iff_of_unmentioned hp] at hrenamed
  exact hp old hold (hrenamed ▸ hq)

/-- A parameter that is not mentioned is not fixed. -/
theorem contains_solvedAlone_of_unmentioned (h : Prepared config s g dragged start fixed)
    (hp : start.Unmentioned p) : fixed.solvedAlone.contains p = false := by
  rw [← Bool.not_eq_true]
  intro hfixed
  have halone := h.alone
  have hcontains : (start.substitute.solveAlone config.tolerance
      config.maxIterations).1.solvedAlone.contains p = true := by rwa [halone]
  obtain ⟨eq, heq, hretired, hone, _⟩ :=
    EquationSystem.exists_equation_of_solvedAlone h.solvedAlone_substitute hcontains
  rw [halone] at heq
  obtain ⟨hne, hall⟩ := Expr.referenced_eq_one_iff.mp hone
  obtain ⟨q, hq⟩ := List.exists_mem_of_ne_nil _ hne
  exact h.unmentioned hp eq heq (hall q hq ▸ hq)

variable [ExactZero R]

/-- An iteration that succeeds ends with a parameter that is not mentioned where it was. -/
theorem value_iterated_of_unmentioned (h : Prepared config s g dragged start fixed)
    (hla : la.SolvesInRowSpace) (hp : start.Unmentioned p) {x : R}
    (hx : start.values.find? p = some x)
    (hconverged : (fixed.newton.iterate la config fixed).converged = true) :
    (fixed.iterated la config).value p = x := by
  have hunmerged := h.find?_substituted_of_unmentioned hp
  have hunfixed := h.contains_solvedAlone_of_unmentioned hp
  have hfree : (start.substitute.solveAlone config.tolerance
      config.maxIterations).1.solvedAlone.contains p = false := by rwa [h.alone]
  have hvalue : fixed.values.find? p = some x := by
    have hkept := EquationSystem.find?_values_solveAlone hfree
    rwa [h.alone, h.merged.values, hx] at hkept
  have hunknown : p ∈ fixed.newton.unknowns := by
    rw [EquationSystem.mem_newton_unknowns]
    exact ⟨Table.contains_iff_exists.mpr ⟨x, hvalue⟩, Table.contains_eq_false_iff.mpr hunmerged,
      hunfixed⟩
  rw [(h.unmentioned hp).value_iterated hla hunknown hconverged,
    EquationSystem.value_of_none hunmerged, hvalue, Option.getD_some]

/-- Writing the values that an iteration succeeds with leaves a parameter that is not mentioned
alone. -/
theorem find?_commit_of_unmentioned (h : Prepared config s g dragged start fixed)
    (hla : la.SolvesInRowSpace) (hp : start.Unmentioned p)
    (hconverged : (fixed.newton.iterate la config fixed).converged = true) (h' : GroupId)
    (dof : Nat) :
    (s.commit h' (fixed.iterated la config).resolvedValues dof).params.find? p =
      s.params.find? p := by
  have hvalues : start.values.find? p =
      ((s.params.find? p).filter (Sketch.isUnknown dragged g)).map Param.value := by
    rw [Sketch.values_of_assemble h.assembled, Sketch.find?_unknowns]
  rw [Sketch.find?_params_commit, h.find?_resolvedValues, Table.contains]
  cases hq : s.params.find? p with
  | none => rfl
  | some q =>
    rw [hq, Option.filter_some] at hvalues
    rw [Option.map_some, hvalues]
    split
    · next hunknown =>
      rw [if_pos hunknown] at hvalues
      rw [h.value_iterated_of_unmentioned hla hp hvalues hconverged]
      rfl
    · rfl

end Prepared

/-- With exact arithmetic, a parameter that no equation of the system of a group mentions is left as
it is by every solve of the group. -/
theorem find?_left_solveWith_of_unmentioned [ExactZero R] {la : LinearAlgebra R}
    (hla : la.SolvesInRowSpace) (config : Config R) (s : Sketch R) (g : GroupId)
    (dragged : HandleSet ParamId) {p : ParamId}
    (hp : ∀ sys, s.assemble g dragged = .ok sys → sys.Unmentioned p) :
    ((Operation.solveWith la config g dragged).left s).params.find? p = s.params.find? p := by
  have hend := solveEnd_solveWith la config s g dragged
  unfold Operation.left
  generalize (Operation.solveWith la config g dragged).run s = result at hend ⊢
  cases hend with
  | missing => rfl
  | unwritten => rfl
  | oversized => rfl
  | stuck => rfl
  | diverged => rfl
  | undiagnosed => rfl
  | solved hprepared hconverged =>
    exact hprepared.find?_commit_of_unmentioned hla (hp _ hprepared.assembled) hconverged _ _

/-- The factorisations that take no step solve in the row space. -/
theorem LinearAlgebra.solvesInRowSpace_exact : exact.SolvesInRowSpace := by
  refine fun a _ _ ↦ ⟨[], ?_⟩
  have hzero : ∀ row : List ℝ, dotProduct row [] = 0 := by
    intro row
    cases row <;> exact Arith.real_zero
  change List.replicate a.cols 0 = a.columns.map fun row ↦ dotProduct row []
  rw [funext hzero, List.map_const']
  congr 1
  exact (by simp [DenseMatrix.columns] : a.columns.length = a.cols).symm

/-- Two points at one place and a third one. -/
noncomputable def pointsTogetherAndFree : Sketch ℝ :=
  (Sketch.empty .default).runAll .exact
    [.draw ⟨1⟩ (.point3d ⟨0, 0, 0⟩),
      .draw ⟨1⟩ (.point3d ⟨1, 1, 1⟩),
      .draw ⟨1⟩ (.point3d ⟨1, 0, 1⟩),
      .relate ⟨1⟩ (.coincident ⟨1⟩ ⟨2⟩ none)]

/-- The first point is brought to the second, and the third one stays. -/
theorem find?_left_solveWith_pointsTogetherAndFree :
    (∃ r t, pointsTogetherAndFree.solveWith .exact .default ⟨1⟩ .empty = .ok (r, t) ∧
      r.status.isOk = true ∧ pointsTogetherAndFree.value ⟨1⟩ = 0 ∧ t.value ⟨1⟩ = 1) ∧
    ((Operation.solveWith .exact .default ⟨1⟩ .empty).left pointsTogetherAndFree).params.find? ⟨7⟩ =
      pointsTogetherAndFree.params.find? ⟨7⟩ := by
  have hassembled : ∃ sys, pointsTogetherAndFree.assemble ⟨1⟩ .empty = .ok sys ∧
      sys.equations.all (fun eq ↦ !eq.expr.params.contains ⟨7⟩) = true := ⟨_, rfl, rfl⟩
  obtain ⟨start, hstart, hfree⟩ := hassembled
  refine ⟨⟨_, _, rfl, rfl, rfl, rfl⟩, ?_⟩
  refine find?_left_solveWith_of_unmentioned LinearAlgebra.solvesInRowSpace_exact .default _ ⟨1⟩
    .empty fun sys hsys eq heq hmem ↦ ?_
  obtain rfl : start = sys := Except.ok.inj (hstart.symm.trans hsys)
  have hnot := List.all_eq_true.mp hfree eq heq
  rw [Bool.not_eq_true', ← Bool.not_eq_true, List.contains_iff_mem] at hnot
  exact hnot hmem

end SketchSolver
