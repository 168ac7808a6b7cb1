import SketchSolver.Proofs.Exact.Motion
import SketchSolver.Proofs.Solve.Iteration

/-!
# The matrix of partial derivatives

The rows of the matrix are kept sparse, as the partial derivatives that do not fold to zero with
their columns. In exact arithmetic the matrix that is filled from them is that of all partial
derivatives: an entry that is not kept is the derivative for an unknown that does not occur or one
that is zero. A column is left out while the matrix is filled, which gives the matrix with the
column deleted.
-/

namespace SketchSolver

/-! ## Sparse rows -/

variable {unknowns : List ParamId} {v : ParamId → ℝ}

private theorem mem_partials_iff (e : Expr ℝ) {d : Nat × Expr ℝ} :
    d ∈ e.partials unknowns ↔
      ∃ q ∈ e.params, unknowns.idxOf? q = some d.1 ∧ d.2 = (e.derivative q).fold ∧
        d.2.isZero = false := by
  simp only [Expr.partials, List.mem_filter, List.mem_map, List.mem_filterMap,
    Expr.mem_keys_usedParams, Option.map_eq_some_iff, Bool.not_eq_true']
  constructor
  · rintro ⟨⟨c, ⟨q, hq, i, hi, rfl⟩, rfl⟩, hzero⟩
    exact ⟨q, hq, hi, rfl, hzero⟩
  · rintro ⟨q, hq, hi, hd, hzero⟩
    exact ⟨⟨(d.1, q), ⟨q, hq, d.1, hi, rfl⟩, Prod.ext rfl hd.symm⟩, hzero⟩

private theorem getD_lookup_partials (h : unknowns.Nodup) (e : Expr ℝ) {j : Nat}
    (hj : j < unknowns.length) :
    (((e.partials unknowns).map fun d ↦ (d.1, d.2.eval v)).lookup j).getD 0 =
      (e.derivative unknowns[j]).eval v := by
  cases hl : ((e.partials unknowns).map fun d ↦ (d.1, d.2.eval v)).lookup j with
  | some y =>
    obtain ⟨before, after, hsplit, _⟩ := List.lookup_eq_some_iff.mp hl
    have hmem : (j, y) ∈ (e.partials unknowns).map fun d ↦ (d.1, d.2.eval v) := by
      rw [hsplit]
      exact List.mem_append_right before List.mem_cons_self
    obtain ⟨d, hd, hdy⟩ := List.mem_map.mp hmem
    obtain ⟨q, _, hq, hfold, _⟩ := (mem_partials_iff e).mp hd
    obtain ⟨rfl, rfl⟩ := Prod.mk.inj hdy
    obtain ⟨_, hget, _⟩ := List.idxOf?_eq_some_iff.mp hq
    rw [Option.getD_some, hfold, Expr.eval_fold, hget]
  | none =>
    have hnone := List.lookup_eq_none_iff.mp hl
    rw [Option.getD_none]
    by_cases hp : unknowns[j] ∈ e.params
    · have hj' : unknowns.idxOf? unknowns[j] = some j :=
        List.idxOf?_eq_some_iff.mpr ⟨hj, rfl, fun i hi he ↦
          absurd (h.getElem_inj_iff.mp he) (Nat.ne_of_lt hi)⟩
      cases hz : (e.derivative unknowns[j]).fold.isZero with
      | true =>
        rw [← Expr.eval_fold, Expr.eval_of_isZero hz]
      | false =>
        have hmem : (j, (e.derivative unknowns[j]).fold) ∈ e.partials unknowns :=
          (mem_partials_iff e).mpr ⟨_, hp, hj', rfl, hz⟩
        have hne := hnone _ (List.mem_map_of_mem hmem)
        rw [bne_self_eq_false] at hne
        cases hne
    · rw [Expr.eval_derivative, Expr.differential_eq_zero]
      intro q hq
      apply Pi.single_eq_of_ne
      rintro rfl
      exact hp hq

/-- The matrix of an iteration holds the partial derivatives of the equations in use. -/
theorem jacobian_newton (sys current : EquationSystem ℝ) (x : List ℝ) :
    sys.newton.jacobian current x =
      partialsAt (sys.newton.assignment current x) (sys.newton.equations.map Equation.expr)
        sys.newton.unknowns := by
  have hnodup := EquationSystem.nodup_newton_unknowns sys
  have hpartials : sys.newton.partials =
      sys.newton.equations.map fun eq ↦ eq.expr.partials sys.newton.unknowns := by
    simp only [EquationSystem.newton, List.map_map]
    rfl
  unfold NewtonSystem.jacobian partialsAt
  dsimp only
  rw [hpartials, List.map_map, List.map_map]
  congr 1
  apply List.map_congr_left
  intro eq _
  apply List.ext_getElem
  · simp [NewtonSystem.denseRow, NewtonSystem.width]
  · intro j hj _
    have hlt : j < sys.newton.unknowns.length := by
      simpa [NewtonSystem.denseRow, NewtonSystem.width] using hj
    simp only [Function.comp_apply, NewtonSystem.denseRow, List.getElem_map, List.getElem_range,
      Arith.real_zero]
    exact getD_lookup_partials hnodup eq.expr hlt

/-! ## Leaving a column out -/

namespace NewtonSystem

variable {R : Type} [Arith R]

omit [Arith R] in
/-- What a row has at a place after a column is left out stands there or one further in the whole
row. -/
theorem lookup_skipColumn (skip j : Nat) (f : Expr R → R) (entries : List (Nat × Expr R)) :
    ((skipColumn skip entries).map fun d ↦ (d.1, f d.2)).lookup j =
      (entries.map fun d ↦ (d.1, f d.2)).lookup (if j < skip then j else j + 1) := by
  induction entries with
  | nil => rfl
  | cons d entries ih =>
    have hcons : skipColumn skip (d :: entries) =
        if d.1 = skip then skipColumn skip entries
        else (if skip < d.1 then d.1 - 1 else d.1, d.2) :: skipColumn skip entries := by
      by_cases hd : d.1 = skip <;> simp [skipColumn, hd]
    rw [hcons, List.map_cons, List.lookup_cons]
    by_cases hd : d.1 = skip
    · have hother : ((if j < skip then j else j + 1) == d.1) = false := by
        rw [beq_eq_false_iff_ne]
        split <;> omega
      rw [if_pos hd, ih, hother]
    · have hsame : (j == if skip < d.1 then d.1 - 1 else d.1) =
          ((if j < skip then j else j + 1) == d.1) := by
        rw [Bool.eq_iff_iff, beq_iff_eq, beq_iff_eq]
        split <;> split <;> omega
      rw [if_neg hd, List.map_cons, List.lookup_cons, ih, hsame]

/-- A row that is filled with a column left out is the whole row without that column. -/
theorem denseRow_skipColumn {width skip : Nat} (hskip : skip < width) (f : Expr R → R)
    (entries : List (Nat × Expr R)) :
    denseRow (width - 1) ((skipColumn skip entries).map fun d ↦ (d.1, f d.2)) =
      (denseRow width (entries.map fun d ↦ (d.1, f d.2))).eraseIdx skip := by
  apply List.ext_getElem
  · simp [denseRow, List.length_eraseIdx, hskip]
  · intro j hj _
    simp only [denseRow, List.getElem_eraseIdx, List.getElem_map, List.getElem_range,
      lookup_skipColumn]
    split <;> rfl

/-- Leaving a column out of the matrix deletes it. -/
theorem jacobianWithout_eq (nw : NewtonSystem R) (sys : EquationSystem R) (x : List R)
    {skip : Nat} (hskip : skip < nw.width) :
    nw.jacobianWithout sys x skip =
      ⟨(nw.jacobian sys x).rows.map (·.eraseIdx skip), nw.width - 1⟩ := by
  unfold jacobianWithout jacobian
  dsimp only
  rw [List.map_map]
  congr 1
  exact List.map_congr_left fun row _ ↦ denseRow_skipColumn hskip _ row

variable {nw : NewtonSystem R} {x : List R}

/-- The unknowns are given the values that are listed for them. -/
theorem map_assignment_unknowns (hps : nw.unknowns.Pairwise fun a b ↦ a.index < b.index)
    (sys : EquationSystem R) (hx : x.length = nw.width) :
    nw.unknowns.map (nw.assignment sys x) = x := by
  apply List.ext_getElem
  · rw [List.length_map, hx, width]
  · intro j hj hj'
    rw [List.length_map] at hj
    have hplace : nw.column? nw.unknowns[j] = some j :=
      (column?_eq_some_iff hps).mpr (List.getElem?_eq_getElem hj)
    rw [List.getElem_map, assignment, hplace, Option.bind_some, List.getElem?_eq_getElem hj']

/-- Every other parameter is given its working value. -/
theorem assignment_of_notMem (hps : nw.unknowns.Pairwise fun a b ↦ a.index < b.index)
    (sys : EquationSystem R) {p : ParamId} (hp : p ∉ nw.unknowns) :
    nw.assignment sys x p = sys.value p := by
  have hplace : nw.column? p = none := by
    rw [Option.eq_none_iff_forall_ne_some]
    intro j hj
    exact hp (List.mem_of_getElem? ((column?_eq_some_iff hps).mp hj))
  rw [assignment, hplace]
  rfl

end NewtonSystem

/-! ## Residuals and their derivatives -/

namespace EquationSystem

/-- The equations of a system that are in use. -/
def inUse {R : Type} (sys : EquationSystem R) : List (Equation R) :=
  sys.equations.filter fun eq ↦ !eq.retired

/-- The equations that are iterated are those in use, in order. -/
theorem equations_newton {R : Type} [Arith R] (sys : EquationSystem R) :
    sys.newton.equations = sys.inUse := by
  have hfst : sys.equations.zipIdx.map Prod.fst = sys.equations := List.zipIdx_map_fst 0 _
  rw [inUse, ← hfst, List.filter_map]
  rfl

/-- For every system and every vector of values there is an assignment that gives the unknowns the
values of the vector and all other parameters their working values, such that the residuals are the
values of the equations in use and the matrix holds all of their partial derivatives by the
unknowns, each as the value of the derivative there. Leaving a column out deletes it. -/
theorem exists_assignment_newton (sys : EquationSystem ℝ) (x : Fin sys.newton.width → ℝ) :
    ∃ v : ParamId → ℝ,
      sys.newton.unknowns.map v = List.ofFn x ∧
      (∀ p, p ∉ sys.newton.unknowns → v p = sys.value p) ∧
      sys.newton.residuals sys (List.ofFn x) = sys.inUse.map (fun eq ↦ eq.expr.eval v) ∧
      sys.newton.jacobian sys (List.ofFn x) =
        ⟨sys.inUse.map fun eq ↦ sys.newton.unknowns.map fun p ↦ (eq.expr.derivative p).eval v,
          sys.newton.width⟩ ∧
      ∀ k : Fin sys.newton.width, sys.newton.jacobianWithout sys (List.ofFn x) k =
        ⟨(sys.newton.jacobian sys (List.ofFn x)).rows.map (·.eraseIdx k),
          sys.newton.width - 1⟩ := by
  have hps := sys.sorted_newton_unknowns
  refine ⟨sys.newton.assignment sys (List.ofFn x), ?_, ?_, ?_, ?_, ?_⟩
  · exact NewtonSystem.map_assignment_unknowns hps sys List.length_ofFn
  · exact fun p hp ↦ NewtonSystem.assignment_of_notMem hps sys hp
  · rw [NewtonSystem.residuals, equations_newton]
  · rw [jacobian_newton, equations_newton, partialsAt, List.map_map]
    rfl
  · exact fun k ↦ NewtonSystem.jacobianWithout_eq _ _ _ k.isLt

end EquationSystem

end SketchSolver
