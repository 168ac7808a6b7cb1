import Mathlib.Data.List.Forall2
import SketchSolver.Proofs.Solve.Soundness

/-!
# Writing equations again

After solved values are written, the same equations are written again, but for those that depend on
current values. A dragged point is kept at other coordinates, and which twist of two orientations is
closer and how an arc is measured may have changed. Apart from these two, every equation is the same
or keeps an expression at its new value, and the unknowns have the values that were written.
-/

namespace SketchSolver

open List (Forall₂)

variable {R : Type}

/-- Steps for each member of a list that give related results give related lists. -/
theorem Outcome.exists_forall₂_mapM {α β : Type} {f : α → Outcome R β} {Q : β → β → Prop}
    {xs : List α} {ys : List β} (h : xs.mapM f = .ok ys) (f' : α → Outcome R β)
    (hf : ∀ x ∈ xs, ∀ y, f x = .ok y → ∃ y', f' x = .ok y' ∧ Q y y') :
    ∃ ys', xs.mapM f' = .ok ys' ∧ Forall₂ Q ys ys' := by
  induction xs generalizing ys with
  | nil =>
    cases h
    exact ⟨[], rfl, .nil⟩
  | cons x xs ih =>
    rw [List.mapM_cons] at h
    obtain ⟨y, hy, h⟩ := bind_eq_ok_iff.mp h
    obtain ⟨rest, hrest, h⟩ := bind_eq_ok_iff.mp h
    cases h
    obtain ⟨y', hy', hrelated⟩ := hf x List.mem_cons_self y hy
    obtain ⟨rest', hrest', hall⟩ := ih hrest fun z hz ↦ hf z (List.mem_cons_of_mem x hz)
    refine ⟨y' :: rest', ?_, .cons hrelated hall⟩
    rw [List.mapM_cons, hy', hrest']
    rfl

/-- If each step gives what another one does with a function applied to it, then so do all. -/
theorem Outcome.mapM_eq_ok_map {α β : Type} {f f' : α → Outcome R β} {k : β → β} {xs : List α}
    {ys : List β} (h : xs.mapM f = .ok ys)
    (hf : ∀ x ∈ xs, ∀ y, f x = .ok y → f' x = .ok (k y)) : xs.mapM f' = .ok (ys.map k) := by
  obtain ⟨ys', hys', hall⟩ := exists_forall₂_mapM (Q := fun y y' ↦ k y = y') h f'
    fun x hx y hy ↦ ⟨k y, hf x hx y hy, rfl⟩
  rw [← List.forall₂_map_left_iff (R := (· = ·)), List.forall₂_eq_eq_eq] at hall
  rw [hys', hall]

/-- Whether current values choose the equations of a constraint. -/
def Constraint.chooses (c : Constraint R) : Bool :=
  c.relation matches .sameOrientation .. | .equalLineArcLength ..

variable [Arith R]

/-- An expression as it is written for two sketches. -/
inductive Expr.Rewritten (s t : Sketch R) : Expr R → Expr R → Prop
  /-- It does not depend on current values. -/
  | same (e : Expr R) : Rewritten s t e e
  /-- It keeps another expression at its current value. -/
  | stay (e : Expr R) :
    Rewritten s t (e - .constant (e.eval s.value)) (e - .constant (e.eval t.value))

/-- An equation as it is written for two sketches. -/
def Equation.Rewritten (s t : Sketch R) (eq eq' : Equation R) : Prop :=
  ∃ e, eq.expr.Rewritten s t e ∧ eq' = { eq with expr := e }

/-- Equations are rewritten into themselves. -/
theorem Expr.rewritten_self {s t : Sketch R} (es : List (Expr R)) :
    Forall₂ (Expr.Rewritten s t) es es := List.forall₂_same.mpr fun e _ ↦ .same e

namespace Sketch

variable {s : Sketch R} {g k : GroupId} {values : Table ParamId R} {dof : Nat}

/-- What a point that stays is kept at is written again. -/
theorem rewritten_stayEquations {s t : Sketch R} (coordinates : List (Expr R)) :
    Forall₂ (Expr.Rewritten s t) (s.stayEquations coordinates) (t.stayEquations coordinates) := by
  unfold stayEquations
  rw [List.forall₂_map_left_iff, List.forall₂_map_right_iff]
  exact List.forall₂_same.mpr fun e _ ↦ .stay e

private theorem exists_whereDragged_commit {id : ConstraintId} {wp : Option EntityId}
    {point : EntityId} {es : List (Expr R)}
    (h : (⟨id, k, wp, .whereDragged point⟩ : Constraint R).equations s = .ok es) :
    ∃ es', (⟨id, k, wp, .whereDragged point⟩ : Constraint R).equations (s.commit g values dof) =
      .ok es' ∧ Forall₂ (Expr.Rewritten s (s.commit g values dof)) es es' := by
  cases wp with
  | none =>
    obtain ⟨a, ha, h⟩ := Outcome.bind_eq_ok_iff.mp h
    cases h
    exact ⟨_, Outcome.bind_eq_ok_iff.mpr ⟨a, ha, rfl⟩, rewritten_stayEquations _⟩
  | some wp =>
    obtain ⟨uv, huv, h⟩ := Outcome.bind_eq_ok_iff.mp h
    cases h
    exact ⟨_, Outcome.bind_eq_ok_iff.mpr ⟨uv, huv, rfl⟩, rewritten_stayEquations _⟩

/-- The equations of a constraint are written again after solved values are written. -/
theorem exists_equations_commit {c : Constraint R} (hc : c.chooses = false) {es : List (Expr R)}
    (h : c.equations s = .ok es) :
    ∃ es', c.equations (s.commit g values dof) = .ok es' ∧
      Forall₂ (Expr.Rewritten s (s.commit g values dof)) es es' := by
  obtain ⟨id, k, wp, relation⟩ := c
  cases relation with
  | whereDragged point => exact exists_whereDragged_commit h
  | sameOrientation => cases hc
  | equalLineArcLength => cases hc
  | _ => exact ⟨es, h, Expr.rewritten_self es⟩

/-- The equations of a constraint with their source are written again. -/
theorem exists_constraintRows_commit {c : Constraint R} (hc : c.chooses = false)
    {rows : List (Equation R)} (h : s.constraintRows c = .ok rows) :
    ∃ rows', (s.commit g values dof).constraintRows c = .ok rows' ∧
      Forall₂ (Equation.Rewritten s (s.commit g values dof)) rows rows' := by
  obtain ⟨es, hes, h⟩ := Outcome.bind_eq_ok_iff.mp h
  cases h
  obtain ⟨es', hes', hall⟩ := exists_equations_commit hc hes
  refine ⟨_, Outcome.bind_eq_ok_iff.mpr ⟨es', hes', rfl⟩, ?_⟩
  rw [List.forall₂_map_left_iff, List.forall₂_map_right_iff]
  exact hall.imp fun e e' he ↦ ⟨e', he, rfl⟩

/-- All equations are written again, if current values choose none of them. -/
theorem exists_writeEquations_commit {excluded : Option ConstraintId}
    (hs : ∀ c ∈ s.constraints.values, c.group ≤ k → c.chooses = false)
    {written : List (Equation R)} (h : s.writeEquations k excluded = .ok written) (g : GroupId)
    (values : Table ParamId R) (dof : Nat) :
    ∃ written', (s.commit g values dof).writeEquations k excluded = .ok written' ∧
      Forall₂ (Equation.Rewritten s (s.commit g values dof)) written written' := by
  obtain ⟨constraintRows, hconstraints, h⟩ := Outcome.bind_eq_ok_iff.mp h
  obtain ⟨entityRows, hentities, h⟩ := Outcome.bind_eq_ok_iff.mp h
  cases h
  obtain ⟨constraintRows', hconstraints', hall⟩ :=
    Outcome.exists_forall₂_mapM hconstraints (s.commit g values dof).constraintRows
      fun c hc rows hrows ↦ by
        obtain ⟨hmem, hcond⟩ := List.mem_filter.mp hc
        have hle : c.group ≤ k := of_decide_eq_true (Bool.and_eq_true_iff.mp hcond).1
        exact exists_constraintRows_commit (hs c hmem hle) hrows
  -- The equations of entities do not depend on current values.
  refine ⟨_, Outcome.bind_eq_ok_iff.mpr ⟨constraintRows', hconstraints',
    Outcome.bind_eq_ok_iff.mpr ⟨entityRows, hentities, rfl⟩⟩, ?_⟩
  refine List.rel_append (List.rel_flatten hall) ?_
  exact List.forall₂_same.mpr fun eq _ ↦ ⟨eq.expr, .same _, rfl⟩

omit [Arith R] in
/-- Writing the same values twice is writing them once. -/
theorem commit_commit (s : Sketch R) (g : GroupId) (values : Table ParamId R) (d e : Nat) :
    (s.commit g values d).commit g values e = s.commit g values e := by
  have hparams : ((s.commit g values d).commit g values e).params =
      (s.commit g values e).params := by
    apply Table.ext
    intro k
    rw [find?_params_commit, find?_params_commit, find?_params_commit, Option.map_map]
    cases s.params.find? k with
    | none => rfl
    | some p => cases values.find? k <;> rfl
  have hgroups : ((s.commit g values d).commit g values e).groups =
      (s.commit g values e).groups := by
    apply Table.ext
    intro h
    rw [find?_groups_commit, find?_groups_commit, find?_groups_commit]
    split
    · rfl
    · rw [Option.map_map]
      apply Option.map_congr
      intro st _
      by_cases hlt : g < h <;> simp [hlt]
  exact congrArg₂ (fun params groups ↦ ({ s with params, groups } : Sketch R)) hparams hgroups

end Sketch

namespace Prepared

variable {config : Config R} {s : Sketch R} {g : GroupId} {dragged : HandleSet ParamId}
  {start fixed : EquationSystem R}

/-- The solved values are those of the unknowns. -/
theorem contains_resolvedValues (h : Prepared config s g dragged start fixed)
    (la : LinearAlgebra R) (k : ParamId) :
    (fixed.iterated la config).resolvedValues.contains k = start.values.contains k := by
  rw [Table.contains, h.find?_resolvedValues]
  cases start.values.contains k <;> rfl

/-- After the solved values are written, they are the values of the unknowns. -/
theorem unknowns_commit (h : Prepared config s g dragged start fixed) (la : LinearAlgebra R)
    (dof : Nat) :
    (s.commit g (fixed.iterated la config).resolvedValues dof).unknowns g dragged =
      (fixed.iterated la config).resolvedValues := by
  apply Table.ext
  intro k
  have hcontains := h.contains_resolvedValues la k
  rw [Sketch.values_of_assemble h.assembled, Table.contains, Table.contains,
    Sketch.find?_unknowns] at hcontains
  rw [Sketch.find?_unknowns, Sketch.find?_params_commit]
  cases hp : s.params.find? k with
  | none =>
    rw [hp] at hcontains
    exact (Option.isNone_iff_eq_none.mp (Option.isSome_eq_false_iff.mp hcontains)).symm
  | some p =>
    have hunknown (x : R) : Sketch.isUnknown dragged g { p with value := x } =
        Sketch.isUnknown dragged g p := rfl
    rw [hp, Option.filter_some] at hcontains
    rw [Option.map_some, Option.filter_some, hunknown]
    cases hu : Sketch.isUnknown dragged g p with
    | false =>
      rw [hu] at hcontains
      exact (Option.isNone_iff_eq_none.mp (Option.isSome_eq_false_iff.mp hcontains)).symm
    | true =>
      rw [hu] at hcontains
      obtain ⟨x, hx⟩ := Option.isSome_iff_exists.mp hcontains
      rw [hx]
      rfl

/-- After the solved values are written, the other parameters are frozen where they were. -/
theorem frozenValue_commit (h : Prepared config s g dragged start fixed) (la : LinearAlgebra R)
    (dof : Nat) :
    (s.commit g (fixed.iterated la config).resolvedValues dof).frozenValue
        (fixed.iterated la config).resolvedValues = s.frozenValue (s.unknowns g dragged) := by
  funext k
  unfold Sketch.frozenValue
  rw [h.contains_resolvedValues, Sketch.values_of_assemble h.assembled]
  split
  · rfl
  · next hk =>
    have hnone : (fixed.iterated la config).resolvedValues.find? k = none := by
      rw [h.find?_resolvedValues, Sketch.values_of_assemble h.assembled, if_neg hk]
    rw [Sketch.value, Sketch.find?_params_commit, hnone, Sketch.value]
    cases s.params.find? k <;> rfl

/-- A system that starts with the solved values and has the same unknowns merged has the final
values as its working values. -/
theorem value_of_resolvedValues (h : Prepared config s g dragged start fixed)
    (la : LinearAlgebra R) {again : EquationSystem R}
    (hvalues : again.values = (fixed.iterated la config).resolvedValues)
    (hmerged : again.substituted = fixed.substituted) :
    again.value = (fixed.iterated la config).value := by
  funext p
  rw [EquationSystem.value, hvalues, hmerged, h.find?_resolvedValues, h.value_renamed]
  split
  · next x hx =>
    split at hx
    · exact (Option.some.inj hx).symm
    · cases hx
  · next hnone =>
    split at hnone
    · cases hnone
    · next hk =>
      have hmissing : (fixed.iterated la config).values.find?
          (renamed (fixed.iterated la config).substituted p) = none := by
        rw [← Table.contains_eq_false_iff, h.contains_iterated la]
        exact Bool.eq_false_iff.mpr hk
      rw [EquationSystem.value, hmissing]

/-- A system that starts with the solved values and has the same unknowns merged ends with the
solved values. -/
theorem resolvedValues_of_resolvedValues (h : Prepared config s g dragged start fixed)
    (la : LinearAlgebra R) {again : EquationSystem R}
    (hvalues : again.values = (fixed.iterated la config).resolvedValues)
    (hmerged : again.substituted = fixed.substituted) :
    again.resolvedValues = (fixed.iterated la config).resolvedValues := by
  apply Table.ext
  intro k
  rw [EquationSystem.resolvedValues, h.value_of_resolvedValues la hvalues hmerged, hvalues,
    Table.find?_map, h.find?_resolvedValues]
  cases start.values.contains k <;> rfl

end Prepared

end SketchSolver
