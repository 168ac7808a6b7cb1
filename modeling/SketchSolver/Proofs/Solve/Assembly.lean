import SketchSolver.Solve.System

/-!
# Assembled systems

A system as it is assembled has merged and fixed nothing yet, and its equations are closed: they
mention unknowns only, since every other parameter was frozen. All later stages of a solve start
from `EquationSystem.Untouched`, which `untouched_assembleExcluding` provides.
-/

namespace SketchSolver

variable {R : Type}

/-- A system in which no unknown is merged or fixed and whose equations mention unknowns only. -/
structure EquationSystem.Untouched (sys : EquationSystem R) : Prop where
  /-- No unknown stands for another one. -/
  substituted : sys.substituted = .empty
  /-- No unknown is fixed. -/
  solvedAlone : sys.solvedAlone = .empty
  /-- All equations are in use. -/
  in_use : ∀ eq ∈ sys.equations, eq.retired = false
  /-- The equations mention unknowns only. -/
  closed : ∀ eq ∈ sys.equations, ∀ p ∈ eq.expr.params, sys.values.contains p = true

/-- Whether an equation stays in the system of a group. -/
def Equation.isKept (g : GroupId) (eq : Equation R) : Bool :=
  eq.group == g || eq.expr.referenced != .none

/-- The equation with known values in place of parameters, folded. -/
def Equation.frozen [Arith R] (known : ParamId → Option R) (eq : Equation R) : Equation R :=
  { eq with expr := (eq.expr.freeze known).fold }

namespace Sketch

variable [Arith R] {s : Sketch R} {g : GroupId} {dragged : HandleSet ParamId}
  {excluded : Option ConstraintId} {sys : EquationSystem R}

/-- A system is assembled exactly if its equations can be written. -/
theorem assembleExcluding_eq_ok_iff :
    s.assembleExcluding g dragged excluded = .ok sys ↔
      ∃ written, s.writeEquations g excluded = .ok written ∧
        s.system g dragged written = sys := by
  rw [assembleExcluding, Outcome.bind_eq_ok_iff]
  constructor
  · rintro ⟨written, hw, h⟩
    exact ⟨written, hw, Except.ok.inj h⟩
  · rintro ⟨written, hw, rfl⟩
    exact ⟨written, hw, rfl⟩

/-- The equations of a system are those that stay once they are frozen. -/
theorem equations_system (s : Sketch R) (g : GroupId) (dragged : HandleSet ParamId)
    (written : List (Equation R)) :
    (s.system g dragged written).equations =
      (written.map (Equation.frozen (s.frozenValue (s.unknowns g dragged)))).filter
        (Equation.isKept g) := rfl

/-- An equation as a constraint or an entity of a sketch writes it. -/
inductive Writes (s : Sketch R) : Equation R → Prop
  /-- It is an equation of a constraint. -/
  | constraint {k : ConstraintId} {c : Constraint R} {es : List (Expr R)} {e : Expr R}
    (hc : s.constraints.find? k = some c) (hes : c.equations s = .ok es) (he : e ∈ es) :
    Writes s ⟨.constraint c.id, c.group, e, false⟩
  /-- It is an equation of an entity. -/
  | entity {k : EntityId} {d : Entity} {es : List (Expr R)} {e : Expr R}
    (hd : s.entities.find? k = some d) (hes : s.entityEquations d = .ok es) (he : e ∈ es) :
    Writes s ⟨.entity d.id, d.group, e, false⟩

/-- The equations that are written for a group are those of the constraints and entities of the
group and all earlier ones, but for those of the constraint that is left out. -/
theorem mem_written_iff {written : List (Equation R)}
    (h : s.writeEquations g excluded = .ok written) {w : Equation R} :
    w ∈ written ↔
      s.Writes w ∧ w.group ≤ g ∧ ∀ id, excluded = some id → w.source ≠ .constraint id := by
  obtain ⟨constraintRows, hconstraints, h⟩ := Outcome.bind_eq_ok_iff.mp h
  obtain ⟨entityRows, hentities, h⟩ := Outcome.bind_eq_ok_iff.mp h
  cases h
  constructor
  · intro hw
    rcases List.mem_append.mp hw with hw | hw
    · obtain ⟨rows, hrows, hw⟩ := List.mem_flatten.mp hw
      obtain ⟨c, hc, hrows⟩ := Outcome.exists_of_mem_mapM hconstraints hrows
      obtain ⟨hmem, hcond⟩ := List.mem_filter.mp hc
      obtain ⟨hle, hincluded⟩ := Bool.and_eq_true_iff.mp hcond
      obtain ⟨k, hk⟩ := Table.mem_values_iff.mp hmem
      obtain ⟨es, hes, hrows⟩ := Outcome.bind_eq_ok_iff.mp hrows
      cases hrows
      obtain ⟨e, he, rfl⟩ := List.mem_map.mp hw
      refine ⟨.constraint hk hes he, of_decide_eq_true hle, ?_⟩
      rintro id rfl hid
      exact of_decide_eq_true hincluded (congrArg some (Item.constraint.inj hid).symm)
    · obtain ⟨rows, hrows, hw⟩ := List.mem_flatten.mp hw
      obtain ⟨d, hd, hrows⟩ := Outcome.exists_of_mem_mapM hentities hrows
      obtain ⟨hmem, hle⟩ := List.mem_filter.mp hd
      obtain ⟨k, hk⟩ := Table.mem_values_iff.mp hmem
      obtain ⟨es, hes, hrows⟩ := Outcome.bind_eq_ok_iff.mp hrows
      cases hrows
      obtain ⟨e, he, rfl⟩ := List.mem_map.mp hw
      exact ⟨.entity hk hes he, of_decide_eq_true hle, fun id _ hid ↦ by cases hid⟩
  · rintro ⟨hw, hle, hincluded⟩
    rw [List.mem_append, List.mem_flatten, List.mem_flatten]
    cases hw with
    | @constraint k c es e hk hes he =>
      have hother : excluded ≠ some c.id := fun hsame ↦ hincluded c.id hsame rfl
      have hmem : c ∈ s.constraints.values.filter fun c ↦
          decide (c.group ≤ g) && decide (excluded ≠ some c.id) :=
        List.mem_filter.mpr ⟨Table.mem_values_iff.mpr ⟨k, hk⟩,
          Bool.and_eq_true_iff.mpr ⟨decide_eq_true hle, decide_eq_true hother⟩⟩
      obtain ⟨rows, hrows, hwrites⟩ := Outcome.exists_mem_of_mapM hconstraints hmem
      obtain ⟨es', hes', hwrites⟩ := Outcome.bind_eq_ok_iff.mp hwrites
      cases hes.symm.trans hes'
      cases hwrites
      exact .inl ⟨_, hrows, List.mem_map.mpr ⟨e, he, rfl⟩⟩
    | @entity k d es e hk hes he =>
      have hmem : d ∈ s.entities.values.filter fun d ↦ decide (d.group ≤ g) :=
        List.mem_filter.mpr ⟨Table.mem_values_iff.mpr ⟨k, hk⟩, decide_eq_true hle⟩
      obtain ⟨rows, hrows, hwrites⟩ := Outcome.exists_mem_of_mapM hentities hmem
      obtain ⟨es', hes', hwrites⟩ := Outcome.bind_eq_ok_iff.mp hwrites
      cases hes.symm.trans hes'
      cases hwrites
      exact .inr ⟨_, hrows, List.mem_map.mpr ⟨e, he, rfl⟩⟩

/-- Equations are in use when they are written. -/
theorem in_use_of_mem_written {written : List (Equation R)}
    (h : s.writeEquations g excluded = .ok written) : ∀ eq ∈ written, eq.retired = false := by
  intro eq heq
  cases ((mem_written_iff h).mp heq).1 with
  | constraint => rfl
  | entity => rfl

/-- Freezing at the values outside of a table and folding leaves parameters of the table only. -/
theorem contains_of_mem_frozen {unknowns : Table ParamId R} {e : Expr R} {p : ParamId}
    (h : p ∈ (e.freeze (s.frozenValue unknowns)).fold.params) : unknowns.contains p = true := by
  have hp := Expr.mem_params_of_mem_fold h
  rw [Expr.params_freeze] at hp
  have hnone := (List.mem_filter.mp hp).2
  unfold frozenValue at hnone
  by_cases hu : unknowns.contains p = true
  · exact hu
  · rw [if_neg hu] at hnone
    cases hnone

/-- A system is untouched when it is assembled. -/
theorem untouched_assembleExcluding (h : s.assembleExcluding g dragged excluded = .ok sys) :
    sys.Untouched := by
  obtain ⟨written, hw, rfl⟩ := assembleExcluding_eq_ok_iff.mp h
  refine ⟨rfl, rfl, ?_, ?_⟩
  · intro eq heq
    obtain ⟨old, hold, rfl⟩ := List.mem_map.mp (List.mem_filter.mp heq).1
    exact in_use_of_mem_written hw old hold
  · intro eq heq p hp
    obtain ⟨old, _, rfl⟩ := List.mem_map.mp (List.mem_filter.mp heq).1
    exact contains_of_mem_frozen hp

/-- The group of an assembled system. -/
theorem group_of_assemble (h : s.assemble g dragged = .ok sys) : sys.group = g := by
  obtain ⟨_, _, rfl⟩ := assembleExcluding_eq_ok_iff.mp h
  rfl

/-- The unknowns of an assembled system. -/
theorem values_of_assemble (h : s.assemble g dragged = .ok sys) :
    sys.values = s.unknowns g dragged := by
  obtain ⟨_, _, rfl⟩ := assembleExcluding_eq_ok_iff.mp h
  rfl

omit [Arith R] in
/-- A parameter is an unknown with its current value exactly if it is of the group or dragged. -/
theorem find?_unknowns (s : Sketch R) (g : GroupId) (dragged : HandleSet ParamId) (k : ParamId) :
    (s.unknowns g dragged).find? k =
      ((s.params.find? k).filter (isUnknown dragged g)).map Param.value := by
  rw [unknowns, Table.find?_map, Table.find?_filter]

end Sketch

end SketchSolver
