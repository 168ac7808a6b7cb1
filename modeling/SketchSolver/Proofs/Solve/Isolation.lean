import SketchSolver.Command
import SketchSolver.LinearAlgebra.Standard
import SketchSolver.Proofs.Solve.Ending

/-!
# Isolation of groups

A successful solve of a group moves parameters of that group and dragged parameters of earlier
groups. `SolvedApart` lists what stays as it was: all other values, what parameters belong to, the
entities and constraints, the numbers of handles and the configuration. Of the groups, the solved
one records its degrees of freedom and later ones become unsolved.
-/

namespace SketchSolver

variable {R : Type}

/-- Whether a solve of a group may move a parameter, which is one of the group or a dragged one of
an earlier group. -/
def MayMove (g : GroupId) (dragged : HandleSet ParamId) (p : Param R) : Prop :=
  p.group = g ∨ (dragged.contains p.id = true ∧ p.group < g)

/-- What a parameter is apart from its value. -/
def Param.identity (p : Param R) : ParamId × GroupId × Item := (p.id, p.group, p.owner)

/-- A sketch in which a group was solved, compared to the sketch before. -/
structure SolvedApart (g : GroupId) (dragged : HandleSet ParamId) (dof : Option Nat)
    (before after : Sketch R) : Prop where
  /-- The entities stay. -/
  entities : after.entities = before.entities
  /-- The constraints stay. -/
  constraints : after.constraints = before.constraints
  /-- The settings stay. -/
  config : after.config = before.config
  /-- No parameter was numbered. -/
  lastParam : after.lastParam = before.lastParam
  /-- No entity was numbered. -/
  lastEntity : after.lastEntity = before.lastEntity
  /-- No constraint was numbered. -/
  lastConstraint : after.lastConstraint = before.lastConstraint
  /-- The parameters stay, each in its group and with its owner. -/
  identity : ∀ k, (after.params.find? k).map Param.identity =
    (before.params.find? k).map Param.identity
  /-- Parameters that may not be moved keep their values. -/
  still : ∀ k p, before.params.find? k = some p → ¬ MayMove g dragged p →
    after.params.find? k = some p
  /-- The group is solved, later ones are unsolved and earlier ones stay. -/
  groups : ∀ h, after.groups.find? h =
    if h = g then some ⟨g, true, dof⟩
    else (before.groups.find? h).map fun st ↦ if g < h then { st with solved := false } else st

/-- A parameter keeps everything but its value. -/
theorem SolvedApart.exists_value {g : GroupId} {dragged : HandleSet ParamId} {dof : Option Nat}
    {s t : Sketch R} (h : SolvedApart g dragged dof s t) {k : ParamId} {p : Param R}
    (hk : s.params.find? k = some p) : ∃ x, t.params.find? k = some { p with value := x } := by
  have hidentity := h.identity k
  rw [hk, Option.map_some] at hidentity
  obtain ⟨⟨id, group, owner, x⟩, hq, hqp⟩ := Option.map_eq_some_iff.mp hidentity
  cases hqp
  exact ⟨x, hq⟩

/-- No parameter is added. -/
theorem SolvedApart.find?_eq_none {g : GroupId} {dragged : HandleSet ParamId} {dof : Option Nat}
    {s t : Sketch R} (h : SolvedApart g dragged dof s t) {k : ParamId}
    (hk : s.params.find? k = none) : t.params.find? k = none := by
  have hidentity := h.identity k
  rw [hk, Option.map_none] at hidentity
  exact Option.map_eq_none_iff.mp hidentity

/-- Unknowns are parameters that may be moved. -/
theorem mayMove_of_isUnknown {g : GroupId} {dragged : HandleSet ParamId} {p : Param R}
    (h : Sketch.isUnknown dragged g p = true) : MayMove g dragged p := by
  unfold Sketch.isUnknown Sketch.isDragged at h
  rcases Bool.or_eq_true_iff.mp h with h | h
  · exact .inl (eq_of_beq h)
  · obtain ⟨hd, hle⟩ := Bool.and_eq_true_iff.mp h
    rcases Nat.lt_or_eq_of_le (of_decide_eq_true hle) with hlt | heq
    · exact .inr ⟨hd, hlt⟩
    · exact .inl (Numbered.index_inj heq)

variable [Arith R]

/-- Nothing is written to a parameter that may not be moved. -/
theorem Prepared.find?_resolvedValues_of_not_mayMove {la : LinearAlgebra R} {config : Config R}
    {s : Sketch R} {g : GroupId} {dragged : HandleSet ParamId} {start fixed : EquationSystem R}
    (h : Prepared config s g dragged start fixed) {k : ParamId} {p : Param R}
    (hk : s.params.find? k = some p) (hp : ¬ MayMove g dragged p) :
    (fixed.iterated la config).resolvedValues.find? k = none := by
  have hknown : Sketch.isUnknown dragged g p = false :=
    Bool.eq_false_iff.mpr fun hu ↦ hp (mayMove_of_isUnknown hu)
  have hfree : start.values.contains k = false := by
    rw [Sketch.values_of_assemble h.assembled, Table.contains_eq_false_iff, Sketch.find?_unknowns,
      hk, Option.filter_some, hknown]
    rfl
  rw [h.find?_resolvedValues, hfree, if_neg Bool.false_ne_true]

/-- Writing the solved values leaves everything alone but what may be moved. -/
theorem Prepared.solvedApart {la : LinearAlgebra R} {config : Config R} {s : Sketch R}
    {g : GroupId} {dragged : HandleSet ParamId} {start fixed : EquationSystem R}
    (h : Prepared config s g dragged start fixed) (dof : Nat) :
    SolvedApart g dragged (some dof) s
      (s.commit g (fixed.iterated la config).resolvedValues dof) := by
  refine ⟨rfl, rfl, rfl, rfl, rfl, rfl, ?_, ?_, ?_⟩
  · intro k
    rw [Sketch.find?_params_commit, Option.map_map]
    rfl
  · intro k p hk hstill
    rw [Sketch.find?_params_commit, hk, Option.map_some,
      h.find?_resolvedValues_of_not_mayMove hk hstill]
    rfl
  · intro k
    rw [Sketch.find?_groups_commit]

/-- A successful solve leaves everything alone but its own group and dragged parameters of earlier
ones. -/
theorem solvedApart_of_solveWith {la : LinearAlgebra R} {config : Config R} {s t : Sketch R}
    {g : GroupId} {dragged : HandleSet ParamId} {r : SolveReport R}
    (h : s.solveWith la config g dragged = .ok (r, t)) (hok : r.status.isOk = true) :
    SolvedApart g dragged r.dof s t := by
  obtain ⟨start, fixed, hp, _, hdof, rfl⟩ :=
    exists_prepared_of_isOk (Operation.outcome_eq_ok_iff.mp h) hok
  rw [hdof]
  exact hp.solvedApart _

/-- A point in each of three groups, the first two at a distance from each other. -/
def pointsOfThreeGroups : Sketch Float :=
  (Sketch.empty .default).runAll .standard
    [.draw ⟨1⟩ (.point3d ⟨3.0, 0.0, 0.0⟩),
      .draw ⟨2⟩ (.point3d ⟨0.0, 0.0, 0.0⟩),
      .draw ⟨3⟩ (.point3d ⟨1.0, 1.0, 1.0⟩),
      .relate ⟨2⟩ (.distance ⟨1⟩ ⟨2⟩ 5.0 none)]

/-- The second group is solved apart while parameters of all three groups are dragged. -/
theorem solvedApart_of_solveWith_pointsOfThreeGroups :
    ∃ r t, pointsOfThreeGroups.solveWith .standard .default ⟨2⟩ (.ofHandles [⟨1⟩, ⟨4⟩, ⟨7⟩]) =
        .ok (r, t) ∧ r.status.isOk = true ∧
      SolvedApart ⟨2⟩ (.ofHandles [⟨1⟩, ⟨4⟩, ⟨7⟩]) r.dof pointsOfThreeGroups t := by
  have hsolved : (pointsOfThreeGroups.solveWith .standard .default ⟨2⟩
      (.ofHandles [⟨1⟩, ⟨4⟩, ⟨7⟩])).toOption.any (fun result ↦ result.1.status.isOk) = true := by
    decide +kernel
  obtain ⟨⟨r, t⟩, hrun, hok⟩ := Outcome.exists_of_any_toOption hsolved
  exact ⟨r, t, hrun, hok, solvedApart_of_solveWith hrun hok⟩

end SketchSolver
