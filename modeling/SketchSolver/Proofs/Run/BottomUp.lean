import SketchSolver.Proofs.Run.Flags
import SketchSolver.Proofs.Solve.Isolation
import SketchSolver.Proofs.Solve.Soundness

/-!
# Solving from the bottom up

Groups are meant to be solved one after the other, the earliest first. The system of a group
mentions parameters of the group only, as earlier ones are frozen in it, and no later solve moves
them or takes back that the group is solved. So what holds after the solve of a group holds after
the last one.
-/

namespace SketchSolver

variable {R : Type}

/-- The system that was written for a group and the report of its solve. -/
structure GroupSolve (R : Type) where
  /-- The system that is written. -/
  system : EquationSystem R
  /-- What the solve found. -/
  report : SolveReport R

/-- Solves some groups in turn and drags nothing. Each solve starts from the sketch that the one
before has left. -/
def Sketch.solveEach [Arith R] (la : LinearAlgebra R) (config : Config R) (s : Sketch R) :
    List GroupId → Outcome R (List (GroupSolve R) × Sketch R)
  | [] => .ok ([], s)
  | g :: gs => do
    let sys ← s.assemble g .empty
    let (r, next) ← s.solveWith la config g .empty
    let (solves, last) ← next.solveEach la config gs
    return (⟨sys, r⟩ :: solves, last)

/-- A sketch in which some groups were solved, compared to the sketch before. -/
structure SolvedOver (gs : List GroupId) (before after : Sketch R) : Prop where
  /-- Parameters of other groups stay. -/
  still : ∀ k p, before.params.find? k = some p → p.group ∉ gs → after.params.find? k = some p
  /-- A group before all of them stays. -/
  earlier : ∀ h, (∀ g ∈ gs, h < g) → after.groups.find? h = before.groups.find? h
  /-- The groups are those from before and those that were solved. -/
  registered : ∀ h, after.groups.contains h = true → before.groups.contains h = true ∨ h ∈ gs

namespace SolvedOver

variable {g : GroupId} {gs : List GroupId} {s t u : Sketch R}

/-- Nothing changes if no group is solved. -/
theorem nil (s : Sketch R) : SolvedOver [] s s :=
  ⟨fun _ _ hk _ ↦ hk, fun _ _ ↦ rfl, fun _ hh ↦ .inl hh⟩

/-- One group is solved and then the others. -/
theorem cons {dof : Option Nat} (h : SolvedApart g .empty dof s t) (hrest : SolvedOver gs t u) :
    SolvedOver (g :: gs) s u := by
  refine ⟨?_, ?_, ?_⟩
  · intro k p hk hp
    obtain ⟨hg, hgs⟩ := not_or.mp (List.mem_cons.not.mp hp)
    refine hrest.still k p (h.still k p hk ?_) hgs
    rintro (heq | ⟨hd, _⟩)
    · exact hg heq
    · cases hd
  · intro k hk
    obtain ⟨hg, hgs⟩ := List.forall_mem_cons.mp hk
    have hne : k ≠ g := fun heq ↦ Nat.lt_irrefl g.index (heq ▸ hg)
    have hnot : ¬ g < k := Nat.lt_asymm hg
    rw [hrest.earlier k hgs, h.groups, if_neg hne]
    simp [hnot]
  · intro k hk
    rcases hrest.registered k hk with ht | hmem
    · rw [Table.contains, h.groups] at ht
      split at ht
      · next heq => exact .inr (heq ▸ List.mem_cons_self)
      · rw [Option.isSome_map] at ht
        exact .inl ht
    · exact .inr (List.mem_cons_of_mem _ hmem)

/-- A group before all that are solved stays solved. -/
theorem isSolved (h : SolvedOver gs s t) (hg : ∀ k ∈ gs, g < k) (hs : s.isSolved g = true) :
    t.isSolved g = true := by
  rw [Sketch.isSolved, h.earlier g hg]
  exact hs

end SolvedOver

variable [Arith R] {la : LinearAlgebra R} {config : Config R} {g : GroupId} {gs : List GroupId}
  {s t : Sketch R} {solves : List (GroupSolve R)}

/-! ## One solve -/

/-- The unknowns of a system without dragged parameters are parameters of its group. -/
theorem Prepared.exists_param_of_contains {start fixed : EquationSystem R}
    (h : Prepared config s g .empty start fixed) {k : ParamId}
    (hk : start.values.contains k = true) :
    ∃ p, s.params.find? k = some p ∧ p.group = g := by
  rw [Sketch.values_of_assemble h.assembled, Table.contains, Sketch.find?_unknowns,
    Option.isSome_map] at hk
  obtain ⟨p, hp⟩ := Option.isSome_iff_exists.mp hk
  obtain ⟨hfind, hunknown⟩ := Option.filter_eq_some_iff.mp hp
  rcases mayMove_of_isUnknown hunknown with hgroup | ⟨hd, _⟩
  · exact ⟨p, hfind, hgroup⟩
  · cases hd

/-- An unknown has its final value as long as nothing but other groups is solved afterwards. -/
theorem Prepared.find?_params_of_solvedOver {start fixed : EquationSystem R}
    (h : Prepared config s g .empty start fixed) {dof : Nat}
    (hover : SolvedOver gs (s.commit g (fixed.iterated la config).resolvedValues dof) t)
    (hg : g ∉ gs) {k : ParamId} (hk : start.values.contains k = true) :
    ∃ p, t.params.find? k = some p ∧ p.value = (fixed.iterated la config).value k := by
  obtain ⟨p, hp, hgroup⟩ := h.exists_param_of_contains hk
  obtain ⟨q, hq, hvalue⟩ := h.exists_param_commit la dof hk
  refine ⟨q, hover.still k q hq ?_, hvalue⟩
  rw [Sketch.find?_params_commit, hp, Option.map_some] at hq
  cases hq
  exact hgroup ▸ hg

/-- What a solve has made hold holds as long as nothing but other groups is solved afterwards. -/
theorem Prepared.abs_eval_le_of_solvedOver {start fixed : EquationSystem R}
    (h : Prepared config s g .empty start fixed)
    (hconverged : (fixed.newton.iterate la config fixed).converged = true)
    (hpositive : Arith.abs (0.0 : R) ≤ config.tolerance)
    (hself : ∀ p ∈ t.params.values, p.value - p.value = 0.0) {dof : Nat}
    (hover : SolvedOver gs (s.commit g (fixed.iterated la config).resolvedValues dof) t)
    (hg : g ∉ gs) {eq : Equation R} (heq : eq ∈ start.equations) :
    Arith.abs (eq.expr.eval t.value) ≤ config.tolerance := by
  have hparam {k : ParamId} (hk : start.values.contains k = true) :=
    h.find?_params_of_solvedOver hover hg hk
  refine h.abs_eval_le_of_value_eq hconverged hpositive ?_ ?_ heq
  · intro k hk
    obtain ⟨p, hp, hvalue⟩ := hparam hk
    rw [Sketch.value, hp]
    exact hvalue
  · intro k hk
    obtain ⟨p, hp, _⟩ := hparam hk
    rw [Sketch.value, hp]
    exact hself p (Table.mem_values_iff.mpr ⟨k, hp⟩)

/-! ## All solves -/

/-- Solving several groups begins with the first, which is prepared and committed if it succeeds. -/
theorem exists_prepared_of_solveEach (h : s.solveEach la config (g :: gs) = .ok (solves, t))
    (hok : ∀ solve ∈ solves, solve.report.status.isOk = true) :
    ∃ solve rest fixed dof, solves = solve :: rest ∧
      Prepared config s g .empty solve.system fixed ∧
      (fixed.newton.iterate la config fixed).converged = true ∧
      (s.commit g (fixed.iterated la config).resolvedValues dof).solveEach la config gs =
        .ok (rest, t) ∧
      ∀ solve ∈ rest, solve.report.status.isOk = true := by
  rw [Sketch.solveEach] at h
  obtain ⟨sys, hsys, h⟩ := Outcome.bind_eq_ok_iff.mp h
  obtain ⟨⟨r, next⟩, hsolve, h⟩ := Outcome.bind_eq_ok_iff.mp h
  obtain ⟨⟨rest, last⟩, hrest, h⟩ := Outcome.bind_eq_ok_iff.mp h
  cases h
  obtain ⟨hr, hothers⟩ := List.forall_mem_cons.mp hok
  obtain ⟨start, fixed, hp, hconverged, _, rfl⟩ :=
    exists_prepared_of_isOk (Operation.outcome_eq_ok_iff.mp hsolve) hr
  cases hsys.symm.trans hp.assembled
  exact ⟨⟨sys, r⟩, rest, fixed, _, rfl, hp, hconverged, hrest, hothers⟩

/-- Successful solves of several groups leave everything else alone. -/
theorem solvedOver_of_solveEach (h : s.solveEach la config gs = .ok (solves, t))
    (hok : ∀ solve ∈ solves, solve.report.status.isOk = true) : SolvedOver gs s t := by
  induction gs generalizing s solves with
  | nil =>
    cases h
    exact .nil _
  | cons g gs ih =>
    obtain ⟨_, _, fixed, dof, rfl, hp, _, hrest, hothers⟩ := exists_prepared_of_solveEach h hok
    exact .cons (hp.solvedApart dof) (ih hrest hothers)

/-- Groups that are solved in ascending order are all solved at the end. -/
theorem isSolved_of_solveEach (hgs : gs.Pairwise (· < ·))
    (h : s.solveEach la config gs = .ok (solves, t))
    (hok : ∀ solve ∈ solves, solve.report.status.isOk = true) :
    ∀ g ∈ gs, t.isSolved g = true := by
  induction gs generalizing s solves with
  | nil => exact fun g hg ↦ absurd hg List.not_mem_nil
  | cons g gs ih =>
    obtain ⟨hg, hgs⟩ := List.pairwise_cons.mp hgs
    obtain ⟨_, _, fixed, dof, rfl, hp, _, hrest, hothers⟩ := exists_prepared_of_solveEach h hok
    refine List.forall_mem_cons.mpr ⟨?_, ih hgs hrest hothers⟩
    apply (solvedOver_of_solveEach hrest hothers).isSolved hg
    rw [Sketch.isSolved, Sketch.find?_groups_commit, if_pos rfl]
    rfl

/-- The systems are written for the groups that are solved, in turn. -/
theorem map_group_of_solveEach (h : s.solveEach la config gs = .ok (solves, t))
    (hok : ∀ solve ∈ solves, solve.report.status.isOk = true) :
    solves.map (fun solve ↦ solve.system.group) = gs := by
  induction gs generalizing s solves with
  | nil =>
    cases h
    rfl
  | cons g gs ih =>
    obtain ⟨_, _, fixed, dof, rfl, hp, _, hrest, hothers⟩ := exists_prepared_of_solveEach h hok
    rw [List.map_cons, Sketch.group_of_assemble hp.assembled, ih hrest hothers]

/-- The equations of groups that are solved in ascending order all hold at the end. -/
theorem abs_eval_le_of_solveEach (hpositive : Arith.abs (0.0 : R) ≤ config.tolerance)
    (hself : ∀ p ∈ t.params.values, p.value - p.value = 0.0) (hgs : gs.Pairwise (· < ·))
    (h : s.solveEach la config gs = .ok (solves, t))
    (hok : ∀ solve ∈ solves, solve.report.status.isOk = true) :
    ∀ solve ∈ solves, ∀ eq ∈ solve.system.equations,
      Arith.abs (eq.expr.eval t.value) ≤ config.tolerance := by
  induction gs generalizing s solves with
  | nil =>
    cases h
    exact fun solve hsolve ↦ absurd hsolve List.not_mem_nil
  | cons g gs ih =>
    obtain ⟨hg, hgs⟩ := List.pairwise_cons.mp hgs
    obtain ⟨_, _, fixed, dof, rfl, hp, hconverged, hrest, hothers⟩ :=
      exists_prepared_of_solveEach h hok
    refine List.forall_mem_cons.mpr ⟨?_, ih hgs hrest hothers⟩
    intro eq heq
    exact hp.abs_eval_le_of_solvedOver hconverged hpositive hself
      (solvedOver_of_solveEach hrest hothers) (fun hmem ↦ Nat.lt_irrefl _ (hg g hmem)) heq

/-- If all groups of a sketch are solved in ascending order with a valid configuration and every
solve succeeds, then all groups are solved at the end, and every equation of every group holds up to
the tolerance at the values in the sketch. Of arithmetic this asks that zero is within every
positive bound and that the values in the sketch, each less itself, are zero. -/
theorem satisfied_of_solveEach (hconfig : config.validate = .ok ())
    (hzero : ∀ x : R, 0.0 < x → Arith.abs (0.0 : R) ≤ x)
    (hself : ∀ p ∈ t.params.values, p.value - p.value = 0.0)
    (h : s.solveEach la config s.groups.keys = .ok (solves, t))
    (hok : ∀ solve ∈ solves, solve.report.status.isOk = true) :
    (∀ g, t.groups.contains g = true → t.isSolved g = true) ∧
      solves.map (fun solve ↦ solve.system.group) = s.groups.keys ∧
      ∀ solve ∈ solves, ∀ eq ∈ solve.system.equations,
        Arith.abs (eq.expr.eval t.value) ≤ config.tolerance := by
  have hgs : s.groups.keys.Pairwise (· < ·) := s.groups.sorted_keys
  refine ⟨?_, map_group_of_solveEach h hok, ?_⟩
  · intro g hg
    apply isSolved_of_solveEach hgs h hok
    rcases (solvedOver_of_solveEach h hok).registered g hg with hs | hmem
    · exact Table.contains_eq_true_iff.mp hs
    · exact hmem
  · exact abs_eval_le_of_solveEach (hzero _ (Config.tolerance_pos hconfig)) hself hgs h hok

/-- The points of three groups are solved from the bottom up in double precision. -/
theorem satisfied_of_solveEach_pointsOfThreeGroups :
    ∃ solves t, pointsOfThreeGroups.solveEach .standard .default pointsOfThreeGroups.groups.keys =
        .ok (solves, t) ∧
      (∀ solve ∈ solves, solve.report.status.isOk = true) ∧
      (∀ g, t.groups.contains g = true → t.isSolved g = true) ∧
      solves.map (fun solve ↦ solve.system.group) = pointsOfThreeGroups.groups.keys ∧
      ∀ solve ∈ solves, ∀ eq ∈ solve.system.equations,
        Arith.abs (eq.expr.eval t.value) ≤ (Config.default : Config Float).tolerance := by
  have hconfig : (Config.default : Config Float).validate = .ok () := by rfl
  have hsolved : (pointsOfThreeGroups.solveEach .standard .default
      pointsOfThreeGroups.groups.keys).toOption.any (fun result ↦
        (result.1.all fun solve ↦ solve.report.status.isOk) &&
          result.2.params.values.all fun p ↦ decide (p.value - p.value = 0.0)) = true := by
    decide +kernel
  obtain ⟨⟨solves, t⟩, hrun, hboth⟩ := Outcome.exists_of_any_toOption hsolved
  obtain ⟨hall, hself⟩ := Bool.and_eq_true_iff.mp hboth
  have hok : ∀ solve ∈ solves, solve.report.status.isOk = true := List.all_eq_true.mp hall
  refine ⟨solves, t, hrun, hok, ?_⟩
  refine satisfied_of_solveEach hconfig (fun _ ↦ abs_zero_le_of_pos) ?_ hrun hok
  intro p hp
  exact of_decide_eq_true (List.all_eq_true.mp hself p hp)

end SketchSolver
