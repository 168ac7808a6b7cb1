import SketchSolver.Proofs.Run.Flags
import SketchSolver.Proofs.Run.Translation

/-!
# Totality of translation

The entities of a group and all earlier ones are closed under references, and so are the parameters
that they and the constraints of these groups list. So the system of a group can be written in every
sketch that comes about, and it depends on nothing in later groups. A solve is refused only if its
group does not exist, and no parameter is frozen that does not exist.
-/

namespace SketchSolver

open Outcome

variable {R : Type}

namespace Sketch

/-! ## What is in scope -/

/-- An entity of a group or an earlier one. -/
def HasEntity (s : Sketch R) (g : GroupId) (k : EntityId) : Prop :=
  ∃ e, s.entities.find? k = some e ∧ e.group ≤ g

/-- A parameter of a group or an earlier one. -/
def HasParam (s : Sketch R) (g : GroupId) (k : ParamId) : Prop :=
  ∃ p, s.params.find? k = some p ∧ p.group ≤ g

variable {s t : Sketch R} {g : GroupId}

/-- What meets a demand of an item is in the scope of its group. -/
theorem Meets.offers {h : GroupId} {d : Demand} (hd : s.Meets h d) (hle : h ≤ g) :
    s.Offers (s.HasEntity g) d := by
  obtain ⟨e, he, hkind, hgroup⟩ := hd.of_le hle
  exact ⟨⟨e, he, hgroup⟩, e, he, hkind⟩

private theorem hasParam_of_listed (h : s.Linked) {item : Item} {j : GroupId} {ks : List ParamId}
    (hks : s.listing item = some (j, ks)) (hle : j ≤ g) {k : ParamId} (hk : k ∈ ks) :
    s.HasParam g k := by
  obtain ⟨p, hp, _, rfl⟩ := h.exists_param hks hk
  exact ⟨p, hp, hle⟩

/-- The references of an entity stay in the scope of its group. -/
theorem Linked.readable_entity (h : s.Linked) (hp : s.Placed) {k : EntityId} {e : Entity}
    (he : s.entities.find? k = some e) (hle : e.group ≤ g) :
    e.Readable s (s.HasEntity g) (s.HasParam g) where
  demands d hd := (h.entities k e he d hd).offers hle
  params p hmem := by
    have hks : s.listing (.entity k) = some (e.group, e.params) := by
      rw [listing, he, Option.map_some]
    exact hasParam_of_listed h hks hle hmem
  placed := hp.entities k e he

/-- The references of a constraint stay in the scope of its group. -/
theorem Linked.readable_constraint (h : s.Linked) (hp : s.Placed) {k : ConstraintId}
    {c : Constraint R} (hc : s.constraints.find? k = some c) (hle : c.group ≤ g) :
    c.Readable s (s.HasEntity g) (s.HasParam g) where
  demands d hd := (h.constraints k c hc d hd).offers hle
  ends p hmem := (h.ends hc hmem).offers hle
  aux p haux := by
    have hks : s.listing (.constraint k) = some (c.group, c.relation.aux?.toList) := by
      rw [listing, hc, Option.map_some]
    exact hasParam_of_listed h hks hle (by simp [haux])
  placed := hp.constraints k c hc

private theorem contains_of_hasParam {p : ParamId} (h : s.HasParam g p) :
    s.params.contains p = true := by
  obtain ⟨q, hq, _⟩ := h
  exact Table.contains_iff_exists.mpr ⟨q, hq⟩

private theorem group_eq_error_iff {e : SketchError R} :
    s.group g = .error e ↔ s.groups.contains g = false ∧ e = .groupNotFound g := by
  rw [Table.contains_eq_false_iff, group]
  cases s.groups.find? g with
  | none => simp [eq_comm]
  | some st => simp

/-- Sketches that are the same up to a group stay so when the same values are written. -/
theorem sameUpTo_commit (h : SameUpTo g s t) (j : GroupId) (values : Table ParamId R)
    (dof : Nat) : SameUpTo g (s.commit j values dof) (t.commit j values dof) := by
  refine ⟨h.1, ?_⟩
  have hfilter : ∀ (k : ParamId) (x : Option (Param R)),
      ((x.map fun p ↦ { p with value := (values.find? k).getD p.value }).filter fun p ↦
          decide (p.group ≤ g)) =
        (x.filter fun p ↦ decide (p.group ≤ g)).map fun p ↦
          { p with value := (values.find? k).getD p.value } := by
    intro k x
    cases x with
    | none => rfl
    | some p => by_cases hp : p.group ≤ g <;> simp [Option.filter_some, hp]
  intro k
  rw [find?_params_commit, find?_params_commit, hfilter, hfilter, h.2 k]

variable [Arith R]

/-- Sketches that are the same up to a group share the scope of the group. -/
theorem Linked.shares (h : s.Linked) (hp : s.Placed)
    (hentities : AgreeOn (fun e : Entity ↦ decide (e.group ≤ g)) s.entities t.entities)
    (hvalues : SameValues g s t) : s.Shares (s.HasEntity g) (s.HasParam g) t where
  readable k e hscope he := by
    obtain ⟨f, hf, hle⟩ := hscope
    cases he.symm.trans hf
    exact h.readable_entity hp he hle
  entities k hscope := by
    obtain ⟨e, he, hle⟩ := hscope
    rw [he, hentities.find?_eq_some he (decide_eq_true hle)]
  values k hknown := by
    obtain ⟨p, hk, hle⟩ := hknown
    rw [Sketch.value, Sketch.value, hk, hvalues.find?_eq_some hk (decide_eq_true hle)]

/-! ## Writing a system -/

omit [Arith R] in
private theorem constraintsIn_eq (h : SameItems g s t) {j : GroupId} (hle : j ≤ g) :
    t.constraintsIn j = s.constraintsIn j := by
  apply h.2.values_filter
  intro c hc
  exact decide_eq_true (eq_of_beq hc ▸ hle)

private theorem concur_constraintRows {c : Constraint R} {known : ParamId → Prop}
    (h : Constraint.Translates known s t c) :
    Concur (s.constraintRows c) (t.constraintRows c) fun rows ↦
      ∀ row ∈ rows, row.expr.Within known := by
  refine h.bind fun es hes ↦ .ok ?_
  intro row hrow
  obtain ⟨e, he, rfl⟩ := List.mem_map.mp hrow
  exact hes e he

private theorem concur_entityRows {e : Entity} {known : ParamId → Prop}
    (h : Concur (s.entityEquations e) (t.entityEquations e) fun xs ↦
      ∀ x ∈ xs, x.Within known) :
    Concur (s.entityRows e) (t.entityRows e) fun rows ↦ ∀ row ∈ rows, row.expr.Within known := by
  refine h.bind fun xs hxs ↦ .ok ?_
  intro row hrow
  obtain ⟨x, hx, rfl⟩ := List.mem_map.mp hrow
  exact hxs x hx

/-- The equations of a group are written alike, and mention parameters of the group and earlier ones
only. -/
theorem Linked.writeEquations (h : s.Linked) (hp : s.Placed) (hst : SameUpTo g s t)
    (excluded : Option ConstraintId) :
    Concur (s.writeEquations g excluded) (t.writeEquations g excluded) fun rows ↦
      ∀ row ∈ rows, row.expr.Within (s.HasParam g) := by
  have hshares := h.shares hp hst.1.1 hst.2
  have fromConstraints : Concur (((s.constraints.values.filter fun c ↦
        decide (c.group ≤ g) && decide (excluded ≠ some c.id)).mapM s.constraintRows))
      ((t.constraints.values.filter fun c ↦
        decide (c.group ≤ g) && decide (excluded ≠ some c.id)).mapM t.constraintRows)
      fun parts ↦ ∀ rows ∈ parts, ∀ row ∈ rows, row.expr.Within (s.HasParam g) := by
    rw [hst.1.2.values_filter fun c hc ↦ (Bool.and_eq_true_iff.mp hc).1]
    refine concur_mapM fun c hc ↦ ?_
    obtain ⟨hmem, hgroup⟩ := List.mem_filter.mp hc
    obtain ⟨k, hk⟩ := Table.mem_values_iff.mp hmem
    have hle : c.group ≤ g := of_decide_eq_true (Bool.and_eq_true_iff.mp hgroup).1
    exact concur_constraintRows (hshares.equations (h.readable_constraint hp hk hle))
  have fromEntities : Concur ((s.entities.values.filter fun e ↦ decide (e.group ≤ g)).mapM
        s.entityRows)
      ((t.entities.values.filter fun e ↦ decide (e.group ≤ g)).mapM t.entityRows)
      fun parts ↦ ∀ rows ∈ parts, ∀ row ∈ rows, row.expr.Within (s.HasParam g) := by
    rw [hst.1.1.values_filter fun _ he ↦ he]
    refine concur_mapM fun e he ↦ ?_
    obtain ⟨hmem, hgroup⟩ := List.mem_filter.mp he
    obtain ⟨k, hk⟩ := Table.mem_values_iff.mp hmem
    have hle : e.group ≤ g := of_decide_eq_true hgroup
    exact concur_entityRows (hshares.entityEquations (h.readable_entity hp hk hle)
      fun a b ↦ by rw [areJoined, areJoined, constraintsIn_eq hst.1 hle])
  refine fromConstraints.bind fun crows hcrows ↦ fromEntities.bind fun erows herows ↦ .ok ?_
  intro row hrow
  rcases List.mem_append.mp hrow with hrow | hrow
  · obtain ⟨rows, hrows, hrow⟩ := List.mem_flatten.mp hrow
    exact hcrows rows hrows row hrow
  · obtain ⟨rows, hrows, hrow⟩ := List.mem_flatten.mp hrow
    exact herows rows hrows row hrow

omit [Arith R] in
/-- Unknowns are parameters of the group or an earlier one. -/
theorem group_le_of_isUnknown {dragged : HandleSet ParamId} {p : Param R}
    (h : isUnknown dragged g p = true) : p.group ≤ g := by
  rcases Bool.or_eq_true_iff.mp h with h | h
  · exact Nat.le_of_eq (congrArg GroupId.index (eq_of_beq h))
  · exact of_decide_eq_true (Bool.and_eq_true_iff.mp h).2

omit [Arith R] in
private theorem unknowns_eq (h : SameValues g s t) (dragged : HandleSet ParamId) :
    t.unknowns g dragged = s.unknowns g dragged := by
  rw [unknowns, unknowns, (h.mono fun p (hp : isUnknown dragged g p = true) ↦
    decide_eq_true (group_le_of_isUnknown hp)).filter_eq]

/-- The same equations give the same system. -/
theorem system_eq (h : SameUpTo g s t) (dragged : HandleSet ParamId) {rows : List (Equation R)}
    (hrows : ∀ row ∈ rows, row.expr.Within (s.HasParam g)) :
    t.system g dragged rows = s.system g dragged rows := by
  have hunknowns := unknowns_eq h.2 dragged
  have hdragged := (h.2.mono fun p (hp : isDragged dragged g p = true) ↦
    (Bool.and_eq_true_iff.mp hp).2).filter_eq
  have hfrozen : (rows.map fun eq ↦
      { eq with expr := (eq.expr.freeze (t.frozenValue (s.unknowns g dragged))).fold }) =
        rows.map fun eq ↦
          { eq with expr := (eq.expr.freeze (s.frozenValue (s.unknowns g dragged))).fold } := by
    apply List.map_congr_left
    intro row hrow
    have hfreeze : row.expr.freeze (t.frozenValue (s.unknowns g dragged)) =
        row.expr.freeze (s.frozenValue (s.unknowns g dragged)) := by
      apply Expr.freeze_congr
      intro p hp
      obtain ⟨q, hq, hle⟩ := hrows row hrow p hp
      have hvalue : t.value p = s.value p := by
        rw [Sketch.value, Sketch.value, hq, h.2.find?_eq_some hq (decide_eq_true hle)]
      rw [frozenValue, frozenValue, hvalue]
    rw [hfreeze]
  simp only [system, hunknowns, hfrozen, hdragged]

/-- The system of a group is written, and it is the same in sketches that are the same up to the
group. -/
theorem Linked.assembleExcluding (h : s.Linked) (hp : s.Placed) (hst : SameUpTo g s t)
    (dragged : HandleSet ParamId) (excluded : Option ConstraintId) :
    Concur (s.assembleExcluding g dragged excluded) (t.assembleExcluding g dragged excluded)
      fun _ ↦ True := by
  refine (h.writeEquations hp hst excluded).bind fun rows hrows ↦ ?_
  rw [system_eq hst dragged hrows]
  exact .ok trivial

/-! ## Diagnosing redundancy -/

variable {la : LinearAlgebra R} {config : Config R}

/-- The constraints that repeat others are found, and they are the same in sketches that are the
same up to the group. -/
theorem Linked.redundantConstraints (h : s.Linked) (hp : s.Placed) (hst : SameUpTo g s t)
    (rankTolerance : R) (dragged : HandleSet ParamId) :
    Concur (s.redundantConstraints la rankTolerance g dragged)
      (t.redundantConstraints la rankTolerance g dragged) fun _ ↦ True := by
  have hcandidates : t.redundancyCandidates g = s.redundancyCandidates g := by
    rw [redundancyCandidates, redundancyCandidates, constraintsIn_eq hst.1 (Nat.le_refl _)]
  rw [Sketch.redundantConstraints, Sketch.redundantConstraints, hcandidates]
  refine concur_filterM fun id _ ↦ ?_
  exact (h.assembleExcluding hp hst dragged (some id)).bind fun _ _ ↦ .ok trivial

/-- A solved system is diagnosed, and the diagnosis is the same in sketches that are the same up to
its group. -/
theorem Linked.diagnosis (h : s.Linked) (hp : s.Placed) {sys : EquationSystem R}
    (hst : SameUpTo sys.group s t) (redundant : Bool) :
    Concur (s.diagnosis la config sys redundant) (t.diagnosis la config sys redundant)
      fun _ ↦ True := by
  refine .ite ?_ (.ok trivial)
  have hplaced : (s.commit sys.group sys.resolvedValues 0).Placed :=
    hp.mono (fun _ _ he ↦ he) fun _ _ hc ↦ hc
  exact (h.commit _ _ _).redundantConstraints hplaced (sameUpTo_commit hst _ _ _) _ _

/-! ## What is refused -/

/-- A sketch all of whose items can be translated into equations over parameters that exist. -/
structure Translatable (la : LinearAlgebra R) (s : Sketch R) : Prop where
  /-- The equations of a constraint can be written. -/
  constraints : ∀ k c, s.constraints.find? k = some c →
    ∃ es, c.equations s = .ok es ∧ ∀ e ∈ es, ∀ p ∈ e.params, s.params.contains p = true
  /-- The equations of an entity can be written. -/
  entities : ∀ k e, s.entities.find? k = some e →
    ∃ xs, s.entityEquations e = .ok xs ∧ ∀ x ∈ xs, ∀ p ∈ x.params, s.params.contains p = true
  /-- The equations of a group can be written, and a parameter is frozen at the value it has. -/
  frozen : ∀ g excluded, ∃ rows, s.writeEquations g excluded = .ok rows ∧
    ∀ row ∈ rows, ∀ p ∈ row.expr.params, ∀ dragged x,
      s.frozenValue (s.unknowns g dragged) p = some x →
        ∃ q, s.params.find? p = some q ∧ x = q.value
  /-- A solve is refused exactly if its group does not exist. -/
  refused : ∀ config g dragged e, s.solveWith la config g dragged = .error e ↔
    s.groups.contains g = false ∧ e = .groupNotFound g

/-- A solve is refused exactly if its group does not exist. -/
theorem Linked.solveWith_eq_error_iff (h : s.Linked) (hp : s.Placed)
    {dragged : HandleSet ParamId} {e : SketchError R} :
    s.solveWith la config g dragged = .error e ↔
      s.groups.contains g = false ∧ e = .groupNotFound g := by
  rw [← group_eq_error_iff]
  constructor
  · intro herror
    have hend := solveEnd_solveWith la config s g dragged
    unfold Sketch.solveWith Operation.outcome at herror
    generalize (Operation.solveWith la config g dragged).run s = result at hend herror
    cases hend with
    | missing hg =>
      cases herror
      exact hg
    | unwritten ha =>
      obtain ⟨sys, hsys, _⟩ := h.assembleExcluding hp (.refl g s) dragged none
      rw [Sketch.assemble, hsys] at ha
      cases ha
    | oversized => cases herror
    | stuck => cases herror
    | diverged => cases herror
    | undiagnosed _ _ hdiagnosis =>
      obtain ⟨bad, hbad, _⟩ := h.diagnosis hp (.refl _ s) _
      rw [EquationSystem.finalDiagnosis, hbad] at hdiagnosis
      cases hdiagnosis
    | solved => cases herror
  · intro hg
    rw [Sketch.solveWith, Operation.outcome, Operation.solveWith,
      Operation.run_consult_bind_of_error hg]

/-- A sketch whose references are met and whose items are in place can be translated. -/
theorem Linked.translatable (h : s.Linked) (hp : s.Placed) (la : LinearAlgebra R) :
    s.Translatable la where
  constraints k c hc := by
    have hshares := h.shares (g := c.group) hp (.refl _ _) (.refl _ _)
    obtain ⟨es, hes, _, hwithin⟩ :=
      hshares.equations (h.readable_constraint hp hc (Nat.le_refl _))
    exact ⟨es, hes, fun e he p hmem ↦ contains_of_hasParam (hwithin e he p hmem)⟩
  entities k e he := by
    have hshares := h.shares (g := e.group) hp (.refl _ _) (.refl _ _)
    obtain ⟨xs, hxs, _, hwithin⟩ :=
      hshares.entityEquations (h.readable_entity hp he (Nat.le_refl _)) fun _ _ ↦ rfl
    exact ⟨xs, hxs, fun x hx p hmem ↦ contains_of_hasParam (hwithin x hx p hmem)⟩
  frozen g excluded := by
    obtain ⟨rows, hrows, _, hwithin⟩ := h.writeEquations hp (.refl g s) excluded
    refine ⟨rows, hrows, ?_⟩
    intro row hrow p hmem dragged x hx
    obtain ⟨q, hq, _⟩ := hwithin row hrow p hmem
    unfold frozenValue at hx
    split at hx
    · cases hx
    · cases hx
      exact ⟨q, hq, by rw [Sketch.value, hq]⟩
  refused config g dragged e := h.solveWith_eq_error_iff hp

/-- After every run of commands on an empty sketch, answered or refused, all items can be translated
into equations. The same is true of the copy with solved values that redundancy is diagnosed in. -/
theorem translatable_runAll (la : LinearAlgebra R) (config : Config R) (cs : List (Command R)) :
    ((empty config).runAll la cs).Translatable la ∧
      ∀ g values dof, (((empty config).runAll la cs).commit g values dof).Translatable la := by
  have hreachable : ((empty config).runAll la cs).Reachable la := ⟨config, cs, rfl⟩
  obtain ⟨hlinked, hplaced⟩ := hreachable.linked_placed
  refine ⟨hlinked.translatable hplaced la, fun g values dof ↦ ?_⟩
  exact (hlinked.commit g values dof).translatable
    (hplaced.mono (fun _ _ he ↦ he) fun _ _ hc ↦ hc) la

end Sketch

end SketchSolver
