import SketchSolver.Proofs.Run.Totality
import SketchSolver.Proofs.Solve.Rewriting

/-!
# Leaving a constraint out

Redundancy is diagnosed by leaving constraints out of the system, one at a time. Leaving out is not
quite removing. An arc whose ends are brought together keeps no equation of its own, and that is
decided by the constraints of the whole sketch, also by the one that is left out. So the system
lacks the equations of the arcs that this constraint alone closes, and is otherwise the system of
the sketch without it.
-/

namespace SketchSolver

variable {R : Type}

namespace Sketch

/-- The sketch with one constraint taken from the table. -/
def withoutConstraint (s : Sketch R) (c : ConstraintId) : Sketch R :=
  { s with constraints := s.constraints.erase c }

/-- Whether an item is an arc whose ends are brought together by one constraint alone. -/
def closesArc (s : Sketch R) (c : ConstraintId) : Item → Bool
  | .constraint _ => false
  | .entity id =>
    match s.entities.find? id with
    | some ⟨_, g, _, .arc _ _ start finish⟩ =>
      s.areJoined g start finish && !(s.withoutConstraint c).areJoined g start finish
    | _ => false

variable {s : Sketch R} {g : GroupId} {c : ConstraintId}

private theorem mem_values_withoutConstraint {d : Constraint R} :
    d ∈ (s.withoutConstraint c).constraints.values ↔
      ∃ k, k ≠ c ∧ s.constraints.find? k = some d := by
  rw [Table.mem_values_iff]
  refine exists_congr fun k ↦ ?_
  rw [withoutConstraint, Table.find?_erase]
  by_cases hk : k = c
  · simp [hk]
  · rw [if_neg fun hi ↦ hk (Numbered.index_inj hi)]
    simp [hk]

private theorem closesArc_of_arc {id normal center start finish : EntityId} {wp : Option EntityId}
    (he : s.entities.find? id = some ⟨id, g, wp, .arc normal center start finish⟩) :
    s.closesArc c (.entity id) = (s.areJoined g start finish &&
      !(s.withoutConstraint c).areJoined g start finish) := by
  simp only [closesArc, he]

/-- Points that are joined without a constraint are joined with it. -/
theorem areJoined_of_withoutConstraint {a b : EntityId}
    (h : (s.withoutConstraint c).areJoined g a b = true) : s.areJoined g a b = true := by
  obtain ⟨d, hd, hjoins⟩ := List.any_eq_true.mp h
  obtain ⟨hmem, hg⟩ := List.mem_filter.mp hd
  obtain ⟨k, _, hk⟩ := mem_values_withoutConstraint.mp hmem
  exact List.any_eq_true.mpr
    ⟨d, List.mem_filter.mpr ⟨Table.mem_values_iff.mpr ⟨k, hk⟩, hg⟩, hjoins⟩

/-- The constraints without one of them are those from which it is left out. -/
theorem values_withoutConstraint (h : s.WellNumbered) (c : ConstraintId) :
    (s.withoutConstraint c).constraints.values =
      s.constraints.values.filter fun d ↦ decide (some c ≠ some d.id) := by
  rw [withoutConstraint, Table.values, Table.toList_erase, Table.values, List.filter_map]
  refine congrArg (List.map Prod.snd) (List.filter_congr fun e he ↦ ?_)
  have hid : e.2.id = e.1 := (h.constraints e.1 e.2 (Table.find?_eq_some_iff.mpr he)).1
  rw [Function.comp_apply, hid, Bool.eq_iff_iff, bne_iff_ne, decide_eq_true_iff]
  constructor
  · rintro hne hc
    exact hne (congrArg Numbered.index (Option.some.inj hc).symm)
  · rintro hne hi
    exact hne (congrArg some (Numbered.index_inj hi).symm)

variable [Arith R]

/-! ## Equations of items -/

/-- A constraint is written alike without another one. -/
theorem constraintRows_withoutConstraint (s : Sketch R) (c : ConstraintId) :
    (s.withoutConstraint c).constraintRows = s.constraintRows := by
  funext d
  obtain ⟨id, g, wp, relation⟩ := d
  cases relation <;> rfl

private theorem entityEquations_withoutConstraint {e : Entity}
    (he : s.entities.find? e.id = some e) (hcloses : s.closesArc c (.entity e.id) = false) :
    s.entityEquations e = (s.withoutConstraint c).entityEquations e := by
  obtain ⟨id, g, wp, shape⟩ := e
  cases shape with
  | arc normal center start finish =>
    rw [closesArc_of_arc he] at hcloses
    have hjoined : s.areJoined g start finish =
        (s.withoutConstraint c).areJoined g start finish := by
      cases hs : s.areJoined g start finish with
      | true => rw [hs, Bool.true_and, Bool.not_eq_false'] at hcloses; rw [hcloses]
      | false =>
        refine (Bool.eq_false_iff.mpr fun ht ↦ ?_).symm
        rw [areJoined_of_withoutConstraint ht] at hs
        cases hs
    unfold entityEquations
    dsimp only
    rw [hjoined]
    rfl
  | _ => rfl

private theorem entityEquations_of_closesArc {e : Entity} (he : s.entities.find? e.id = some e)
    (hcloses : s.closesArc c (.entity e.id) = true) {xs : List (Expr R)}
    (h : (s.withoutConstraint c).entityEquations e = .ok xs) : s.entityEquations e = .ok [] := by
  obtain ⟨id, g, wp, shape⟩ := e
  cases shape with
  | arc normal center start finish =>
    rw [closesArc_of_arc he, Bool.and_eq_true_iff] at hcloses
    obtain ⟨e, hcenter, _⟩ := Outcome.bind_eq_ok_iff.mp h
    refine Outcome.bind_eq_ok_iff.mpr ⟨e, hcenter, ?_⟩
    rw [hcloses.1, Bool.or_true]
    rfl
  | _ =>
    simp only [closesArc, he] at hcloses
    cases hcloses

/-- An entity is written alike without a constraint, unless the constraint alone closes it. -/
theorem entityRows_of_withoutConstraint {e : Entity} (he : s.entities.find? e.id = some e)
    {rows : List (Equation R)} (h : (s.withoutConstraint c).entityRows e = .ok rows) :
    s.entityRows e = .ok (rows.filter fun eq ↦ !s.closesArc c eq.source) := by
  obtain ⟨xs, hxs, h⟩ := Outcome.bind_eq_ok_iff.mp h
  cases h
  rw [List.filter_map]
  cases hcloses : s.closesArc c (.entity e.id) with
  | true =>
    have hnone : xs.filter ((fun eq ↦ !s.closesArc c eq.source) ∘
        fun x ↦ (⟨.entity e.id, e.group, x, false⟩ : Equation R)) = [] := by
      simp [hcloses]
    rw [entityRows, entityEquations_of_closesArc he hcloses hxs, hnone]
    rfl
  | false =>
    have hall : xs.filter ((fun eq ↦ !s.closesArc c eq.source) ∘
        fun x ↦ (⟨.entity e.id, e.group, x, false⟩ : Equation R)) = xs := by
      simp [hcloses]
    rw [entityRows, entityEquations_withoutConstraint he hcloses, hxs, hall]
    rfl

private theorem exists_entityRows_withoutConstraint (h : s.Linked) (hp : s.Placed) {k : EntityId}
    {e : Entity} (he : s.entities.find? k = some e) :
    ∃ rows, (s.withoutConstraint c).entityRows e = .ok rows := by
  -- Entities and parameters are those of the sketch, and that is all that is read.
  have hreadable : ∀ j f, s.HasEntity e.group j → s.entities.find? j = some f →
      f.Readable (s.withoutConstraint c) (s.HasEntity e.group) (s.HasParam e.group) := by
    rintro j f ⟨f', hf', hle⟩ hf
    cases hf.symm.trans hf'
    have hread := h.readable_entity hp hf hle
    exact ⟨hread.demands, hread.params, hread.placed⟩
  have hshares : (s.withoutConstraint c).Shares (s.HasEntity e.group) (s.HasParam e.group)
      (s.withoutConstraint c) := ⟨hreadable, fun _ _ ↦ rfl, fun _ _ ↦ rfl⟩
  obtain ⟨xs, hxs, _⟩ := hshares.entityEquations (hreadable k e ⟨e, he, Nat.le_refl _⟩ he)
    fun _ _ ↦ rfl
  exact ⟨_, Outcome.bind_eq_ok_iff.mpr ⟨xs, hxs, rfl⟩⟩

/-! ## Systems -/

private theorem closesArc_of_mem_constraintRows {ds : List (Constraint R)}
    {rows : List (List (Equation R))} (h : ds.mapM s.constraintRows = .ok rows) {eq : Equation R}
    (heq : eq ∈ rows.flatten) : s.closesArc c eq.source = false := by
  obtain ⟨row, hrow, heq⟩ := List.mem_flatten.mp heq
  obtain ⟨d, _, hd⟩ := Outcome.exists_of_mem_mapM h hrow
  obtain ⟨es, _, hd⟩ := Outcome.bind_eq_ok_iff.mp hd
  cases hd
  obtain ⟨e, _, rfl⟩ := List.mem_map.mp heq
  rfl

private theorem exists_mapM_entityRows (h : s.Linked) (hp : s.Placed) (c : ConstraintId)
    {es : List Entity} (hes : ∀ e ∈ es, s.entities.find? e.id = some e) :
    ∃ rows, es.mapM (s.withoutConstraint c).entityRows = .ok rows ∧
      es.mapM s.entityRows =
        .ok (rows.map (List.filter fun eq ↦ !s.closesArc c eq.source)) := by
  have htotal : ∀ e ∈ es, Outcome.Concur ((s.withoutConstraint c).entityRows e)
      ((s.withoutConstraint c).entityRows e) fun _ ↦ True := by
    intro e he
    obtain ⟨rows, hrows⟩ := exists_entityRows_withoutConstraint (c := c) h hp (hes e he)
    exact ⟨rows, hrows, hrows, trivial⟩
  obtain ⟨rows, hrows, _⟩ := Outcome.concur_mapM htotal
  exact ⟨rows, hrows, Outcome.mapM_eq_ok_map hrows fun e he _ hrow ↦
    entityRows_of_withoutConstraint (hes e he) hrow⟩

/-- The equations that are written if a constraint is left out are those that are written without
it, but for those of arcs that the constraint alone closes. -/
theorem exists_writeEquations_withoutConstraint (h : s.Linked) (hp : s.Placed) (g : GroupId)
    (c : ConstraintId) :
    ∃ written, (s.withoutConstraint c).writeEquations g none = .ok written ∧
      s.writeEquations g (some c) = .ok (written.filter fun eq ↦ !s.closesArc c eq.source) := by
  obtain ⟨_, hwritten, _⟩ := h.writeEquations hp (.refl g s) (some c)
  obtain ⟨crows, hcrows, _⟩ := Outcome.bind_eq_ok_iff.mp hwritten
  have hconstraints : (s.withoutConstraint c).constraints.values.filter (fun d ↦
        decide (d.group ≤ g) && decide (none ≠ some d.id)) =
      s.constraints.values.filter fun d ↦
        decide (d.group ≤ g) && decide (some c ≠ some d.id) := by
    rw [values_withoutConstraint h.numbered, List.filter_filter]
    simp
  have hfound : ∀ e ∈ s.entities.values.filter (fun e ↦ decide (e.group ≤ g)),
      s.entities.find? e.id = some e := by
    intro e he
    obtain ⟨k, hk⟩ := Table.mem_values_iff.mp (List.mem_of_mem_filter he)
    rw [(h.numbered.entities k e hk).1, hk]
  obtain ⟨erows, herows, hkept⟩ := exists_mapM_entityRows h hp c hfound
  refine ⟨crows.flatten ++ erows.flatten,
    Outcome.bind_eq_ok_iff.mpr ⟨crows, ?_, Outcome.bind_eq_ok_iff.mpr ⟨erows, herows, rfl⟩⟩,
    Outcome.bind_eq_ok_iff.mpr ⟨crows, hcrows, Outcome.bind_eq_ok_iff.mpr ⟨_, hkept, ?_⟩⟩⟩
  · rw [hconstraints, constraintRows_withoutConstraint, hcrows]
  · have hcrowsKept : crows.flatten.filter (fun eq ↦ !s.closesArc c eq.source) =
        crows.flatten :=
      List.filter_eq_self.mpr fun eq heq ↦ by
        rw [closesArc_of_mem_constraintRows hcrows heq, Bool.not_false]
    rw [List.filter_append, hcrowsKept, List.filter_flatten]
    rfl

/-- What the constraints of a system are is not looked at once its equations are written. -/
theorem system_withoutConstraint (s : Sketch R) (c : ConstraintId) (g : GroupId)
    (dragged : HandleSet ParamId) (written : List (Equation R)) (keep : Item → Bool) :
    s.system g dragged (written.filter fun eq ↦ keep eq.source) =
      { (s.withoutConstraint c).system g dragged written with
        equations := ((s.withoutConstraint c).system g dragged written).equations.filter
          fun eq ↦ keep eq.source } := by
  have hsystem :
      (s.withoutConstraint c).system g dragged written = s.system g dragged written := rfl
  rw [hsystem]
  unfold system
  dsimp only
  rw [List.filter_filter, List.filter_map, List.filter_map, List.filter_filter,
    EquationSystem.mk.injEq]
  refine ⟨rfl, congrArg (List.map _) (List.filter_congr fun eq _ ↦ ?_), rfl, rfl, rfl, rfl⟩
  exact Bool.and_comm _ _

/-- In a sketch that comes about, a system from which a constraint is left out is the system of the
sketch without the constraint, but for the equations of arcs that the constraint alone closes. It is
the same system exactly if there is no such equation. -/
theorem assembleExcluding_withoutConstraint {la : LinearAlgebra R} (hs : s.Reachable la)
    (g : GroupId) (dragged : HandleSet ParamId) (c : ConstraintId) :
    ∃ sys, (s.withoutConstraint c).assemble g dragged = .ok sys ∧
      s.assembleExcluding g dragged (some c) = .ok { sys with
        equations := sys.equations.filter fun eq ↦ !s.closesArc c eq.source } ∧
      (s.assembleExcluding g dragged (some c) = (s.withoutConstraint c).assemble g dragged ↔
        ∀ eq ∈ sys.equations, s.closesArc c eq.source = false) := by
  obtain ⟨hlinked, hplaced⟩ := hs.linked_placed
  obtain ⟨written, hwhole, hrest⟩ := exists_writeEquations_withoutConstraint hlinked hplaced g c
  have hsystem := s.system_withoutConstraint c g dragged written fun item ↦ !s.closesArc c item
  refine ⟨_, assembleExcluding_eq_ok_iff.mpr ⟨written, hwhole, rfl⟩,
    assembleExcluding_eq_ok_iff.mpr ⟨_, hrest, hsystem⟩, ?_⟩
  have hassemble : (s.withoutConstraint c).assemble g dragged = _ :=
    assembleExcluding_eq_ok_iff.mpr ⟨written, hwhole, rfl⟩
  rw [assembleExcluding_eq_ok_iff.mpr ⟨_, hrest, hsystem⟩, hassemble, Except.ok.injEq]
  constructor
  · intro hsame eq heq
    have hkept := List.filter_eq_self.mp (congrArg EquationSystem.equations hsame) eq heq
    rwa [Bool.not_eq_true'] at hkept
  · intro hnone
    rw [List.filter_eq_self.mpr fun eq heq ↦ by rw [hnone eq heq, Bool.not_false]]

end Sketch

/-! ## An arc that a coincidence closes -/

/-- An arc of a workplane whose ends are brought together. -/
def arcClosed : Sketch Float :=
  (Sketch.empty .default).runAll .standard
    [.draw ⟨1⟩ (.normal3d ⟨1.0, 0.0, 0.0, 0.0⟩), .draw ⟨1⟩ (.point3d ⟨0.0, 0.0, 0.0⟩),
      .draw ⟨1⟩ (.workplane ⟨2⟩ ⟨1⟩), .draw ⟨1⟩ (.point2d ⟨3⟩ 0.0 0.0),
      .draw ⟨1⟩ (.point2d ⟨3⟩ 1.0 0.0), .draw ⟨1⟩ (.point2d ⟨3⟩ 0.0 1.0),
      .draw ⟨1⟩ (.arc ⟨3⟩ ⟨1⟩ ⟨4⟩ ⟨5⟩ ⟨6⟩), .relate ⟨1⟩ (.coincident ⟨5⟩ ⟨6⟩ (some ⟨3⟩))]

/-- If the coincidence is left out, the equation of the arc is missing that is there without it. -/
theorem sources_arcClosed :
    arcClosed.Reachable .standard ∧
      ∃ part whole, arcClosed.assembleExcluding ⟨1⟩ .empty (some ⟨1⟩) = .ok part ∧
        (arcClosed.withoutConstraint ⟨1⟩).assemble ⟨1⟩ .empty = .ok whole ∧
        part.equations.map Equation.source = [.entity ⟨1⟩] ∧
        whole.equations.map Equation.source = [.entity ⟨1⟩, .entity ⟨7⟩] := by
  have hpart : (arcClosed.assembleExcluding ⟨1⟩ .empty (some ⟨1⟩)).toOption.any (fun sys ↦
      decide (sys.equations.map Equation.source = [.entity ⟨1⟩])) = true := by decide +kernel
  have hwhole : ((arcClosed.withoutConstraint ⟨1⟩).assemble ⟨1⟩ .empty).toOption.any (fun sys ↦
      decide (sys.equations.map Equation.source = [.entity ⟨1⟩, .entity ⟨7⟩])) = true := by
    decide +kernel
  obtain ⟨part, hpart, hone⟩ := Outcome.exists_of_any_toOption hpart
  obtain ⟨whole, hwhole, htwo⟩ := Outcome.exists_of_any_toOption hwhole
  exact ⟨⟨_, _, rfl⟩, part, whole, hpart, hwhole, of_decide_eq_true hone, of_decide_eq_true htwo⟩

/-- The systems of the arc with and without the coincidence differ as it is said. -/
theorem assembleExcluding_withoutConstraint_arcClosed :
    arcClosed.Reachable .standard ∧
      ∃ sys, (arcClosed.withoutConstraint ⟨1⟩).assemble ⟨1⟩ .empty = .ok sys ∧
        arcClosed.assembleExcluding ⟨1⟩ .empty (some ⟨1⟩) = .ok { sys with
          equations := sys.equations.filter fun eq ↦ !arcClosed.closesArc ⟨1⟩ eq.source } ∧
        (arcClosed.assembleExcluding ⟨1⟩ .empty (some ⟨1⟩) =
            (arcClosed.withoutConstraint ⟨1⟩).assemble ⟨1⟩ .empty ↔
          ∀ eq ∈ sys.equations, arcClosed.closesArc ⟨1⟩ eq.source = false) :=
  ⟨⟨_, _, rfl⟩, Sketch.assembleExcluding_withoutConstraint ⟨_, _, rfl⟩ ⟨1⟩ .empty ⟨1⟩⟩

end SketchSolver
