import Mathlib.Data.List.Forall2
import SketchSolver.LinearAlgebra.Standard
import SketchSolver.Proofs.Exact.Folding
import SketchSolver.Proofs.Run.Totality

/-!
# Freezing

The system of a group means what the equations mean that are written for it. An equation that stays
has, at all values of the unknowns, the value that the written one has where all other parameters
are as in the sketch, and mentions unknowns only. An equation that is left out belongs to an earlier
group and has one value whatever the unknowns are. `Sketch.Freezes` puts this together.
-/

namespace SketchSolver

open List (Forall₂)

variable {R : Type}

namespace Sketch

/-- Whether a parameter is free in a solve of a group: it belongs to the group, or it is dragged and
belongs to the group or an earlier one. -/
def IsFree (s : Sketch R) (g : GroupId) (dragged : HandleSet ParamId) (p : ParamId) : Prop :=
  ∃ q, s.params.find? p = some q ∧ (q.group = g ∨ dragged.contains p = true ∧ q.group ≤ g)

/-- The unknowns of a group are the parameters that are free. -/
theorem WellNumbered.contains_unknowns_iff {s : Sketch R} (h : s.WellNumbered) {g : GroupId}
    {dragged : HandleSet ParamId} {p : ParamId} :
    (s.unknowns g dragged).contains p = true ↔ s.IsFree g dragged p := by
  rw [Table.contains, find?_unknowns, IsFree]
  cases hp : s.params.find? p with
  | none => simp
  | some q =>
    obtain ⟨rfl, _⟩ := h.params p q hp
    simp [Option.filter_some, isUnknown, isDragged]

variable [Arith R]

/-- The values of a sketch, with other values of some unknowns. -/
def valueWith (s : Sketch R) (unknowns : Table ParamId R) (v : ParamId → R) (p : ParamId) : R :=
  if unknowns.contains p then v p else s.value p

end Sketch

namespace Equation

variable [Arith R] {s : Sketch R} {unknowns : Table ParamId R}

/-- An equation of a system has the meaning of the equation that was written. -/
structure FrozenFrom (s : Sketch R) (unknowns : Table ParamId R) (written kept : Equation R) :
    Prop where
  /-- It comes from the same constraint or entity. -/
  source : kept.source = written.source
  /-- It belongs to the same group. -/
  group : kept.group = written.group
  /-- It has the same value where all but the unknowns are as in the sketch. -/
  value : ∀ v, kept.expr.eval v = written.expr.eval (s.valueWith unknowns v)
  /-- It mentions unknowns only. -/
  closed : ∀ p ∈ kept.expr.params, unknowns.contains p = true

/-- Freezing and folding an equation keeps its meaning. -/
theorem frozenFrom_frozen (laws : FoldingLaws R) (w : Equation R) :
    FrozenFrom s unknowns w (w.frozen (s.frozenValue unknowns)) where
  source := rfl
  group := rfl
  value v := by
    rw [frozen, Expr.eval_fold_of_laws laws, Expr.eval_freeze]
    apply Expr.eval_congr
    intro p _
    unfold Sketch.valueWith Sketch.frozenValue
    split <;> rfl
  closed _ hp := Sketch.contains_of_mem_frozen hp

omit [Arith R] in
/-- An equation that does not stay in the system of a group is of another group and mentions no
unknown. -/
theorem isKept_eq_false_iff {g : GroupId} {eq : Equation R} :
    eq.isKept g = false ↔ eq.group ≠ g ∧ eq.expr.params = [] := by
  simp [isKept, Expr.referenced_eq_none_iff]

end Equation

namespace Sketch

variable [Arith R]

/-- A system has the meaning of the equations that were written for a group. -/
structure Freezes (s : Sketch R) (g : GroupId) (dragged : HandleSet ParamId)
    (written : List (Equation R)) (sys : EquationSystem R) : Prop where
  /-- The equations of the group and all earlier ones were written. -/
  complete : ∀ w, w ∈ written ↔ s.Writes w ∧ w.group ≤ g
  /-- The unknowns are the parameters that are free. -/
  free : ∀ p, sys.values.contains p = true ↔ s.IsFree g dragged p
  /-- Some equations stay, with their meaning. Any other one belongs to an earlier group and has one
  value whatever the unknowns are. -/
  equations : ∃ stays : Equation R → Bool,
    Forall₂ (Equation.FrozenFrom s sys.values) (written.filter stays) sys.equations ∧
      ∀ w ∈ written, stays w = false → w.group < g ∧
        ∀ v v', w.expr.eval (s.valueWith sys.values v) = w.expr.eval (s.valueWith sys.values v')

variable {s : Sketch R} {g : GroupId} {dragged : HandleSet ParamId} {written : List (Equation R)}

/-- The equations that stay are the written ones, frozen. -/
theorem forall₂_equations_system (laws : FoldingLaws R) (s : Sketch R) (g : GroupId)
    (dragged : HandleSet ParamId) (written : List (Equation R)) :
    Forall₂ (Equation.FrozenFrom s (s.unknowns g dragged))
      (written.filter fun w ↦ (w.frozen (s.frozenValue (s.unknowns g dragged))).isKept g)
      (s.system g dragged written).equations := by
  rw [equations_system, List.filter_map, List.forall₂_map_right_iff]
  exact List.forall₂_same.mpr fun w _ ↦ w.frozenFrom_frozen laws

/-- An equation without unknowns has one value, whatever the unknowns are. -/
theorem eval_valueWith_eq_of_isKept_eq_false (laws : FoldingLaws R) {unknowns : Table ParamId R}
    {w : Equation R} (h : (w.frozen (s.frozenValue unknowns)).isKept g = false)
    (v v' : ParamId → R) :
    w.expr.eval (s.valueWith unknowns v) = w.expr.eval (s.valueWith unknowns v') := by
  have hfrozen : Equation.FrozenFrom s unknowns w (w.frozen (s.frozenValue unknowns)) :=
    w.frozenFrom_frozen laws
  have hnone := (Equation.isKept_eq_false_iff.mp h).2
  rw [← hfrozen.value v, ← hfrozen.value v']
  apply Expr.eval_congr
  intro p hp
  rw [hnone] at hp
  exact absurd hp List.not_mem_nil

/-- A system has the meaning of the equations from which it is made. -/
theorem WellNumbered.freezes_system (h : s.WellNumbered) (laws : FoldingLaws R)
    (hwritten : s.writeEquations g none = .ok written) :
    s.Freezes g dragged written (s.system g dragged written) where
  complete w := by simp [mem_written_iff hwritten]
  free p := h.contains_unknowns_iff
  equations := by
    refine ⟨_, forall₂_equations_system laws s g dragged written, fun w hw hstays ↦ ⟨?_, ?_⟩⟩
    · have hle := ((mem_written_iff hwritten).mp hw).2.1
      have hne := (Equation.isKept_eq_false_iff.mp hstays).1
      rw [GroupId.lt_def]
      refine Nat.lt_of_le_of_ne hle fun hindex ↦ hne ?_
      exact Numbered.index_inj hindex
    · exact eval_valueWith_eq_of_isKept_eq_false laws hstays

/-- In exact arithmetic, the system of a group is assembled in every sketch that comes about, and it
has the meaning of the equations of the group and all earlier ones. -/
theorem Reachable.exists_assemble_freezes {la : LinearAlgebra ℝ} {s : Sketch ℝ}
    (hs : s.Reachable la) (g : GroupId) (dragged : HandleSet ParamId) :
    ∃ written sys, s.writeEquations g none = .ok written ∧ s.assemble g dragged = .ok sys ∧
      s.Freezes g dragged written sys := by
  obtain ⟨hlinked, hplaced⟩ := hs.linked_placed
  obtain ⟨written, hwritten, _⟩ := (hlinked.translatable hplaced la).frozen g none
  refine ⟨written, s.system g dragged written, hwritten, ?_, ?_⟩
  · exact assembleExcluding_eq_ok_iff.mpr ⟨written, hwritten, rfl⟩
  · exact hs.wellNumbered.freezes_system Arith.foldingLaws_real hwritten

end Sketch

/-- Two points at a distance, and a point of a later group at a distance from the first. -/
noncomputable def pointsOfTwoGroups : Sketch ℝ :=
  (Sketch.empty .default).runAll .standard
    [.draw ⟨1⟩ (.point3d ⟨0, 0, 0⟩),
      .draw ⟨1⟩ (.point3d ⟨1, 0, 0⟩),
      .relate ⟨1⟩ (.distance ⟨1⟩ ⟨2⟩ 1 none),
      .draw ⟨2⟩ (.point3d ⟨0, 1, 0⟩),
      .relate ⟨2⟩ (.distance ⟨1⟩ ⟨3⟩ 1 none)]

/-- Of the two distances the earlier one is left out of the system of the later group. -/
theorem exists_assemble_freezes_pointsOfTwoGroups :
    pointsOfTwoGroups.Reachable .standard ∧
      ∃ written sys, pointsOfTwoGroups.writeEquations ⟨2⟩ none = .ok written ∧
        pointsOfTwoGroups.assemble ⟨2⟩ .empty = .ok sys ∧
        written.map Equation.source = [.constraint ⟨1⟩, .constraint ⟨2⟩] ∧
        sys.equations.map Equation.source = [.constraint ⟨2⟩] ∧
        pointsOfTwoGroups.Freezes ⟨2⟩ .empty written sys := by
  have hs : pointsOfTwoGroups.Reachable .standard := ⟨_, _, rfl⟩
  have hsources : ∃ written sys, pointsOfTwoGroups.writeEquations ⟨2⟩ none = .ok written ∧
      pointsOfTwoGroups.assemble ⟨2⟩ .empty = .ok sys ∧
      written.map Equation.source = [.constraint ⟨1⟩, .constraint ⟨2⟩] ∧
      sys.equations.map Equation.source = [.constraint ⟨2⟩] := ⟨_, _, rfl, rfl, rfl, rfl⟩
  obtain ⟨written, sys, hwritten, hsys, hall, hkept⟩ := hsources
  obtain ⟨written', sys', hwritten', hsys', hfreezes⟩ :=
    Sketch.Reachable.exists_assemble_freezes hs ⟨2⟩ .empty
  cases hwritten.symm.trans hwritten'
  cases hsys.symm.trans hsys'
  exact ⟨hs, written, sys, hwritten, hsys, hall, hkept, hfreezes⟩

end SketchSolver
