import SketchSolver.Proofs.Run.Totality
import SketchSolver.Proofs.Solve.Soundness

/-!
# Interference of later groups

Nothing of a group or an earlier one refers to a later group, so a solve of the group does not look
at later groups either: not in its equations, not while its redundancy is diagnosed, and not when
the solved values are written. Two sketches that are the same up to the group get the same report or
refusal, and are the same up to the group afterwards.
-/

namespace SketchSolver

open Outcome

variable {R α : Type} {g : GroupId} {s t : Sketch R}

namespace Operation

/-- An operation gives two sketches the same answer or refusal, and leaves them the same up to a
group. -/
def Alike (g : GroupId) (op : Operation R α) (s t : Sketch R) : Prop :=
  (op.outcome s).map Prod.fst = (op.outcome t).map Prod.fst ∧ SameUpTo g (op.left s) (op.left t)

/-- An operation that runs like another one on both sketches is alike if that one is. -/
theorem Alike.of_run {op op' : Operation R α} (h : op'.Alike g s t) (hs : op.run s = op'.run s)
    (ht : op.run t = op'.run t) : op.Alike g s t := by
  unfold Alike outcome left at h ⊢
  rw [hs, ht]
  exact h

/-- The same answer with sketches that are the same up to a group is alike. -/
theorem alike_of_run_eq_ok {op : Operation R α} {a : α} {s' t' : Sketch R}
    (hs : op.run s = .ok a s') (ht : op.run t = .ok a t') (h : SameUpTo g s' t') :
    op.Alike g s t := by
  unfold Alike outcome left
  rw [hs, ht]
  exact ⟨rfl, h⟩

/-- An answer without a change is alike. -/
theorem alike_pure (h : SameUpTo g s t) (a : α) : (pure a : Operation R α).Alike g s t :=
  alike_of_run_eq_ok rfl rfl h

/-- Asking the same of both sketches is alike if the answers concur. -/
theorem alike_consult_bind {β : Type} {f : Sketch R → Outcome R β} {k : β → Operation R α}
    (h : Concur (f s) (f t) fun _ ↦ True) (hk : ∀ b, (k b).Alike g s t) :
    (consult f >>= k).Alike g s t := by
  obtain ⟨b, hs, ht, _⟩ := h
  exact (hk b).of_run (run_consult_bind_of_ok hs k) (run_consult_bind_of_ok ht k)

variable [Arith R] {la : LinearAlgebra R} {config : Config R} {dragged : HandleSet ParamId}

/-- Reporting on a success is alike. -/
theorem alike_finish (h : s.Linked) (hp : s.Placed) {sys : EquationSystem R}
    (hsys : sys.group = g) (hst : SameUpTo g s t) (nw : NewtonSystem R) (residuals : List R)
    (outcome : Iteration R) : (finish la config sys nw residuals outcome).Alike g s t := by
  subst hsys
  refine alike_consult_bind (h.diagnosis hp hst _) fun bad ↦ ?_
  exact alike_of_run_eq_ok rfl rfl (Sketch.sameUpTo_commit hst _ _ _)

/-- Iterating the system of a group is alike. -/
theorem alike_solveNewton (h : s.Linked) (hp : s.Placed) {sys : EquationSystem R}
    (hsys : sys.group = g) (hst : SameUpTo g s t) : (solveNewton la config sys).Alike g s t := by
  unfold solveNewton
  dsimp only
  split
  · have hstored : (sys.store sys.newton.unknowns (sys.newton.iterate la config sys).x).group = g :=
      hsys
    exact alike_finish h hp hstored hst _ _ _
  · exact alike_pure hst _

/-- Solving a group is alike, whatever is in later groups. -/
theorem alike_solveWith (h : s.Linked) (hp : s.Placed) (hst : SameUpTo g s t)
    (hs : s.groups.contains g = true) (ht : t.groups.contains g = true) :
    (solveWith la config g dragged).Alike g s t := by
  obtain ⟨ss, hss⟩ := Table.contains_iff_exists.mp hs
  obtain ⟨ts, hts⟩ := Table.contains_iff_exists.mp ht
  have hsgroup : s.group g = .ok ss := by rw [Sketch.group, hss]
  have htgroup : t.group g = .ok ts := by rw [Sketch.group, hts]
  obtain ⟨start, hsstart, htstart, _⟩ := h.assembleExcluding hp hst dragged none
  -- Both solves go on alike with the system that both sketches give.
  unfold solveWith
  refine Alike.of_run ?_
    ((run_consult_bind_of_ok hsgroup _).trans (run_consult_bind_of_ok hsstart _))
    ((run_consult_bind_of_ok htgroup _).trans (run_consult_bind_of_ok htstart _))
  dsimp only
  split
  · exact alike_pure hst _
  · next hfits =>
    split
    · exact alike_pure hst _
    · next hnone =>
      have hprepared : Prepared config s g dragged start
          (start.substitute.solveAlone config.tolerance config.maxIterations).1 :=
        ⟨hsstart, hfits, Prod.ext rfl hnone⟩
      exact alike_solveNewton h hp hprepared.group hst

end Operation

variable [Arith R]

/-- A solve of a group gives a sketch that comes about and any sketch that is the same up to the
group the same report or refusal, whatever each contains in later groups, and they are the same up
to the group afterwards. -/
theorem same_of_solveWith_of_sameUpTo {la : LinearAlgebra R} (hs : s.Reachable la)
    (hst : SameUpTo g s t) (hgs : s.groups.contains g = true) (hgt : t.groups.contains g = true)
    (config : Config R) (dragged : HandleSet ParamId) :
    (s.solveWith la config g dragged).map Prod.fst =
        (t.solveWith la config g dragged).map Prod.fst ∧
      SameUpTo g ((Operation.solveWith la config g dragged).left s)
        ((Operation.solveWith la config g dragged).left t) := by
  obtain ⟨hlinked, hplaced⟩ := hs.linked_placed
  exact Operation.alike_solveWith hlinked hplaced hst hgs hgt

/-- The linked points are solved alike without and with a point in a later group. -/
theorem same_of_solveWith_linkedPoints_laterPoint :
    linkedPoints.Reachable .standard ∧
      ∃ t : Sketch Float, t = linkedPoints.step .standard (.draw ⟨2⟩ (.point3d ⟨1.0, 1.0, 1.0⟩)) ∧
        SameUpTo ⟨1⟩ linkedPoints t ∧ linkedPoints.groups.contains ⟨1⟩ = true ∧
        t.groups.contains ⟨1⟩ = true ∧
        (linkedPoints.solveWith .standard .default ⟨1⟩ .empty).map Prod.fst =
            (t.solveWith .standard .default ⟨1⟩ .empty).map Prod.fst ∧
          SameUpTo ⟨1⟩ ((Operation.solveWith .standard .default ⟨1⟩ .empty).left linkedPoints)
            ((Operation.solveWith .standard .default ⟨1⟩ .empty).left t) := by
  have hreachable : linkedPoints.Reachable .standard := ⟨_, _, rfl⟩
  have hsame : SameUpTo ⟨1⟩ linkedPoints
      (linkedPoints.step .standard (.draw ⟨2⟩ (.point3d ⟨1.0, 1.0, 1.0⟩))) := by
    rw [Sketch.step, Command.operation, Operation.left_map]
    rcases adds_draw ⟨2⟩ (.point3d ⟨1.0, 1.0, 1.0⟩) linkedPoints with hleft | hgrown
    · rw [hleft]
      exact .refl _ _
    · exact sameUpTo_of_grownIn hreachable.linked_placed.1.numbered hgrown (by decide)
  have hgroup : linkedPoints.groups.contains ⟨1⟩ = true := by decide +kernel
  have hlater : (linkedPoints.step .standard
      (.draw ⟨2⟩ (.point3d ⟨1.0, 1.0, 1.0⟩))).groups.contains ⟨1⟩ = true := by decide +kernel
  exact ⟨hreachable, _, rfl, hsame, hgroup, hlater,
    same_of_solveWith_of_sameUpTo hreachable hsame hgroup hlater .default .empty⟩

end SketchSolver
