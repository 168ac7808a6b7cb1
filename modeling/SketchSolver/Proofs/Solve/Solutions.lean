import SketchSolver.Command
import SketchSolver.LinearAlgebra.Standard
import SketchSolver.Proofs.Exact.Arith
import SketchSolver.Proofs.Solve.Merging

/-!
# Solutions before and after merging

Merging changes the equations, but not what solves them: the assignments that solve the system as it
was assembled are those that give merged unknowns one value and solve the equations left in use.
Each entry of the table of merged unknowns is entailed by the assembled equations, which
`EquationSystem.respects_substitute` carries through the pass. What it means for an equation to hold
is left open there, so that the same argument serves for values and for derivatives.
-/

namespace SketchSolver

variable {R M : Type}

/-! ## Assignments that respect a renaming -/

/-- An assignment of anything to parameters that does not tell renamed ones apart. -/
def Respects (u : ParamId → M) (m : Table ParamId ParamId) : Prop := ∀ p, u (renamed m p) = u p

/-- An assignment respects a renaming exactly if it agrees on each of its entries. -/
theorem respects_iff {u : ParamId → M} {m : Table ParamId ParamId} :
    Respects u m ↔ ∀ p q, m.find? p = some q → u p = u q := by
  constructor
  · intro h p q hq
    rw [← h p, renamed, hq, Option.getD_some]
  · intro h p
    cases hp : m.find? p with
    | none => rw [renamed_of_none hp]
    | some q => rw [renamed, hp, Option.getD_some, h p q hp]

namespace EquationSystem

variable {start sys : EquationSystem R}

/-! ## One step of the pass -/

/-- Looking at one equation changes nothing, retires an equation that says that an unknown equals
itself, or retires the difference of two unknowns and merges them. -/
theorem substituteAt_cases (sys : EquationSystem R) (i : Nat) :
    sys.substituteAt i = sys ∨
      ∃ eq a b, sys.equations[i]? = some eq ∧ eq.retired = false ∧
        eq.expr = .param a - .param b ∧ sys.values.contains a = true ∧
        sys.values.contains b = true ∧
        ((a = b ∧ sys.substituteAt i = sys.retire i) ∨
          a ≠ b ∧ ∃ gone kept, ((gone, kept) = (a, b) ∨ (gone, kept) = (b, a)) ∧
            sys.substituteAt i = (sys.retire i).merge gone kept) := by
  unfold substituteAt
  split
  · exact .inl rfl
  · next a b hab =>
    obtain ⟨eq, heq, hr, he, ha, hb⟩ := equated?_eq_some hab
    refine .inr ⟨eq, a, b, heq, hr, he, ha, hb, ?_⟩
    by_cases hne : a = b
    · exact .inl ⟨hne, if_pos hne⟩
    · exact .inr ⟨hne, _, _, mergeOrder_cases sys a b, if_neg hne⟩

/-- What looking at one equation keeps holds after the whole pass. -/
theorem substitute_induction {P : EquationSystem R → Prop} (hs : start.Untouched)
    (hstart : P start)
    (hstep : ∀ sys i, MergedFrom start sys → P sys → P (sys.substituteAt i)) :
    P start.substitute := by
  suffices h : ∀ (is : List Nat) (sys : EquationSystem R), MergedFrom start sys → P sys →
      P (is.foldl substituteAt sys) from h _ start hs.mergedFrom hstart
  intro is
  induction is with
  | nil => exact fun _ _ hP ↦ hP
  | cons i is ih => exact fun sys hm hP ↦ ih _ (mergedFrom_substituteAt hm i) (hstep sys i hm hP)

/-- The equation at a place is the one that was assembled there, with merged unknowns renamed. -/
theorem MergedFrom.exists_origin_at (h : MergedFrom start sys) {i : Nat} {eq : Equation R}
    (heq : sys.equations[i]? = some eq) :
    ∃ old, start.equations[i]? = some old ∧ eq.expr = old.expr.substitute sys.substituted := by
  have hexprs := congrArg (fun es ↦ es[i]?) h.exprs
  simp only [List.getElem?_map, heq, Option.map_some] at hexprs
  obtain ⟨old, hold, he⟩ := Option.map_eq_some_iff.mp hexprs.symm
  exact ⟨old, hold, he.symm⟩

end EquationSystem

/-- An expression becomes the difference of two parameters only if it is such a difference. -/
theorem Expr.eq_sub_of_substitute_eq_sub {m : Table ParamId ParamId} {e : Expr R} {a b : ParamId}
    (h : e.substitute m = .param a - .param b) :
    ∃ c d, e = .param c - .param d ∧ renamed m c = a ∧ renamed m d = b := by
  have hdifference : (Expr.param a - Expr.param b : Expr R) =
    .binary .minus (.param a) (.param b) := rfl
  rw [hdifference] at h
  cases e with
  | param p => cases h
  | constant x => cases h
  | unary op e => cases h
  | binary op e f =>
    rw [Expr.substitute] at h
    obtain ⟨rfl, he, hf⟩ := Expr.binary.inj h
    cases e with
    | param c =>
      cases f with
      | param d => exact ⟨c, d, rfl, Expr.param.inj he, Expr.param.inj hf⟩
      | constant x => cases hf
      | unary op f => cases hf
      | binary op f₁ f₂ => cases hf
    | constant x => cases he
    | unary op e => cases he
    | binary op e₁ e₂ => cases he

namespace EquationSystem

variable {start sys : EquationSystem R}

/-! ## Merged unknowns are equal in every solution -/

/-- An assignment satisfies the equations that are differences of two unknowns. -/
def MeetsDifferences (sys : EquationSystem R) (u : ParamId → M) : Prop :=
  ∀ eq ∈ sys.equations, ∀ a b, eq.expr = .param a - .param b → u a = u b

/-- Merging two unknowns keeps the renaming respected if they agree. -/
theorem respects_merge {u : ParamId → M} {gone kept : ParamId}
    (hgone : sys.substituted.find? gone = none) (hu : Respects u sys.substituted)
    (heq : u gone = u kept) : Respects u (sys.merge gone kept).substituted := by
  intro p
  rw [renamed_merge hgone, renamed_insert_empty]
  by_cases hp : renamed sys.substituted p = gone
  · rw [if_pos hp, ← heq, ← hp, hu p]
  · rw [if_neg hp, hu p]

/-- An assignment that satisfies the differences that were assembled does not tell merged unknowns
apart. -/
theorem respects_substitute (hs : start.Untouched) {u : ParamId → M}
    (hu : start.MeetsDifferences u) : Respects u start.substitute.substituted := by
  refine substitute_induction (P := fun sys ↦ Respects u sys.substituted) hs ?_ ?_
  · rw [hs.substituted]
    intro p
    rfl
  · intro sys i hm hsys
    rcases substituteAt_cases sys i with h | ⟨eq, a, b, heq, _, he, _, _, hcases⟩
    · rwa [h]
    · rcases hcases with ⟨_, h⟩ | ⟨_, gone, kept, horder, h⟩
      · rwa [h]
      · obtain ⟨old, hold, hrenamed⟩ := hm.exists_origin_at heq
        obtain ⟨c, d, hcd, hc, hd⟩ := Expr.eq_sub_of_substitute_eq_sub (hrenamed.symm.trans he)
        have hab : u a = u b := by
          rw [← hc, ← hd, hsys c, hsys d]
          exact hu old (List.mem_of_getElem? hold) c d hcd
        have hmem := List.mem_of_getElem? heq
        have hfa : sys.substituted.find? a = none :=
          hm.find?_of_mem_params hmem (he ▸ List.mem_cons_self)
        have hfb : sys.substituted.find? b = none :=
          hm.find?_of_mem_params hmem (he ▸ List.mem_cons_of_mem a List.mem_cons_self)
        rw [h]
        have hretired : Respects u (sys.retire i).substituted := hsys
        rcases horder with ho | ho
        · obtain ⟨rfl, rfl⟩ := Prod.mk.inj ho
          exact respects_merge hfa hretired hab
        · obtain ⟨rfl, rfl⟩ := Prod.mk.inj ho
          exact respects_merge hfb hretired hab.symm

/-- The equations that were assembled hold exactly if merged unknowns agree and the equations left
in use hold. Holding may mean anything that says of a difference that its two sides agree, and that
a renaming which is respected does not change. -/
theorem forall_holds_iff_substitute (Holds : Expr R → Prop) (hs : start.Untouched)
    {u : ParamId → M} (hdifference : ∀ a b, Holds (.param a - .param b) ↔ u a = u b)
    (hrenamed : Respects u start.substitute.substituted →
      ∀ e, Holds (e.substitute start.substitute.substituted) ↔ Holds e) :
    (∀ eq ∈ start.equations, Holds eq.expr) ↔
      Respects u start.substitute.substituted ∧
        ∀ eq ∈ start.substitute.equations, eq.retired = false → Holds eq.expr := by
  have hm := mergedFrom_substitute hs
  constructor
  · intro h
    have hu : Respects u start.substitute.substituted := by
      apply respects_substitute hs
      intro eq heq a b he
      rw [← hdifference, ← he]
      exact h eq heq
    refine ⟨hu, ?_⟩
    intro eq heq _
    obtain ⟨old, hold, he⟩ := hm.exists_origin heq
    rw [he, hrenamed hu]
    exact h old hold
  · rintro ⟨hu, h⟩ old hold
    obtain ⟨eq, heq, he⟩ := hm.exists_successor hold
    rw [← hrenamed hu, ← he]
    cases hr : eq.retired with
    | false => exact h eq heq hr
    | true =>
      obtain ⟨p, _, hp⟩ := hm.trivial eq heq hr
      rw [hp, hdifference]

end EquationSystem

/-! ## Exact solutions -/

/-- Substitution by a renaming that the assignment respects changes no value. -/
theorem Expr.eval_substitute_of_respects [Arith R] {v : ParamId → R} {m : Table ParamId ParamId}
    (h : Respects v m) (e : Expr R) : (e.substitute m).eval v = e.eval v := by
  rw [Expr.eval_substitute]
  exact Expr.eval_congr fun p _ ↦ h p

/-- In exact arithmetic, an assignment makes all equations of an assembled system zero exactly if it
gives merged unknowns one value and makes the equations zero that merging leaves in use. -/
theorem solves_iff_solves_substitute {s : Sketch ℝ} {g : GroupId} {dragged : HandleSet ParamId}
    {excluded : Option ConstraintId} {sys : EquationSystem ℝ}
    (h : s.assembleExcluding g dragged excluded = .ok sys) (v : ParamId → ℝ) :
    (∀ eq ∈ sys.equations, eq.expr.eval v = 0) ↔
      (∀ p q, sys.substitute.substituted.find? p = some q → v p = v q) ∧
        ∀ eq ∈ sys.substitute.equations, eq.retired = false → eq.expr.eval v = 0 := by
  rw [← respects_iff]
  apply EquationSystem.forall_holds_iff_substitute (fun e ↦ e.eval v = 0)
    (Sketch.untouched_assembleExcluding h)
  · intro a b
    exact sub_eq_zero
  · intro hv e
    rw [Expr.eval_substitute_of_respects hv]

/-- Three points of which each is at the place of the next one, and one of them at a distance from a
fourth. -/
noncomputable def pointsInACircle : Sketch ℝ :=
  (Sketch.empty .default).runAll .standard
    [.draw ⟨1⟩ (.point3d ⟨0, 0, 0⟩),
      .draw ⟨1⟩ (.point3d ⟨1, 0, 0⟩),
      .draw ⟨1⟩ (.point3d ⟨0, 1, 0⟩),
      .draw ⟨1⟩ (.point3d ⟨0, 0, 1⟩),
      .relate ⟨1⟩ (.coincident ⟨1⟩ ⟨2⟩ none),
      .relate ⟨1⟩ (.coincident ⟨2⟩ ⟨3⟩ none),
      .relate ⟨1⟩ (.coincident ⟨3⟩ ⟨1⟩ none),
      .relate ⟨1⟩ (.distance ⟨3⟩ ⟨4⟩ 1 none)]

/-- Merging keeps the solutions of the points in a circle, where two of the points are replaced and
the last coincidence is retired without a merge. -/
theorem solves_iff_solves_substitute_pointsInACircle :
    ∃ sys, pointsInACircle.assembleExcluding ⟨1⟩ .empty none = .ok sys ∧
      sys.substitute.substituted.size = 6 ∧ sys.substitute.retiredRows.length = 9 ∧
      ∀ v : ParamId → ℝ, (∀ eq ∈ sys.equations, eq.expr.eval v = 0) ↔
        (∀ p q, sys.substitute.substituted.find? p = some q → v p = v q) ∧
          ∀ eq ∈ sys.substitute.equations, eq.retired = false → eq.expr.eval v = 0 := by
  have hsys : ∃ sys, pointsInACircle.assembleExcluding ⟨1⟩ .empty none = .ok sys ∧
      sys.substitute.substituted.size = 6 ∧ sys.substitute.retiredRows.length = 9 :=
    ⟨_, rfl, rfl, rfl⟩
  obtain ⟨sys, h, hmerged, hretired⟩ := hsys
  exact ⟨sys, h, hmerged, hretired, solves_iff_solves_substitute h⟩

end SketchSolver
