import SketchSolver.Solve.Alone

/-!
# What fixing unknowns keeps

Equations in one unknown are solved one at a time. `EquationSystem.FixedFrom` says what a system
has become on the way, whether or not the pass gets to the end: the equations are the same, and one
that was retired holds up to the tolerance at the value at which its unknown is fixed. The value
stays, since an unknown is fixed only once.
-/

namespace SketchSolver

variable {R : Type} [Arith R]

/-- A root that is found makes the equation hold up to the tolerance. -/
theorem abs_eval_of_aloneRoot? {f : Expr R} {p : ParamId} {tolerance start x : R} {cap : Nat}
    (h : aloneRoot? f p tolerance cap start = some x) :
    Arith.abs (f.eval (assignOne p x)) ≤ tolerance := by
  simp only [aloneRoot?] at h
  split at h
  · next hx =>
    cases h
    exact hx
  · cases h

/-- An equation that holds up to the tolerance is solved where it is. -/
theorem aloneRoot?_of_le {f : Expr R} {p : ParamId} {tolerance x : R} {cap : Nat}
    (h : Arith.abs (f.eval (assignOne p x)) ≤ tolerance) :
    aloneRoot? f p tolerance cap x = some x := by
  have hstays : ∀ d, aloneSteps f d p tolerance cap x = x := by
    intro d
    cases cap with
    | zero => rfl
    | succ n =>
      unfold aloneSteps
      exact if_pos h
  unfold aloneRoot?
  dsimp only
  rw [hstays, if_pos h]

/-- An equation in a single unknown depends on that unknown only. -/
theorem eval_assignOne {f : Expr R} {p : ParamId} (h : f.referenced = .one p) {v : ParamId → R}
    {x : R} (hv : v p = x) : f.eval v = f.eval (assignOne p x) := by
  apply Expr.eval_congr
  intro q hq
  rw [(Expr.referenced_eq_one_iff.mp h).2 q hq, hv, assignOne, if_pos rfl]

namespace EquationSystem

/-- A system in which some unknowns of an earlier one are fixed by equations of their own. -/
structure FixedFrom (start : EquationSystem R) (tolerance : R) (sys : EquationSystem R) :
    Prop where
  /-- It is the system of the same group. -/
  group : sys.group = start.group
  /-- The dragged unknowns are the same. -/
  dragged : sys.dragged = start.dragged
  /-- The merged unknowns are the same. -/
  substituted : sys.substituted = start.substituted
  /-- The equations are the same. -/
  exprs : sys.equations.map Equation.expr = start.equations.map Equation.expr
  /-- The unknowns are the same. -/
  contains : ∀ p, sys.values.contains p = start.values.contains p
  /-- An unknown that is merged is not fixed. -/
  unmerged : ∀ p, sys.solvedAlone.contains p = true → sys.substituted.find? p = none
  /-- An equation was retired earlier, or it holds where its only unknown is fixed. -/
  solved : ∀ eq ∈ sys.equations, eq.retired = true →
    eq ∈ start.equations ∨
      ∃ p x, eq.expr.referenced = .one p ∧ sys.solvedAlone.contains p = true ∧
        sys.values.find? p = some x ∧ Arith.abs (eq.expr.eval (assignOne p x)) ≤ tolerance

variable {start sys after : EquationSystem R} {tolerance : R} {cap : Nat}

/-- A system in which no unknown is fixed is fixed from itself. -/
theorem FixedFrom.refl (h : start.solvedAlone = .empty) : FixedFrom start tolerance start where
  group := rfl
  dragged := rfl
  substituted := rfl
  exprs := rfl
  contains := fun _ ↦ rfl
  unmerged := by
    intro p hp
    rw [h, Table.contains, Table.find?_empty] at hp
    cases hp
  solved := fun eq heq _ ↦ .inl heq

omit [Arith R] in
/-- The unknown of a lonely equation is neither fixed nor merged. -/
theorem lonely?_eq_some {eq : Equation R} {p : ParamId} {x : R}
    (h : sys.lonely? eq = some (p, x)) :
    eq.retired = false ∧ eq.expr.referenced = .one p ∧ sys.solvedAlone.contains p = false ∧
      sys.substituted.find? p = none ∧ sys.values.find? p = some x := by
  unfold lonely? at h
  split at h
  · cases h
  · next hr =>
    split at h
    · next q hq =>
      split at h
      · cases h
      · next hfree =>
        rw [Bool.not_eq_true, Bool.or_eq_false_iff] at hfree
        obtain ⟨y, hy, he⟩ := Option.map_eq_some_iff.mp h
        obtain ⟨rfl, rfl⟩ := Prod.mk.inj he
        exact ⟨Bool.eq_false_iff.mpr hr, hq, hfree.1, Table.contains_eq_false_iff.mp hfree.2, hy⟩
    · cases h

/-- Looking at one equation changes nothing, or fixes an unknown at a root of that equation. -/
theorem solveAloneAt?_cases {i : Nat} (h : sys.solveAloneAt? tolerance cap i = some after) :
    after = sys ∨ ∃ eq p start x, sys.equations[i]? = some eq ∧
      sys.lonely? eq = some (p, start) ∧ aloneRoot? eq.expr p tolerance cap start = some x ∧
      after = { sys.retire i with
        values := sys.values.insert p x
        solvedAlone := sys.solvedAlone.add p } := by
  unfold solveAloneAt? at h
  split at h
  · exact .inl (Option.some.inj h).symm
  · next eq heq =>
    split at h
    · exact .inl (Option.some.inj h).symm
    · next p start hp =>
      obtain ⟨x, hx, he⟩ := Option.map_eq_some_iff.mp h
      exact .inr ⟨eq, p, start, x, heq, hp, hx, he.symm⟩

/-- Looking at one equation keeps the invariant. -/
theorem FixedFrom.solveAloneAt? (h : FixedFrom start tolerance sys) {i : Nat}
    (hi : sys.solveAloneAt? tolerance cap i = some after) : FixedFrom start tolerance after := by
  rcases solveAloneAt?_cases hi with rfl | ⟨eq, p, x₀, x, heq, hp, hx, rfl⟩
  · exact h
  · obtain ⟨_, hone, hfree, hunmerged, hvalue⟩ := lonely?_eq_some hp
    have hcontains : sys.values.contains p = true := Table.contains_iff_exists.mpr ⟨x₀, hvalue⟩
    refine ⟨h.group, h.dragged, h.substituted, (exprs_retire sys i).trans h.exprs, ?_, ?_, ?_⟩
    · intro q
      exact (Table.contains_insert_of_contains hcontains q x).trans (h.contains q)
    · intro q hq
      rw [HandleSet.contains_add, Bool.or_eq_true, beq_iff_eq] at hq
      rcases hq with hq | hq
      · exact Numbered.index_inj hq ▸ hunmerged
      · exact h.unmerged q hq
    · intro eq' heq' hr
      rcases mem_retire heq' with hold | ⟨old, hold, rfl⟩
      · rcases h.solved eq' hold hr with hstart | ⟨q, y, hq, hsolved, hy, hroot⟩
        · exact .inl hstart
        · -- an unknown that was fixed before is not the one that is fixed now
          have hpq : Numbered.index p ≠ Numbered.index q := by
            intro hpq
            rw [Numbered.index_inj hpq, hsolved] at hfree
            cases hfree
          refine .inr ⟨q, y, hq, ?_, ?_, hroot⟩
          · rw [HandleSet.contains_add, hsolved, Bool.or_true]
          · rw [Table.find?_insert, if_neg hpq, hy]
      · cases heq.symm.trans hold
        refine .inr ⟨p, x, hone, ?_, Table.find?_insert_self _ _ _, abs_eval_of_aloneRoot? hx⟩
        rw [HandleSet.contains_add, beq_self_eq_true, Bool.true_or]

/-- Looking at equations in turn keeps the invariant, also if one of them cannot be solved. -/
theorem FixedFrom.solveAloneOn (h : FixedFrom start tolerance sys) (is : List Nat) :
    FixedFrom start tolerance (solveAloneOn tolerance cap is sys).1 := by
  induction is generalizing sys with
  | nil => exact h
  | cons i is ih =>
    unfold EquationSystem.solveAloneOn
    split
    · next after hi => exact ih (h.solveAloneAt? hi)
    · exact h

/-- The pass over all equations fixes unknowns where their equations hold. -/
theorem fixedFrom_solveAlone (h : start.solvedAlone = .empty) (tolerance : R) (cap : Nat) :
    FixedFrom start tolerance (start.solveAlone tolerance cap).1 :=
  (FixedFrom.refl h).solveAloneOn _

end EquationSystem

end SketchSolver
