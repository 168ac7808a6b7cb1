import Mathlib.Data.List.Nodup
import SketchSolver.Proofs.Solve.Ending
import SketchSolver.Proofs.Solve.Solutions

/-!
# How many equations and unknowns are left

Merging two unknowns retires one equation and fixing an unknown retires one equation, so the passes
take away as many equations as unknowns. The one exception is an equation that says that an unknown
equals itself, which is retired without a merge.
-/

namespace SketchSolver

open Numbered

namespace Table

variable {K V W : Type} [Numbered K]

private theorem length_insertEntry {k : K} {v : V} {es : List (K × V)}
    (h : findIn? k es = none) : (insertEntry k v es).length = es.length + 1 := by
  induction es with
  | nil => rfl
  | cons e es ih =>
    unfold findIn? at h
    split at h
    · cases h
    · next hne =>
      unfold insertEntry
      split
      · rfl
      · split
        · rw [List.length_cons, ih h, List.length_cons]
        · omega

/-- A table has one more entry after one is inserted at a new key. -/
theorem size_insert_of_none {t : Table K V} {k : K} (h : t.find? k = none) (v : V) :
    (t.insert k v).size = t.size + 1 := length_insertEntry h

/-- A table has as many entries after its values are changed. -/
theorem size_map (f : K → V → W) (t : Table K V) : (t.map f).size = t.size := List.length_map _

/-- A table has as many entries as keys. -/
theorem length_keys (t : Table K V) : t.keys.length = t.size := List.length_map _

end Table

private theorem countP_modify {α : Type} {p : α → Bool} {f : α → α} {xs : List α} {i : Nat} {x : α}
    (hx : xs[i]? = some x) (hold : p x = false) (hnew : p (f x) = true) :
    (xs.modify i f).countP p = xs.countP p + 1 := by
  induction xs generalizing i with
  | nil => cases hx
  | cons y ys ih =>
    cases i with
    | zero =>
      cases hx
      rw [List.modify_zero_cons, List.countP_cons_of_pos hnew,
        List.countP_cons_of_neg (Bool.eq_false_iff.mp hold)]
    | succ i =>
      rw [List.getElem?_cons_succ] at hx
      rw [List.modify_succ_cons, List.countP_cons, List.countP_cons, ih hx]
      omega

namespace EquationSystem

section Merging

variable {R : Type} {start sys : EquationSystem R}

/-- The number of equations that are dealt with. -/
def retiredCount (sys : EquationSystem R) : Nat := sys.equations.countP Equation.retired

/-- One more equation is dealt with after one in use is retired. -/
theorem retiredCount_retire {i : Nat} {eq : Equation R} (h : sys.equations[i]? = some eq)
    (hr : eq.retired = false) : (sys.retire i).retiredCount = sys.retiredCount + 1 :=
  countP_modify h hr rfl

private theorem retiredCount_merge (sys : EquationSystem R) (gone kept : ParamId) :
    (sys.merge gone kept).retiredCount = sys.retiredCount := by
  rw [retiredCount, merge, List.countP_map]
  rfl

/-- What merging keeps of the numbers of equations and unknowns. -/
structure MergeCounts (start sys : EquationSystem R) : Prop where
  /-- What is merged are unknowns. -/
  known : ∀ p, sys.substituted.contains p = true → start.values.contains p = true
  /-- An equation is retired for each unknown that is merged. -/
  size_le : sys.substituted.size ≤ sys.retiredCount

private theorem MergeCounts.merge {gone kept : ParamId} {i : Nat} {eq : Equation R}
    (h : MergeCounts start sys) (heq : sys.equations[i]? = some eq) (hr : eq.retired = false)
    (hgone : sys.substituted.find? gone = none) (hunknown : start.values.contains gone = true) :
    MergeCounts start ((sys.retire i).merge gone kept) := by
  have hnone : (sys.substituted.map fun _ p ↦ if p = gone then kept else p).find? gone = none := by
    rw [Table.find?_map, hgone, Option.map_none]
  refine ⟨?_, ?_⟩
  · intro p hp
    change ((sys.substituted.map fun _ p ↦ if p = gone then kept else p).insert gone kept).contains
      p = true at hp
    rw [Table.contains_insert, Bool.or_eq_true, beq_iff_eq] at hp
    rcases hp with hp | hp
    · exact index_inj hp ▸ hunknown
    · rw [Table.contains, Table.find?_map, Option.isSome_map] at hp
      exact h.known p hp
  · rw [retiredCount_merge, retiredCount_retire heq hr]
    change ((sys.substituted.map fun _ p ↦ if p = gone then kept else p).insert gone kept).size ≤ _
    rw [Table.size_insert_of_none hnone, Table.size_map]
    exact Nat.succ_le_succ h.size_le

/-- The pass that merges unknowns retires at least as many equations as it merges unknowns. -/
theorem mergeCounts_substitute (hs : start.Untouched) : MergeCounts start start.substitute := by
  refine substitute_induction (P := MergeCounts start) hs ⟨?_, ?_⟩ ?_
  · intro p hp
    rw [hs.substituted] at hp
    cases hp
  · rw [hs.substituted]
    exact Nat.zero_le _
  · intro sys i hm h
    rcases substituteAt_cases sys i with hsame | ⟨eq, a, b, heq, hr, he, ha, hb, hcases⟩
    · rwa [hsame]
    · rcases hcases with ⟨_, hretired⟩ | ⟨_, gone, kept, horder, hmerged⟩
      · rw [hretired]
        refine ⟨h.known, Nat.le_trans h.size_le ?_⟩
        rw [retiredCount_retire heq hr]
        exact Nat.le_succ _
      · have hmem := List.mem_of_getElem? heq
        have hfa : sys.substituted.find? a = none :=
          hm.find?_of_mem_params hmem (he ▸ List.mem_cons_self)
        have hfb : sys.substituted.find? b = none :=
          hm.find?_of_mem_params hmem (he ▸ List.mem_cons_of_mem a List.mem_cons_self)
        rw [hmerged]
        rw [hm.values] at ha hb
        rcases horder with ho | ho
        · obtain ⟨rfl, rfl⟩ := Prod.mk.inj ho
          exact h.merge heq hr hfa ha
        · obtain ⟨rfl, rfl⟩ := Prod.mk.inj ho
          exact h.merge heq hr hfb hb

end Merging

section Fixing

variable {R : Type} [Arith R] {start sys : EquationSystem R} {tolerance : R} {cap : Nat}

/-- What looking at one equation keeps holds after all equations are looked at, also if one of them
cannot be solved. -/
theorem solveAlone_induction {P : EquationSystem R → Prop} (hstart : P start)
    (hstep : ∀ sys i after, P sys → sys.solveAloneAt? tolerance cap i = some after → P after) :
    P (start.solveAlone tolerance cap).1 := by
  suffices h : ∀ (is : List Nat) (sys : EquationSystem R), P sys →
      P (solveAloneOn tolerance cap is sys).1 from h _ start hstart
  intro is
  induction is with
  | nil => exact fun _ hP ↦ hP
  | cons i is ih =>
    intro sys hP
    unfold solveAloneOn
    split
    · next after hi => exact ih after (hstep sys i after hP hi)
    · exact hP

/-- What fixing unknowns keeps of the numbers of equations and unknowns. -/
structure FixCounts (start sys : EquationSystem R) : Prop where
  /-- What is fixed are unknowns. -/
  known : ∀ p, sys.solvedAlone.contains p = true → start.values.contains p = true
  /-- The unknowns are the same. -/
  contains : ∀ p, sys.values.contains p = start.values.contains p
  /-- An equation is retired for each unknown that is fixed. -/
  retired : sys.retiredCount = start.retiredCount + sys.solvedAlone.size

/-- The pass that fixes unknowns retires one equation for each of them. -/
theorem fixCounts_solveAlone (h : start.solvedAlone = .empty) (tolerance : R) (cap : Nat) :
    FixCounts start (start.solveAlone tolerance cap).1 := by
  refine solveAlone_induction (P := FixCounts start) ⟨?_, fun _ ↦ rfl, ?_⟩ ?_
  · intro p hp
    rw [h] at hp
    cases hp
  · rw [h]
    rfl
  · intro sys i after hsys hi
    rcases solveAloneAt?_cases hi with rfl | ⟨eq, p, x₀, x, heq, hp, _, rfl⟩
    · exact hsys
    · obtain ⟨hr, _, hfree, _, hvalue⟩ := lonely?_eq_some hp
      have hcontains : sys.values.contains p = true := Table.contains_iff_exists.mpr ⟨x₀, hvalue⟩
      refine ⟨?_, ?_, ?_⟩
      · intro q hq
        rw [HandleSet.contains_add, Bool.or_eq_true, beq_iff_eq] at hq
        rcases hq with hq | hq
        · rw [← hsys.contains, ← index_inj hq]
          exact hcontains
        · exact hsys.known q hq
      · intro q
        exact (Table.contains_insert_of_contains hcontains q x).trans (hsys.contains q)
      · have hsize : (sys.solvedAlone.add p).size = sys.solvedAlone.size + 1 :=
          Table.size_insert_of_none (Table.contains_eq_false_iff.mp hfree) ()
        change (sys.retire i).retiredCount = _ + (sys.solvedAlone.add p).size
        rw [retiredCount_retire heq hr, hsys.retired, hsize]
        rfl

omit [Arith R] in
private theorem mem_retire_of_retired {i : Nat} {eq : Equation R} (heq : eq ∈ sys.equations)
    (hr : eq.retired = true) : eq ∈ (sys.retire i).equations := by
  obtain ⟨j, hj⟩ := List.mem_iff_getElem?.mp heq
  refine List.mem_iff_getElem?.mpr ⟨j, ?_⟩
  rw [getElem?_retire, hj, Option.map_some]
  by_cases hij : i = j
  · rw [if_pos hij, ← hr]
  · rw [if_neg hij]

/-- An unknown is fixed by a retired equation in that unknown only, which holds where it is
fixed. -/
theorem exists_equation_of_solvedAlone (h : start.solvedAlone = .empty) {p : ParamId}
    (hp : (start.solveAlone tolerance cap).1.solvedAlone.contains p = true) :
    ∃ eq ∈ (start.solveAlone tolerance cap).1.equations, eq.retired = true ∧
      eq.expr.referenced = .one p ∧
      ∃ x, (start.solveAlone tolerance cap).1.values.find? p = some x ∧
        Arith.abs (eq.expr.eval (assignOne p x)) ≤ tolerance := by
  refine solveAlone_induction (P := fun sys ↦ ∀ p, sys.solvedAlone.contains p = true →
    ∃ eq ∈ sys.equations, eq.retired = true ∧ eq.expr.referenced = .one p ∧
      ∃ x, sys.values.find? p = some x ∧ Arith.abs (eq.expr.eval (assignOne p x)) ≤ tolerance)
    ?_ ?_ p hp
  · intro q hq
    rw [h] at hq
    cases hq
  · intro sys i after hsys hi q hq
    rcases solveAloneAt?_cases hi with rfl | ⟨eq, p, x₀, x, heq, hp, hx, rfl⟩
    · exact hsys q hq
    · obtain ⟨_, hone, hfree, _, _⟩ := lonely?_eq_some hp
      by_cases hpq : p = q
      · subst hpq
        refine ⟨{ eq with retired := true }, ?_, rfl, hone, x, Table.find?_insert_self _ _ _,
          abs_eval_of_aloneRoot? hx⟩
        refine List.mem_iff_getElem?.mpr ⟨i, ?_⟩
        rw [getElem?_retire, heq, Option.map_some, if_pos rfl]
      · have hne : index p ≠ index q := fun hindex ↦ hpq (index_inj hindex)
        rw [HandleSet.contains_add, Bool.or_eq_true, beq_iff_eq] at hq
        obtain ⟨eq', heq', hr, hone', y, hy, hroot⟩ := hsys q (hq.resolve_left hne)
        refine ⟨eq', mem_retire_of_retired heq' hr, hr, hone', y, ?_, hroot⟩
        rw [Table.find?_insert, if_neg hne, hy]

/-! ## Both passes -/

variable {fixed : EquationSystem R} {failed : Option Nat}

/-- The two passes keep the number of equations. -/
theorem length_equations_eq (hs : start.Untouched)
    (h : start.substitute.solveAlone tolerance cap = (fixed, failed)) :
    fixed.equations.length = start.equations.length := by
  have hmerged := mergedFrom_substitute hs
  have hfixed := fixedFrom_solveAlone (hmerged.solvedAlone.trans hs.solvedAlone) tolerance cap
  rw [h] at hfixed
  have hlength := congrArg List.length hfixed.exprs
  have hlength' := congrArg List.length hmerged.exprs
  simp only [List.length_map] at hlength hlength'
  exact hlength.trans hlength'

/-- What is iterated, merged or fixed are the unknowns that were assembled. -/
theorem contains_values_iff (hs : start.Untouched)
    (h : start.substitute.solveAlone tolerance cap = (fixed, failed)) {p : ParamId} :
    start.values.contains p = true ↔ p ∈ fixed.newton.unknowns ∨
      fixed.substituted.contains p = true ∨ fixed.solvedAlone.contains p = true := by
  have hmerged := mergedFrom_substitute hs
  have halone := hmerged.solvedAlone.trans hs.solvedAlone
  have hfixed := fixedFrom_solveAlone halone tolerance cap
  have hcounts := fixCounts_solveAlone halone tolerance cap
  rw [h] at hfixed hcounts
  rw [mem_newton_unknowns, hcounts.contains, hmerged.values]
  constructor
  · intro hp
    cases hm : fixed.substituted.contains p with
    | true => exact .inr (.inl rfl)
    | false =>
      cases ha : fixed.solvedAlone.contains p with
      | true => exact .inr (.inr rfl)
      | false => exact .inl ⟨hp, rfl, rfl⟩
  · rintro (⟨hp, _⟩ | hm | ha)
    · exact hp
    · rw [hfixed.substituted] at hm
      exact (mergeCounts_substitute hs).known p hm
    · rw [← hmerged.values]
      exact hcounts.known p ha

/-- Each unknown that was assembled is merged, fixed or iterated, in one way only. -/
theorem perm_unknowns (hs : start.Untouched)
    (h : start.substitute.solveAlone tolerance cap = (fixed, failed)) :
    (fixed.substituted.keys ++ fixed.solvedAlone.keys ++ fixed.newton.unknowns).Perm
      start.values.keys := by
  have hmem := fun p ↦ mem_newton_unknowns (p := p) fixed
  have halone := (mergedFrom_substitute hs).solvedAlone.trans hs.solvedAlone
  have hfixed := fixedFrom_solveAlone halone tolerance cap
  rw [h] at hfixed
  have hnodup : (fixed.substituted.keys ++ fixed.solvedAlone.keys ++
      fixed.newton.unknowns).Nodup := by
    refine List.nodup_append.mpr ⟨List.nodup_append.mpr ⟨fixed.substituted.nodup_keys,
      fixed.solvedAlone.nodup_keys, ?_⟩, nodup_newton_unknowns fixed, ?_⟩
    · rintro p hp q hq rfl
      rw [← Table.contains_eq_true_iff] at hp hq
      rw [Table.contains, hfixed.unmerged p hq] at hp
      cases hp
    · rintro p hp q hq rfl
      obtain ⟨_, hunmerged, hfree⟩ := (hmem p).mp hq
      rcases List.mem_append.mp hp with hp | hp
      · rw [← Table.contains_eq_true_iff, hunmerged] at hp
        cases hp
      · rw [← Table.contains_eq_true_iff, hfree] at hp
        cases hp
  refine (List.perm_ext_iff_of_nodup hnodup start.values.nodup_keys).mpr fun p ↦ ?_
  rw [List.mem_append, List.mem_append, ← Table.contains_eq_true_iff,
    ← Table.contains_eq_true_iff, ← Table.contains_eq_true_iff, contains_values_iff hs h,
    or_comm]

/-- The equations that are iterated are those that are not dealt with. -/
theorem height_newton (sys : EquationSystem R) :
    sys.newton.height + sys.retiredCount = sys.equations.length := by
  have hheight : sys.newton.height = sys.equations.countP fun eq ↦ !eq.retired := by
    unfold NewtonSystem.height newton
    rw [List.length_map, ← List.countP_eq_length_filter]
    conv_rhs => rw [← List.zipIdx_map_fst 0 sys.equations, List.countP_map]
    rfl
  rw [hheight, retiredCount, List.length_eq_countP_add_countP Equation.retired, Nat.add_comm]
  simp

end Fixing

end EquationSystem

namespace Prepared

variable {R : Type} [Arith R] {config : Config R} {s : Sketch R} {g : GroupId}
  {dragged : HandleSet ParamId} {start fixed : EquationSystem R}

/-- The numbers of the pass that fixes unknowns. -/
theorem fixCounts (h : Prepared config s g dragged start fixed) :
    start.substitute.FixCounts fixed := by
  have hcounts := EquationSystem.fixCounts_solveAlone h.solvedAlone_substitute config.tolerance
    config.maxIterations
  rwa [h.alone] at hcounts

/-- What is iterated, merged or fixed are the unknowns that were assembled. -/
theorem mem_unknowns_iff (h : Prepared config s g dragged start fixed) {p : ParamId} :
    start.values.contains p = true ↔ p ∈ fixed.newton.unknowns ∨
      fixed.substituted.contains p = true ∨ fixed.solvedAlone.contains p = true :=
  EquationSystem.contains_values_iff h.untouched h.alone

/-- The unknowns that are iterated, merged and fixed add up. -/
theorem width_newton (h : Prepared config s g dragged start fixed) :
    fixed.newton.width + fixed.substituted.size + fixed.solvedAlone.size = start.values.size := by
  have hlength := (EquationSystem.perm_unknowns h.untouched h.alone).length_eq
  simp only [List.length_append, Table.length_keys] at hlength
  rw [NewtonSystem.width]
  omega

/-- The equations that are iterated, those retired by merging and the unknowns that are fixed add
up to the equations that were assembled. -/
theorem height_newton (h : Prepared config s g dragged start fixed) :
    fixed.newton.height + start.substitute.retiredCount + fixed.solvedAlone.size =
      start.equations.length := by
  have hlength := EquationSystem.length_equations_eq h.untouched h.alone
  rw [← hlength, ← EquationSystem.height_newton, h.fixCounts.retired, Nat.add_assoc]

end Prepared

end SketchSolver
