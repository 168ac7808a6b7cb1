import Mathlib.Logic.Relation
import SketchSolver.LinearAlgebra.Standard
import SketchSolver.Proofs.Solve.Counting
import SketchSolver.Proofs.Solve.Soundness

/-!
# The partition of a system

Merging and fixing unknowns divide the unknowns of a system into those that are merged, fixed and
iterated, and its equations into those that are retired and iterated. Merging looks at each equation
once, and once is enough: an equation that is looked at is no difference of two unknowns afterwards
unless it is retired, and stays so, because renaming makes no difference of what was none. So the
unknowns that have one representative are exactly those that the differences connect.
`EquationSystem.Partitioned` puts this together.
-/

namespace SketchSolver

variable {R : Type}

namespace EquationSystem

variable {start sys : EquationSystem R}

/-! ## Dragged unknowns -/

/-- A dragged unknown is only replaced by a dragged one. -/
theorem dragged_mergeOrder {a b : ParamId}
    (h : sys.dragged.contains (sys.mergeOrder a b).1 = true) :
    sys.dragged.contains (sys.mergeOrder a b).2 = true := by
  unfold mergeOrder at h ⊢
  split
  · next hb =>
    rw [if_pos hb] at h
    rw [Bool.and_eq_true, h] at hb
    cases hb.2
  · next hb =>
    rw [if_neg hb] at h
    rw [h, Bool.true_and, Bool.not_eq_true', Bool.not_eq_false] at hb
    exact hb

private theorem dragged_merge {gone kept p q : ParamId}
    (hdragged : ∀ p q, sys.substituted.find? p = some q → sys.dragged.contains p = true →
      sys.dragged.contains q = true)
    (horder : sys.dragged.contains gone = true → sys.dragged.contains kept = true)
    (hq : (sys.merge gone kept).substituted.find? p = some q)
    (hp : sys.dragged.contains p = true) : sys.dragged.contains q = true := by
  rw [find?_merge] at hq
  by_cases hpg : p = gone
  · rw [if_pos hpg] at hq
    cases hq
    exact horder (hpg ▸ hp)
  · rw [if_neg hpg] at hq
    obtain ⟨r, hr, hrq⟩ := Option.map_eq_some_iff.mp hq
    have hdr := hdragged p r hr hp
    by_cases hrg : r = gone
    · rw [if_pos hrg] at hrq
      exact hrq ▸ horder (hrg ▸ hdr)
    · rw [if_neg hrg] at hrq
      exact hrq ▸ hdr

/-- What stands for a dragged unknown after the pass is dragged. -/
theorem dragged_substitute (hs : start.Untouched) {p q : ParamId}
    (hq : start.substitute.substituted.find? p = some q)
    (hp : start.dragged.contains p = true) : start.dragged.contains q = true := by
  refine substitute_induction (P := fun sys ↦ ∀ p q, sys.substituted.find? p = some q →
    start.dragged.contains p = true → start.dragged.contains q = true) hs ?_ ?_ p q hq hp
  · intro p q hq
    rw [hs.substituted] at hq
    cases hq
  · intro sys i hm hsys
    unfold substituteAt
    split
    · exact hsys
    · next a b hab =>
      by_cases hne : a = b
      · rw [if_pos hne]
        exact hsys
      · rw [if_neg hne]
        rw [← hm.dragged] at hsys ⊢
        have hretired : ∀ p q, (sys.retire i).substituted.find? p = some q →
            (sys.retire i).dragged.contains p = true →
            (sys.retire i).dragged.contains q = true := hsys
        exact fun p q hq hp ↦ dragged_merge hretired dragged_mergeOrder hq hp

/-! ## Differences -/

/-- The equation at a place is retired or no difference of two parameters. -/
def SettledAt (sys : EquationSystem R) (i : Nat) : Prop :=
  ∀ eq, sys.equations[i]? = some eq → eq.retired = false → ∀ a b, eq.expr ≠ .param a - .param b

/-- Retiring an equation settles it. -/
theorem settledAt_retire_self (sys : EquationSystem R) (i : Nat) : (sys.retire i).SettledAt i := by
  intro eq heq hr
  rw [getElem?_retire] at heq
  obtain ⟨old, _, rfl⟩ := Option.map_eq_some_iff.mp heq
  rw [if_pos rfl] at hr
  cases hr

/-- Retiring an equation leaves the others settled. -/
theorem SettledAt.retire {i : Nat} (h : sys.SettledAt i) (j : Nat) :
    (sys.retire j).SettledAt i := by
  by_cases hji : j = i
  · subst hji
    exact sys.settledAt_retire_self j
  · intro eq heq hr
    rw [getElem?_retire] at heq
    obtain ⟨old, hold, rfl⟩ := Option.map_eq_some_iff.mp heq
    rw [if_neg hji] at hr ⊢
    exact h old hold hr

/-- Renaming makes no difference of two parameters of an equation that is none. -/
theorem SettledAt.merge {i : Nat} (h : sys.SettledAt i) (gone kept : ParamId) :
    (sys.merge gone kept).SettledAt i := by
  intro eq heq hr a b he
  rw [EquationSystem.merge, List.getElem?_map] at heq
  obtain ⟨old, hold, rfl⟩ := Option.map_eq_some_iff.mp heq
  obtain ⟨c, d, hcd, _⟩ := Expr.eq_sub_of_substitute_eq_sub he
  exact h old hold hr c d hcd

/-- An equation stays settled while another one is looked at. -/
theorem SettledAt.substituteAt {i : Nat} (h : sys.SettledAt i) (j : Nat) :
    (sys.substituteAt j).SettledAt i := by
  unfold EquationSystem.substituteAt
  split
  · exact h
  · split
    · exact h.retire j
    · exact (h.retire j).merge _ _

/-- An equation is settled once it is looked at. -/
theorem settledAt_substituteAt_self (hs : start.Untouched) (hm : MergedFrom start sys) (i : Nat) :
    (sys.substituteAt i).SettledAt i := by
  unfold substituteAt
  split
  · next hnone =>
    intro eq heq hr a b he
    -- The difference of two unknowns would have been recognised.
    have hmem := List.mem_of_getElem? heq
    have ha : sys.values.contains a = true := hm.closed hs hmem (he ▸ List.mem_cons_self)
    have hb : sys.values.contains b = true :=
      hm.closed hs hmem (he ▸ List.mem_cons_of_mem a List.mem_cons_self)
    rw [equated?, heq] at hnone
    simp only [hr, Bool.false_eq_true, if_false, Expr.paramDifference?_eq_some_iff.mpr he,
      Option.filter_some, ha, hb, Bool.and_self, if_true] at hnone
    cases hnone
  · split
    · exact sys.settledAt_retire_self i
    · exact (sys.settledAt_retire_self i).merge _ _

private theorem settledAt_foldl (hs : start.Untouched) {i : Nat} {is : List Nat}
    (hm : MergedFrom start sys) (h : i ∈ is ∨ sys.SettledAt i) :
    (is.foldl substituteAt sys).SettledAt i := by
  induction is generalizing sys with
  | nil => exact h.resolve_left List.not_mem_nil
  | cons j is ih =>
    apply ih (mergedFrom_substituteAt hm j)
    rcases h with hmem | hsettled
    · rcases List.mem_cons.mp hmem with rfl | hmem
      · exact .inr (settledAt_substituteAt_self hs hm i)
      · exact .inl hmem
    · exact .inr (hsettled.substituteAt j)

/-- After the pass no equation in use is the difference of two parameters. -/
theorem ne_difference_of_in_use (hs : start.Untouched) {eq : Equation R}
    (heq : eq ∈ start.substitute.equations) (hr : eq.retired = false) (a b : ParamId) :
    eq.expr ≠ .param a - .param b := by
  obtain ⟨i, hi⟩ := List.mem_iff_getElem?.mp heq
  obtain ⟨old, hold, _⟩ := (mergedFrom_substitute hs).exists_origin_at hi
  have hlt : i ∈ List.range start.equations.length :=
    List.mem_range.mpr (List.getElem?_eq_some_iff.mp hold).1
  exact settledAt_foldl hs hs.mergedFrom (.inl hlt) eq hi hr a b

/-! ## Classes -/

/-- Two unknowns that an equation says are equal. -/
def Equates (sys : EquationSystem R) (a b : ParamId) : Prop :=
  sys.values.contains a = true ∧ sys.values.contains b = true ∧
    ∃ eq ∈ sys.equations, eq.expr = .param a - .param b

/-- Equated unknowns have one representative after the pass. -/
theorem renamed_eq_of_equates (hs : start.Untouched) {a b : ParamId} (h : start.Equates a b) :
    renamed start.substitute.substituted a = renamed start.substitute.substituted b := by
  obtain ⟨_, _, old, hold, he⟩ := h
  have hm := mergedFrom_substitute hs
  obtain ⟨eq, heq, hexpr⟩ := hm.exists_successor hold
  have hdifference : eq.expr = .param (renamed start.substitute.substituted a) -
      .param (renamed start.substitute.substituted b) := by
    rw [hexpr, he]
    rfl
  cases hr : eq.retired with
  | false => exact absurd hdifference (ne_difference_of_in_use hs heq hr _ _)
  | true =>
    obtain ⟨p, _, hp⟩ := hm.trivial eq heq hr
    rw [hp] at hdifference
    obtain ⟨_, ha, hb⟩ := Expr.binary.inj hdifference
    exact (Expr.param.inj ha).symm.trans (Expr.param.inj hb)

/-- Two parameters have one representative exactly if differences of unknowns connect them. -/
theorem renamed_eq_iff_eqvGen (hs : start.Untouched) {p q : ParamId} :
    renamed start.substitute.substituted p = renamed start.substitute.substituted q ↔
      Relation.EqvGen start.Equates p q := by
  constructor
  · intro h
    -- The classes of connected parameters are an assignment that satisfies all differences.
    have hclasses : Respects (Quot.mk start.Equates) start.substitute.substituted := by
      apply respects_substitute hs
      intro eq heq a b he
      have ha : start.values.contains a = true := hs.closed eq heq a (he ▸ List.mem_cons_self)
      have hb : start.values.contains b = true :=
        hs.closed eq heq b (he ▸ List.mem_cons_of_mem a List.mem_cons_self)
      exact Quot.sound ⟨ha, hb, eq, heq, he⟩
    apply Quot.eqvGen_exact
    rw [← hclasses p, h, hclasses q]
  · intro h
    induction h with
    | rel a b hab => exact renamed_eq_of_equates hs hab
    | refl a => rfl
    | symm a b _ ih => exact ih.symm
    | trans a b c _ _ hab hbc => exact hab.trans hbc

/-! ## The whole partition -/

variable [Arith R] {fixed : EquationSystem R} {tolerance : R} {cap : Nat} {failed : Option Nat}

/-- Each equation is retired or iterated, not both. -/
theorem perm_rows (sys : EquationSystem R) :
    (sys.retiredRows ++ sys.newton.rows).Perm (List.range sys.equations.length) := by
  have hplaces : sys.equations.zipIdx.map Prod.snd = List.range sys.equations.length := by
    rw [List.zipIdx_map_snd, List.range_eq_range']
  rw [retiredRows, newton, ← List.map_append, ← hplaces]
  exact (List.filter_append_perm _ _).map Prod.snd

/-- An equation that is still in use was not changed while unknowns were fixed. -/
theorem mem_of_in_use {eq : Equation R} (heq : eq ∈ (start.solveAlone tolerance cap).1.equations)
    (hr : eq.retired = false) : eq ∈ start.equations := by
  refine solveAlone_induction (P := fun sys ↦ ∀ eq ∈ sys.equations, eq.retired = false →
    eq ∈ start.equations) (fun _ heq _ ↦ heq) ?_ eq heq hr
  intro sys i after hsys hi eq heq hr
  rcases solveAloneAt?_cases hi with rfl | ⟨_, _, _, _, _, _, _, rfl⟩
  · exact hsys eq heq hr
  · rcases mem_retire heq with hold | ⟨old, _, rfl⟩
    · exact hsys eq hold hr
    · cases hr

/-- How merging and fixing unknowns divide the unknowns and the equations of a system. -/
structure Partitioned (start fixed : EquationSystem R) (tolerance : R) : Prop where
  /-- What stands for a merged unknown is an unknown that is not merged. -/
  representative : ∀ p q, fixed.substituted.find? p = some q →
    start.values.contains q = true ∧ fixed.substituted.contains q = false
  /-- A dragged unknown is replaced by a dragged one only. -/
  dragged : ∀ p q, fixed.substituted.find? p = some q →
    start.dragged.contains p = true → start.dragged.contains q = true
  /-- No equation mentions a merged unknown. -/
  unmentioned : ∀ eq ∈ fixed.equations, ∀ p ∈ eq.expr.params,
    fixed.substituted.contains p = false
  /-- No equation in use is the difference of two parameters. -/
  differences : ∀ eq ∈ fixed.equations, eq.retired = false →
    ∀ a b, eq.expr ≠ .param a - .param b
  /-- Each unknown is merged, fixed or iterated, in one way only. -/
  unknowns : (fixed.substituted.keys ++ fixed.solvedAlone.keys ++ fixed.newton.unknowns).Perm
    start.values.keys
  /-- Each equation is retired or iterated, not both. -/
  rows : (fixed.retiredRows ++ fixed.newton.rows).Perm (List.range start.equations.length)
  /-- A fixed unknown has a retired equation of its own that holds at the working values. -/
  solved : ∀ p, fixed.solvedAlone.contains p = true →
    ∃ eq ∈ fixed.equations, eq.retired = true ∧ eq.expr.referenced = .one p ∧
      Arith.abs (eq.expr.eval fixed.value) ≤ tolerance
  /-- Two unknowns have one representative exactly if differences of unknowns connect them. -/
  classes : ∀ p q, start.values.contains p = true → start.values.contains q = true →
    (renamed fixed.substituted p = renamed fixed.substituted q ↔
      Relation.EqvGen start.Equates p q)

/-- The two passes divide the unknowns and the equations of an untouched system. -/
theorem partitioned_of_untouched (hs : start.Untouched)
    (h : start.substitute.solveAlone tolerance cap = (fixed, failed)) :
    start.Partitioned fixed tolerance := by
  have hmerged := mergedFrom_substitute hs
  have halone := hmerged.solvedAlone.trans hs.solvedAlone
  have hfixed := fixedFrom_solveAlone halone tolerance cap
  obtain rfl : (start.substitute.solveAlone tolerance cap).1 = fixed := congrArg Prod.fst h
  refine ⟨?_, ?_, ?_, ?_, perm_unknowns hs h, ?_, ?_, ?_⟩
  · intro p q hq
    rw [hfixed.substituted] at hq ⊢
    obtain ⟨hknown, hnone⟩ := hmerged.resolved p q hq
    exact ⟨hmerged.values ▸ hknown, Table.contains_eq_false_iff.mpr hnone⟩
  · intro p q hq
    rw [hfixed.substituted] at hq
    exact dragged_substitute hs hq
  · intro eq heq p hp
    have hmem := List.mem_map_of_mem (f := Equation.expr) heq
    rw [hfixed.exprs] at hmem
    obtain ⟨old, hold, hexpr⟩ := List.mem_map.mp hmem
    rw [hfixed.substituted, Table.contains_eq_false_iff]
    exact hmerged.find?_of_mem_params hold (hexpr ▸ hp)
  · intro eq heq hr
    exact ne_difference_of_in_use hs (mem_of_in_use heq hr) hr
  · rw [← length_equations_eq hs h]
    exact perm_rows _
  · intro p hp
    obtain ⟨eq, heq, hr, hone, x, hx, hroot⟩ := exists_equation_of_solvedAlone halone hp
    refine ⟨eq, heq, hr, hone, ?_⟩
    rwa [eval_assignOne hone]
    rw [value_of_none (hfixed.unmerged p hp), hx, Option.getD_some]
  · intro p q _ _
    rw [hfixed.substituted]
    exact renamed_eq_iff_eqvGen hs

end EquationSystem

/-- In every assembled system, merging unknowns and then solving equations in one unknown divides
the unknowns and the equations. -/
theorem partitioned_of_solveAlone [Arith R] {s : Sketch R} {g : GroupId}
    {dragged : HandleSet ParamId} {excluded : Option ConstraintId}
    {start fixed : EquationSystem R} {tolerance : R} {cap : Nat}
    (h : s.assembleExcluding g dragged excluded = .ok start)
    (hfixed : start.substitute.solveAlone tolerance cap = (fixed, none)) :
    start.Partitioned fixed tolerance :=
  EquationSystem.partitioned_of_untouched (Sketch.untouched_assembleExcluding h) hfixed

/-- Of the linked points three unknowns are merged, three are fixed and three are iterated. -/
theorem partitioned_of_solveAlone_linkedPoints :
    ∃ start fixed, linkedPoints.assembleExcluding ⟨1⟩ .empty none = .ok start ∧
      start.substitute.solveAlone 1e-10 50 = (fixed, none) ∧
      fixed.substituted.size = 3 ∧ fixed.solvedAlone.size = 3 ∧ fixed.newton.width = 3 ∧
      start.Partitioned fixed 1e-10 := by
  have hrun : (linkedPoints.assembleExcluding ⟨1⟩ .empty none).toOption.any (fun start ↦
      decide ((start.substitute.solveAlone 1e-10 50).2 = none ∧
        (start.substitute.solveAlone 1e-10 50).1.substituted.size = 3 ∧
        (start.substitute.solveAlone 1e-10 50).1.solvedAlone.size = 3 ∧
        (start.substitute.solveAlone 1e-10 50).1.newton.width = 3)) = true := by decide +kernel
  obtain ⟨start, hstart, hsizes⟩ := Outcome.exists_of_any_toOption hrun
  obtain ⟨hnone, hmerged, hsolved, hwidth⟩ := of_decide_eq_true hsizes
  have hfixed : start.substitute.solveAlone 1e-10 50 =
      ((start.substitute.solveAlone 1e-10 50).1, none) := Prod.ext rfl hnone
  exact ⟨start, _, hstart, hfixed, hmerged, hsolved, hwidth,
    partitioned_of_solveAlone hstart hfixed⟩

end SketchSolver
