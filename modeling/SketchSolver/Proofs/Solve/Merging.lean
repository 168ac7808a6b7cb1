import SketchSolver.Proofs.Solve.Assembly
import SketchSolver.Solve.Substitution

/-!
# What merging keeps

Unknowns are merged one equation at a time, and each merge renames all equations. Over any number
of merges the equations are those of the start under a single renaming, the table of merged
unknowns: `EquationSystem.MergedFrom` says so, `mergedFrom_substituteAt` keeps it for one equation
and `mergedFrom_substitute` for the whole pass. The table stays resolved, so an unknown that stands
for others is never replaced itself and no equation mentions a replaced one.
-/

namespace SketchSolver

variable {R : Type}

/-! ## Renaming -/

/-- The renaming of a single parameter. -/
theorem renamed_insert_empty (gone kept p : ParamId) :
    renamed (Table.empty.insert gone kept) p = if p = gone then kept else p := by
  rw [renamed, Table.find?_insert, Table.find?_empty]
  by_cases hp : p = gone
  · rw [if_pos hp, if_pos (congrArg Numbered.index hp.symm), Option.getD_some]
  · rw [if_neg hp, if_neg fun h ↦ hp (Numbered.index_inj h).symm, Option.getD_none]

/-- A parameter without an entry keeps its name. -/
theorem renamed_of_none {m : Table ParamId ParamId} {p : ParamId} (h : m.find? p = none) :
    renamed m p = p := by
  rw [renamed, h, Option.getD_none]

namespace EquationSystem

/-! ## The invariant of the pass -/

/-- A system whose equations are those of an earlier one with merged unknowns renamed. -/
structure MergedFrom (start sys : EquationSystem R) : Prop where
  /-- It is the system of the same group. -/
  group : sys.group = start.group
  /-- The working values are the same. -/
  values : sys.values = start.values
  /-- The dragged unknowns are the same. -/
  dragged : sys.dragged = start.dragged
  /-- The fixed unknowns are the same. -/
  solvedAlone : sys.solvedAlone = start.solvedAlone
  /-- The equations are renamed by the table of merged unknowns. -/
  exprs : sys.equations.map Equation.expr =
    start.equations.map fun eq ↦ eq.expr.substitute sys.substituted
  /-- What stands for a merged unknown is an unknown that is not merged. -/
  resolved : ∀ p q, sys.substituted.find? p = some q →
    sys.values.contains q = true ∧ sys.substituted.find? q = none
  /-- A retired equation is the difference of an unknown and itself. -/
  trivial : ∀ eq ∈ sys.equations, eq.retired = true →
    ∃ p, sys.values.contains p = true ∧ eq.expr = .param p - .param p

variable {start sys : EquationSystem R}

/-- An untouched system is merged from itself. -/
theorem Untouched.mergedFrom (h : start.Untouched) : MergedFrom start start where
  group := rfl
  values := rfl
  dragged := rfl
  solvedAlone := rfl
  exprs := by
    simp only [h.substituted, Expr.substitute_empty]
  resolved := by
    intro p q hp
    rw [h.substituted, Table.find?_empty] at hp
    cases hp
  trivial := by
    intro eq heq hr
    rw [h.in_use eq heq] at hr
    cases hr

/-! ## One merge -/

/-- After a merge, what is replaced stands for nothing, and what it stood for is renamed. -/
theorem find?_merge (sys : EquationSystem R) (gone kept p : ParamId) :
    (sys.merge gone kept).substituted.find? p =
      if p = gone then some kept
      else (sys.substituted.find? p).map fun q ↦ if q = gone then kept else q := by
  rw [merge, Table.find?_insert, Table.find?_map]
  by_cases hp : p = gone
  · rw [if_pos hp, if_pos (congrArg Numbered.index hp.symm)]
  · rw [if_neg hp, if_neg fun h ↦ hp (Numbered.index_inj h).symm]

/-- What stands for a merged unknown after one more merge is the one that is kept, or another that
stood for it before. -/
theorem find?_merge_eq_some {gone kept p q : ParamId}
    (h : (sys.merge gone kept).substituted.find? p = some q) :
    q = kept ∨ q ≠ gone ∧ sys.substituted.find? p = some q := by
  rw [find?_merge] at h
  by_cases hp : p = gone
  · rw [if_pos hp] at h
    exact .inl (Option.some.inj h).symm
  · rw [if_neg hp] at h
    obtain ⟨r, hr, hq⟩ := Option.map_eq_some_iff.mp h
    by_cases hrg : r = gone
    · rw [if_pos hrg] at hq
      exact .inl hq.symm
    · rw [if_neg hrg] at hq
      cases hq
      exact .inr ⟨hrg, hr⟩

/-- A merge renames all equations. -/
theorem exprs_merge (sys : EquationSystem R) (gone kept : ParamId) :
    (sys.merge gone kept).equations.map Equation.expr =
      (sys.equations.map Equation.expr).map (·.substitute (Table.empty.insert gone kept)) := by
  rw [merge, List.map_map, List.map_map]
  rfl

/-- After a merge every parameter is renamed once more. -/
theorem renamed_merge {gone kept : ParamId} (hgone : sys.substituted.find? gone = none)
    (p : ParamId) :
    renamed (sys.merge gone kept).substituted p =
      renamed (Table.empty.insert gone kept) (renamed sys.substituted p) := by
  rw [renamed_insert_empty, renamed, find?_merge]
  by_cases hp : p = gone
  · rw [if_pos hp, Option.getD_some, hp, renamed_of_none hgone, if_pos rfl]
  · rw [if_neg hp]
    cases hm : sys.substituted.find? p with
    | none => rw [renamed_of_none hm, Option.map_none, Option.getD_none, if_neg hp]
    | some q => rw [Option.map_some, Option.getD_some, renamed, hm, Option.getD_some]

/-- Retiring an equation and merging two unknowns can be done in either order. -/
theorem merge_retire (sys : EquationSystem R) (gone kept : ParamId) (i : Nat) :
    (sys.retire i).merge gone kept = (sys.merge gone kept).retire i := by
  simp only [merge, retire, EquationSystem.mk.injEq, true_and, and_true]
  apply List.ext_getElem?
  intro j
  simp only [List.getElem?_map, List.getElem?_modify]
  by_cases hij : i = j
  · cases sys.equations[j]? <;> simp [hij]
  · cases sys.equations[j]? <;> simp [hij]

namespace MergedFrom

/-- What a parameter is renamed to is not merged. -/
theorem find?_renamed (h : MergedFrom start sys) (p : ParamId) :
    sys.substituted.find? (renamed sys.substituted p) = none := by
  cases hp : sys.substituted.find? p with
  | none => rw [renamed_of_none hp, hp]
  | some q =>
    have hq := (h.resolved p q hp).2
    rw [renamed, hp, Option.getD_some, hq]

/-- An unknown is renamed to an unknown. -/
theorem contains_renamed (h : MergedFrom start sys) {p : ParamId}
    (hp : sys.values.contains p = true) :
    sys.values.contains (renamed sys.substituted p) = true := by
  cases hm : sys.substituted.find? p with
  | none => rwa [renamed_of_none hm]
  | some q =>
    have hq := (h.resolved p q hm).1
    rwa [renamed, hm, Option.getD_some]

/-- An equation comes from one of the start, which it is with merged unknowns renamed. -/
theorem exists_origin (h : MergedFrom start sys) {eq : Equation R} (heq : eq ∈ sys.equations) :
    ∃ old ∈ start.equations, eq.expr = old.expr.substitute sys.substituted := by
  have hmem : eq.expr ∈ sys.equations.map Equation.expr := List.mem_map.mpr ⟨eq, heq, rfl⟩
  rw [h.exprs] at hmem
  obtain ⟨old, hold, he⟩ := List.mem_map.mp hmem
  exact ⟨old, hold, he.symm⟩

/-- An equation of the start is still there with merged unknowns renamed. -/
theorem exists_successor (h : MergedFrom start sys) {old : Equation R}
    (hold : old ∈ start.equations) :
    ∃ eq ∈ sys.equations, eq.expr = old.expr.substitute sys.substituted := by
  have hmem : old.expr.substitute sys.substituted ∈ sys.equations.map Equation.expr := by
    rw [h.exprs]
    exact List.mem_map.mpr ⟨old, hold, rfl⟩
  obtain ⟨eq, heq, he⟩ := List.mem_map.mp hmem
  exact ⟨eq, heq, he⟩

/-- No equation mentions a merged unknown. -/
theorem find?_of_mem_params (h : MergedFrom start sys) {eq : Equation R}
    (heq : eq ∈ sys.equations) {p : ParamId} (hp : p ∈ eq.expr.params) :
    sys.substituted.find? p = none := by
  obtain ⟨old, _, he⟩ := h.exists_origin heq
  rw [he, Expr.params_substitute] at hp
  obtain ⟨q, _, rfl⟩ := List.mem_map.mp hp
  exact h.find?_renamed q

/-- The equations still mention unknowns only. -/
theorem closed (h : MergedFrom start sys) (hs : start.Untouched) {eq : Equation R}
    (heq : eq ∈ sys.equations) {p : ParamId} (hp : p ∈ eq.expr.params) :
    sys.values.contains p = true := by
  obtain ⟨old, hold, he⟩ := h.exists_origin heq
  rw [he, Expr.params_substitute] at hp
  obtain ⟨q, hq, rfl⟩ := List.mem_map.mp hp
  apply h.contains_renamed
  rw [h.values]
  exact hs.closed old hold q hq

/-! ## One equation -/

/-- An equation that says that an unknown equals itself is retired. -/
theorem retire (h : MergedFrom start sys) {i : Nat} {p : ParamId}
    (hp : sys.values.contains p = true)
    (hi : ∀ eq, sys.equations[i]? = some eq → eq.expr = .param p - .param p) :
    MergedFrom start (sys.retire i) where
  group := h.group
  values := h.values
  dragged := h.dragged
  solvedAlone := h.solvedAlone
  exprs := (exprs_retire sys i).trans h.exprs
  resolved := h.resolved
  trivial := by
    intro eq heq hr
    rcases mem_retire heq with heq | ⟨old, hold, rfl⟩
    · exact h.trivial eq heq hr
    · exact ⟨p, hp, hi old hold⟩

/-- An unknown that is not merged is merged with another one that is not merged. -/
theorem merge (h : MergedFrom start sys) {gone kept : ParamId}
    (hgone : sys.substituted.find? gone = none) (hkept : sys.substituted.find? kept = none)
    (hne : kept ≠ gone) (hvalue : sys.values.contains kept = true) :
    MergedFrom start (sys.merge gone kept) where
  group := h.group
  values := h.values
  dragged := h.dragged
  solvedAlone := h.solvedAlone
  exprs := by
    rw [exprs_merge, h.exprs, List.map_map]
    apply List.map_congr_left
    intro eq _
    apply Expr.substitute_substitute
    intro p _
    exact (renamed_merge hgone p).symm
  resolved := by
    intro p q hp
    rcases find?_merge_eq_some hp with rfl | ⟨hqg, hq⟩
    · refine ⟨hvalue, ?_⟩
      rw [find?_merge, if_neg hne, hkept, Option.map_none]
    · refine ⟨(h.resolved p q hq).1, ?_⟩
      rw [find?_merge, if_neg hqg, (h.resolved p q hq).2, Option.map_none]
  trivial := by
    intro eq heq hr
    obtain ⟨old, hold, rfl⟩ := List.mem_map.mp heq
    obtain ⟨p, hp, he⟩ := h.trivial old hold hr
    refine ⟨renamed (Table.empty.insert gone kept) p, ?_, ?_⟩
    · rw [renamed_insert_empty]
      by_cases hpg : p = gone
      · rw [if_pos hpg]
        exact hvalue
      · rw [if_neg hpg]
        exact hp
    · simp only [he]
      rfl

end MergedFrom

/-! ## The pass -/

/-- Two unknowns are equated by the equation in use that is their difference. -/
theorem equated?_eq_some {i : Nat} {a b : ParamId} (h : sys.equated? i = some (a, b)) :
    ∃ eq, sys.equations[i]? = some eq ∧ eq.retired = false ∧ eq.expr = .param a - .param b ∧
      sys.values.contains a = true ∧ sys.values.contains b = true := by
  unfold equated? at h
  split at h
  · cases h
  · next eq heq =>
    split at h
    · cases h
    · next hr =>
      obtain ⟨hd, hv⟩ := Option.filter_eq_some_iff.mp h
      rw [Bool.and_eq_true] at hv
      exact ⟨eq, heq, Bool.eq_false_iff.mpr hr, Expr.paramDifference?_eq_some_iff.mp hd,
        hv.1, hv.2⟩

/-- Of two equated unknowns one is replaced by the other. -/
theorem mergeOrder_cases (sys : EquationSystem R) (a b : ParamId) :
    sys.mergeOrder a b = (a, b) ∨ sys.mergeOrder a b = (b, a) := by
  unfold mergeOrder
  split
  · exact .inr rfl
  · exact .inl rfl

/-- The difference of two equated unknowns is trivial once they are merged. -/
theorem substitute_difference {a b gone kept : ParamId}
    (h : (gone, kept) = (a, b) ∨ (gone, kept) = (b, a)) :
    (Expr.param a - Expr.param b : Expr R).substitute (Table.empty.insert gone kept) =
      .param kept - .param kept := by
  have hsub : (Expr.param a - Expr.param b : Expr R).substitute (Table.empty.insert gone kept) =
      .param (if a = gone then kept else a) - .param (if b = gone then kept else b) := by
    rw [← renamed_insert_empty, ← renamed_insert_empty]
    rfl
  rw [hsub]
  rcases h with h | h
  · obtain ⟨rfl, rfl⟩ := Prod.mk.inj h
    rw [if_pos rfl, ite_self]
  · obtain ⟨rfl, rfl⟩ := Prod.mk.inj h
    rw [if_pos rfl, ite_self]

/-- Retiring the difference of two unknowns and merging them keeps the invariant. -/
theorem MergedFrom.retire_merge (h : MergedFrom start sys) {i : Nat} {eq : Equation R}
    (heq : sys.equations[i]? = some eq) {a b gone kept : ParamId}
    (he : eq.expr = .param a - .param b) (ha : sys.values.contains a = true)
    (hb : sys.values.contains b = true) (hne : a ≠ b)
    (horder : (gone, kept) = (a, b) ∨ (gone, kept) = (b, a)) :
    MergedFrom start ((sys.retire i).merge gone kept) := by
  have hmem := List.mem_of_getElem? heq
  have hfa : sys.substituted.find? a = none :=
    h.find?_of_mem_params hmem (he ▸ List.mem_cons_self)
  have hfb : sys.substituted.find? b = none :=
    h.find?_of_mem_params hmem (he ▸ List.mem_cons_of_mem a List.mem_cons_self)
  have hmerge : MergedFrom start (sys.merge gone kept) ∧ sys.values.contains kept = true := by
    rcases horder with ho | ho
    · obtain ⟨rfl, rfl⟩ := Prod.mk.inj ho
      exact ⟨h.merge hfa hfb (Ne.symm hne) hb, hb⟩
    · obtain ⟨rfl, rfl⟩ := Prod.mk.inj ho
      exact ⟨h.merge hfb hfa hne ha, ha⟩
  rw [merge_retire]
  apply hmerge.1.retire hmerge.2
  intro new hnew
  rw [EquationSystem.merge, List.getElem?_map, heq, Option.map_some] at hnew
  cases hnew
  simp only [he]
  exact substitute_difference horder

/-- Looking at one equation keeps the invariant. -/
theorem mergedFrom_substituteAt (h : MergedFrom start sys) (i : Nat) :
    MergedFrom start (sys.substituteAt i) := by
  unfold substituteAt
  split
  · exact h
  · next a b hab =>
    obtain ⟨eq, heq, _, he, ha, hb⟩ := equated?_eq_some hab
    by_cases hne : a = b
    · rw [if_pos hne]
      apply h.retire ha
      intro old hold
      cases heq.symm.trans hold
      rw [he, hne]
    · rw [if_neg hne]
      exact h.retire_merge heq he ha hb hne (mergeOrder_cases sys a b)

/-- Looking at equations in turn keeps the invariant. -/
theorem mergedFrom_foldl (h : MergedFrom start sys) (is : List Nat) :
    MergedFrom start (is.foldl substituteAt sys) := by
  induction is generalizing sys with
  | nil => exact h
  | cons i is ih => exact ih (mergedFrom_substituteAt h i)

/-- The whole pass renames the equations of an untouched system by the table that it makes. -/
theorem mergedFrom_substitute (h : start.Untouched) : MergedFrom start start.substitute :=
  mergedFrom_foldl h.mergedFrom _

end EquationSystem

end SketchSolver
