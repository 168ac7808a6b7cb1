import SketchSolver.Solve.Iteration

/-!
# What an iteration ends with

However many steps an iteration takes and whatever the factorisations return, it reports success
only after its equations were evaluated at the values it ends with and all of them held. The values
that it evaluates at are those that the system has once they are stored, for every parameter that
is not merged.
-/

namespace SketchSolver

variable {R : Type}

/-! ## Storing values of unknowns -/

namespace EquationSystem

variable {sys : EquationSystem R} {unknowns : List ParamId} {x : List R}

private theorem nodup_zip (h : unknowns.Nodup) (x : List R) :
    ((List.zip unknowns x).map Prod.fst).Nodup := by
  induction unknowns generalizing x with
  | nil => exact List.nodup_nil
  | cons p ps ih =>
    obtain ⟨hp, hps⟩ := List.nodup_cons.mp h
    cases x with
    | nil => exact List.nodup_nil
    | cons y ys =>
      rw [List.zip_cons_cons, List.map_cons, List.nodup_cons]
      refine ⟨?_, ih hps ys⟩
      intro hmem
      obtain ⟨⟨q, z⟩, hq, rfl⟩ := List.mem_map.mp hmem
      exact hp (List.of_mem_zip hq).1

/-- What is stored for an unknown is its value in the list, if there is one. -/
theorem find?_store (h : unknowns.Nodup) (p : ParamId) :
    (sys.store unknowns x).values.find? p =
      ((List.zip unknowns x).lookup p).or (sys.values.find? p) := by
  unfold store
  cases hl : (List.zip unknowns x).lookup p with
  | none =>
    rw [Option.none_or]
    apply Table.find?_insertAll_of_notMem
    intro hmem
    obtain ⟨e, he, hpe⟩ := List.mem_map.mp hmem
    have hne := List.lookup_eq_none_iff.mp hl e he
    rw [hpe, bne_self_eq_false] at hne
    cases hne
  | some y =>
    rw [Option.some_or]
    obtain ⟨before, after, hzip, _⟩ := List.lookup_eq_some_iff.mp hl
    apply Table.find?_insertAll_of_mem (nodup_zip h x)
    rw [hzip]
    exact List.mem_append_right before List.mem_cons_self

/-- Storing values of unknowns brings in no unknown. -/
theorem contains_store (h : unknowns.Nodup)
    (hu : ∀ p ∈ unknowns, sys.values.contains p = true) (p : ParamId) :
    (sys.store unknowns x).values.contains p = sys.values.contains p := by
  rw [Table.contains, find?_store h]
  cases hl : (List.zip unknowns x).lookup p with
  | none => rfl
  | some y =>
    obtain ⟨before, after, hzip, _⟩ := List.lookup_eq_some_iff.mp hl
    have hmem : (p, y) ∈ List.zip unknowns x := by
      rw [hzip]
      exact List.mem_append_right before List.mem_cons_self
    exact (hu p (List.of_mem_zip hmem).1).symm

end EquationSystem

/-! ## The iteration -/

variable [Arith R]

/-- All equations hold exactly if the magnitude of each is at most the tolerance. -/
theorem isConverged_iff {f : List R} {tolerance : R} :
    isConverged f tolerance = true ↔ ∀ x ∈ f, Arith.abs x ≤ tolerance := by
  rw [isConverged, List.all_eq_true]
  constructor
  · intro h x hx
    exact of_decide_eq_true (h x hx)
  · intro h x hx
    exact decide_eq_true (h x hx)

section Steps

variable {la : LinearAlgebra R} {config : Config R} {nw : NewtonSystem R} {sys : EquationSystem R}

/-- An iteration that succeeds has taken its values to a point where all equations hold. -/
theorem isConverged_of_iterateFrom {left taken : Nat} {x history : List R}
    (h : (iterateFrom la config nw sys left taken x history).converged = true) :
    isConverged (nw.residuals sys (iterateFrom la config nw sys left taken x history).x)
      config.tolerance = true := by
  fun_induction iterateFrom la config nw sys left taken x history with
  | case1 _ _ _ _ f hf => exact hf
  | case2 => cases h
  | case3 => cases h
  | case4 => cases h
  | case5 => cases h
  | case6 => cases h
  | case7 _ _ _ _ _ _ _ _ _ _ _ _ _ ih => exact ih h

/-- An iteration from the working values that succeeds ends where all equations hold. -/
theorem isConverged_of_iterate (h : (nw.iterate la config sys).converged = true) :
    isConverged (nw.residuals sys (nw.iterate la config sys).x) config.tolerance = true :=
  isConverged_of_iterateFrom h

end Steps

/-! ## The values that are evaluated at -/

namespace EquationSystem

/-- The value of a parameter that is not merged is its own working value. -/
theorem value_of_none {sys : EquationSystem R} {p : ParamId} (h : sys.substituted.find? p = none) :
    sys.value p = (sys.values.find? p).getD Arith.nan := by
  unfold value
  rw [renamed, h, Option.getD_none]
  cases sys.values.find? p <;> rfl

end EquationSystem

namespace NewtonSystem

variable {ps : List ParamId} {p : ParamId} {i looks low high : Nat}

/-- What is found by halving is the place of the parameter. -/
theorem getElem?_of_placeBetween? (h : placeBetween? ps p looks low high = some i) :
    ps[i]? = some p := by
  fun_induction placeBetween? ps p looks low high with
  | case1 => cases h
  | case2 => cases h
  | case3 => cases h
  | case4 _ _ _ _ _ _ _ _ ih => exact ih h
  | case5 _ _ _ _ _ _ _ _ _ ih => exact ih h
  | case6 _ _ _ _ middle q hq hlow hhigh =>
    have hqp : q = p :=
      Numbered.index_inj (Nat.le_antisymm (Nat.not_lt.mp hhigh) (Nat.not_lt.mp hlow))
    rw [← Option.some.inj h, hq, hqp]

/-- A parameter between the bounds is found by halving if the list is ascending. -/
theorem placeBetween?_eq_some (hps : ps.Pairwise fun a b ↦ a.index < b.index)
    (hi : ps[i]? = some p) (hlow : low ≤ i) (hhigh : i < high) (hend : high ≤ ps.length)
    (hlooks : high ≤ low + looks) : placeBetween? ps p looks low high = some i := by
  -- The order of two places is the order of the parameters there.
  have hlt : ∀ {j k : Nat} {a b : ParamId}, ps[j]? = some a → ps[k]? = some b → j < k →
      a.index < b.index := by
    intro j k a b ha hb hjk
    obtain ⟨hj, rfl⟩ := List.getElem?_eq_some_iff.mp ha
    obtain ⟨hk, rfl⟩ := List.getElem?_eq_some_iff.mp hb
    exact List.pairwise_iff_getElem.mp hps j k hj hk hjk
  fun_induction placeBetween? ps p looks low high with
  | case1 => omega
  | case2 => omega
  | case3 _ _ _ _ middle hnone =>
    rw [List.getElem?_eq_none_iff] at hnone
    omega
  | case4 _ _ _ _ middle q hq hless ih =>
    have hmiddle : middle < i := by
      rcases Nat.lt_trichotomy middle i with h | h | h
      · exact h
      · rw [h, hi] at hq
        cases hq
        omega
      · have := hlt hi hq h
        omega
    exact ih (by omega) hhigh hend (by omega)
  | case5 _ _ _ _ middle q hq _ hmore ih =>
    have hmiddle : i < middle := by
      rcases Nat.lt_trichotomy i middle with h | h | h
      · exact h
      · rw [← h, hi] at hq
        cases hq
        omega
      · have := hlt hq hi h
        omega
    exact ih hlow hmiddle (by omega) (by omega)
  | case6 _ _ _ _ middle q hq hless hmore =>
    rcases Nat.lt_trichotomy i middle with h | h | h
    · have := hlt hi hq h
      omega
    · rw [h]
    · have := hlt hq hi h
      omega

omit [Arith R] in
private theorem exists_getElem?_of_lookup_zip {x : List R} {y : R}
    (h : (List.zip ps x).lookup p = some y) : ∃ i : Nat, ps[i]? = some p ∧ x[i]? = some y := by
  obtain ⟨before, after, hzip, _⟩ := List.lookup_eq_some_iff.mp h
  have hmem : (p, y) ∈ List.zip ps x := hzip ▸ List.mem_append_right before List.mem_cons_self
  obtain ⟨i, hi⟩ := List.mem_iff_getElem?.mp hmem
  exact ⟨i, List.getElem?_zip_eq_some.mp hi⟩

omit [Arith R] in
private theorem lookup_zip_eq_some_iff (hps : ps.Nodup) {x : List R} {y : R} :
    (List.zip ps x).lookup p = some y ↔ ∃ i : Nat, ps[i]? = some p ∧ x[i]? = some y := by
  refine ⟨exists_getElem?_of_lookup_zip, ?_⟩
  rintro ⟨i, hp, hy⟩
  cases hl : (List.zip ps x).lookup p with
  | none =>
    have hmem : (p, y) ∈ List.zip ps x :=
      List.mem_of_getElem? (List.getElem?_zip_eq_some.mpr ⟨hp, hy⟩)
    have hne := List.lookup_eq_none_iff.mp hl _ hmem
    rw [bne_self_eq_false] at hne
    cases hne
  | some z =>
    obtain ⟨j, hj, hz⟩ := exists_getElem?_of_lookup_zip hl
    have hij : i = j :=
      (List.getElem?_inj (List.getElem?_eq_some_iff.mp hp).1 hps).mp (hp.trans hj.symm)
    rw [← hy, hij, hz]

variable {nw : NewtonSystem R}

omit [Arith R] in
/-- The column of a parameter is its place among ascending unknowns. -/
theorem column?_eq_some_iff (hps : nw.unknowns.Pairwise fun a b ↦ a.index < b.index) :
    nw.column? p = some i ↔ nw.unknowns[i]? = some p := by
  constructor
  · exact getElem?_of_placeBetween?
  · intro hi
    have hlength := (List.getElem?_eq_some_iff.mp hi).1
    exact placeBetween?_eq_some hps hi (Nat.zero_le i) hlength (Nat.le_refl _) (by omega)

/-- Ascending unknowns get the values that are listed for them. -/
theorem assignment_eq_lookup (hps : nw.unknowns.Pairwise fun a b ↦ a.index < b.index)
    (sys : EquationSystem R) (x : List R) (p : ParamId) :
    nw.assignment sys x p = ((List.zip nw.unknowns x).lookup p).getD (sys.value p) := by
  have hnodup : nw.unknowns.Nodup :=
    hps.imp fun h he ↦ Nat.ne_of_lt h (congrArg ParamId.index he)
  have hlookup : (nw.column? p).bind (x[·]?) = (List.zip nw.unknowns x).lookup p := by
    apply Option.ext
    intro y
    simp only [Option.bind_eq_some_iff, column?_eq_some_iff hps, lookup_zip_eq_some_iff hnodup]
  rw [assignment, hlookup]
  cases (List.zip nw.unknowns x).lookup p <;> rfl

/-- A parameter that is not merged is evaluated at the value that it is stored with. -/
theorem assignment_eq_value {sys : EquationSystem R}
    (hps : nw.unknowns.Pairwise fun a b ↦ a.index < b.index)
    (hp : sys.substituted.find? p = none) (x : List R) :
    nw.assignment sys x p = (sys.store nw.unknowns x).value p := by
  have hnodup : nw.unknowns.Nodup :=
    hps.imp fun h he ↦ Nat.ne_of_lt h (congrArg ParamId.index he)
  have hstored : (sys.store nw.unknowns x).substituted.find? p = none := hp
  rw [EquationSystem.value_of_none hstored, EquationSystem.find?_store hnodup,
    assignment_eq_lookup hps, EquationSystem.value_of_none hp]
  cases (List.zip nw.unknowns x).lookup p <;> rfl

end NewtonSystem

namespace EquationSystem

/-! ## What is iterated -/

variable (sys : EquationSystem R)

/-- The unknowns that are iterated are in ascending order. -/
theorem sorted_newton_unknowns :
    sys.newton.unknowns.Pairwise fun a b ↦ a.index < b.index := sys.values.sorted_keys.filter _

/-- The unknowns that are iterated are different. -/
theorem nodup_newton_unknowns : sys.newton.unknowns.Nodup := sys.values.nodup_keys.filter _

/-- What is iterated are the unknowns that are neither merged nor fixed. -/
theorem mem_newton_unknowns {p : ParamId} :
    p ∈ sys.newton.unknowns ↔ sys.values.contains p = true ∧ sys.substituted.contains p = false ∧
      sys.solvedAlone.contains p = false := by
  unfold newton
  simp only [List.mem_filter, Table.contains_eq_true_iff, Bool.and_eq_true, Bool.not_eq_true']

/-- A fixed unknown is not iterated. -/
theorem notMem_newton_unknowns {p : ParamId} (h : sys.solvedAlone.contains p = true) :
    p ∉ sys.newton.unknowns := by
  intro hmem
  have hfree := ((mem_newton_unknowns sys).mp hmem).2.2
  rw [h] at hfree
  cases hfree

/-- The equations that are iterated are those in use. -/
theorem mem_newton_equations {eq : Equation R} :
    eq ∈ sys.newton.equations ↔ eq ∈ sys.equations ∧ eq.retired = false := by
  unfold newton
  rw [List.mem_map]
  constructor
  · rintro ⟨⟨old, i⟩, hi, rfl⟩
    obtain ⟨hmem, hr⟩ := List.mem_filter.mp hi
    rw [Bool.not_eq_true'] at hr
    exact ⟨List.mem_of_getElem? (List.mem_zipIdx_iff_getElem?.mp hmem), hr⟩
  · rintro ⟨hmem, hr⟩
    obtain ⟨i, hi⟩ := List.mem_iff_getElem?.mp hmem
    refine ⟨(eq, i), List.mem_filter.mpr ⟨List.mem_zipIdx_iff_getElem?.mpr hi, ?_⟩, rfl⟩
    rw [hr, Bool.not_false]

end EquationSystem

end SketchSolver
