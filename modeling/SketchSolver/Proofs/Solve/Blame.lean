import SketchSolver.Proofs.Solve.Magnitudes

/-!
# Who is to blame

Where an iteration fails, the report blames the constraints that own an equation that is off, the
worst first. The equations of a constraint stand anywhere among the others, so the worst of each is
found in one pass over all rows, with a table that has the greatest violation so far of each
constraint. `Blames` says what the list is meant to be. It is that for every tolerance below the
value above every number; with any other tolerance nobody is blamed.
-/

namespace SketchSolver

open Numbered

/-! ## Sorting by one key after another -/

section

variable {α : Type} {le : α → α → Bool} {r : α → α → Prop} {l : List α}

/-- What is equal to a sort stays in the order it was in. -/
theorem pairwise_mergeSort_of_pairwise (trans : ∀ a b c, le a b → le b c → le a c)
    (total : ∀ a b, le a b || le b a) (h : l.Pairwise r) :
    (l.mergeSort le).Pairwise fun a b ↦ le a b = true ∧ (le b a = true → r a b) := by
  -- Members are told apart by their places, which decide between equal ones.
  rw [← List.mergeSort_zipIdx, List.pairwise_map]
  have hsorted := List.pairwise_mergeSort (List.zipIdxLE_trans trans) (List.zipIdxLE_total total)
    l.zipIdx
  have hplaces : ((l.zipIdx.mergeSort (List.zipIdxLE le)).map Prod.snd).Nodup := by
    rw [((List.mergeSort_perm _ _).map Prod.snd).nodup_iff, List.zipIdx_map_snd]
    exact List.nodup_range'
  rw [List.Nodup, List.pairwise_map] at hplaces
  refine (hsorted.and hplaces).imp_of_mem ?_
  rintro ⟨a, i⟩ ⟨b, j⟩ ha hb ⟨hle, hne⟩
  rw [List.mem_mergeSort, List.mk_mem_zipIdx_iff_getElem?] at ha hb
  obtain ⟨hi, rfl⟩ := List.getElem?_eq_some_iff.mp ha
  obtain ⟨hj, rfl⟩ := List.getElem?_eq_some_iff.mp hb
  unfold List.zipIdxLE at hle
  split at hle
  · next hab =>
    refine ⟨hab, fun hba ↦ ?_⟩
    rw [if_pos hba, decide_eq_true_iff] at hle
    exact List.pairwise_iff_getElem.mp h i j hi hj (Nat.lt_of_le_of_ne hle hne)
  · exact absurd hle Bool.false_ne_true

end

variable {R : Type} [Arith R]

section

variable [OrderedMagnitudes R] {K : Type} {l : List (K × R)} {r : K × R → K × R → Prop}

/-- Entries with magnitudes are sorted with the greatest first, and those that are equally great
stay in the order they were in. -/
theorem pairwise_mergeSort_of_isMagnitude (hl : ∀ e ∈ l, IsMagnitude e.2) (h : l.Pairwise r) :
    (l.mergeSort fun a b ↦ decide (b.2 ≤ a.2)).Pairwise fun a b ↦
      b.2 < a.2 ∨ a.2 = b.2 ∧ r a b := by
  -- With undefined values before all others, any two entries can be compared.
  let le : K × R → K × R → Bool := fun a b ↦ decide (b.2 ≤ a.2) || Arith.isNaN a.2
  have hle : ∀ a b : K × R, le a b = true ↔ b.2 ≤ a.2 ∨ Arith.isNaN a.2 = true := by
    intro a b
    rw [Bool.or_eq_true, decide_eq_true_iff]
  have trans : ∀ a b c, le a b → le b c → le a c := by
    intro a b c hab hbc
    rw [hle] at hab hbc ⊢
    refine hab.imp_left fun hba ↦ ?_
    rcases hbc with hcb | hnan
    · exact OrderedArith.le_trans hcb hba
    · exact absurd ((OrderedArith.isNaN_of_le hba).symm.trans hnan) Bool.false_ne_true
  have total : ∀ a b, le a b || le b a := by
    intro a b
    rw [Bool.or_eq_true, hle, hle]
    cases ha : Arith.isNaN a.2 with
    | true => exact .inl (.inr rfl)
    | false =>
      cases hb : Arith.isNaN b.2 with
      | true => exact .inr (.inr rfl)
      | false =>
        by_cases hab : a.2 < b.2
        · exact .inr (.inl (OrderedArith.le_of_lt hab))
        · exact .inl (.inl (OrderedArith.le_of_not_lt ha hb hab))
  have hmem : ∀ a ∈ l, ∀ b ∈ l, decide (b.2 ≤ a.2) = le a b := by
    intro a ha b _
    simp only [le, (hl a ha).1, Bool.or_false]
  have hsort : l.mergeSort (fun a b ↦ decide (b.2 ≤ a.2)) = l.mergeSort le := by
    have hid := List.map_mergeSort (f := id) (s := le) hmem
    rwa [List.map_id, List.map_id] at hid
  rw [hsort]
  refine (pairwise_mergeSort_of_pairwise trans total h).imp_of_mem ?_
  intro a b ha hb ⟨hab, hties⟩
  rw [List.mem_mergeSort] at ha hb
  rw [← hmem a ha b hb, decide_eq_true_iff] at hab
  by_cases hlt : b.2 < a.2
  · exact .inl hlt
  · have hba := OrderedArith.le_of_not_lt (hl b hb).1 (hl a ha).1 hlt
    exact .inr ⟨(hl a ha).antisymm (hl b hb) hba hab, hties ((hle b a).mpr (.inl hba))⟩

end

/-! ## The greatest violation -/

/-- A set of magnitudes has a given greatest member, if it has one. -/
def IsMaximum (s : Set R) : Option R → Prop
  | none => s = ∅
  | some m => IsGreatest s m

section

variable [OrderedMagnitudes R] {s : Set R} {o : Option R} {f v tolerance : R}

/-- A violation is a magnitude. -/
theorem isMagnitude_violation (f : R) : IsMagnitude (violation f) := by
  unfold violation
  split
  · exact ⟨OrderedMagnitudes.isNaN_infinity, Arith.infinity, OrderedMagnitudes.abs_infinity⟩
  · next hf => exact isMagnitude_abs (Bool.not_eq_true _ ▸ hf)

/-- No violation is above the value that is above every number. -/
theorem violation_le_infinity (f : R) : violation f ≤ Arith.infinity := by
  unfold violation
  split
  · exact le_self_of_isNaN OrderedMagnitudes.isNaN_infinity
  · next hf => exact OrderedMagnitudes.abs_le_infinity (Bool.not_eq_true _ ▸ hf)

omit [OrderedMagnitudes R] in
/-- An equation is off if it is undefined or has a magnitude above the tolerance. -/
theorem lt_violation_iff (h : tolerance < Arith.infinity) :
    tolerance < violation f ↔ Arith.isNaN f = true ∨ tolerance < Arith.abs f := by
  unfold violation
  split
  · next hf => exact iff_of_true h (.inl hf)
  · next hf => exact (or_iff_right hf).symm

/-- No equation is off by more than a tolerance that is not below the value above every number. -/
theorem not_lt_violation (h : ¬ tolerance < Arith.infinity) : ¬ tolerance < violation f := by
  intro hlt
  have hle := OrderedArith.le_of_not_lt (OrderedArith.isNaN_of_le (OrderedArith.le_of_lt hlt))
    OrderedMagnitudes.isNaN_infinity h
  exact OrderedArith.not_lt_of_le (OrderedArith.le_trans (violation_le_infinity f) hle) hlt

/-- With one more magnitude, the greater of it and the greatest is the greatest. -/
theorem isMaximum_insert_larger (h : IsMaximum s o) (hs : ∀ m ∈ s, IsMagnitude m)
    (hv : IsMagnitude v) : IsMaximum (insert v s) (some (Arith.larger (o.getD 0.0) v)) := by
  cases o with
  | none =>
    obtain rfl : s = ∅ := h
    have hzero : (0.0 : R) ≤ v := by
      obtain ⟨hnan, a, rfl⟩ := hv
      exact OrderedMagnitudes.zero_le_abs ((OrderedArith.isNaN_abs a).symm.trans hnan)
    have hlarger : Arith.larger (0.0 : R) v = v := isMagnitude_zero.larger_eq hv hzero
    rw [Option.getD_none, hlarger]
    refine ⟨Set.mem_insert v ∅, ?_⟩
    rintro m (rfl | hm)
    · exact le_self_of_isNaN hv.1
    · exact absurd hm (Set.notMem_empty m)
  | some m => exact isGreatest_insert_larger h (hs m h.1).1 hv.1

end

/-! ## The worst violation of each constraint -/

namespace EquationSystem

variable {sys : EquationSystem R} {nw : NewtonSystem R} {residuals : List R} {tolerance : R}
  {rows : List (Nat × R)} {row : Nat × R} {worst : Table ConstraintId R} {id : ConstraintId}
  {f m : R}

/-- A constraint owns the equation at a place of a system. -/
def Owns (sys : EquationSystem R) (id : ConstraintId) (i : Nat) : Prop :=
  ∃ eq, sys.equations[i]? = some eq ∧ eq.source = .constraint id

/-- The violations of a constraint in some rows that are above the tolerance. -/
def violations (sys : EquationSystem R) (tolerance : R) (rows : List (Nat × R))
    (id : ConstraintId) : Set R :=
  {v | ∃ row ∈ rows, sys.Owns id row.1 ∧ tolerance < v ∧ violation row.2 = v}

/-- A table has the worst violation of each constraint that owns an equation that is off. -/
def Records (sys : EquationSystem R) (tolerance : R) (rows : List (Nat × R))
    (worst : Table ConstraintId R) : Prop :=
  ∀ id, IsMaximum (sys.violations tolerance rows id) (worst.find? id)

omit [Arith R] in
/-- The source of an equation says which constraint owns it. -/
theorem owns_iff {i : Nat} :
    sys.Owns id i ↔ sys.equations[i]?.map Equation.source = some (.constraint id) :=
  Option.map_eq_some_iff.symm

/-- One more row of a constraint that is off adds its violation. -/
theorem violations_concat_of_owns (howns : sys.Owns id row.1) (hoff : tolerance < violation row.2) :
    sys.violations tolerance (rows ++ [row]) id =
      insert (violation row.2) (sys.violations tolerance rows id) := by
  ext v
  constructor
  · rintro ⟨row', hmem, h, hv, rfl⟩
    rcases List.mem_append.mp hmem with hmem | hmem
    · exact .inr ⟨row', hmem, h, hv, rfl⟩
    · exact .inl (congrArg (violation ·.2) (List.mem_singleton.mp hmem))
  · rintro (rfl | ⟨row', hmem, h⟩)
    · exact ⟨row, List.mem_concat_self, howns, hoff, rfl⟩
    · exact ⟨row', List.mem_append_left _ hmem, h⟩

/-- A row of another constraint, or one that is not off, adds no violation. -/
theorem violations_concat_of_not (h : ¬ (sys.Owns id row.1 ∧ tolerance < violation row.2)) :
    sys.violations tolerance (rows ++ [row]) id = sys.violations tolerance rows id := by
  ext v
  constructor
  · rintro ⟨row', hmem, howns, hv, rfl⟩
    rcases List.mem_append.mp hmem with hmem | hmem
    · exact ⟨row', hmem, howns, hv, rfl⟩
    · rw [List.mem_singleton.mp hmem] at howns hv
      exact absurd ⟨howns, hv⟩ h
  · rintro ⟨row', hmem, h⟩
    exact ⟨row', List.mem_append_left _ hmem, h⟩

/-- A row that is off is recorded for the constraint that owns it. -/
theorem find?_recordViolation_of_owns (howns : sys.Owns id row.1)
    (hoff : tolerance < violation row.2) :
    (sys.recordViolation tolerance worst row).find? id =
      some (Arith.larger ((worst.find? id).getD 0.0) (violation row.2)) := by
  unfold recordViolation
  rw [owns_iff.mp howns]
  dsimp only
  rw [if_pos hoff, Table.find?_insert_self]

/-- A row of another constraint, or one that is not off, leaves what is recorded for a constraint.
-/
theorem find?_recordViolation_of_not (h : ¬ (sys.Owns id row.1 ∧ tolerance < violation row.2)) :
    (sys.recordViolation tolerance worst row).find? id = worst.find? id := by
  unfold recordViolation
  split
  · next other hother =>
    dsimp only
    split
    · next hoff =>
      rw [Table.find?_insert, if_neg]
      intro hindex
      obtain rfl := index_inj hindex
      exact h ⟨owns_iff.mpr hother, hoff⟩
    · rfl
  · rfl

variable [OrderedMagnitudes R]

/-- One more row keeps the record. -/
theorem Records.recordViolation (h : sys.Records tolerance rows worst) (row : Nat × R) :
    sys.Records tolerance (rows ++ [row]) (sys.recordViolation tolerance worst row) := by
  intro id
  by_cases hrow : sys.Owns id row.1 ∧ tolerance < violation row.2
  · obtain ⟨howns, hoff⟩ := hrow
    rw [violations_concat_of_owns howns hoff, find?_recordViolation_of_owns howns hoff]
    apply isMaximum_insert_larger (h id) _ (isMagnitude_violation row.2)
    rintro _ ⟨row', _, _, _, rfl⟩
    exact isMagnitude_violation row'.2
  · rw [violations_concat_of_not hrow, find?_recordViolation_of_not hrow]
    exact h id

/-- Row after row, the worst violations are recorded. -/
theorem records_foldl (sys : EquationSystem R) (tolerance : R) (rows : List (Nat × R)) :
    sys.Records tolerance rows (rows.foldl (sys.recordViolation tolerance) Table.empty) := by
  induction rows using List.reverseRecOn with
  | nil =>
    intro id
    rw [List.foldl_nil, Table.find?_empty]
    exact Set.eq_empty_of_forall_notMem fun _ ⟨_, hmem, _⟩ ↦ absurd hmem List.not_mem_nil
  | append_singleton rows row ih =>
    rw [List.foldl_concat]
    exact ih.recordViolation row

end EquationSystem

/-! ## What the list of blamed constraints is -/

namespace EquationSystem

variable {sys : EquationSystem R} {nw : NewtonSystem R} {residuals : List R} {tolerance : R}
  {worst : Table ConstraintId R} {id : ConstraintId} {ids : List ConstraintId} {f m : R}

/-- A value is left of an equation that a constraint owns and that is iterated. -/
def Leaves (sys : EquationSystem R) (nw : NewtonSystem R) (residuals : List R)
    (id : ConstraintId) (f : R) : Prop :=
  ∃ i, (i, f) ∈ List.zip nw.rows residuals ∧ sys.Owns id i

/-- The greatest violation of a constraint, where an undefined one is above every number. -/
def IsWorst (sys : EquationSystem R) (nw : NewtonSystem R) (residuals : List R)
    (id : ConstraintId) (m : R) : Prop :=
  IsGreatest {v | ∃ f, sys.Leaves nw residuals id f ∧ violation f = v} m

/-- What is meant by the constraints to blame. -/
structure Blames (sys : EquationSystem R) (nw : NewtonSystem R) (residuals : List R) (tolerance : R)
    (ids : List ConstraintId) : Prop where
  /-- No constraint is blamed twice. -/
  nodup : ids.Nodup
  /-- A constraint is blamed if one of its equations is undefined or off by more than the
  tolerance. -/
  mem_iff : ∀ id, id ∈ ids ↔
    ∃ f, sys.Leaves nw residuals id f ∧ (Arith.isNaN f = true ∨ tolerance < Arith.abs f)
  /-- A constraint comes before another if its worst equation is worse, or equally bad and its
  number is lower. -/
  ordered : ids.Pairwise fun a b ↦ ∃ m n, sys.IsWorst nw residuals a m ∧
    sys.IsWorst nw residuals b n ∧ (n < m ∨ m = n ∧ index a < index b)

/-- The constraints that are listed are those that something is recorded for. -/
theorem unsatisfiedConstraints_perm :
    (unsatisfiedConstraints sys nw residuals tolerance).Perm
      (sys.worstViolations nw residuals tolerance).keys :=
  (List.mergeSort_perm _ _).map Prod.fst

variable [OrderedMagnitudes R]

/-- What is recorded for a constraint is its worst violation. -/
theorem isWorst_of_find?
    (h : (sys.worstViolations nw residuals tolerance).find? id = some m) :
    tolerance < m ∧ sys.IsWorst nw residuals id m := by
  have hgreatest : IsMaximum _ (some m) :=
    h ▸ sys.records_foldl tolerance (List.zip nw.rows residuals) id
  obtain ⟨⟨⟨i, f⟩, hmem, howns, hoff, hf⟩, hupper⟩ := hgreatest
  refine ⟨hoff, ⟨f, ⟨i, hmem, howns⟩, hf⟩, ?_⟩
  rintro _ ⟨f', ⟨j, hmem', howns'⟩, rfl⟩
  by_cases hoff' : tolerance < violation f'
  · exact hupper ⟨(j, f'), hmem', howns', hoff', rfl⟩
  · -- What is not off is below what is.
    have htolerance := OrderedArith.isNaN_of_le (OrderedArith.le_of_lt hoff)
    have hle := OrderedArith.le_of_not_lt htolerance (isMagnitude_violation f').1 hoff'
    exact OrderedArith.le_trans hle (OrderedArith.le_of_lt hoff)

/-- Something is recorded for the constraints that own an equation that is off. -/
theorem mem_keys_worstViolations_iff :
    id ∈ (sys.worstViolations nw residuals tolerance).keys ↔
      ∃ f, sys.Leaves nw residuals id f ∧ tolerance < violation f := by
  have hrecords : IsMaximum _ ((sys.worstViolations nw residuals tolerance).find? id) :=
    sys.records_foldl tolerance (List.zip nw.rows residuals) id
  rw [← Table.contains_eq_true_iff, Table.contains_iff_exists]
  constructor
  · rintro ⟨m, hm⟩
    obtain ⟨hoff, ⟨f, hf, rfl⟩, _⟩ := isWorst_of_find? hm
    exact ⟨f, hf, hoff⟩
  · rintro ⟨f, ⟨i, hmem, howns⟩, hoff⟩
    cases hfind : (sys.worstViolations nw residuals tolerance).find? id with
    | some m => exact ⟨m, rfl⟩
    | none =>
      rw [hfind] at hrecords
      have hin : violation f ∈ sys.violations tolerance (List.zip nw.rows residuals) id :=
        ⟨(i, f), hmem, howns, hoff, rfl⟩
      exact absurd (Set.eq_empty_iff_forall_notMem.mp hrecords _) (not_not_intro hin)

/-- With a tolerance that is not below the value above every number, nobody is blamed. -/
theorem unsatisfiedConstraints_eq_nil (h : ¬ tolerance < Arith.infinity) :
    unsatisfiedConstraints sys nw residuals tolerance = [] := by
  apply List.eq_nil_iff_forall_not_mem.mpr
  intro id hid
  rw [unsatisfiedConstraints_perm.mem_iff, mem_keys_worstViolations_iff] at hid
  obtain ⟨f, _, hoff⟩ := hid
  exact not_lt_violation h hoff

/-- The list is as it is meant for tolerances below the value above every number, and empty for all
others. -/
theorem blames_unsatisfiedConstraints (sys : EquationSystem R) (nw : NewtonSystem R)
    (residuals : List R) (tolerance : R) :
    (tolerance < Arith.infinity →
      sys.Blames nw residuals tolerance (unsatisfiedConstraints sys nw residuals tolerance)) ∧
    (¬ tolerance < Arith.infinity → unsatisfiedConstraints sys nw residuals tolerance = []) := by
  refine ⟨fun hfinite ↦ ⟨?_, fun id ↦ ?_, ?_⟩, unsatisfiedConstraints_eq_nil⟩
  · exact unsatisfiedConstraints_perm.nodup_iff.mpr (Table.nodup_keys _)
  · rw [unsatisfiedConstraints_perm.mem_iff, mem_keys_worstViolations_iff]
    exact exists_congr fun f ↦ and_congr_right fun _ ↦ lt_violation_iff hfinite
  · have hworst : ∀ e ∈ (sys.worstViolations nw residuals tolerance).toList,
        sys.IsWorst nw residuals e.1 e.2 := fun e he ↦
      (isWorst_of_find? (Table.find?_eq_some_iff.mpr he)).2
    have hmagnitude : ∀ e ∈ (sys.worstViolations nw residuals tolerance).toList,
        IsMagnitude e.2 := by
      intro e he
      obtain ⟨⟨f, _, hf⟩, _⟩ := hworst e he
      exact hf ▸ isMagnitude_violation f
    have hsorted := pairwise_mergeSort_of_isMagnitude hmagnitude
      (sys.worstViolations nw residuals tolerance).sorted
    unfold unsatisfiedConstraints
    rw [List.pairwise_map]
    apply hsorted.imp_of_mem
    intro a b ha hb hab
    rw [List.mem_mergeSort] at ha hb
    exact ⟨a.2, b.2, hworst a ha, hworst b hb, hab⟩

end EquationSystem

private theorem exists_leaves_pointBesideShortLine :
    ∃ start fixed, Prepared .default pointBesideShortLine ⟨2⟩ .empty start fixed ∧
      ∃ f, fixed.Leaves fixed.newton (fixed.finalResiduals .standard .default) ⟨1⟩ f ∧
        Arith.isNaN f = true := by
  have hprepared : (pointBesideShortLine.prepared? .default ⟨2⟩ .empty).any (fun fixed ↦
      (List.zip fixed.newton.rows (fixed.finalResiduals .standard .default)).any fun row ↦
        fixed.equations[row.1]?.map Equation.source == some (.constraint ⟨1⟩) &&
          Arith.isNaN row.2) = true := by
    decide +kernel
  obtain ⟨fixed, hfixed, hrow⟩ := (Option.any_eq_true _ _).mp hprepared
  obtain ⟨start, hp⟩ := Sketch.prepared?_eq_some_iff.mp hfixed
  obtain ⟨⟨i, f⟩, hmem, hrow⟩ := List.any_eq_true.mp hrow
  obtain ⟨howns, hnan⟩ := Bool.and_eq_true_iff.mp hrow
  exact ⟨start, fixed, hp, f, ⟨i, hmem, EquationSystem.owns_iff.mpr (beq_iff_eq.mp howns)⟩, hnan⟩

/-- The undefined distance from the line is blamed on its constraint. -/
theorem blames_unsatisfiedConstraints_pointBesideShortLine :
    (Config.default : Config Float).tolerance < Arith.infinity ∧
      ∃ start fixed ids, Prepared .default pointBesideShortLine ⟨2⟩ .empty start fixed ∧
        unsatisfiedConstraints fixed fixed.newton (fixed.finalResiduals .standard .default)
          (Config.default : Config Float).tolerance = ids ∧
        fixed.Blames fixed.newton (fixed.finalResiduals .standard .default)
          (Config.default : Config Float).tolerance ids ∧ ⟨1⟩ ∈ ids := by
  have htolerance : (Config.default : Config Float).tolerance < Arith.infinity := by
    decide +kernel
  obtain ⟨start, fixed, hp, f, hleaves, hnan⟩ := exists_leaves_pointBesideShortLine
  obtain ⟨hfinite, _⟩ := EquationSystem.blames_unsatisfiedConstraints fixed fixed.newton
    (fixed.finalResiduals .standard .default) (Config.default : Config Float).tolerance
  have hblames := hfinite htolerance
  exact ⟨htolerance, start, fixed, _, hp, rfl, hblames,
    (hblames.mem_iff ⟨1⟩).mpr ⟨f, hleaves, .inl hnan⟩⟩

/-- With every residual in tolerance, the undefined distance is not blamed on its constraint. -/
theorem not_blames_pointBesideShortLine :
    (0.0 : Float) ≤ Arith.infinity ∧
      ∃ start fixed, Prepared .default pointBesideShortLine ⟨2⟩ .empty start fixed ∧
        ¬ fixed.Blames fixed.newton (fixed.finalResiduals .standard .default) Arith.infinity
          (unsatisfiedConstraints fixed fixed.newton (fixed.finalResiduals .standard .default)
            Arith.infinity) := by
  obtain ⟨start, fixed, hp, f, hleaves, hnan⟩ := exists_leaves_pointBesideShortLine
  refine ⟨by decide +kernel, start, fixed, hp, fun hblames ↦ ?_⟩
  have hin := (hblames.mem_iff ⟨1⟩).mpr ⟨f, hleaves, .inl hnan⟩
  rw [EquationSystem.unsatisfiedConstraints_eq_nil (by decide +kernel)] at hin
  exact List.not_mem_nil hin

end SketchSolver
