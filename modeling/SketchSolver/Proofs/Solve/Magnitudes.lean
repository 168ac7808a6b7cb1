import Mathlib.Data.List.DropRight
import SketchSolver.Proofs.Solve.Residual

/-!
# The greatest magnitude and the order of entries

The residual of a report is meant to be the greatest magnitude of the equations at the end, and to
be undefined if one of them is. The entries are taken from left to right, and the greater of an
undefined value and another one is the other one, so an undefined entry is forgotten as soon as a
defined one follows. What is reported is the greatest magnitude behind the last undefined entry. It
is the one that is meant exactly for lists without undefined entries and for lists that end with
one.
-/

namespace SketchSolver

variable {R : Type} [Arith R]

/-! ## The order of magnitudes -/

/-- The values that something can measure: defined magnitudes. -/
def IsMagnitude (m : R) : Prop := Arith.isNaN m = false ∧ ∃ a, Arith.abs a = m

section

variable {a b : R}

/-- A defined value is at most itself. -/
theorem le_self_of_isNaN [OrderedArith R] (ha : Arith.isNaN a = false) : a ≤ a :=
  OrderedArith.le_of_not_lt ha ha fun h ↦
    OrderedArith.not_lt_of_le (OrderedArith.le_of_lt h) h

/-- The greater of two defined values is found by comparing them. -/
theorem larger_eq_ite (ha : Arith.isNaN a = false) (hb : Arith.isNaN b = false) :
    Arith.larger a b = if a < b then b else a := by
  unfold Arith.larger
  rw [ha, hb, if_neg Bool.false_ne_true, if_neg Bool.false_ne_true]

/-- An undefined value is forgotten. -/
theorem larger_of_isNaN (ha : Arith.isNaN a = true) (b : R) : Arith.larger a b = b := if_pos ha

/-- The greater of the greatest member of a set and a further value is the greatest of both. -/
theorem isGreatest_insert_larger [OrderedArith R] {s : Set R} (h : IsGreatest s a)
    (ha : Arith.isNaN a = false) (hb : Arith.isNaN b = false) :
    IsGreatest (insert b s) (Arith.larger a b) := by
  obtain ⟨hale, hble⟩ := le_of_larger_le ha hb (le_self_of_isNaN (isNaN_larger ha hb))
  refine ⟨?_, ?_⟩
  · rw [larger_eq_ite ha hb]
    split
    · exact Set.mem_insert b s
    · exact Set.mem_insert_of_mem b h.1
  · rintro c (rfl | hc)
    · exact hble
    · exact OrderedArith.le_trans (h.2 hc) hale

variable [OrderedMagnitudes R]

/-- The magnitude of a defined value can be measured. -/
theorem isMagnitude_abs (ha : Arith.isNaN a = false) : IsMagnitude (Arith.abs a) :=
  ⟨(OrderedArith.isNaN_abs a).trans ha, a, rfl⟩

/-- Zero can be measured. -/
theorem isMagnitude_zero : IsMagnitude (0.0 : R) :=
  ⟨OrderedArith.isNaN_zero, 0.0, OrderedMagnitudes.abs_zero⟩

namespace IsMagnitude

/-- Magnitudes that bound each other are the same. -/
theorem antisymm (ha : IsMagnitude a) (hb : IsMagnitude b) (hab : a ≤ b) (hba : b ≤ a) :
    a = b := by
  obtain ⟨_, x, rfl⟩ := ha
  obtain ⟨_, y, rfl⟩ := hb
  exact OrderedMagnitudes.abs_antisymm hab hba

/-- The greater of two magnitudes is the one that is not below the other. -/
theorem larger_eq (ha : IsMagnitude a) (hb : IsMagnitude b) (h : a ≤ b) :
    Arith.larger a b = b := by
  rw [larger_eq_ite ha.1 hb.1]
  split
  · rfl
  · next hlt => exact ha.antisymm hb h (OrderedArith.le_of_not_lt ha.1 hb.1 hlt)

end IsMagnitude

end

/-! ## The greatest magnitude of a list -/

/-- The magnitudes of the entries of a list. -/
def magnitudes (v : List R) : Set R := {m | ∃ x ∈ v, Arith.abs x = m}

/-- What is meant by the greatest magnitude of a list. -/
structure IsGreatestMagnitude (v : List R) (m : R) : Prop where
  /-- Without entries it is zero. -/
  empty : v = [] → m = 0.0
  /-- Otherwise it is the magnitude of an entry, and that of no entry is greater. -/
  greatest : v ≠ [] → IsGreatest (magnitudes v) m

/-- One more entry adds its magnitude. -/
theorem magnitudes_concat (v : List R) (x : R) :
    magnitudes (v ++ [x]) = insert (Arith.abs x) (magnitudes v) := by
  ext m
  constructor
  · rintro ⟨y, hy, rfl⟩
    rcases List.mem_append.mp hy with hy | hy
    · exact .inr ⟨y, hy, rfl⟩
    · exact .inl (congrArg Arith.abs (List.mem_singleton.mp hy))
  · rintro (rfl | ⟨y, hy, rfl⟩)
    · exact ⟨x, List.mem_concat_self, rfl⟩
    · exact ⟨y, List.mem_append_left [x] hy, rfl⟩

namespace IsGreatestMagnitude

variable {v w : List R} {m n x : R}

/-- The order of the entries does not matter to what the greatest magnitude is. -/
theorem of_perm (h : v.Perm w) (hm : IsGreatestMagnitude v m) : IsGreatestMagnitude w m := by
  have hset : magnitudes w = magnitudes v :=
    Set.ext fun _ ↦ exists_congr fun _ ↦ and_congr_left fun _ ↦ h.mem_iff.symm
  have hnil : v = [] ↔ w = [] := by
    rw [← List.length_eq_zero_iff, h.length_eq, List.length_eq_zero_iff]
  exact ⟨fun hw ↦ hm.empty (hnil.mpr hw), fun hw ↦ hset ▸ hm.greatest (hnil.not.mpr hw)⟩

/-- A single entry has the greatest magnitude. -/
theorem singleton [OrderedArith R] (hx : Arith.isNaN x = false) :
    IsGreatestMagnitude [x] (Arith.abs x) := by
  refine ⟨fun h ↦ absurd h (List.cons_ne_nil x []), fun _ ↦ ⟨⟨x, List.mem_cons_self, rfl⟩, ?_⟩⟩
  rintro m ⟨y, hy, rfl⟩
  rw [List.mem_singleton.mp hy]
  exact le_self_of_isNaN ((OrderedArith.isNaN_abs x).trans hx)

variable [OrderedMagnitudes R]

/-- A list has one greatest magnitude. -/
theorem unique (hm : IsGreatestMagnitude v m) (hn : IsGreatestMagnitude v n) : m = n := by
  rcases eq_or_ne v [] with hv | hv
  · rw [hm.empty hv, hn.empty hv]
  · obtain ⟨⟨x, hx, rfl⟩, hmle⟩ := hm.greatest hv
    obtain ⟨⟨y, hy, rfl⟩, hnle⟩ := hn.greatest hv
    exact OrderedMagnitudes.abs_antisymm (hnle ⟨x, hx, rfl⟩) (hmle ⟨y, hy, rfl⟩)

/-- With one more entry, the greater of both magnitudes is the greatest. -/
theorem concat (h : IsGreatestMagnitude v m) (hm : Arith.isNaN m = false)
    (hx : Arith.isNaN x = false) :
    IsGreatestMagnitude (v ++ [x]) (Arith.larger m (Arith.abs x)) := by
  rcases eq_or_ne v [] with rfl | hv
  · have hlarger : Arith.larger (0.0 : R) (Arith.abs x) = Arith.abs x :=
      isMagnitude_zero.larger_eq (isMagnitude_abs hx) (OrderedMagnitudes.zero_le_abs hx)
    rw [h.empty rfl, hlarger]
    exact singleton hx
  · refine ⟨fun hnil ↦ absurd hnil (List.append_ne_nil_of_left_ne_nil hv [x]), fun _ ↦ ?_⟩
    rw [magnitudes_concat]
    exact isGreatest_insert_larger (h.greatest hv) hm ((OrderedArith.isNaN_abs x).trans hx)

end IsGreatestMagnitude

/-! ## What is computed -/

/-- The entries of a list behind the last undefined one. -/
def definedEnd (v : List R) : List R := v.rtakeWhile fun x ↦ !Arith.isNaN x

/-- Whether the last entry of a list is undefined. -/
def EndsUndefined (v : List R) : Prop := ∃ x, v.getLast? = some x ∧ Arith.isNaN x = true

section

variable {v : List R} {x : R}

/-- A list ends undefined exactly if its last entry is undefined. -/
theorem endsUndefined_concat : EndsUndefined (v ++ [x]) ↔ Arith.isNaN x = true := by
  unfold EndsUndefined
  rw [List.getLast?_concat]
  exact ⟨fun ⟨_, hy, hx⟩ ↦ Option.some.inj hy ▸ hx, fun hx ↦ ⟨x, rfl, hx⟩⟩

/-- An undefined entry at the end leaves nothing behind the last undefined one, and another one is
behind it. -/
theorem definedEnd_concat :
    definedEnd (v ++ [x]) = if Arith.isNaN x then [] else definedEnd v ++ [x] := by
  unfold definedEnd
  rw [List.rtakeWhile_concat]
  cases Arith.isNaN x <;> rfl

/-- A list that ends undefined has no entry behind the last undefined one. -/
theorem EndsUndefined.definedEnd_eq (h : EndsUndefined v) : definedEnd v = [] := by
  obtain rfl | ⟨v, x, rfl⟩ := List.eq_nil_or_concat' v
  · rfl
  · rw [definedEnd_concat, if_pos (endsUndefined_concat.mp h)]

/-- Without undefined entries all are behind the last one. -/
theorem definedEnd_of_isNaN (h : ∀ x ∈ v, Arith.isNaN x = false) : definedEnd v = v := by
  unfold definedEnd
  rw [List.rtakeWhile_eq_self_iff]
  intro x hx
  rw [h x hx]
  rfl

/-- The largest magnitude is undefined exactly if the last entry is. -/
theorem isNaN_maxAbs_iff [OrderedArith R] :
    Arith.isNaN (maxAbs v) = true ↔ EndsUndefined v := by
  obtain rfl | ⟨v, x, rfl⟩ := List.eq_nil_or_concat' v
  · have hzero : Arith.isNaN (maxAbs ([] : List R)) = false := OrderedArith.isNaN_zero
    rw [hzero]
    exact iff_of_false Bool.false_ne_true fun ⟨_, h, _⟩ ↦ nomatch h
  · rw [endsUndefined_concat, maxAbs_concat]
    cases hx : Arith.isNaN x with
    | true => exact iff_of_true OrderedArith.isNaN_nan rfl
    | false =>
      have habs : Arith.isNaN (Arith.abs x) = false := (OrderedArith.isNaN_abs x).trans hx
      refine iff_of_false ?_ Bool.false_ne_true
      rw [if_neg Bool.false_ne_true, Bool.not_eq_true]
      cases hv : Arith.isNaN (maxAbs v) with
      | true => rwa [larger_of_isNaN hv]
      | false => exact isNaN_larger hv habs

variable [OrderedMagnitudes R]

/-- The largest magnitude is the greatest behind the last undefined entry, unless that is the last
one of all. -/
theorem isGreatestMagnitude_maxAbs (h : ¬ EndsUndefined v) :
    IsGreatestMagnitude (definedEnd v) (maxAbs v) := by
  induction v using List.reverseRecOn with
  | nil => exact ⟨fun _ ↦ rfl, fun hne ↦ absurd rfl hne⟩
  | append_singleton v x ih =>
    have hx : Arith.isNaN x = false := Bool.not_eq_true _ ▸ fun hx ↦ h (endsUndefined_concat.mpr hx)
    rw [definedEnd_concat, maxAbs_concat, hx, if_neg Bool.false_ne_true, if_neg Bool.false_ne_true]
    by_cases hv : EndsUndefined v
    · -- What was found before is forgotten.
      rw [larger_of_isNaN (isNaN_maxAbs_iff.mpr hv), hv.definedEnd_eq]
      exact .singleton hx
    · exact (ih hv).concat (Bool.eq_false_iff.mpr fun hm ↦ hv (isNaN_maxAbs_iff.mp hm)) hx

/-- The largest magnitude of defined entries is the greatest. -/
theorem isGreatestMagnitude_maxAbs_of_isNaN (h : ∀ x ∈ v, Arith.isNaN x = false) :
    IsGreatestMagnitude v (maxAbs v) := by
  have hend : ¬ EndsUndefined v := fun ⟨x, hx, hnan⟩ ↦
    Bool.false_ne_true ((h x (List.mem_of_getLast? hx)).symm.trans hnan)
  have hgreatest := isGreatestMagnitude_maxAbs hend
  rwa [definedEnd_of_isNaN h] at hgreatest

end

/-! ## What the residual tells -/

/-- What is meant by the residual of some equations. -/
structure MeasuresAll (v : List R) (m : R) : Prop where
  /-- It is undefined exactly if an equation is. -/
  undefined_iff : Arith.isNaN m = true ↔ ∃ x ∈ v, Arith.isNaN x = true
  /-- Otherwise it is the greatest magnitude. -/
  greatest : (∀ x ∈ v, Arith.isNaN x = false) → IsGreatestMagnitude v m

/-- What the residual of some equations is. -/
structure MeasuresEnd (v : List R) (m : R) : Prop where
  /-- It is undefined exactly if the last equation is. -/
  undefined_iff : Arith.isNaN m = true ↔ EndsUndefined v
  /-- Otherwise it is the greatest magnitude behind the last undefined equation. -/
  greatest : ¬ EndsUndefined v → IsGreatestMagnitude (definedEnd v) m
  /-- It is as it is meant exactly if no equation or the last one is undefined. -/
  measuresAll_iff : MeasuresAll v m ↔ (∀ x ∈ v, Arith.isNaN x = false) ∨ EndsUndefined v
  /-- It is the same in every order exactly if no equation or every one is undefined. -/
  order_iff : (∀ w, v.Perm w → maxAbs w = m) ↔
    (∀ x ∈ v, Arith.isNaN x = false) ∨ ∀ x ∈ v, Arith.isNaN x = true

section

variable {v w : List R}

omit [Arith R] in
private theorem exists_perm_concat {x : R} (h : x ∈ v) : ∃ w, v.Perm (w ++ [x]) := by
  obtain ⟨before, after, rfl⟩ := List.append_of_mem h
  exact ⟨before ++ after, List.perm_middle.trans (List.perm_append_singleton x _).symm⟩

/-- A list that ends undefined has an undefined entry. -/
theorem EndsUndefined.exists_mem (h : EndsUndefined v) : ∃ x ∈ v, Arith.isNaN x = true := by
  obtain ⟨x, hlast, hx⟩ := h
  exact ⟨x, List.mem_of_getLast? hlast, hx⟩

/-- The largest magnitude of undefined entries is the undefined value. -/
theorem maxAbs_eq_nan (hv : v ≠ []) (h : ∀ x ∈ v, Arith.isNaN x = true) :
    maxAbs v = Arith.nan := by
  rw [← List.dropLast_concat_getLast hv, maxAbs_concat, h _ (List.getLast_mem hv), if_pos rfl]

variable [OrderedMagnitudes R]

/-- Where the largest magnitude is as it is meant. -/
theorem measuresAll_maxAbs_iff :
    MeasuresAll v (maxAbs v) ↔ (∀ x ∈ v, Arith.isNaN x = false) ∨ EndsUndefined v := by
  constructor
  · intro h
    by_cases hv : ∃ x ∈ v, Arith.isNaN x = true
    · exact .inr (isNaN_maxAbs_iff.mp (h.undefined_iff.mpr hv))
    · exact .inl fun x hx ↦ Bool.eq_false_iff.mpr fun hnan ↦ hv ⟨x, hx, hnan⟩
  · rintro (hv | hv)
    · have hnone : ¬ ∃ x ∈ v, Arith.isNaN x = true := fun ⟨x, hx, hnan⟩ ↦
        Bool.false_ne_true ((hv x hx).symm.trans hnan)
      refine ⟨iff_of_false ?_ hnone, fun _ ↦ isGreatestMagnitude_maxAbs_of_isNaN hv⟩
      rw [isNaN_maxAbs hv]
      exact Bool.false_ne_true
    · refine ⟨iff_of_true (isNaN_maxAbs_iff.mpr hv) hv.exists_mem, fun hall ↦ ?_⟩
      obtain ⟨x, hx, hnan⟩ := hv.exists_mem
      exact absurd ((hall x hx).symm.trans hnan) Bool.false_ne_true

/-- Where the largest magnitude does not depend on the order. -/
theorem maxAbs_perm_iff :
    (∀ w, v.Perm w → maxAbs w = maxAbs v) ↔
      (∀ x ∈ v, Arith.isNaN x = false) ∨ ∀ x ∈ v, Arith.isNaN x = true := by
  constructor
  · intro h
    -- An entry of each kind can be put at the end, with different results.
    have hend : ∀ x ∈ v, Arith.isNaN x = Arith.isNaN (maxAbs v) := by
      intro x hx
      obtain ⟨w, hw⟩ := exists_perm_concat hx
      rw [← h _ hw, Bool.eq_iff_iff, isNaN_maxAbs_iff, endsUndefined_concat]
    cases hm : Arith.isNaN (maxAbs v) with
    | false => exact .inl fun x hx ↦ (hend x hx).trans hm
    | true => exact .inr fun x hx ↦ (hend x hx).trans hm
  · rintro (hv | hv) w hw
    · have hdefined : ∀ x ∈ w, Arith.isNaN x = false := fun x hx ↦ hv x (hw.mem_iff.mpr hx)
      exact (isGreatestMagnitude_maxAbs_of_isNaN hdefined).unique
        ((isGreatestMagnitude_maxAbs_of_isNaN hv).of_perm hw)
    · rcases eq_or_ne v [] with rfl | hne
      · rw [hw.symm.eq_nil]
      · have hwne : w ≠ [] := fun hnil ↦ hne (hw.trans (List.Perm.of_eq hnil)).eq_nil
        rw [maxAbs_eq_nan hne hv, maxAbs_eq_nan hwne fun x hx ↦ hv x (hw.mem_iff.mpr hx)]

/-- The largest magnitude of a list measures its end. -/
theorem measuresEnd_maxAbs (v : List R) : MeasuresEnd v (maxAbs v) :=
  ⟨isNaN_maxAbs_iff, isGreatestMagnitude_maxAbs, measuresAll_maxAbs_iff, maxAbs_perm_iff⟩

end

/-! ## What is reported -/

section

variable {la : LinearAlgebra R} {config : Config R} {s t : Sketch R} {g : GroupId}
  {dragged : HandleSet ParamId} {r : SolveReport R} {start fixed : EquationSystem R}

/-- A solve that iterates reports how many steps it took and the largest magnitude of the equations
at the end. -/
theorem report_of_prepared (h : s.solveWith la config g dragged = .ok (r, t))
    (hp : Prepared config s g dragged start fixed) :
    r.iterations = (fixed.newton.iterate la config fixed).iterations ∧
      r.residual = maxAbs (fixed.finalResiduals la config) := by
  have hend := solveEnd_solveWith la config s g dragged
  rw [Operation.outcome_eq_ok_iff.mp h] at hend
  cases hend with
  | oversized ha hsize =>
    cases hp.assembled.symm.trans ha
    exact absurd hsize hp.fits
  | stuck ha halone =>
    cases hp.assembled.symm.trans ha
    cases hp.alone.symm.trans halone
  | diverged hp' =>
    obtain ⟨rfl, rfl⟩ := hp.unique hp'
    exact ⟨rfl, rfl⟩
  | solved hp' =>
    obtain ⟨rfl, rfl⟩ := hp.unique hp'
    exact ⟨rfl, rfl⟩

/-- The largest magnitude of any list measures its end, and so does the residual of every solve that
iterates. -/
theorem measuresEnd_residual [OrderedMagnitudes R] (la : LinearAlgebra R) (config : Config R)
    (s : Sketch R) (g : GroupId) (dragged : HandleSet ParamId) :
    (∀ v : List R, MeasuresEnd v (maxAbs v)) ∧
      ∀ r t start fixed, s.solveWith la config g dragged = .ok (r, t) →
        Prepared config s g dragged start fixed →
          MeasuresEnd (fixed.finalResiduals la config) r.residual := by
  refine ⟨measuresEnd_maxAbs, fun r t start fixed h hp ↦ ?_⟩
  rw [(report_of_prepared h hp).2]
  exact measuresEnd_maxAbs _

end

/-- A point that is to be at a distance from a line whose ends are at one place, and at a distance
from one of the ends. -/
def pointBesideShortLine : Sketch Float :=
  (Sketch.empty .default).runAll .standard
    [.draw ⟨1⟩ (.point3d ⟨0.0, 0.0, 0.0⟩),
      .draw ⟨1⟩ (.point3d ⟨0.0, 0.0, 0.0⟩),
      .draw ⟨1⟩ (.line3d ⟨1⟩ ⟨2⟩),
      .draw ⟨1⟩ (.point3d ⟨1.0, 0.0, 0.0⟩),
      .relate ⟨2⟩ (.distance ⟨4⟩ ⟨3⟩ 1.0 none),
      .relate ⟨2⟩ (.distance ⟨1⟩ ⟨4⟩ 5.0 none)]

/-- The distance from the line is undefined where the iteration ends, and the residual is not. -/
theorem exists_undefined_pointBesideShortLine :
    ∃ r t start fixed,
      pointBesideShortLine.solveWith .standard .default ⟨2⟩ .empty = .ok (r, t) ∧
      Prepared .default pointBesideShortLine ⟨2⟩ .empty start fixed ∧
      (∃ x ∈ fixed.finalResiduals .standard .default, Arith.isNaN x = true) ∧
      Arith.isNaN r.residual = false := by
  have hsolved : (pointBesideShortLine.solveWith .standard .default ⟨2⟩ .empty).toOption.any
      (fun result ↦ !Arith.isNaN result.1.residual) = true := by decide +kernel
  have hprepared : (pointBesideShortLine.prepared? .default ⟨2⟩ .empty).any
      (fun fixed ↦ (fixed.finalResiduals .standard .default).any Arith.isNaN) = true := by
    decide +kernel
  obtain ⟨⟨r, t⟩, hrun, hdefined⟩ := Outcome.exists_of_any_toOption hsolved
  obtain ⟨fixed, hfixed, hundefined⟩ := (Option.any_eq_true _ _).mp hprepared
  obtain ⟨start, hp⟩ := Sketch.prepared?_eq_some_iff.mp hfixed
  exact ⟨r, t, start, fixed, hrun, hp, List.any_eq_true.mp hundefined,
    Bool.not_eq_true' _ ▸ hdefined⟩

/-- The residual that is reported measures the equations behind the undefined one. -/
theorem measuresEnd_residual_pointBesideShortLine :
    ∃ r t start fixed,
      pointBesideShortLine.solveWith .standard .default ⟨2⟩ .empty = .ok (r, t) ∧
      Prepared .default pointBesideShortLine ⟨2⟩ .empty start fixed ∧
      MeasuresEnd (fixed.finalResiduals .standard .default) r.residual := by
  obtain ⟨r, t, start, fixed, hrun, hp, _⟩ := exists_undefined_pointBesideShortLine
  exact ⟨r, t, start, fixed, hrun, hp,
    (measuresEnd_residual .standard .default pointBesideShortLine ⟨2⟩ .empty).2 r t start fixed
      hrun hp⟩

/-- The residual that is reported does not tell of the undefined equation. -/
theorem not_measuresAll_pointBesideShortLine :
    pointBesideShortLine.Reachable .standard ∧
      (Config.default : Config Float).validate = .ok () ∧
      ∃ r t start fixed,
        pointBesideShortLine.solveWith .standard .default ⟨2⟩ .empty = .ok (r, t) ∧
        Prepared .default pointBesideShortLine ⟨2⟩ .empty start fixed ∧
        ¬ MeasuresAll (fixed.finalResiduals .standard .default) r.residual := by
  obtain ⟨r, t, start, fixed, hrun, hp, hundefined, hdefined⟩ :=
    exists_undefined_pointBesideShortLine
  refine ⟨⟨.default, _, rfl⟩, rfl, r, t, start, fixed, hrun, hp, fun hall ↦ ?_⟩
  exact Bool.false_ne_true (hdefined.symm.trans (hall.undefined_iff.mpr hundefined))

end SketchSolver
