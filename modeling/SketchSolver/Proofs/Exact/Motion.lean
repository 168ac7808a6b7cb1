import Mathlib.LinearAlgebra.Matrix.Rank
import SketchSolver.LinearAlgebra.Basic
import SketchSolver.Proofs.Exact.Differential

/-!
# Motions

A motion of some unknowns is a way to change them that changes no equation to first order. The
motions form the kernel of the matrix of partial derivatives, so their dimension is the number of
unknowns less the rank of that matrix. Statements about ranks become statements about motions here,
where unknowns can be renamed and left out.
-/

namespace SketchSolver

open Module

/-- The matrix of the entries, where an entry that is missing counts as zero. -/
def DenseMatrix.toMatrix (a : DenseMatrix ℝ) : Matrix (Fin a.height) (Fin a.cols) ℝ :=
  fun i j ↦ ((a.rows.get i)[(j : ℕ)]?).getD 0

/-- Ranks are exact. -/
def LinearAlgebra.RanksExactly (la : LinearAlgebra ℝ) (tolerance : ℝ) : Prop :=
  ∀ a, la.rank a tolerance = a.toMatrix.rank

/-- Factorisations whose ranks are exact: a matrix has as many singular values as its rank, and all
of them are one. Steps are never taken. -/
noncomputable def LinearAlgebra.exact : LinearAlgebra ℝ where
  cholesky? _ := none
  singularValues a := List.replicate a.toMatrix.rank 1
  pseudoSolve a _ _ := List.replicate a.cols 0

private theorem largest_replicate_one (n : ℕ) : largest (List.replicate (n + 1) (1 : ℝ)) = 1 := by
  have hstep : ∀ x : ℝ, x ≤ 1 → Arith.larger x 1 = 1 := by
    intro x hx
    change (if x < 1 then (1 : ℝ) else x) = 1
    split
    · rfl
    · next hlt => exact le_antisymm hx (not_lt.mp hlt)
  have hfold : ∀ (m : ℕ) (x : ℝ), x ≤ 1 →
      (List.replicate (m + 1) (1 : ℝ)).foldl Arith.larger x = 1 := by
    intro m
    induction m with
    | zero => exact fun x hx ↦ hstep x hx
    | succ m ih =>
      intro x hx
      rw [List.replicate_succ, List.foldl_cons, hstep x hx]
      exact ih 1 le_rfl
  refine hfold n _ ?_
  rw [Arith.real_zero]
  exact zero_le_one

/-- The exact factorisations rank exactly if the tolerance is a proper fraction. -/
theorem LinearAlgebra.ranksExactly_exact {tolerance : ℝ} (h : tolerance < 1) :
    exact.RanksExactly tolerance := by
  intro a
  unfold rank
  split
  · next hempty =>
    refine (Nat.le_zero.mp ?_).symm
    rcases hempty with hrows | hcols
    · exact hrows ▸ a.toMatrix.rank_le_height
    · exact hcols ▸ a.toMatrix.rank_le_width
  · have hfinite : (a.map fun x ↦ if Arith.isFinite x then x else 0.0) = a := by
      change (⟨a.rows.map fun row ↦ row.map fun x ↦ x, a.cols⟩ : DenseMatrix ℝ) = a
      simp
    rw [hfinite]
    change (if largest (List.replicate a.toMatrix.rank (1 : ℝ)) == 0.0 then 0 else
      ((List.replicate a.toMatrix.rank (1 : ℝ)).filter fun s ↦
        decide (tolerance * largest (List.replicate a.toMatrix.rank (1 : ℝ)) < s)).length) = _
    cases a.toMatrix.rank with
    | zero => exact ite_self _
    | succ n =>
      have hone : ¬ ((1 : ℝ) == 0.0) = true := by
        rw [Arith.real_beq, Arith.real_zero]
        exact one_ne_zero
      rw [largest_replicate_one, if_neg hone]
      simp [h]

/-- The partial derivatives of some expressions with respect to some unknowns. -/
noncomputable def partialsAt (v : ParamId → ℝ) (es : List (Expr ℝ)) (unknowns : List ParamId) :
    DenseMatrix ℝ :=
  ⟨es.map fun e ↦ unknowns.map fun p ↦ (e.derivative p).eval v, unknowns.length⟩

/-- The changes of some unknowns along which some expressions do not change to first order. -/
def motions (v : ParamId → ℝ) (es : List (Expr ℝ)) (unknowns : List ParamId) :
    Submodule ℝ (ParamId → ℝ) where
  carrier := {w | (∀ p, p ∉ unknowns → w p = 0) ∧ ∀ e ∈ es, e.differential v w = 0}
  zero_mem' := ⟨fun _ _ ↦ rfl, fun e _ ↦ map_zero _⟩
  add_mem' := by
    rintro w₁ w₂ ⟨hoff₁, hes₁⟩ ⟨hoff₂, hes₂⟩
    refine ⟨fun p hp ↦ ?_, fun e he ↦ ?_⟩
    · rw [Pi.add_apply, hoff₁ p hp, hoff₂ p hp, add_zero]
    · rw [map_add, hes₁ e he, hes₂ e he, add_zero]
  smul_mem' := by
    rintro c w ⟨hoff, hes⟩
    refine ⟨fun p hp ↦ ?_, fun e he ↦ ?_⟩
    · rw [Pi.smul_apply, hoff p hp, smul_zero]
    · rw [map_smul, hes e he, smul_zero]

variable {v : ParamId → ℝ} {es : List (Expr ℝ)} {unknowns : List ParamId} {w : ParamId → ℝ}

/-- A motion changes nothing but the unknowns, and changes no expression. -/
theorem mem_motions :
    w ∈ motions v es unknowns ↔
      (∀ p, p ∉ unknowns → w p = 0) ∧ ∀ e ∈ es, e.differential v w = 0 := Iff.rfl

/-- Motions depend on the values of the parameters that occur. -/
theorem motions_congr {v' : ParamId → ℝ} (h : ∀ e ∈ es, ∀ p ∈ e.params, v p = v' p) :
    motions v es unknowns = motions v' es unknowns := by
  ext w
  rw [mem_motions, mem_motions]
  refine and_congr_right fun _ ↦ forall₂_congr fun e he ↦ ?_
  rw [Expr.differential_congr (h e he) fun _ _ ↦ rfl]

/-! ## Unknowns by number -/

/-- The change of parameters in which each unknown changes by the number at its place. -/
noncomputable def spread (unknowns : List ParamId) :
    (Fin unknowns.length → ℝ) →ₗ[ℝ] (ParamId → ℝ) :=
  Fintype.linearCombination ℝ fun j ↦ Pi.single (unknowns.get j) (1 : ℝ)

private theorem spread_get (h : unknowns.Nodup) (x : Fin unknowns.length → ℝ)
    (j : Fin unknowns.length) : spread unknowns x (unknowns.get j) = x j := by
  rw [spread, Fintype.linearCombination_apply, Finset.sum_apply, Finset.sum_eq_single j]
  · simp
  · intro i _ hij
    have hne : unknowns.get j ≠ unknowns.get i := fun he ↦
      hij (List.nodup_iff_injective_get.mp h he).symm
    rw [Pi.smul_apply, Pi.single_eq_of_ne hne, smul_zero]
  · exact fun hj ↦ absurd (Finset.mem_univ j) hj

private theorem spread_of_notMem (x : Fin unknowns.length → ℝ) {p : ParamId}
    (hp : p ∉ unknowns) : spread unknowns x p = 0 := by
  rw [spread, Fintype.linearCombination_apply, Finset.sum_apply]
  apply Finset.sum_eq_zero
  intro j _
  have hne : p ≠ unknowns.get j := fun he ↦ hp (he ▸ unknowns.get_mem j)
  rw [Pi.smul_apply, Pi.single_eq_of_ne hne, smul_zero]

private theorem spread_injective (h : unknowns.Nodup) : Function.Injective (spread unknowns) := by
  intro x y hxy
  funext j
  rw [← spread_get h x j, ← spread_get h y j, hxy]

private theorem mem_range_spread (h : unknowns.Nodup) (hw : ∀ p, p ∉ unknowns → w p = 0) :
    w ∈ LinearMap.range (spread unknowns) := by
  refine ⟨fun j ↦ w (unknowns.get j), ?_⟩
  funext p
  by_cases hp : p ∈ unknowns
  · obtain ⟨j, rfl⟩ := List.mem_iff_get.mp hp
    exact spread_get h _ j
  · rw [spread_of_notMem _ hp, hw p hp]

private theorem differential_spread (e : Expr ℝ) (x : Fin unknowns.length → ℝ) :
    e.differential v (spread unknowns x) =
      ∑ j, (e.derivative (unknowns.get j)).eval v * x j := by
  rw [spread, Fintype.linearCombination_apply, map_sum]
  apply Finset.sum_congr rfl
  intro j _
  rw [map_smul, Expr.eval_derivative, smul_eq_mul, mul_comm]

private noncomputable def coefficients (v : ParamId → ℝ) (es : List (Expr ℝ))
    (unknowns : List ParamId) : Matrix (Fin es.length) (Fin unknowns.length) ℝ :=
  fun i j ↦ ((es.get i).derivative (unknowns.get j)).eval v

private theorem height_partialsAt : (partialsAt v es unknowns).height = es.length :=
  List.length_map _

private theorem cols_partialsAt : (partialsAt v es unknowns).cols = unknowns.length := rfl

private theorem toMatrix_partialsAt :
    (partialsAt v es unknowns).toMatrix =
      (coefficients v es unknowns).submatrix (finCongr height_partialsAt)
        (finCongr cols_partialsAt) := by
  ext i j
  have hj : (j : ℕ) < unknowns.length := j.isLt
  have hrow : (partialsAt v es unknowns).rows.get i =
      unknowns.map fun p ↦ ((es.get (finCongr height_partialsAt i)).derivative p).eval v :=
    List.getElem_map _
  rw [DenseMatrix.toMatrix, hrow, List.getElem?_map, List.getElem?_eq_getElem hj]
  rfl

private theorem rank_partialsAt :
    (partialsAt v es unknowns).toMatrix.rank = (coefficients v es unknowns).rank := by
  rw [toMatrix_partialsAt, Matrix.rank_submatrix]

private theorem mulVec_coefficients (x : Fin unknowns.length → ℝ) (i : Fin es.length) :
    (coefficients v es unknowns).mulVec x i =
      (es.get i).differential v (spread unknowns x) := by
  rw [differential_spread]
  rfl

private theorem ker_coefficients :
    LinearMap.ker (coefficients v es unknowns).mulVecLin =
      (motions v es unknowns).comap (spread unknowns) := by
  ext x
  rw [LinearMap.mem_ker, Submodule.mem_comap, mem_motions, Matrix.mulVecLin_apply]
  constructor
  · intro hx
    refine ⟨fun p hp ↦ spread_of_notMem x hp, fun e he ↦ ?_⟩
    obtain ⟨i, rfl⟩ := List.mem_iff_get.mp he
    rw [← mulVec_coefficients, hx]
    rfl
  · rintro ⟨_, hes⟩
    funext i
    rw [mulVec_coefficients]
    exact hes _ (es.get_mem i)

private theorem mulVec_partialsAt_eq_zero_iff {x : Fin (partialsAt v es unknowns).cols → ℝ} :
    (partialsAt v es unknowns).toMatrix.mulVec x = 0 ↔
      spread unknowns (x ∘ finCongr cols_partialsAt.symm) ∈ motions v es unknowns := by
  rw [← Submodule.mem_comap, ← ker_coefficients, LinearMap.mem_ker, Matrix.mulVecLin_apply,
    toMatrix_partialsAt, Matrix.submatrix_mulVec_equiv]
  exact (finCongr height_partialsAt).surjective.injective_comp_right.eq_iff' rfl

/-- The kernel of the matrix of partial derivatives has a vector with an entry other than zero for
an unknown exactly if the unknown moves in some motion. -/
theorem exists_mulVec_partialsAt_iff (h : unknowns.Nodup) {p : ParamId} :
    (∃ x, (partialsAt v es unknowns).toMatrix.mulVec x = 0 ∧
        ∃ j : Fin (partialsAt v es unknowns).cols, unknowns[(j : ℕ)]? = some p ∧ x j ≠ 0) ↔
      ∃ w ∈ motions v es unknowns, w p ≠ 0 := by
  constructor
  · rintro ⟨x, hx, j, hj, hne⟩
    refine ⟨_, mulVec_partialsAt_eq_zero_iff.mp hx, ?_⟩
    obtain ⟨hlt, rfl⟩ := List.getElem?_eq_some_iff.mp hj
    have hentry := spread_get h (x ∘ finCongr cols_partialsAt.symm) ⟨j, hlt⟩
    exact hentry ▸ hne
  · rintro ⟨w, hw, hne⟩
    obtain ⟨x, rfl⟩ := mem_range_spread h hw.1
    have hmem : p ∈ unknowns := by
      by_contra hout
      exact hne (spread_of_notMem x hout)
    obtain ⟨j, rfl⟩ := List.mem_iff_get.mp hmem
    rw [spread_get h] at hne
    exact ⟨x, mulVec_partialsAt_eq_zero_iff.mpr hw, j, List.getElem?_eq_getElem j.isLt, hne⟩

/-- The rank of the matrix of partial derivatives and the dimension of the motions add up to the
number of unknowns. -/
theorem rank_partialsAt_add_finrank_motions (h : unknowns.Nodup) :
    (partialsAt v es unknowns).toMatrix.rank + finrank ℝ (motions v es unknowns) =
      unknowns.length := by
  have hrange : motions v es unknowns ≤ LinearMap.range (spread unknowns) := fun w hw ↦
    mem_range_spread h hw.1
  have hmotions : finrank ℝ (LinearMap.ker (coefficients v es unknowns).mulVecLin) =
      finrank ℝ (motions v es unknowns) := by
    rw [ker_coefficients, (Submodule.equivMapOfInjective (spread unknowns) (spread_injective h)
      ((motions v es unknowns).comap (spread unknowns))).finrank_eq,
      Submodule.map_comap_eq_of_le hrange]
  rw [rank_partialsAt, ← hmotions, Matrix.rank, LinearMap.finrank_range_add_finrank_ker]
  exact Module.finrank_fin_fun ℝ

/-- Motions of finitely many unknowns have finite dimension. -/
theorem finiteDimensional_motions (h : unknowns.Nodup) :
    FiniteDimensional ℝ (motions v es unknowns) :=
  Submodule.finiteDimensional_of_le fun _ hw ↦ mem_range_spread h hw.1

end SketchSolver
