import Mathlib.LinearAlgebra.Matrix.DotProduct
import Mathlib.Data.Real.Basic
import SketchSolver.LinearAlgebra.Standard
import SketchSolver.Proofs.Exact.Undefined

/-!
# Steps of least weighted length

A step is to meet the linearised equations and to be as short as possible, where the step of each
unknown counts by its weight. The columns of the matrix are scaled by the weights, the square of
the scaled matrix is factored, and the result is scaled once more. With exact arithmetic this is the
one shortest step: scaled back, it is a combination of the rows of the scaled matrix, to which the
difference from any other solution is at right angles.
-/

namespace SketchSolver

open Matrix

variable {R : Type} [Arith R]

/-! ## Real numbers as scalars -/

/-- Scalars among which the real numbers are, with their exact sums and products. The real numbers
alone have no value above all others to pass for infinity, and without one no factorisation counts
as well-conditioned. -/
structure EmbedsReals (number : ℝ → R) : Prop where
  /-- The literal zero is zero. -/
  zero : (0.0 : R) = number 0
  /-- Sums are exact. -/
  add (x y : ℝ) : number x + number y = number (x + y)
  /-- Products are exact. -/
  mul (x y : ℝ) : number x * number y = number (x * y)
  /-- Every number is within range. -/
  isFinite (x : ℝ) : Arith.isFinite (number x) = true

/-- The real numbers are among those with undefined results. -/
theorem embedsReals_value : EmbedsReals PartialReal.value :=
  ⟨by rw [PartialReal.ofScientific_eq, Arith.real_zero], PartialReal.value_add,
    PartialReal.value_mul, fun _ ↦ rfl⟩

/-- A vector of real numbers as a list of scalars. -/
def ofVector {n : ℕ} (number : ℝ → R) (v : Fin n → ℝ) : List R := List.ofFn fun j ↦ number (v j)

/-- A matrix of real numbers as a matrix of scalars. -/
def DenseMatrix.ofMatrix {m n : ℕ} (number : ℝ → R) (a : Matrix (Fin m) (Fin n) ℝ) :
    DenseMatrix R :=
  ⟨List.ofFn fun i ↦ ofVector number (a i), n⟩

namespace EmbedsReals

variable {number : ℝ → R} {m n : ℕ}

private theorem addProducts_ofVector (h : EmbedsReals number) (s : ℝ) (u v : Fin n → ℝ) :
    addProducts (number s) (ofVector number u) (ofVector number v) = number (s + u ⬝ᵥ v) := by
  induction n generalizing s with
  | zero =>
    rw [dotProduct_of_isEmpty, add_zero]
    rfl
  | succ n ih =>
    have hsum : u ⬝ᵥ v = u 0 * v 0 + (fun j : Fin n ↦ u j.succ) ⬝ᵥ fun j ↦ v j.succ :=
      Fin.sum_univ_succ _
    unfold ofVector
    rw [List.ofFn_succ, List.ofFn_succ, addProducts, h.mul, h.add, hsum, ← add_assoc]
    exact ih _ _ _

/-- Inner products are exact. -/
theorem dotProduct_ofVector (h : EmbedsReals number) (u v : Fin n → ℝ) :
    SketchSolver.dotProduct (ofVector number u) (ofVector number v) = number (u ⬝ᵥ v) := by
  unfold SketchSolver.dotProduct
  rw [h.zero, h.addProducts_ofVector, zero_add]

/-- Products of the entries of two vectors are exact. -/
theorem zipWith_mul_ofVector (h : EmbedsReals number) (u v : Fin n → ℝ) :
    List.zipWith (· * ·) (ofVector number u) (ofVector number v) = ofVector number (u * v) := by
  refine List.ext_getElem (by simp [ofVector]) fun j hj hj' ↦ ?_
  simp [ofVector, h.mul]

/-- Scaling columns is a product with a diagonal matrix. -/
theorem scaleColumns_ofMatrix (h : EmbedsReals number) (a : Matrix (Fin m) (Fin n) ℝ)
    (s : Fin n → ℝ) :
    (DenseMatrix.ofMatrix number a).scaleColumns (ofVector number s) =
      DenseMatrix.ofMatrix number (a * diagonal s) := by
  unfold DenseMatrix.scaleColumns DenseMatrix.ofMatrix
  rw [List.map_ofFn]
  congr 2
  funext i
  rw [Function.comp_apply, h.zipWith_mul_ofVector]
  congr 1
  funext j
  rw [mul_diagonal, Pi.mul_apply]

/-- The products of all pairs of rows are the matrix times its transpose. -/
theorem rowProducts_ofMatrix (h : EmbedsReals number) (a : Matrix (Fin m) (Fin n) ℝ) :
    (DenseMatrix.ofMatrix number a).rowProducts = DenseMatrix.ofMatrix number (a * aᵀ) := by
  unfold DenseMatrix.rowProducts DenseMatrix.ofMatrix DenseMatrix.height
  rw [List.length_ofFn, List.map_ofFn]
  congr 2
  funext i
  rw [Function.comp_apply, List.map_ofFn]
  refine congrArg List.ofFn (funext fun k ↦ ?_)
  rw [Function.comp_apply, h.dotProduct_ofVector]
  rfl

/-- A matrix is applied exactly. -/
theorem apply_ofMatrix (h : EmbedsReals number) (a : Matrix (Fin m) (Fin n) ℝ) (v : Fin n → ℝ) :
    (DenseMatrix.ofMatrix number a).apply (ofVector number v) = ofVector number (a *ᵥ v) := by
  unfold DenseMatrix.apply DenseMatrix.ofMatrix
  rw [List.map_ofFn]
  refine congrArg List.ofFn (funext fun i ↦ ?_)
  rw [Function.comp_apply, h.dotProduct_ofVector]
  rfl

end EmbedsReals

omit [Arith R] in
/-- The columns are the rows of the transposed matrix. -/
theorem DenseMatrix.transpose_ofMatrix {m n : ℕ} (number : ℝ → R) (a : Matrix (Fin m) (Fin n) ℝ) :
    (ofMatrix number a).transpose = ofMatrix number aᵀ := by
  have hcolumn : ∀ j : Fin n,
      (List.ofFn fun i ↦ ofVector number (a i)).filterMap (·[(j : ℕ)]?) =
        ofVector number (aᵀ j) := by
    intro j
    have hentry : (fun row : List R ↦ row[(j : ℕ)]?) ∘ (fun i ↦ ofVector number (a i)) =
        some ∘ fun i ↦ number (a i j) := by
      funext i
      simp [ofVector]
    rw [List.ofFn_eq_map, List.filterMap_map, hentry, List.filterMap_eq_map, ofVector,
      List.ofFn_eq_map]
    rfl
  unfold transpose columns height ofMatrix
  rw [List.length_ofFn]
  congr 1
  refine List.ext_getElem (by simp) fun j hj hj' ↦ ?_
  rw [List.getElem_map, List.getElem_range, List.getElem_ofFn]
  exact hcolumn ⟨j, by simpa using hj⟩

/-! ## The shortest solution -/

/-- Of the solutions of a system of linear equations, one that is a combination of its rows is the
shortest: the squares add up. -/
theorem dotProduct_self_eq_add {m n : ℕ} (b : Matrix (Fin m) (Fin n) ℝ) (z : Fin m → ℝ)
    {y : Fin n → ℝ} (h : b *ᵥ y = b *ᵥ (bᵀ *ᵥ z)) :
    y ⬝ᵥ y = (bᵀ *ᵥ z) ⬝ᵥ (bᵀ *ᵥ z) + (y - bᵀ *ᵥ z) ⬝ᵥ (y - bᵀ *ᵥ z) := by
  have horthogonal : (bᵀ *ᵥ z) ⬝ᵥ (y - bᵀ *ᵥ z) = 0 := by
    rw [mulVec_transpose, ← dotProduct_mulVec, mulVec_sub, ← mulVec_transpose, h, sub_self,
      dotProduct_zero]
  rw [dotProduct_sub, sub_eq_zero] at horthogonal
  rw [sub_dotProduct, dotProduct_sub, dotProduct_sub, dotProduct_comm y (bᵀ *ᵥ z), horthogonal]
  ring

variable {m n : ℕ} {number : ℝ → R}

/-- A vector is a shortest solution of a system of linear equations, where each entry counts by its
weight, and the only one. -/
structure IsShortest (a : Matrix (Fin m) (Fin n) ℝ) (f : Fin m → ℝ) (s x : Fin n → ℝ) : Prop where
  /-- It is a solution. -/
  solves : a *ᵥ x = f
  /-- No solution is shorter. -/
  le (y : Fin n → ℝ) : a *ᵥ y = f → ∑ j, (x j / s j) ^ 2 ≤ ∑ j, (y j / s j) ^ 2
  /-- No other solution is as short. -/
  unique (y : Fin n → ℝ) : a *ᵥ y = f → ∑ j, (y j / s j) ^ 2 = ∑ j, (x j / s j) ^ 2 → y = x

/-- The square of a matrix with scaled columns. -/
theorem mul_diagonal_mul_transpose (a : Matrix (Fin m) (Fin n) ℝ) (s : Fin n → ℝ) :
    (a * diagonal s) * (a * diagonal s)ᵀ = a * diagonal (s ^ 2) * aᵀ := by
  rw [transpose_mul, diagonal_transpose, Matrix.mul_assoc, ← Matrix.mul_assoc (diagonal s),
    diagonal_mul_diagonal, ← Matrix.mul_assoc]
  congr 3
  funext j
  rw [Pi.pow_apply, pow_two]

/-- A combination of the rows of the scaled matrix is scaled to the one shortest solution. -/
theorem isShortest_mul_mulVec (a : Matrix (Fin m) (Fin n) ℝ) {f z : Fin m → ℝ} {s : Fin n → ℝ}
    (hs : ∀ j, 0 < s j) (hz : (a * diagonal (s ^ 2) * aᵀ) *ᵥ z = f) :
    IsShortest a f s (((a * diagonal s)ᵀ *ᵥ z) * s) := by
  let b := a * diagonal s
  have hscaled : ∀ v : Fin n → ℝ, a *ᵥ (v * s) = b *ᵥ v := by
    intro v
    have hdiagonal : v * s = diagonal s *ᵥ v := by
      funext j
      rw [mulVec_diagonal, Pi.mul_apply, mul_comm]
    rw [hdiagonal, mulVec_mulVec]
  have hsolves : b *ᵥ (bᵀ *ᵥ z) = f := by rw [mulVec_mulVec, mul_diagonal_mul_transpose, hz]
  -- Both lengths are those of the vectors before they are scaled.
  have hlength : ∀ v : Fin n → ℝ, ∑ j, (v j / s j) ^ 2 = (v / s) ⬝ᵥ (v / s) := fun v ↦
    Finset.sum_congr rfl fun j _ ↦ pow_two _
  have hunscaled : (bᵀ *ᵥ z) * s / s = bᵀ *ᵥ z := by
    funext j
    exact mul_div_cancel_right₀ _ (hs j).ne'
  have hsum : ∀ y, a *ᵥ y = f → (y / s) ⬝ᵥ (y / s) =
      (bᵀ *ᵥ z) ⬝ᵥ (bᵀ *ᵥ z) + (y / s - bᵀ *ᵥ z) ⬝ᵥ (y / s - bᵀ *ᵥ z) := by
    intro y hy
    apply dotProduct_self_eq_add
    have hrescaled : y / s * s = y := funext fun j ↦ div_mul_cancel₀ _ (hs j).ne'
    rw [hsolves, ← hscaled, hrescaled, hy]
  refine ⟨(hscaled _).trans hsolves, fun y hy ↦ ?_, fun y hy hlen ↦ ?_⟩
  · rw [hlength, hlength, hsum y hy, hunscaled]
    exact le_add_of_nonneg_right (Finset.sum_nonneg fun j _ ↦ mul_self_nonneg _)
  · rw [hlength, hlength, hsum y hy, hunscaled, add_eq_left, dotProduct_self_eq_zero,
      sub_eq_zero] at hlen
    rw [← hlen]
    exact funext fun j ↦ (div_mul_cancel₀ _ (hs j).ne').symm

/-! ## The step -/

/-- With exact arithmetic, a step that is found by factoring the square of the scaled matrix is the
one shortest solution of the linearised equations. -/
theorem exists_isShortest_step {la : LinearAlgebra R} (h : EmbedsReals number)
    {a : Matrix (Fin m) (Fin n) ℝ} {f z : Fin m → ℝ} {s : Fin n → ℝ} (hs : ∀ j, 0 < s j)
    {factor : CholeskyFactor R}
    (hfactored : (la.cholesky? ((DenseMatrix.ofMatrix number a).scaleColumns
      (ofVector number s)).rowProducts).filter CholeskyFactor.wellConditioned = some factor)
    (hsolved : factor.solve (ofVector number f) = ofVector number z)
    (hz : (a * diagonal (s ^ 2) * aᵀ) *ᵥ z = f) :
    ((DenseMatrix.ofMatrix number a).scaleColumns (ofVector number s)).rowProducts =
        DenseMatrix.ofMatrix number (a * diagonal (s ^ 2) * aᵀ) ∧
      ∃ x, la.leastSquaresStep? (.ofMatrix number a) (ofVector number f) (ofVector number s) =
          some (ofVector number x) ∧
        IsShortest a f s x := by
  refine ⟨?_, _, ?_, isShortest_mul_mulVec a hs hz⟩
  · rw [h.scaleColumns_ofMatrix, h.rowProducts_ofMatrix, mul_diagonal_mul_transpose]
  · have hfinite : ∀ x : Fin n → ℝ, (ofVector number x).all Arith.isFinite = true := by
      intro x
      rw [List.all_eq_true]
      intro y hy
      obtain ⟨j, rfl⟩ := List.mem_ofFn.mp hy
      exact h.isFinite _
    have hstep : List.zipWith (· * ·) (((DenseMatrix.ofMatrix number a).scaleColumns
        (ofVector number s)).transpose.apply (factor.solve (ofVector number f)))
        (ofVector number s) = ofVector number (((a * diagonal s)ᵀ *ᵥ z) * s) := by
      rw [hsolved, h.scaleColumns_ofMatrix, DenseMatrix.transpose_ofMatrix, h.apply_ofMatrix,
        h.zipWith_mul_ofVector]
    unfold LinearAlgebra.leastSquaresStep?
    dsimp only
    rw [hfactored]
    dsimp only
    rw [hstep, if_pos (hfinite _)]

/-- The factorisation of a matrix with a single entry, given the root of the entry. -/
noncomputable def singleFactor (pivot : ℝ) : CholeskyFactor PartialReal where
  diagonal := [.value pivot]
  solve b := (Cholesky.backward [⟨[], .value pivot⟩]
    (Cholesky.forward [⟨[], .value pivot⟩] b).reverse).reverse

/-- A positive entry by itself has a well-conditioned factorisation. -/
theorem cholesky?_single {pivot : ℝ} (h : 0 < pivot) :
    (LinearAlgebra.standard.cholesky? (.ofMatrix PartialReal.value !![pivot * pivot])).filter
      CholeskyFactor.wellConditioned = some (singleFactor pivot) := by
  have hsqrt : Arith.sqrt (pivot * pivot) = pivot := Real.sqrt_mul_self h.le
  have hfactor : LinearAlgebra.standard.cholesky? (.ofMatrix PartialReal.value !![pivot * pivot]) =
      some (singleFactor pivot) := by
    simp [LinearAlgebra.standard, Cholesky.cholesky?, Cholesky.factor?, Cholesky.nextRow?,
      Cholesky.forward, Cholesky.lessProducts, DenseMatrix.ofMatrix, ofVector, singleFactor,
      Arith.real_zero, PartialReal.sqrt_value, hsqrt, mul_pos h h]
  have hconditioned : (singleFactor pivot).wellConditioned = true := by
    have hdefined : ∀ x, ¬ Arith.isNaN (PartialReal.value x) = true := fun _ ↦ Bool.false_ne_true
    have hinfinity : Arith.isNaN (Arith.infinity : PartialReal) = true := rfl
    simp [CholeskyFactor.wellConditioned, singleFactor, largest, smallest, Arith.larger,
      Arith.smaller, hdefined, hinfinity, Arith.real_zero, h]
    change (1e-6 : ℝ) < 1
    norm_num
  rw [hfactor, Option.filter_some, if_pos hconditioned]

/-- With a single entry, solving divides by it. -/
theorem solve_singleFactor {pivot : ℝ} (h : 0 < pivot) (z : ℝ) :
    (singleFactor pivot).solve (ofVector PartialReal.value ![pivot * pivot * z]) =
      ofVector PartialReal.value ![z] := by
  have hquotient : pivot * pivot * z / pivot / pivot = z := by
    field_simp
  simp [singleFactor, Cholesky.forward, Cholesky.backward, Cholesky.lessProducts, ofVector,
    PartialReal.value_div h.ne', hquotient]

/-- The product of a weighted row with itself has one entry, the sum of the weighted squares. -/
theorem row_mul_diagonal_mul_transpose (a b s t : ℝ) :
    !![a, b] * diagonal (![s, t] ^ 2) * !![a, b]ᵀ = !![(a * s) ^ 2 + (b * t) ^ 2] := by
  ext i j
  fin_cases i
  fin_cases j
  simp [Matrix.mul_apply, Fin.sum_univ_two, vecMul_diagonal]
  ring

/-- For one equation in two unknowns, the second of which moves a twentieth as far as the first, the
step that is taken is the shortest. -/
theorem exists_isShortest_step_twoUnknowns :
    ∃ x, LinearAlgebra.standard.leastSquaresStep? (.ofMatrix PartialReal.value !![3, 80])
        (ofVector PartialReal.value ![50]) (ofVector PartialReal.value ![1, 1 / 20]) =
          some (ofVector PartialReal.value x) ∧
      IsShortest !![3, 80] ![50] ![1, 1 / 20] x := by
  have hpositive : ∀ j, (0 : ℝ) < ![1, 1 / 20] j := by
    intro j
    fin_cases j <;> norm_num
  have hfive : (3 * 1) ^ 2 + (80 * (1 / 20)) ^ 2 = (5 * 5 : ℝ) := by norm_num
  have hrows : ((DenseMatrix.ofMatrix PartialReal.value !![3, 80]).scaleColumns
      (ofVector PartialReal.value ![1, 1 / 20])).rowProducts =
        .ofMatrix PartialReal.value !![5 * 5] := by
    rw [embedsReals_value.scaleColumns_ofMatrix, embedsReals_value.rowProducts_ofMatrix,
      mul_diagonal_mul_transpose, row_mul_diagonal_mul_transpose, hfive]
  have hpivot : (0 : ℝ) < 5 := by norm_num
  have hfifty : (5 * 5 * 2 : ℝ) = 50 := by norm_num
  refine (exists_isShortest_step embedsReals_value hpositive (hrows ▸ cholesky?_single hpivot)
    (hfifty ▸ solve_singleFactor hpivot 2) ?_).2
  rw [row_mul_diagonal_mul_transpose, hfive]
  funext i
  fin_cases i
  norm_num [mulVec, vecHead]

end SketchSolver
