import SketchSolver.Proofs.Exact.Arith
import SketchSolver.Expr.Fold

/-!
# Folding

`Expr.Contracts` lists the rules by which one operation is simplified. Folding an operation on two
folded expressions applies one of them, or none applies and the operation stays:
`foldBinary_contracts_or` and `foldUnary_contracts_or` say so, and everything else about folding
follows from what a single rule keeps. Values are kept in all scalars in which zero and one behave
as they do in exact arithmetic; nothing else asks for a law.
-/

namespace SketchSolver

/-- The laws of zero and one. A scalar is zero or one if it compares as the same. -/
structure FoldingLaws (R : Type) [Arith R] : Prop where
  /-- Adding zero changes nothing. -/
  add_zero : ∀ x z : R, (z == 0.0) = true → x + z = x
  /-- Adding to zero changes nothing. -/
  zero_add : ∀ x z : R, (z == 0.0) = true → z + x = x
  /-- Multiplying by one changes nothing. -/
  mul_one : ∀ x z : R, (z == 1.0) = true → x * z = x
  /-- Multiplying one changes nothing. -/
  one_mul : ∀ x z : R, (z == 1.0) = true → z * x = x
  /-- Multiplying by zero gives zero. -/
  mul_zero : ∀ x z : R, (z == 0.0) = true → x * z = 0.0
  /-- Multiplying zero gives zero. -/
  zero_mul : ∀ x z : R, (z == 0.0) = true → z * x = 0.0

/-- The laws hold in exact arithmetic. -/
theorem Arith.foldingLaws_real : FoldingLaws ℝ where
  add_zero x z hz := by rw [real_beq.mp hz, real_zero, add_zero]
  zero_add x z hz := by rw [real_beq.mp hz, real_zero, zero_add]
  mul_one x z hz := by rw [real_beq.mp hz, real_one, mul_one]
  one_mul x z hz := by rw [real_beq.mp hz, real_one, one_mul]
  mul_zero x z hz := by rw [real_beq.mp hz, real_zero, mul_zero]
  zero_mul x z hz := by rw [real_beq.mp hz, real_zero, zero_mul]

namespace Expr

variable {R : Type} [Arith R] {e f a b : Expr R} {op : BinaryOp}

/-! ## The rules -/

/-- One operation is simplified: it is one on constants, a sum with a zero or a product with a one
or a zero. -/
inductive Contracts : Expr R → Expr R → Prop
  /-- An operation on two constants is its value. -/
  | constants (op : BinaryOp) (x y : R) :
    Contracts (.binary op (.constant x) (.constant y)) (.constant (op.apply x y))
  /-- An operation on a constant is its value. -/
  | constant (op : UnaryOp) (x : R) : Contracts (.unary op (.constant x)) (.constant (op.apply x))
  /-- A zero that is added is dropped. -/
  | plusZero (a : Expr R) {z : R} (hz : (z == 0.0) = true) :
    Contracts (.binary .plus a (.constant z)) a
  /-- A zero that is added to is dropped. -/
  | zeroPlus (b : Expr R) {z : R} (hz : (z == 0.0) = true) :
    Contracts (.binary .plus (.constant z) b) b
  /-- A factor one on the right is dropped. -/
  | timesOne (a : Expr R) {z : R} (hz : (z == 1.0) = true) :
    Contracts (.binary .times a (.constant z)) a
  /-- A factor one on the left is dropped. -/
  | oneTimes (b : Expr R) {z : R} (hz : (z == 1.0) = true) :
    Contracts (.binary .times (.constant z) b) b
  /-- A product with a zero on the right is zero. -/
  | timesZero (a : Expr R) {z : R} (hz : (z == 0.0) = true) :
    Contracts (.binary .times a (.constant z)) (.constant 0.0)
  /-- A product with a zero on the left is zero. -/
  | zeroTimes (b : Expr R) {z : R} (hz : (z == 0.0) = true) :
    Contracts (.binary .times (.constant z) b) (.constant 0.0)

/-- No operation in the expression can be simplified. -/
def IsFolded : Expr R → Prop
  | param _ => True
  | constant _ => True
  | binary op a b => a.IsFolded ∧ b.IsFolded ∧ ∀ f, ¬ (binary op a b).Contracts f
  | unary op a => a.IsFolded ∧ ∀ f, ¬ (unary op a).Contracts f

/-! ## One step of folding -/

private theorem foldPlus_contracts_or (a b : Expr R) :
    (binary .plus a b).Contracts (foldPlus a b) ∨
      foldPlus a b = binary .plus a b ∧ ∀ f, ¬ (binary .plus a b).Contracts f := by
  unfold foldPlus
  split
  · next x y hx hy =>
    rw [constant?_eq_some_iff.mp hx, constant?_eq_some_iff.mp hy]
    exact .inl (.constants .plus x y)
  · next y ha hy =>
    rw [constant?_eq_some_iff.mp hy]
    split
    · next hzero => exact .inl (.plusZero a hzero)
    · next hzero =>
      refine .inr ⟨rfl, fun f hf ↦ ?_⟩
      cases hf with
      | constants => cases ha
      | plusZero _ hz => exact hzero hz
      | zeroPlus => cases ha
  · next x hx hb =>
    rw [constant?_eq_some_iff.mp hx]
    split
    · next hzero => exact .inl (.zeroPlus b hzero)
    · next hzero =>
      refine .inr ⟨rfl, fun f hf ↦ ?_⟩
      cases hf with
      | constants => cases hb
      | plusZero => cases hb
      | zeroPlus _ hz => exact hzero hz
  · next ha hb =>
    refine .inr ⟨rfl, fun f hf ↦ ?_⟩
    cases hf with
    | constants => cases ha
    | plusZero => cases hb
    | zeroPlus => cases ha

private theorem foldTimes_contracts_or (a b : Expr R) :
    (binary .times a b).Contracts (foldTimes a b) ∨
      foldTimes a b = binary .times a b ∧ ∀ f, ¬ (binary .times a b).Contracts f := by
  unfold foldTimes
  split
  · next x y hx hy =>
    rw [constant?_eq_some_iff.mp hx, constant?_eq_some_iff.mp hy]
    exact .inl (.constants .times x y)
  · next y ha hy =>
    rw [constant?_eq_some_iff.mp hy]
    split
    · next hone => exact .inl (.timesOne a hone)
    · next hone =>
      split
      · next hzero => exact .inl (.timesZero a hzero)
      · next hzero =>
        refine .inr ⟨rfl, fun f hf ↦ ?_⟩
        cases hf with
        | timesOne _ hz => exact hone hz
        | timesZero _ hz => exact hzero hz
        | _ => cases ha
  · next x hx hb =>
    rw [constant?_eq_some_iff.mp hx]
    split
    · next hone => exact .inl (.oneTimes b hone)
    · next hone =>
      split
      · next hzero => exact .inl (.zeroTimes b hzero)
      · next hzero =>
        refine .inr ⟨rfl, fun f hf ↦ ?_⟩
        cases hf with
        | oneTimes _ hz => exact hone hz
        | zeroTimes _ hz => exact hzero hz
        | _ => cases hb
  · next ha hb =>
    refine .inr ⟨rfl, fun f hf ↦ ?_⟩
    cases hf with
    | timesOne => cases hb
    | timesZero => cases hb
    | _ => cases ha

/-- Folding an operation on two expressions applies a rule, or no rule applies and the operation
stays. -/
theorem foldBinary_contracts_or (op : BinaryOp) (a b : Expr R) :
    (binary op a b).Contracts (foldBinary op a b) ∨
      foldBinary op a b = binary op a b ∧ ∀ f, ¬ (binary op a b).Contracts f := by
  unfold foldBinary
  split
  · exact foldPlus_contracts_or a b
  · exact foldTimes_contracts_or a b
  · next hplus htimes =>
    split
    · next x y hx hy =>
      rw [constant?_eq_some_iff.mp hx, constant?_eq_some_iff.mp hy]
      exact .inl (.constants op x y)
    · next hnone =>
      refine .inr ⟨rfl, fun f hf ↦ ?_⟩
      cases hf with
      | constants _ x y => exact hnone x y rfl rfl
      | plusZero => exact hplus rfl
      | zeroPlus => exact hplus rfl
      | _ => exact htimes rfl

/-- Folding an operation on an expression applies a rule, or no rule applies and the operation
stays. -/
theorem foldUnary_contracts_or (op : UnaryOp) (a : Expr R) :
    (unary op a).Contracts (foldUnary op a) ∨
      foldUnary op a = unary op a ∧ ∀ f, ¬ (unary op a).Contracts f := by
  unfold foldUnary
  split
  · next x hx =>
    rw [constant?_eq_some_iff.mp hx]
    exact .inl (.constant op x)
  · next hnone =>
    refine .inr ⟨rfl, fun f hf ↦ ?_⟩
    cases hf
    cases hnone

/-! ## What a rule keeps -/

/-- A rule keeps the value in exact arithmetic. -/
theorem Contracts.eval_eq (h : e.Contracts f) (laws : FoldingLaws R) (v : ParamId → R) :
    f.eval v = e.eval v := by
  cases h with
  | constants op x y => rfl
  | constant op x => rfl
  | plusZero a hz => exact (laws.add_zero _ _ hz).symm
  | zeroPlus b hz => exact (laws.zero_add _ _ hz).symm
  | timesOne a hz => exact (laws.mul_one _ _ hz).symm
  | oneTimes b hz => exact (laws.one_mul _ _ hz).symm
  | timesZero a hz => exact (laws.mul_zero _ _ hz).symm
  | zeroTimes b hz => exact (laws.zero_mul _ _ hz).symm

/-- A rule leaves fewer nodes. -/
theorem Contracts.nodes_lt (h : e.Contracts f) : f.nodes < e.nodes := by
  cases h <;> simp only [nodes] <;> omega

/-- What a rule leaves of an operation on folded expressions is folded. -/
theorem Contracts.isFolded (h : (binary op a b).Contracts f) (ha : a.IsFolded)
    (hb : b.IsFolded) : f.IsFolded := by
  cases h with
  | constants => trivial
  | plusZero => exact ha
  | zeroPlus => exact hb
  | timesOne => exact ha
  | oneTimes => exact hb
  | timesZero => trivial
  | zeroTimes => trivial

/-- What a rule leaves of an operation on one expression is folded. -/
theorem Contracts.isFolded_of_unary {op : UnaryOp} (h : (unary op a).Contracts f) : f.IsFolded := by
  cases h
  trivial

private theorem eval_foldBinary (laws : FoldingLaws R) (v : ParamId → R) (op : BinaryOp)
    (a b : Expr R) : (foldBinary op a b).eval v = (binary op a b).eval v := by
  rcases foldBinary_contracts_or op a b with h | ⟨h, _⟩
  · exact h.eval_eq laws v
  · rw [h]

private theorem eval_foldUnary (laws : FoldingLaws R) (v : ParamId → R) (op : UnaryOp)
    (a : Expr R) : (foldUnary op a).eval v = (unary op a).eval v := by
  rcases foldUnary_contracts_or op a with h | ⟨h, _⟩
  · exact h.eval_eq laws v
  · rw [h]

private theorem nodes_foldBinary_le (op : BinaryOp) (a b : Expr R) :
    (foldBinary op a b).nodes ≤ 1 + a.nodes + b.nodes := by
  rcases foldBinary_contracts_or op a b with h | ⟨h, _⟩
  · exact Nat.le_of_lt h.nodes_lt
  · exact Nat.le_of_eq (congrArg nodes h)

private theorem nodes_foldUnary_le (op : UnaryOp) (a : Expr R) :
    (foldUnary op a).nodes ≤ 1 + a.nodes := by
  rcases foldUnary_contracts_or op a with h | ⟨h, _⟩
  · exact Nat.le_of_lt h.nodes_lt
  · exact Nat.le_of_eq (congrArg nodes h)

private theorem isFolded_foldBinary (op : BinaryOp) (ha : a.IsFolded) (hb : b.IsFolded) :
    (foldBinary op a b).IsFolded := by
  rcases foldBinary_contracts_or op a b with h | ⟨h, hnone⟩
  · exact h.isFolded ha hb
  · rw [h]
    exact ⟨ha, hb, hnone⟩

private theorem isFolded_foldUnary (op : UnaryOp) (ha : a.IsFolded) :
    (foldUnary op a).IsFolded := by
  rcases foldUnary_contracts_or op a with h | ⟨h, hnone⟩
  · exact h.isFolded_of_unary
  · rw [h]
    exact ⟨ha, hnone⟩

/-! ## Folding a whole expression -/

/-- Folding keeps the value wherever the laws of zero and one hold. -/
theorem eval_fold_of_laws (laws : FoldingLaws R) (v : ParamId → R) (e : Expr R) :
    e.fold.eval v = e.eval v := by
  induction e with
  | param p => rfl
  | constant x => rfl
  | binary op a b iha ihb => rw [fold, eval_foldBinary laws, eval, eval, iha, ihb]
  | unary op a ih => rw [fold, eval_foldUnary laws, eval, eval, ih]

/-- Folding adds no node. -/
theorem nodes_fold_le (e : Expr R) : e.fold.nodes ≤ e.nodes := by
  induction e with
  | param p => exact Nat.le_refl _
  | constant x => exact Nat.le_refl _
  | binary op a b iha ihb =>
    have hstep : (binary op a b).fold.nodes ≤ 1 + a.fold.nodes + b.fold.nodes :=
      nodes_foldBinary_le op a.fold b.fold
    rw [nodes]
    omega
  | unary op a ih =>
    have hstep : (unary op a).fold.nodes ≤ 1 + a.fold.nodes := nodes_foldUnary_le op a.fold
    rw [nodes]
    omega

/-- Folding leaves no operation that can be simplified. -/
theorem isFolded_fold (e : Expr R) : e.fold.IsFolded := by
  induction e with
  | param p => trivial
  | constant x => trivial
  | binary op a b iha ihb => exact isFolded_foldBinary op iha ihb
  | unary op a ih => exact isFolded_foldUnary op ih

/-- Folding changes nothing where no operation can be simplified. -/
theorem fold_eq_self (h : e.IsFolded) : e.fold = e := by
  induction e with
  | param p => rfl
  | constant x => rfl
  | binary op a b iha ihb =>
    obtain ⟨ha, hb, hnone⟩ := h
    rw [fold, iha ha, ihb hb]
    exact ((foldBinary_contracts_or op a b).resolve_left (hnone _)).1
  | unary op a ih =>
    obtain ⟨ha, hnone⟩ := h
    rw [fold, ih ha]
    exact ((foldUnary_contracts_or op a).resolve_left (hnone _)).1

/-- An expression without parameters folds to a constant. -/
theorem exists_fold_eq_constant (h : e.params = []) : ∃ x, e.fold = constant x := by
  induction e with
  | param p => cases h
  | constant x => exact ⟨x, rfl⟩
  | binary op a b iha ihb =>
    obtain ⟨ha, hb⟩ := List.append_eq_nil_iff.mp h
    obtain ⟨x, hx⟩ := iha ha
    obtain ⟨y, hy⟩ := ihb hb
    rw [fold, hx, hy]
    cases op <;> exact ⟨_, rfl⟩
  | unary op a ih =>
    obtain ⟨x, hx⟩ := ih h
    rw [fold, hx]
    exact ⟨_, rfl⟩

/-- Folding keeps the value where the laws of zero and one hold, and it reaches a normal form:
folding again changes nothing, no node and no parameter is added, an expression without parameters
becomes a constant, and no operation is left that can be simplified. -/
theorem fold_reaches_normal_form (e : Expr R) :
    (FoldingLaws R → ∀ v, e.fold.eval v = e.eval v) ∧ e.fold.fold = e.fold ∧
      e.fold.nodes ≤ e.nodes ∧ (∀ p ∈ e.fold.params, p ∈ e.params) ∧
      (e.params = [] → ∃ x, e.fold = constant x) ∧ e.fold.IsFolded :=
  ⟨fun laws v ↦ e.eval_fold_of_laws laws v, fold_eq_self e.isFolded_fold, e.nodes_fold_le,
    fun _ ↦ mem_params_of_mem_fold, exists_fold_eq_constant, e.isFolded_fold⟩

/-- A parameter under a factor and beside a product that vanish only once their constants are
folded. -/
noncomputable def hiddenParameter : Expr ℝ :=
  param ⟨1⟩ * (constant 2.0 - constant 1.0) + (constant 1.0 - constant 1.0) * (param ⟨2⟩).sqrt

private theorem fold_hiddenParameter : hiddenParameter.fold = param ⟨1⟩ := by
  have hone : ((2.0 - 1.0 : ℝ) == 1.0) = true := by
    rw [Arith.real_beq]
    norm_num
  have hzero : ((1.0 - 1.0 : ℝ) == 0.0) = true := by
    rw [Arith.real_beq]
    norm_num
  have hnotOne : ¬ ((1.0 - 1.0 : ℝ) == 1.0) = true := by
    rw [Arith.real_beq]
    norm_num
  have hleft : foldTimes (param ⟨1⟩) (constant (2.0 - 1.0 : ℝ)) = param ⟨1⟩ := if_pos hone
  have hright : foldTimes (constant (1.0 - 1.0 : ℝ)) (param ⟨2⟩).sqrt = constant 0.0 :=
    (if_neg hnotOne).trans (if_pos hzero)
  change foldPlus (foldTimes (param ⟨1⟩) (constant (2.0 - 1.0 : ℝ)))
    (foldTimes (constant (1.0 - 1.0 : ℝ)) (param ⟨2⟩).sqrt) = param ⟨1⟩
  rw [hleft, hright]
  exact if_pos (Arith.real_beq.mpr rfl)

/-- The parameter is all that folding leaves, with the same value, and what has no parameter becomes
a constant. -/
theorem fold_reaches_normal_form_hiddenParameter :
    FoldingLaws ℝ ∧ hiddenParameter.fold = param ⟨1⟩ ∧
      (∀ v, hiddenParameter.fold.eval v = hiddenParameter.eval v) ∧
      (constant 2.0 : Expr ℝ).sqrt.sin.params = [] ∧
      ∃ x, (constant 2.0 : Expr ℝ).sqrt.sin.fold = constant x := by
  obtain ⟨hvalue, _⟩ := fold_reaches_normal_form hiddenParameter
  obtain ⟨_, _, _, _, hconstant, _⟩ := fold_reaches_normal_form (constant 2.0 : Expr ℝ).sqrt.sin
  exact ⟨Arith.foldingLaws_real, fold_hiddenParameter, hvalue Arith.foldingLaws_real, rfl,
    hconstant rfl⟩

end Expr

end SketchSolver
