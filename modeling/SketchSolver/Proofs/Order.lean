import Mathlib
import SketchSolver.Solve.Iteration

/-!
# The order of scalars

Whether a report is right and whether a value is usable are questions of comparison, and they are
decided alike over all scalars whose order is total apart from undefined values. `OrderedArith`
lists what is asked of them. Double precision numbers are such scalars: apart from the undefined
value they are compared by kind, exponent and mantissa, in this order.
-/

namespace SketchSolver

/-- Scalars in which any two defined values can be compared and undefined values with none. -/
class OrderedArith (R : Type) [Arith R] : Prop where
  /-- Bounds can be chained. -/
  le_trans {a b c : R} : a ≤ b → b ≤ c → a ≤ c
  /-- What is below is at most. -/
  le_of_lt {a b : R} : a < b → a ≤ b
  /-- What is at most is not above. -/
  not_lt_of_le {a b : R} : a ≤ b → ¬ b < a
  /-- Of two defined values, one is at most the other. -/
  le_of_not_lt {a b : R} : Arith.isNaN a = false → Arith.isNaN b = false → ¬ a < b → b ≤ a
  /-- What is at most something is defined. -/
  isNaN_of_le {a b : R} : a ≤ b → Arith.isNaN a = false
  /-- A magnitude is defined exactly where the value is. -/
  isNaN_abs (a : R) : Arith.isNaN (Arith.abs a) = Arith.isNaN a
  /-- The value that stands for an undefined result is undefined. -/
  isNaN_nan : Arith.isNaN (Arith.nan : R) = true
  /-- Zero is defined. -/
  isNaN_zero : Arith.isNaN (0.0 : R) = false
  /-- The limit of usable values is defined. -/
  isNaN_valueLimit : Arith.isNaN (valueLimit : R) = false

/-- Ordered scalars whose magnitudes are told apart by their order, and of which zero is the least
and the value above every number the greatest. -/
class OrderedMagnitudes (R : Type) [Arith R] : Prop extends OrderedArith R where
  /-- Zero is a magnitude. -/
  abs_zero : Arith.abs (0.0 : R) = 0.0
  /-- The value above every number is a magnitude. -/
  abs_infinity : Arith.abs (Arith.infinity : R) = Arith.infinity
  /-- The value above every number is defined. -/
  isNaN_infinity : Arith.isNaN (Arith.infinity : R) = false
  /-- No magnitude is below zero. -/
  zero_le_abs {a : R} : Arith.isNaN a = false → 0.0 ≤ Arith.abs a
  /-- No magnitude is above the value that is above every number. -/
  abs_le_infinity {a : R} : Arith.isNaN a = false → Arith.abs a ≤ Arith.infinity
  /-- Magnitudes that bound each other are the same. -/
  abs_antisymm {a b : R} : Arith.abs a ≤ Arith.abs b → Arith.abs b ≤ Arith.abs a →
    Arith.abs a = Arith.abs b

/-! ## Double precision -/

namespace DoubleOrder

open Float.Model (Format UnpackedFloat)

/-- What defined numbers are compared by: their kind, then exponent and mantissa if they are finite
and not zero. -/
def key : UnpackedFloat → Int ×ₗ Int ×ₗ Int
  | .infinity .negative => toLex (-2, toLex (0, 0))
  | .finite .negative m e _ => toLex (-1, toLex (-e, -m))
  | .zero _ => toLex (0, toLex (0, 0))
  | .finite .positive m e _ => toLex (1, toLex (e, m))
  | .infinity .positive => toLex (2, toLex (0, 0))
  | .notANumber => toLex (0, toLex (0, 0))

variable {a b : UnpackedFloat}

private theorem compare_eq_lt_iff :
    a.compare b = some .lt ↔ a.isNaN = false ∧ b.isNaN = false ∧ key a < key b := by
  rcases a with (_ | _) | _ | _ | ⟨_ | _, m, e, _⟩ <;>
    rcases b with (_ | _) | _ | _ | ⟨_ | _, n, f, _⟩ <;>
    simp [UnpackedFloat.compare, UnpackedFloat.isNaN, key, Prod.Lex.toLex_lt_toLex,
      Ordering.then_eq_lt, Ordering.then_eq_gt, Int.compare_eq_lt, Int.compare_eq_gt,
      Nat.compare_eq_lt, Nat.compare_eq_gt]
  -- What is left is the order of the two infinities.
  rfl

private theorem compare_eq_eq_iff :
    a.compare b = some .eq ↔ a.isNaN = false ∧ b.isNaN = false ∧ key a = key b := by
  rcases a with (_ | _) | _ | _ | ⟨_ | _, m, e, _⟩ <;>
    rcases b with (_ | _) | _ | _ | ⟨_ | _, n, f, _⟩ <;>
    simp [UnpackedFloat.compare, UnpackedFloat.isNaN, key]
  -- What is left is infinities of one sign.
  · rfl
  · rfl

private theorem lt_iff_key :
    a.lt b = true ↔ a.isNaN = false ∧ b.isNaN = false ∧ key a < key b := by
  rw [UnpackedFloat.lt, beq_iff_eq, compare_eq_lt_iff]

private theorem le_iff_key :
    a.le b = true ↔ a.isNaN = false ∧ b.isNaN = false ∧ key a ≤ key b := by
  have hle : a.le b = true ↔ a.compare b = some .lt ∨ a.compare b = some .eq := by
    rw [UnpackedFloat.le]
    rcases a.compare b with _ | (_ | _ | _) <;> simp
  rw [hle, compare_eq_lt_iff, compare_eq_eq_iff, le_iff_lt_or_eq]
  tauto

private theorem isNaN_unpack {spec : Format} {x : BitVec spec.numBits} :
    (UnpackedFloat.unpack spec x).isNaN = true ↔
      UnpackedFloat.unpackExponent x = -1#_ ∧ UnpackedFloat.unpackMantissa x ≠ 0#_ := by
  unfold UnpackedFloat.unpack
  dsimp only
  split
  · next he =>
    split
    · next hm => simp [UnpackedFloat.isNaN, he, hm]
    · next hm => simp [UnpackedFloat.isNaN, he, hm]
  · next he =>
    split
    · split <;> simp [UnpackedFloat.isNaN, he]
    · simp [UnpackedFloat.isNaN, he]

private theorem isNaN_unpack_pack (u : UnpackedFloat) :
    (UnpackedFloat.unpack .binary64 (UnpackedFloat.pack .binary64 u)).isNaN = u.isNaN := by
  rw [Bool.eq_iff_iff, isNaN_unpack]
  fun_cases UnpackedFloat.pack Format.binary64 u with
  | case1 => decide
  | case2 => simp [UnpackedFloat.packedInfinity, UnpackedFloat.isNaN]
  | case3 => simp [UnpackedFloat.packedZero, UnpackedFloat.isNaN]
  | case4 => simp [UnpackedFloat.packedInfinity, UnpackedFloat.isNaN]
  | case5 s m e _ _ biased hbiased _ =>
    -- The exponent of a number that does not overflow is not the one of undefined values.
    have hexponent : biased % 2048 ≠ 2047 := by
      have hlow : biased + 1 < 2048 := Nat.not_le.mp hbiased
      omega
    simp [UnpackedFloat.isNaN, BitVec.neg_one_eq_allOnes, ← BitVec.toNat_inj, hexponent]
  | case6 => simp [UnpackedFloat.isNaN]

private theorem le_iff {x y : Float} : x ≤ y ↔ x.isNaN = false ∧ y.isNaN = false ∧
    key x.toModel.unpack ≤ key y.toModel.unpack :=
  decide_eq_true_iff.trans le_iff_key

private theorem lt_iff {x y : Float} : x < y ↔ x.isNaN = false ∧ y.isNaN = false ∧
    key x.toModel.unpack < key y.toModel.unpack :=
  decide_eq_true_iff.trans lt_iff_key

private theorem isNaN_abs (x : Float) : x.abs.isNaN = x.isNaN := by
  have habs : x.abs.isNaN = x.toModel.unpack.abs.isNaN := isNaN_unpack_pack _
  rw [habs]
  change _ = x.toModel.unpack.isNaN
  cases x.toModel.unpack <;> rfl

/-- Double precision numbers are ordered apart from the undefined value. -/
instance : OrderedArith Float where
  le_trans hab hbc := by
    obtain ⟨ha, _, hkab⟩ := le_iff.mp hab
    obtain ⟨_, hc, hkbc⟩ := le_iff.mp hbc
    exact le_iff.mpr ⟨ha, hc, hkab.trans hkbc⟩
  le_of_lt hab := by
    obtain ⟨ha, hb, hkab⟩ := lt_iff.mp hab
    exact le_iff.mpr ⟨ha, hb, hkab.le⟩
  not_lt_of_le hab hba := (le_iff.mp hab).2.2.not_gt (lt_iff.mp hba).2.2
  le_of_not_lt ha hb hab :=
    le_iff.mpr ⟨hb, ha, not_lt.mp fun hkab ↦ hab (lt_iff.mpr ⟨ha, hb, hkab⟩)⟩
  isNaN_of_le hab := (le_iff.mp hab).1
  isNaN_abs := isNaN_abs
  isNaN_nan := by decide
  isNaN_zero := by decide
  isNaN_valueLimit := by decide

section Magnitudes

open Float.Model.UnpackedFloat
  (unpack pack packComponents unpackSign unpackExponent unpackMantissa Sign)

private theorem eq_of_fields {x y : BitVec Format.binary64.numBits}
    (hs : unpackSign x = unpackSign y) (he : unpackExponent x = unpackExponent y)
    (hm : unpackMantissa x = unpackMantissa y) : x = y := by
  have hx : x.toNat < 2 ^ 64 := x.isLt
  have hy : y.toNat < 2 ^ 64 := y.isLt
  rw [← BitVec.toNat_inj] at hs he hm ⊢
  simp [unpackSign, unpackExponent, unpackMantissa, Nat.shiftRight_eq_div_pow] at hs he hm
  omega

private theorem unpackSign_pack_abs (u : UnpackedFloat) :
    unpackSign (pack .binary64 u.abs) = 0#1 := by
  have hpositive : ∀ (e : BitVec 11) (m : BitVec 52),
      unpackSign (packComponents .binary64 .positive e m) = 0#1 := by
    intro e m
    simp only [unpackSign, packComponents, BitVec.extractLsb]
    rw [BitVec.extractLsb'_append_eq_of_le (by omega),
      BitVec.extractLsb'_append_eq_of_le (by omega)]
    rfl
  cases u with
  | notANumber => exact hpositive _ _
  | infinity s => exact hpositive _ _
  | zero s => exact hpositive _ _
  | finite s m e h =>
    unfold UnpackedFloat.abs pack
    dsimp only
    split
    · exact hpositive _ _
    · split <;> exact hpositive _ _

private theorem key_unpack {x : BitVec Format.binary64.numBits} (hs : unpackSign x = 0#1)
    (hx : (unpack .binary64 x).isNaN = false) :
    key (unpack .binary64 x) =
      if unpackExponent x = -1#_ then toLex ((2 : Int), toLex ((0 : Int), (0 : Int)))
      else if unpackExponent x = 0#_ then
        if unpackMantissa x = 0#_ then toLex (0, toLex (0, 0))
        else toLex (1, toLex (-1074, ((unpackMantissa x).toNat : Int)))
      else toLex (1, toLex (((unpackExponent x).toNat : Int) - 1075,
        2 ^ 52 + ((unpackMantissa x).toNat : Int))) := by
  have hbias : (Format.binary64.exponentBias : Int) = 1023 := rfl
  have happend : (1#1 ++ unpackMantissa x).toNat = 2 ^ 52 + (unpackMantissa x).toNat := by
    rw [BitVec.toNat_append, ← Nat.shiftLeft_add_eq_or_of_lt (unpackMantissa x).isLt]
    rfl
  unfold unpack at hx ⊢
  simp only [hs] at hx ⊢
  split
  · next he =>
    split
    · rfl
    · next hm => simp [he, hm, UnpackedFloat.isNaN] at hx
  · split
    · next he =>
      split
      · rfl
      · simp [key, Sign.ofBitVec, he, hbias]
    · simp [key, Sign.ofBitVec, hbias, happend]

private theorem eq_of_key_eq {x y : BitVec Format.binary64.numBits}
    (hsx : unpackSign x = 0#1) (hsy : unpackSign y = 0#1)
    (hx : (unpack .binary64 x).isNaN = false) (hy : (unpack .binary64 y).isNaN = false)
    (h : key (unpack .binary64 x) = key (unpack .binary64 y)) : x = y := by
  have hinfinite : ∀ z : BitVec Format.binary64.numBits, (unpack .binary64 z).isNaN = false →
      unpackExponent z = -1#_ → unpackMantissa z = 0#_ := by
    intro z hz he
    by_contra hm
    rw [isNaN_unpack.mpr ⟨he, hm⟩] at hz
    cases hz
  have hmx := (unpackMantissa x).isLt
  have hmy := (unpackMantissa y).isLt
  have hboth : unpackExponent x = unpackExponent y ∧ unpackMantissa x = unpackMantissa y := by
    rw [key_unpack hsx hx, key_unpack hsy hy] at h
    have hix := hinfinite x hx
    have hiy := hinfinite y hy
    clear hx hy hsx hsy hinfinite
    -- Infinite, zero, subnormal or normal: keys of two different kinds differ.
    split_ifs at h <;> simp_all [← BitVec.toNat_inj] <;> omega
  exact eq_of_fields (hsx.trans hsy.symm) hboth.1 hboth.2

private theorem key_bounds {x : BitVec Format.binary64.numBits} (hs : unpackSign x = 0#1)
    (hx : (unpack .binary64 x).isNaN = false) :
    key (.zero .positive) ≤ key (unpack .binary64 x) ∧
      key (unpack .binary64 x) ≤ key (.infinity .positive) := by
  rw [key_unpack hs hx]
  split_ifs <;> simp [key, Prod.Lex.toLex_le_toLex]

/-- The magnitudes of double precision numbers are ordered, with a least and a greatest one. -/
instance : OrderedMagnitudes Float where
  abs_zero := by decide
  abs_infinity := by decide
  isNaN_infinity := by decide
  zero_le_abs ha := by
    have habs := (isNaN_abs _).trans ha
    exact le_iff.mpr ⟨by decide, habs, (key_bounds (unpackSign_pack_abs _) habs).1⟩
  abs_le_infinity ha := by
    have habs := (isNaN_abs _).trans ha
    exact le_iff.mpr ⟨habs, by decide, (key_bounds (unpackSign_pack_abs _) habs).2⟩
  abs_antisymm {a b} hab hba := by
    obtain ⟨ha, hb, hkab⟩ := le_iff.mp hab
    obtain ⟨_, _, hkba⟩ := le_iff.mp hba
    have hbits : pack .binary64 a.toModel.unpack.abs = pack .binary64 b.toModel.unpack.abs :=
      eq_of_key_eq (unpackSign_pack_abs _) (unpackSign_pack_abs _) ha hb (hkab.antisymm hkba)
    have hmodel :
        Float.Model.pack a.toModel.unpack.abs = Float.Model.pack b.toModel.unpack.abs := by
      simp only [Float.Model.pack, hbits]
    exact congrArg Float.ofModel hmodel

end Magnitudes

end DoubleOrder

/-! ## Magnitudes -/

variable {R : Type} [Arith R] [OrderedArith R]

/-- A value with a bounded magnitude is defined. -/
theorem isNaN_of_abs_le {x bound : R} (h : Arith.abs x ≤ bound) : Arith.isNaN x = false :=
  OrderedArith.isNaN_abs x ▸ OrderedArith.isNaN_of_le h

omit [OrderedArith R] in
/-- The greater of two values is bounded if both are. -/
theorem larger_le {a b bound : R} (ha : a ≤ bound) (hb : b ≤ bound) :
    Arith.larger a b ≤ bound := by
  unfold Arith.larger
  split
  · exact hb
  · split
    · exact ha
    · split
      · exact hb
      · exact ha

/-- The greater of two defined values bounds both. -/
theorem le_of_larger_le {a b bound : R} (ha : Arith.isNaN a = false) (hb : Arith.isNaN b = false)
    (h : Arith.larger a b ≤ bound) : a ≤ bound ∧ b ≤ bound := by
  unfold Arith.larger at h
  rw [ha, hb, if_neg Bool.false_ne_true, if_neg Bool.false_ne_true] at h
  split at h
  · next hlt => exact ⟨OrderedArith.le_trans (OrderedArith.le_of_lt hlt) h, h⟩
  · next hlt => exact ⟨h, OrderedArith.le_trans (OrderedArith.le_of_not_lt ha hb hlt) h⟩

omit [OrderedArith R] in
/-- The greater of two defined values is defined. -/
theorem isNaN_larger {a b : R} (ha : Arith.isNaN a = false) (hb : Arith.isNaN b = false) :
    Arith.isNaN (Arith.larger a b) = false := by
  unfold Arith.larger
  rw [ha, hb, if_neg Bool.false_ne_true, if_neg Bool.false_ne_true]
  split
  · exact hb
  · exact ha

/-- Values are usable exactly if their magnitudes are within the limit. -/
theorem outOfRange_eq_false_iff {v : List R} :
    outOfRange v = false ↔ ∀ x ∈ v, Arith.abs x ≤ valueLimit := by
  unfold outOfRange
  rw [List.any_eq_false]
  refine forall₂_congr fun x _ ↦ ?_
  rw [Bool.not_eq_true, Bool.or_eq_false_iff, decide_eq_false_iff_not]
  constructor
  · rintro ⟨hx, hlimit⟩
    have habs : Arith.isNaN (Arith.abs x) = false := (OrderedArith.isNaN_abs x).trans hx
    exact OrderedArith.le_of_not_lt OrderedArith.isNaN_valueLimit habs hlimit
  · intro hx
    exact ⟨isNaN_of_abs_le hx, OrderedArith.not_lt_of_le hx⟩

end SketchSolver
