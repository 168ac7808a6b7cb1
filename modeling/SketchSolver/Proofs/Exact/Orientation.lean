import Mathlib.Tactic.LinearCombination
import SketchSolver.Proofs.Exact.Rotation
import SketchSolver.Proofs.Exact.Undefined

/-!
# Orientations

A unit quaternion and the axes of its plane give each other, up to the sign of the quaternion. The
link between them is `Quaternion.products`: four times the product of any two components is a sum
of entries of the axes. A row of this table is a multiple of the quaternion, and `ofBasis` divides
one by twice the square root of its entry on the diagonal. That entry is above a threshold in the
row that it takes, since the four entries on the diagonal add up to four.
-/

namespace SketchSolver

/-- Two directions of length one, at right angles to each other. -/
structure Vec3.Orthonormal (u v : Vec3 ℝ) : Prop where
  /-- The first direction has length one. -/
  left : u.dot u = 1
  /-- The second direction has length one. -/
  right : v.dot v = 1
  /-- The directions are at right angles. -/
  orthogonal : u.dot v = 0

namespace Quaternion

/-! ## Products of components -/

/-- The places of the components. -/
inductive Component where
  /-- The real part. -/
  | w
  /-- The first imaginary unit. -/
  | x
  /-- The second imaginary unit. -/
  | y
  /-- The third imaginary unit. -/
  | z
  deriving DecidableEq

/-- The component at a place. -/
def get {A : Type} (q : Quaternion A) : Component → A
  | .w => q.w
  | .x => q.x
  | .y => q.y
  | .z => q.z

/-- The component of the image of a quaternion. -/
theorem get_map {A B : Type} (f : A → B) (q : Quaternion A) (j : Component) :
    (q.map f).get j = f (q.get j) := by
  cases j <;> rfl

/-- Quaternions with the same components are the same. -/
theorem ext_get {A : Type} {q r : Quaternion A} (h : ∀ j, q.get j = r.get j) : q = r := by
  cases q
  cases r
  rw [mk.injEq]
  exact ⟨h .w, h .x, h .y, h .z⟩

section

variable {R : Type} [Arith R]

/-- Four times the products of the components of a unit quaternion with given axes. -/
def products (u v n : Vec3 R) : Component → Component → R
  | .w, .w => 1.0 + u.x + v.y + n.z
  | .x, .x => 1.0 + u.x - v.y - n.z
  | .y, .y => 1.0 - u.x + v.y - n.z
  | .z, .z => 1.0 - u.x - v.y + n.z
  | .w, .x | .x, .w => v.z - n.y
  | .w, .y | .y, .w => n.x - u.z
  | .w, .z | .z, .w => u.y - v.x
  | .x, .y | .y, .x => u.y + v.x
  | .x, .z | .z, .x => n.x + u.z
  | .y, .z | .z, .y => v.z + n.y

/-- The component that is computed first from two directions. -/
def leading (u v : Vec3 R) : Component :=
  let n := u.cross v
  if (1e-4 : R) < 1.0 + u.x + v.y + n.z then .w
  else if v.y < u.x ∧ n.z < u.x then .x
  else if n.z < v.y then .y
  else .z

/-- The quaternion of two directions by way of one component, as it is before it is brought to
length one. -/
def led (c : Component) (u v : Vec3 R) : Quaternion R :=
  let row := products u v (u.cross v) c
  let s := 2.0 * Arith.sqrt (row c)
  let component (j : Component) : R := if j = c then s / 4.0 else row j / s
  ⟨component .w, component .x, component .y, component .z⟩

/-- Each component, by way of one of them. -/
theorem get_led (c j : Component) (u v : Vec3 R) :
    (led c u v).get j =
      if j = c then 2.0 * Arith.sqrt (products u v (u.cross v) c c) / 4.0
      else products u v (u.cross v) c j / (2.0 * Arith.sqrt (products u v (u.cross v) c c)) := by
  cases j <;> rfl

/-- The quaternion of two directions comes by way of the leading component. -/
theorem ofBasis_eq (u v : Vec3 R) : ofBasis u v = (led (leading u v) u v).normalize := by
  unfold ofBasis leading
  dsimp only
  split
  · rfl
  split
  · rfl
  split
  · rfl
  · rfl

end

variable {q r : Quaternion ℝ} {u v n : Vec3 ℝ} {c : Component}

private theorem real_four :
    (@OfScientific.ofScientific ℝ Arith.real.toOfScientific 40 true 1) = 4 := by
  change ((4.0 : ℝ)) = 4
  norm_num

private theorem real_threshold :
    (@OfScientific.ofScientific ℝ Arith.real.toOfScientific 1 true 4) = 1 / 10000 := by
  change ((1e-4 : ℝ)) = 1 / 10000
  norm_num

/-! ## From a quaternion to its axes and back -/

/-- The outer product of the first two axes of a unit quaternion is the third one. -/
theorem cross_axes (h : q.lengthSquared = 1) : q.axisU.cross q.axisV = q.axisN := by
  rw [q.areAxes.cross, h, Vec3.scale_one]

/-- The first two axes of a unit quaternion are orthonormal. -/
theorem orthonormal_axes (h : q.lengthSquared = 1) : q.axisU.Orthonormal q.axisV where
  left := by rw [q.areAxes.uu, h, one_pow]
  right := by rw [q.areAxes.vv, h, one_pow]
  orthogonal := q.areAxes.uv

/-- Whether the products of the components are those of given axes. -/
def HasProducts (q : Quaternion ℝ) (u v n : Vec3 ℝ) : Prop :=
  ∀ j k, 4 * (q.get j * q.get k) = products u v n j k

/-- The products of the components of a unit quaternion are those of its axes. -/
theorem hasProducts_axes (h : q.lengthSquared = 1) :
    q.HasProducts q.axisU q.axisV q.axisN := by
  simp only [lengthSquared] at h
  intro j k
  cases j <;> cases k <;>
    simp only [get, products, axisU, axisV, axisN, Arith.real_one, Arith.real_two] <;> linarith

namespace HasProducts

/-- The squares on the diagonal add up to one. -/
theorem lengthSquared (h : q.HasProducts u v n) : q.lengthSquared = 1 := by
  have hw := h .w .w
  have hx := h .x .x
  have hy := h .y .y
  have hz := h .z .z
  simp only [get, products, Arith.real_one] at hw hx hy hz
  simp only [Quaternion.lengthSquared]
  linarith

/-- The products give the axes. -/
theorem axes (h : q.HasProducts u v n) : q.axisU = u ∧ q.axisV = v ∧ q.axisN = n := by
  have hww := h .w .w
  have hxx := h .x .x
  have hyy := h .y .y
  have hzz := h .z .z
  have hwx := h .w .x
  have hwy := h .w .y
  have hwz := h .w .z
  have hxy := h .x .y
  have hxz := h .x .z
  have hyz := h .y .z
  simp only [get, products, Arith.real_one] at hww hxx hyy hzz hwx hwy hwz hxy hxz hyz
  obtain ⟨ux, uy, uz⟩ := u
  obtain ⟨vx, vy, vz⟩ := v
  obtain ⟨nx, ny, nz⟩ := n
  simp only [axisU, axisV, axisN, Arith.real_two, Vec3.mk.injEq]
  refine ⟨⟨?_, ?_, ?_⟩, ⟨?_, ?_, ?_⟩, ⟨?_, ?_, ?_⟩⟩ <;> linarith

/-- Two quaternions with the same products are the same up to the sign. -/
theorem eq_or_eq_neg (hq : q.HasProducts u v n) (hr : r.HasProducts u v n) :
    r = q ∨ r = q.map Neg.neg := by
  have hsame : ∀ j k, r.get j * r.get k = q.get j * q.get k := fun j k ↦ by
    linarith [hq j k, hr j k]
  have hunit := hq.lengthSquared
  simp only [Quaternion.lengthSquared] at hunit
  -- The inner product of the two is the sign.
  obtain ⟨d, hd⟩ : ∃ d, d = r.w * q.w + r.x * q.x + r.y * q.y + r.z * q.z := ⟨_, rfl⟩
  have hmul : ∀ j, d * r.get j = q.get j := by
    intro j
    have hw : r.get j * r.w = q.get j * q.w := hsame j .w
    have hx : r.get j * r.x = q.get j * q.x := hsame j .x
    have hy : r.get j * r.y = q.get j * q.y := hsame j .y
    have hz : r.get j * r.z = q.get j * q.z := hsame j .z
    rw [hd]
    linear_combination q.w * hw + q.x * hx + q.y * hy + q.z * hz + q.get j * hunit
  have hw : d * r.w = q.w := hmul .w
  have hx : d * r.x = q.x := hmul .x
  have hy : d * r.y = q.y := hmul .y
  have hz : d * r.z = q.z := hmul .z
  have hsquare : d * d = 1 := by
    linear_combination d * hd + q.w * hw + q.x * hx + q.y * hy + q.z * hz + hunit
  refine (mul_self_eq_one_iff.mp hsquare).imp (fun hpos ↦ ext_get fun j ↦ ?_)
    fun hneg ↦ ext_get fun j ↦ ?_
  · rw [← hmul, hpos, one_mul]
  · rw [get_map, ← hmul, hneg, neg_one_mul, neg_neg]

end HasProducts

/-! ## From two directions to a quaternion -/

/-- The table of products of two orthonormal directions has rank one: each row gives all of it. -/
theorem products_mul_products (h : u.Orthonormal v) (c j k : Component) :
    products u v (u.cross v) c c * products u v (u.cross v) j k =
      products u v (u.cross v) c j * products u v (u.cross v) c k := by
  obtain ⟨hu, hv, huv⟩ := h
  simp only [Vec3.dot] at hu hv huv
  -- Each is an equation of polynomials modulo the three that make the directions orthonormal.
  cases c <;> cases j <;> cases k <;> simp only [products, Vec3.cross, Arith.real_one] <;> grind

/-- The entry of the leading component on the diagonal is above the threshold. -/
theorem lt_products_leading (u v : Vec3 ℝ) :
    1 / 10000 < products u v (u.cross v) (leading u v) (leading u v) := by
  unfold leading
  dsimp only
  simp only [Arith.real_one, real_threshold]
  -- Unless the first entry is above the threshold, it is the greatest of the three others, which
  -- add up to almost four.
  split
  · next hw =>
    simp only [products, Arith.real_one]
    exact hw
  split
  · next hw hx =>
    simp only [products, Arith.real_one]
    linarith [hx.1, hx.2]
  split
  · next hw hx hy =>
    simp only [products, Arith.real_one]
    have hle : u.x ≤ v.y := not_lt.mp fun hlt ↦ hx ⟨hlt, hy.trans hlt⟩
    linarith
  · next hw hx hy =>
    simp only [products, Arith.real_one]
    have hle : u.x ≤ (u.cross v).z :=
      not_lt.mp fun hlt ↦ hx ⟨(not_lt.mp hy).trans_lt hlt, hlt⟩
    linarith

/-- The entry of the leading component on the diagonal is positive. -/
theorem products_leading_pos (u v : Vec3 ℝ) :
    0 < products u v (u.cross v) (leading u v) (leading u v) :=
  lt_trans (by norm_num) (lt_products_leading u v)

/-- Each component is one of a row of products, divided by the square root of the one on the
diagonal. -/
theorem get_led_eq (h : 0 < products u v (u.cross v) c c) (j : Component) :
    (led c u v).get j =
      products u v (u.cross v) c j / (2 * √(products u v (u.cross v) c c)) := by
  rw [get_led, Arith.real_two, real_four]
  change (if j = c then 2 * √(products u v (u.cross v) c c) / 4 else _) = _
  split
  · next heq =>
    subst heq
    have hroot := Real.mul_self_sqrt h.le
    have hne := (Real.sqrt_pos.mpr h).ne'
    field_simp
    linarith
  · rfl

/-- By way of any component whose entry is positive, the quaternion of two orthonormal directions
has their products. -/
theorem hasProducts_led (h : u.Orthonormal v) (hpos : 0 < products u v (u.cross v) c c) :
    (led c u v).HasProducts u v (u.cross v) := by
  intro j k
  have hroot := Real.mul_self_sqrt hpos.le
  have hrow := products_mul_products h c j k
  rw [get_led_eq hpos, get_led_eq hpos, div_mul_div_comm, ← hrow, mul_mul_mul_comm, hroot]
  field_simp
  ring

/-- A quaternion of length one is not changed when it is brought to length one. -/
theorem normalize_of_unit (h : q.lengthSquared = 1) : q.normalize = q := by
  have hroot : 1.0 / Arith.sqrt q.lengthSquared = 1 := by
    change 1.0 / √q.lengthSquared = 1
    rw [h, Real.sqrt_one, Arith.real_one, div_one]
  simp only [normalize, hroot, mul_one]

/-- The quaternion of two orthonormal directions has their products. -/
theorem hasProducts_ofBasis (h : u.Orthonormal v) : (ofBasis u v).HasProducts u v (u.cross v) := by
  have hled := hasProducts_led h (products_leading_pos u v)
  rw [ofBasis_eq, normalize_of_unit hled.lengthSquared]
  exact hled

/-! ## Definedness -/

open PartialReal

/-- A quaternion is not zero if one of its components is not. -/
theorem lengthSquared_pos (h : q.get c ≠ 0) : 0 < q.lengthSquared := by
  have hpos := mul_self_pos.mpr h
  have hw := mul_self_nonneg q.w
  have hx := mul_self_nonneg q.x
  have hy := mul_self_nonneg q.y
  have hz := mul_self_nonneg q.z
  unfold lengthSquared
  cases c <;> simp only [get] at hpos <;> linarith

/-- The leading component is chosen among numbers. -/
theorem leading_map_value (u v : Vec3 ℝ) : leading (u.map value) (v.map value) = leading u v := by
  unfold leading
  rw [cross_map_value]
  simp only [Vec3.map, ofScientific_eq, value_add, value_lt_value]

/-- The products of numbers are numbers. -/
theorem products_map_value (u v n : Vec3 ℝ) (j k : Component) :
    products (u.map value) (v.map value) (n.map value) j k = value (products u v n j k) := by
  cases j <;> cases k <;> simp [products, Vec3.map]

/-- By way of a component whose entry is positive, all components are defined. -/
theorem led_map_value (h : 0 < products u v (u.cross v) c c) :
    led c (u.map value) (v.map value) = (led c u v).map value := by
  have hdivisor : 2.0 * Arith.sqrt (products u v (u.cross v) c c) ≠ 0 := by
    rw [Arith.real_two]
    exact mul_ne_zero two_ne_zero (Real.sqrt_pos.mpr h).ne'
  have hfour : (@OfScientific.ofScientific ℝ Arith.real.toOfScientific 40 true 1) ≠ 0 := by
    rw [real_four]
    exact four_ne_zero
  refine ext_get fun j ↦ ?_
  rw [get_map, get_led, get_led, cross_map_value, products_map_value, products_map_value,
    sqrt_value h, ofScientific_eq, ofScientific_eq, value_mul]
  split
  · exact value_div hfour
  · exact value_div hdivisor

/-- A quaternion that is not zero can be brought to length one. -/
theorem normalize_map_value (h : 0 < q.lengthSquared) :
    (q.map value).normalize = q.normalize.map value := by
  have hlength : (q.map value).lengthSquared = value q.lengthSquared := by
    simp [lengthSquared, map]
  have hfactor : 1.0 / Arith.sqrt (q.map value).lengthSquared =
      value (1.0 / Arith.sqrt q.lengthSquared) := by
    rw [hlength, sqrt_value h, ofScientific_eq]
    exact value_div (Real.sqrt_pos.mpr h).ne'
  unfold normalize
  rw [hfactor]
  simp [map]

/-- The quaternion of two directions is defined: no root is taken of a number that is not positive,
and nothing is divided by zero. -/
theorem ofBasis_map_value (u v : Vec3 ℝ) :
    ofBasis (u.map value) (v.map value) = (ofBasis u v).map value := by
  have hpos := products_leading_pos u v
  have hne : (led (leading u v) u v).get (leading u v) ≠ 0 := by
    rw [get_led_eq hpos]
    exact div_ne_zero hpos.ne' (mul_ne_zero two_ne_zero (Real.sqrt_pos.mpr hpos).ne')
  rw [ofBasis_eq, leading_map_value, led_map_value hpos,
    normalize_map_value (lengthSquared_pos hne), ofBasis_eq]

/-! ## Inverses -/

/-- The quaternion of two orthonormal directions is defined, has length one and has them as its
axes. The quaternion of the axes of a unit quaternion is that quaternion or its negative. -/
theorem ofBasis_inverts_axes :
    (∀ u v : Vec3 ℝ, u.Orthonormal v →
      ofBasis (u.map value) (v.map value) = (ofBasis u v).map value ∧
      (ofBasis u v).lengthSquared = 1 ∧
      (ofBasis u v).axisU = u ∧ (ofBasis u v).axisV = v ∧ (ofBasis u v).axisN = u.cross v) ∧
    ∀ q : Quaternion ℝ, q.lengthSquared = 1 →
      ofBasis q.axisU q.axisV = q ∨ ofBasis q.axisU q.axisV = q.map Neg.neg := by
  constructor
  · intro u v h
    have hproducts := hasProducts_ofBasis h
    exact ⟨ofBasis_map_value u v, hproducts.lengthSquared, hproducts.axes⟩
  · intro q h
    have hproducts := hasProducts_ofBasis (orthonormal_axes h)
    rw [cross_axes h] at hproducts
    exact (hasProducts_axes h).eq_or_eq_neg hproducts

/-- Half a turn about the normal, where the real part is zero and the last component leads. -/
theorem ofBasis_inverts_axes_halfTurn :
    (⟨-1, 0, 0⟩ : Vec3 ℝ).Orthonormal ⟨0, -1, 0⟩ ∧ leading (⟨-1, 0, 0⟩ : Vec3 ℝ) ⟨0, -1, 0⟩ = .z ∧
      (ofBasis (⟨-1, 0, 0⟩ : Vec3 ℝ) ⟨0, -1, 0⟩).axisU = ⟨-1, 0, 0⟩ ∧
      (⟨0, 0, 0, 1⟩ : Quaternion ℝ).lengthSquared = 1 ∧
      (ofBasis (axisU ⟨0, 0, 0, 1⟩) (axisV ⟨0, 0, 0, 1⟩) = (⟨0, 0, 0, 1⟩ : Quaternion ℝ) ∨
        ofBasis (axisU ⟨0, 0, 0, 1⟩) (axisV ⟨0, 0, 0, 1⟩) =
          map Neg.neg (⟨0, 0, 0, 1⟩ : Quaternion ℝ)) := by
  have hbasis : (⟨-1, 0, 0⟩ : Vec3 ℝ).Orthonormal ⟨0, -1, 0⟩ := by
    constructor <;> norm_num [Vec3.dot]
  have hunit : (⟨0, 0, 0, 1⟩ : Quaternion ℝ).lengthSquared = 1 := by
    norm_num [lengthSquared]
  have hleading : leading (⟨-1, 0, 0⟩ : Vec3 ℝ) ⟨0, -1, 0⟩ = .z := by
    norm_num [leading, Vec3.cross, Arith.real_one, real_threshold]
  exact ⟨hbasis, hleading, (ofBasis_inverts_axes.1 _ _ hbasis).2.2.1, hunit,
    ofBasis_inverts_axes.2 _ hunit⟩

end Quaternion

end SketchSolver
