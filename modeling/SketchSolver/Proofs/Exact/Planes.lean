import Mathlib.Tactic.LinearCombination
import SketchSolver.Proofs.Exact.Orientation

/-!
# Planes

A plane in space has an origin and two orthonormal directions, and its normal is their outer
product. A point of the plane is given by two coordinates, a displacement by two numbers, and the
inner and outer products of displacements are those of the numbers. What is the mirror image of a
point, at a plane or at a line, is said of any points of space; within a plane it comes down to
equations of the coordinates.
-/

namespace SketchSolver

/-! ## Products of vectors -/

namespace Vec3

variable (a b c d : Vec3 ℝ)

/-- The inner product of a sum. -/
theorem add_dot : (a + b).dot c = a.dot c + b.dot c := by
  simp only [dot, add_def]
  ring

/-- The inner product of a difference. -/
theorem sub_dot : (a - b).dot c = a.dot c - b.dot c := by
  simp only [dot, sub_def]
  ring

/-- The inner product with a difference, taken the other way round. -/
theorem dot_sub_swap : a.dot (b - c) = -a.dot (c - b) := by
  simp only [dot, sub_def]
  ring

/-- The inner product of a multiple. -/
theorem scale_dot (x : ℝ) : (a.scale x).dot b = x * a.dot b := by
  simp only [dot, scale]
  ring

/-- An inner product does not depend on the order. -/
theorem dot_comm : a.dot b = b.dot a := by
  simp only [dot]
  ring

/-- An outer product is at right angles to its first factor. -/
theorem cross_dot_left : (a.cross b).dot a = 0 := by
  simp only [dot, cross]
  ring

/-- An outer product is at right angles to its second factor. -/
theorem cross_dot_right : (a.cross b).dot b = 0 := by
  simp only [dot, cross]
  ring

/-- The factors of an outer product change places with the sign. -/
theorem cross_dot_swap : (a.cross b).dot c = -(b.cross a).dot c := by
  simp only [dot, cross]
  ring

/-- The inner product of two outer products. -/
theorem dot_cross_cross : (a.cross b).dot (c.cross d) = a.dot c * b.dot d - a.dot d * b.dot c := by
  simp only [dot, cross]
  ring

/-- The outer product with an outer product. -/
theorem cross_cross : (a.cross b).cross c = b.scale (a.dot c) - a.scale (b.dot c) := by
  simp only [dot, cross, scale, sub_def, mk.injEq]
  refine ⟨?_, ?_, ?_⟩ <;> ring

/-- The outer product of two combinations of two directions. -/
theorem cross_combination (x y x' y' : ℝ) :
    (a.scale x + b.scale y).cross (a.scale x' + b.scale y') =
      (a.cross b).scale (x * y' - y * x') := by
  simp only [cross, scale, add_def, mk.injEq]
  refine ⟨?_, ?_, ?_⟩ <;> ring

/-- A vector in terms of two directions and their outer product. -/
theorem scale_dot_cross_self : d.scale ((a.cross b).dot (a.cross b)) =
    a.scale ((d.cross b).dot (a.cross b)) + b.scale ((a.cross d).dot (a.cross b)) +
      (a.cross b).scale (d.dot (a.cross b)) := by
  simp only [dot, cross, scale, add_def, mk.injEq]
  refine ⟨?_, ?_, ?_⟩ <;> ring

/-- A length is not negative. -/
theorem length_nonneg : 0 ≤ a.length := Real.sqrt_nonneg _

/-- The mirror image of a point at the line through a point along a direction. -/
noncomputable def mirrorAt (o d p : Vec3 ℝ) : Vec3 ℝ :=
  let foot := o + d.scale ((p - o).dot d / d.dot d)
  foot + (foot - p)

/-- Whether two directions are parallel: one is a multiple of the other, and not zero times it. -/
def Parallel (a b : Vec3 ℝ) : Prop := ∃ t : ℝ, t ≠ 0 ∧ a = b.scale t

/-- A direction that is not zero is parallel to another one if it is any multiple of it. -/
theorem parallel_iff {a b : Vec3 ℝ} (h : a ≠ ⟨0, 0, 0⟩) :
    a.Parallel b ↔ ∃ t : ℝ, a = b.scale t := by
  constructor
  · rintro ⟨t, _, ht⟩
    exact ⟨t, ht⟩
  · rintro ⟨t, ht⟩
    refine ⟨t, ?_, ht⟩
    rintro rfl
    exact h (ht.trans (by simp only [scale, mul_zero]))

end Vec3

/-! ## Points of a plane -/

/-- A plane with an origin and two orthonormal directions. -/
structure Plane where
  /-- The origin. -/
  origin : Vec3 ℝ
  /-- The first direction. -/
  u : Vec3 ℝ
  /-- The second direction. -/
  v : Vec3 ℝ
  /-- The directions are orthonormal. -/
  orthonormal : u.Orthonormal v

namespace Plane

variable (P : Plane)

/-- The direction at right angles to the plane. -/
def normal : Vec3 ℝ := P.u.cross P.v

/-- The displacement by two numbers along the directions. -/
def displacement (x y : ℝ) : Vec3 ℝ := P.u.scale x + P.v.scale y

/-- The point with two coordinates. -/
def point (x y : ℝ) : Vec3 ℝ := P.origin + P.u.scale x + P.v.scale y

/-- The point of the plane that is closest to a point. -/
def foot (p : Vec3 ℝ) : Vec3 ℝ := p - P.normal.scale ((p - P.origin).dot P.normal)

/-- The mirror image of a point at the plane. -/
def mirror (p : Vec3 ℝ) : Vec3 ℝ := P.foot p + (P.foot p - p)

/-- Whether a point is in the plane. -/
def Contains (p : Vec3 ℝ) : Prop := (p - P.origin).dot P.normal = 0

variable {P} {a b d p q : Vec3 ℝ} {x y x' y' ox oy dx dy : ℝ}

/-- The normal has length one. -/
theorem normal_dot_normal : P.normal.dot P.normal = 1 := by
  rw [normal, Vec3.dot_cross_cross, P.orthonormal.left, P.orthonormal.right,
    P.orthonormal.orthogonal, one_mul, zero_mul, sub_zero]

/-- The inner product of a displacement with a direction. -/
theorem displacement_dot : (P.displacement x y).dot d = x * P.u.dot d + y * P.v.dot d := by
  rw [displacement, Vec3.add_dot, Vec3.scale_dot, Vec3.scale_dot]

/-- A displacement has its first number along the first direction. -/
theorem displacement_dot_u : (P.displacement x y).dot P.u = x := by
  rw [displacement_dot, P.orthonormal.left, Vec3.dot_comm P.v, P.orthonormal.orthogonal, mul_one,
    mul_zero, add_zero]

/-- A displacement has its second number along the second direction. -/
theorem displacement_dot_v : (P.displacement x y).dot P.v = y := by
  rw [displacement_dot, P.orthonormal.orthogonal, P.orthonormal.right, mul_zero, mul_one, zero_add]

/-- Displacements are the same if their numbers are. -/
theorem displacement_inj : P.displacement x y = P.displacement x' y' ↔ x = x' ∧ y = y' := by
  constructor
  · intro h
    have hu := congrArg (fun d ↦ d.dot P.u) h
    have hv := congrArg (fun d ↦ d.dot P.v) h
    simp only [displacement_dot_u, displacement_dot_v] at hu hv
    exact ⟨hu, hv⟩
  · rintro ⟨rfl, rfl⟩
    rfl

/-- The numbers of a multiple of a displacement are multiples of its numbers. -/
theorem displacement_scale (t : ℝ) :
    (P.displacement x y).scale t = P.displacement (x * t) (y * t) := by
  simp only [displacement, Vec3.scale, Vec3.add_def, Vec3.mk.injEq]
  refine ⟨?_, ?_, ?_⟩ <;> ring

/-- A displacement is at right angles to the normal. -/
theorem displacement_dot_normal : (P.displacement x y).dot P.normal = 0 := by
  rw [displacement_dot, normal, Vec3.dot_comm P.u, Vec3.cross_dot_left, Vec3.dot_comm P.v,
    Vec3.cross_dot_right, mul_zero, mul_zero, add_zero]

/-- The inner product of two displacements is that of their numbers. -/
theorem displacement_dot_displacement :
    (P.displacement x y).dot (P.displacement x' y') = x * x' + y * y' := by
  rw [displacement_dot, Vec3.dot_comm P.u, Vec3.dot_comm P.v, displacement_dot_u,
    displacement_dot_v]

/-- The outer product of two displacements is along the normal. -/
theorem displacement_cross_displacement :
    (P.displacement x y).cross (P.displacement x' y') = P.normal.scale (x * y' - y * x') :=
  Vec3.cross_combination _ _ _ _ _ _

/-- The determinant of the numbers of two displacements is what is seen of their outer product along
the normal. -/
theorem displacement_cross_displacement_dot_normal :
    ((P.displacement x y).cross (P.displacement x' y')).dot P.normal = x * y' - y * x' := by
  rw [displacement_cross_displacement, Vec3.scale_dot, normal_dot_normal, mul_one]

/-- The outer product with the normal is what is seen of a vector in the plane, turned by a right
angle. -/
theorem normal_cross :
    P.normal.cross d = P.displacement (-(P.v.dot d)) (P.u.dot d) := by
  rw [normal, Vec3.cross_cross]
  simp only [displacement, Vec3.scale, Vec3.add_def, Vec3.sub_def, Vec3.mk.injEq]
  refine ⟨?_, ?_, ?_⟩ <;> ring

/-- The outer product with the normal turns a displacement by a right angle. -/
theorem normal_cross_displacement :
    P.normal.cross (P.displacement x y) = P.displacement (-y) x := by
  rw [normal_cross, Vec3.dot_comm P.v, Vec3.dot_comm P.u, displacement_dot_u, displacement_dot_v]

/-- What two points of the plane are apart. -/
theorem point_sub_point : P.point x y - P.point x' y' = P.displacement (x - x') (y - y') := by
  simp only [point, displacement, Vec3.scale, Vec3.add_def, Vec3.sub_def, Vec3.mk.injEq]
  refine ⟨?_, ?_, ?_⟩ <;> ring

/-- What a point of the plane is apart from the origin. -/
theorem point_sub_origin : P.point x y - P.origin = P.displacement x y := by
  simp only [point, displacement, Vec3.scale, Vec3.add_def, Vec3.sub_def, Vec3.mk.injEq]
  refine ⟨?_, ?_, ?_⟩ <;> ring

/-- A point is its displacement from the origin. -/
theorem displacement_add_origin : P.displacement x y + P.origin = P.point x y := by
  simp only [point, displacement, Vec3.scale, Vec3.add_def, Vec3.mk.injEq]
  refine ⟨?_, ?_, ?_⟩ <;> ring

/-- Points are the same if their coordinates are. -/
theorem point_inj : P.point x y = P.point x' y' ↔ x = x' ∧ y = y' := by
  refine ⟨fun h ↦ ?_, ?_⟩
  · rw [← displacement_inj (P := P), ← point_sub_origin, ← point_sub_origin, h]
  · rintro ⟨rfl, rfl⟩
    rfl

/-- A vector in terms of the directions of the plane and its normal. -/
theorem eq_sum (d : Vec3 ℝ) :
    d = P.u.scale (d.dot P.u) + P.v.scale (d.dot P.v) + P.normal.scale (d.dot P.normal) := by
  have h := Vec3.scale_dot_cross_self P.u P.v d
  have hu : (d.cross P.v).dot (P.u.cross P.v) = d.dot P.u := by
    rw [Vec3.dot_cross_cross, P.orthonormal.right, Vec3.dot_comm P.v, P.orthonormal.orthogonal,
      mul_one, mul_zero, sub_zero]
  have hv : (P.u.cross d).dot (P.u.cross P.v) = d.dot P.v := by
    rw [Vec3.dot_cross_cross, P.orthonormal.left, P.orthonormal.orthogonal, one_mul, zero_mul,
      sub_zero]
  have hn : (P.u.cross P.v).dot (P.u.cross P.v) = 1 := normal_dot_normal
  rw [hu, hv, hn, Vec3.scale_one] at h
  exact h

/-- Vectors are the same if they are seen alike along the directions and the normal. -/
theorem ext_dot (P : Plane) (hu : a.dot P.u = b.dot P.u) (hv : a.dot P.v = b.dot P.v)
    (hn : a.dot P.normal = b.dot P.normal) : a = b := by
  rw [eq_sum (P := P) a, hu, hv, hn, ← eq_sum]

/-- The squared length of a vector from what is seen of it along the directions and the normal. -/
theorem dot_self (P : Plane) (d : Vec3 ℝ) : d.dot d =
    d.dot P.u * d.dot P.u + d.dot P.v * d.dot P.v + d.dot P.normal * d.dot P.normal := by
  calc d.dot d = (P.u.scale (d.dot P.u) + P.v.scale (d.dot P.v) +
        P.normal.scale (d.dot P.normal)).dot d := by rw [← eq_sum]
    _ = _ := by
      rw [Vec3.add_dot, Vec3.add_dot, Vec3.scale_dot, Vec3.scale_dot, Vec3.scale_dot,
        Vec3.dot_comm P.u, Vec3.dot_comm P.v, Vec3.dot_comm P.normal]

/-- The foot of a point has the coordinates of the point. -/
theorem foot_eq : P.foot p = P.point ((p - P.origin).dot P.u) ((p - P.origin).dot P.v) := by
  have h := eq_sum (P := P) (p - P.origin)
  simp only [Vec3.scale, Vec3.add_def, Vec3.sub_def, Vec3.mk.injEq] at h
  obtain ⟨hx, hy, hz⟩ := h
  simp only [foot, point, Vec3.scale, Vec3.add_def, Vec3.sub_def, Vec3.mk.injEq]
  exact ⟨by linear_combination hx, by linear_combination hy, by linear_combination hz⟩

/-- A point and its foot are seen alike along the first direction. -/
theorem foot_dot_u : (P.foot p).dot P.u = p.dot P.u := by
  rw [foot, Vec3.sub_dot, Vec3.scale_dot, normal, Vec3.cross_dot_left, mul_zero, sub_zero]

/-- A point and its foot are seen alike along the second direction. -/
theorem foot_dot_v : (P.foot p).dot P.v = p.dot P.v := by
  rw [foot, Vec3.sub_dot, Vec3.scale_dot, normal, Vec3.cross_dot_right, mul_zero, sub_zero]

/-- Along the normal a foot is as high as the origin. -/
theorem foot_dot_normal : (P.foot p).dot P.normal = P.origin.dot P.normal := by
  rw [foot, Vec3.sub_dot, Vec3.scale_dot, normal_dot_normal, mul_one, Vec3.sub_dot, sub_sub_cancel]

/-- A point that is in the plane is its own foot. -/
theorem foot_of_contains (h : P.Contains p) : P.foot p = p := by
  rw [foot, h]
  simp only [Vec3.scale, Vec3.sub_def, mul_zero, sub_zero]

/-- A point that is in the plane has coordinates. -/
theorem exists_eq_point (h : P.Contains p) : ∃ x y, p = P.point x y :=
  ⟨_, _, (foot_of_contains h).symm.trans foot_eq⟩

/-! ## Lengths -/

/-- The length of a displacement. -/
theorem length_displacement : (P.displacement x y).length = √(x * x + y * y) :=
  congrArg Real.sqrt displacement_dot_displacement

/-- The length of an outer product of displacements. -/
theorem length_displacement_cross :
    ((P.displacement x y).cross (P.displacement x' y')).length = |x * y' - y * x'| := by
  rw [displacement_cross_displacement]
  change √((P.normal.scale _).dot (P.normal.scale _)) = _
  rw [Vec3.scale_dot, Vec3.dot_comm, Vec3.scale_dot, normal_dot_normal, mul_one,
    Real.sqrt_mul_self_eq_abs]

/-! ## Parallel directions -/

private theorem exists_multiple (h : dx * dx + dy * dy ≠ 0) (hratio : x * dy - y * dx = 0) :
    ∃ t, x = dx * t ∧ y = dy * t := by
  refine ⟨(x * dx + y * dy) / (dx * dx + dy * dy), ?_, ?_⟩
  · rw [mul_div_assoc', eq_div_iff h]
    linear_combination dy * hratio
  · rw [mul_div_assoc', eq_div_iff h]
    linear_combination -dx * hratio

/-- A displacement is zero exactly if its numbers are both zero. -/
theorem displacement_eq_zero_iff : P.displacement x y = ⟨0, 0, 0⟩ ↔ x * x + y * y = 0 := by
  constructor
  · intro hzero
    rw [← displacement_dot_displacement (P := P), hzero]
    simp only [Vec3.dot, mul_zero, add_zero]
  · intro hzero
    obtain ⟨rfl, rfl⟩ := mul_self_add_mul_self_eq_zero.mp hzero
    simp only [displacement, Vec3.scale, Vec3.add_def, mul_zero, add_zero]

/-- Displacements that are not zero are parallel exactly if the determinant of their numbers is
zero. -/
theorem parallel_displacement_iff (h : P.displacement x y ≠ ⟨0, 0, 0⟩)
    (h' : P.displacement x' y' ≠ ⟨0, 0, 0⟩) :
    (P.displacement x y).Parallel (P.displacement x' y') ↔ x * y' - y * x' = 0 := by
  rw [Vec3.parallel_iff h]
  constructor
  · rintro ⟨t, ht⟩
    rw [displacement_scale, displacement_inj] at ht
    obtain ⟨rfl, rfl⟩ := ht
    ring
  · intro hdet
    obtain ⟨t, rfl, rfl⟩ := exists_multiple (displacement_eq_zero_iff.not.mp h') hdet
    exact ⟨t, (displacement_scale t).symm⟩

/-! ## Mirror images -/

/-- Two points are mirror images at a plane exactly if the middle between them is in the plane and
both have one foot. -/
theorem eq_mirror_iff : q = P.mirror p ↔ P.Contains ((p + q).scale (1 / 2)) ∧
    (p - P.origin).dot P.u = (q - P.origin).dot P.u ∧
    (p - P.origin).dot P.v = (q - P.origin).dot P.v := by
  have hu : (P.mirror p).dot P.u = p.dot P.u := by
    rw [mirror, Vec3.add_dot, Vec3.sub_dot, foot_dot_u, sub_self, add_zero]
  have hv : (P.mirror p).dot P.v = p.dot P.v := by
    rw [mirror, Vec3.add_dot, Vec3.sub_dot, foot_dot_v, sub_self, add_zero]
  have hn : (P.mirror p).dot P.normal =
      P.origin.dot P.normal + (P.origin.dot P.normal - p.dot P.normal) := by
    rw [mirror, Vec3.add_dot, Vec3.sub_dot, foot_dot_normal]
  simp only [Contains, Vec3.sub_dot, Vec3.add_dot, Vec3.scale_dot]
  constructor
  · rintro rfl
    rw [hu, hv, hn]
    exact ⟨by ring, rfl, rfl⟩
  · rintro ⟨hmiddle, hsameU, hsameV⟩
    apply P.ext_dot
    · rw [hu]
      linear_combination -hsameU
    · rw [hv]
      linear_combination -hsameV
    · rw [hn]
      linear_combination 2 * hmiddle

/-- Two points of a plane are mirror images at a line of the plane exactly if what they are apart is
at right angles to the line and the middle between them is on it. -/
theorem point_eq_mirrorAt_iff (h : dx * dx + dy * dy ≠ 0) :
    P.point x' y' = Vec3.mirrorAt (P.point ox oy) (P.displacement dx dy) (P.point x y) ↔
      dx * (x' - x) + dy * (y' - y) = 0 ∧
        dx * ((y + y') / 2 - oy) = dy * ((x + x') / 2 - ox) := by
  obtain ⟨t, ht, hmul⟩ : ∃ t, ((x - ox) * dx + (y - oy) * dy) / (dx * dx + dy * dy) = t ∧
      t * (dx * dx + dy * dy) = (x - ox) * dx + (y - oy) * dy :=
    ⟨_, rfl, div_mul_cancel₀ _ h⟩
  have himage : Vec3.mirrorAt (P.point ox oy) (P.displacement dx dy) (P.point x y) =
      P.point (2 * (ox + dx * t) - x) (2 * (oy + dy * t) - y) := by
    rw [Vec3.mirrorAt, point_sub_point, displacement_dot_displacement,
      displacement_dot_displacement, ht]
    simp only [point, displacement, Vec3.scale, Vec3.add_def, Vec3.sub_def, Vec3.mk.injEq]
    refine ⟨?_, ?_, ?_⟩ <;> ring
  rw [himage, point_inj]
  constructor
  · rintro ⟨rfl, rfl⟩
    exact ⟨by linear_combination 2 * hmul, by ring⟩
  · rintro ⟨hacross, hmiddle⟩
    constructor
    · apply mul_right_cancel₀ h
      linear_combination dx * hacross - 2 * dy * hmiddle - 2 * dx * hmul
    · apply mul_right_cancel₀ h
      linear_combination dy * hacross + 2 * dx * hmiddle - 2 * dy * hmul

/-- The second direction is a displacement. -/
theorem displacement_zero_one : P.displacement 0 1 = P.v := by
  simp only [displacement, Vec3.scale, Vec3.add_def, mul_zero, zero_add, mul_one]

/-- The first direction is a displacement. -/
theorem displacement_one_zero : P.displacement 1 0 = P.u := by
  simp only [displacement, Vec3.scale, Vec3.add_def, mul_zero, add_zero, mul_one]

/-- The origin has no coordinates other than zero. -/
theorem point_zero_zero : P.point 0 0 = P.origin := by
  simp only [point, Vec3.scale, Vec3.add_def, mul_zero, add_zero]

/-- What is seen of two points in a plane is mirrored at an axis through the origin exactly if what
they are apart is at right angles to the axis and the middle between them is on it. -/
theorem foot_eq_mirrorAt_iff (h : dx * dx + dy * dy ≠ 0) :
    P.foot q = Vec3.mirrorAt P.origin (P.displacement dx dy) (P.foot p) ↔
      dx * ((q - P.origin).dot P.u - (p - P.origin).dot P.u) +
          dy * ((q - P.origin).dot P.v - (p - P.origin).dot P.v) = 0 ∧
        dx * ((p - P.origin).dot P.v + (q - P.origin).dot P.v) =
          dy * ((p - P.origin).dot P.u + (q - P.origin).dot P.u) := by
  rw [foot_eq, foot_eq]
  generalize (p - P.origin).dot P.u = x
  generalize (p - P.origin).dot P.v = y
  generalize (q - P.origin).dot P.u = x'
  generalize (q - P.origin).dot P.v = y'
  rw [← point_zero_zero, point_eq_mirrorAt_iff h]
  refine and_congr_right fun _ ↦ ⟨fun hmiddle ↦ ?_, fun hmiddle ↦ ?_⟩
  · linear_combination 2 * hmiddle
  · linear_combination hmiddle / 2

/-! ## Two planes -/

variable {Q : Plane} {o : Vec3 ℝ}

/-- The plane has its points. -/
theorem contains_point : P.Contains (P.point x y) := by
  rw [Contains, point_sub_origin, displacement_dot_normal]

/-- Another plane contains a point if what the point is apart from one that it contains is not seen
along its normal. -/
theorem contains_point_iff (ho : Q.Contains (P.point ox oy)) :
    Q.Contains (P.point x y) ↔ (x - ox) * P.u.dot Q.normal + (y - oy) * P.v.dot Q.normal = 0 := by
  rw [← displacement_dot, ← point_sub_point, Vec3.sub_dot]
  rw [Contains, Vec3.sub_dot] at ho ⊢
  rw [sub_eq_zero.mp ho]

/-- A plane that is not parallel to another one is seen in it at an angle. -/
theorem seen_ne_zero (h : ¬ P.normal.Parallel Q.normal) :
    P.u.dot Q.normal * P.u.dot Q.normal + P.v.dot Q.normal * P.v.dot Q.normal ≠ 0 := by
  intro hzero
  obtain ⟨hu, hv⟩ := mul_self_add_mul_self_eq_zero.mp hzero
  have hlength : Q.normal.dot P.normal * Q.normal.dot P.normal = 1 := by
    have hone := P.dot_self Q.normal
    rw [normal_dot_normal, Vec3.dot_comm _ P.u, Vec3.dot_comm _ P.v, hu, hv] at hone
    linear_combination -hone
  refine h ⟨Q.normal.dot P.normal, left_ne_zero_of_mul (hlength.trans_ne one_ne_zero), ?_⟩
  apply P.ext_dot
  · rw [normal, Vec3.cross_dot_left, ← normal, Vec3.scale_dot, Vec3.dot_comm _ P.u, hu, mul_zero]
  · rw [normal, Vec3.cross_dot_right, ← normal, Vec3.scale_dot, Vec3.dot_comm _ P.v, hv, mul_zero]
  · rw [normal_dot_normal, Vec3.scale_dot, hlength]

private theorem line_ne_zero (h : ¬ P.normal.Parallel Q.normal) :
    -(P.v.dot Q.normal) * -(P.v.dot Q.normal) + P.u.dot Q.normal * P.u.dot Q.normal ≠ 0 := by
  rw [neg_mul_neg, add_comm]
  exact seen_ne_zero h

/-- Whether two planes meet at the line through a point along a direction. -/
def MeetsAt (P Q : Plane) (o d : Vec3 ℝ) : Prop :=
  ∀ p, P.Contains p ∧ Q.Contains p ↔ ∃ t : ℝ, p = o + d.scale t

/-- Planes that are not parallel meet along the outer product of their normals. -/
theorem meetsAt_cross (h : ¬ P.normal.Parallel Q.normal) (ho : P.Contains o)
    (ho' : Q.Contains o) : P.MeetsAt Q o (P.normal.cross Q.normal) := by
  obtain ⟨ox, oy, rfl⟩ := exists_eq_point ho
  have hline : ∀ t, P.point ox oy + (P.normal.cross Q.normal).scale t =
      P.point (ox + -(P.v.dot Q.normal) * t) (oy + P.u.dot Q.normal * t) := by
    intro t
    rw [normal_cross]
    simp only [point, displacement, Vec3.scale, Vec3.add_def, Vec3.mk.injEq]
    refine ⟨?_, ?_, ?_⟩ <;> ring
  intro p
  constructor
  · rintro ⟨hp, hp'⟩
    obtain ⟨x, y, rfl⟩ := exists_eq_point hp
    rw [contains_point_iff ho'] at hp'
    obtain ⟨t, hx, hy⟩ := exists_multiple (line_ne_zero h) (x := x - ox) (y := y - oy)
      (by linear_combination hp')
    refine ⟨t, ?_⟩
    rw [hline, point_inj]
    exact ⟨by linear_combination hx, by linear_combination hy⟩
  · rintro ⟨t, rfl⟩
    rw [hline, contains_point_iff ho']
    exact ⟨contains_point, by ring⟩

/-- Planes that are not parallel have a point in common. -/
theorem exists_contains (h : ¬ P.normal.Parallel Q.normal) :
    ∃ o, P.Contains o ∧ Q.Contains o := by
  obtain ⟨t, ht⟩ : ∃ t, t * (P.u.dot Q.normal * P.u.dot Q.normal +
      P.v.dot Q.normal * P.v.dot Q.normal) = (Q.origin - P.origin).dot Q.normal :=
    ⟨_, div_mul_cancel₀ _ (seen_ne_zero h)⟩
  refine ⟨P.point (t * P.u.dot Q.normal) (t * P.v.dot Q.normal), contains_point, ?_⟩
  rw [Vec3.sub_dot] at ht
  rw [Contains, point, Vec3.sub_dot, Vec3.add_dot, Vec3.add_dot, Vec3.scale_dot, Vec3.scale_dot]
  linear_combination ht

/-- Two points of a plane are mirror images at the line where another plane meets it exactly if the
middle between them is in the other plane and what they are apart is at right angles to the line. -/
theorem point_eq_mirrorAt_planes_iff (h : ¬ P.normal.Parallel Q.normal) (ho : P.Contains o)
    (ho' : Q.Contains o) :
    P.point x' y' = Vec3.mirrorAt o (P.normal.cross Q.normal) (P.point x y) ↔
      Q.Contains (P.point ((x + x') / 2) ((y + y') / 2)) ∧
        (Q.normal.cross P.normal).dot (P.point x y - P.point x' y') = 0 := by
  obtain ⟨ox, oy, rfl⟩ := exists_eq_point ho
  rw [normal_cross, point_eq_mirrorAt_iff (line_ne_zero h), contains_point_iff ho',
    Vec3.cross_dot_swap, normal_cross, point_sub_point, displacement_dot_displacement]
  constructor
  · rintro ⟨hacross, hmiddle⟩
    exact ⟨by linear_combination -hmiddle, by linear_combination hacross⟩
  · rintro ⟨hmiddle, hacross⟩
    exact ⟨by linear_combination hacross, by linear_combination -hmiddle⟩

end Plane

end SketchSolver
