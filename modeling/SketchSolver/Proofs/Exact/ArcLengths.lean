import SketchSolver.Proofs.Exact.Sweeps

/-!
# Lengths of arcs

The length of an arc is written as its radius times an angle. The angle is that between the
directions of the two ends from the center, which an inverse cosine gives up to half a turn and an
inverse sine gives near half a turn, and the sweep chooses between them. The sweep itself is found
in the plane of the normal, from the angles of the two ends. Where the normal has length one and
the arc is part of a circle in a plane at right angles to it, the two come out the same: the length
is the radius times the sweep.
-/

namespace SketchSolver

open Outcome

variable {v : ParamId → ℝ}

/-! ## The angle from the sweep -/

/-- On each of the three branches, the inverse function gives the sweep back. -/
theorem eval_angle_of_sweep {cos sin : Expr ℝ} {sweep : ℝ} (hcos : cos.eval v = Real.cos sweep)
    (hsin : sin.eval v = Real.sin sweep) (hpos : 0 < sweep) (hle : sweep ≤ 2 * Real.pi) :
    Expr.eval v (if sweep < 3.0 * Arith.pi / 4.0 then cos.acos
      else if sweep < 5.0 * Arith.pi / 4.0 then .constant Arith.pi - sin.asin
      else .constant (2.0 * Arith.pi) - cos.acos) = sweep := by
  have hfirst : (3.0 * Arith.pi / 4.0 : ℝ) = 3 * Real.pi / 4 := by
    change (3.0 : ℝ) * Real.pi / 4.0 = _
    norm_num
  have hsecond : (5.0 * Arith.pi / 4.0 : ℝ) = 5 * Real.pi / 4 := by
    change (5.0 : ℝ) * Real.pi / 4.0 = _
    norm_num
  rw [hfirst, hsecond]
  split
  · next hlt =>
    change Real.arccos (cos.eval v) = sweep
    rw [hcos, Real.arccos_cos hpos.le (by linarith)]
  · next hge =>
    split
    · next hlt =>
      -- Around half a turn, the inverse sine gives the angle from there.
      change Real.pi - Real.arcsin (sin.eval v) = sweep
      rw [hsin, ← Real.sin_pi_sub, Real.arcsin_sin (by linarith) (by linarith), sub_sub_cancel]
    · next hfar =>
      change 2.0 * Real.pi - Real.arccos (cos.eval v) = sweep
      rw [hcos, ← Real.cos_two_pi_sub, Real.arccos_cos (by linarith) (by linarith), Arith.real_two,
        sub_sub_cancel]

/-! ## Points of a circle -/

namespace Plane

variable {P : Plane} {d : Vec3 ℝ} {r α β : ℝ}

/-- A vector at right angles to the normal is a displacement. -/
theorem eq_displacement (h : d.dot P.normal = 0) : d = P.displacement (d.dot P.u) (d.dot P.v) := by
  refine P.ext_dot displacement_dot_u.symm displacement_dot_v.symm ?_
  rw [h, displacement_dot_normal]

/-- The displacement of a length in the direction of an angle. -/
noncomputable def polar (P : Plane) (r α : ℝ) : Vec3 ℝ :=
  P.displacement (r * Real.cos α) (r * Real.sin α)

/-- The length of a displacement in the direction of an angle. -/
theorem length_polar (h : 0 ≤ r) : (P.polar r α).length = r := by
  have hsquare : r * Real.cos α * (r * Real.cos α) + r * Real.sin α * (r * Real.sin α) = r ^ 2 := by
    linear_combination r ^ 2 * Real.cos_sq_add_sin_sq α
  rw [polar, length_displacement, hsquare, Real.sqrt_sq h]

/-- The inner product of two displacements is that of their lengths and the cosine of the angle
between them. -/
theorem polar_dot_polar (r r' : ℝ) :
    (P.polar r α).dot (P.polar r' β) = r * r' * Real.cos (α - β) := by
  rw [polar, polar, displacement_dot_displacement, Real.cos_sub]
  ring

/-- A displacement that is scaled has its length scaled. -/
theorem polar_scale (t : ℝ) : (P.polar r α).scale t = P.polar (r * t) α := by
  rw [polar, polar, displacement_scale, mul_right_comm, mul_right_comm r (Real.sin α)]

/-- The outer product with the normal turns a displacement by a right angle. -/
theorem normal_cross_polar : P.normal.cross (P.polar r α) = P.polar r (α + Real.pi / 2) := by
  rw [polar, polar, normal_cross_displacement, Real.cos_add_pi_div_two, Real.sin_add_pi_div_two,
    mul_neg]

end Plane

namespace Sketch

variable {q : Quaternion ℝ} {o d center start finish : Vec3 ℝ}

/-- In the plane of a quaternion, a displacement has its length in the direction of its angle. -/
theorem eq_polar (o : Vec3 ℝ) (h : q.lengthSquared = 1) (hd : d.dot q.axisN = 0) :
    d = (Plane.about o q h).polar d.length (angleIn q d) := by
  have hnormal : d.dot (Plane.about o q h).normal = 0 := Plane.normal_about ▸ hd
  have hlength : d.length = ‖(⟨d.dot q.axisU, d.dot q.axisV⟩ : ℂ)‖ := by
    rw [Complex.norm_def, Complex.normSq_apply]
    refine congrArg Real.sqrt ((Plane.dot_self (.about o q h) d).trans ?_)
    rw [hnormal, mul_zero, add_zero]
    rfl
  calc d = (Plane.about o q h).displacement (d.dot q.axisU) (d.dot q.axisV) :=
        Plane.eq_displacement hnormal
    _ = (Plane.about o q h).polar ‖(⟨d.dot q.axisU, d.dot q.axisV⟩ : ℂ)‖ (angleIn q d) :=
        congrArg₂ _ (Complex.norm_mul_cos_arg ⟨d.dot q.axisU, d.dot q.axisV⟩).symm
          (Complex.norm_mul_sin_arg ⟨d.dot q.axisU, d.dot q.axisV⟩).symm
    _ = (Plane.about o q h).polar d.length (angleIn q d) := by rw [hlength]

/-! ## The length of a round arc -/

/-- Whether an arc is part of a circle: its normal has length one, its points lie in a plane at
right angles to the normal, and its ends are equally far from its center, but not at it. -/
structure IsRound (q : Quaternion ℝ) (center start finish : Vec3 ℝ) : Prop where
  /-- The normal has length one. -/
  unit : q.lengthSquared = 1
  /-- The start is level with the center. -/
  start_level : (start - center).dot q.axisN = 0
  /-- The finish is level with the center. -/
  finish_level : (finish - center).dot q.axisN = 0
  /-- The radius is positive. -/
  radius_pos : 0 < start.distance center
  /-- The finish is as far from the center as the start. -/
  equidistant : finish.distance center = start.distance center

section

variable {P : Plane} {r α β : ℝ} {n toStart toFinish : Vec3 (Expr ℝ)}

private theorem eval_unitVector (hr : 0 < r) (ha : toStart.eval v = P.polar r α) :
    (toStart.withMagnitude (.constant 1.0)).eval v = P.polar 1 α := by
  rw [Vec3.withMagnitude, Vec3.eval_scale, Expr.eval_div, Vec3.eval_magnitude, ha,
    Plane.length_polar hr.le, Plane.polar_scale, Expr.eval_constant, Arith.real_one]
  exact congrArg (P.polar · α) (mul_one_div_cancel hr.ne')

private theorem eval_cosine (hr : 0 < r) (ha : toStart.eval v = P.polar r α)
    (hb : toFinish.eval v = P.polar r β) :
    (toFinish.dot (toStart.withMagnitude (.constant 1.0)) / toFinish.magnitude).eval v =
      Real.cos (β - α) := by
  rw [Expr.eval_div, Vec3.eval_dot, Vec3.eval_magnitude, eval_unitVector hr ha, hb,
    Plane.length_polar hr.le, Plane.polar_dot_polar, mul_one]
  exact mul_div_cancel_left₀ _ hr.ne'

private theorem eval_sine (hr : 0 < r) (ha : toStart.eval v = P.polar r α)
    (hb : toFinish.eval v = P.polar r β) (hn : n.eval v = P.normal) :
    (toFinish.dot (n.cross (toStart.withMagnitude (.constant 1.0))) / toFinish.magnitude).eval v =
      Real.sin (β - α) := by
  rw [Expr.eval_div, Vec3.eval_dot, Vec3.eval_magnitude, Vec3.eval_cross, eval_unitVector hr ha, hb,
    hn, Plane.length_polar hr.le, Plane.normal_cross_polar, Plane.polar_dot_polar, mul_one,
    ← sub_sub, Real.cos_sub_pi_div_two]
  exact mul_div_cancel_left₀ _ hr.ne'

end

variable {s : Sketch ℝ} {k : EntityId}

/-- The length of an arc is written, and if the arc is round it is the radius times the sweep. -/
theorem ArcAt.exists_arcLength (h : s.ArcAt s.value k q center start finish) :
    ∃ length, s.arcLength k = .ok length ∧ (IsRound q center start finish →
      length.eval s.value = start.distance center *
        sweepBetween (angleIn q (start - center)) (angleIn q (finish - center))) := by
  have hangles := h.arcAngles
  obtain ⟨⟨id, j, wp, _⟩, n, c, a, b, qe, hk, rfl, hq, rfl, ⟨ce, hc, rfl⟩, ⟨ae, ha, rfl⟩,
    ⟨be, hb, rfl⟩⟩ := h
  have hnormal : s.normalDirection n = .ok qe.rotationN := bind_eq_ok_iff.mpr ⟨_, hq, rfl⟩
  refine ⟨_, bind_eq_ok_iff.mpr ⟨_, entity_of_find? hk, bind_eq_ok_iff.mpr ⟨_, hc,
    bind_eq_ok_iff.mpr ⟨_, ha, bind_eq_ok_iff.mpr ⟨_, hb, bind_eq_ok_iff.mpr ⟨_, hnormal,
      bind_eq_ok_iff.mpr ⟨_, hangles, rfl⟩⟩⟩⟩⟩⟩, fun hround ↦ ?_⟩
  obtain ⟨hunit, hlevel, hlevel', hr, hequal⟩ := hround
  have hstart := eq_polar (ce.eval s.value) hunit hlevel
  have hfinish := eq_polar (ce.eval s.value) hunit hlevel'
  have hsweep := isSweep_sweepBetween
    (angleIn_mem (qe.eval s.value) (ae.eval s.value - ce.eval s.value))
    (angleIn_mem (qe.eval s.value) (be.eval s.value - ce.eval s.value))
  change be.eval s.value - ce.eval s.value = Plane.polar _ ((be.eval s.value).distance _) _
    at hfinish
  rw [hequal] at hfinish
  obtain ⟨turns, hturns⟩ := hsweep.turns
  rw [Expr.eval_mul]
  refine congrArg₂ (· * ·) hequal (eval_angle_of_sweep ?_ ?_ hsweep.pos hsweep.le_turn)
  · rw [hturns, Real.cos_add_int_mul_two_pi]
    exact eval_cosine hr hstart hfinish
  · rw [hturns, Real.sin_add_int_mul_two_pi]
    exact eval_sine hr hstart hfinish (Quaternion.eval_rotationN.trans Plane.normal_about.symm)

/-- In every sketch that comes about, the length of every arc is written and its angles are found.
If the arc is round now, its length is the radius times the sweep. -/
theorem Reachable.exists_arcLength_eq_radius_mul_sweep {la : LinearAlgebra ℝ} (hs : s.Reachable la)
    {e : Entity} {n c a b : EntityId} (hk : s.entities.find? k = some e)
    (hshape : e.shape = .arc n c a b) :
    ∃ q center start finish length angles, s.ArcAt s.value k q center start finish ∧
      s.arcLength k = .ok length ∧ s.arcAngles k = .ok angles ∧
      (IsRound q center start finish →
        length.eval s.value = start.distance center * angles.sweep) := by
  obtain ⟨hlinked, hplaced⟩ := hs.linked_placed
  obtain ⟨q, center, start, finish, harc⟩ := hlinked.exists_arcAt (v := s.value) hplaced hk hshape
  obtain ⟨length, hlength, hround⟩ := harc.exists_arcLength
  exact ⟨q, center, start, finish, length, _, harc, hlength, harc.arcAngles, hround⟩

end Sketch

/-- A quarter of a circle is round. -/
theorem isRound_arcTo :
    Sketch.IsRound arcNormal (arcPlane.point 0 0) (arcPlane.point 1 0) (arcPlane.point 0 1) := by
  have hlevel : ∀ x y, (arcPlane.displacement x y).dot arcNormal.axisN = 0 := by
    intro x y
    rw [← Plane.normal_about (h := lengthSquared_arcNormal)]
    exact Plane.displacement_dot_normal
  have hdistance : ∀ x y,
      (arcPlane.point x y).distance (arcPlane.point 0 0) = √(x * x + y * y) := by
    intro x y
    rw [Vec3.distance, Plane.point_sub_point, Plane.length_displacement, sub_zero, sub_zero]
  refine ⟨lengthSquared_arcNormal, ?_, ?_, ?_, ?_⟩
  · rw [Plane.point_sub_point]
    exact hlevel _ _
  · rw [Plane.point_sub_point]
    exact hlevel _ _
  · rw [hdistance]
    norm_num
  · rw [hdistance, hdistance, add_comm]

/-- The length of a quarter of a circle is its radius times its sweep. -/
theorem exists_arcLength_quarter : (arcTo 0 1).Reachable .exact ∧
    (arcTo 0 1).entities.find? ⟨7⟩ = some ⟨⟨7⟩, ⟨1⟩, some ⟨3⟩, .arc ⟨1⟩ ⟨4⟩ ⟨5⟩ ⟨6⟩⟩ ∧
    ∃ length angles, (arcTo 0 1).arcLength ⟨7⟩ = .ok length ∧
      (arcTo 0 1).arcAngles ⟨7⟩ = .ok angles ∧
      length.eval (arcTo 0 1).value =
        (arcPlane.point 1 0).distance (arcPlane.point 0 0) * angles.sweep := by
  refine ⟨reachable_arcTo 0 1, find?_arcTo 0 1, ?_⟩
  obtain ⟨q, center, start, finish, length, angles, harc, hlength, hangles, hround⟩ :=
    (reachable_arcTo 0 1).exists_arcLength_eq_radius_mul_sweep (find?_arcTo 0 1) rfl
  obtain ⟨rfl, rfl, rfl, rfl⟩ := harc.unique (arcAt_arcTo 0 1)
  exact ⟨length, angles, hlength, hangles, hround isRound_arcTo⟩

end SketchSolver
