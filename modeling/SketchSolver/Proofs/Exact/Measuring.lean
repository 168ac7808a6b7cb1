import SketchSolver.Proofs.Exact.Motion
import SketchSolver.Proofs.Exact.Workplanes

/-!
# Measuring

In a workplane, what is drawn there is measured by its parameters; in space, by the positions that
these give. The two come out the same where the normal of the workplane has length one: the frame
spans a plane then, and the products of displacements in a plane are those of their coordinates.
-/

namespace SketchSolver

open Outcome

variable {v : ParamId → ℝ}

/-- Whether two expressions are answered that have one value at an assignment. -/
def AgreeAt (v : ParamId → ℝ) (x y : Outcome ℝ (Expr ℝ)) : Prop :=
  ∃ e f, x = .ok e ∧ y = .ok f ∧ e.eval v = f.eval v

namespace Sketch

/-- Workplanes in which points and lines that are drawn there are measured as they are in space. -/
structure MeasuresAlike (s : Sketch ℝ) (v : ParamId → ℝ) (w : EntityId) : Prop where
  /-- The coordinates of a point are its parameters, which are what is seen of its position from the
  origin along the two directions, and its position is the one that they give. -/
  point : ∀ k pu pv, s.PointAt w k pu pv → ∃ f p q, s.frame w = .ok f ∧ s.pointExprs k = .ok p ∧
    s.pointInWorkplane k w = .ok (.param pu, .param pv) ∧
    v pu = (p.eval v - f.origin.eval v).dot (f.u.eval v) ∧
    v pv = (p.eval v - f.origin.eval v).dot (f.v.eval v) ∧
    s.pointInSpace w (.param pu) (.param pv) = .ok q ∧ q.eval v = p.eval v
  /-- Two points have one distance. -/
  distance : ∀ a b au av bu bv, s.PointAt w a au av → s.PointAt w b bu bv →
    AgreeAt v (s.distanceExpr (some w) a b) (s.distanceExpr none a b)
  /-- A line has one length. -/
  length : ∀ k a b, s.DrawnIn w k (.line a b) →
    AgreeAt v (s.lineLength (some w) k) (s.lineLength none k)
  /-- A point has one distance from a line whose length is not zero, up to the sign that it has in
  the workplane. -/
  fromLine : ∀ p pu pv k a b, s.PointAt w p pu pv → s.DrawnIn w k (.line a b) →
    ∃ d d' l, s.pointLineDistance (some w) p k = .ok d ∧ s.pointLineDistance none p k = .ok d' ∧
      s.lineLength none k = .ok l ∧ (l.eval v ≠ 0 → |d.eval v| = d'.eval v)
  /-- The directions of two lines have one cosine. -/
  cosine : ∀ k a b k' a' b', s.DrawnIn w k (.line a b) → s.DrawnIn w k' (.line a' b') →
    ∃ d d', s.vectorExprs k = .ok d ∧ s.vectorExprs k' = .ok d' ∧
      AgreeAt v (s.directionCosine (some w) d d') (s.directionCosine none d d')

variable {s : Sketch ℝ} {w k a b : EntityId} {P : Plane} {pu pv au av bu bv : ParamId}

/-- The value of a length in a plane is the length of a displacement. -/
theorem eval_planeLength (P : Plane) (x y : Expr ℝ) :
    (planeLength x y).eval v = (P.displacement (x.eval v) (y.eval v)).length :=
  Plane.length_displacement.symm

/-- The coordinates of a point in its workplane give its position. -/
theorem LiesAs.exists_position (h : s.LiesAs v w P) (hk : s.PointAt w k pu pv) :
    ∃ f p q, s.frame w = .ok f ∧ s.pointExprs k = .ok p ∧
      s.pointInWorkplane k w = .ok (.param pu, .param pv) ∧
      v pu = (p.eval v - f.origin.eval v).dot (f.u.eval v) ∧
      v pv = (p.eval v - f.origin.eval v).dot (f.v.eval v) ∧
      s.pointInSpace w (.param pu) (.param pv) = .ok q ∧ q.eval v = p.eval v := by
  obtain ⟨p, hp, hposition⟩ := h.standsAt hk
  obtain ⟨q, hq, hgiven⟩ := h.exists_pointInSpace (.param pu) (.param pv)
  obtain ⟨f, hf, hspans⟩ := h
  refine ⟨f, p, q, hf, hp, hk.pointInWorkplane, ?_, ?_, hq, hgiven.trans hposition.symm⟩
  · rw [hposition, hspans.origin, hspans.first, Plane.point_sub_origin, Plane.displacement_dot_u]
  · rw [hposition, hspans.origin, hspans.second, Plane.point_sub_origin, Plane.displacement_dot_v]

/-- The distance of two points in their workplane is that in space. -/
theorem LiesAs.agreeAt_distanceExpr (h : s.LiesAs v w P) (ha : s.PointAt w a au av)
    (hb : s.PointAt w b bu bv) :
    AgreeAt v (s.distanceExpr (some w) a b) (s.distanceExpr none a b) := by
  obtain ⟨ea, eb, hea, heb, hsub⟩ := h.exists_sub ha hb
  refine ⟨_, _, ha.distanceExpr hb,
    bind_eq_ok_iff.mpr ⟨_, hea, bind_eq_ok_iff.mpr ⟨_, heb, rfl⟩⟩, ?_⟩
  rw [eval_planeLength P, Vec3.eval_magnitude, hsub]
  rfl

/-- The distance of a point from a line in their workplane is that in space, up to the sign. -/
theorem LiesAs.exists_pointLineDistance (h : s.LiesAs v w P) (hp : s.PointAt w p pu pv)
    (hk : s.DrawnIn w k (.line a b)) (ha : s.PointAt w a au av) (hb : s.PointAt w b bu bv) :
    ∃ d d', s.pointLineDistance (some w) p k = .ok d ∧ s.pointLineDistance none p k = .ok d' ∧
      |d.eval v| = d'.eval v := by
  obtain ⟨ea, eb, hea, heb, hline⟩ := h.exists_sub ha hb
  obtain ⟨ea', ep, hea', hep, hacross⟩ := h.exists_sub ha hp
  cases hea.symm.trans hea'
  have hflat : s.pointLineDistance (some w) p k =
      .ok (((Expr.param av - Expr.param bv) * (Expr.param au - Expr.param pu) -
        (Expr.param au - Expr.param bu) * (Expr.param av - Expr.param pv)) /
          planeLength (.param au - .param bu) (.param av - .param bv)) :=
    bind_eq_ok_iff.mpr ⟨_, hk.linePoints, bind_eq_ok_iff.mpr ⟨_, ha.pointInWorkplane,
      bind_eq_ok_iff.mpr ⟨_, hb.pointInWorkplane,
        bind_eq_ok_iff.mpr ⟨_, hp.pointInWorkplane, rfl⟩⟩⟩⟩
  have hspace : s.pointLineDistance none p k =
      .ok (((ea - eb).cross (ea - ep)).magnitude / (ea - eb).magnitude) :=
    bind_eq_ok_iff.mpr ⟨_, hk.linePoints, bind_eq_ok_iff.mpr ⟨_, hea,
      bind_eq_ok_iff.mpr ⟨_, heb, bind_eq_ok_iff.mpr ⟨_, hep, rfl⟩⟩⟩⟩
  refine ⟨_, _, hflat, hspace, ?_⟩
  rw [Expr.eval_div, Expr.eval_div, eval_planeLength P, Vec3.eval_magnitude, Vec3.eval_magnitude,
    Vec3.eval_cross, hline, hacross, Plane.length_displacement_cross, abs_div,
    abs_of_nonneg (Vec3.length_nonneg _), abs_sub_comm]
  rfl

/-- The cosine of two directions of a plane in its workplane is that in space. -/
theorem LiesAs.agreeAt_directionCosine (h : s.LiesAs v w P) {d d' : Vec3 (Expr ℝ)}
    {x y x' y' : ℝ} (hd : d.eval v = P.displacement x y) (hd' : d'.eval v = P.displacement x' y') :
    AgreeAt v (s.directionCosine (some w) d d') (s.directionCosine none d d') := by
  obtain ⟨f, hf, hspans⟩ := h
  have hseen : (d.dot f.u).eval v = x ∧ (d.dot f.v).eval v = y ∧ (d'.dot f.u).eval v = x' ∧
      (d'.dot f.v).eval v = y' := by
    simp only [Vec3.eval_dot, hspans.first, hspans.second, hd, hd', Plane.displacement_dot_u,
      Plane.displacement_dot_v, and_self]
  obtain ⟨hx, hy, hx', hy'⟩ := hseen
  have hproduct : (d.dot f.u * d'.dot f.u + d.dot f.v * d'.dot f.v).eval v = (d.dot d').eval v := by
    rw [Expr.eval_add, Expr.eval_mul, Expr.eval_mul, hx, hy, hx', hy', Vec3.eval_dot, hd, hd',
      Plane.displacement_dot_displacement]
  have hlength : (planeLength (d.dot f.u) (d.dot f.v)).eval v = d.magnitude.eval v := by
    rw [eval_planeLength P, hx, hy, Vec3.eval_magnitude, hd]
  have hlength' : (planeLength (d'.dot f.u) (d'.dot f.v)).eval v = d'.magnitude.eval v := by
    rw [eval_planeLength P, hx', hy', Vec3.eval_magnitude, hd']
  refine ⟨_, _, bind_eq_ok_iff.mpr ⟨_, hf, rfl⟩, rfl, ?_⟩
  rw [Expr.eval_div, Expr.eval_div, Expr.eval_mul, Expr.eval_mul, hproduct, hlength, hlength']

/-- Where the normal of a workplane has length one, points and lines that are drawn in it are
measured as they are in space. -/
theorem measuresAlike {la : LinearAlgebra ℝ} (hs : s.Reachable la) (hw : s.HasUnitNormal v w) :
    s.MeasuresAlike v w := by
  have hlinked := hs.linked_placed.1
  obtain ⟨P, hP⟩ := hlinked.exists_liesAs hw
  refine ⟨fun k pu pv hk ↦ hP.exists_position hk,
    fun a b au av bu bv ha hb ↦ hP.agreeAt_distanceExpr ha hb, ?_, ?_, ?_⟩
  · intro k a b hk
    obtain ⟨au, av, bu, bv, ha, hb⟩ := hlinked.exists_ends hk
    obtain ⟨e, f, he, hf, hvalue⟩ := hP.agreeAt_distanceExpr ha hb
    exact ⟨e, f, bind_eq_ok_iff.mpr ⟨_, hk.linePoints, he⟩,
      bind_eq_ok_iff.mpr ⟨_, hk.linePoints, hf⟩, hvalue⟩
  · intro p pu pv k a b hp hk
    obtain ⟨au, av, bu, bv, ha, hb⟩ := hlinked.exists_ends hk
    obtain ⟨d, d', hd, hd', hvalue⟩ := hP.exists_pointLineDistance hp hk ha hb
    obtain ⟨e, f, he, hf, _⟩ := hP.agreeAt_distanceExpr ha hb
    exact ⟨d, d', f, hd, hd', bind_eq_ok_iff.mpr ⟨_, hk.linePoints, hf⟩, fun _ ↦ hvalue⟩
  · intro k a b k' a' b' hk hk'
    obtain ⟨d, _, _, x, y, hd, _, _, hvalue, _⟩ := hP.exists_vectorExprs hlinked hk
    obtain ⟨d', _, _, x', y', hd', _, _, hvalue', _⟩ := hP.exists_vectorExprs hlinked hk'
    exact ⟨d, d', hd, hd', hP.agreeAt_directionCosine hvalue hvalue'⟩

end Sketch

/-- A line from the origin of a tilted plane. -/
noncomputable def lineInTiltedPlane : Sketch ℝ :=
  (Sketch.empty .default).runAll .exact
    [.draw ⟨1⟩ (.normal3d ⟨0.5, 0.5, 0.5, 0.5⟩), .draw ⟨1⟩ (.point3d ⟨1.0, 2.0, 3.0⟩),
      .draw ⟨1⟩ (.workplane ⟨2⟩ ⟨1⟩), .draw ⟨1⟩ (.point2d ⟨3⟩ 0.0 0.0),
      .draw ⟨1⟩ (.point2d ⟨3⟩ 3.0 4.0), .draw ⟨1⟩ (.line2d ⟨3⟩ ⟨4⟩ ⟨5⟩)]

private theorem contents_lineInTiltedPlane : lineInTiltedPlane.entities.values =
    [⟨⟨1⟩, ⟨1⟩, none, .normal3d ⟨1⟩ ⟨2⟩ ⟨3⟩ ⟨4⟩⟩, ⟨⟨2⟩, ⟨1⟩, none, .point3d ⟨5⟩ ⟨6⟩ ⟨7⟩⟩,
      ⟨⟨3⟩, ⟨1⟩, none, .workplane ⟨2⟩ ⟨1⟩⟩, ⟨⟨4⟩, ⟨1⟩, some ⟨3⟩, .point2d ⟨8⟩ ⟨9⟩⟩,
      ⟨⟨5⟩, ⟨1⟩, some ⟨3⟩, .point2d ⟨10⟩ ⟨11⟩⟩, ⟨⟨6⟩, ⟨1⟩, some ⟨3⟩, .line ⟨4⟩ ⟨5⟩⟩] := by
  have hunit : (⟨0.5, 0.5, 0.5, 0.5⟩ : Quaternion ℝ).lengthSquared = 1 := by
    norm_num [Quaternion.lengthSquared]
  rw [lineInTiltedPlane, Sketch.runAll, List.foldl_cons, Sketch.step_draw_normal3d _ _ _ hunit]
  rfl

/-- The length of the line in the plane is that in space. -/
theorem measuresAlike_lineInTiltedPlane : lineInTiltedPlane.Reachable .exact ∧
    lineInTiltedPlane.HasUnitNormal tilted ⟨3⟩ ∧
    lineInTiltedPlane.DrawnIn ⟨3⟩ ⟨6⟩ (.line ⟨4⟩ ⟨5⟩) ∧
    AgreeAt tilted (lineInTiltedPlane.lineLength (some ⟨3⟩) ⟨6⟩)
      (lineInTiltedPlane.lineLength none ⟨6⟩) := by
  have hreachable : lineInTiltedPlane.Reachable .exact := ⟨.default, _, rfl⟩
  have hfind := hreachable.wellNumbered.entities.find?_of_mem
  simp only [contents_lineInTiltedPlane, List.forall_mem_cons] at hfind
  obtain ⟨hnormal, _, hplane, _, _, hline, _⟩ := hfind
  have hunit : lineInTiltedPlane.HasUnitNormal tilted ⟨3⟩ :=
    Sketch.hasUnitNormal_of_find? hplane rfl hnormal rfl
      (by norm_num [Quaternion.lengthSquared, tilted])
  have hdrawn : lineInTiltedPlane.DrawnIn ⟨3⟩ ⟨6⟩ (.line ⟨4⟩ ⟨5⟩) := ⟨_, hline, rfl, rfl⟩
  exact ⟨hreachable, hunit, hdrawn, (Sketch.measuresAlike hreachable hunit).length _ _ _ hdrawn⟩

end SketchSolver
