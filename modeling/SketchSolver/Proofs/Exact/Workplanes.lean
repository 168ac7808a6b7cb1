import SketchSolver.Proofs.Exact.Planes
import SketchSolver.Proofs.Run.Totality

/-!
# Workplanes

Where the normal of a workplane has length one, its frame spans a plane. A point that is drawn in
the workplane is at the point of that plane with its parameters as coordinates. In another
workplane the coordinates of a point are measured, and either way they are what is seen of its
position from the origin along the directions of the plane. So what the equations of a constraint
say about coordinates can be told as a fact about positions in space.
-/

namespace SketchSolver

open Outcome

variable {v : ParamId → ℝ}

/-- The plane at an origin with the directions of a quaternion of length one. -/
noncomputable def Plane.about (o : Vec3 ℝ) (q : Quaternion ℝ) (h : q.lengthSquared = 1) : Plane :=
  ⟨o, q.axisU, q.axisV, Quaternion.orthonormal_axes h⟩

/-- The normal of the plane of a quaternion is its third axis. -/
theorem Plane.normal_about {o : Vec3 ℝ} {q : Quaternion ℝ} {h : q.lengthSquared = 1} :
    (Plane.about o q h).normal = q.axisN := Quaternion.cross_axes h

/-- A frame spans a plane if its values are the origin and the directions of the plane. -/
structure Frame.Spans (f : Frame ℝ) (v : ParamId → ℝ) (P : Plane) : Prop where
  /-- The origin is that of the plane. -/
  origin : f.origin.eval v = P.origin
  /-- The first direction is that of the plane. -/
  first : f.u.eval v = P.u
  /-- The second direction is that of the plane. -/
  second : f.v.eval v = P.v
  /-- The normal is that of the plane. -/
  normal : f.n.eval v = P.normal

namespace Sketch

variable {s : Sketch ℝ} {g : GroupId} {w k a b : EntityId} {P : Plane} {p : Vec3 ℝ}

/-- An entity that is listed is found. -/
theorem entity_of_find? {e : Entity} (h : s.entities.find? k = some e) : s.entity k = .ok e := by
  rw [entity, h]

/-- An entity that is found is listed. -/
theorem find?_of_entity {e : Entity} (h : s.entity k = .ok e) : s.entities.find? k = some e := by
  unfold entity at h
  split at h
  · next hk =>
    cases h
    exact hk
  · cases h

/-! ## Planes of workplanes -/

/-- Whether the normal of a workplane has length one at an assignment. -/
def HasUnitNormal (s : Sketch ℝ) (v : ParamId → ℝ) (w : EntityId) : Prop :=
  ∃ origin normal q, s.workplaneParts w = .ok (origin, normal) ∧
    s.normal3dQuaternion normal = .ok q ∧ (q.eval v).lengthSquared = 1

/-- Whether the frame of a workplane spans a plane at an assignment. -/
def LiesAs (s : Sketch ℝ) (v : ParamId → ℝ) (w : EntityId) (P : Plane) : Prop :=
  ∃ f, s.frame w = .ok f ∧ f.Spans v P

/-- The normal of a workplane has length one if the values of its parameters do. -/
theorem hasUnitNormal_of_find? {e f : Entity} {o n : EntityId} {qw qx qy qz : ParamId}
    (he : s.entities.find? w = some e) (hshape : e.shape = .workplane o n)
    (hf : s.entities.find? n = some f) (hnormal : f.shape = .normal3d qw qx qy qz)
    (hone : (⟨v qw, v qx, v qy, v qz⟩ : Quaternion ℝ).lengthSquared = 1) :
    s.HasUnitNormal v w := by
  obtain ⟨id, j, wp, _⟩ := e
  cases hshape
  obtain ⟨id', j', wp', _⟩ := f
  cases hnormal
  exact ⟨o, n, _, bind_eq_ok_iff.mpr ⟨_, entity_of_find? he, rfl⟩,
    bind_eq_ok_iff.mpr ⟨_, entity_of_find? hf, rfl⟩, hone⟩

/-- A workplane spans the plane at its origin with the directions of its normal. -/
theorem liesAs_about {origin normal : EntityId} {q : Quaternion (Expr ℝ)} {o : Vec3 (Expr ℝ)}
    (hparts : s.workplaneParts w = .ok (origin, normal))
    (hq : s.normal3dQuaternion normal = .ok q) (ho : s.point3dExprs origin = .ok o)
    (hone : (q.eval v).lengthSquared = 1) :
    s.LiesAs v w (.about (o.eval v) (q.eval v) hone) := by
  exact ⟨_, bind_eq_ok_iff.mpr ⟨_, hparts, bind_eq_ok_iff.mpr ⟨_, hq,
    bind_eq_ok_iff.mpr ⟨_, ho, rfl⟩⟩⟩, rfl, Quaternion.eval_rotationU, Quaternion.eval_rotationV,
    Quaternion.eval_rotationN.trans Plane.normal_about.symm⟩

/-- A workplane spans the plane of the values of its parameters. -/
theorem liesAs_of_find? {e f c : Entity} {o n : EntityId} {qw qx qy qz x y z : ParamId}
    (he : s.entities.find? w = some e) (hshape : e.shape = .workplane o n)
    (hf : s.entities.find? n = some f) (hnormal : f.shape = .normal3d qw qx qy qz)
    (hc : s.entities.find? o = some c) (horigin : c.shape = .point3d x y z)
    (hone : (⟨v qw, v qx, v qy, v qz⟩ : Quaternion ℝ).lengthSquared = 1) :
    s.LiesAs v w (.about ⟨v x, v y, v z⟩ ⟨v qw, v qx, v qy, v qz⟩ hone) := by
  obtain ⟨id, j, wp, _⟩ := e
  cases hshape
  obtain ⟨id', j', wp', _⟩ := f
  cases hnormal
  obtain ⟨id'', j'', wp'', _⟩ := c
  cases horigin
  exact liesAs_about (bind_eq_ok_iff.mpr ⟨_, entity_of_find? he, rfl⟩)
    (bind_eq_ok_iff.mpr ⟨_, entity_of_find? hf, rfl⟩)
    (bind_eq_ok_iff.mpr ⟨_, entity_of_find? hc, rfl⟩) hone

/-- A workplane whose normal has length one spans a plane. -/
theorem Linked.exists_liesAs (h : s.Linked) (hunit : s.HasUnitNormal v w) :
    ∃ P, s.LiesAs v w P := by
  obtain ⟨origin, normal, q, hparts, hq, hone⟩ := hunit
  obtain ⟨⟨id, j, wp, shape⟩, he, hshape⟩ := bind_eq_ok_iff.mp hparts
  cases shape with
  | workplane o n =>
    cases hshape
    obtain ⟨⟨_, _, _, oshape⟩, ho, hpoint, _⟩ := h.entities w _ (find?_of_entity he)
      (origin, Entity.isPoint3d) (by simp [Entity.demands, Shape.demands])
    cases oshape with
    | point3d x y z =>
      have hposition : s.point3dExprs origin = .ok (.ofParams x y z) :=
        bind_eq_ok_iff.mpr ⟨_, entity_of_find? ho, rfl⟩
      exact ⟨_, liesAs_about hparts hq hposition hone⟩
    | _ => cases hpoint
  | _ => cases hshape

/-- The normal direction of a workplane is that of its plane. -/
theorem LiesAs.workplaneNormal (h : s.LiesAs v w P) :
    ∃ n, s.workplaneNormal w = .ok n ∧ n.eval v = P.normal := by
  obtain ⟨f, hf, hspans⟩ := h
  obtain ⟨parts, hparts, hf⟩ := bind_eq_ok_iff.mp hf
  obtain ⟨q, hq, hf⟩ := bind_eq_ok_iff.mp hf
  obtain ⟨o, ho, hf⟩ := bind_eq_ok_iff.mp hf
  cases hf
  obtain ⟨⟨id, j, wp, shape⟩, he, hshape⟩ := bind_eq_ok_iff.mp hq
  cases shape with
  | normal3d qw qx qy qz =>
    cases hshape
    have hnormal : s.normalQuaternion parts.2 = .ok (.ofParams qw qx qy qz) :=
      bind_eq_ok_iff.mpr ⟨_, he, rfl⟩
    exact ⟨_, bind_eq_ok_iff.mpr ⟨_, hparts, bind_eq_ok_iff.mpr ⟨_, hnormal, rfl⟩⟩,
      hspans.normal⟩
  | _ => cases hshape

/-! ## Points -/

/-- Whether a point is at a position at an assignment. -/
def StandsAt (s : Sketch ℝ) (v : ParamId → ℝ) (k : EntityId) (p : Vec3 ℝ) : Prop :=
  ∃ e, s.pointExprs k = .ok e ∧ e.eval v = p

/-- A point is at one position. -/
theorem StandsAt.unique {q : Vec3 ℝ} (h : s.StandsAt v k p) (h' : s.StandsAt v k q) : p = q := by
  obtain ⟨e, he, rfl⟩ := h
  obtain ⟨e', he', rfl⟩ := h'
  cases he.symm.trans he'
  rfl

/-- Every point is somewhere. -/
theorem Linked.exists_standsAt (h : s.Linked) (hp : s.Placed)
    (hk : s.Meets g (k, Entity.isPoint)) : ∃ p, s.StandsAt v k p := by
  obtain ⟨e, he, _⟩ :=
    (h.shares hp (.refl _ _) (.refl _ _)).pointExprs (hk.offers (Nat.le_refl _))
  exact ⟨_, e, he, rfl⟩

/-- A point with given coordinates in the workplane that it is drawn in. -/
def PointAt (s : Sketch ℝ) (w k : EntityId) (u v : ParamId) : Prop :=
  ∃ e, s.entities.find? k = some e ∧ e.workplane = some w ∧ e.shape = .point2d u v

variable {pu pv au av bu bv : ParamId} {f : Frame ℝ}

/-- What will do as a point of a workplane is drawn in it. -/
theorem exists_pointAt (h : s.Meets g (k, Entity.isPointOf (some w))) :
    ∃ pu pv, s.PointAt w k pu pv := by
  obtain ⟨⟨id, j, wp, shape⟩, he, hkind, _⟩ := h
  obtain ⟨hpoint, hplane⟩ := Bool.and_eq_true_iff.mp hkind
  cases shape with
  | point2d u v => exact ⟨u, v, _, he, of_decide_eq_true hplane, rfl⟩
  | _ => cases hpoint

/-- In the workplane that it is drawn in, a point has its parameters as coordinates. -/
theorem PointAt.pointInWorkplane (h : s.PointAt w k pu pv) :
    s.pointInWorkplane k w = .ok (.param pu, .param pv) := by
  obtain ⟨⟨id, j, wp, shape⟩, he, rfl, rfl⟩ := h
  exact bind_eq_ok_iff.mpr ⟨_, entity_of_find? he, if_pos rfl⟩

/-- The position of a point that is drawn in a workplane. -/
theorem PointAt.pointExprs (h : s.PointAt w k pu pv) (hf : s.frame w = .ok f) :
    s.pointExprs k = .ok (f.origin + f.u.scale (.param pu) + f.v.scale (.param pv)) := by
  obtain ⟨⟨id, j, wp, shape⟩, he, rfl, rfl⟩ := h
  exact bind_eq_ok_iff.mpr ⟨_, entity_of_find? he, bind_eq_ok_iff.mpr ⟨_, rfl,
    bind_eq_ok_iff.mpr ⟨_, hf, rfl⟩⟩⟩

/-- The distance of two points of a workplane, as seen in it. -/
theorem PointAt.distanceExpr (ha : s.PointAt w a au av) (hb : s.PointAt w b bu bv) :
    s.distanceExpr (some w) a b =
      .ok (planeLength (.param au - .param bu) (.param av - .param bv)) :=
  bind_eq_ok_iff.mpr ⟨_, ha.pointInWorkplane, bind_eq_ok_iff.mpr ⟨_, hb.pointInWorkplane, rfl⟩⟩

/-- A point that is drawn in a workplane is at the point of its plane with its parameters as
coordinates. -/
theorem LiesAs.standsAt (h : s.LiesAs v w P) (hk : s.PointAt w k pu pv) :
    s.StandsAt v k (P.point (v pu) (v pv)) := by
  obtain ⟨f, hf, hspans⟩ := h
  refine ⟨_, hk.pointExprs hf, ?_⟩
  rw [Vec3.eval_add, Vec3.eval_add, Vec3.eval_scale, Vec3.eval_scale, hspans.origin, hspans.first,
    hspans.second]
  rfl

/-- What two points that are drawn in a workplane are apart is a displacement of its plane. -/
theorem LiesAs.exists_sub (h : s.LiesAs v w P) (ha : s.PointAt w a au av)
    (hb : s.PointAt w b bu bv) : ∃ ea eb, s.pointExprs a = .ok ea ∧ s.pointExprs b = .ok eb ∧
      (ea - eb).eval v = P.displacement (v au - v bu) (v av - v bv) := by
  obtain ⟨ea, hea, hpa⟩ := h.standsAt ha
  obtain ⟨eb, heb, hpb⟩ := h.standsAt hb
  refine ⟨ea, eb, hea, heb, ?_⟩
  rw [Vec3.eval_sub, hpa, hpb, Plane.point_sub_point]

/-- In a workplane, the coordinates of a point are what is seen of its position from the origin
along the two directions. -/
theorem LiesAs.exists_pointInWorkplane (h : s.LiesAs v w P) (hk : s.StandsAt v k p) :
    ∃ x y, s.pointInWorkplane k w = .ok (x, y) ∧ x.eval v = (p - P.origin).dot P.u ∧
      y.eval v = (p - P.origin).dot P.v := by
  obtain ⟨e, he, hp⟩ := hk
  obtain ⟨⟨id, j, wp, shape⟩, hentity, hshape⟩ := bind_eq_ok_iff.mp he
  by_cases hdrawn : ∃ pu pv, s.PointAt w k pu pv
  · obtain ⟨pu, pv, hdrawn⟩ := hdrawn
    obtain ⟨e', he', hp'⟩ := h.standsAt hdrawn
    cases he.symm.trans he'
    refine ⟨_, _, hdrawn.pointInWorkplane, ?_⟩
    rw [← hp, hp', Plane.point_sub_origin, Plane.displacement_dot_u, Plane.displacement_dot_v]
    exact ⟨rfl, rfl⟩
  · obtain ⟨f, hf, hspans⟩ := h
    have hmeasured : ((e - f.origin).dot f.u).eval v = (p - P.origin).dot P.u ∧
        ((e - f.origin).dot f.v).eval v = (p - P.origin).dot P.v := by
      rw [Vec3.eval_dot, Vec3.eval_dot, Vec3.eval_sub, hspans.origin, hspans.first, hspans.second,
        hp]
      exact ⟨rfl, rfl⟩
    refine ⟨_, _, bind_eq_ok_iff.mpr ⟨_, hentity, ?_⟩, hmeasured⟩
    cases shape with
    | point3d x y z => exact bind_eq_ok_iff.mpr ⟨_, hf, bind_eq_ok_iff.mpr ⟨_, he, rfl⟩⟩
    | point2d x y =>
      have hwp : wp ≠ some w := fun hwp ↦ hdrawn ⟨x, y, _, find?_of_entity hentity, hwp, rfl⟩
      exact (if_neg hwp).trans
        (bind_eq_ok_iff.mpr ⟨_, hf, bind_eq_ok_iff.mpr ⟨_, he, rfl⟩⟩)
    | _ => cases hshape

/-- The position in space of coordinates in a workplane is the point of its plane with them. -/
theorem LiesAs.exists_pointInSpace (h : s.LiesAs v w P) (x y : Expr ℝ) :
    ∃ e, s.pointInSpace w x y = .ok e ∧ e.eval v = P.point (x.eval v) (y.eval v) := by
  obtain ⟨f, hf, hspans⟩ := h
  refine ⟨_, bind_eq_ok_iff.mpr ⟨_, hf, rfl⟩, ?_⟩
  rw [Vec3.eval_add, Vec3.eval_add, Vec3.eval_scale, Vec3.eval_scale, hspans.origin, hspans.first,
    hspans.second]
  exact Plane.displacement_add_origin

/-- The distance of a position from a workplane is zero exactly if its plane has the position. -/
theorem LiesAs.exists_pointPlaneDistance (h : s.LiesAs v w P) (x : Vec3 (Expr ℝ)) :
    ∃ e, s.pointPlaneDistance x w = .ok e ∧ (e.eval v = 0 ↔ P.Contains (x.eval v)) := by
  obtain ⟨f, hf, hspans⟩ := h
  refine ⟨_, bind_eq_ok_iff.mpr ⟨_, hf, rfl⟩, ?_⟩
  rw [Expr.eval_sub, Vec3.eval_dot, Vec3.eval_dot, hspans.origin, hspans.normal, ← Vec3.sub_dot]
  rfl

/-! ## Lines and curves -/

/-- Whether an entity of some shape is drawn in a workplane. -/
def DrawnIn (s : Sketch ℝ) (w k : EntityId) (shape : Shape ParamId) : Prop :=
  ∃ e, s.entities.find? k = some e ∧ e.workplane = some w ∧ e.shape = shape

variable {shape : Shape ParamId}

/-- The points of what is drawn in a workplane are drawn in it as well. -/
theorem Linked.exists_pointAt (h : s.Linked) (hk : s.DrawnIn w k shape)
    (ha : (a, Entity.isPointOf (some w)) ∈ shape.demands (some w)) :
    ∃ pu pv, s.PointAt w a pu pv := by
  obtain ⟨⟨id, j, wp, _⟩, he, rfl, rfl⟩ := hk
  exact Sketch.exists_pointAt (h.entities k _ he _ (List.mem_append_right _ ha))

/-- The ends of a line that is drawn in a workplane are drawn in it as well. -/
theorem Linked.exists_ends (h : s.Linked) (hk : s.DrawnIn w k (.line a b)) :
    ∃ au av bu bv, s.PointAt w a au av ∧ s.PointAt w b bu bv := by
  obtain ⟨au, av, ha⟩ := h.exists_pointAt hk (a := a) (by simp [Shape.demands])
  obtain ⟨bu, bv, hb⟩ := h.exists_pointAt hk (a := b) (by simp [Shape.demands])
  exact ⟨au, av, bu, bv, ha, hb⟩

/-- The ends of a line are found. -/
theorem DrawnIn.linePoints (h : s.DrawnIn w k (.line a b)) : s.linePoints k = .ok (a, b) := by
  obtain ⟨⟨id, j, wp, _⟩, he, _, rfl⟩ := h
  exact bind_eq_ok_iff.mpr ⟨_, entity_of_find? he, rfl⟩

/-- The direction of a line is what its ends are apart. -/
theorem DrawnIn.vectorExprs (h : s.DrawnIn w k (.line a b)) {ea eb : Vec3 (Expr ℝ)}
    (ha : s.pointExprs a = .ok ea) (hb : s.pointExprs b = .ok eb) :
    s.vectorExprs k = .ok (ea - eb) := by
  obtain ⟨⟨id, j, wp, _⟩, he, _, rfl⟩ := h
  exact bind_eq_ok_iff.mpr ⟨_, entity_of_find? he,
    bind_eq_ok_iff.mpr ⟨_, ha, bind_eq_ok_iff.mpr ⟨_, hb, rfl⟩⟩⟩

/-- The direction of a line that is drawn in a workplane is a displacement of its plane, by what its
ends are apart. -/
theorem LiesAs.exists_vectorExprs (hP : s.LiesAs v w P) (h : s.Linked)
    (hk : s.DrawnIn w k (.line a b)) :
    ∃ d p q x y, s.vectorExprs k = .ok d ∧ s.StandsAt v a p ∧ s.StandsAt v b q ∧
      d.eval v = P.displacement x y ∧ p - q = P.displacement x y := by
  obtain ⟨au, av, bu, bv, ha, hb⟩ := h.exists_ends hk
  obtain ⟨ea, eb, hea, heb, hsub⟩ := hP.exists_sub ha hb
  exact ⟨_, _, _, _, _, hk.vectorExprs hea heb, hP.standsAt ha, hP.standsAt hb, hsub,
    Plane.point_sub_point⟩

/-! ## Normals of length one -/

/-- Drawing a normal of length one adds it as it is. -/
theorem step_draw_normal3d (la : LinearAlgebra ℝ) (s : Sketch ℝ) (g : GroupId)
    {q : Quaternion ℝ} (h : q.lengthSquared = 1) :
    s.step la (.draw g (.normal3d q)) = (s.addEntity g none (.normal3d q.w q.x q.y q.z)).2 := by
  have hnonzero : ¬ (q.lengthSquared == 0.0) = true := by
    rw [Arith.real_beq, h, Arith.real_zero]
    exact one_ne_zero
  have hdraw : s.draw g (.normal3d q) = .ok (s.addEntity g none
      (.normal3d q.normalize.w q.normalize.x q.normalize.y q.normalize.z)) :=
    bind_eq_ok_iff.mpr ⟨_, bind_eq_ok_iff.mpr ⟨(), rfl, if_neg hnonzero⟩, rfl⟩
  rw [step, Command.operation, Operation.left_map, Operation.left_change, hdraw,
    Quaternion.normalize_of_unit h]

end Sketch

/-- Values at which the normal that is drawn first in a sketch has length one. -/
noncomputable def tilted (p : ParamId) : ℝ := if p.index ≤ 4 then 0.5 else p.index

end SketchSolver
