import Mathlib.Tactic.LinearCombination
import SketchSolver.Proofs.Exact.Motion
import SketchSolver.Proofs.Exact.Workplanes

/-!
# Arcs

An arc has an equation of its own, which keeps its finish as far from its center as its start. The
equation is left out where a coincidence of its group brings the two ends together. Measured in
space, or in a workplane that is not at right angles to that of the arc, a coincidence brings them
to one place, and the radii are equal without the equation. Seen edge-on, two points of a workplane
coincide that are apart, and the arc opens.
-/

namespace SketchSolver

open Outcome

variable {v : ParamId → ℝ}

/-! ## Frames -/

/-- What two points of a plane are apart, seen in a direction. -/
theorem Vec3.dot_sub_dot (o a b o' d : Vec3 ℝ) (x y x' y' : ℝ) :
    (o + a.scale x + b.scale y - o').dot d - (o + a.scale x' + b.scale y' - o').dot d =
      (x - x') * a.dot d + (y - y') * b.dot d := by
  simp only [Vec3.dot, Vec3.scale, Vec3.add_def, Vec3.sub_def]
  ring

/-- Frames whose normal is the outer product of their directions and has length one. -/
structure Frame.IsRight (v : ParamId → ℝ) (f : Frame ℝ) : Prop where
  /-- The normal is the outer product of the directions. -/
  cross : (f.u.eval v).cross (f.v.eval v) = f.n.eval v
  /-- The normal has length one. -/
  unit : (f.n.eval v).dot (f.n.eval v) = 1

/-- A displacement in a plane that is not seen in another plane is none, unless the planes are at
right angles to each other. -/
theorem Frame.IsRight.eq_zero {f f' : Frame ℝ} (hf : f.IsRight v) (hf' : f'.IsRight v)
    (hangle : (f.n.eval v).dot (f'.n.eval v) ≠ 0) {x y : ℝ}
    (hu : x * (f.u.eval v).dot (f'.u.eval v) + y * (f.v.eval v).dot (f'.u.eval v) = 0)
    (hv : x * (f.u.eval v).dot (f'.v.eval v) + y * (f.v.eval v).dot (f'.v.eval v) = 0) :
    x = 0 ∧ y = 0 := by
  rw [← hf.cross, ← hf'.cross, Vec3.dot_cross_cross] at hangle
  -- The cosine of the angle is the determinant of the two equations.
  constructor
  · refine (mul_eq_zero.mp ?_).resolve_left hangle
    linear_combination
      (f.v.eval v).dot (f'.v.eval v) * hu - (f.v.eval v).dot (f'.u.eval v) * hv
  · refine (mul_eq_zero.mp ?_).resolve_left hangle
    linear_combination
      (f.u.eval v).dot (f'.u.eval v) * hv - (f.u.eval v).dot (f'.v.eval v) * hu

namespace Quaternion

variable {q : Quaternion (Expr ℝ)}

/-- The outer product of the directions of a unit quaternion is its normal. -/
theorem cross_rotation (h : (q.eval v).lengthSquared = 1) :
    (q.rotationU.eval v).cross (q.rotationV.eval v) = q.rotationN.eval v := by
  rw [eval_rotationU, eval_rotationV, eval_rotationN, cross_axes h]

/-- The normal of a unit quaternion has length one. -/
theorem dot_rotationN (h : (q.eval v).lengthSquared = 1) :
    (q.rotationN.eval v).dot (q.rotationN.eval v) = 1 := by
  obtain ⟨hu, hv, huv⟩ := orthonormal_axes h
  rw [eval_rotationN, ← cross_axes h, Vec3.dot_cross_cross, hu, hv, huv, one_mul, zero_mul,
    sub_zero]

end Quaternion

/-! ## Joined points -/

/-- Whether a constraint brings two points together. -/
def Constraint.Joins {R : Type} (a b : EntityId) (c : Constraint R) : Prop :=
  c.relation = .pointsCoincident a b ∨ c.relation = .pointsCoincident b a

/-- Two points are joined exactly if a constraint brings them together. -/
theorem Sketch.areJoined_iff {R : Type} {s : Sketch R} {g : GroupId} {a b : EntityId} :
    s.areJoined g a b = true ↔ ∃ c ∈ s.constraintsIn g, c.Joins a b := by
  rw [areJoined, List.any_eq_true]
  refine exists_congr fun c ↦ and_congr_right fun _ ↦ ?_
  unfold Constraint.Joins
  cases c.relation <;> simp

/-! ## Assignments of exact values -/

/-- Whether all expressions that are answered are zero at an assignment. -/
def VanishAt (v : ParamId → ℝ) (x : Outcome ℝ (List (Expr ℝ))) : Prop :=
  ∀ es, x = .ok es → ∀ e ∈ es, e.eval v = 0

namespace Sketch

/-- Whether the quaternions of all free normals have length one at an assignment. -/
def UnitNormals (s : Sketch ℝ) (v : ParamId → ℝ) : Prop :=
  ∀ k e w x y z, s.entities.find? k = some e → e.shape = .normal3d w x y z →
    ((Quaternion.ofParams w x y z).eval v).lengthSquared = 1

/-- Assignments at which all equations of a group are zero. -/
structure SatisfiedAt (s : Sketch ℝ) (g : GroupId) (v : ParamId → ℝ) : Prop where
  /-- The equations of its constraints are. -/
  constraints : ∀ c ∈ s.constraintsIn g, VanishAt v (c.equations s)
  /-- What its entities need to stay well formed is. -/
  entities : ∀ e ∈ s.entitiesIn g, VanishAt v (s.entityEquations e)

/-- Whether two points of a workplane are equally far from a third one, as seen in it. -/
def EqualRadii (s : Sketch ℝ) (v : ParamId → ℝ) (wp : Option EntityId)
    (center start finish : EntityId) : Prop :=
  ∃ toStart toFinish, s.distanceExpr wp center start = .ok toStart ∧
    s.distanceExpr wp center finish = .ok toFinish ∧ toStart.eval v = toFinish.eval v

/-- Whether two workplanes are at right angles to each other. -/
def AtRightAngles (s : Sketch ℝ) (v : ParamId → ℝ) (a b : Option EntityId) : Prop :=
  ∃ wa wb fa fb, a = some wa ∧ b = some wb ∧ s.frame wa = .ok fa ∧ s.frame wb = .ok fb ∧
    (fa.n.eval v).dot (fb.n.eval v) = 0

variable {s : Sketch ℝ} {g : GroupId} {w : EntityId}

private theorem frame_eq_ok {hw ho hn origin normal : EntityId} {gw go gn : GroupId}
    {pw po pn : Option EntityId} {x y z qw qx qy qz : ParamId}
    (hfind : s.entities.find? w = some ⟨hw, gw, pw, .workplane origin normal⟩)
    (horigin : s.entities.find? origin = some ⟨ho, go, po, .point3d x y z⟩)
    (hnormal : s.entities.find? normal = some ⟨hn, gn, pn, .normal3d qw qx qy qz⟩) :
    s.frame w = .ok
      { origin := .ofParams x y z
        u := (Quaternion.ofParams qw qx qy qz).rotationU
        v := (Quaternion.ofParams qw qx qy qz).rotationV
        n := (Quaternion.ofParams qw qx qy qz).rotationN } := by
  have hparts : s.workplaneParts w = .ok (origin, normal) :=
    bind_eq_ok_iff.mpr ⟨_, entity_of_find? hfind, rfl⟩
  have hquaternion : s.normal3dQuaternion normal = .ok (.ofParams qw qx qy qz) :=
    bind_eq_ok_iff.mpr ⟨_, entity_of_find? hnormal, rfl⟩
  have hposition : s.point3dExprs origin = .ok (.ofParams x y z) :=
    bind_eq_ok_iff.mpr ⟨_, entity_of_find? horigin, rfl⟩
  exact bind_eq_ok_iff.mpr ⟨_, hparts,
    bind_eq_ok_iff.mpr ⟨_, hquaternion, bind_eq_ok_iff.mpr ⟨_, hposition, rfl⟩⟩⟩

/-- Where all normals have length one, the frame of a workplane is right. -/
theorem Linked.exists_frame (h : s.Linked) (hunits : s.UnitNormals v)
    (hw : s.Meets g (w, Entity.isWorkplane)) : ∃ f, s.frame w = .ok f ∧ f.IsRight v := by
  obtain ⟨⟨id, j, wp, shape⟩, he, hkind, _⟩ := hw
  cases shape with
  | workplane origin normal =>
    have hdemands := h.entities w _ he
    obtain ⟨⟨_, _, _, oshape⟩, ho, hpoint, _⟩ :=
      hdemands (origin, Entity.isPoint3d) (by simp [Entity.demands, Shape.demands])
    obtain ⟨⟨_, _, _, nshape⟩, hn, hnormal, _⟩ :=
      hdemands (normal, Entity.isNormal3d) (by simp [Entity.demands, Shape.demands])
    cases oshape with
    | point3d x y z =>
      cases nshape with
      | normal3d qw qx qy qz =>
        have hunit := hunits normal _ qw qx qy qz hn rfl
        exact ⟨_, frame_eq_ok he ho hn, Quaternion.cross_rotation hunit,
          Quaternion.dot_rotationN hunit⟩
      | _ => cases hnormal
    | _ => cases hpoint
  | _ => cases hkind

variable {k a b : EntityId} {pu pv au av bu bv : ParamId} {f : Frame ℝ}

/-- In another workplane, the coordinates of a point are measured. -/
theorem PointAt.pointInWorkplane_of_ne (h : s.PointAt w k pu pv) (hf : s.frame w = .ok f)
    {w' : EntityId} {f' : Frame ℝ} (hne : w ≠ w') (hf' : s.frame w' = .ok f') :
    s.pointInWorkplane k w' =
      .ok ((f.origin + f.u.scale (.param pu) + f.v.scale (.param pv) - f'.origin).dot f'.u,
        (f.origin + f.u.scale (.param pu) + f.v.scale (.param pv) - f'.origin).dot f'.v) := by
  have hposition := h.pointExprs hf
  obtain ⟨⟨id, j, wp, shape⟩, he, rfl, rfl⟩ := h
  refine bind_eq_ok_iff.mpr ⟨_, entity_of_find? he, ?_⟩
  refine (if_neg fun hsame ↦ hne (Option.some.inj hsame)).trans ?_
  exact bind_eq_ok_iff.mpr ⟨_, hf', bind_eq_ok_iff.mpr ⟨_, hposition, rfl⟩⟩

/-! ## Coincidences -/

variable {c : Constraint ℝ} {f' : Frame ℝ}

private theorem equations_coincident (hc : c.relation = .pointsCoincident a b)
    (hwp : c.workplane = some w) {ea eb : Expr ℝ × Expr ℝ} (ha : s.pointInWorkplane a w = .ok ea)
    (hb : s.pointInWorkplane b w = .ok eb) :
    c.equations s = .ok [ea.1 - eb.1, ea.2 - eb.2] := by
  obtain ⟨id, j, wp, relation⟩ := c
  cases hc
  cases hwp
  exact bind_eq_ok_iff.mpr ⟨_, ha, bind_eq_ok_iff.mpr ⟨_, hb, rfl⟩⟩

private theorem eval_eq_of_coincident (hc : c.relation = .pointsCoincident a b)
    (hwp : c.workplane = some w) {ea eb : Expr ℝ × Expr ℝ} (ha : s.pointInWorkplane a w = .ok ea)
    (hb : s.pointInWorkplane b w = .ok eb) (hzero : VanishAt v (c.equations s)) :
    ea.1.eval v = eb.1.eval v ∧ ea.2.eval v = eb.2.eval v := by
  have hall := hzero _ (equations_coincident hc hwp ha hb)
  simp only [List.forall_mem_cons, Expr.eval_sub] at hall
  exact ⟨sub_eq_zero.mp hall.1, sub_eq_zero.mp hall.2.1⟩

private theorem eval_eq_of_coincident_space (hc : c.relation = .pointsCoincident a b)
    (hwp : c.workplane = none) {pa pb : Vec3 (Expr ℝ)} (ha : s.pointExprs a = .ok pa)
    (hb : s.pointExprs b = .ok pb) (hzero : VanishAt v (c.equations s)) :
    pa.eval v = pb.eval v := by
  obtain ⟨id, j, wp, relation⟩ := c
  cases hc
  cases hwp
  have hall := hzero (pa - pb).toList
    (bind_eq_ok_iff.mpr ⟨_, ha, bind_eq_ok_iff.mpr ⟨_, hb, rfl⟩⟩)
  simp only [Vec3.toList, Vec3.sub_def, List.forall_mem_cons, Expr.eval_sub] at hall
  obtain ⟨hx, hy, hz, _⟩ := hall
  simp only [Vec3.eval, Vec3.map, sub_eq_zero.mp hx, sub_eq_zero.mp hy, sub_eq_zero.mp hz]

private theorem eq_of_coincident_space (ha : s.PointAt w a au av) (hb : s.PointAt w b bu bv)
    (hf : s.frame w = .ok f) (hright : f.IsRight v) (hc : c.relation = .pointsCoincident a b)
    (hwp : c.workplane = none) (hzero : VanishAt v (c.equations s)) :
    v au = v bu ∧ v av = v bv := by
  have hsame :=
    eval_eq_of_coincident_space hc hwp (ha.pointExprs hf) (hb.pointExprs hf) hzero
  have hunit : (f.n.eval v).dot (f.n.eval v) ≠ 0 := by
    rw [hright.unit]
    exact one_ne_zero
  -- What is at one place is so in every direction, also in those of the workplane.
  have hseen : ∀ d : Vec3 ℝ,
      (v au - v bu) * (f.u.eval v).dot d + (v av - v bv) * (f.v.eval v).dot d = 0 := by
    intro d
    rw [← Vec3.dot_sub_dot (f.origin.eval v) _ _ (f.origin.eval v)]
    exact sub_eq_zero.mpr (congrArg (fun p ↦ (p - f.origin.eval v).dot d) hsame)
  obtain ⟨hu, hv⟩ := hright.eq_zero hright hunit (hseen _) (hseen _)
  exact ⟨sub_eq_zero.mp hu, sub_eq_zero.mp hv⟩

private theorem eq_of_coincident_ne (ha : s.PointAt w a au av) (hb : s.PointAt w b bu bv)
    (hf : s.frame w = .ok f) (hright : f.IsRight v) {w' : EntityId} (hne : w ≠ w')
    (hf' : s.frame w' = .ok f') (hright' : f'.IsRight v)
    (hangle : (f.n.eval v).dot (f'.n.eval v) ≠ 0)
    (hc : c.relation = .pointsCoincident a b) (hwp : c.workplane = some w')
    (hzero : VanishAt v (c.equations s)) :
    v au = v bu ∧ v av = v bv := by
  obtain ⟨hu, hv⟩ := eval_eq_of_coincident hc hwp
    (ha.pointInWorkplane_of_ne hf hne hf') (hb.pointInWorkplane_of_ne hf hne hf') hzero
  rw [← sub_eq_zero, Vec3.eval_dot, Vec3.eval_dot] at hu hv
  simp only [Vec3.eval_sub, Vec3.eval_add, Vec3.eval_scale, Vec3.dot_sub_dot,
    Expr.eval_param] at hu hv
  obtain ⟨hx, hy⟩ := hright.eq_zero hright' hangle hu hv
  exact ⟨sub_eq_zero.mp hx, sub_eq_zero.mp hy⟩

/-- Points of a workplane that coincide are at one place in it, unless they do so in a workplane at
right angles to it. -/
theorem Linked.eq_or_atRightAngles (h : s.Linked) (hunits : s.UnitNormals v)
    (hw : s.Meets g (w, Entity.isWorkplane)) (ha : s.PointAt w a au av) (hb : s.PointAt w b bu bv)
    {k : ConstraintId} (hk : s.constraints.find? k = some c)
    (hc : c.relation = .pointsCoincident a b) (hzero : VanishAt v (c.equations s)) :
    (v au = v bu ∧ v av = v bv) ∨ s.AtRightAngles v (some w) c.workplane := by
  obtain ⟨f, hf, hright⟩ := h.exists_frame hunits hw
  cases hwp : c.workplane with
  | none => exact .inl (eq_of_coincident_space ha hb hf hright hc hwp hzero)
  | some w' =>
    by_cases hsame : w = w'
    · subst hsame
      exact .inl (eval_eq_of_coincident hc hwp ha.pointInWorkplane hb.pointInWorkplane hzero)
    · have hw' : s.Meets c.group (w', Entity.isWorkplane) :=
        h.constraints k c hk _ (by simp [Constraint.demands, workplaneDemands, hwp])
      obtain ⟨f', hf', hright'⟩ := h.exists_frame hunits hw'
      by_cases hangle : (f.n.eval v).dot (f'.n.eval v) = 0
      · exact .inr ⟨w, w', f, f', rfl, rfl, hf, hf', hangle⟩
      · exact .inl (eq_of_coincident_ne ha hb hf hright hsame hf' hright' hangle hc hwp hzero)

/-! ## The ends of an arc -/

/-- Whether the ends of an arc are brought together, but only as seen in workplanes at right angles
to its own. -/
structure JoinedEdgeOn (s : Sketch ℝ) (v : ParamId → ℝ) (arc : Entity)
    (start finish : EntityId) : Prop where
  /-- They are brought together in the group of the arc. -/
  joined : ∃ c ∈ s.constraintsIn arc.group, c.Joins start finish
  /-- Each constraint that does so is measured at right angles to the arc. -/
  edgeOn : ∀ c ∈ s.constraintsIn arc.group, c.Joins start finish →
    s.AtRightAngles v arc.workplane c.workplane

variable {arc : Entity} {normal center start finish : EntityId} {cu cv su sv fu fv : ParamId}

private theorem equalRadii_of_eq (hcenter : s.PointAt w center cu cv)
    (hstart : s.PointAt w start su sv) (hfinish : s.PointAt w finish fu fv)
    (hsame : v su = v fu ∧ v sv = v fv) : s.EqualRadii v (some w) center start finish := by
  refine ⟨_, _, hcenter.distanceExpr hstart, hcenter.distanceExpr hfinish, ?_⟩
  simp only [planeLength, Expr.eval_sqrt, Expr.eval_add, Expr.eval_square, Expr.eval_sub,
    Expr.eval_param, hsame.1, hsame.2]

private theorem equalRadii_of_not_areJoined (harc : arc.shape = .arc normal center start finish)
    (hwp : arc.workplane = some w) (hcenter : s.PointAt w center cu cv)
    (hstart : s.PointAt w start su sv) (hfinish : s.PointAt w finish fu fv)
    (hjoined : s.areJoined arc.group start finish = false)
    (hzero : VanishAt v (s.entityEquations arc)) : s.EqualRadii v (some w) center start finish := by
  obtain ⟨id, j, wp, shape⟩ := arc
  cases harc
  cases hwp
  have htoStart := hcenter.distanceExpr hstart
  have htoFinish := hcenter.distanceExpr hfinish
  obtain ⟨e, he, _, hshape⟩ := hcenter
  have hdrawn : (!e.isPoint2d || s.areJoined j start finish) ≠ true := by
    rw [hjoined, Entity.isPoint2d, hshape]
    exact Bool.false_ne_true
  have hall := hzero _ (bind_eq_ok_iff.mpr ⟨e, entity_of_find? he, (if_neg hdrawn).trans
    (bind_eq_ok_iff.mpr ⟨_, htoStart, bind_eq_ok_iff.mpr ⟨_, htoFinish, rfl⟩⟩)⟩)
  exact ⟨_, _, htoStart, htoFinish, sub_eq_zero.mp (hall _ List.mem_cons_self)⟩

/-- Where all normals have length one and all equations of its group are zero, an arc has equal
radii, unless its ends are brought together only as seen in workplanes at right angles to its
own. -/
theorem equalRadii_or_joinedEdgeOn {la : LinearAlgebra ℝ} (hs : s.Reachable la)
    (hk : s.entities.find? k = some arc) (harc : arc.shape = .arc normal center start finish)
    (hunits : s.UnitNormals v) (hsatisfied : s.SatisfiedAt arc.group v) :
    s.EqualRadii v arc.workplane center start finish ∨ s.JoinedEdgeOn v arc start finish := by
  obtain ⟨hlinked, hplaced⟩ := hs.linked_placed
  have hmet := hlinked.entities k arc hk
  have hfits := hplaced.entities k arc hk
  rw [Entity.isPlaced, harc] at hfits
  obtain ⟨w, hwp⟩ := Option.isSome_iff_exists.mp hfits
  simp only [Entity.demands, harc, hwp, workplaneDemands, Shape.demands, Option.toList_some,
    List.map_cons, List.map_nil, List.cons_append, List.nil_append, MeetsAll,
    List.forall_mem_cons] at hmet
  obtain ⟨hw, _, hcenter, hstart, hfinish, _⟩ := hmet
  obtain ⟨cu, cv, hcenter⟩ := exists_pointAt hcenter
  obtain ⟨su, sv, hstart⟩ := exists_pointAt hstart
  obtain ⟨fu, fv, hfinish⟩ := exists_pointAt hfinish
  have hmem : arc ∈ s.entitiesIn arc.group :=
    List.mem_filter.mpr ⟨Table.mem_values_iff.mpr ⟨k, hk⟩, beq_self_eq_true _⟩
  rw [hwp]
  cases hjoined : s.areJoined arc.group start finish with
  | false =>
    exact .inl (equalRadii_of_not_areJoined harc hwp hcenter hstart hfinish hjoined
      (hsatisfied.entities arc hmem))
  | true =>
    by_cases hsame : v su = v fu ∧ v sv = v fv
    · exact .inl (equalRadii_of_eq hcenter hstart hfinish hsame)
    · refine .inr ⟨areJoined_iff.mp hjoined, fun c hc hjoins ↦ ?_⟩
      obtain ⟨i, hi⟩ := Table.mem_values_iff.mp (List.mem_filter.mp hc).1
      have hzero := hsatisfied.constraints c hc
      rw [hwp]
      rcases hjoins with hrelation | hrelation
      · exact (hlinked.eq_or_atRightAngles hunits hw hstart hfinish hi hrelation
          hzero).resolve_left hsame
      · exact (hlinked.eq_or_atRightAngles hunits hw hfinish hstart hi hrelation
          hzero).resolve_left fun heq ↦ hsame ⟨heq.1.symm, heq.2.symm⟩

end Sketch

/-! ## An arc that opens -/

private theorem vanishAt_nil : VanishAt v (.ok []) := by
  rintro _ ⟨⟩ e he
  exact absurd he List.not_mem_nil

private theorem vanishAt_entityEquations {s : Sketch ℝ} {k : EntityId} {e : Entity}
    (hunits : s.UnitNormals v) (hk : s.entities.find? k = some e)
    (harc : e.isArc = true → VanishAt v (s.entityEquations e)) :
    VanishAt v (s.entityEquations e) := by
  obtain ⟨id, g, wp, shape⟩ := e
  cases shape with
  | normal3d w x y z =>
    rintro _ ⟨⟩ e he
    rw [List.mem_singleton.mp he]
    have hsquares : v w * v w + v x * v x + v y * v y + v z * v z = 1 := by
      refine Eq.trans ?_ (hunits k _ w x y z hk rfl)
      simp only [Quaternion.lengthSquared, Quaternion.eval, Quaternion.map, Quaternion.ofParams,
        Expr.eval_param]
      ring
    change √(v w * v w + v x * v x + v y * v y + v z * v z) - 1.0 = 0
    rw [hsquares, Real.sqrt_one, Arith.real_one, sub_self]
  | arc => exact harc rfl
  | _ => exact vanishAt_nil

/-- An arc in one of two workplanes at right angles, whose ends are brought together as seen in the
other one. -/
noncomputable def arcSeenEdgeOn : Sketch ℝ :=
  (Sketch.empty .default).runAll .exact
    [.draw ⟨1⟩ (.normal3d ⟨1.0, 0.0, 0.0, 0.0⟩), .draw ⟨1⟩ (.point3d ⟨0.0, 0.0, 0.0⟩),
      .draw ⟨1⟩ (.workplane ⟨2⟩ ⟨1⟩), .draw ⟨1⟩ (.normal3d ⟨0.5, 0.5, 0.5, 0.5⟩),
      .draw ⟨1⟩ (.workplane ⟨2⟩ ⟨4⟩), .draw ⟨1⟩ (.point2d ⟨3⟩ 0.0 0.0),
      .draw ⟨1⟩ (.point2d ⟨3⟩ 1.0 0.0), .draw ⟨1⟩ (.point2d ⟨3⟩ 2.0 0.0),
      .draw ⟨1⟩ (.arc ⟨3⟩ ⟨1⟩ ⟨6⟩ ⟨7⟩ ⟨8⟩),
      .relate ⟨1⟩ (.coincident ⟨7⟩ ⟨8⟩ (some ⟨5⟩))]

/-- The arc. -/
def edgeOnArc : Entity := ⟨⟨9⟩, ⟨1⟩, some ⟨3⟩, .arc ⟨1⟩ ⟨6⟩ ⟨7⟩ ⟨8⟩⟩

/-- Values at which both normals have length one, the start of the arc is at distance one from its
center and its finish lies behind the start. -/
noncomputable def finishAt (u : ℝ) : ParamId → ℝ
  | ⟨1⟩ => 1
  | ⟨8⟩ => 0.5
  | ⟨9⟩ => 0.5
  | ⟨10⟩ => 0.5
  | ⟨11⟩ => 0.5
  | ⟨14⟩ => 1
  | ⟨16⟩ => u
  | _ => 0

private theorem reachable_arcSeenEdgeOn : arcSeenEdgeOn.Reachable .exact := ⟨.default, _, rfl⟩

private theorem contents_arcSeenEdgeOn : arcSeenEdgeOn.entities.values =
    [⟨⟨1⟩, ⟨1⟩, none, .normal3d ⟨1⟩ ⟨2⟩ ⟨3⟩ ⟨4⟩⟩, ⟨⟨2⟩, ⟨1⟩, none, .point3d ⟨5⟩ ⟨6⟩ ⟨7⟩⟩,
      ⟨⟨3⟩, ⟨1⟩, none, .workplane ⟨2⟩ ⟨1⟩⟩, ⟨⟨4⟩, ⟨1⟩, none, .normal3d ⟨8⟩ ⟨9⟩ ⟨10⟩ ⟨11⟩⟩,
      ⟨⟨5⟩, ⟨1⟩, none, .workplane ⟨2⟩ ⟨4⟩⟩, ⟨⟨6⟩, ⟨1⟩, some ⟨3⟩, .point2d ⟨12⟩ ⟨13⟩⟩,
      ⟨⟨7⟩, ⟨1⟩, some ⟨3⟩, .point2d ⟨14⟩ ⟨15⟩⟩, ⟨⟨8⟩, ⟨1⟩, some ⟨3⟩, .point2d ⟨16⟩ ⟨17⟩⟩,
      edgeOnArc] ∧
    arcSeenEdgeOn.constraints.values =
      [⟨⟨1⟩, ⟨1⟩, some ⟨5⟩, .pointsCoincident ⟨7⟩ ⟨8⟩⟩] := by
  have hfirst : (⟨1.0, 0.0, 0.0, 0.0⟩ : Quaternion ℝ).lengthSquared = 1 := by
    norm_num [Quaternion.lengthSquared]
  have hsecond : (⟨0.5, 0.5, 0.5, 0.5⟩ : Quaternion ℝ).lengthSquared = 1 := by
    norm_num [Quaternion.lengthSquared]
  rw [arcSeenEdgeOn, Sketch.runAll, List.foldl_cons, Sketch.step_draw_normal3d _ _ _ hfirst,
    List.foldl_cons, List.foldl_cons, List.foldl_cons, Sketch.step_draw_normal3d _ _ _ hsecond]
  exact ⟨rfl, rfl⟩

private theorem find?_arcSeenEdgeOn :
    ∀ e ∈ arcSeenEdgeOn.entities.values, arcSeenEdgeOn.entities.find? e.id = some e :=
  reachable_arcSeenEdgeOn.wellNumbered.entities.find?_of_mem

private theorem find?_edgeOnArc : arcSeenEdgeOn.entities.find? ⟨9⟩ = some edgeOnArc := by
  apply find?_arcSeenEdgeOn edgeOnArc
  simp [contents_arcSeenEdgeOn.1]

private theorem unitNormals_arcSeenEdgeOn (u : ℝ) : arcSeenEdgeOn.UnitNormals (finishAt u) := by
  intro k e w x y z he hshape
  have hmem := Table.mem_values_iff.mpr ⟨k, he⟩
  rw [contents_arcSeenEdgeOn.1] at hmem
  simp only [List.mem_cons, List.not_mem_nil, or_false] at hmem
  rcases hmem with rfl | rfl | rfl | rfl | rfl | rfl | rfl | rfl | rfl <;> cases hshape
  · norm_num [Quaternion.lengthSquared, Quaternion.eval, Quaternion.map, Quaternion.ofParams,
      finishAt]
  · norm_num [Quaternion.lengthSquared, Quaternion.eval, Quaternion.map, Quaternion.ofParams,
      finishAt]

private theorem points_arcSeenEdgeOn : arcSeenEdgeOn.PointAt ⟨3⟩ ⟨6⟩ ⟨12⟩ ⟨13⟩ ∧
    arcSeenEdgeOn.PointAt ⟨3⟩ ⟨7⟩ ⟨14⟩ ⟨15⟩ ∧ arcSeenEdgeOn.PointAt ⟨3⟩ ⟨8⟩ ⟨16⟩ ⟨17⟩ := by
  have hfind := find?_arcSeenEdgeOn
  simp only [contents_arcSeenEdgeOn.1, List.forall_mem_cons] at hfind
  obtain ⟨_, _, _, _, _, hcenter, hstart, hfinish, _⟩ := hfind
  exact ⟨⟨_, hcenter, rfl, rfl⟩, ⟨_, hstart, rfl, rfl⟩, ⟨_, hfinish, rfl, rfl⟩⟩

private theorem frames_arcSeenEdgeOn : ∃ f f', arcSeenEdgeOn.frame ⟨3⟩ = .ok f ∧
    arcSeenEdgeOn.frame ⟨5⟩ = .ok f' ∧ ∀ u,
      (f.u.eval (finishAt u)).dot (f'.u.eval (finishAt u)) = 0 ∧
      (f.u.eval (finishAt u)).dot (f'.v.eval (finishAt u)) = 0 := by
  have hfind := find?_arcSeenEdgeOn
  simp only [contents_arcSeenEdgeOn.1, List.forall_mem_cons] at hfind
  obtain ⟨hnormal, horigin, hplane, hnormal', hplane', _⟩ := hfind
  refine ⟨_, _, Sketch.frame_eq_ok hplane horigin hnormal,
    Sketch.frame_eq_ok hplane' horigin hnormal', fun u ↦ ⟨?_, ?_⟩⟩
  · norm_num [Vec3.dot, Vec3.eval, Vec3.map, Quaternion.rotationU, Quaternion.twice,
      Quaternion.ofParams, finishAt, Arith.real_two]
  · norm_num [Vec3.dot, Vec3.eval, Vec3.map, Quaternion.rotationU, Quaternion.rotationV,
      Quaternion.twice, Quaternion.ofParams, finishAt, Arith.real_two]

private theorem satisfiedAt_arcSeenEdgeOn (u : ℝ) :
    arcSeenEdgeOn.SatisfiedAt ⟨1⟩ (finishAt u) where
  constraints c hc := by
    have hmem := (List.mem_filter.mp hc).1
    rw [contents_arcSeenEdgeOn.2, List.mem_singleton] at hmem
    subst hmem
    obtain ⟨_, hstart, hfinish⟩ := points_arcSeenEdgeOn
    obtain ⟨f, f', hf, hf', hangles⟩ := frames_arcSeenEdgeOn
    have hne : (⟨3⟩ : EntityId) ≠ ⟨5⟩ := by decide
    intro es hes
    rw [Sketch.equations_coincident rfl rfl (hstart.pointInWorkplane_of_ne hf hne hf')
      (hfinish.pointInWorkplane_of_ne hf hne hf')] at hes
    cases hes
    -- The finish is behind the start, and that direction is not seen in the other workplane.
    have hv : finishAt u ⟨15⟩ - finishAt u ⟨17⟩ = 0 := sub_self 0
    simp [Vec3.eval_dot, Vec3.eval_sub, Vec3.eval_add, Vec3.eval_scale, Vec3.dot_sub_dot,
      hangles u, hv]
  entities e he := by
    have hmem := (List.mem_filter.mp he).1
    refine vanishAt_entityEquations (unitNormals_arcSeenEdgeOn u) (find?_arcSeenEdgeOn e hmem)
      fun harc ↦ ?_
    rw [contents_arcSeenEdgeOn.1] at hmem
    simp only [List.mem_cons, List.not_mem_nil, or_false] at hmem
    rcases hmem with rfl | rfl | rfl | rfl | rfl | rfl | rfl | rfl | rfl <;> cases harc
    have hjoined : arcSeenEdgeOn.areJoined ⟨1⟩ ⟨7⟩ ⟨8⟩ = true := by
      rw [Sketch.areJoined, Sketch.constraintsIn, contents_arcSeenEdgeOn.2]
      rfl
    obtain ⟨⟨center, hcenter, _⟩, _⟩ := points_arcSeenEdgeOn
    have hequations : arcSeenEdgeOn.entityEquations edgeOnArc = .ok [] :=
      bind_eq_ok_iff.mpr ⟨center, Sketch.entity_of_find? hcenter,
        if_pos (Bool.or_eq_true_iff.mpr (.inr hjoined))⟩
    rw [hequations]
    exact vanishAt_nil

/-- Where the finish of the arc is at its start, all equations of its group are zero, and what is
said of such an arc holds. -/
theorem equalRadii_or_joinedEdgeOn_arcSeenEdgeOn :
    arcSeenEdgeOn.Reachable .exact ∧ arcSeenEdgeOn.UnitNormals (finishAt 1) ∧
      arcSeenEdgeOn.SatisfiedAt ⟨1⟩ (finishAt 1) ∧
      (arcSeenEdgeOn.EqualRadii (finishAt 1) (some ⟨3⟩) ⟨6⟩ ⟨7⟩ ⟨8⟩ ∨
        arcSeenEdgeOn.JoinedEdgeOn (finishAt 1) edgeOnArc ⟨7⟩ ⟨8⟩) :=
  ⟨reachable_arcSeenEdgeOn, unitNormals_arcSeenEdgeOn 1, satisfiedAt_arcSeenEdgeOn 1,
    Sketch.equalRadii_or_joinedEdgeOn reachable_arcSeenEdgeOn find?_edgeOnArc rfl
      (unitNormals_arcSeenEdgeOn 1) (satisfiedAt_arcSeenEdgeOn 1)⟩

/-- Where the finish of the arc is twice as far from its center as its start, all equations of its
group are zero as well. -/
theorem not_equalRadii_arcSeenEdgeOn :
    arcSeenEdgeOn.Reachable .exact ∧ arcSeenEdgeOn.entities.find? ⟨9⟩ = some edgeOnArc ∧
      arcSeenEdgeOn.UnitNormals (finishAt 2) ∧ arcSeenEdgeOn.SatisfiedAt ⟨1⟩ (finishAt 2) ∧
      ¬ arcSeenEdgeOn.EqualRadii (finishAt 2) (some ⟨3⟩) ⟨6⟩ ⟨7⟩ ⟨8⟩ := by
  refine ⟨reachable_arcSeenEdgeOn, find?_edgeOnArc, unitNormals_arcSeenEdgeOn 2,
    satisfiedAt_arcSeenEdgeOn 2, ?_⟩
  rintro ⟨toStart, toFinish, hstart, hfinish, hequal⟩
  obtain ⟨hcenter, hpoint, hpoint'⟩ := points_arcSeenEdgeOn
  cases (hcenter.distanceExpr hpoint).symm.trans hstart
  cases (hcenter.distanceExpr hpoint').symm.trans hfinish
  change √((0 - 1) * (0 - 1) + (0 - 0) * (0 - 0)) =
    √((0 - 2) * (0 - 2) + (0 - 0) * (0 - 0)) at hequal
  rw [Real.sqrt_inj (by norm_num) (by norm_num)] at hequal
  norm_num at hequal

end SketchSolver
