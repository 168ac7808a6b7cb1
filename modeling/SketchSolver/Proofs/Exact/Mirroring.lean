import SketchSolver.Proofs.Exact.Motion
import SketchSolver.Proofs.Exact.Workplanes

/-!
# Mirroring

The equations of a symmetry are zero exactly if one point is the mirror image of the other. At a
plane in space this is said by the middle between the points and by what is seen of them in the
plane. Within a workplane a mirror is a line: the one where another plane meets it, the line through
the ends of a segment, or one of its axes. Each time one equation keeps what the points are apart at
right angles to the mirror and another one keeps the middle between them on it.
-/

namespace SketchSolver

open Outcome

variable {v : ParamId → ℝ}

/-- Whether a constraint is written as equations that are all zero at an assignment exactly if
something is so. -/
def Constraint.States (c : Constraint ℝ) (s : Sketch ℝ) (v : ParamId → ℝ) (p : Prop) : Prop :=
  ∃ es, c.equations s = .ok es ∧ ((∀ e ∈ es, e.eval v = 0) ↔ p)

/-- Two equations say what it means for both of them to be zero. -/
theorem Constraint.States.of_pair {c : Constraint ℝ} {s : Sketch ℝ} {p : Prop} {x y : Expr ℝ}
    (h : c.equations s = .ok [x, y]) (hp : x.eval v = 0 ∧ y.eval v = 0 ↔ p) : c.States s v p := by
  refine ⟨_, h, ?_⟩
  rw [List.forall_mem_cons, List.forall_mem_singleton]
  exact hp

namespace Sketch

variable {s : Sketch ℝ} {c : Constraint ℝ} {a b m w line la lb : EntityId} {P M : Plane}
  {p q : Vec3 ℝ} {au av bu bv : ParamId}

/-- A symmetry in space says that the points are mirror images at the plane. -/
theorem LiesAs.states_symmetric_space (hM : s.LiesAs v m M) (hp : s.StandsAt v a p)
    (hq : s.StandsAt v b q) (hc : c.relation = .symmetric a b m) (hwp : c.workplane = none) :
    c.States s v (q = M.mirror p) := by
  obtain ⟨id, j, wp, relation⟩ := c
  cases hc
  cases hwp
  obtain ⟨au, av, ha, hau, hav⟩ := hM.exists_pointInWorkplane hp
  obtain ⟨bu, bv, hb, hbu, hbv⟩ := hM.exists_pointInWorkplane hq
  obtain ⟨ea, hea, rfl⟩ := hp
  obtain ⟨eb, heb, rfl⟩ := hq
  have hmiddle : s.midpoint a b = .ok ((ea + eb).scale (.constant 0.5)) :=
    bind_eq_ok_iff.mpr ⟨_, hea, bind_eq_ok_iff.mpr ⟨_, heb, rfl⟩⟩
  obtain ⟨d, hd, hzero⟩ := hM.exists_pointPlaneDistance ((ea + eb).scale (.constant 0.5))
  refine ⟨[d, au - bu, av - bv], bind_eq_ok_iff.mpr ⟨_, hmiddle, bind_eq_ok_iff.mpr ⟨_, ha,
    bind_eq_ok_iff.mpr ⟨_, hb, bind_eq_ok_iff.mpr ⟨_, hd, rfl⟩⟩⟩⟩, ?_⟩
  simp only [List.forall_mem_cons, Expr.eval_sub, sub_eq_zero, hzero, hau, hav, hbu, hbv]
  rw [Plane.eq_mirror_iff, Vec3.eval_scale, Vec3.eval_add, Expr.eval_constant, Arith.real_half]
  simp

/-- A symmetry of two points of a workplane says that they are mirror images at the line where the
plane of the mirror meets it. -/
theorem LiesAs.states_symmetric_plane (hP : s.LiesAs v w P) (hM : s.LiesAs v m M)
    (ha : s.PointAt w a au av) (hb : s.PointAt w b bu bv) (hc : c.relation = .symmetric a b m)
    (hwp : c.workplane = some w) (hangle : ¬ P.normal.Parallel M.normal) {o : Vec3 ℝ}
    (ho : P.Contains o) (ho' : M.Contains o) :
    c.States s v (P.point (v bu) (v bv) =
      .mirrorAt o (P.normal.cross M.normal) (P.point (v au) (v av))) := by
  obtain ⟨id, j, wp, relation⟩ := c
  cases hc
  cases hwp
  obtain ⟨ea, eb, hea, heb, hapart⟩ := hP.exists_sub ha hb
  have hcoordinates : s.workplaneMidpoint w a b =
      .ok (.constant 0.5 * (.param au + .param bu), .constant 0.5 * (.param av + .param bv)) :=
    bind_eq_ok_iff.mpr ⟨_, ha.pointInWorkplane, bind_eq_ok_iff.mpr ⟨_, hb.pointInWorkplane, rfl⟩⟩
  obtain ⟨e, he, hmiddle⟩ := hP.exists_pointInSpace (.constant 0.5 * (.param au + .param bu))
    (.constant 0.5 * (.param av + .param bv))
  obtain ⟨d, hd, hzero⟩ := hM.exists_pointPlaneDistance e
  obtain ⟨f, hf, hspans⟩ := hP
  obtain ⟨f', hf', hspans'⟩ := hM
  refine .of_pair (bind_eq_ok_iff.mpr ⟨_, hcoordinates, bind_eq_ok_iff.mpr ⟨_, he,
    bind_eq_ok_iff.mpr ⟨_, hf, bind_eq_ok_iff.mpr ⟨_, hf', bind_eq_ok_iff.mpr ⟨_, hea,
      bind_eq_ok_iff.mpr ⟨_, heb, bind_eq_ok_iff.mpr ⟨_, hd, rfl⟩⟩⟩⟩⟩⟩⟩) ?_
  rw [hzero, Plane.point_eq_mirrorAt_planes_iff hangle ho ho', hmiddle, Vec3.eval_dot,
    Vec3.eval_cross, Vec3.eval_cross, hspans.first, hspans.second, hspans'.normal, hapart,
    Plane.point_sub_point]
  simp only [Expr.eval_mul, Expr.eval_add, Expr.eval_param, Expr.eval_constant, Arith.real_half,
    one_div_mul_eq_div]
  rfl

/-- A symmetry at a line of a workplane says that the points are mirror images at the line. -/
theorem states_symmetricLine {lau lav lbu lbv : ParamId} (P : Plane)
    (ha : s.PointAt w a au av) (hb : s.PointAt w b bu bv) (hline : s.DrawnIn w line (.line la lb))
    (hla : s.PointAt w la lau lav) (hlb : s.PointAt w lb lbu lbv)
    (hc : c.relation = .symmetricLine a b line) (hwp : c.workplane = some w)
    (hlength : P.point (v lau) (v lav) ≠ P.point (v lbu) (v lbv)) :
    c.States s v (P.point (v bu) (v bv) = .mirrorAt (P.point (v lau) (v lav))
      (P.point (v lbu) (v lbv) - P.point (v lau) (v lav)) (P.point (v au) (v av))) := by
  obtain ⟨id, j, wp, relation⟩ := c
  cases hc
  cases hwp
  refine .of_pair (bind_eq_ok_iff.mpr ⟨_, rfl, bind_eq_ok_iff.mpr ⟨_, hline.linePoints,
    bind_eq_ok_iff.mpr ⟨_, ha.pointInWorkplane, bind_eq_ok_iff.mpr ⟨_, hb.pointInWorkplane,
      bind_eq_ok_iff.mpr ⟨_, hla.pointInWorkplane,
        bind_eq_ok_iff.mpr ⟨_, hlb.pointInWorkplane, rfl⟩⟩⟩⟩⟩⟩) ?_
  have hdirection : (v lbu - v lau) * (v lbu - v lau) + (v lbv - v lav) * (v lbv - v lav) ≠ 0 := by
    intro hzero
    obtain ⟨hu, hv⟩ := mul_self_add_mul_self_eq_zero.mp hzero
    exact hlength (Plane.point_inj.mpr ⟨(sub_eq_zero.mp hu).symm, (sub_eq_zero.mp hv).symm⟩)
  rw [Plane.point_sub_point, Plane.point_eq_mirrorAt_iff hdirection]
  simp only [Expr.eval_add, Expr.eval_sub, Expr.eval_mul, Expr.eval_param]
  refine and_congr_right fun _ ↦ ⟨fun hmiddle ↦ ?_, fun hmiddle ↦ ?_⟩
  · linear_combination hmiddle / 2
  · linear_combination 2 * hmiddle

/-- Two equations on the coordinates of points in a workplane, of what they are apart along a
direction and of the middle between them across it, say that what is seen of the points is mirrored
at the axis with that direction. -/
theorem LiesAs.states_symmetricAtAxis (hP : s.LiesAs v w P) (hp : s.StandsAt v a p)
    (hq : s.StandsAt v b q) {dx dy : ℝ} (hdirection : dx * dx + dy * dy ≠ 0)
    (hc : ∀ au av bu bv, s.pointInWorkplane a w = .ok (au, av) →
      s.pointInWorkplane b w = .ok (bu, bv) → ∃ x y, c.equations s = .ok [x, y] ∧
        (x.eval v = 0 ∧ y.eval v = 0 ↔
          dx * (bu.eval v - au.eval v) + dy * (bv.eval v - av.eval v) = 0 ∧
            dx * (av.eval v + bv.eval v) = dy * (au.eval v + bu.eval v))) :
    c.States s v (P.foot q = .mirrorAt P.origin (P.displacement dx dy) (P.foot p)) := by
  obtain ⟨au, av, ha, hau, hav⟩ := hP.exists_pointInWorkplane hp
  obtain ⟨bu, bv, hb, hbu, hbv⟩ := hP.exists_pointInWorkplane hq
  obtain ⟨x, y, hequations, hzero⟩ := hc au av bu bv ha hb
  rw [hau, hav, hbu, hbv] at hzero
  exact .of_pair hequations (hzero.trans (Plane.foot_eq_mirrorAt_iff hdirection).symm)

/-- A horizontal symmetry says that what is seen of the points in the workplane is mirrored at the
second axis. -/
theorem LiesAs.states_symmetricHorizontal (hP : s.LiesAs v w P) (hp : s.StandsAt v a p)
    (hq : s.StandsAt v b q) (hc : c.relation = .symmetricHorizontal a b)
    (hwp : c.workplane = some w) :
    c.States s v (P.foot q = .mirrorAt P.origin P.v (P.foot p)) := by
  obtain ⟨id, j, wp, relation⟩ := c
  cases hc
  cases hwp
  rw [← Plane.displacement_zero_one]
  refine hP.states_symmetricAtAxis hp hq (by norm_num) fun au av bu bv ha hb ↦ ?_
  refine ⟨av - bv, au + bu, bind_eq_ok_iff.mpr ⟨_, rfl, bind_eq_ok_iff.mpr ⟨_, ha,
    bind_eq_ok_iff.mpr ⟨_, hb, rfl⟩⟩⟩, ?_⟩
  rw [Expr.eval_sub, Expr.eval_add]
  constructor <;> rintro ⟨hacross, hmiddle⟩ <;> constructor <;> linarith

/-- A vertical symmetry says that what is seen of the points in the workplane is mirrored at the
first axis. -/
theorem LiesAs.states_symmetricVertical (hP : s.LiesAs v w P) (hp : s.StandsAt v a p)
    (hq : s.StandsAt v b q) (hc : c.relation = .symmetricVertical a b)
    (hwp : c.workplane = some w) :
    c.States s v (P.foot q = .mirrorAt P.origin P.u (P.foot p)) := by
  obtain ⟨id, j, wp, relation⟩ := c
  cases hc
  cases hwp
  rw [← Plane.displacement_one_zero]
  refine hP.states_symmetricAtAxis hp hq (by norm_num) fun au av bu bv ha hb ↦ ?_
  refine ⟨au - bu, av + bv, bind_eq_ok_iff.mpr ⟨_, rfl, bind_eq_ok_iff.mpr ⟨_, ha,
    bind_eq_ok_iff.mpr ⟨_, hb, rfl⟩⟩⟩, ?_⟩
  rw [Expr.eval_sub, Expr.eval_add]
  constructor <;> rintro ⟨hacross, hmiddle⟩ <;> constructor <;> linarith

/-- Whether a constraint says that two points are mirror images at an axis of a workplane through
its origin. It says so of what is seen of the points in the workplane, which are the points
themselves if they are in its plane. -/
def MirrorsAtAxis (s : Sketch ℝ) (v : ParamId → ℝ) (c : Constraint ℝ) (w a b : EntityId)
    (axis : Plane → Vec3 ℝ) : Prop :=
  ∃ P p q, s.LiesAs v w P ∧ s.StandsAt v a p ∧ s.StandsAt v b q ∧
    c.States s v (P.foot q = .mirrorAt P.origin (axis P) (P.foot p)) ∧
    (P.Contains p → P.Contains q → c.States s v (q = .mirrorAt P.origin (axis P) p))

/-- Sketches whose symmetries say exactly that points are mirror images. -/
structure MirrorsExactly (s : Sketch ℝ) (v : ParamId → ℝ) : Prop where
  /-- In space, at a plane. -/
  space : ∀ k c a b m, s.constraints.find? k = some c → c.relation = .symmetric a b m →
    c.workplane = none → s.HasUnitNormal v m →
    ∃ M p q, s.LiesAs v m M ∧ s.StandsAt v a p ∧ s.StandsAt v b q ∧ c.States s v (q = M.mirror p)
  /-- In a workplane that they are drawn in, at the line where a plane that is not parallel to it
  meets it. -/
  plane : ∀ k c a b m w au av bu bv, s.constraints.find? k = some c →
    c.relation = .symmetric a b m → c.workplane = some w → s.PointAt w a au av →
    s.PointAt w b bu bv → s.HasUnitNormal v w → s.HasUnitNormal v m →
    ∃ P M p q, s.LiesAs v w P ∧ s.LiesAs v m M ∧ s.StandsAt v a p ∧ s.StandsAt v b q ∧
      (¬ P.normal.Parallel M.normal →
        ∃ o d, P.MeetsAt M o d ∧ c.States s v (q = .mirrorAt o d p))
  /-- In a workplane that they are drawn in, at a line that is drawn there and has a length. -/
  line : ∀ k c a b l la lb w au av bu bv, s.constraints.find? k = some c →
    c.relation = .symmetricLine a b l → c.workplane = some w → s.PointAt w a au av →
    s.PointAt w b bu bv → s.DrawnIn w l (.line la lb) → s.HasUnitNormal v w →
    ∃ p q o o', s.StandsAt v a p ∧ s.StandsAt v b q ∧ s.StandsAt v la o ∧ s.StandsAt v lb o' ∧
      (o ≠ o' → c.States s v (q = .mirrorAt o (o' - o) p))
  /-- In a workplane, at its second axis. -/
  horizontal : ∀ k c a b w, s.constraints.find? k = some c →
    c.relation = .symmetricHorizontal a b → c.workplane = some w → s.HasUnitNormal v w →
    s.MirrorsAtAxis v c w a b Plane.v
  /-- In a workplane, at its first axis. -/
  vertical : ∀ k c a b w, s.constraints.find? k = some c →
    c.relation = .symmetricVertical a b → c.workplane = some w → s.HasUnitNormal v w →
    s.MirrorsAtAxis v c w a b Plane.u

private theorem exists_standsAt_part (h : s.Linked) (hp : s.Placed) {k : ConstraintId}
    (hk : s.constraints.find? k = some c) {kind : Entity → Bool}
    (ha : (a, kind) ∈ c.relation.demands) (hkind : ∀ e, kind e = true → e.isPoint = true) :
    ∃ p, s.StandsAt v a p :=
  h.exists_standsAt hp ((h.constraints k c hk _ (List.mem_append_right _ ha)).imp hkind)

private theorem mirrorsAtAxis (h : s.Linked) (hp : s.Placed) {k : ConstraintId}
    (hk : s.constraints.find? k = some c)
    (hdemands : c.relation.demands = [(a, Entity.isPoint2d), (b, Entity.isPoint2d)])
    (hunit : s.HasUnitNormal v w) {axis : Plane → Vec3 ℝ}
    (hstates : ∀ P p q, s.LiesAs v w P → s.StandsAt v a p → s.StandsAt v b q →
      c.States s v (P.foot q = .mirrorAt P.origin (axis P) (P.foot p))) :
    s.MirrorsAtAxis v c w a b axis := by
  have hpoint : ∀ e : Entity, e.isPoint2d = true → e.isPoint = true := by
    intro e he
    rw [Entity.isPoint, he, Bool.or_true]
  obtain ⟨P, hP⟩ := h.exists_liesAs hunit
  obtain ⟨p, ha⟩ := exists_standsAt_part h hp hk (a := a) (by simp [hdemands]) hpoint
  obtain ⟨q, hb⟩ := exists_standsAt_part h hp hk (a := b) (by simp [hdemands]) hpoint
  have hseen := hstates P p q hP ha hb
  refine ⟨P, p, q, hP, ha, hb, hseen, fun hinP hinQ ↦ ?_⟩
  rwa [Plane.foot_of_contains hinP, Plane.foot_of_contains hinQ] at hseen

/-- In a sketch that comes about, a symmetry says exactly that two points are mirror images. -/
theorem mirrorsExactly {la : LinearAlgebra ℝ} (hs : s.Reachable la) (v : ParamId → ℝ) :
    s.MirrorsExactly v := by
  obtain ⟨hlinked, hplaced⟩ := hs.linked_placed
  constructor
  · intro k c a b m hk hc hwp hunit
    obtain ⟨M, hM⟩ := hlinked.exists_liesAs hunit
    obtain ⟨p, hp⟩ := exists_standsAt_part hlinked hplaced hk (a := a)
      (by simp [hc, Relation.demands]) fun _ h ↦ h
    obtain ⟨q, hq⟩ := exists_standsAt_part hlinked hplaced hk (a := b)
      (by simp [hc, Relation.demands]) fun _ h ↦ h
    exact ⟨M, p, q, hM, hp, hq, hM.states_symmetric_space hp hq hc hwp⟩
  · intro k c a b m w au av bu bv _ hc hwp ha hb hunit hunit'
    obtain ⟨P, hP⟩ := hlinked.exists_liesAs hunit
    obtain ⟨M, hM⟩ := hlinked.exists_liesAs hunit'
    refine ⟨P, M, _, _, hP, hM, hP.standsAt ha, hP.standsAt hb, fun hangle ↦ ?_⟩
    obtain ⟨o, ho, ho'⟩ := Plane.exists_contains hangle
    exact ⟨o, _, Plane.meetsAt_cross hangle ho ho',
      hP.states_symmetric_plane hM ha hb hc hwp hangle ho ho'⟩
  · intro k c a b l la lb w au av bu bv _ hc hwp ha hb hline hunit
    obtain ⟨P, hP⟩ := hlinked.exists_liesAs hunit
    obtain ⟨lau, lav, lbu, lbv, hla, hlb⟩ := hlinked.exists_ends hline
    exact ⟨_, _, _, _, hP.standsAt ha, hP.standsAt hb, hP.standsAt hla, hP.standsAt hlb,
      states_symmetricLine P ha hb hline hla hlb hc hwp⟩
  · intro k c a b w hk hc hwp hunit
    exact mirrorsAtAxis hlinked hplaced hk (by rw [hc, Relation.demands]) hunit
      fun _ _ _ hP hp hq ↦ hP.states_symmetricHorizontal hp hq hc hwp
  · intro k c a b w hk hc hwp hunit
    exact mirrorsAtAxis hlinked hplaced hk (by rw [hc, Relation.demands]) hunit
      fun _ _ _ hP hp hq ↦ hP.states_symmetricVertical hp hq hc hwp

end Sketch

/-- Two points on either side of a tilted plane, and two that are drawn in it. -/
noncomputable def pointsAcrossPlane : Sketch ℝ :=
  (Sketch.empty .default).runAll .exact
    [.draw ⟨1⟩ (.normal3d ⟨0.5, 0.5, 0.5, 0.5⟩), .draw ⟨1⟩ (.point3d ⟨1.0, 2.0, 3.0⟩),
      .draw ⟨1⟩ (.workplane ⟨2⟩ ⟨1⟩), .draw ⟨1⟩ (.point3d ⟨0.0, 0.0, 0.0⟩),
      .draw ⟨1⟩ (.point3d ⟨2.0, 0.0, 0.0⟩), .draw ⟨1⟩ (.point2d ⟨3⟩ 1.0 1.0),
      .draw ⟨1⟩ (.point2d ⟨3⟩ 2.0 1.0), .relate ⟨1⟩ (.symmetric ⟨4⟩ ⟨5⟩ ⟨3⟩ none),
      .relate ⟨1⟩ (.symmetricHorizontal ⟨6⟩ ⟨7⟩ ⟨3⟩)]

private theorem contents_pointsAcrossPlane : pointsAcrossPlane.entities.values =
    [⟨⟨1⟩, ⟨1⟩, none, .normal3d ⟨1⟩ ⟨2⟩ ⟨3⟩ ⟨4⟩⟩, ⟨⟨2⟩, ⟨1⟩, none, .point3d ⟨5⟩ ⟨6⟩ ⟨7⟩⟩,
      ⟨⟨3⟩, ⟨1⟩, none, .workplane ⟨2⟩ ⟨1⟩⟩, ⟨⟨4⟩, ⟨1⟩, none, .point3d ⟨8⟩ ⟨9⟩ ⟨10⟩⟩,
      ⟨⟨5⟩, ⟨1⟩, none, .point3d ⟨11⟩ ⟨12⟩ ⟨13⟩⟩, ⟨⟨6⟩, ⟨1⟩, some ⟨3⟩, .point2d ⟨14⟩ ⟨15⟩⟩,
      ⟨⟨7⟩, ⟨1⟩, some ⟨3⟩, .point2d ⟨16⟩ ⟨17⟩⟩] ∧
    pointsAcrossPlane.constraints.values =
      [⟨⟨1⟩, ⟨1⟩, none, .symmetric ⟨4⟩ ⟨5⟩ ⟨3⟩⟩,
        ⟨⟨2⟩, ⟨1⟩, some ⟨3⟩, .symmetricHorizontal ⟨6⟩ ⟨7⟩⟩] := by
  have hunit : (⟨0.5, 0.5, 0.5, 0.5⟩ : Quaternion ℝ).lengthSquared = 1 := by
    norm_num [Quaternion.lengthSquared]
  rw [pointsAcrossPlane, Sketch.runAll, List.foldl_cons, Sketch.step_draw_normal3d _ _ _ hunit]
  exact ⟨rfl, rfl⟩

/-- The first two points are related as mirror images at the plane, and the last two at its second
axis. -/
theorem mirrorsExactly_pointsAcrossPlane : ∃ c d : Constraint ℝ,
    pointsAcrossPlane.Reachable .exact ∧ pointsAcrossPlane.HasUnitNormal tilted ⟨3⟩ ∧
    pointsAcrossPlane.constraints.find? ⟨1⟩ = some c ∧ c.relation = .symmetric ⟨4⟩ ⟨5⟩ ⟨3⟩ ∧
    (∃ M p q, pointsAcrossPlane.LiesAs tilted ⟨3⟩ M ∧ pointsAcrossPlane.StandsAt tilted ⟨4⟩ p ∧
      pointsAcrossPlane.StandsAt tilted ⟨5⟩ q ∧
      c.States pointsAcrossPlane tilted (q = M.mirror p)) ∧
    pointsAcrossPlane.constraints.find? ⟨2⟩ = some d ∧
    pointsAcrossPlane.MirrorsAtAxis tilted d ⟨3⟩ ⟨6⟩ ⟨7⟩ Plane.v := by
  have hreachable : pointsAcrossPlane.Reachable .exact := ⟨.default, _, rfl⟩
  have hentity := hreachable.wellNumbered.entities.find?_of_mem
  have hconstraint := hreachable.wellNumbered.constraints.find?_of_mem
  simp only [contents_pointsAcrossPlane, List.forall_mem_cons] at hentity hconstraint
  obtain ⟨hnormal, _, hplane, _⟩ := hentity
  obtain ⟨hspace, haxis, _⟩ := hconstraint
  have hunit : pointsAcrossPlane.HasUnitNormal tilted ⟨3⟩ :=
    Sketch.hasUnitNormal_of_find? hplane rfl hnormal rfl
      (by norm_num [Quaternion.lengthSquared, tilted])
  have hmirrors := Sketch.mirrorsExactly hreachable tilted
  exact ⟨_, _, hreachable, hunit, hspace, rfl, hmirrors.space _ _ _ _ _ hspace rfl rfl hunit, haxis,
    hmirrors.horizontal _ _ _ _ _ haxis rfl rfl hunit⟩

/-- A point of a plane above the first workplane and a point of the workplane, related as mirror
images at its second axis. -/
noncomputable def pointsOfParallelPlanes : Sketch ℝ :=
  (Sketch.empty .default).runAll .exact
    [.draw ⟨1⟩ (.normal3d ⟨1.0, 0.0, 0.0, 0.0⟩), .draw ⟨1⟩ (.point3d ⟨0.0, 0.0, 0.0⟩),
      .draw ⟨1⟩ (.workplane ⟨2⟩ ⟨1⟩), .draw ⟨1⟩ (.point3d ⟨0.0, 0.0, 5.0⟩),
      .draw ⟨1⟩ (.workplane ⟨4⟩ ⟨1⟩), .draw ⟨1⟩ (.point2d ⟨5⟩ 1.0 0.0),
      .draw ⟨1⟩ (.point2d ⟨3⟩ (-1.0) 0.0), .relate ⟨1⟩ (.symmetricHorizontal ⟨6⟩ ⟨7⟩ ⟨3⟩)]

/-- The values of its parameters. -/
noncomputable def asDrawn (p : ParamId) : ℝ :=
  match p.index with
  | 1 | 11 => 1
  | 10 => 5
  | 13 => -1
  | _ => 0

private theorem contents_pointsOfParallelPlanes : pointsOfParallelPlanes.entities.values =
    [⟨⟨1⟩, ⟨1⟩, none, .normal3d ⟨1⟩ ⟨2⟩ ⟨3⟩ ⟨4⟩⟩, ⟨⟨2⟩, ⟨1⟩, none, .point3d ⟨5⟩ ⟨6⟩ ⟨7⟩⟩,
      ⟨⟨3⟩, ⟨1⟩, none, .workplane ⟨2⟩ ⟨1⟩⟩, ⟨⟨4⟩, ⟨1⟩, none, .point3d ⟨8⟩ ⟨9⟩ ⟨10⟩⟩,
      ⟨⟨5⟩, ⟨1⟩, none, .workplane ⟨4⟩ ⟨1⟩⟩, ⟨⟨6⟩, ⟨1⟩, some ⟨5⟩, .point2d ⟨11⟩ ⟨12⟩⟩,
      ⟨⟨7⟩, ⟨1⟩, some ⟨3⟩, .point2d ⟨13⟩ ⟨14⟩⟩] ∧
    pointsOfParallelPlanes.constraints.values =
      [⟨⟨1⟩, ⟨1⟩, some ⟨3⟩, .symmetricHorizontal ⟨6⟩ ⟨7⟩⟩] := by
  have hunit : (⟨1.0, 0.0, 0.0, 0.0⟩ : Quaternion ℝ).lengthSquared = 1 := by
    norm_num [Quaternion.lengthSquared]
  rw [pointsOfParallelPlanes, Sketch.runAll, List.foldl_cons,
    Sketch.step_draw_normal3d _ _ _ hunit]
  exact ⟨rfl, rfl⟩

/-- A plane at right angles to the third coordinate axis. -/
noncomputable def levelPlane (o : Vec3 ℝ) : Plane :=
  ⟨o, ⟨1, 0, 0⟩, ⟨0, 1, 0⟩, by constructor <;> norm_num [Vec3.dot]⟩

private theorem liesAs_levelPlane {w o : EntityId} {x y z : ParamId}
    (hw : pointsOfParallelPlanes.entities.find? w = some ⟨w, ⟨1⟩, none, .workplane o ⟨1⟩⟩)
    (ho : pointsOfParallelPlanes.entities.find? o = some ⟨o, ⟨1⟩, none, .point3d x y z⟩)
    (hn : pointsOfParallelPlanes.entities.find? ⟨1⟩ =
      some ⟨⟨1⟩, ⟨1⟩, none, .normal3d ⟨1⟩ ⟨2⟩ ⟨3⟩ ⟨4⟩⟩) :
    pointsOfParallelPlanes.LiesAs asDrawn w
      (levelPlane ⟨asDrawn x, asDrawn y, asDrawn z⟩) := by
  have hone : (⟨1, 0, 0, 0⟩ : Quaternion ℝ).lengthSquared = 1 := by
    norm_num [Quaternion.lengthSquared]
  have hplane : Plane.about ⟨asDrawn x, asDrawn y, asDrawn z⟩ ⟨1, 0, 0, 0⟩ hone =
      levelPlane ⟨asDrawn x, asDrawn y, asDrawn z⟩ := by
    simp [Plane.about, levelPlane, Quaternion.axisU, Quaternion.axisV]
  exact hplane ▸ Sketch.liesAs_of_find? hw rfl hn rfl ho rfl hone

/-- At these values the equations of the symmetry are zero, but the one point is not the mirror
image of the other. Only what is seen of them in the workplane is mirrored. -/
theorem not_mirrorAt_pointsOfParallelPlanes : ∃ (c : Constraint ℝ) (P : Plane) (p q : Vec3 ℝ),
    pointsOfParallelPlanes.Reachable .exact ∧
    pointsOfParallelPlanes.constraints.find? ⟨1⟩ = some c ∧
    c.relation = .symmetricHorizontal ⟨6⟩ ⟨7⟩ ∧ c.workplane = some ⟨3⟩ ∧
    pointsOfParallelPlanes.HasUnitNormal asDrawn ⟨3⟩ ∧
    pointsOfParallelPlanes.LiesAs asDrawn ⟨3⟩ P ∧
    pointsOfParallelPlanes.StandsAt asDrawn ⟨6⟩ p ∧
    pointsOfParallelPlanes.StandsAt asDrawn ⟨7⟩ q ∧
    (∃ es, c.equations pointsOfParallelPlanes = .ok es ∧ ∀ e ∈ es, e.eval asDrawn = 0) ∧
    q ≠ .mirrorAt P.origin P.v p := by
  have hreachable : pointsOfParallelPlanes.Reachable .exact := ⟨.default, _, rfl⟩
  have hentity := hreachable.wellNumbered.entities.find?_of_mem
  have hconstraint := hreachable.wellNumbered.constraints.find?_of_mem
  simp only [contents_pointsOfParallelPlanes, List.forall_mem_cons] at hentity hconstraint
  obtain ⟨hnormal, horigin, hplane, habove, hparallel, ha, hb, _⟩ := hentity
  have hunit : pointsOfParallelPlanes.HasUnitNormal asDrawn ⟨3⟩ :=
    Sketch.hasUnitNormal_of_find? hplane rfl hnormal rfl
      (by norm_num [Quaternion.lengthSquared, asDrawn])
  have hP : pointsOfParallelPlanes.LiesAs asDrawn ⟨3⟩ (levelPlane ⟨0, 0, 0⟩) :=
    liesAs_levelPlane hplane horigin hnormal
  have hQ : pointsOfParallelPlanes.LiesAs asDrawn ⟨5⟩ (levelPlane ⟨0, 0, 5⟩) :=
    liesAs_levelPlane hparallel habove hnormal
  have hp : pointsOfParallelPlanes.StandsAt asDrawn ⟨6⟩ ((levelPlane ⟨0, 0, 5⟩).point 1 0) :=
    hQ.standsAt ⟨_, ha, rfl, rfl⟩
  have hq : pointsOfParallelPlanes.StandsAt asDrawn ⟨7⟩ ((levelPlane ⟨0, 0, 0⟩).point (-1) 0) :=
    hP.standsAt ⟨_, hb, rfl, rfl⟩
  obtain ⟨es, hes, hzero⟩ := hP.states_symmetricHorizontal hp hq
    (c := ⟨⟨1⟩, ⟨1⟩, some ⟨3⟩, .symmetricHorizontal ⟨6⟩ ⟨7⟩⟩) rfl rfl
  refine ⟨_, _, _, _, hreachable, hconstraint.1, rfl, rfl, hunit, hP, hp, hq,
    ⟨es, hes, hzero.mpr ?_⟩, fun hmirror ↦ ?_⟩
  · norm_num [levelPlane, Plane.point, Plane.foot, Plane.normal, Vec3.mirrorAt, Vec3.cross,
      Vec3.dot, Vec3.scale, Vec3.add_def, Vec3.sub_def]
  · norm_num [levelPlane, Plane.point, Vec3.mirrorAt, Vec3.dot, Vec3.scale, Vec3.add_def,
      Vec3.sub_def] at hmirror

end SketchSolver
