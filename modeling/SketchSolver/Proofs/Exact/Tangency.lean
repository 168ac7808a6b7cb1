import SketchSolver.Proofs.Exact.Auxiliary
import SketchSolver.Proofs.Exact.Motion
import SketchSolver.Proofs.Exact.Workplanes

/-!
# Tangency

The equations of a tangency are zero exactly if the directions of the two curves are parallel. An
arc contributes its radius, which is the direction of the arc turned by a right angle. So where one
of two curves is an arc, the directions are parallel if what is contributed is at right angles, and
where both or neither are, if it is parallel. In space a scale between the directions is an unknown
of its own, which neither of them depends on.
-/

namespace SketchSolver

open Outcome

variable {v : ParamId → ℝ}

/-- The two curves that a relation makes tangent, each with whether it does so at the finish. A line
has one direction all along. -/
def Relation.contact? {R P : Type} : Relation R P → Option ((EntityId × Bool) × EntityId × Bool)
  | arcLineTangent arc line atFinish => some ((arc, atFinish), line, false)
  | cubicLineTangent cubic line atFinish _ => some ((cubic, atFinish), line, false)
  | curveCurveTangent a b aAtFinish bAtFinish => some ((a, aAtFinish), b, bAtFinish)
  | _ => none

namespace Sketch

/-- The direction of a curve at its finish or its start, as the positions of its points give it: for
an arc the radius turned about a normal, for a cubic what the end and the control point next to it
are apart, and for a line what its ends are apart. -/
inductive Heads (s : Sketch ℝ) (v : ParamId → ℝ) (n : Vec3 ℝ) (k : EntityId) (atFinish : Bool) :
    Vec3 ℝ → Prop
  /-- An arc. -/
  | arc {e : Entity} {normal center start finish : EntityId} {c p : Vec3 ℝ}
    (hk : s.entities.find? k = some e) (hshape : e.shape = .arc normal center start finish)
    (hcenter : s.StandsAt v center c)
    (hend : s.StandsAt v (if atFinish then finish else start) p) :
    s.Heads v n k atFinish (n.cross (p - c))
  /-- A cubic. -/
  | cubic {e : Entity} {start afterStart beforeFinish finish : EntityId} {c p : Vec3 ℝ}
    (hk : s.entities.find? k = some e)
    (hshape : e.shape = .cubic start afterStart beforeFinish finish)
    (hcontrol : s.StandsAt v (if atFinish then beforeFinish else afterStart) c)
    (hend : s.StandsAt v (if atFinish then finish else start) p) :
    s.Heads v n k atFinish (p - c)
  /-- A line. -/
  | line {e : Entity} {a b : EntityId} {p q : Vec3 ℝ} (hk : s.entities.find? k = some e)
    (hshape : e.shape = .line a b) (ha : s.StandsAt v a p) (hb : s.StandsAt v b q) :
    s.Heads v n k atFinish (p - q)

variable {s : Sketch ℝ} {g : GroupId} {c : Constraint ℝ} {w k : EntityId} {P : Plane}
  {atFinish : Bool}

/-- A curve heads along one direction. -/
theorem Heads.unique {n d d' : Vec3 ℝ} (h : s.Heads v n k atFinish d)
    (h' : s.Heads v n k atFinish d') : d = d' := by
  cases h with
  | arc hk hshape hcenter hend =>
    cases h' with
    | arc hk' hshape' hcenter' hend' =>
      cases hk.symm.trans hk'
      cases hshape.symm.trans hshape'
      rw [hcenter.unique hcenter', hend.unique hend']
    | cubic hk' hshape' | line hk' hshape' =>
      cases hk.symm.trans hk'
      cases hshape.symm.trans hshape'
  | cubic hk hshape hcontrol hend =>
    cases h' with
    | cubic hk' hshape' hcontrol' hend' =>
      cases hk.symm.trans hk'
      cases hshape.symm.trans hshape'
      rw [hcontrol.unique hcontrol', hend.unique hend']
    | arc hk' hshape' | line hk' hshape' =>
      cases hk.symm.trans hk'
      cases hshape.symm.trans hshape'
  | line hk hshape ha hb =>
    cases h' with
    | line hk' hshape' ha' hb' =>
      cases hk.symm.trans hk'
      cases hshape.symm.trans hshape'
      rw [ha.unique ha', hb.unique hb']
    | arc hk' hshape' | cubic hk' hshape' =>
      cases hk.symm.trans hk'
      cases hshape.symm.trans hshape'

/-- The direction of a cubic in terms of its points. -/
theorem cubicTangent_of_find? {e : Entity} {start afterStart beforeFinish finish : EntityId}
    {control position : Vec3 (Expr ℝ)} (hk : s.entities.find? k = some e)
    (hshape : e.shape = .cubic start afterStart beforeFinish finish)
    (hcontrol : s.pointExprs (if atFinish then beforeFinish else afterStart) = .ok control)
    (hend : s.pointExprs (if atFinish then finish else start) = .ok position) :
    s.cubicTangent k atFinish = .ok (position - control) := by
  obtain ⟨id, j, wp, _⟩ := e
  cases hshape
  refine bind_eq_ok_iff.mpr ⟨_, entity_of_find? hk, ?_⟩
  cases atFinish with
  | true => exact bind_eq_ok_iff.mpr ⟨_, hend, bind_eq_ok_iff.mpr ⟨_, hcontrol, rfl⟩⟩
  | false => exact bind_eq_ok_iff.mpr ⟨_, hend, bind_eq_ok_iff.mpr ⟨_, hcontrol, rfl⟩⟩

/-! ## In a workplane -/

private theorem DrawnIn.kind {shape : Shape ParamId} {kind : Entity → Bool}
    (hk : s.DrawnIn w k shape) (hm : s.Meets g (k, kind)) :
    ∃ e, e.shape = shape ∧ kind e = true := by
  obtain ⟨e, he, _, hshape⟩ := hk
  obtain ⟨e', he', hkind, _⟩ := hm
  cases he.symm.trans he'
  exact ⟨e, hshape, hkind⟩

private theorem DrawnIn.eq_line {shape : Shape ParamId} (hk : s.DrawnIn w k shape)
    (hm : s.Meets g (k, Entity.isLine)) : ∃ a b, shape = .line a b := by
  obtain ⟨⟨id, j, wp, shape⟩, rfl, hkind⟩ := hk.kind hm
  cases shape with
  | line a b => exact ⟨a, b, rfl⟩
  | _ => cases hkind

private theorem DrawnIn.eq_arc {shape : Shape ParamId} (hk : s.DrawnIn w k shape)
    (hm : s.Meets g (k, Entity.isArc)) :
    ∃ normal center start finish, shape = .arc normal center start finish := by
  obtain ⟨⟨id, j, wp, shape⟩, rfl, hkind⟩ := hk.kind hm
  cases shape with
  | arc normal center start finish => exact ⟨normal, center, start, finish, rfl⟩
  | _ => cases hkind

private theorem DrawnIn.eq_cubic {shape : Shape ParamId} (hk : s.DrawnIn w k shape)
    (hm : s.Meets g (k, Entity.isCubic)) :
    ∃ start afterStart beforeFinish finish,
      shape = .cubic start afterStart beforeFinish finish := by
  obtain ⟨⟨id, j, wp, shape⟩, rfl, hkind⟩ := hk.kind hm
  cases shape with
  | cubic start afterStart beforeFinish finish =>
    exact ⟨start, afterStart, beforeFinish, finish, rfl⟩
  | _ => cases hkind

/-- The radius of an arc that is drawn in a workplane is a displacement of its plane, and the arc
heads along the displacement that is turned by a right angle. -/
theorem LiesAs.exists_radius {normal center start finish : EntityId} (hP : s.LiesAs v w P)
    (h : s.Linked) (hk : s.DrawnIn w k (.arc normal center start finish)) (atFinish : Bool) :
    ∃ middle position x y, s.pointExprs center = .ok middle ∧
      s.pointExprs (if atFinish then finish else start) = .ok position ∧
      position.eval v - middle.eval v = P.displacement x y ∧
      s.Heads v P.normal k atFinish (P.displacement (-y) x) := by
  obtain ⟨cu, cv, hcenter⟩ := h.exists_pointAt hk (a := center) (by simp [Shape.demands])
  obtain ⟨pu, pv, hend⟩ := h.exists_pointAt hk (a := if atFinish then finish else start)
    (by cases atFinish <;> simp [Shape.demands])
  obtain ⟨position, middle, hposition, hmiddle, hradius⟩ := hP.exists_sub hend hcenter
  refine ⟨middle, position, _, _, hmiddle, hposition, hradius, ?_⟩
  obtain ⟨e, he, _, hshape⟩ := hk
  rw [← Plane.normal_cross_displacement, ← Plane.point_sub_point]
  exact .arc he hshape (hP.standsAt hcenter) (hP.standsAt hend)

/-- The direction of a cubic that is drawn in a workplane is a displacement of its plane. -/
theorem LiesAs.exists_cubicTangent {start afterStart beforeFinish finish : EntityId}
    (hP : s.LiesAs v w P) (h : s.Linked)
    (hk : s.DrawnIn w k (.cubic start afterStart beforeFinish finish)) (atFinish : Bool) :
    ∃ d x y, s.cubicTangent k atFinish = .ok d ∧ d.eval v = P.displacement x y ∧
      s.Heads v P.normal k atFinish (P.displacement x y) := by
  obtain ⟨cu, cv, hcontrol⟩ := h.exists_pointAt hk
    (a := if atFinish then beforeFinish else afterStart)
    (by cases atFinish <;> simp [Shape.demands])
  obtain ⟨pu, pv, hend⟩ := h.exists_pointAt hk (a := if atFinish then finish else start)
    (by cases atFinish <;> simp [Shape.demands])
  obtain ⟨position, control, hposition, hcontrolled, hsub⟩ := hP.exists_sub hend hcontrol
  obtain ⟨e, he, _, hshape⟩ := hk
  refine ⟨_, _, _, cubicTangent_of_find? he hshape hcontrolled hposition, hsub, ?_⟩
  rw [← Plane.point_sub_point]
  exact .cubic he hshape (hP.standsAt hcontrol) (hP.standsAt hend)

/-- A line that is drawn in a workplane heads along a displacement of its plane. -/
theorem LiesAs.exists_lineDirection {a b : EntityId} (hP : s.LiesAs v w P) (h : s.Linked)
    (hk : s.DrawnIn w k (.line a b)) :
    ∃ d x y, s.vectorExprs k = .ok d ∧ d.eval v = P.displacement x y ∧
      s.Heads v P.normal k false (P.displacement x y) := by
  obtain ⟨d, p, q, x, y, hd, hp, hq, hvalue, hsub⟩ := hP.exists_vectorExprs h hk
  obtain ⟨e, he, _, hshape⟩ := hk
  exact ⟨d, x, y, hd, hvalue, hsub ▸ .line he hshape hp hq⟩

/-- Whether a constraint is one equation that is zero at an assignment exactly if two curves head
along parallel directions, provided that both directions are not zero. -/
def Touches (s : Sketch ℝ) (v : ParamId → ℝ) (c : Constraint ℝ) (n : Vec3 ℝ)
    (x y : EntityId × Bool) : Prop :=
  ∃ d d' e, s.Heads v n x.1 x.2 d ∧ s.Heads v n y.1 y.2 d' ∧ c.equations s = .ok [e] ∧
    (d ≠ ⟨0, 0, 0⟩ → d' ≠ ⟨0, 0, 0⟩ → (e.eval v = 0 ↔ d.Parallel d'))

/-- An arc and a line touch. -/
theorem LiesAs.touches_arcLine {line normal center start finish a b : EntityId}
    (hP : s.LiesAs v w P) (h : s.Linked) (hc : c.relation = .arcLineTangent k line atFinish)
    (harc : s.DrawnIn w k (.arc normal center start finish))
    (hline : s.DrawnIn w line (.line a b)) :
    s.Touches v c P.normal (k, atFinish) (line, false) := by
  obtain ⟨middle, position, x, y, hmiddle, hposition, hradius, hheads⟩ :=
    hP.exists_radius h harc atFinish
  obtain ⟨d, x', y', hd, hvalue, hheads'⟩ := hP.exists_lineDirection h hline
  refine ⟨_, _, d.dot (middle - position), hheads, hheads', ?_, fun hne hne' ↦ ?_⟩
  · obtain ⟨id, j, wp, relation⟩ := c
    cases hc
    obtain ⟨⟨id', j', wp', _⟩, he, _, rfl⟩ := harc
    exact bind_eq_ok_iff.mpr ⟨_, entity_of_find? he, bind_eq_ok_iff.mpr ⟨_, hmiddle,
      bind_eq_ok_iff.mpr ⟨_, hposition, bind_eq_ok_iff.mpr ⟨_, hd, rfl⟩⟩⟩⟩
  · rw [Plane.parallel_displacement_iff hne hne', Vec3.eval_dot, Vec3.eval_sub, Vec3.dot_sub_swap,
      hradius, hvalue, Plane.displacement_dot_displacement]
    exact Iff.of_eq (congrArg (· = 0) (by ring))

/-- A cubic and a line touch. -/
theorem LiesAs.touches_cubicLine {line start afterStart beforeFinish finish a b : EntityId}
    {scale : Option ParamId} (hP : s.LiesAs v w P) (h : s.Linked)
    (hc : c.relation = .cubicLineTangent k line atFinish scale) (hwp : c.workplane = some w)
    (hcubic : s.DrawnIn w k (.cubic start afterStart beforeFinish finish))
    (hline : s.DrawnIn w line (.line a b)) :
    s.Touches v c P.normal (k, atFinish) (line, false) := by
  obtain ⟨d, x, y, hd, hvalue, hheads⟩ := hP.exists_cubicTangent h hcubic atFinish
  obtain ⟨d', x', y', hd', hvalue', hheads'⟩ := hP.exists_lineDirection h hline
  obtain ⟨n, hn, hnormal⟩ := hP.workplaneNormal
  refine ⟨_, _, (d.cross d').dot n, hheads, hheads', ?_, fun hne hne' ↦ ?_⟩
  · obtain ⟨id, j, wp, relation⟩ := c
    cases hc
    cases hwp
    exact bind_eq_ok_iff.mpr ⟨_, hd, bind_eq_ok_iff.mpr ⟨_, hd', bind_eq_ok_iff.mpr ⟨_, hn, rfl⟩⟩⟩
  · rw [Plane.parallel_displacement_iff hne hne', Vec3.eval_dot, Vec3.eval_cross, hvalue, hvalue',
      hnormal, Plane.displacement_cross_displacement_dot_normal]

/-- What an arc or a cubic that is drawn in a workplane contributes to a tangency is a displacement
of its plane. It is the direction of the curve, or that direction before it is turned. -/
theorem LiesAs.exists_curveDirection {shape : Shape ParamId} (hP : s.LiesAs v w P) (h : s.Linked)
    (hk : s.DrawnIn w k shape) (hbent : s.Meets g (k, Entity.isBent)) (atFinish : Bool) :
    ∃ d radius x y, s.curveDirection k atFinish = .ok (d, radius) ∧
      d.eval v = P.displacement x y ∧
      s.Heads v P.normal k atFinish
        (P.displacement (if radius then -y else x) (if radius then x else y)) := by
  obtain ⟨⟨_, _, _, shape⟩, rfl, hkind⟩ := hk.kind hbent
  cases shape with
  | arc normal center start finish =>
    obtain ⟨middle, position, x, y, hmiddle, hposition, hradius, hheads⟩ :=
      hP.exists_radius h hk atFinish
    obtain ⟨⟨id, j, wp, _⟩, he, _, rfl⟩ := hk
    exact ⟨position - middle, true, x, y, bind_eq_ok_iff.mpr ⟨_, entity_of_find? he,
      bind_eq_ok_iff.mpr ⟨_, hposition, bind_eq_ok_iff.mpr ⟨_, hmiddle, rfl⟩⟩⟩, hradius, hheads⟩
  | cubic start afterStart beforeFinish finish =>
    obtain ⟨d, x, y, hd, hvalue, hheads⟩ := hP.exists_cubicTangent h hk atFinish
    obtain ⟨⟨id, j, wp, _⟩, he, _, rfl⟩ := hk
    exact ⟨d, false, x, y, bind_eq_ok_iff.mpr ⟨_, entity_of_find? he,
      bind_eq_ok_iff.mpr ⟨_, hd, rfl⟩⟩, hvalue, hheads⟩
  | _ => cases hkind

/-- Two arcs or cubics touch. -/
theorem LiesAs.touches_curves {shape shape' : Shape ParamId} {a b : EntityId}
    {aAtFinish bAtFinish : Bool} (hP : s.LiesAs v w P) (h : s.Linked)
    (hc : c.relation = .curveCurveTangent a b aAtFinish bAtFinish) (hwp : c.workplane = some w)
    (ha : s.DrawnIn w a shape) (hb : s.DrawnIn w b shape')
    (hbent : s.Meets g (a, Entity.isBent)) (hbent' : s.Meets g (b, Entity.isBent)) :
    s.Touches v c P.normal (a, aAtFinish) (b, bAtFinish) := by
  obtain ⟨d, radius, x, y, hd, hvalue, hheads⟩ := hP.exists_curveDirection h ha hbent aAtFinish
  obtain ⟨d', radius', x', y', hd', hvalue', hheads'⟩ :=
    hP.exists_curveDirection h hb hbent' bAtFinish
  obtain ⟨n, hn, hnormal⟩ := hP.workplaneNormal
  have hinner : (d.dot d').eval v = x * x' + y * y' := by
    rw [Vec3.eval_dot, hvalue, hvalue', Plane.displacement_dot_displacement]
  have houter : ((d.cross d').dot n).eval v = x * y' - y * x' := by
    rw [Vec3.eval_dot, Vec3.eval_cross, hvalue, hvalue', hnormal,
      Plane.displacement_cross_displacement_dot_normal]
  obtain ⟨id, j, wp, relation⟩ := c
  cases hc
  cases hwp
  refine ⟨_, _, if radius != radius' then d.dot d' else (d.cross d').dot n, hheads, hheads', ?_,
    fun hne hne' ↦ ?_⟩
  · refine bind_eq_ok_iff.mpr ⟨_, rfl, bind_eq_ok_iff.mpr ⟨_, hd, bind_eq_ok_iff.mpr ⟨_, hd', ?_⟩⟩⟩
    dsimp only
    split
    · rfl
    · exact bind_eq_ok_iff.mpr ⟨_, hn, rfl⟩
  · rw [Plane.parallel_displacement_iff hne hne']
    cases radius with
    | false =>
      cases radius' with
      | false =>
        change ((d.cross d').dot n).eval v = 0 ↔ x * y' - y * x' = 0
        rw [houter]
      | true =>
        change (d.dot d').eval v = 0 ↔ x * x' - y * -y' = 0
        rw [hinner, mul_neg, sub_neg_eq_add]
    | true =>
      cases radius' with
      | false =>
        change (d.dot d').eval v = 0 ↔ -y * y' - x * x' = 0
        rw [hinner, neg_mul, ← neg_add', neg_eq_zero, add_comm]
      | true =>
        change ((d.cross d').dot n).eval v = 0 ↔ -y * x' - x * -y' = 0
        rw [houter, neg_mul, mul_neg, sub_neg_eq_add, neg_add_eq_sub]

/-! ## In space -/

private theorem Shares.heads_cubic {scope : EntityId → Prop} {known : ParamId → Prop}
    (h : s.Shares scope known s) (hk : s.Offers scope (k, Entity.isCubic)) {d : Vec3 (Expr ℝ)}
    (hd : s.cubicTangent k atFinish = .ok d) {n : Vec3 ℝ} :
    s.Heads v n k atFinish (d.eval v) := by
  obtain ⟨hscope, ⟨id, j, wp, shape⟩, he, hkind⟩ := hk
  have hread := h.readable k _ hscope he
  cases shape with
  | cubic start afterStart beforeFinish finish =>
    obtain ⟨control, hcontrol, _⟩ := h.pointExprs
      (hread.point (k := if atFinish then beforeFinish else afterStart)
        (by cases atFinish <;> simp [Shape.demands]))
    obtain ⟨position, hposition, _⟩ := h.pointExprs
      (hread.point (k := if atFinish then finish else start)
        (by cases atFinish <;> simp [Shape.demands]))
    cases (cubicTangent_of_find? he rfl hcontrol hposition).symm.trans hd
    exact .cubic he rfl ⟨_, hcontrol, rfl⟩ ⟨_, hposition, rfl⟩
  | _ => cases hkind

private theorem Shares.heads_line {scope : EntityId → Prop} {known : ParamId → Prop}
    (h : s.Shares scope known s) (hk : s.Offers scope (k, Entity.isLine)) {d : Vec3 (Expr ℝ)}
    (hd : s.vectorExprs k = .ok d) {n : Vec3 ℝ} : s.Heads v n k atFinish (d.eval v) := by
  obtain ⟨hscope, ⟨id, j, wp, shape⟩, he, hkind⟩ := hk
  have hread := h.readable k _ hscope he
  cases shape with
  | line a b =>
    obtain ⟨ea, hea, _⟩ := h.pointExprs (hread.point (k := a) (by simp [Shape.demands]))
    obtain ⟨eb, heb, _⟩ := h.pointExprs (hread.point (k := b) (by simp [Shape.demands]))
    have hline : s.vectorExprs k = .ok (ea - eb) := bind_eq_ok_iff.mpr ⟨_, entity_of_find? he,
      bind_eq_ok_iff.mpr ⟨_, hea, bind_eq_ok_iff.mpr ⟨_, heb, rfl⟩⟩⟩
    cases hline.symm.trans hd
    exact .line he rfl ⟨_, hea, rfl⟩ ⟨_, heb, rfl⟩
  | _ => cases hkind

/-- Whether a constraint is three equations that are all zero for some value of an unknown exactly
if two curves head along parallel directions, provided that both directions are not zero. No plane
has a part in the directions. -/
def TouchesFreely (s : Sketch ℝ) (v : ParamId → ℝ) (c : Constraint ℝ) (scale : ParamId)
    (x y : EntityId × Bool) : Prop :=
  ∃ d d' es, (∀ n, s.Heads v n x.1 x.2 d) ∧ (∀ n, s.Heads v n y.1 y.2 d') ∧
    c.equations s = .ok es ∧ es.length = 3 ∧
    (d ≠ ⟨0, 0, 0⟩ → d' ≠ ⟨0, 0, 0⟩ →
      ((∃ t, ∀ e ∈ es, e.eval (Function.update v scale t) = 0) ↔ d.Parallel d'))

/-- A cubic and a line touch in space. -/
theorem Linked.touchesFreely {id : ConstraintId} {line : EntityId} {scale : ParamId} (h : s.Linked)
    (hp : s.Placed) (hid : s.constraints.find? id = some c)
    (hc : c.relation = .cubicLineTangent k line atFinish (some scale))
    (hwp : c.workplane = none) : s.TouchesFreely v c scale (k, atFinish) (line, false) := by
  have hshares := h.shares_references (t := s) hp hid (fun _ _ ↦ rfl) fun _ _ ↦ rfl
  have hread := h.readable_of_names hp hid
  have hcubic : s.Offers (s.Reaches c.references) (k, Entity.isCubic) :=
    hread.part (by simp [hc, Relation.demands])
  have hline : s.Offers (s.Reaches c.references) (line, Entity.isLine) :=
    hread.part (by simp [hc, Relation.demands])
  obtain ⟨d, hd, _, hwithin⟩ := hshares.cubicTangent hcubic atFinish
  obtain ⟨d', hd', _, hwithin'⟩ := hshares.vectorExprs hline.hasVector
  refine ⟨d.eval v, d'.eval v, parallelEquations d d' scale,
    fun _ ↦ hshares.heads_cubic hcubic hd, fun _ ↦ hshares.heads_line hline hd', ?_, rfl,
    fun hne _ ↦ ?_⟩
  · obtain ⟨_, j, wp, relation⟩ := c
    cases hc
    cases hwp
    exact bind_eq_ok_iff.mpr ⟨_, hd, bind_eq_ok_iff.mpr ⟨_, hd', rfl⟩⟩
  · have hscale : ¬ s.OwnedWithin c.group c.references scale :=
      h.not_ownedWithin_aux hid (by rw [hc, Relation.aux?])
    rw [Vec3.parallel_iff hne]
    refine exists_congr fun t ↦ forall_parallelEquations.trans ?_
    rw [hwithin.eval_update hscale, hwithin'.eval_update hscale, Function.update_self]

/-! ## Tangencies of a sketch -/

/-- Sketches whose tangencies say exactly that two curves head along parallel directions. -/
structure TangentExactly (s : Sketch ℝ) (v : ParamId → ℝ) : Prop where
  /-- In a workplane that the curves are drawn in. -/
  plane : ∀ k c x y w shape shape', s.constraints.find? k = some c →
    c.relation.contact? = some (x, y) → c.workplane = some w → s.DrawnIn w x.1 shape →
    s.DrawnIn w y.1 shape' → s.HasUnitNormal v w →
    ∃ P, s.LiesAs v w P ∧ s.Touches v c P.normal x y
  /-- In space, for a cubic and a line, for some value of the scale between them. -/
  space : ∀ k c cubic line atFinish scale, s.constraints.find? k = some c →
    c.relation = .cubicLineTangent cubic line atFinish scale → c.workplane = none →
    ∃ p, scale = some p ∧ s.TouchesFreely v c p (cubic, atFinish) (line, false)

/-- In a sketch that comes about, a tangency says exactly that two curves head along parallel
directions. -/
theorem tangentExactly {la : LinearAlgebra ℝ} (hs : s.Reachable la) (v : ParamId → ℝ) :
    s.TangentExactly v := by
  obtain ⟨hlinked, hplaced⟩ := hs.linked_placed
  constructor
  · intro k c x y w shape shape' hk hcontact hwp hx hy hunit
    obtain ⟨P, hP⟩ := hlinked.exists_liesAs hunit
    refine ⟨P, hP, ?_⟩
    have hmet : ∀ d ∈ c.relation.demands, s.Meets c.group d :=
      fun d hd ↦ hlinked.constraints k c hk d (List.mem_append_right _ hd)
    cases hc : c.relation with
    | arcLineTangent arc line atFinish =>
      rw [hc] at hcontact hmet
      cases hcontact
      obtain ⟨normal, center, start, finish, rfl⟩ :=
        hx.eq_arc (hmet (arc, Entity.isArc) (by simp [Relation.demands]))
      obtain ⟨a, b, rfl⟩ := hy.eq_line (hmet (line, Entity.isLine) (by simp [Relation.demands]))
      exact hP.touches_arcLine hlinked hc hx hy
    | cubicLineTangent cubic line atFinish scale =>
      rw [hc] at hcontact hmet
      cases hcontact
      obtain ⟨start, afterStart, beforeFinish, finish, rfl⟩ :=
        hx.eq_cubic (hmet (cubic, Entity.isCubic) (by simp [Relation.demands]))
      obtain ⟨a, b, rfl⟩ := hy.eq_line (hmet (line, Entity.isLine) (by simp [Relation.demands]))
      exact hP.touches_cubicLine hlinked hc hwp hx hy
    | curveCurveTangent a b aAtFinish bAtFinish =>
      rw [hc] at hcontact hmet
      cases hcontact
      exact hP.touches_curves hlinked hc hwp hx hy
        (hmet (a, Entity.isBent) (by simp [Relation.demands]))
        (hmet (b, Entity.isBent) (by simp [Relation.demands]))
    | _ =>
      rw [hc] at hcontact
      cases hcontact
  · intro k c cubic line atFinish scale hk hc hwp
    have hfits := hplaced.constraints k c hk
    rw [Constraint.isPlaced, hc, hwp] at hfits
    obtain ⟨p, rfl⟩ := Option.isSome_iff_exists.mp (eq_of_beq hfits).symm
    exact ⟨p, rfl, hlinked.touchesFreely hplaced hk hc hwp⟩

end Sketch

/-- An arc, a cubic and a line that start at one point of a tilted plane and are tangent there. -/
noncomputable def curvesFromOnePoint : Sketch ℝ :=
  (Sketch.empty .default).runAll .exact
    [.draw ⟨1⟩ (.normal3d ⟨0.5, 0.5, 0.5, 0.5⟩), .draw ⟨1⟩ (.point3d ⟨1.0, 2.0, 3.0⟩),
      .draw ⟨1⟩ (.workplane ⟨2⟩ ⟨1⟩), .draw ⟨1⟩ (.point2d ⟨3⟩ 0.0 0.0),
      .draw ⟨1⟩ (.point2d ⟨3⟩ 1.0 0.0), .draw ⟨1⟩ (.point2d ⟨3⟩ 0.0 1.0),
      .draw ⟨1⟩ (.point2d ⟨3⟩ 1.0 2.0), .draw ⟨1⟩ (.point2d ⟨3⟩ 2.0 2.0),
      .draw ⟨1⟩ (.arc ⟨3⟩ ⟨1⟩ ⟨4⟩ ⟨5⟩ ⟨6⟩), .draw ⟨1⟩ (.line2d ⟨3⟩ ⟨5⟩ ⟨7⟩),
      .draw ⟨1⟩ (.cubic ⟨3⟩ ⟨5⟩ ⟨7⟩ ⟨8⟩ ⟨6⟩), .relate ⟨1⟩ (.tangent ⟨9⟩ ⟨10⟩ (some ⟨3⟩)),
      .relate ⟨1⟩ (.tangent ⟨9⟩ ⟨11⟩ (some ⟨3⟩)), .relate ⟨1⟩ (.tangent ⟨11⟩ ⟨10⟩ none)]

set_option maxRecDepth 2000 in
private theorem contents_curvesFromOnePoint : curvesFromOnePoint.entities.values =
    [⟨⟨1⟩, ⟨1⟩, none, .normal3d ⟨1⟩ ⟨2⟩ ⟨3⟩ ⟨4⟩⟩, ⟨⟨2⟩, ⟨1⟩, none, .point3d ⟨5⟩ ⟨6⟩ ⟨7⟩⟩,
      ⟨⟨3⟩, ⟨1⟩, none, .workplane ⟨2⟩ ⟨1⟩⟩, ⟨⟨4⟩, ⟨1⟩, some ⟨3⟩, .point2d ⟨8⟩ ⟨9⟩⟩,
      ⟨⟨5⟩, ⟨1⟩, some ⟨3⟩, .point2d ⟨10⟩ ⟨11⟩⟩, ⟨⟨6⟩, ⟨1⟩, some ⟨3⟩, .point2d ⟨12⟩ ⟨13⟩⟩,
      ⟨⟨7⟩, ⟨1⟩, some ⟨3⟩, .point2d ⟨14⟩ ⟨15⟩⟩, ⟨⟨8⟩, ⟨1⟩, some ⟨3⟩, .point2d ⟨16⟩ ⟨17⟩⟩,
      ⟨⟨9⟩, ⟨1⟩, some ⟨3⟩, .arc ⟨1⟩ ⟨4⟩ ⟨5⟩ ⟨6⟩⟩, ⟨⟨10⟩, ⟨1⟩, some ⟨3⟩, .line ⟨5⟩ ⟨7⟩⟩,
      ⟨⟨11⟩, ⟨1⟩, some ⟨3⟩, .cubic ⟨5⟩ ⟨7⟩ ⟨8⟩ ⟨6⟩⟩] ∧
    curvesFromOnePoint.constraints.values =
      [⟨⟨1⟩, ⟨1⟩, some ⟨3⟩, .arcLineTangent ⟨9⟩ ⟨10⟩ false⟩,
        ⟨⟨2⟩, ⟨1⟩, some ⟨3⟩, .curveCurveTangent ⟨9⟩ ⟨11⟩ false false⟩,
        ⟨⟨3⟩, ⟨1⟩, none, .cubicLineTangent ⟨11⟩ ⟨10⟩ false (some ⟨18⟩)⟩] := by
  have hunit : (⟨0.5, 0.5, 0.5, 0.5⟩ : Quaternion ℝ).lengthSquared = 1 := by
    norm_num [Quaternion.lengthSquared]
  rw [curvesFromOnePoint, Sketch.runAll, List.foldl_cons, Sketch.step_draw_normal3d _ _ _ hunit]
  exact ⟨rfl, rfl⟩

/-- In the plane the arc touches the line, where neither direction is zero, and the cubic. In space
the cubic touches the line. -/
theorem tangentExactly_curvesFromOnePoint : ∃ c d e : Constraint ℝ,
    curvesFromOnePoint.Reachable .exact ∧ curvesFromOnePoint.HasUnitNormal tilted ⟨3⟩ ∧
    curvesFromOnePoint.constraints.find? ⟨1⟩ = some c ∧
    (∃ n x y f, curvesFromOnePoint.Heads tilted n ⟨9⟩ false x ∧ x ≠ ⟨0, 0, 0⟩ ∧
      curvesFromOnePoint.Heads tilted n ⟨10⟩ false y ∧ y ≠ ⟨0, 0, 0⟩ ∧
      c.equations curvesFromOnePoint = .ok [f] ∧ (f.eval tilted = 0 ↔ x.Parallel y)) ∧
    curvesFromOnePoint.constraints.find? ⟨2⟩ = some d ∧
    (∃ P, curvesFromOnePoint.LiesAs tilted ⟨3⟩ P ∧
      curvesFromOnePoint.Touches tilted d P.normal (⟨9⟩, false) (⟨11⟩, false)) ∧
    curvesFromOnePoint.constraints.find? ⟨3⟩ = some e ∧
    ∃ p, curvesFromOnePoint.TouchesFreely tilted e p (⟨11⟩, false) (⟨10⟩, false) := by
  have hreachable : curvesFromOnePoint.Reachable .exact := ⟨.default, _, rfl⟩
  have hentity := hreachable.wellNumbered.entities.find?_of_mem
  have hconstraint := hreachable.wellNumbered.constraints.find?_of_mem
  simp only [contents_curvesFromOnePoint, List.forall_mem_cons] at hentity hconstraint
  obtain ⟨hnormal, _, hplane, hcenter, hstart, _, hother, _, harc, hline, hcubic, _⟩ := hentity
  obtain ⟨hstraight, hcurved, hspace, _⟩ := hconstraint
  have hunit : curvesFromOnePoint.HasUnitNormal tilted ⟨3⟩ :=
    Sketch.hasUnitNormal_of_find? hplane rfl hnormal rfl
      (by norm_num [Quaternion.lengthSquared, tilted])
  have htangent := Sketch.tangentExactly hreachable tilted
  obtain ⟨p, _, hfree⟩ := htangent.space _ _ _ _ _ _ hspace rfl rfl
  obtain ⟨P, hP, x, y, f, hx, hy, hf, htouch⟩ :=
    htangent.plane _ _ _ _ _ _ _ hstraight rfl rfl ⟨_, harc, rfl, rfl⟩ ⟨_, hline, rfl, rfl⟩ hunit
  have hmiddle := hP.standsAt ⟨_, hcenter, rfl, rfl⟩
  have hcommon := hP.standsAt ⟨_, hstart, rfl, rfl⟩
  have hx' : x ≠ ⟨0, 0, 0⟩ := by
    rw [hx.unique (.arc harc rfl hmiddle hcommon), Plane.point_sub_point,
      Plane.normal_cross_displacement, Ne, Plane.displacement_eq_zero_iff]
    norm_num [tilted]
  have hy' : y ≠ ⟨0, 0, 0⟩ := by
    rw [hy.unique (.line hline rfl hcommon (hP.standsAt ⟨_, hother, rfl, rfl⟩)),
      Plane.point_sub_point, Ne, Plane.displacement_eq_zero_iff]
    norm_num [tilted]
  exact ⟨_, _, _, hreachable, hunit, hstraight,
    ⟨P.normal, x, y, f, hx, hx', hy, hy', hf, htouch hx' hy'⟩, hcurved,
    htangent.plane _ _ _ _ _ _ _ hcurved rfl rfl ⟨_, harc, rfl, rfl⟩ ⟨_, hcubic, rfl, rfl⟩ hunit,
    hspace, p, hfree⟩

end SketchSolver
