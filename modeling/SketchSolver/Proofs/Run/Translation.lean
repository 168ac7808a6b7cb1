import SketchSolver.Proofs.Run.Reading

/-!
# Translation into equations

The equations of every constraint and every entity can be written where their references lead into
a scope that is closed under references. They mention known parameters only, and two sketches that
share the scope and the known values give the same equations, also where these depend on current
values.
-/

namespace SketchSolver

open Outcome

variable {R : Type} [Arith R] {known : ParamId → Prop}

namespace Sketch

omit [Arith R] in
/-- Parallel directions mention what they are made of. -/
@[simp] theorem within_parallelEquations {a b : Vec3 (Expr R)} {scale : ParamId} :
    (∀ e ∈ parallelEquations a b scale, e.Within known) ↔
      a.Within known ∧ b.Within known ∧ known scale := by
  simp [parallelEquations]

variable {scope : EntityId → Prop} {s t : Sketch R} {wp : Option EntityId}

namespace Shares

variable (h : s.Shares scope known t)

include h

/-! ## Middles, angles and arcs -/

/-- The middle of two points in a workplane is written. -/
theorem workplaneMidpoint {w a b : EntityId} (hw : s.Offers scope (w, Entity.isWorkplane))
    (ha : s.Offers scope (a, Entity.isPoint)) (hb : s.Offers scope (b, Entity.isPoint)) :
    Concur (s.workplaneMidpoint w a b) (t.workplaneMidpoint w a b) fun m ↦
      m.1.Within known ∧ m.2.Within known := by
  refine (h.pointInWorkplane ha hw).bind ?_
  rintro ⟨au, av⟩ hau
  refine (h.pointInWorkplane hb hw).bind ?_
  rintro ⟨bu, bv⟩ hbu
  exact .ok (by simp [hau, hbu])

/-- The middle of two points in space is written. -/
theorem midpoint {a b : EntityId} (ha : s.Offers scope (a, Entity.isPoint))
    (hb : s.Offers scope (b, Entity.isPoint)) :
    Concur (s.midpoint a b) (t.midpoint a b) fun m ↦ m.Within known := by
  refine (h.pointExprs ha).bind fun x hx ↦ (h.pointExprs hb).bind fun y hy ↦ .ok ?_
  simp [hx, hy]

/-- The cosine of the angle between two directions is written, also with the first reversed. -/
theorem orientedCosine {a b : EntityId} (ha : s.Offers scope (a, Entity.hasVector))
    (hb : s.Offers scope (b, Entity.hasVector)) (hwp : s.OffersPlane scope wp) (inverse : Bool) :
    Concur (s.orientedCosine wp a b inverse) (t.orientedCosine wp a b inverse) fun e ↦
      e.Within known := by
  refine (h.vectorExprs ha).bind fun x hx ↦ (h.vectorExprs hb).bind fun y hy ↦ ?_
  refine h.directionCosine hwp ?_ hy
  split
  · simp [hx]
  · exact hx

private theorem arcDirection {k : EntityId} (hk : s.Offers scope (k, Entity.isArc))
    (atFinish : Bool) :
    Concur (s.curveDirection k atFinish) (t.curveDirection k atFinish) fun d ↦
      d.1.Within known := by
  refine (h.entity hk).bind ?_
  rintro ⟨id, g, own, shape⟩ ⟨hkind, hread⟩
  cases shape with
  | arc normal center start finish =>
    refine (h.pointExprs (hread.arcEnd atFinish)).bind fun x hx ↦ ?_
    refine (h.pointExprs (hread.point (by simp [Shape.demands]))).bind fun c hc ↦ .ok ?_
    simp [hx, hc]
  | _ => cases hkind

private theorem cubicDirection {k : EntityId} (hk : s.Offers scope (k, Entity.isCubic))
    (atFinish : Bool) :
    Concur (s.curveDirection k atFinish) (t.curveDirection k atFinish) fun d ↦
      d.1.Within known := by
  refine (h.entity hk).bind ?_
  rintro ⟨id, g, own, shape⟩ ⟨hkind, _⟩
  cases shape with
  | cubic start afterStart beforeFinish finish =>
    exact (h.cubicTangent hk atFinish).bind fun a ha ↦ .ok ha
  | _ => cases hkind

/-- The direction of a curve at one of its ends is written. -/
theorem curveDirection {k : EntityId} (hk : s.Offers scope (k, Entity.isBent))
    (atFinish : Bool) :
    Concur (s.curveDirection k atFinish) (t.curveDirection k atFinish) fun d ↦
      d.1.Within known := by
  obtain ⟨hscope, e, he, hkind⟩ := hk
  rcases Bool.or_eq_true_iff.mp hkind with harc | hcubic
  · exact h.arcDirection ⟨hscope, e, he, harc⟩ atFinish
  · exact h.cubicDirection ⟨hscope, e, he, hcubic⟩ atFinish

private theorem arcLength_arc {k : EntityId} (hk : s.Offers scope (k, Entity.isArc)) :
    Concur (s.arcLength k) (t.arcLength k) fun e ↦ e.Within known := by
  refine (h.entity hk).bind ?_
  rintro ⟨id, g, own, shape⟩ ⟨hkind, hread⟩
  cases shape with
  | arc normal center start finish =>
    have hnormal : s.Offers scope (normal, Entity.isNormal3d) :=
      hread.part (by simp [Shape.demands])
    refine (h.pointExprs (hread.point (by simp [Shape.demands]))).bind fun c hc ↦ ?_
    refine (h.pointExprs (hread.point (by simp [Shape.demands]))).bind fun a ha ↦ ?_
    refine (h.pointExprs (hread.point (by simp [Shape.demands]))).bind fun b hb ↦ ?_
    refine (h.normalDirection hnormal.isNormal).bind fun n hn ↦ ?_
    refine (h.arcAngles hk).bind fun angles _ ↦ .ok ?_
    split
    · simp [ha, hb, hc]
    · split
      · simp [ha, hb, hc, hn]
      · simp [ha, hb, hc]
  | _ => cases hkind

private theorem arcLength_circle {k : EntityId} (hk : s.Offers scope (k, Entity.isCircle))
    (hround : s.Offers scope (k, fun e ↦ e.shape matches .circle ..)) :
    Concur (s.arcLength k) (t.arcLength k) fun e ↦ e.Within known := by
  refine (h.entity hround).bind ?_
  rintro ⟨id, g, own, shape⟩ ⟨hkind, _⟩
  cases shape with
  | circle center normal radius =>
    refine (h.circleRadius hk).bind fun r hr ↦ .ok ?_
    simp [hr]
  | _ => cases hkind

/-- The length of an arc or the circumference of a circle is written. -/
theorem arcLength {k : EntityId} (hk : s.Offers scope (k, Entity.isCircle)) :
    Concur (s.arcLength k) (t.arcLength k) fun e ↦ e.Within known := by
  obtain ⟨hscope, e, he, hkind⟩ := id hk
  rcases Bool.or_eq_true_iff.mp hkind with harc | hround
  · exact h.arcLength_arc ⟨hscope, e, he, harc⟩
  · exact h.arcLength_circle hk ⟨hscope, e, he, hround⟩

/-- A point stays at the same coordinates. -/
theorem stayEquations_eq {coordinates : List (Expr R)}
    (hc : ∀ e ∈ coordinates, e.Within known) :
    t.stayEquations coordinates = s.stayEquations coordinates := by
  apply List.map_congr_left
  intro e he
  rw [h.eval_eq (hc e he)]

omit h in
/-- The equations of a point that stays mention what its coordinates do. -/
theorem within_stayEquations {coordinates : List (Expr R)}
    (hc : ∀ e ∈ coordinates, e.Within known) :
    ∀ e ∈ s.stayEquations coordinates, e.Within known := by
  intro e he
  obtain ⟨x, hx, rfl⟩ := List.mem_map.mp he
  simp [hc x hx]

end Shares

end Sketch

/-! ## Constraints -/

/-- The equations of a constraint are written alike for two sketches, over known parameters. -/
abbrev Constraint.Translates (known : ParamId → Prop) (s t : Sketch R) (c : Constraint R) : Prop :=
  Concur (c.equations s) (c.equations t) fun es ↦ ∀ e ∈ es, e.Within known

namespace Sketch.Shares

variable {scope : EntityId → Prop} {s t : Sketch R} {wp : Option EntityId} {id : ConstraintId}
  {g : GroupId} (h : s.Shares scope known t)

include h

private theorem translates_pointsCoincident {a b : EntityId}
    (hc : (⟨id, g, wp, .pointsCoincident a b⟩ : Constraint R).Readable s scope known) :
    Constraint.Translates known s t ⟨id, g, wp, .pointsCoincident a b⟩ := by
  have ha : s.Offers scope (a, Entity.isPoint) := hc.part (by simp [Relation.demands])
  have hb : s.Offers scope (b, Entity.isPoint) := hc.part (by simp [Relation.demands])
  cases wp with
  | none =>
    refine (h.pointExprs ha).bind fun x hx ↦ (h.pointExprs hb).bind fun y hy ↦ .ok ?_
    simp [hx, hy]
  | some w =>
    have hw := hc.plane _ List.mem_cons_self
    refine (h.pointInWorkplane ha hw).bind ?_
    rintro ⟨au, av⟩ hau
    refine (h.pointInWorkplane hb hw).bind ?_
    rintro ⟨bu, bv⟩ hbu
    exact .ok (by simp [hau, hbu])

private theorem translates_pointOnLine {point line : EntityId} {place : ParamId}
    (hc : (⟨id, g, wp, .pointOnLine point line place⟩ : Constraint R).Readable s scope known) :
    Constraint.Translates known s t ⟨id, g, wp, .pointOnLine point line place⟩ := by
  have hplace : known place := hc.aux place rfl
  refine (h.linePoints (hc.part (by simp [Relation.demands]))).bind ?_
  rintro ⟨la, lb⟩ hends
  refine (h.pointIn hends.1 hc.plane).bind fun a ha ↦ ?_
  refine (h.pointIn hends.2 hc.plane).bind fun b hb ↦ ?_
  refine (h.pointIn (hc.part (by simp [Relation.demands])) hc.plane).bind fun p hp ↦ ?_
  have hd : (a + (b - a).scale (.param place) - p).Within known := by simp [ha, hb, hp, hplace]
  obtain ⟨hx, hy, hz⟩ := hd
  cases wp with
  | none => exact .ok (by simp [hx, hy, hz])
  | some w => exact .ok (by simp [hx, hy])

private theorem translates_pointOnCircle {point circle : EntityId}
    (hc : (⟨id, g, wp, .pointOnCircle point circle⟩ : Constraint R).Readable s scope known) :
    Constraint.Translates known s t ⟨id, g, wp, .pointOnCircle point circle⟩ := by
  have hcircle : s.Offers scope (circle, Entity.isCircle) := hc.part (by simp [Relation.demands])
  refine (h.circleCenterNormal hcircle).bind ?_
  rintro ⟨center, normal⟩ hparts
  refine (h.normalQuaternion hparts.2).bind fun q hq ↦ ?_
  refine (h.pointExprs hparts.1).bind fun c hcenter ↦ ?_
  refine (h.pointExprs (hc.part (by simp [Relation.demands]))).bind fun p hp ↦ ?_
  refine (h.circleRadius hcircle).bind fun r hr ↦ .ok ?_
  simp [hq, hcenter, hp, hr]

private theorem translates_symmetric {a b plane : EntityId}
    (hc : (⟨id, g, wp, .symmetric a b plane⟩ : Constraint R).Readable s scope known) :
    Constraint.Translates known s t ⟨id, g, wp, .symmetric a b plane⟩ := by
  have ha : s.Offers scope (a, Entity.isPoint) := hc.part (by simp [Relation.demands])
  have hb : s.Offers scope (b, Entity.isPoint) := hc.part (by simp [Relation.demands])
  have hplane : s.Offers scope (plane, Entity.isWorkplane) := hc.part (by simp [Relation.demands])
  cases wp with
  | none =>
    refine (h.midpoint ha hb).bind fun m hm ↦ ?_
    refine (h.pointInWorkplane ha hplane).bind ?_
    rintro ⟨au, av⟩ hau
    refine (h.pointInWorkplane hb hplane).bind ?_
    rintro ⟨bu, bv⟩ hbu
    refine (h.pointPlaneDistance hplane hm).bind fun d hd ↦ .ok ?_
    simp [hau, hbu, hd]
  | some w =>
    have hw := hc.plane _ List.mem_cons_self
    refine (h.workplaneMidpoint hw ha hb).bind ?_
    rintro ⟨mu, mv⟩ hmid
    refine (h.pointInSpace hw hmid.1 hmid.2).bind fun m hm ↦ ?_
    refine (h.frame hw).bind fun f hf ↦ (h.frame hplane).bind fun n hn ↦ ?_
    refine (h.pointExprs ha).bind fun x hx ↦ (h.pointExprs hb).bind fun y hy ↦ ?_
    refine (h.pointPlaneDistance hplane hm).bind fun d hd ↦ .ok ?_
    simp [hd, hx, hy, hf.u, hf.v, hn.n]

private theorem translates_symmetricLine {a b line : EntityId}
    (hc : (⟨id, g, wp, .symmetricLine a b line⟩ : Constraint R).Readable s scope known) :
    Constraint.Translates known s t ⟨id, g, wp, .symmetricLine a b line⟩ := by
  have ha : s.Offers scope (a, Entity.isPoint) := hc.part (by simp [Relation.demands])
  have hb : s.Offers scope (b, Entity.isPoint) := hc.part (by simp [Relation.demands])
  have hline : s.Offers scope (line, Entity.isLine) := hc.part (by simp [Relation.demands])
  refine (hc.requireWorkplane hc.placed).bind fun w hw ↦ ?_
  refine (h.linePoints hline).bind ?_
  rintro ⟨la, lb⟩ hends
  refine (h.pointInWorkplane ha hw).bind ?_
  rintro ⟨au, av⟩ hau
  refine (h.pointInWorkplane hb hw).bind ?_
  rintro ⟨bu, bv⟩ hbu
  refine (h.pointInWorkplane hends.1 hw).bind ?_
  rintro ⟨lau, lav⟩ hla
  refine (h.pointInWorkplane hends.2 hw).bind ?_
  rintro ⟨lbu, lbv⟩ hlb
  exact .ok (by simp [hau, hbu, hla, hlb])

private theorem translates_pointAtMidpoint {point line : EntityId}
    (hc : (⟨id, g, wp, .pointAtMidpoint point line⟩ : Constraint R).Readable s scope known) :
    Constraint.Translates known s t ⟨id, g, wp, .pointAtMidpoint point line⟩ := by
  have hpoint : s.Offers scope (point, Entity.isPoint) := hc.part (by simp [Relation.demands])
  refine (h.linePoints (hc.part (by simp [Relation.demands]))).bind ?_
  rintro ⟨la, lb⟩ hends
  cases wp with
  | none =>
    refine (h.midpoint hends.1 hends.2).bind fun m hm ↦ ?_
    refine (h.pointExprs hpoint).bind fun p hp ↦ .ok ?_
    simp [hm, hp]
  | some w =>
    have hw := hc.plane _ List.mem_cons_self
    refine (h.workplaneMidpoint hw hends.1 hends.2).bind ?_
    rintro ⟨mu, mv⟩ hm
    refine (h.pointInWorkplane hpoint hw).bind ?_
    rintro ⟨pu, pv⟩ hp
    exact .ok (by simp [hm, hp])

private theorem translates_midpointInPlane {line plane : EntityId}
    (hc : (⟨id, g, wp, .midpointInPlane line plane⟩ : Constraint R).Readable s scope known) :
    Constraint.Translates known s t ⟨id, g, wp, .midpointInPlane line plane⟩ := by
  have hplane : s.Offers scope (plane, Entity.isWorkplane) := hc.part (by simp [Relation.demands])
  refine (h.linePoints (hc.part (by simp [Relation.demands]))).bind ?_
  rintro ⟨la, lb⟩ hends
  cases wp with
  | none =>
    refine (h.midpoint hends.1 hends.2).bind fun m hm ↦ ?_
    refine (h.pointPlaneDistance hplane hm).bind fun d hd ↦ .ok ?_
    simp [hd]
  | some w =>
    have hw := hc.plane _ List.mem_cons_self
    refine (h.workplaneMidpoint hw hends.1 hends.2).bind ?_
    rintro ⟨mu, mv⟩ hmid
    refine (h.pointInSpace hw hmid.1 hmid.2).bind fun m hm ↦ ?_
    refine (h.pointPlaneDistance hplane hm).bind fun d hd ↦ .ok ?_
    simp [hd]

private theorem translates_sameOrientation {a b : EntityId} {scale : ParamId}
    (hc : (⟨id, g, wp, .sameOrientation a b scale⟩ : Constraint R).Readable s scope known) :
    Constraint.Translates known s t ⟨id, g, wp, .sameOrientation a b scale⟩ := by
  have hscale : known scale := hc.aux scale rfl
  have ha : s.Offers scope (a, Entity.isNormal3d) := hc.part (by simp [Relation.demands])
  have hb : s.Offers scope (b, Entity.isNormal3d) := hc.part (by simp [Relation.demands])
  refine (h.normalQuaternion ha.isNormal).bind fun qa hqa ↦ ?_
  refine (h.normalQuaternion hb.isNormal).bind fun qb hqb ↦ ?_
  have hv : (qa.rotationU.dot qb.rotationV).Within known := by simp [hqa, hqb]
  have hu : (qa.rotationU.dot qb.rotationU).Within known := by simp [hqa, hqb]
  -- Which of the two twists is written depends on current values, which are the same.
  dsimp only
  rw [h.eval_eq hv, h.eval_eq hu]
  refine .ok ?_
  intro e he
  rcases List.mem_append.mp he with he | he
  · exact (within_parallelEquations.mpr ⟨by simp [hqa], by simp [hqb], hscale⟩) e he
  · rw [List.mem_singleton.mp he]
    split
    · exact hv
    · exact hu

private theorem translates_parallel {a b : EntityId} {scale : Option ParamId}
    (hc : (⟨id, g, wp, .parallel a b scale⟩ : Constraint R).Readable s scope known) :
    Constraint.Translates known s t ⟨id, g, wp, .parallel a b scale⟩ := by
  refine (h.vectorIn (hc.part (by simp [Relation.demands])) hc.plane).bind fun x hx ↦ ?_
  refine (h.vectorIn (hc.part (by simp [Relation.demands])) hc.plane).bind fun y hy ↦ ?_
  cases wp with
  | some w =>
    refine .ok ?_
    simp [hx.1, hx.2.1, hy.1, hy.2.1]
  | none =>
    cases scale with
    | some k => exact .ok (within_parallelEquations.mpr ⟨hx, hy, hc.aux k rfl⟩)
    | none => cases hc.placed

private theorem translates_cubicLineTangent {cubic line : EntityId} {atFinish : Bool}
    {scale : Option ParamId}
    (hc : (⟨id, g, wp, .cubicLineTangent cubic line atFinish scale⟩ : Constraint R).Readable s
      scope known) :
    Constraint.Translates known s t ⟨id, g, wp, .cubicLineTangent cubic line atFinish scale⟩ := by
  have hline : s.Offers scope (line, Entity.isLine) := hc.part (by simp [Relation.demands])
  refine (h.cubicTangent (hc.part (by simp [Relation.demands])) atFinish).bind fun x hx ↦ ?_
  refine (h.vectorExprs hline.hasVector).bind fun y hy ↦ ?_
  cases wp with
  | some w =>
    refine (h.workplaneNormal (hc.plane _ List.mem_cons_self)).bind fun n hn ↦ .ok ?_
    simp [hx, hy, hn]
  | none =>
    cases scale with
    | some k => exact .ok (within_parallelEquations.mpr ⟨hx, hy, hc.aux k rfl⟩)
    | none => cases hc.placed

private theorem translates_arcLineTangent {arc line : EntityId} {atFinish : Bool}
    (hc : (⟨id, g, wp, .arcLineTangent arc line atFinish⟩ : Constraint R).Readable s scope
      known) :
    Constraint.Translates known s t ⟨id, g, wp, .arcLineTangent arc line atFinish⟩ := by
  have harc : s.Offers scope (arc, Entity.isArc) := hc.part (by simp [Relation.demands])
  have hline : s.Offers scope (line, Entity.isLine) := hc.part (by simp [Relation.demands])
  refine (h.entity harc).bind ?_
  rintro ⟨id, g, own, shape⟩ ⟨hkind, hread⟩
  cases shape with
  | arc normal center start finish =>
    refine (h.pointExprs (hread.point (by simp [Shape.demands]))).bind fun c hcenter ↦ ?_
    refine (h.pointExprs (hread.arcEnd atFinish)).bind fun x hx ↦ ?_
    refine (h.vectorExprs hline.hasVector).bind fun y hy ↦ .ok ?_
    simp [hcenter, hx, hy]
  | _ => cases hkind

private theorem translates_curveCurveTangent {a b : EntityId} {aAtFinish bAtFinish : Bool}
    (hc : (⟨id, g, wp, .curveCurveTangent a b aAtFinish bAtFinish⟩ : Constraint R).Readable s
      scope known) :
    Constraint.Translates known s t ⟨id, g, wp, .curveCurveTangent a b aAtFinish bAtFinish⟩ := by
  have ha : s.Offers scope (a, Entity.isBent) := hc.part (by simp [Relation.demands])
  have hb : s.Offers scope (b, Entity.isBent) := hc.part (by simp [Relation.demands])
  refine (hc.requireWorkplane hc.placed).bind fun w hw ↦ ?_
  refine (h.curveDirection ha aAtFinish).bind ?_
  rintro ⟨x, xRadius⟩ hx
  refine (h.curveDirection hb bAtFinish).bind ?_
  rintro ⟨y, yRadius⟩ hy
  refine .ite ?_ ?_
  · exact .ok (by simp [hx, hy])
  · refine (h.workplaneNormal hw).bind fun n hn ↦ .ok ?_
    simp [hx, hy, hn]

private theorem translates_whereDragged {point : EntityId}
    (hc : (⟨id, g, wp, .whereDragged point⟩ : Constraint R).Readable s scope known) :
    Constraint.Translates known s t ⟨id, g, wp, .whereDragged point⟩ := by
  have hpoint : s.Offers scope (point, Entity.isPoint) := hc.part (by simp [Relation.demands])
  cases wp with
  | none =>
    refine (h.pointExprs hpoint).bind fun x hx ↦ ?_
    have hlist := Vec3.within_toList.mpr hx
    rw [h.stayEquations_eq hlist]
    exact .ok (within_stayEquations hlist)
  | some w =>
    refine (h.pointInWorkplane hpoint (hc.plane _ List.mem_cons_self)).bind ?_
    rintro ⟨u, v⟩ huv
    have hlist : ∀ e ∈ [u, v], e.Within known := by simpa using huv
    dsimp only
    rw [h.stayEquations_eq hlist]
    exact .ok (within_stayEquations hlist)

/-- The equations of every kind of constraint are written alike. -/
theorem equations {c : Constraint R} (hc : c.Readable s scope known) :
    Constraint.Translates known s t c := by
  obtain ⟨id, g, wp, relation⟩ := c
  have hplane : s.OffersPlane scope wp := hc.plane
  cases relation with
  | pointsCoincident a b => exact h.translates_pointsCoincident hc
  | pointInPlane point plane | pointPlaneDistance point plane distance =>
    refine (h.pointExprs (hc.part (by simp [Relation.demands]))).bind fun p hp ↦ ?_
    refine (h.pointPlaneDistance (hc.part (by simp [Relation.demands])) hp).bind fun d hd ↦ .ok ?_
    simp [hd]
  | pointOnLine point line place => exact h.translates_pointOnLine hc
  | pointOnCircle point circle => exact h.translates_pointOnCircle hc
  | pointPointDistance a b distance =>
    refine (h.distanceExpr (hc.part (by simp [Relation.demands]))
      (hc.part (by simp [Relation.demands])) hplane).bind fun d hd ↦ .ok ?_
    simp [hd]
  | projectedPointDistance a b direction distance =>
    refine (h.pointExprs (hc.part (by simp [Relation.demands]))).bind fun y hy ↦ ?_
    refine (h.pointExprs (hc.part (by simp [Relation.demands]))).bind fun x hx ↦ ?_
    refine (h.vectorExprs (hc.part (by simp [Relation.demands]))).bind fun d hd ↦ .ok ?_
    simp [hx, hy, hd]
  | pointLineDistance point line distance =>
    refine (h.pointLineDistance (hc.part (by simp [Relation.demands]))
      (hc.part (by simp [Relation.demands])) hplane).bind fun d hd ↦ .ok ?_
    simp [hd]
  | equalLength a b | lengthRatio a b ratio | lengthDifference a b difference =>
    refine (h.lineLength (hc.part (by simp [Relation.demands])) hplane).bind fun x hx ↦ ?_
    refine (h.lineLength (hc.part (by simp [Relation.demands])) hplane).bind fun y hy ↦ .ok ?_
    simp [hx, hy]
  | equalLengthPointLineDistance line point otherLine =>
    refine (h.lineLength (hc.part (by simp [Relation.demands])) hplane).bind fun x hx ↦ ?_
    refine (h.pointLineDistance (hc.part (by simp [Relation.demands]))
      (hc.part (by simp [Relation.demands])) hplane).bind fun y hy ↦ .ok ?_
    simp [hx, hy]
  | equalPointLineDistances pointA lineA pointB lineB =>
    refine (h.pointLineDistance (hc.part (by simp [Relation.demands]))
      (hc.part (by simp [Relation.demands])) hplane).bind fun x hx ↦ ?_
    refine (h.pointLineDistance (hc.part (by simp [Relation.demands]))
      (hc.part (by simp [Relation.demands])) hplane).bind fun y hy ↦ .ok ?_
    simp [hx, hy]
  | equalLineArcLength line arc =>
    refine (h.arcLength (hc.part (by simp [Relation.demands]))).bind fun x hx ↦ ?_
    refine (h.lineLength (hc.part (by simp [Relation.demands])) offersPlane_none).bind
      fun y hy ↦ .ok ?_
    simp [hx, hy]
  | equalRadius a b =>
    refine (h.circleRadius (hc.part (by simp [Relation.demands]))).bind fun x hx ↦ ?_
    refine (h.circleRadius (hc.part (by simp [Relation.demands]))).bind fun y hy ↦ .ok ?_
    simp [hx, hy]
  | diameter circle diameter =>
    refine (h.circleRadius (hc.part (by simp [Relation.demands]))).bind fun x hx ↦ .ok ?_
    simp [hx]
  | symmetric a b plane => exact h.translates_symmetric hc
  | symmetricHorizontal a b | symmetricVertical a b =>
    have ha : s.Offers scope (a, Entity.isPoint2d) := hc.part (by simp [Relation.demands])
    have hb : s.Offers scope (b, Entity.isPoint2d) := hc.part (by simp [Relation.demands])
    refine (hc.requireWorkplane hc.placed).bind fun w hw ↦ ?_
    refine (h.pointInWorkplane ha.isPoint_of_isPoint2d hw).bind ?_
    rintro ⟨au, av⟩ hau
    refine (h.pointInWorkplane hb.isPoint_of_isPoint2d hw).bind ?_
    rintro ⟨bu, bv⟩ hbu
    exact .ok (by simp [hau, hbu])
  | symmetricLine a b line => exact h.translates_symmetricLine hc
  | pointAtMidpoint point line => exact h.translates_pointAtMidpoint hc
  | midpointInPlane line plane => exact h.translates_midpointInPlane hc
  | horizontal line a b | vertical line a b =>
    obtain ⟨ha, hb⟩ := hc.axisPoints line a b (by simp)
    refine (hc.requireWorkplane hc.placed).bind fun w hw ↦ ?_
    refine (h.pointInWorkplane ha hw).bind fun x hx ↦ ?_
    refine (h.pointInWorkplane hb hw).bind fun y hy ↦ .ok ?_
    simp [hx, hy]
  | sameOrientation a b scale => exact h.translates_sameOrientation hc
  | angle a b degrees inverse | perpendicular a b inverse =>
    refine (h.orientedCosine (hc.part (by simp [Relation.demands]))
      (hc.part (by simp [Relation.demands])) hplane inverse).bind fun x hx ↦ .ok ?_
    simp [hx]
  | equalAngle a b c d inverse =>
    refine (h.orientedCosine (hc.part (by simp [Relation.demands]))
      (hc.part (by simp [Relation.demands])) hplane inverse).bind fun x hx ↦ ?_
    refine (h.orientedCosine (hc.part (by simp [Relation.demands]))
      (hc.part (by simp [Relation.demands])) hplane false).bind fun y hy ↦ .ok ?_
    simp [hx, hy]
  | parallel a b scale => exact h.translates_parallel hc
  | arcLineTangent arc line atFinish => exact h.translates_arcLineTangent hc
  | cubicLineTangent cubic line atFinish scale => exact h.translates_cubicLineTangent hc
  | curveCurveTangent a b aAtFinish bAtFinish => exact h.translates_curveCurveTangent hc
  | whereDragged point => exact h.translates_whereDragged hc

/-! ## Entities -/

/-- The equations of every kind of entity are written alike, if the same points are joined in its
group. -/
theorem entityEquations {e : Entity} (he : e.Readable s scope known)
    (hjoined : ∀ a b, t.areJoined e.group a b = s.areJoined e.group a b) :
    Concur (s.entityEquations e) (t.entityEquations e) fun xs ↦ ∀ x ∈ xs, x.Within known := by
  obtain ⟨id, g, wp, shape⟩ := e
  cases shape with
  | normal3d w x y z =>
    refine .ok ?_
    simpa [Entity.params, Shape.params] using he.params
  | arc normal center start finish =>
    have hcenter : s.Offers scope (center, Entity.isPointOf wp) :=
      he.part (by simp [Shape.demands])
    refine (h.entity hcenter).bind fun c _ ↦ ?_
    rw [hjoined]
    refine .ite (.ok (by simp)) ?_
    refine (h.distanceExpr hcenter.isPoint (he.point (by simp [Shape.demands]))
      he.plane).bind fun x hx ↦ ?_
    refine (h.distanceExpr hcenter.isPoint (he.point (by simp [Shape.demands]))
      he.plane).bind fun y hy ↦ .ok ?_
    simp [hx, hy]
  | _ => exact .ok (by simp)

end Sketch.Shares

end SketchSolver
