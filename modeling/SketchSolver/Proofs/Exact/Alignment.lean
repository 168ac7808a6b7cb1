import SketchSolver.Proofs.Exact.Auxiliary
import SketchSolver.Proofs.Exact.Motion
import SketchSolver.Proofs.Exact.Workplanes

/-!
# Aligned normals

Two normals have the same orientation if the third axis of one is a multiple of that of the other,
and the first axis of one is at right angles to an axis of the other: to the second one if at the
values of the sketch the first axes are closer, and to the first one if not. The axes of a unit
quaternion are orthonormal. So the multiple is the same direction or the opposite one, and the first
axis has no other direction left than the remaining one of the plane.
-/

namespace SketchSolver

open Outcome

/-! ## Directions of length one -/

namespace Vec3

/-- Whether a direction is another one or the opposite of it. -/
def Aligned (a b : Vec3 ℝ) : Prop := a = b ∨ a = b.scale (-1)

variable {a b d u v : Vec3 ℝ} {t : ℝ}

/-- A multiple of a direction of length one has length one only if the factor is a sign. -/
theorem eq_one_or_eq_neg_one (ha : a.dot a = 1) (hb : b.dot b = 1) (h : a = b.scale t) :
    t = 1 ∨ t = -1 := by
  refine mul_self_eq_one_iff.mp ?_
  rw [h, scale_dot, dot_comm, scale_dot, hb, mul_one] at ha
  exact ha

/-- Directions of length one are the same or opposite exactly if one is a multiple of the other. -/
theorem aligned_iff (ha : a.dot a = 1) (hb : b.dot b = 1) :
    a.Aligned b ↔ ∃ t : ℝ, a = b.scale t := by
  constructor
  · rintro (h | h)
    · exact ⟨1, h.trans (scale_one b).symm⟩
    · exact ⟨-1, h⟩
  · rintro ⟨t, h⟩
    rcases eq_one_or_eq_neg_one ha hb h with rfl | rfl
    · exact .inl (h.trans (scale_one b))
    · exact .inr h

/-- What is at right angles to a direction is at right angles to the same and the opposite one. -/
theorem Aligned.dot_eq_zero (h : a.Aligned b) (hd : d.dot a = 0) : d.dot b = 0 := by
  rcases h with rfl | rfl
  · exact hd
  · rw [dot_comm, scale_dot, neg_one_mul, neg_eq_zero] at hd
    rw [dot_comm]
    exact hd

/-- Orthonormal directions in the other order. -/
theorem Orthonormal.symm (h : u.Orthonormal v) : v.Orthonormal u :=
  ⟨h.right, h.left, (dot_comm v u).trans h.orthogonal⟩

/-- A direction of length one in the plane of two orthonormal directions is at right angles to the
second one exactly if it is aligned with the first one. -/
theorem Orthonormal.dot_eq_zero_iff (h : u.Orthonormal v) (hd : d.dot d = 1)
    (hn : d.dot (u.cross v) = 0) : d.dot v = 0 ↔ d.Aligned u := by
  rw [aligned_iff hd h.left]
  let P : Plane := ⟨⟨0, 0, 0⟩, u, v, h⟩
  constructor
  · intro hv
    refine ⟨d.dot u, P.ext_dot ?_ ?_ ?_⟩
    · rw [scale_dot, h.left, mul_one]
    · rw [scale_dot, h.orthogonal, mul_zero, hv]
    · rw [scale_dot, dot_comm u, Plane.normal, cross_dot_left, mul_zero, hn]
  · rintro ⟨t, rfl⟩
    rw [scale_dot, h.orthogonal, mul_zero]

end Vec3

/-- The first axis of a unit quaternion whose third axis is aligned with that of another one is at
right angles to the second axis of the other exactly if the first axes are aligned, and to the first
axis exactly if it is aligned with the second one. -/
theorem Quaternion.axisU_dot_eq_zero_iff {p q : Quaternion ℝ} (hp : p.lengthSquared = 1)
    (hq : q.lengthSquared = 1) (h : p.axisN.Aligned q.axisN) :
    (p.axisU.dot q.axisV = 0 ↔ p.axisU.Aligned q.axisU) ∧
      (p.axisU.dot q.axisU = 0 ↔ p.axisU.Aligned q.axisV) := by
  have hunit := (orthonormal_axes hp).left
  have hplane := orthonormal_axes hq
  have hnormal : p.axisU.dot q.axisN = 0 :=
    h.dot_eq_zero ((Vec3.dot_comm _ _).trans p.areAxes.nu)
  rw [← cross_axes hq] at hnormal
  refine ⟨hplane.dot_eq_zero_iff hunit hnormal, hplane.symm.dot_eq_zero_iff hunit ?_⟩
  rw [Vec3.dot_comm, Vec3.cross_dot_swap, Vec3.dot_comm, hnormal, neg_zero]

/-! ## The equations -/

namespace Sketch

variable {s : Sketch ℝ} {c : Constraint ℝ} {a b : EntityId} {scale : ParamId}
  {qa qb : Quaternion (Expr ℝ)} {v : ParamId → ℝ}

/-- Whether at the values of a sketch the first axis of a normal is closer to the first axis of
another one than to its second axis. -/
def FirstAxesCloser (s : Sketch ℝ) (qa qb : Quaternion (Expr ℝ)) : Prop :=
  |(qa.eval s.value).axisU.dot (qb.eval s.value).axisV| <
    |(qa.eval s.value).axisU.dot (qb.eval s.value).axisU|

noncomputable instance : Decidable (s.FirstAxesCloser qa qb) :=
  inferInstanceAs (Decidable (_ < _))

/-- The product of axes of two normals that is to be zero. -/
noncomputable def twist (s : Sketch ℝ) (qa qb : Quaternion (Expr ℝ)) : Expr ℝ :=
  qa.rotationU.dot (if s.FirstAxesCloser qa qb then qb.rotationV else qb.rotationU)

/-- The equations of two normals of the same orientation. -/
theorem equations_sameOrientation (hc : c.relation = .sameOrientation a b scale)
    (ha : s.normalQuaternion a = .ok qa) (hb : s.normalQuaternion b = .ok qb) :
    c.equations s = .ok (parallelEquations qa.rotationN qb.rotationN scale ++ [s.twist qa qb]) := by
  obtain ⟨id, g, wp, relation⟩ := c
  cases hc
  have htwist : s.twist qa qb =
      if Arith.abs ((qa.rotationU.dot qb.rotationV).eval s.value) <
          Arith.abs ((qa.rotationU.dot qb.rotationU).eval s.value) then
        qa.rotationU.dot qb.rotationV
      else qa.rotationU.dot qb.rotationU := by
    rw [Vec3.eval_dot, Vec3.eval_dot, Quaternion.eval_rotationU, Quaternion.eval_rotationV,
      Quaternion.eval_rotationU, twist]
    exact apply_ite _ _ _ _
  rw [htwist]
  exact bind_eq_ok_iff.mpr ⟨_, ha, bind_eq_ok_iff.mpr ⟨_, hb, rfl⟩⟩

/-- Where the third axes are aligned, the product of axes is zero exactly if the first axis of one
normal is aligned with that axis of the other which it is not to be at right angles to. -/
theorem eval_twist_eq_zero_iff (ha : (qa.eval v).lengthSquared = 1)
    (hb : (qb.eval v).lengthSquared = 1) (h : (qa.eval v).axisN.Aligned (qb.eval v).axisN) :
    (s.twist qa qb).eval v = 0 ↔ (qa.eval v).axisU.Aligned
      (if s.FirstAxesCloser qa qb then (qb.eval v).axisU else (qb.eval v).axisV) := by
  obtain ⟨hfirst, hsecond⟩ := Quaternion.axisU_dot_eq_zero_iff ha hb h
  rw [twist, Vec3.eval_dot, Quaternion.eval_rotationU]
  split
  · rw [Quaternion.eval_rotationV]
    exact hfirst
  · rw [Quaternion.eval_rotationU]
    exact hsecond

/-- What the equations of two normals of the same orientation say at an assignment. -/
structure Aligns (s : Sketch ℝ) (v : ParamId → ℝ) (scale : ParamId) (qa qb : Quaternion (Expr ℝ))
    (es : List (Expr ℝ)) : Prop where
  /-- They are zero for some scale exactly if the third axes are aligned, and the first axis of one
  normal with the first or the second one of the other. -/
  zero_iff : (∃ t, ∀ e ∈ es, e.eval (Function.update v scale t) = 0) ↔
    (qa.eval v).axisN.Aligned (qb.eval v).axisN ∧ (qa.eval v).axisU.Aligned
      (if s.FirstAxesCloser qa qb then (qb.eval v).axisU else (qb.eval v).axisV)
  /-- The scale is a sign then. -/
  scale_eq : ∀ t, (∀ e ∈ es, e.eval (Function.update v scale t) = 0) → t = 1 ∨ t = -1

/-- The equations are zero for a scale exactly if the third axes are in this ratio and the product
of axes is zero. -/
theorem forall_sameOrientation {known : ParamId → Prop} (ha : qa.Within known)
    (hb : qb.Within known) (hscale : ¬ known scale) (t : ℝ) :
    (∀ e ∈ parallelEquations qa.rotationN qb.rotationN scale ++ [s.twist qa qb],
      e.eval (Function.update v scale t) = 0) ↔
      (qa.eval v).axisN = (qb.eval v).axisN.scale t ∧ (s.twist qa qb).eval v = 0 := by
  have htwist : (s.twist qa qb).Within known := by
    refine Vec3.within_dot.mpr ⟨Quaternion.within_rotationU.mpr ha, ?_⟩
    split
    · exact Quaternion.within_rotationV.mpr hb
    · exact Quaternion.within_rotationU.mpr hb
  have hna : qa.rotationN.Within known := Quaternion.within_rotationN.mpr ha
  have hnb : qb.rotationN.Within known := Quaternion.within_rotationN.mpr hb
  rw [List.forall_mem_append, forall_parallelEquations, List.forall_mem_singleton,
    hna.eval_update hscale, hnb.eval_update hscale, htwist.eval_update hscale,
    Function.update_self, Quaternion.eval_rotationN, Quaternion.eval_rotationN]

/-- At unit quaternions the equations say that axes are aligned. -/
theorem aligns_sameOrientation {known : ParamId → Prop} (ha : qa.Within known)
    (hb : qb.Within known) (hscale : ¬ known scale) (hone : (qa.eval v).lengthSquared = 1)
    (hone' : (qb.eval v).lengthSquared = 1) :
    s.Aligns v scale qa qb
      (parallelEquations qa.rotationN qb.rotationN scale ++ [s.twist qa qb]) := by
  have hna : (qa.eval v).axisN.dot (qa.eval v).axisN = 1 := by
    rw [(qa.eval v).areAxes.nn, hone, one_pow]
  have hnb : (qb.eval v).axisN.dot (qb.eval v).axisN = 1 := by
    rw [(qb.eval v).areAxes.nn, hone', one_pow]
  have hall := forall_sameOrientation (s := s) (v := v) ha hb hscale
  constructor
  · simp only [hall, exists_and_right]
    rw [← Vec3.aligned_iff hna hnb]
    exact and_congr_right fun h ↦ eval_twist_eq_zero_iff hone hone' h
  · intro t ht
    exact Vec3.eq_one_or_eq_neg_one hna hnb ((hall t).mp ht).1

/-- In every sketch that comes about, the four equations of two normals of the same orientation say
at unit quaternions that axes of the normals are aligned. The last one of them is the product of
axes that was closer to zero when it was written. -/
theorem Reachable.exists_aligns {la : LinearAlgebra ℝ} (hs : s.Reachable la) {k : ConstraintId}
    (hk : s.constraints.find? k = some c) (hc : c.relation = .sameOrientation a b scale) :
    ∃ qa qb es, s.normalQuaternion a = .ok qa ∧ s.normalQuaternion b = .ok qb ∧
      c.equations s = .ok es ∧ es.length = 4 ∧ es.getLast? = some (s.twist qa qb) ∧
      ∀ v, (qa.eval v).lengthSquared = 1 → (qb.eval v).lengthSquared = 1 →
        s.Aligns v scale qa qb es := by
  obtain ⟨hlinked, hplaced⟩ := hs.linked_placed
  have hshares := hlinked.shares_references (t := s) hplaced hk (fun _ _ ↦ rfl) fun _ _ ↦ rfl
  have hread := hlinked.readable_of_names hplaced hk
  have hna : s.Offers (s.Reaches c.references) (a, Entity.isNormal3d) :=
    hread.part (by simp [hc, Relation.demands])
  have hnb : s.Offers (s.Reaches c.references) (b, Entity.isNormal3d) :=
    hread.part (by simp [hc, Relation.demands])
  obtain ⟨qa, ha, _, hwithin⟩ := hshares.normalQuaternion hna.isNormal
  obtain ⟨qb, hb, _, hwithin'⟩ := hshares.normalQuaternion hnb.isNormal
  have hscale : ¬ s.OwnedWithin c.group c.references scale :=
    hlinked.not_ownedWithin_aux hk (by rw [hc, Relation.aux?])
  exact ⟨qa, qb, _, ha, hb, equations_sameOrientation hc ha hb, rfl, List.getLast?_concat,
    fun v hone hone' ↦ aligns_sameOrientation hwithin hwithin' hscale hone hone'⟩

end Sketch

/-- Two normals along the coordinate axes, of the same orientation. -/
noncomputable def normalsTogether : Sketch ℝ :=
  (Sketch.empty .default).runAll .exact
    [.draw ⟨1⟩ (.normal3d ⟨1.0, 0.0, 0.0, 0.0⟩), .draw ⟨1⟩ (.normal3d ⟨1.0, 0.0, 0.0, 0.0⟩),
      .relate ⟨1⟩ (.sameOrientation ⟨1⟩ ⟨2⟩)]

private theorem normalsTogether_eq : normalsTogether =
    ((((Sketch.empty .default).addEntity ⟨1⟩ none (.normal3d 1.0 0.0 0.0 0.0)).2.addEntity ⟨1⟩ none
      (.normal3d 1.0 0.0 0.0 0.0)).2).runAll .exact [.relate ⟨1⟩ (.sameOrientation ⟨1⟩ ⟨2⟩)] := by
  have hunit : (⟨1.0, 0.0, 0.0, 0.0⟩ : Quaternion ℝ).lengthSquared = 1 := by
    norm_num [Quaternion.lengthSquared]
  rw [normalsTogether, Sketch.runAll, List.foldl_cons, List.foldl_cons,
    Sketch.step_draw_normal3d _ _ _ hunit, Sketch.step_draw_normal3d _ _ _ hunit]
  rfl

private theorem contents_normalsTogether :
    normalsTogether.constraints.find? ⟨1⟩ =
      some ⟨⟨1⟩, ⟨1⟩, none, .sameOrientation ⟨1⟩ ⟨2⟩ ⟨9⟩⟩ ∧
    normalsTogether.normalQuaternion ⟨1⟩ = .ok (.ofParams ⟨1⟩ ⟨2⟩ ⟨3⟩ ⟨4⟩) ∧
    normalsTogether.normalQuaternion ⟨2⟩ = .ok (.ofParams ⟨5⟩ ⟨6⟩ ⟨7⟩ ⟨8⟩) ∧
    (Quaternion.ofParams ⟨1⟩ ⟨2⟩ ⟨3⟩ ⟨4⟩).eval normalsTogether.value = ⟨1.0, 0.0, 0.0, 0.0⟩ ∧
    (Quaternion.ofParams ⟨5⟩ ⟨6⟩ ⟨7⟩ ⟨8⟩).eval normalsTogether.value = ⟨1.0, 0.0, 0.0, 0.0⟩ := by
  rw [normalsTogether_eq]
  exact ⟨rfl, rfl, rfl, rfl, rfl⟩

/-- Values at which the second normal is turned by half a turn about its third axis. -/
noncomputable def halfTurned (p : ParamId) : ℝ := if p.index = 1 ∨ p.index = 8 then 1 else 0

/-- After half a turn of the second normal, the equations are still zero for some scale. -/
theorem exists_aligns_normalsTogether : normalsTogether.Reachable .exact ∧
    ∃ c qa qb es, normalsTogether.constraints.find? ⟨1⟩ = some c ∧
      c.relation = .sameOrientation ⟨1⟩ ⟨2⟩ ⟨9⟩ ∧ c.equations normalsTogether = .ok es ∧
      (qa.eval halfTurned).lengthSquared = 1 ∧ (qb.eval halfTurned).lengthSquared = 1 ∧
      normalsTogether.Aligns halfTurned ⟨9⟩ qa qb es ∧
      ∃ t, ∀ e ∈ es, e.eval (Function.update halfTurned ⟨9⟩ t) = 0 := by
  have hreachable : normalsTogether.Reachable .exact := ⟨.default, _, rfl⟩
  obtain ⟨hfind, ha, hb, hva, hvb⟩ := contents_normalsTogether
  obtain ⟨qa, qb, es, ha', hb', hes, _, _, haligns⟩ := hreachable.exists_aligns hfind rfl
  cases ha.symm.trans ha'
  cases hb.symm.trans hb'
  have hpa : (Quaternion.ofParams ⟨1⟩ ⟨2⟩ ⟨3⟩ ⟨4⟩ : Quaternion (Expr ℝ)).eval halfTurned =
      ⟨1, 0, 0, 0⟩ := by
    simp [Quaternion.ofParams, Quaternion.eval, Quaternion.map, halfTurned]
  have hpb : (Quaternion.ofParams ⟨5⟩ ⟨6⟩ ⟨7⟩ ⟨8⟩ : Quaternion (Expr ℝ)).eval halfTurned =
      ⟨0, 0, 0, 1⟩ := by
    simp [Quaternion.ofParams, Quaternion.eval, Quaternion.map, halfTurned]
  have hcloser : normalsTogether.FirstAxesCloser (.ofParams ⟨1⟩ ⟨2⟩ ⟨3⟩ ⟨4⟩)
      (.ofParams ⟨5⟩ ⟨6⟩ ⟨7⟩ ⟨8⟩) := by
    rw [Sketch.FirstAxesCloser, hva, hvb]
    norm_num [Quaternion.axisU, Quaternion.axisV, Vec3.dot]
  have hone : ((Quaternion.ofParams ⟨1⟩ ⟨2⟩ ⟨3⟩ ⟨4⟩ : Quaternion (Expr ℝ)).eval
      halfTurned).lengthSquared = 1 := by
    rw [hpa]
    norm_num [Quaternion.lengthSquared]
  have hone' : ((Quaternion.ofParams ⟨5⟩ ⟨6⟩ ⟨7⟩ ⟨8⟩ : Quaternion (Expr ℝ)).eval
      halfTurned).lengthSquared = 1 := by
    rw [hpb]
    norm_num [Quaternion.lengthSquared]
  have hcase := haligns halfTurned hone hone'
  refine ⟨hreachable, _, _, _, es, hfind, rfl, hes, hone, hone', hcase, hcase.zero_iff.mpr ?_⟩
  rw [if_pos hcloser, hpa, hpb]
  constructor
  · exact .inl (by norm_num [Quaternion.axisN])
  · exact .inr (by norm_num [Quaternion.axisU, Vec3.scale])

end SketchSolver
