import Mathlib.Logic.Function.Basic
import SketchSolver.Proofs.Exact.Arith
import SketchSolver.Proofs.Run.Completeness

/-!
# Auxiliary unknowns

Some constraints have an unknown of their own, by which one vector is to be a multiple of another
one. No entity owns it, so what is written of the entities of the constraint does not mention it.
`Stretches` lists the vectors of each kind of constraint. The equations that mention the unknown are
the coordinates of the first vector less the multiple of the second, and they are read off for all
kinds at once.
-/

namespace SketchSolver

open Outcome

/-! ## Expressions without the unknown -/

section

variable {R : Type} [Arith R] {known : ParamId → Prop} {v : ParamId → R} {p : ParamId}

/-- An expression does not depend on a parameter that it does not mention. -/
theorem Expr.Within.eval_update {e : Expr R} (h : e.Within known) (hp : ¬ known p) (t : R) :
    e.eval (Function.update v p t) = e.eval v := by
  refine Expr.eval_congr fun q hq ↦ Function.update_of_ne ?_ t v
  rintro rfl
  exact hp (h q hq)

/-- A vector does not depend on a parameter that it does not mention. -/
theorem Vec3.Within.eval_update {a : Vec3 (Expr R)} (h : a.Within known) (hp : ¬ known p) (t : R) :
    a.eval (Function.update v p t) = a.eval v := by
  obtain ⟨hx, hy, hz⟩ := h
  simp only [Vec3.eval, Vec3.map, hx.eval_update hp, hy.eval_update hp, hz.eval_update hp]

omit [Arith R] in
/-- An expression over known parameters does not mention another one. -/
theorem Expr.Within.dependsOn_eq_false {e : Expr R} (h : e.Within known) (hp : ¬ known p) :
    e.dependsOn p = false := by
  rw [Bool.eq_false_iff, Ne, dependsOn_eq_true_iff]
  exact fun hmem ↦ hp (h p hmem)

end

namespace Sketch

section

variable {R : Type} {s : Sketch R} {c : Constraint R}

/-- No entity owns the auxiliary unknown of a constraint. -/
theorem Linked.not_ownedWithin_aux (h : s.Linked) {id : ConstraintId} {p : ParamId}
    (hid : s.constraints.find? id = some c) (haux : c.relation.aux? = some p) {g : GroupId}
    {roots : List EntityId} : ¬ s.OwnedWithin g roots p := by
  rintro ⟨q, owner, _, hq, _, howner, _⟩
  have hlisting : s.listing (.constraint id) = some (c.group, c.relation.aux?.toList) := by
    rw [listing, hid, Option.map_some]
  obtain ⟨q', hq', howner', _⟩ := h.exists_param hlisting (k := p) (by simp [haux])
  cases hq.symm.trans hq'
  rw [howner] at howner'
  cases howner'

end

/-! ## Vectors between which the unknown is the factor -/

section

variable {R P : Type} [Arith R] {s t : Sketch R}

/-- The two vectors of a relation between which its auxiliary unknown is the factor. -/
inductive Stretches (s : Sketch R) :
    Option EntityId → Relation R P → Vec3 (Expr R) → Vec3 (Expr R) → Prop
  /-- From an end of a line to the point on it, and from that end to the other. -/
  | pointOnLine {wp : Option EntityId} {point line la lb : EntityId} {place : P}
    {a b x : Vec3 (Expr R)} (hends : s.linePoints line = .ok (la, lb))
    (ha : s.pointIn la wp = .ok a) (hb : s.pointIn lb wp = .ok b)
    (hx : s.pointIn point wp = .ok x) :
    Stretches s wp (.pointOnLine point line place) (x - a) (b - a)
  /-- The normals. -/
  | sameOrientation {a b : EntityId} {scale : P} {qa qb : Quaternion (Expr R)}
    (ha : s.normalQuaternion a = .ok qa) (hb : s.normalQuaternion b = .ok qb) :
    Stretches s none (.sameOrientation a b scale) qa.rotationN qb.rotationN
  /-- The directions of lines or normals. -/
  | parallel {a b : EntityId} {scale : P} {x y : Vec3 (Expr R)} (ha : s.vectorExprs a = .ok x)
    (hb : s.vectorExprs b = .ok y) : Stretches s none (.parallel a b (some scale)) x y
  /-- The directions of a cubic and a line. -/
  | cubicLineTangent {cubic line : EntityId} {atFinish : Bool} {scale : P} {x y : Vec3 (Expr R)}
    (ha : s.cubicTangent cubic atFinish = .ok x) (hb : s.vectorExprs line = .ok y) :
    Stretches s none (.cubicLineTangent cubic line atFinish (some scale)) x y

/-- The vectors do not depend on what stands for the unknown. -/
theorem Stretches.of_mapAux {Q : Type} {f : P → Q} {wp : Option EntityId} {r : Relation R P}
    {x y : Vec3 (Expr R)} (h : s.Stretches wp (r.mapAux f) x y) : s.Stretches wp r x y := by
  generalize hr : r.mapAux f = r' at h
  cases h with
  | pointOnLine hends ha hb hx =>
    cases r <;> cases hr
    exact .pointOnLine hends ha hb hx
  | sameOrientation ha hb =>
    cases r <;> cases hr
    exact .sameOrientation ha hb
  | parallel ha hb =>
    cases r with
    | parallel a b scale =>
      cases scale with
      | none => cases hr
      | some scale =>
        cases hr
        exact .parallel ha hb
    | _ => cases hr
  | cubicLineTangent ha hb =>
    cases r with
    | cubicLineTangent cubic line atFinish scale =>
      cases scale with
      | none => cases hr
      | some scale =>
        cases hr
        exact .cubicLineTangent ha hb
    | _ => cases hr

variable {scope : EntityId → Prop} {known named : ParamId → Prop} {c : Constraint R} {p : ParamId}

/-- A constraint with an auxiliary unknown has two such vectors, which mention known parameters
only. -/
theorem Shares.exists_stretches (h : s.Shares scope known t) (hc : c.Readable s scope named)
    (haux : c.relation.aux? = some p) :
    ∃ x y, s.Stretches c.workplane c.relation x y ∧ t.Stretches c.workplane c.relation x y ∧
      x.Within known ∧ y.Within known := by
  obtain ⟨id, g, wp, relation⟩ := c
  have hplaced : relation.fits wp = true := hc.placed
  have hplane : s.OffersPlane scope wp := hc.plane
  have hpart : ∀ d ∈ relation.demands, s.Offers scope d := fun d hd ↦ hc.part hd
  change relation.aux? = some p at haux
  dsimp only
  cases relation with
  | pointOnLine point line place =>
    obtain ⟨⟨la, lb⟩, hends, hends', hla, hlb⟩ :=
      h.linePoints (hpart (line, Entity.isLine) (by simp [Relation.demands]))
    obtain ⟨a, ha, ha', hwa⟩ := h.pointIn hla hplane
    obtain ⟨b, hb, hb', hwb⟩ := h.pointIn hlb hplane
    obtain ⟨x, hx, hx', hwx⟩ :=
      h.pointIn (hpart (point, Entity.isPoint) (by simp [Relation.demands])) hplane
    exact ⟨_, _, .pointOnLine hends ha hb hx, .pointOnLine hends' ha' hb' hx',
      Vec3.within_sub.mpr ⟨hwx, hwa⟩, Vec3.within_sub.mpr ⟨hwb, hwa⟩⟩
  | sameOrientation a b scale =>
    obtain rfl : wp = none := Option.isNone_iff_eq_none.mp hplaced
    obtain ⟨qa, ha, ha', hwa⟩ := h.normalQuaternion
      (hpart (a, Entity.isNormal3d) (by simp [Relation.demands])).isNormal
    obtain ⟨qb, hb, hb', hwb⟩ := h.normalQuaternion
      (hpart (b, Entity.isNormal3d) (by simp [Relation.demands])).isNormal
    exact ⟨_, _, .sameOrientation ha hb, .sameOrientation ha' hb',
      Quaternion.within_rotationN.mpr hwa, Quaternion.within_rotationN.mpr hwb⟩
  | parallel a b scale =>
    obtain rfl : scale = some p := haux
    obtain rfl : wp = none := Option.isNone_iff_eq_none.mp (eq_of_beq hplaced)
    obtain ⟨x, ha, ha', hwa⟩ :=
      h.vectorExprs (hpart (a, Entity.hasVector) (by simp [Relation.demands]))
    obtain ⟨y, hb, hb', hwb⟩ :=
      h.vectorExprs (hpart (b, Entity.hasVector) (by simp [Relation.demands]))
    exact ⟨_, _, .parallel ha hb, .parallel ha' hb', hwa, hwb⟩
  | cubicLineTangent cubic line atFinish scale =>
    obtain rfl : scale = some p := haux
    obtain rfl : wp = none := Option.isNone_iff_eq_none.mp (eq_of_beq hplaced)
    obtain ⟨x, ha, ha', hwa⟩ :=
      h.cubicTangent (hpart (cubic, Entity.isCubic) (by simp [Relation.demands])) atFinish
    obtain ⟨y, hb, hb', hwb⟩ :=
      h.vectorExprs (hpart (line, Entity.isLine) (by simp [Relation.demands])).hasVector
    exact ⟨_, _, .cubicLineTangent ha hb, .cubicLineTangent ha' hb', hwa, hwb⟩
  | _ => cases haux

end

/-! ## Equations that mention the unknown -/

section

variable {R : Type} {p : ParamId} {a b : Expr R}

/-- What a sum mentions. -/
theorem dependsOn_add : (a + b).dependsOn p = (a.dependsOn p || b.dependsOn p) := rfl

/-- What a difference mentions. -/
theorem dependsOn_sub : (a - b).dependsOn p = (a.dependsOn p || b.dependsOn p) := rfl

/-- What a multiple mentions by its factor. -/
theorem dependsOn_mul_param : (a * .param p).dependsOn p = true :=
  (congrArg _ (beq_self_eq_true p)).trans (Bool.or_true _)

end

section

variable {s : Sketch ℝ} {known : ParamId → Prop} {c : Constraint ℝ} {v : ParamId → ℝ}
  {p : ParamId} {x y : Vec3 (Expr ℝ)}

/-- The sum of the squares of some expressions at an assignment. -/
noncomputable def sumOfSquares (v : ParamId → ℝ) (es : List (Expr ℝ)) : ℝ :=
  (es.map fun e ↦ e.eval v ^ 2).sum

/-- The expressions of a list that mention a parameter. -/
def mentioning (p : ParamId) (es : List (Expr ℝ)) : List (Expr ℝ) := es.filter (·.dependsOn p)

/-- The equations of two parallel directions are zero exactly if the first is the multiple of the
second. -/
theorem forall_parallelEquations :
    (∀ e ∈ parallelEquations x y p, e.eval v = 0) ↔ x.eval v = (y.eval v).scale (v p) := by
  simp [parallelEquations, Vec3.toList, Vec3.sub_def, Vec3.scale, Vec3.eval, Vec3.map, sub_eq_zero]

/-- All equations of two parallel directions mention the scale between them. -/
theorem mentioning_parallelEquations :
    mentioning p (parallelEquations x y p) = parallelEquations x y p := by
  simp [mentioning, parallelEquations, Vec3.toList, Vec3.sub_def, Vec3.scale, dependsOn_sub,
    dependsOn_mul_param]

/-- The sum of the squares of the equations of two parallel directions. -/
theorem sumOfSquares_parallelEquations : sumOfSquares v (parallelEquations x y p) =
    (x.eval v - (y.eval v).scale (v p)).dot (x.eval v - (y.eval v).scale (v p)) := by
  simp [sumOfSquares, parallelEquations, Vec3.toList, Vec3.sub_def, Vec3.scale, Vec3.dot,
    Vec3.eval, Vec3.map]
  ring

/-- Whether some equations mention an unknown as the factor by which one vector is to be a multiple
of another one: two of them in a workplane, and three in space. -/
structure Measures (es : List (Expr ℝ)) (wp : Option EntityId) (p : ParamId)
    (x y : Vec3 (Expr ℝ)) : Prop where
  /-- The number of equations that mention the unknown. -/
  count : (mentioning p es).length = if wp.isSome then 2 else 3
  /-- The sum of their squares is the squared length of what the first vector is apart from the
  multiple of the second. -/
  squares : ∀ v, sumOfSquares v (mentioning p es) =
    (x.eval v - (y.eval v).scale (v p)).dot (x.eval v - (y.eval v).scale (v p))

/-- Equations that do not mention the unknown can follow. -/
theorem Measures.append {es rest : List (Expr ℝ)} {wp : Option EntityId}
    (h : Measures es wp p x y) (hrest : mentioning p rest = []) :
    Measures (es ++ rest) wp p x y := by
  have hall : mentioning p (es ++ rest) = mentioning p es := by
    rw [mentioning, List.filter_append]
    exact (congrArg (_ ++ ·) hrest).trans (List.append_nil _)
  exact ⟨hall ▸ h.count, hall ▸ h.squares⟩

/-- The equations of two parallel directions measure the scale between them. -/
theorem measures_parallelEquations : Measures (parallelEquations x y p) none p x y := by
  refine ⟨?_, fun v ↦ ?_⟩
  · rw [mentioning_parallelEquations]
    rfl
  · rw [mentioning_parallelEquations, sumOfSquares_parallelEquations]

section

variable {a b z : Vec3 (Expr ℝ)}

/-- In space, the coordinates of a point on a line, less those of the point that is to be there,
measure its place. -/
theorem measures_place : Measures (a + (b - a).scale (.param p) - z).toList none p (z - a)
    (b - a) := by
  have hall : mentioning p (a + (b - a).scale (.param p) - z).toList =
      (a + (b - a).scale (.param p) - z).toList := by
    simp [mentioning, Vec3.toList, Vec3.sub_def, Vec3.add_def, Vec3.scale, dependsOn_add,
      dependsOn_sub, dependsOn_mul_param]
  refine ⟨?_, fun v ↦ ?_⟩
  · rw [hall]
    rfl
  · rw [hall]
    simp [sumOfSquares, Vec3.toList, Vec3.sub_def, Vec3.add_def, Vec3.scale, Vec3.dot, Vec3.eval,
      Vec3.map]
    ring

/-- In a workplane two coordinates do, since nothing is seen of a third one. -/
theorem measures_placeInPlane {w : EntityId} (ha : ∀ v, a.z.eval v = 0) (hb : ∀ v, b.z.eval v = 0)
    (hz : ∀ v, z.z.eval v = 0) :
    Measures [(a + (b - a).scale (.param p) - z).x, (a + (b - a).scale (.param p) - z).y] (some w) p
      (z - a) (b - a) := by
  have hall : mentioning p [(a + (b - a).scale (.param p) - z).x,
      (a + (b - a).scale (.param p) - z).y] =
      [(a + (b - a).scale (.param p) - z).x, (a + (b - a).scale (.param p) - z).y] := by
    simp [mentioning, Vec3.sub_def, Vec3.add_def, Vec3.scale, dependsOn_add, dependsOn_sub,
      dependsOn_mul_param]
  refine ⟨?_, fun v ↦ ?_⟩
  · rw [hall]
    rfl
  · rw [hall]
    simp [sumOfSquares, Vec3.sub_def, Vec3.add_def, Vec3.scale, Vec3.dot, Vec3.eval, Vec3.map, ha,
      hb, hz]
    ring

end

/-- In a workplane, the third coordinate of a point is zero. -/
theorem eval_z_of_pointIn {k w : EntityId} {a : Vec3 (Expr ℝ)} (h : s.pointIn k (some w) = .ok a)
    (v : ParamId → ℝ) : a.z.eval v = 0 := by
  obtain ⟨⟨i, j⟩, _, h⟩ := bind_eq_ok_iff.mp h
  cases h
  exact Arith.real_zero

/-- The equations of a constraint measure its auxiliary unknown. -/
theorem Stretches.exists_equations (h : s.Stretches c.workplane c.relation x y)
    (haux : c.relation.aux? = some p) (hx : x.Within known) (hy : y.Within known)
    (hp : ¬ known p) : ∃ es, c.equations s = .ok es ∧ Measures es c.workplane p x y := by
  obtain ⟨id, g, wp, relation⟩ := c
  dsimp only at h haux
  cases h with
  | @pointOnLine wp point line la lb place a b z hends ha hb hz =>
    cases haux
    cases wp with
    | none =>
      exact ⟨_, bind_eq_ok_iff.mpr ⟨_, hends, bind_eq_ok_iff.mpr ⟨_, ha, bind_eq_ok_iff.mpr
        ⟨_, hb, bind_eq_ok_iff.mpr ⟨_, hz, rfl⟩⟩⟩⟩, measures_place⟩
    | some w =>
      exact ⟨_, bind_eq_ok_iff.mpr ⟨_, hends, bind_eq_ok_iff.mpr ⟨_, ha, bind_eq_ok_iff.mpr
        ⟨_, hb, bind_eq_ok_iff.mpr ⟨_, hz, rfl⟩⟩⟩⟩, measures_placeInPlane (eval_z_of_pointIn ha)
          (eval_z_of_pointIn hb) (eval_z_of_pointIn hz)⟩
  | @sameOrientation a b scale qa qb ha hb =>
    cases haux
    have hu := Quaternion.within_rotationU.mpr (Quaternion.within_rotationN.mp hx)
    have hv := Quaternion.within_rotationV.mpr (Quaternion.within_rotationN.mp hy)
    have hu' := Quaternion.within_rotationU.mpr (Quaternion.within_rotationN.mp hy)
    refine ⟨_, bind_eq_ok_iff.mpr ⟨_, ha, bind_eq_ok_iff.mpr ⟨_, hb, rfl⟩⟩,
      measures_parallelEquations.append ?_⟩
    -- Whichever of the two products is kept, the unknown does not occur in it.
    have htwist : ∀ e : Expr ℝ, e.Within known → mentioning p [e] = [] := by
      intro e he
      rw [mentioning, List.filter_singleton, he.dependsOn_eq_false hp]
      rfl
    refine htwist _ ?_
    split
    · exact Vec3.within_dot.mpr ⟨hu, hv⟩
    · exact Vec3.within_dot.mpr ⟨hu, hu'⟩
  | parallel ha hb =>
    cases haux
    exact ⟨_, bind_eq_ok_iff.mpr ⟨_, ha, bind_eq_ok_iff.mpr ⟨_, hb, rfl⟩⟩,
      measures_parallelEquations⟩
  | cubicLineTangent ha hb =>
    cases haux
    exact ⟨_, bind_eq_ok_iff.mpr ⟨_, ha, bind_eq_ok_iff.mpr ⟨_, hb, rfl⟩⟩,
      measures_parallelEquations⟩

end

end Sketch

end SketchSolver
