import SketchSolver.Proofs.Exact.Auxiliary
import SketchSolver.Proofs.Exact.Motion
import SketchSolver.Proofs.Exact.Workplanes
import SketchSolver.Proofs.Run.Requests

/-!
# Where auxiliary unknowns start

When a constraint is added, its auxiliary unknown gets a value that is computed from numbers: the
factor that brings one vector closest to another. The equations are written from expressions, by
other functions. Both take the same two vectors, in the same order and measured in the same place.
So the unknown starts at the value that is best for the equations which mention it, and these are
zero at once if any value makes them zero.
-/

namespace SketchSolver

open Outcome

/-! ## The closest multiple -/

namespace Vec3

variable {a b : Vec3 ℝ}

/-- The squared length of what a vector is apart from a multiple of another one. -/
theorem dot_self_sub_scale (t : ℝ) : (a - b.scale t).dot (a - b.scale t) =
    a.dot a - 2 * t * a.dot b + t ^ 2 * b.dot b := by
  simp only [dot, scale, sub_def]
  ring

/-- A vector whose squared length is not positive is zero. -/
theorem eq_zero_of_dot_self (h : b.dot b ≤ 0) : b = ⟨0, 0, 0⟩ := by
  obtain ⟨x, y, z⟩ := b
  have hx := mul_self_nonneg x
  have hy := mul_self_nonneg y
  have hz := mul_self_nonneg z
  simp only [dot] at h
  rw [mk.injEq]
  exact ⟨mul_self_eq_zero.mp (by linarith), mul_self_eq_zero.mp (by linarith),
    mul_self_eq_zero.mp (by linarith)⟩

end Vec3

namespace Sketch

/-- No multiple of a vector is closer to another one than that with the closest factor. -/
theorem dot_self_closestScale_le (a b : Vec3 ℝ) (t : ℝ) :
    (a - b.scale (closestScale a b)).dot (a - b.scale (closestScale a b)) ≤
      (a - b.scale t).dot (a - b.scale t) := by
  unfold closestScale
  rw [Arith.real_zero]
  dsimp only
  split
  · next hpos =>
    have hfactor : a.dot b / b.dot b * b.dot b = a.dot b := div_mul_cancel₀ _ hpos.ne'
    have hsquare := mul_nonneg hpos.le (sq_nonneg (t - a.dot b / b.dot b))
    rw [Vec3.dot_self_sub_scale, Vec3.dot_self_sub_scale, ← hfactor]
    generalize a.dot b / b.dot b = x at hsquare ⊢
    rw [mul_div_cancel_right₀ x hpos.ne']
    linarith
  · next hnot =>
    rw [Vec3.eq_zero_of_dot_self (not_lt.mp hnot)]
    simp only [Vec3.scale, zero_mul, le_refl]

/-- The closest place along a line is the factor between its direction and that of the point. -/
theorem closestPlace_eq (a b p : Vec3 ℝ) : closestPlace a b p = closestScale (p - a) (b - a) := by
  unfold closestPlace closestScale
  dsimp only
  rw [Vec3.dot_comm (b - a) (p - a)]

/-! ## The value that is stored -/

section

variable {s : Sketch ℝ} {g : GroupId} {a b : EntityId} {x y : Vec3 (Expr ℝ)}

/-- The direction of a normal is its third axis. -/
theorem vectorExprs_of_normalQuaternion {q : Quaternion (Expr ℝ)}
    (h : s.normalQuaternion a = .ok q) : s.vectorExprs a = .ok q.rotationN := by
  obtain ⟨⟨id, j, wp, shape⟩, he, hshape⟩ := bind_eq_ok_iff.mp h
  have hdirection : s.normalDirection a = .ok q.rotationN := bind_eq_ok_iff.mpr ⟨_, h, rfl⟩
  refine bind_eq_ok_iff.mpr ⟨_, he, ?_⟩
  cases shape with
  | normal3d | normal2d => exact bind_eq_ok_iff.mpr ⟨_, hdirection, rfl⟩
  | _ => cases hshape

/-- The factor between two directions is the closest one. -/
theorem scaleOf_of_vectorExprs (ha : s.vectorExprs a = .ok x) (hb : s.vectorExprs b = .ok y) :
    s.scaleOf a b = .ok (closestScale (x.eval s.value) (y.eval s.value)) := by
  have hvalue : ∀ {k z}, s.vectorExprs k = .ok z → s.vectorValue k = .ok (z.eval s.value) :=
    fun h ↦ bind_eq_ok_iff.mpr ⟨_, h, rfl⟩
  exact bind_eq_ok_iff.mpr ⟨_, hvalue ha, bind_eq_ok_iff.mpr ⟨_, hvalue hb, rfl⟩⟩

/-- The place of a point along a line is planned where it is closest. -/
theorem eq_closestPlace_of_planCoincident {wp : Option EntityId} {t : ℝ} {la lb : EntityId}
    {ea eb ep : Vec3 (Expr ℝ)}
    (h : s.planCoincident g a b wp = .ok ⟨wp, .pointOnLine a b (.value t)⟩)
    (hends : s.linePoints b = .ok (la, lb)) (ha : s.pointIn la wp = .ok ea)
    (hb : s.pointIn lb wp = .ok eb) (hp : s.pointIn a wp = .ok ep) :
    t = closestPlace (ea.eval s.value) (eb.eval s.value) (ep.eval s.value) := by
  obtain ⟨_, _, h⟩ := bind_eq_ok_iff.mp h
  obtain ⟨_, _, h⟩ := bind_eq_ok_iff.mp h
  obtain ⟨other, _, h⟩ := bind_eq_ok_iff.mp h
  split at h
  · cases h
  · split at h
    · split at h <;> cases h
    · split at h
      · obtain ⟨_, hends', h⟩ := bind_eq_ok_iff.mp h
        cases hends.symm.trans hends'
        obtain ⟨_, ha', h⟩ := bind_eq_ok_iff.mp h
        cases ha.symm.trans ha'
        obtain ⟨_, hb', h⟩ := bind_eq_ok_iff.mp h
        cases hb.symm.trans hb'
        obtain ⟨_, hp', h⟩ := bind_eq_ok_iff.mp h
        cases hp.symm.trans hp'
        cases h
        rfl
      · cases h

/-- The value at which the auxiliary unknown of a planned constraint starts is the closest factor
between the two vectors of the relation. -/
theorem eq_closestScale_of_seedValue {request : ConstraintRequest ℝ} {plan : ConstraintPlan ℝ}
    {seed : Seed ℝ} {t : ℝ} (hplan : s.planConstraint g request = .ok plan)
    (hseeds : request.Seeds plan seed) (ht : s.seedValue seed = .ok t)
    (h : s.Stretches plan.workplane plan.relation x y) :
    t = closestScale (x.eval s.value) (y.eval s.value) := by
  cases hseeds with
  | place a b wp z =>
    cases ht
    cases h with
    | pointOnLine hends ha hb hp =>
      rw [eq_closestPlace_of_planCoincident hplan hends ha hb hp, closestPlace_eq]
      rfl
  | orientation a b z =>
    cases ht
    cases h with
    | sameOrientation ha hb =>
      obtain ⟨_, _, hplan⟩ := bind_eq_ok_iff.mp hplan
      obtain ⟨_, _, hplan⟩ := bind_eq_ok_iff.mp hplan
      obtain ⟨_, hscale, hplan⟩ := bind_eq_ok_iff.mp hplan
      cases (scaleOf_of_vectorExprs (vectorExprs_of_normalQuaternion ha)
        (vectorExprs_of_normalQuaternion hb)).symm.trans hscale
      cases hplan
      rfl
  | direction a b =>
    cases h with
    | parallel ha hb =>
      cases (scaleOf_of_vectorExprs ha hb).symm.trans ht
      rfl
  | tangent a b cubic line atFinish =>
    cases h with
    | cubicLineTangent ha hb =>
      have hline : s.vectorValue line = .ok (y.eval s.value) := bind_eq_ok_iff.mpr ⟨_, hb, rfl⟩
      have hseed : s.seedValue (.tangentScale cubic atFinish line) =
          .ok (closestScale (x.eval s.value) (y.eval s.value)) :=
        bind_eq_ok_iff.mpr ⟨_, ha, bind_eq_ok_iff.mpr ⟨_, hline, rfl⟩⟩
      cases hseed.symm.trans ht
      rfl

end

/-! ## The best value -/

section

variable {v : ParamId → ℝ} {es : List (Expr ℝ)}

/-- Expressions whose squares do not add up to more than zero are zero. -/
theorem eval_eq_zero_of_sumOfSquares (h : sumOfSquares v es ≤ 0) : ∀ e ∈ es, e.eval v = 0 := by
  intro e he
  have hnonneg : ∀ z ∈ es.map fun e ↦ e.eval v ^ 2, 0 ≤ z := by
    intro z hz
    obtain ⟨f, _, rfl⟩ := List.mem_map.mp hz
    exact sq_nonneg _
  have hsquare : e.eval v ^ 2 ≤ 0 :=
    (List.single_le_sum hnonneg _ (List.mem_map_of_mem he)).trans h
  exact pow_eq_zero_iff two_ne_zero |>.mp (le_antisymm hsquare (sq_nonneg _))

/-- The squares of expressions that are zero add up to zero. -/
theorem sumOfSquares_eq_zero (h : ∀ e ∈ es, e.eval v = 0) : sumOfSquares v es = 0 := by
  refine List.sum_eq_zero fun z hz ↦ ?_
  obtain ⟨e, he, rfl⟩ := List.mem_map.mp hz
  rw [h e he, zero_pow two_ne_zero]

end

/-- Whether the auxiliary unknown of a constraint has the value now that is best for the equations
of the constraint which mention it. -/
structure StartsBest (s : Sketch ℝ) (c : Constraint ℝ) (p : ParamId) (es : List (Expr ℝ)) :
    Prop where
  /-- The unknown is a parameter that belongs to the constraint. -/
  stored : ∃ q, s.params.find? p = some q ∧ q.owner = .constraint c.id
  /-- The constraint has these equations. -/
  equations : c.equations s = .ok es
  /-- In a workplane two of them mention the unknown, and in space three do. -/
  count : (mentioning p es).length = if c.workplane.isSome then 2 else 3
  /-- No other value makes the sum of the squares of these smaller. -/
  least : ∀ t, sumOfSquares s.value (mentioning p es) ≤
    sumOfSquares (Function.update s.value p t) (mentioning p es)
  /-- If they are all zero for some value, they are zero now. -/
  zero : (∃ t, ∀ e ∈ mentioning p es, e.eval (Function.update s.value p t) = 0) →
    ∀ e ∈ mentioning p es, e.eval s.value = 0

section

variable {s : Sketch ℝ} {c : Constraint ℝ} {p : ParamId} {es : List (Expr ℝ)}
  {x y : Vec3 (Expr ℝ)} {known : ParamId → Prop}

/-- An unknown that has the closest factor as its value starts best. -/
theorem Measures.startsBest (h : Measures es c.workplane p x y) (hx : x.Within known)
    (hy : y.Within known) (hp : ¬ known p) (hes : c.equations s = .ok es)
    (hstored : ∃ q, s.params.find? p = some q ∧ q.owner = .constraint c.id)
    (hvalue : s.value p = closestScale (x.eval s.value) (y.eval s.value)) :
    s.StartsBest c p es := by
  have hleast : ∀ t, sumOfSquares s.value (mentioning p es) ≤
      sumOfSquares (Function.update s.value p t) (mentioning p es) := by
    intro t
    rw [h.squares, h.squares, hx.eval_update hp, hy.eval_update hp, Function.update_self, hvalue]
    exact dot_self_closestScale_le _ _ t
  refine ⟨hstored, hes, h.count, hleast, ?_⟩
  rintro ⟨t, ht⟩
  exact eval_eq_zero_of_sumOfSquares ((hleast t).trans_eq (sumOfSquares_eq_zero ht))

end

/-! ## Constraints that are added -/

section

variable {P : Type} (s : Sketch ℝ) (g : GroupId) (wp : Option EntityId) (relation : Relation ℝ P)

/-- A constraint that is added is listed. -/
theorem find?_constraints_addConstraint (start : Option ℝ) :
    (s.addConstraint g wp relation start).2.constraints.find? ⟨s.lastConstraint + 1⟩ =
      some ⟨⟨s.lastConstraint + 1⟩, g, wp, relation.mapAux fun _ ↦ ⟨s.lastParam + 1⟩⟩ := by
  rw [(s.fields_addConstraint g wp relation start).1, Table.find?_insert_self]

/-- Its auxiliary unknown is stored with the value that it starts at. -/
theorem find?_params_addConstraint (start : ℝ) :
    (s.addConstraint g wp relation (some start)).2.params.find? ⟨s.lastParam + 1⟩ =
      some ⟨⟨s.lastParam + 1⟩, g, .constraint ⟨s.lastConstraint + 1⟩, start⟩ := by
  rw [(s.fields_addConstraint g wp relation (some start)).2.2]
  exact Table.find?_insert_self _ _ _

variable {s g wp relation}

/-- What entities own has the values that it had. -/
theorem value_addConstraint {p : ParamId} {q : Param ℝ} {k : EntityId} {start : Option ℝ}
    (hq : (s.addConstraint g wp relation start).2.params.find? p = some q)
    (howner : q.owner = .entity k) :
    s.value p = (s.addConstraint g wp relation start).2.value p := by
  have hparams := (s.fields_addConstraint g wp relation start).2.2
  rw [hparams] at hq
  rcases s.takeConstraint.2.find?_addParams g (.constraint s.takeConstraint.1) start.toList p with
    hold | ⟨_, _, x, hnew⟩
  · rw [Sketch.value, Sketch.value, hparams, hold]
    rfl
  · cases hnew.symm.trans hq
    cases howner

end

variable {la : LinearAlgebra ℝ} {s t : Sketch ℝ} {g : GroupId} {request : ConstraintRequest ℝ}
  {plan : ConstraintPlan ℝ}

/-- The auxiliary unknown of a planned constraint that is added starts at the best value. -/
theorem startsBest_addConstraint {seed : Seed ℝ} {start : ℝ}
    (ht : (s.addConstraint g plan.workplane plan.relation (some start)).2.Reachable la)
    (hplan : s.planConstraint g request = .ok plan) (hseeds : request.Seeds plan seed)
    (hseed : plan.relation.aux? = some seed) (hstart : s.seedValue seed = .ok start) :
    ∃ es, (s.addConstraint g plan.workplane plan.relation (some start)).2.StartsBest
      ⟨⟨s.lastConstraint + 1⟩, g, plan.workplane, plan.relation.mapAux fun _ ↦ ⟨s.lastParam + 1⟩⟩
      ⟨s.lastParam + 1⟩ es := by
  obtain ⟨hlinked, hplaced⟩ := ht.linked_placed
  have hfind := s.find?_constraints_addConstraint g plan.workplane plan.relation (some start)
  have hstored := s.find?_params_addConstraint g plan.workplane plan.relation start
  have hentities := (s.fields_addConstraint g plan.workplane plan.relation (some start)).2.1
  set c : Constraint ℝ :=
    ⟨⟨s.lastConstraint + 1⟩, g, plan.workplane, plan.relation.mapAux fun _ ↦ ⟨s.lastParam + 1⟩⟩
  have haux : c.relation.aux? = some ⟨s.lastParam + 1⟩ := by
    rw [Relation.aux?_mapAux, hseed, Option.map_some]
  -- The entities of the constraint and what they own were there before it was added.
  have hshares := hlinked.shares_references (t := s) hplaced hfind
    (fun _ _ ↦ by rw [hentities]) fun p ⟨_, _, _, hq, _, howner, _⟩ ↦ value_addConstraint hq howner
  obtain ⟨x, y, hafter, hbefore, hx, hy⟩ :=
    hshares.exists_stretches (hlinked.readable_of_names hplaced hfind) haux
  have hfresh : ¬ (s.addConstraint g plan.workplane plan.relation (some start)).2.OwnedWithin
      c.group c.references ⟨s.lastParam + 1⟩ := hlinked.not_ownedWithin_aux hfind haux
  obtain ⟨es, hes, hmeasures⟩ := hafter.exists_equations haux hx hy hfresh
  refine ⟨es, hmeasures.startsBest hx hy hfresh hes ⟨_, hstored, rfl⟩ ?_⟩
  rw [← hshares.eval_vec3_eq hx, ← hshares.eval_vec3_eq hy,
    ← eq_closestScale_of_seedValue hplan hseeds hstart hbefore.of_mapAux, Sketch.value, hstored]

/-- Where an auxiliary unknown starts is found from its seed. -/
theorem exists_seedValue_of_startOf {relation : Relation ℝ (Seed ℝ)} {seed : Seed ℝ}
    {start : Option ℝ} (hseed : relation.aux? = some seed) (h : s.startOf relation = .ok start) :
    ∃ x, s.seedValue seed = .ok x ∧ start = some x := by
  unfold startOf at h
  rw [hseed] at h
  dsimp only at h
  cases hx : s.seedValue seed with
  | error e =>
    rw [hx] at h
    cases h
  | ok x =>
    rw [hx] at h
    cases h
    exact ⟨x, rfl, rfl⟩

/-- A constraint that is added was planned before, and a start was found for its unknown. -/
theorem exists_plan_of_relate {id : ConstraintId}
    (h : (Operation.relate g request).run s = .ok id t) :
    ∃ plan start, s.planConstraint g request = .ok plan ∧ s.startOf plan.relation = .ok start ∧
      s.addConstraint g plan.workplane plan.relation start = (id, t) := by
  rw [Operation.run_relate] at h
  cases hplan : s.planConstraint g request with
  | error e =>
    simp only [hplan] at h
    cases h
  | ok plan =>
    cases hstart : s.startOf plan.relation with
    | error e =>
      simp only [hplan, hstart] at h
      cases h
    | ok start =>
      simp only [hplan, hstart] at h
      obtain ⟨rfl, rfl⟩ := EStateM.Result.ok.inj h
      exact ⟨plan, start, rfl, hstart, rfl⟩

/-- In every sketch that comes about, every constraint that is added is listed, and its auxiliary
unknown, if it has one, starts at the best value. -/
theorem Reachable.startsBest_of_relate (hs : s.Reachable la) {id : ConstraintId}
    (h : (Operation.relate g request).run s = .ok id t) :
    ∃ c, t.constraints.find? id = some c ∧
      ∀ p, c.relation.aux? = some p → ∃ es, t.StartsBest c p es := by
  have ht : t.Reachable la := by
    have hstep : Sketch.step la s (.relate g request) = t := by
      rw [Sketch.step, Command.operation, Operation.left_map, Operation.left, h]
    exact hstep ▸ hs.step _
  obtain ⟨plan, start, hplan, hstart, hadd⟩ := exists_plan_of_relate h
  obtain ⟨rfl, rfl⟩ := Prod.mk.inj hadd
  refine ⟨_, s.find?_constraints_addConstraint _ _ _ start, fun p haux ↦ ?_⟩
  rw [Relation.aux?_mapAux, Option.map_eq_some_iff] at haux
  obtain ⟨seed, hseed, rfl⟩ := haux
  have hplans := plans_of_planConstraint hs.linked_placed.1.entitiesMet request plan hplan
  obtain ⟨x, hx, rfl⟩ := exists_seedValue_of_startOf hseed hstart
  exact startsBest_addConstraint ht hplan (hplans.seeds hseed) hseed hx

end Sketch

/-- A line along the first axis and a point beside it. -/
noncomputable def pointBesideLine : Sketch ℝ :=
  (Sketch.empty .default).runAll .exact
    [.draw ⟨1⟩ (.point3d ⟨0.0, 0.0, 0.0⟩), .draw ⟨1⟩ (.point3d ⟨2.0, 0.0, 0.0⟩),
      .draw ⟨1⟩ (.point3d ⟨1.0, 1.0, 0.0⟩), .draw ⟨1⟩ (.line3d ⟨1⟩ ⟨2⟩)]

/-- Put on the line, the point has the best place along it. -/
theorem startsBest_of_relate_pointBesideLine : pointBesideLine.Reachable .exact ∧
    ∃ t c es, (Operation.relate ⟨1⟩ (.coincident ⟨3⟩ ⟨4⟩ none)).run pointBesideLine = .ok ⟨1⟩ t ∧
      t.constraints.find? ⟨1⟩ = some c ∧ c.relation = .pointOnLine ⟨3⟩ ⟨4⟩ ⟨10⟩ ∧
      t.StartsBest c ⟨10⟩ es := by
  have hreachable : pointBesideLine.Reachable .exact := ⟨.default, _, rfl⟩
  obtain ⟨t, hrun, c, hc, hrelation⟩ : ∃ t,
      (Operation.relate ⟨1⟩ (.coincident ⟨3⟩ ⟨4⟩ none)).run pointBesideLine = .ok ⟨1⟩ t ∧
        ∃ c, t.constraints.find? ⟨1⟩ = some c ∧ c.relation = .pointOnLine ⟨3⟩ ⟨4⟩ ⟨10⟩ :=
    ⟨_, rfl, _, rfl, rfl⟩
  obtain ⟨c', hc', hbest⟩ := hreachable.startsBest_of_relate hrun
  cases hc.symm.trans hc'
  obtain ⟨es, hes⟩ := hbest ⟨10⟩ (by rw [hrelation, Relation.aux?])
  exact ⟨hreachable, t, c, es, hrun, hc, hrelation, hes⟩

end SketchSolver
