import SketchSolver.Proofs.Run.Totality

/-!
# What requests ask for

The plan of an entity can be read off its request. The plan of a constraint is one of a few, between
which the kinds and the places of its arguments decide. In every sketch that comes about, the
auxiliary unknown of a planned constraint has a value to start with. So a request that passes its
checks is not refused later on, when a handle was taken.
-/

namespace SketchSolver

open Outcome

variable {R : Type}

/-! ## Entities -/

section Entities

variable [Arith R]

/-- The plan of a free normal of any length other than zero. -/
def normalPlan (q : Quaternion R) : EntityPlan R :=
  ⟨none, .normal3d q.normalize.w q.normalize.x q.normalize.y q.normalize.z⟩

/-- The plan that a request for an entity asks for. -/
def EntityRequest.plan : EntityRequest R → EntityPlan R
  | .point3d p => ⟨none, .point3d p.x p.y p.z⟩
  | .point2d wp u v => ⟨some wp, .point2d u v⟩
  | .normal3d q => normalPlan q
  | .normalFromBasis u v => normalPlan (.ofBasis u v)
  | .normal2d wp => ⟨some wp, .normal2d⟩
  | .distance wp x => ⟨some wp, .distance x⟩
  | .workplane origin normal => ⟨none, .workplane origin normal⟩
  | .line2d wp a b => ⟨some wp, .line a b⟩
  | .line3d a b => ⟨none, .line a b⟩
  | .cubic wp a b c d => ⟨some wp, .cubic a b c d⟩
  | .arc wp normal center start finish => ⟨some wp, .arc normal center start finish⟩
  | .circle wp normal center radius => ⟨some wp, .circle center normal radius⟩

private theorem eq_normalPlan (q : Quaternion R) :
    (Sketch.planNormal3d q).Ensures (· = normalPlan q) := .bind fun _ ↦ .ite .error (.pure rfl)

/-- A request for an entity that is accepted gets the plan that it asks for. -/
theorem eq_plan_of_planEntity (s : Sketch R) (g : GroupId) (request : EntityRequest R) :
    (s.planEntity g request).Ensures (· = request.plan) := by
  cases request with
  | point3d p => exact .bind fun _ ↦ .pure rfl
  | point2d wp u v => exact .bind fun _ ↦ .bind fun _ ↦ .pure rfl
  | normal3d q => exact eq_normalPlan q
  | normalFromBasis u v => exact eq_normalPlan _
  | normal2d wp => exact .bind fun _ ↦ .pure rfl
  | distance wp x => exact .bind fun _ ↦ .bind fun _ ↦ .pure rfl
  | workplane origin normal => exact .bind fun _ ↦ .bind fun _ ↦ .pure rfl
  | line2d wp a b => exact .bind fun _ ↦ .bind fun _ ↦ .bind fun _ ↦ .pure rfl
  | line3d a b => exact .bind fun _ ↦ .bind fun _ ↦ .pure rfl
  | cubic wp a b c d =>
    exact .bind fun _ ↦ .bind fun _ ↦ .bind fun _ ↦ .bind fun _ ↦ .bind fun _ ↦ .pure rfl
  | arc wp normal center start finish =>
    exact .bind fun _ ↦ .bind fun _ ↦ .bind fun _ ↦ .bind fun _ ↦ .bind fun _ ↦ .pure rfl
  | circle wp normal center radius =>
    exact .bind fun _ ↦ .bind fun _ ↦ .bind fun _ ↦ .bind fun _ ↦ .pure rfl

end Entities

/-! ## Constraints -/

/-- Whether a request for a constraint can lead to a plan. -/
def ConstraintRequest.Plans (plan : ConstraintPlan R) : ConstraintRequest R → Prop
  | .coincident a b wp =>
    plan = ⟨wp, .pointsCoincident a b⟩ ∨ (wp = none ∧ plan = ⟨none, .pointInPlane a b⟩) ∨
      (∃ x, plan = ⟨wp, .pointOnLine a b (.value x)⟩) ∨ plan = ⟨wp, .pointOnCircle a b⟩
  | .distance a b x wp =>
    plan = ⟨wp, .pointPointDistance a b x⟩ ∨
      (wp = none ∧ plan = ⟨none, .pointPlaneDistance a b x⟩) ∨
      plan = ⟨wp, .pointLineDistance a b x⟩
  | .projectedDistance a b direction x => plan = ⟨none, .projectedPointDistance a b direction x⟩
  | .equal a b wp =>
    plan = ⟨wp, .equalLength a b⟩ ∨ plan = ⟨wp, .equalLineArcLength a b⟩ ∨
      plan = ⟨wp, .equalLineArcLength b a⟩ ∨ plan = ⟨wp, .equalRadius a b⟩
  | .equalAngle a b c d inverse wp => plan = ⟨wp, .equalAngle a b c d inverse⟩
  | .equalPointToLine pointA lineA pointB lineB wp =>
    plan = ⟨wp, .equalPointLineDistances pointA lineA pointB lineB⟩
  | .equalLengthPointLineDistance line point otherLine wp =>
    plan = ⟨wp, .equalLengthPointLineDistance line point otherLine⟩
  | .ratio a b x wp => plan = ⟨wp, .lengthRatio a b x⟩
  | .lengthDifference a b x wp => plan = ⟨wp, .lengthDifference a b x⟩
  | .diameter circle x => plan = ⟨none, .diameter circle x⟩
  | .symmetric a b about (some wp) =>
    plan = ⟨some wp, .symmetric a b about⟩ ∨ plan = ⟨some wp, .symmetricLine a b about⟩
  | .symmetric a b about none => ∃ own, plan = ⟨own, .symmetric a b about⟩
  | .symmetricHorizontal a b wp => plan = ⟨some wp, .symmetricHorizontal a b⟩
  | .symmetricVertical a b wp => plan = ⟨some wp, .symmetricVertical a b⟩
  | .midpoint point line wp => plan = ⟨wp, .pointAtMidpoint point line⟩
  | .midpointOnPlane line plane wp => plan = ⟨wp, .midpointInPlane line plane⟩
  | .horizontal line wp => ∃ a b, plan = ⟨some wp, .horizontal (some line) a b⟩
  | .vertical line wp => ∃ a b, plan = ⟨some wp, .vertical (some line) a b⟩
  | .horizontalPoints a b wp => plan = ⟨some wp, .horizontal none a b⟩
  | .verticalPoints a b wp => plan = ⟨some wp, .vertical none a b⟩
  | .sameOrientation a b => ∃ x, plan = ⟨none, .sameOrientation a b (.value x)⟩
  | .angle a b degrees inverse wp => plan = ⟨wp, .angle a b degrees inverse⟩
  | .perpendicular a b inverse wp => plan = ⟨wp, .perpendicular a b inverse⟩
  | .parallel a b (some wp) => plan = ⟨some wp, .parallel a b none⟩
  | .parallel a b none => plan = ⟨none, .parallel a b (some (.scale a b))⟩
  | .tangent a b (some wp) =>
    (∃ curve line atFinish, (curve, line) ∈ [(a, b), (b, a)] ∧
      (plan = ⟨some wp, .arcLineTangent curve line atFinish⟩ ∨
        plan = ⟨some wp, .cubicLineTangent curve line atFinish none⟩)) ∨
      ∃ aAtFinish bAtFinish, plan = ⟨some wp, .curveCurveTangent a b aAtFinish bAtFinish⟩
  | .tangent a b none => ∃ curve line atFinish, (curve, line) ∈ [(a, b), (b, a)] ∧
      plan = ⟨none, .cubicLineTangent curve line atFinish
        (some (.tangentScale curve atFinish line))⟩
  | .dragged point wp => plan = ⟨wp, .whereDragged point⟩

/-! ## Accepted requests -/

namespace Sketch

private theorem plans_planDistance (s : Sketch R) (g : GroupId) (a b : EntityId) (x : R)
    (wp : Option EntityId) :
    (s.planDistance g a b x wp).Ensures ((ConstraintRequest.distance a b x wp).Plans ·) := by
  refine .bind fun _ ↦ .bind fun _ ↦ .bind fun _ ↦ .ite (.pure (.inl rfl)) ?_
  refine .ite ?_ (.pure (.inr (.inr rfl)))
  cases wp with
  | none => exact .pure (.inr (.inl ⟨rfl, rfl⟩))
  | some wp => exact .error

private theorem plans_planEqual (s : Sketch R) (g : GroupId) (a b : EntityId)
    (wp : Option EntityId) :
    (s.planEqual g a b wp).Ensures ((ConstraintRequest.equal (R := R) a b wp).Plans ·) := by
  refine .bind fun _ ↦ .bind fun ea ↦ .bind fun eb ↦ ?_
  split
  · exact .pure (.inl rfl)
  · exact .pure (.inr (.inl rfl))
  · exact .pure (.inr (.inr (.inl rfl)))
  · exact .pure (.inr (.inr (.inr rfl)))

private theorem plans_planSymmetric (s : Sketch R) (g : GroupId) (a b about : EntityId)
    (wp : Option EntityId) :
    (s.planSymmetric g a b about wp).Ensures
      ((ConstraintRequest.symmetric (R := R) a b about wp).Plans ·) := by
  refine .bind fun _ ↦ .bind fun _ ↦ .bind fun _ ↦ .bind fun _ ↦ .ite ?_ ?_
  · cases wp with
    | none => exact .error
    | some wp => exact .pure (.inr rfl)
  · cases wp with
    | none => exact .pure ⟨_, rfl⟩
    | some wp => exact .pure (.inl rfl)

variable [Arith R]

private theorem plans_planCoincident (s : Sketch R) (g : GroupId) (a b : EntityId)
    (wp : Option EntityId) :
    (s.planCoincident g a b wp).Ensures
      ((ConstraintRequest.coincident (R := R) a b wp).Plans ·) := by
  refine .bind fun _ ↦ .bind fun _ ↦ .bind fun _ ↦ .ite (.pure (.inl rfl)) (.ite ?_ (.ite ?_ ?_))
  · cases wp with
    | none => exact .pure (.inr (.inl ⟨rfl, rfl⟩))
    | some wp => exact .error
  · exact .bind fun _ ↦ .bind fun _ ↦ .bind fun _ ↦ .bind fun _ ↦
      .pure (.inr (.inr (.inl ⟨_, rfl⟩)))
  · exact .pure (.inr (.inr (.inr rfl)))

private theorem plans_planLineTangent (s : Sketch R) {curve line : Entity} {a b : EntityId}
    (hids : (curve.id, line.id) ∈ [(a, b), (b, a)]) (ends lineEnds : EntityId × EntityId)
    (wp : Option EntityId) :
    (s.planLineTangent curve line ends lineEnds wp).Ensures
      ((ConstraintRequest.tangent (R := R) a b wp).Plans ·) := by
  refine .bind fun atStart ↦ ?_
  -- Whether or not the finish is looked at, what follows is the same.
  dsimp only
  split
  all_goals
    refine .bind fun atFinish ↦ .ite .error (.ite ?_ ?_)
    · cases wp with
      | none => exact .error
      | some wp => exact .pure (.inl ⟨_, _, atFinish, hids, .inl rfl⟩)
    · cases wp with
      | none => exact .pure ⟨_, _, atFinish, hids, rfl⟩
      | some wp => exact .pure (.inl ⟨_, _, atFinish, hids, .inr rfl⟩)

private theorem plans_planCurveTangent (s : Sketch R) (a b : Entity)
    (aEnds bEnds : EntityId × EntityId) (wp : Option EntityId) :
    (s.planCurveTangent a b aEnds bEnds wp).Ensures
      ((ConstraintRequest.tangent (R := R) a.id b.id wp).Plans ·) := by
  cases wp with
  | none => exact .error
  | some wp =>
    exact .bind fun _ ↦ .ite (.pure (.inr ⟨_, _, rfl⟩)) <|
      .bind fun _ ↦ .ite (.pure (.inr ⟨_, _, rfl⟩)) <|
      .bind fun _ ↦ .ite (.pure (.inr ⟨_, _, rfl⟩)) <|
      .bind fun _ ↦ .ite (.pure (.inr ⟨_, _, rfl⟩)) .error

private theorem plans_of_planTangent {s : Sketch R} (hs : s.EntitiesMet) {g : GroupId}
    {a b : EntityId} {wp : Option EntityId} {plan : ConstraintPlan R}
    (h : s.planTangent g a b wp = .ok plan) : (ConstraintRequest.tangent a b wp).Plans plan := by
  obtain ⟨_, _, h⟩ := bind_eq_ok_iff.mp h
  obtain ⟨ea, ha, h⟩ := bind_eq_ok_iff.mp h
  obtain ⟨eb, hb, h⟩ := bind_eq_ok_iff.mp h
  have hidA : ea.id = a := hs.id a ea (require_eq_ok_iff.mp ha).1
  have hidB : eb.id = b := hs.id b eb (require_eq_ok_iff.mp hb).1
  rw [← hidA, ← hidB]
  cases hline : ea.isLine with
  | true =>
    simp only [hline, if_true] at h
    split at h
    · cases h
    · split at h
      · exact plans_planLineTangent s (by simp) _ _ wp plan h
      · cases h
  | false =>
    simp only [hline, Bool.false_eq_true, if_false] at h
    split at h
    · split at h
      · exact plans_planLineTangent s (by simp) _ _ wp plan h
      · exact plans_planCurveTangent s ea eb _ _ wp plan h
    · cases h

/-- A request for a constraint that is accepted gets one of the plans that it can lead to. -/
theorem plans_of_planConstraint {s : Sketch R} (hs : s.EntitiesMet) {g : GroupId}
    (request : ConstraintRequest R) : (s.planConstraint g request).Ensures (request.Plans ·) := by
  cases request with
  | coincident a b wp => exact plans_planCoincident s g a b wp
  | distance a b x wp => exact plans_planDistance s g a b x wp
  | projectedDistance a b direction x => exact .bind fun _ ↦ .bind fun _ ↦ .bind fun _ ↦ .pure rfl
  | equal a b wp => exact plans_planEqual s g a b wp
  | equalAngle a b c d inverse wp =>
    exact .bind fun _ ↦ .bind fun _ ↦ .bind fun _ ↦ .bind fun _ ↦ .bind fun _ ↦ .pure rfl
  | equalPointToLine pointA lineA pointB lineB wp =>
    exact .bind fun _ ↦ .bind fun _ ↦ .bind fun _ ↦ .bind fun _ ↦ .bind fun _ ↦ .pure rfl
  | equalLengthPointLineDistance line point otherLine wp =>
    exact .bind fun _ ↦ .bind fun _ ↦ .bind fun _ ↦ .bind fun _ ↦ .pure rfl
  | ratio a b x wp => exact .bind fun _ ↦ .pure rfl
  | lengthDifference a b x wp => exact .bind fun _ ↦ .pure rfl
  | diameter circle x => exact .bind fun _ ↦ .pure rfl
  | symmetric a b about wp => exact plans_planSymmetric s g a b about wp
  | symmetricHorizontal a b wp => exact .bind fun _ ↦ .pure rfl
  | symmetricVertical a b wp => exact .bind fun _ ↦ .pure rfl
  | midpoint point line wp => exact .bind fun _ ↦ .bind fun _ ↦ .bind fun _ ↦ .pure rfl
  | midpointOnPlane line plane wp => exact .bind fun _ ↦ .bind fun _ ↦ .bind fun _ ↦ .pure rfl
  | horizontal line wp => exact .bind fun _ ↦ .pure ⟨_, _, rfl⟩
  | vertical line wp => exact .bind fun _ ↦ .pure ⟨_, _, rfl⟩
  | horizontalPoints a b wp => exact .bind fun _ ↦ .pure rfl
  | verticalPoints a b wp => exact .bind fun _ ↦ .pure rfl
  | sameOrientation a b => exact .bind fun _ ↦ .bind fun _ ↦ .bind fun x ↦ .pure ⟨x, rfl⟩
  | angle a b degrees inverse wp => exact .bind fun _ ↦ .pure rfl
  | perpendicular a b inverse wp => exact .bind fun _ ↦ .pure rfl
  | parallel a b wp =>
    refine .bind fun _ ↦ ?_
    cases wp with
    | some wp => exact .pure rfl
    | none => exact .pure rfl
  | tangent a b wp => exact fun plan hplan ↦ plans_of_planTangent hs hplan
  | dragged point wp => exact .bind fun _ ↦ .bind fun _ ↦ .pure rfl

end Sketch

/-! ## Where auxiliary unknowns start -/

/-- What the start of an auxiliary unknown demands of the entities that it is found from. -/
def Seed.demands : Seed R → List Demand
  | value _ => []
  | scale a b => [(a, Entity.hasVector), (b, Entity.hasVector)]
  | tangentScale cubic _ line => [(cubic, Entity.isCubic), (line, Entity.isLine)]

/-- The requests whose plans have an auxiliary unknown, with where it starts. -/
inductive ConstraintRequest.Seeds : ConstraintRequest R → ConstraintPlan R → Seed R → Prop
  /-- The place of a point along a line, which is found along with the plan. -/
  | place (a b : EntityId) (wp : Option EntityId) (x : R) :
    Seeds (.coincident a b wp) ⟨wp, .pointOnLine a b (.value x)⟩ (.value x)
  /-- The scale between two normals, which is found along with the plan. -/
  | orientation (a b : EntityId) (x : R) :
    Seeds (.sameOrientation a b) ⟨none, .sameOrientation a b (.value x)⟩ (.value x)
  /-- The scale between two directions. -/
  | direction (a b : EntityId) :
    Seeds (.parallel a b none) ⟨none, .parallel a b (some (.scale a b))⟩ (.scale a b)
  /-- The scale between the directions of a cubic and a line. -/
  | tangent (a b cubic line : EntityId) (atFinish : Bool) :
    Seeds (.tangent a b none)
      ⟨none, .cubicLineTangent cubic line atFinish (some (.tangentScale cubic atFinish line))⟩
      (.tangentScale cubic atFinish line)

/-- A plan with an auxiliary unknown comes from one of these requests. -/
theorem ConstraintRequest.Plans.seeds {request : ConstraintRequest R} {plan : ConstraintPlan R}
    (h : request.Plans plan) {seed : Seed R} (hseed : plan.relation.aux? = some seed) :
    request.Seeds plan seed := by
  cases request with
  | coincident a b wp =>
    rcases h with rfl | ⟨rfl, rfl⟩ | ⟨x, rfl⟩ | rfl
    · cases hseed
    · cases hseed
    · cases hseed
      exact .place a b wp x
    · cases hseed
  | distance a b x wp =>
    rcases h with rfl | ⟨rfl, rfl⟩ | rfl <;> cases hseed
  | equal a b wp =>
    rcases h with rfl | rfl | rfl | rfl <;> cases hseed
  | symmetric a b about wp =>
    cases wp with
    | some wp => rcases h with rfl | rfl <;> cases hseed
    | none =>
      obtain ⟨own, rfl⟩ := h
      cases hseed
  | horizontal line wp | vertical line wp =>
    obtain ⟨a, b, rfl⟩ := h
    cases hseed
  | sameOrientation a b =>
    obtain ⟨x, rfl⟩ := h
    cases hseed
    exact .orientation a b x
  | parallel a b wp =>
    cases wp with
    | some wp =>
      cases h
      cases hseed
    | none =>
      cases h
      cases hseed
      exact .direction a b
  | tangent a b wp =>
    cases wp with
    | some wp =>
      rcases h with ⟨curve, line, atFinish, _, rfl | rfl⟩ | ⟨aAtFinish, bAtFinish, rfl⟩ <;>
        cases hseed
    | none =>
      obtain ⟨cubic, line, atFinish, _, rfl⟩ := h
      cases hseed
      exact .tangent a b cubic line atFinish
  | _ =>
    cases h
    cases hseed

/-- An auxiliary unknown is found from the entities that its relation is between. -/
theorem ConstraintRequest.Seeds.demands_subset {request : ConstraintRequest R}
    {plan : ConstraintPlan R} {seed : Seed R} (h : request.Seeds plan seed) :
    seed.demands ⊆ plan.relation.demands := by
  cases h with
  | place | orientation => exact List.nil_subset _
  | direction | tangent => exact List.Subset.refl _

namespace Sketch

variable [Arith R] {s : Sketch R} {g : GroupId}

private theorem exists_vectorValue (h : s.Linked) (hp : s.Placed) {id : EntityId}
    (hid : s.Meets g (id, Entity.hasVector)) : ∃ v, s.vectorValue id = .ok v := by
  have hshares := h.shares hp (SameUpTo.refl g s).1.1 (SameUpTo.refl g s).2
  obtain ⟨e, he, _⟩ := hshares.vectorExprs (hid.offers (Nat.le_refl _))
  exact ⟨e.eval s.value, by rw [vectorValue, he]; rfl⟩

/-- An auxiliary unknown whose entities are there has a value to start with. -/
theorem exists_seedValue (h : s.Linked) (hp : s.Placed) {seed : Seed R}
    (hds : s.MeetsAll g seed.demands) : ∃ x, s.seedValue seed = .ok x := by
  cases seed with
  | value x => exact ⟨x, rfl⟩
  | scale a b =>
    obtain ⟨u, hu⟩ := exists_vectorValue h hp (hds (a, Entity.hasVector) (by simp [Seed.demands]))
    obtain ⟨v, hv⟩ := exists_vectorValue h hp (hds (b, Entity.hasVector) (by simp [Seed.demands]))
    exact ⟨closestScale u v, by rw [seedValue, scaleOf, hu, hv]; rfl⟩
  | tangentScale cubic atFinish line =>
    have hshares := h.shares hp (SameUpTo.refl g s).1.1 (SameUpTo.refl g s).2
    have hcubic := hds (cubic, Entity.isCubic) (by simp [Seed.demands])
    have hline := hds (line, Entity.isLine) (by simp [Seed.demands])
    obtain ⟨u, hu, _⟩ := hshares.cubicTangent (hcubic.offers (Nat.le_refl _)) atFinish
    obtain ⟨v, hv⟩ := exists_vectorValue h hp (hline.imp fun e he ↦ by simp [Entity.hasVector, he])
    exact ⟨closestScale (u.eval s.value) v, by rw [seedValue, hu, hv]; rfl⟩

/-- After a request for a constraint is accepted, the start of its auxiliary unknown is found. -/
theorem exists_startOf (h : s.Linked) (hp : s.Placed) {request : ConstraintRequest R}
    {plan : ConstraintPlan R} (hplan : s.planConstraint g request = .ok plan) :
    ∃ start, s.startOf plan.relation = .ok start := by
  unfold startOf
  cases haux : plan.relation.aux? with
  | none => exact ⟨none, rfl⟩
  | some seed =>
    have hsubset :=
      ((plans_of_planConstraint h.entitiesMet request plan hplan).seeds haux).demands_subset
    have hmet := meetsAll_of_planConstraint h.entitiesMet hplan
    obtain ⟨x, hx⟩ := exists_seedValue h hp fun d hd ↦
      hmet d (List.mem_append_right _ (hsubset hd))
    exact ⟨some x, by dsimp only; rw [hx]; rfl⟩

end Sketch

end SketchSolver
