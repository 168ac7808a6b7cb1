import SketchSolver.Proofs.Run.Integrity

/-!
# Placement

Some shapes are drawn in a workplane and some in space, and a relation is measured in a workplane,
in space, or in either. A direction in space has a scale as an auxiliary unknown, and one in a
workplane has none. Requests that do not say where they belong are refused, so in every sketch that
comes about each item is where its equations can be written.
-/

namespace SketchSolver

variable {R P : Type}

/-! ## Where an item can be -/

/-- Whether a shape can be drawn in a workplane, or in space if there is none. -/
def Shape.fits (wp : Option EntityId) : Shape P → Bool
  | point3d .. => wp.isNone
  | normal3d .. => wp.isNone
  | workplane .. => wp.isNone
  | line .. => true
  | _ => wp.isSome

/-- Whether a relation can be measured in a workplane, or in space if there is none. -/
def Relation.fits (wp : Option EntityId) : Relation R P → Bool
  | pointInPlane .. => wp.isNone
  | projectedPointDistance .. => wp.isNone
  | pointPlaneDistance .. => wp.isNone
  | diameter .. => wp.isNone
  | sameOrientation .. => wp.isNone
  | symmetricHorizontal .. => wp.isSome
  | symmetricVertical .. => wp.isSome
  | symmetricLine .. => wp.isSome
  | horizontal .. => wp.isSome
  | vertical .. => wp.isSome
  | arcLineTangent .. => wp.isSome
  | curveCurveTangent .. => wp.isSome
  | parallel _ _ scale => wp.isNone == scale.isSome
  | cubicLineTangent _ _ _ scale => wp.isNone == scale.isSome
  | _ => true

/-- A shape fits the same whatever stands for its parameters. -/
theorem Shape.fits_numbered (wp : Option EntityId) (n : Nat) (shape : Shape P) :
    (shape.numbered n).fits wp = shape.fits wp := by
  cases shape <;> rfl

/-- A relation fits the same whatever stands for its auxiliary unknown. -/
theorem Relation.fits_mapAux {Q : Type} (wp : Option EntityId) (f : P → Q) (r : Relation R P) :
    (r.mapAux f).fits wp = r.fits wp := by
  cases r with
  | parallel a b scale => cases scale <;> rfl
  | cubicLineTangent cubic line atFinish scale => cases scale <;> rfl
  | _ => rfl

/-! ## Answers -/

namespace Outcome

variable {α β : Type} {Q : β → Prop}

/-- Whatever an outcome answers has a property. -/
def Ensures (x : Outcome R β) (Q : β → Prop) : Prop := ∀ b, x = .ok b → Q b

/-- A refusal answers nothing. -/
theorem Ensures.error {e : SketchError R} : Ensures (.error e) Q := fun _ h ↦ by cases h

/-- An answer has the property if it is given. -/
theorem Ensures.pure {b : β} (hb : Q b) : Ensures (Pure.pure b : Outcome R β) Q := by
  intro c hc
  cases hc
  exact hb

/-- Whatever comes before, the last step ensures the property. -/
theorem Ensures.bind {x : Outcome R α} {f : α → Outcome R β} (h : ∀ a, (f a).Ensures Q) :
    (x >>= f).Ensures Q := by
  intro b hb
  obtain ⟨a, _, hf⟩ := bind_eq_ok_iff.mp hb
  exact h a b hf

/-- A choice ensures what both of its sides do. -/
theorem Ensures.ite {p : Prop} [Decidable p] {x y : Outcome R β} (hx : x.Ensures Q)
    (hy : y.Ensures Q) : (if p then x else y).Ensures Q := by
  split
  · exact hx
  · exact hy

end Outcome

/-! ## Plans -/

namespace Sketch

open Outcome

private abbrev Fitting (plan : ConstraintPlan R) : Prop :=
  plan.relation.fits plan.workplane = true

private theorem fits_planDistance (s : Sketch R) (g : GroupId) (a b : EntityId) (x : R)
    (wp : Option EntityId) : (s.planDistance g a b x wp).Ensures Fitting := by
  refine .bind fun _ ↦ .bind fun _ ↦ .bind fun _ ↦ .ite (.pure rfl) (.ite ?_ (.pure rfl))
  cases wp with
  | none => exact .pure rfl
  | some wp => exact .error

private theorem fits_planEqual (s : Sketch R) (g : GroupId) (a b : EntityId)
    (wp : Option EntityId) : (s.planEqual g a b wp).Ensures Fitting := by
  refine .bind fun _ ↦ .bind fun ea ↦ .bind fun eb ↦ ?_
  split <;> exact .pure rfl

private theorem fits_planSymmetric (s : Sketch R) (g : GroupId) (a b about : EntityId)
    (wp : Option EntityId) : (s.planSymmetric g a b about wp).Ensures Fitting := by
  refine .bind fun _ ↦ .bind fun _ ↦ .bind fun _ ↦ .bind fun _ ↦ .ite ?_ ?_
  · cases wp with
    | none => exact .error
    | some wp => exact .pure rfl
  · cases wp with
    | none => exact .pure rfl
    | some wp => exact .pure rfl

variable [Arith R]

private theorem fits_planNormal3d (q : Quaternion R) :
    (planNormal3d q).Ensures fun plan ↦ plan.shape.fits plan.workplane = true :=
  .bind fun _ ↦ .ite .error (.pure rfl)

/-- A planned entity fits where it is planned. -/
theorem fits_planEntity (s : Sketch R) (g : GroupId) (request : EntityRequest R) :
    (s.planEntity g request).Ensures fun plan ↦ plan.shape.fits plan.workplane = true := by
  cases request with
  | point3d p => exact .bind fun _ ↦ .pure rfl
  | point2d wp u v => exact .bind fun _ ↦ .bind fun _ ↦ .pure rfl
  | normal3d q => exact fits_planNormal3d q
  | normalFromBasis u v => exact fits_planNormal3d _
  | normal2d wp => exact .bind fun _ ↦ .pure rfl
  | distance wp x => exact .bind fun _ ↦ .bind fun _ ↦ .pure rfl
  | workplane origin normal => exact .bind fun _ ↦ .bind fun _ ↦ .pure rfl
  | line2d wp a b => exact .bind fun _ ↦ .bind fun _ ↦ .bind fun _ ↦ .pure rfl
  | line3d a b => exact .bind fun _ ↦ .bind fun _ ↦ .pure rfl
  | cubic wp a b c d =>
    exact .bind fun _ ↦ .bind fun _ ↦ .bind fun _ ↦ .bind fun _ ↦ .bind fun _ ↦ .pure rfl
  | arc wp normal center start finish =>
    exact .bind fun _ ↦ .bind fun _ ↦ .bind fun _ ↦ .bind fun _ ↦ .bind fun _ ↦ .pure rfl
  | circle wp normal center radius =>
    exact .bind fun _ ↦ .bind fun _ ↦ .bind fun _ ↦ .bind fun _ ↦ .pure rfl

private theorem fits_planCoincident (s : Sketch R) (g : GroupId) (a b : EntityId)
    (wp : Option EntityId) : (s.planCoincident g a b wp).Ensures Fitting := by
  refine .bind fun _ ↦ .bind fun _ ↦ .bind fun _ ↦ .ite (.pure rfl) (.ite ?_ (.ite ?_ (.pure rfl)))
  · cases wp with
    | none => exact .pure rfl
    | some wp => exact .error
  · exact .bind fun _ ↦ .bind fun _ ↦ .bind fun _ ↦ .bind fun _ ↦ .pure rfl

private theorem fits_planLineTangent (s : Sketch R) (curve line : Entity)
    (ends lineEnds : EntityId × EntityId) (wp : Option EntityId) :
    (s.planLineTangent curve line ends lineEnds wp).Ensures Fitting := by
  refine .bind fun atStart ↦ ?_
  -- Whether or not the finish is looked at, what follows is the same.
  dsimp only
  split
  all_goals
    refine .bind fun atFinish ↦ .ite .error (.ite ?_ ?_)
    · cases wp with
      | none => exact .error
      | some wp => exact .pure rfl
    · cases wp with
      | none => exact .pure rfl
      | some wp => exact .pure rfl

private theorem fits_planCurveTangent (s : Sketch R) (a b : Entity)
    (aEnds bEnds : EntityId × EntityId) (wp : Option EntityId) :
    (s.planCurveTangent a b aEnds bEnds wp).Ensures Fitting := by
  cases wp with
  | none => exact .error
  | some wp =>
    exact .bind fun _ ↦ .ite (.pure rfl) <| .bind fun _ ↦ .ite (.pure rfl) <|
      .bind fun _ ↦ .ite (.pure rfl) <| .bind fun _ ↦ .ite (.pure rfl) .error

private theorem fits_planTangent (s : Sketch R) (g : GroupId) (a b : EntityId)
    (wp : Option EntityId) : (s.planTangent g a b wp).Ensures Fitting := by
  refine .bind fun _ ↦ .bind fun ea ↦ .bind fun eb ↦ .ite .error ?_
  split
  · exact .ite (fits_planLineTangent s _ _ _ _ wp) (fits_planCurveTangent s _ _ _ _ wp)
  · exact .error

/-- A planned constraint fits where it is planned. -/
theorem fits_planConstraint (s : Sketch R) (g : GroupId) (request : ConstraintRequest R) :
    (s.planConstraint g request).Ensures fun plan ↦ plan.relation.fits plan.workplane = true := by
  cases request with
  | coincident a b wp => exact fits_planCoincident s g a b wp
  | distance a b x wp => exact fits_planDistance s g a b x wp
  | projectedDistance a b direction x => exact .bind fun _ ↦ .bind fun _ ↦ .bind fun _ ↦ .pure rfl
  | equal a b wp => exact fits_planEqual s g a b wp
  | equalAngle a b c d inverse wp =>
    exact .bind fun _ ↦ .bind fun _ ↦ .bind fun _ ↦ .bind fun _ ↦ .bind fun _ ↦ .pure rfl
  | equalPointToLine pointA lineA pointB lineB wp =>
    exact .bind fun _ ↦ .bind fun _ ↦ .bind fun _ ↦ .bind fun _ ↦ .bind fun _ ↦ .pure rfl
  | equalLengthPointLineDistance line point otherLine wp =>
    exact .bind fun _ ↦ .bind fun _ ↦ .bind fun _ ↦ .bind fun _ ↦ .pure rfl
  | ratio a b x wp => exact .bind fun _ ↦ .pure rfl
  | lengthDifference a b x wp => exact .bind fun _ ↦ .pure rfl
  | diameter circle x => exact .bind fun _ ↦ .pure rfl
  | symmetric a b about wp => exact fits_planSymmetric s g a b about wp
  | symmetricHorizontal a b wp => exact .bind fun _ ↦ .pure rfl
  | symmetricVertical a b wp => exact .bind fun _ ↦ .pure rfl
  | midpoint point line wp => exact .bind fun _ ↦ .bind fun _ ↦ .bind fun _ ↦ .pure rfl
  | midpointOnPlane line plane wp => exact .bind fun _ ↦ .bind fun _ ↦ .bind fun _ ↦ .pure rfl
  | horizontal line wp => exact .bind fun _ ↦ .pure rfl
  | vertical line wp => exact .bind fun _ ↦ .pure rfl
  | horizontalPoints a b wp => exact .bind fun _ ↦ .pure rfl
  | verticalPoints a b wp => exact .bind fun _ ↦ .pure rfl
  | sameOrientation a b => exact .bind fun _ ↦ .bind fun _ ↦ .bind fun _ ↦ .pure rfl
  | angle a b degrees inverse wp => exact .bind fun _ ↦ .pure rfl
  | perpendicular a b inverse wp => exact .bind fun _ ↦ .pure rfl
  | parallel a b wp =>
    refine .bind fun _ ↦ ?_
    cases wp with
    | some wp => exact .pure rfl
    | none => exact .pure rfl
  | tangent a b wp => exact fits_planTangent s g a b wp
  | dragged point wp => exact .bind fun _ ↦ .bind fun _ ↦ .pure rfl

end Sketch

/-! ## The invariant -/

/-- Whether an entity is drawn where its shape can be. -/
def Entity.isPlaced (e : Entity) : Bool := e.shape.fits e.workplane

/-- Whether a constraint is measured where its relation can be. -/
def Constraint.isPlaced (c : Constraint R) : Bool := c.relation.fits c.workplane

namespace Sketch

/-- A sketch whose items are where they can be. -/
structure Placed (s : Sketch R) : Prop where
  /-- Entities are where they can be drawn. -/
  entities : ∀ k e, s.entities.find? k = some e → e.isPlaced = true
  /-- Constraints are where they can be measured. -/
  constraints : ∀ k c, s.constraints.find? k = some c → c.isPlaced = true

variable {s t : Sketch R} {g : GroupId}

/-- A sketch without items has nothing out of place. -/
theorem placed_of_empty (hentities : s.entities = .empty) (hconstraints : s.constraints = .empty) :
    s.Placed where
  entities k e he := by
    rw [hentities, Table.find?_empty] at he
    cases he
  constraints k c hc := by
    rw [hconstraints, Table.find?_empty] at hc
    cases hc

/-- What is in place stays there if no item is new. -/
theorem Placed.mono (h : s.Placed)
    (hentities : ∀ k e, t.entities.find? k = some e → s.entities.find? k = some e)
    (hconstraints : ∀ k c, t.constraints.find? k = some c → s.constraints.find? k = some c) :
    t.Placed :=
  ⟨fun k e he ↦ h.entities k e (hentities k e he),
    fun k c hc ↦ h.constraints k c (hconstraints k c hc)⟩

/-- A new entity that fits is in place. -/
theorem Placed.addEntity (h : s.Placed) {wp : Option EntityId} {shape : Shape R}
    (hfits : shape.fits wp = true) : (s.addEntity g wp shape).2.Placed := by
  obtain ⟨hentities, hconstraints, _⟩ := s.fields_addEntity g wp shape
  refine ⟨?_, fun k c hc ↦ h.constraints k c (hconstraints ▸ hc)⟩
  intro k e he
  rw [hentities, Table.find?_insert] at he
  split at he
  · cases he
    rw [Entity.isPlaced, Shape.fits_numbered, hfits]
  · exact h.entities k e he

/-- A new constraint that fits is in place. -/
theorem Placed.addConstraint (h : s.Placed) {wp : Option EntityId} {relation : Relation R P}
    (hfits : relation.fits wp = true) (start : Option R) :
    (s.addConstraint g wp relation start).2.Placed := by
  obtain ⟨hconstraints, hentities, _⟩ := s.fields_addConstraint g wp relation start
  refine ⟨fun k e he ↦ h.entities k e (hentities ▸ he), ?_⟩
  intro k c hc
  rw [hconstraints, Table.find?_insert] at hc
  split at hc
  · cases hc
    rw [Constraint.isPlaced, Relation.fits_mapAux, hfits]
  · exact h.constraints k c hc

/-- Removing a group moves nothing. -/
theorem Placed.withoutGroup (h : s.Placed) (g : GroupId) : (s.withoutGroup g).Placed := by
  apply h.mono
  · intro k e he
    rw [Sketch.withoutGroup, Table.find?_filter] at he
    exact (Option.filter_eq_some_iff.mp he).1
  · intro k c hc
    rw [Sketch.withoutGroup, Table.find?_filter] at hc
    exact (Option.filter_eq_some_iff.mp hc).1

private theorem placed_removeGroup (h : s.Placed) (hg : s.removeGroup g = .ok t) : t.Placed := by
  obtain ⟨_, _, hg⟩ := Outcome.bind_eq_ok_iff.mp hg
  split at hg
  · cases hg
  · cases hg
    exact (h.withoutGroup g).mono (fun _ _ he ↦ he) fun _ _ hc ↦ hc

variable [Arith R] {la : LinearAlgebra R}

private theorem keeps_placed_draw (g : GroupId) (request : EntityRequest R) :
    (Operation.change fun s ↦ s.draw g request).Keeps Placed := by
  apply Operation.keeps_change
  intro s id t hs hd
  obtain ⟨plan, hplan, hd⟩ := Outcome.bind_eq_ok_iff.mp hd
  have hadded := hs.addEntity (g := g) (fits_planEntity s g request plan hplan)
  cases hd
  exact hadded

private theorem keeps_placed_relate (g : GroupId) (request : ConstraintRequest R) :
    (Operation.relate g request).Keeps Placed := by
  intro s hs
  rw [Operation.left, Operation.run_relate]
  cases hplan : s.planConstraint g request with
  | error e => exact hs
  | ok plan =>
    dsimp only
    cases s.startOf plan.relation with
    | error e => exact hs.mono (fun _ _ he ↦ he) fun _ _ hc ↦ hc
    | ok start => exact hs.addConstraint (fits_planConstraint s g request plan hplan) start

private theorem placed_setParamValue (h : s.Placed) {p : ParamId} {x : R}
    (hp : s.setParamValue p x = .ok t) : t.Placed := by
  unfold Sketch.setParamValue at hp
  split at hp
  · cases hp
  · split at hp
    · cases hp
    · cases hp
      exact h.mono (fun _ _ he ↦ he) fun _ _ hc ↦ hc

private theorem placed_solveDragged (h : s.Placed) (g : GroupId) (dragged : List ParamId) :
    ((Operation.solveDragged la g dragged).left s).Placed := by
  rcases (allOrNothing_solveDragged la s g dragged).left with hs | ⟨values, d, hs⟩
  · rw [hs]
    exact h
  · rw [hs]
    exact h.mono (fun _ _ he ↦ he) fun _ _ hc ↦ hc

/-- A command leaves nothing out of place. -/
theorem Placed.step (h : s.Placed) (c : Command R) : (s.step la c).Placed := by
  unfold Sketch.step
  cases c with
  | draw g request => exact ((keeps_placed_draw g request).map _) s h
  | drawBase g =>
    refine (Operation.Keeps.map ?_ _) s h
    exact (keeps_placed_draw g _).bind fun _ ↦ (keeps_placed_draw g _).bind fun _ ↦
      keeps_placed_draw g _
  | relate g request => exact ((keeps_placed_relate g request).map _) s h
  | setParamValue p x =>
    exact Operation.keeps_change_map (fun _ _ hs ht ↦ placed_setParamValue hs ht) s h
  | removeGroup g =>
    exact Operation.keeps_change_map (fun _ _ hs ht ↦ placed_removeGroup hs ht) s h
  | createGroup g =>
    change (s.createGroup g).Placed
    unfold Sketch.createGroup
    split
    · exact h
    · exact h.mono (fun _ _ he ↦ he) fun _ _ hc ↦ hc
  | clear => exact placed_of_empty rfl rfl
  | setConfig config => exact h.mono (fun _ _ he ↦ he) fun _ _ hc ↦ hc
  | solve g =>
    rw [Command.operation, Operation.left_map]
    exact placed_solveDragged h g []
  | solveDragged g dragged =>
    rw [Command.operation, Operation.left_map]
    exact placed_solveDragged h g dragged

/-- A run of commands leaves nothing out of place. -/
theorem Placed.runAll (h : s.Placed) (cs : List (Command R)) : (s.runAll la cs).Placed := by
  induction cs generalizing s with
  | nil => exact h
  | cons c cs ih => exact ih (h.step c)

/-- In a sketch that comes about no link is broken and nothing is out of place. -/
theorem Reachable.linked_placed (h : Reachable la s) : s.Linked ∧ s.Placed := by
  obtain ⟨config, cs, rfl⟩ := h
  have hempty : (empty config).Linked := linked_of_empty rfl rfl rfl rfl
  exact ⟨hempty.runAll cs, (placed_of_empty rfl rfl).runAll cs⟩

end Sketch

end SketchSolver
