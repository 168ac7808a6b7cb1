import SketchSolver.Proofs.Run.Placement

/-!
# Reading a sketch

Equations are written by following references: from a line to its points, from a point to its
workplane, from there to the origin and the normal. Where all that is referred to is there and in
place, this succeeds, and what is written mentions parameters of the entities that were followed
only. It depends on nothing else, so two sketches that share a part which is closed under references
give the same expressions for it. `Shares` is what two sketches have in common, and for each
geometric function one lemma says that both answer and that the answers are the same.
-/

namespace SketchSolver

variable {R : Type} {known : ParamId → Prop}

/-! ## Expressions over known parameters -/

namespace Expr

/-- An expression mentions known parameters only. -/
def Within (known : ParamId → Prop) (e : Expr R) : Prop := ∀ p ∈ e.params, known p

variable {a b : Expr R}

/-- A parameter mentions itself. -/
@[simp] theorem within_param {p : ParamId} : (param p : Expr R).Within known ↔ known p := by
  simp [Within, params]

/-- A constant mentions nothing. -/
@[simp] theorem within_constant {x : R} : (constant x).Within known :=
  fun _ h ↦ absurd h List.not_mem_nil

private theorem within_binary {op : BinaryOp} :
    (binary op a b).Within known ↔ a.Within known ∧ b.Within known := List.forall_mem_append

/-- A sum mentions what its operands do. -/
@[simp] theorem within_add : (a + b).Within known ↔ a.Within known ∧ b.Within known :=
  within_binary

/-- A difference mentions what its operands do. -/
@[simp] theorem within_sub : (a - b).Within known ↔ a.Within known ∧ b.Within known :=
  within_binary

/-- A product mentions what its operands do. -/
@[simp] theorem within_mul : (a * b).Within known ↔ a.Within known ∧ b.Within known :=
  within_binary

/-- A quotient mentions what its operands do. -/
@[simp] theorem within_div : (a / b).Within known ↔ a.Within known ∧ b.Within known :=
  within_binary

/-- A square root mentions what its operand does. -/
@[simp] theorem within_sqrt : a.sqrt.Within known ↔ a.Within known := Iff.rfl

/-- A square mentions what its operand does. -/
@[simp] theorem within_square : a.square.Within known ↔ a.Within known := Iff.rfl

/-- An inverse sine mentions what its operand does. -/
@[simp] theorem within_asin : a.asin.Within known ↔ a.Within known := Iff.rfl

/-- An inverse cosine mentions what its operand does. -/
@[simp] theorem within_acos : a.acos.Within known ↔ a.Within known := Iff.rfl

end Expr

namespace Vec3

/-- A vector mentions known parameters only. -/
def Within (known : ParamId → Prop) (a : Vec3 (Expr R)) : Prop :=
  a.x.Within known ∧ a.y.Within known ∧ a.z.Within known

variable {a b : Vec3 (Expr R)} {e : Expr R}

/-- A vector of parameters mentions these. -/
@[simp] theorem within_ofParams {x y z : ParamId} :
    (ofParams x y z : Vec3 (Expr R)).Within known ↔ known x ∧ known y ∧ known z := by
  simp [Within, ofParams]

/-- A vector given by its components mentions what they do. -/
@[simp] theorem within_mk {x y z : Expr R} : (⟨x, y, z⟩ : Vec3 (Expr R)).Within known ↔
    x.Within known ∧ y.Within known ∧ z.Within known := Iff.rfl

/-- The components of a vector mention what it does. -/
@[simp] theorem within_toList : (∀ e ∈ a.toList, e.Within known) ↔ a.Within known := by
  simp [Within, toList]

/-- A sum mentions what its operands do. -/
@[simp] theorem within_add : (a + b).Within known ↔ a.Within known ∧ b.Within known := by
  simp only [Within, add_def, Expr.within_add]
  grind

/-- A difference mentions what its operands do. -/
@[simp] theorem within_sub : (a - b).Within known ↔ a.Within known ∧ b.Within known := by
  simp only [Within, sub_def, Expr.within_sub]
  grind

/-- A scaled vector mentions what its operands do. -/
@[simp] theorem within_scale : (a.scale e).Within known ↔ a.Within known ∧ e.Within known := by
  simp only [Within, scale, Expr.within_mul]
  grind

/-- An inner product mentions what its operands do. -/
@[simp] theorem within_dot : (a.dot b).Within known ↔ a.Within known ∧ b.Within known := by
  simp only [Within, dot, Expr.within_add, Expr.within_mul]
  grind

/-- An outer product mentions what its operands do. -/
@[simp] theorem within_cross : (a.cross b).Within known ↔ a.Within known ∧ b.Within known := by
  simp only [Within, cross, Expr.within_sub, Expr.within_mul]
  grind

/-- A length mentions what its operand does. -/
@[simp] theorem within_magnitude : a.magnitude.Within known ↔ a.Within known := by
  simp [Within, magnitude, and_assoc]

/-- A vector that is brought to a length mentions what its operands do. -/
@[simp] theorem within_withMagnitude :
    (a.withMagnitude e).Within known ↔ a.Within known ∧ e.Within known := by
  simp only [withMagnitude, within_scale, Expr.within_div, within_magnitude]
  grind

end Vec3

namespace Quaternion

/-- A quaternion mentions known parameters only. -/
def Within (known : ParamId → Prop) (q : Quaternion (Expr R)) : Prop :=
  q.w.Within known ∧ q.x.Within known ∧ q.y.Within known ∧ q.z.Within known

variable {q : Quaternion (Expr R)}

/-- A quaternion of parameters mentions these. -/
@[simp] theorem within_ofParams {w x y z : ParamId} :
    (ofParams w x y z : Quaternion (Expr R)).Within known ↔
      known w ∧ known x ∧ known y ∧ known z := by
  simp [Within, ofParams]

/-- A length mentions what its operand does. -/
@[simp] theorem within_magnitude : q.magnitude.Within known ↔ q.Within known := by
  simp [Within, magnitude, and_assoc]

variable [Arith R]

/-- The U direction mentions what the quaternion does. -/
@[simp] theorem within_rotationU : q.rotationU.Within known ↔ q.Within known := by
  simp only [Within, Vec3.Within, rotationU, twice, Expr.within_add, Expr.within_sub,
    Expr.within_square, Expr.within_mul, Expr.within_constant]
  grind

/-- The V direction mentions what the quaternion does. -/
@[simp] theorem within_rotationV : q.rotationV.Within known ↔ q.Within known := by
  simp only [Within, Vec3.Within, rotationV, twice, Expr.within_add, Expr.within_sub,
    Expr.within_square, Expr.within_mul, Expr.within_constant]
  grind

/-- The normal mentions what the quaternion does. -/
@[simp] theorem within_rotationN : q.rotationN.Within known ↔ q.Within known := by
  simp only [Within, Vec3.Within, rotationN, twice, Expr.within_add, Expr.within_sub,
    Expr.within_square, Expr.within_mul, Expr.within_constant]
  grind

end Quaternion

/-- A frame mentions known parameters only. -/
structure Frame.Within (known : ParamId → Prop) (f : Frame R) : Prop where
  /-- The origin does. -/
  origin : f.origin.Within known
  /-- The first direction does. -/
  u : f.u.Within known
  /-- The second direction does. -/
  v : f.v.Within known
  /-- The normal does. -/
  n : f.n.Within known

/-- A length in a plane mentions what its coordinates do. -/
@[simp] theorem Sketch.within_planeLength {u v : Expr R} :
    (planeLength u v).Within known ↔ u.Within known ∧ v.Within known := by
  simp [planeLength]

/-! ## Answers in common -/

namespace Outcome

variable {α β : Type} {x y : Outcome R α} {f g : α → Outcome R β} {P : α → Prop} {Q : β → Prop}

/-- Two outcomes are one and the same answer, which has a property. -/
def Concur (x y : Outcome R β) (Q : β → Prop) : Prop := ∃ b, x = .ok b ∧ y = .ok b ∧ Q b

/-- An answer concurs with itself. -/
theorem Concur.ok {b : β} (h : Q b) : Concur (R := R) (.ok b) (.ok b) Q := ⟨b, rfl, rfl, h⟩

/-- Steps that concur on every answer of steps that concur. -/
theorem Concur.bind (h : Concur x y P) (hfg : ∀ a, P a → Concur (f a) (g a) Q) :
    Concur (x >>= f) (y >>= g) Q := by
  obtain ⟨a, rfl, rfl, ha⟩ := h
  exact hfg a ha

/-- Choices concur if their sides do. -/
theorem Concur.ite {p : Prop} [Decidable p] {x' y' : Outcome R α} (h : Concur x y P)
    (h' : Concur x' y' P) : Concur (if p then x else x') (if p then y else y') P := by
  split
  · exact h
  · exact h'

/-- Steps for each member of a list concur if each of them does. -/
theorem concur_mapM {xs : List α} (h : ∀ a ∈ xs, Concur (f a) (g a) Q) :
    Concur (xs.mapM f) (xs.mapM g) fun bs ↦ ∀ b ∈ bs, Q b := by
  induction xs with
  | nil => exact .ok fun _ hb ↦ absurd hb List.not_mem_nil
  | cons a as ih =>
    rw [List.mapM_cons, List.mapM_cons]
    refine (h a List.mem_cons_self).bind fun b hb ↦ ?_
    exact (ih fun c hc ↦ h c (List.mem_cons_of_mem a hc)).bind fun bs hbs ↦
      .ok (List.forall_mem_cons.mpr ⟨hb, hbs⟩)

private theorem concur_filterAuxM {p q : α → Outcome R Bool} {xs : List α}
    (h : ∀ a ∈ xs, Concur (p a) (q a) fun _ ↦ True) (kept : List α) :
    Concur (xs.filterAuxM p kept) (xs.filterAuxM q kept) fun _ ↦ True := by
  induction xs generalizing kept with
  | nil => exact .ok trivial
  | cons a as ih =>
    exact (h a List.mem_cons_self).bind fun b _ ↦ ih (fun c hc ↦ h c (List.mem_cons_of_mem a hc)) _

/-- A list is filtered alike if each member is tested alike. -/
theorem concur_filterM {p q : α → Outcome R Bool} {xs : List α}
    (h : ∀ a ∈ xs, Concur (p a) (q a) fun _ ↦ True) :
    Concur (xs.filterM p) (xs.filterM q) fun _ ↦ True :=
  (concur_filterAuxM h []).bind fun _ _ ↦ .ok trivial

end Outcome

/-! ## What two sketches share -/

namespace Sketch

/-- An entity of a scope will do for a demand. -/
def Offers (s : Sketch R) (scope : EntityId → Prop) (d : Demand) : Prop :=
  scope d.1 ∧ ∃ e, s.entities.find? d.1 = some e ∧ d.2 e = true

/-- A workplane of a scope, or none. -/
def OffersPlane (s : Sketch R) (scope : EntityId → Prop) (wp : Option EntityId) : Prop :=
  ∀ d ∈ workplaneDemands wp, s.Offers scope d

end Sketch

/-- An entity whose references lead into a scope and whose parameters are known. -/
structure Entity.Readable (s : Sketch R) (scope : EntityId → Prop) (known : ParamId → Prop)
    (e : Entity) : Prop where
  /-- Its demands are met in the scope. -/
  demands : ∀ d ∈ e.demands, s.Offers scope d
  /-- Its parameters are known. -/
  params : ∀ p ∈ e.params, known p
  /-- It is where it can be drawn. -/
  placed : e.isPlaced = true

/-- A constraint whose references lead into a scope and whose auxiliary unknown is known. -/
structure Constraint.Readable (s : Sketch R) (scope : EntityId → Prop) (known : ParamId → Prop)
    (c : Constraint R) : Prop where
  /-- Its demands are met in the scope. -/
  demands : ∀ d ∈ c.demands, s.Offers scope d
  /-- The ends of a line that it keeps are points of the scope. -/
  ends : ∀ p ∈ c.relation.ends, s.Offers scope (p, Entity.isPoint2d)
  /-- Its auxiliary unknown is known. -/
  aux : ∀ p, c.relation.aux? = some p → known p
  /-- It is where it can be measured. -/
  placed : c.isPlaced = true

namespace Sketch

/-- A sketch shares a scope, which is closed under references, and known values with another. -/
structure Shares [Arith R] (scope : EntityId → Prop) (known : ParamId → Prop)
    (s t : Sketch R) : Prop where
  /-- The references of an entity of the scope stay in it. -/
  readable : ∀ k e, scope k → s.entities.find? k = some e → e.Readable s scope known
  /-- The entities of the scope are the same. -/
  entities : ∀ k, scope k → t.entities.find? k = s.entities.find? k
  /-- The known values are the same. -/
  values : ∀ p, known p → t.value p = s.value p

variable {scope : EntityId → Prop} {s t : Sketch R} {wp : Option EntityId}

/-- No workplane is always offered. -/
theorem offersPlane_none : s.OffersPlane scope none := fun _ hd ↦ absurd hd List.not_mem_nil

/-- What is offered for a demand is offered for a weaker one. -/
theorem Offers.imp {k : EntityId} {p q : Entity → Bool} (h : s.Offers scope (k, p))
    (hpq : ∀ e, p e = true → q e = true) : s.Offers scope (k, q) := by
  obtain ⟨hk, e, he, hp⟩ := h
  exact ⟨hk, e, he, hpq e hp⟩

/-- A point of a workplane is a point. -/
theorem Offers.isPoint_of_isPoint2d {k : EntityId} (h : s.Offers scope (k, Entity.isPoint2d)) :
    s.Offers scope (k, Entity.isPoint) := by
  apply h.imp
  intro e he
  rw [Entity.isPoint, he, Bool.or_true]

/-- A point of a shape is a point. -/
theorem Offers.isPoint {k : EntityId} (h : s.Offers scope (k, Entity.isPointOf wp)) :
    s.Offers scope (k, Entity.isPoint) := by
  cases wp with
  | none =>
    apply h.imp
    intro e he
    have hspace : e.isPoint3d = true := he
    rw [Entity.isPoint, hspace, Bool.true_or]
  | some w => exact (h.imp fun e he ↦ (Bool.and_eq_true_iff.mp he).1).isPoint_of_isPoint2d

/-- A free normal is a normal. -/
theorem Offers.isNormal {k : EntityId} (h : s.Offers scope (k, Entity.isNormal3d)) :
    s.Offers scope (k, Entity.isNormal) := by
  apply h.imp
  intro e he
  rw [Entity.isNormal, he, Bool.true_or]

/-- A line has a direction. -/
theorem Offers.hasVector {k : EntityId} (h : s.Offers scope (k, Entity.isLine)) :
    s.Offers scope (k, Entity.hasVector) := by
  apply h.imp
  intro e he
  rw [Entity.hasVector, he, Bool.true_or]

end Sketch

namespace Entity.Readable

variable {scope : EntityId → Prop} {s : Sketch R} {e : Entity}

/-- The workplane of the entity is offered. -/
theorem plane (h : e.Readable s scope known) : s.OffersPlane scope e.workplane :=
  fun d hd ↦ h.demands d (List.mem_append_left _ hd)

/-- The parts of the entity are offered. -/
theorem part (h : e.Readable s scope known) {d : Demand}
    (hd : d ∈ e.shape.demands e.workplane) : s.Offers scope d :=
  h.demands d (List.mem_append_right _ hd)

/-- The points among the parts of the entity are offered. -/
theorem point (h : e.Readable s scope known) {k : EntityId}
    (hk : (k, Entity.isPointOf e.workplane) ∈ e.shape.demands e.workplane) :
    s.Offers scope (k, Entity.isPoint) := (h.part hk).isPoint

/-- Either end of an arc is offered. -/
theorem arcEnd {id : EntityId} {g : GroupId} {own : Option EntityId}
    {normal center start finish : EntityId}
    (h : (⟨id, g, own, .arc normal center start finish⟩ : Entity).Readable s scope known)
    (atFinish : Bool) :
    s.Offers scope (if atFinish then finish else start, Entity.isPoint) := by
  split
  · exact h.point (by simp [Shape.demands])
  · exact h.point (by simp [Shape.demands])

/-- An entity that has to be drawn in a workplane has one. -/
theorem ownWorkplane (h : e.Readable s scope known) (hsome : e.workplane.isSome = true) :
    Outcome.Concur (R := R) (Sketch.ownWorkplane e) (Sketch.ownWorkplane e) fun w ↦
      s.Offers scope (w, Entity.isWorkplane) := by
  obtain ⟨w, hw⟩ := Option.isSome_iff_exists.mp hsome
  have hown : (Sketch.ownWorkplane e : Outcome R EntityId) = .ok w := by
    rw [Sketch.ownWorkplane, hw]
  refine ⟨w, hown, hown, h.plane _ ?_⟩
  simp [workplaneDemands, hw]

end Entity.Readable

namespace Constraint.Readable

variable {scope : EntityId → Prop} {s : Sketch R} {c : Constraint R}

/-- The workplane of the constraint is offered. -/
theorem plane (h : c.Readable s scope known) : s.OffersPlane scope c.workplane :=
  fun d hd ↦ h.demands d (List.mem_append_left _ hd)

/-- The entities that the constraint is between are offered. -/
theorem part (h : c.Readable s scope known) {d : Demand} (hd : d ∈ c.relation.demands) :
    s.Offers scope d := h.demands d (List.mem_append_right _ hd)

/-- Two points that share a coordinate are offered, also as the ends of a line. -/
theorem axisPoints (h : c.Readable s scope known) (line : Option EntityId) (a b : EntityId)
    (hc : c.relation = .horizontal line a b ∨ c.relation = .vertical line a b) :
    s.Offers scope (a, Entity.isPoint) ∧ s.Offers scope (b, Entity.isPoint) := by
  have hflat : s.Offers scope (a, Entity.isPoint2d) ∧ s.Offers scope (b, Entity.isPoint2d) := by
    cases line with
    | none =>
      have hdemands : c.relation.demands = [(a, Entity.isPoint2d), (b, Entity.isPoint2d)] := by
        rcases hc with hc | hc <;> simp [hc, Relation.demands]
      exact ⟨h.part (by simp [hdemands]), h.part (by simp [hdemands])⟩
    | some line =>
      have hends : c.relation.ends = [a, b] := by
        rcases hc with hc | hc <;> rw [hc] <;> rfl
      exact ⟨h.ends a (by simp [hends]), h.ends b (by simp [hends])⟩
  exact ⟨hflat.1.isPoint_of_isPoint2d, hflat.2.isPoint_of_isPoint2d⟩

/-- A constraint that has to be measured in a workplane has one. -/
theorem requireWorkplane (h : c.Readable s scope known) (hsome : c.workplane.isSome = true) :
    Outcome.Concur c.requireWorkplane c.requireWorkplane fun w ↦
      s.Offers scope (w, Entity.isWorkplane) := by
  obtain ⟨w, hw⟩ := Option.isSome_iff_exists.mp hsome
  have hrequire : c.requireWorkplane = .ok w := by rw [Constraint.requireWorkplane, hw]
  refine ⟨w, hrequire, hrequire, h.plane _ ?_⟩
  simp [workplaneDemands, hw]

end Constraint.Readable

namespace Sketch

variable [Arith R] {scope : EntityId → Prop} {s t : Sketch R} {wp : Option EntityId}

namespace Shares

open Outcome

variable (h : s.Shares scope known t)

include h

/-- Expressions over known parameters have the same values. -/
theorem eval_eq {e : Expr R} (he : e.Within known) : e.eval t.value = e.eval s.value :=
  Expr.eval_congr fun p hp ↦ h.values p (he p hp)

/-- Vectors over known parameters have the same values. -/
theorem eval_vec3_eq {a : Vec3 (Expr R)} (ha : a.Within known) :
    a.eval t.value = a.eval s.value := by
  simp only [Vec3.eval, Vec3.map]
  rw [h.eval_eq ha.1, h.eval_eq ha.2.1, h.eval_eq ha.2.2]

/-- Entities that are offered are found. -/
theorem entity {k : EntityId} {q : Entity → Bool} (hk : s.Offers scope (k, q)) :
    Concur (s.entity k) (t.entity k) fun e ↦ q e = true ∧ e.Readable s scope known := by
  obtain ⟨hscope, e, he, hq⟩ := hk
  have hs : s.entity k = .ok e := by rw [Sketch.entity, he]
  have ht : t.entity k = .ok e := by rw [Sketch.entity, h.entities k hscope, he]
  exact ⟨e, hs, ht, hq, h.readable k e hscope he⟩

/-! ## Workplanes and normals -/

/-- The parts of a workplane are found. -/
theorem workplaneParts {w : EntityId} (hw : s.Offers scope (w, Entity.isWorkplane)) :
    Concur (s.workplaneParts w) (t.workplaneParts w) fun parts ↦
      s.Offers scope (parts.1, Entity.isPoint3d) ∧
        s.Offers scope (parts.2, Entity.isNormal3d) := by
  refine (h.entity hw).bind ?_
  rintro ⟨id, g, wp, shape⟩ ⟨hkind, hread⟩
  cases shape with
  | workplane origin normal =>
    exact .ok ⟨hread.part (by simp [Shape.demands]), hread.part (by simp [Shape.demands])⟩
  | _ => cases hkind

/-- The position of a point in space is written. -/
theorem point3dExprs {k : EntityId} (hk : s.Offers scope (k, Entity.isPoint3d)) :
    Concur (s.point3dExprs k) (t.point3dExprs k) fun a ↦ a.Within known := by
  refine (h.entity hk).bind ?_
  rintro ⟨id, g, wp, shape⟩ ⟨hkind, hread⟩
  cases shape with
  | point3d x y z =>
    refine .ok (Vec3.within_ofParams.mpr ?_)
    simpa [Entity.params, Shape.params] using hread.params
  | _ => cases hkind

/-- The quaternion of a free normal is written. -/
theorem normal3dQuaternion {k : EntityId} (hk : s.Offers scope (k, Entity.isNormal3d)) :
    Concur (s.normal3dQuaternion k) (t.normal3dQuaternion k) fun q ↦ q.Within known := by
  refine (h.entity hk).bind ?_
  rintro ⟨id, g, wp, shape⟩ ⟨hkind, hread⟩
  cases shape with
  | normal3d w x y z =>
    refine .ok (Quaternion.within_ofParams.mpr ?_)
    simpa [Entity.params, Shape.params] using hread.params
  | _ => cases hkind

/-- The quaternion of a normal is written. -/
theorem normalQuaternion {k : EntityId} (hk : s.Offers scope (k, Entity.isNormal)) :
    Concur (s.normalQuaternion k) (t.normalQuaternion k) fun q ↦ q.Within known := by
  refine (h.entity hk).bind ?_
  rintro ⟨id, g, wp, shape⟩ ⟨hkind, hread⟩
  cases shape with
  | normal3d w x y z =>
    refine .ok (Quaternion.within_ofParams.mpr ?_)
    simpa [Entity.params, Shape.params] using hread.params
  | normal2d =>
    exact (hread.ownWorkplane hread.placed).bind fun w hw ↦
      (h.workplaneParts hw).bind fun parts hparts ↦ h.normal3dQuaternion hparts.2
  | _ => cases hkind

/-- The direction of a normal is written. -/
theorem normalDirection {k : EntityId} (hk : s.Offers scope (k, Entity.isNormal)) :
    Concur (s.normalDirection k) (t.normalDirection k) fun a ↦ a.Within known :=
  (h.normalQuaternion hk).bind fun _ hq ↦ .ok (Quaternion.within_rotationN.mpr hq)

/-- The frame of a workplane is written. -/
theorem frame {w : EntityId} (hw : s.Offers scope (w, Entity.isWorkplane)) :
    Concur (s.frame w) (t.frame w) fun f ↦ f.Within known := by
  refine (h.workplaneParts hw).bind ?_
  rintro ⟨origin, normal⟩ ⟨horigin, hnormal⟩
  refine (h.normal3dQuaternion hnormal).bind fun q hq ↦ ?_
  refine (h.point3dExprs horigin).bind fun o ho ↦ .ok ?_
  exact ⟨ho, Quaternion.within_rotationU.mpr hq, Quaternion.within_rotationV.mpr hq,
    Quaternion.within_rotationN.mpr hq⟩

/-- The normal direction of a workplane is written. -/
theorem workplaneNormal {w : EntityId} (hw : s.Offers scope (w, Entity.isWorkplane)) :
    Concur (s.workplaneNormal w) (t.workplaneNormal w) fun a ↦ a.Within known :=
  (h.workplaneParts hw).bind fun _ hparts ↦ h.normalDirection hparts.2.isNormal

/-! ## Points -/

/-- The position of a point is written. -/
theorem pointExprs {k : EntityId} (hk : s.Offers scope (k, Entity.isPoint)) :
    Concur (s.pointExprs k) (t.pointExprs k) fun a ↦ a.Within known := by
  refine (h.entity hk).bind ?_
  rintro ⟨id, g, wp, shape⟩ ⟨hkind, hread⟩
  cases shape with
  | point3d x y z =>
    refine .ok (Vec3.within_ofParams.mpr ?_)
    simpa [Entity.params, Shape.params] using hread.params
  | point2d u v =>
    have huv : known u ∧ known v := by simpa [Entity.params, Shape.params] using hread.params
    refine (hread.ownWorkplane hread.placed).bind fun w hw ↦ ?_
    refine (h.frame hw).bind fun f hf ↦ .ok ?_
    simp [hf.origin, hf.u, hf.v, huv]
  | _ => cases hkind

/-- The coordinates of a point in a workplane are written. -/
theorem pointInWorkplane {k w : EntityId} (hk : s.Offers scope (k, Entity.isPoint))
    (hw : s.Offers scope (w, Entity.isWorkplane)) :
    Concur (s.pointInWorkplane k w) (t.pointInWorkplane k w) fun c ↦
      c.1.Within known ∧ c.2.Within known := by
  refine (h.entity hk).bind ?_
  rintro e ⟨hkind, hread⟩
  have hmeasured := (h.frame hw).bind fun f hf ↦ (h.pointExprs hk).bind fun a ha ↦
    Concur.ok (R := R) (b := ((a - f.origin).dot f.u, (a - f.origin).dot f.v))
      (Q := fun c ↦ c.1.Within known ∧ c.2.Within known)
      (by simp [ha, hf.origin, hf.u, hf.v])
  obtain ⟨id, g, wp, shape⟩ := e
  cases shape with
  | point3d x y z => exact hmeasured
  | point2d u v =>
    refine .ite (.ok ?_) hmeasured
    simpa [Entity.params, Shape.params] using hread.params
  | _ => cases hkind

/-- The position of a point in space or in a workplane is written. -/
theorem pointIn {k : EntityId} (hk : s.Offers scope (k, Entity.isPoint))
    (hwp : s.OffersPlane scope wp) :
    Concur (s.pointIn k wp) (t.pointIn k wp) fun a ↦ a.Within known := by
  cases wp with
  | none => exact h.pointExprs hk
  | some w =>
    refine (h.pointInWorkplane hk (hwp _ List.mem_cons_self)).bind ?_
    rintro ⟨u, v⟩ huv
    refine .ok ?_
    simpa using huv

/-- The position in space of coordinates in a workplane is written. -/
theorem pointInSpace {w : EntityId} (hw : s.Offers scope (w, Entity.isWorkplane)) {u v : Expr R}
    (hu : u.Within known) (hv : v.Within known) :
    Concur (s.pointInSpace w u v) (t.pointInSpace w u v) fun a ↦ a.Within known := by
  refine (h.frame hw).bind fun f hf ↦ .ok ?_
  simp [hf.origin, hf.u, hf.v, hu, hv]

/-- The current position of a point is known. -/
theorem position {k : EntityId} (hk : s.Offers scope (k, Entity.isPoint)) :
    Concur (s.position k) (t.position k) fun _ ↦ True := by
  refine (h.pointExprs hk).bind fun a ha ↦ ?_
  rw [h.eval_vec3_eq ha]
  exact .ok trivial

/-- The distance of a position from a workplane is written. -/
theorem pointPlaneDistance {w : EntityId} (hw : s.Offers scope (w, Entity.isWorkplane))
    {a : Vec3 (Expr R)} (ha : a.Within known) :
    Concur (s.pointPlaneDistance a w) (t.pointPlaneDistance a w) fun e ↦ e.Within known := by
  refine (h.frame hw).bind fun f hf ↦ .ok ?_
  simp [ha, hf.origin, hf.n]

/-! ## Lines, circles and directions -/

/-- The ends of a line are found. -/
theorem linePoints {k : EntityId} (hk : s.Offers scope (k, Entity.isLine)) :
    Concur (s.linePoints k) (t.linePoints k) fun ends ↦
      s.Offers scope (ends.1, Entity.isPoint) ∧ s.Offers scope (ends.2, Entity.isPoint) := by
  refine (h.entity hk).bind ?_
  rintro ⟨id, g, wp, shape⟩ ⟨hkind, hread⟩
  cases shape with
  | line a b =>
    exact .ok ⟨hread.point (by simp [Shape.demands]), hread.point (by simp [Shape.demands])⟩
  | _ => cases hkind

/-- The center and the normal of a circle or arc are found. -/
theorem circleCenterNormal {k : EntityId} (hk : s.Offers scope (k, Entity.isCircle)) :
    Concur (s.circleCenterNormal k) (t.circleCenterNormal k) fun parts ↦
      s.Offers scope (parts.1, Entity.isPoint) ∧ s.Offers scope (parts.2, Entity.isNormal) := by
  refine (h.entity hk).bind ?_
  rintro ⟨id, g, wp, shape⟩ ⟨hkind, hread⟩
  cases shape with
  | circle center normal radius =>
    exact .ok ⟨hread.point (by simp [Shape.demands]),
      Offers.isNormal (hread.part (by simp [Shape.demands]))⟩
  | arc normal center start finish =>
    exact .ok ⟨hread.point (by simp [Shape.demands]),
      Offers.isNormal (hread.part (by simp [Shape.demands]))⟩
  | _ => cases hkind

private theorem lineVector {k : EntityId} (hk : s.Offers scope (k, Entity.isLine))
    (hwp : s.OffersPlane scope wp) :
    Concur (s.vectorIn k wp) (t.vectorIn k wp) fun a ↦ a.Within known := by
  refine (h.entity hk).bind ?_
  rintro ⟨id, g, own, shape⟩ ⟨hkind, hread⟩
  cases shape with
  | line a b =>
    refine (h.pointIn (hread.point (by simp [Shape.demands])) hwp).bind fun x hx ↦ ?_
    refine (h.pointIn (hread.point (by simp [Shape.demands])) hwp).bind fun y hy ↦ .ok ?_
    simp [hx, hy]
  | _ => cases hkind

private theorem normalVector {k : EntityId} (hk : s.Offers scope (k, Entity.isNormal))
    (hwp : s.OffersPlane scope wp) :
    Concur (s.vectorIn k wp) (t.vectorIn k wp) fun a ↦ a.Within known := by
  refine (h.entity hk).bind ?_
  rintro ⟨id, g, own, shape⟩ ⟨hkind, _⟩
  cases shape with
  | normal3d | normal2d =>
    refine (h.normalDirection hk).bind fun n hn ↦ ?_
    cases wp with
    | none => exact .ok hn
    | some w =>
      refine (h.frame (hwp _ List.mem_cons_self)).bind fun f hf ↦ .ok ?_
      simp [hn, hf.u, hf.v]
  | _ => cases hkind

/-- The direction of a line or normal is written. -/
theorem vectorIn {k : EntityId} (hk : s.Offers scope (k, Entity.hasVector))
    (hwp : s.OffersPlane scope wp) :
    Concur (s.vectorIn k wp) (t.vectorIn k wp) fun a ↦ a.Within known := by
  obtain ⟨hscope, e, he, hkind⟩ := hk
  rcases Bool.or_eq_true_iff.mp hkind with hline | hnormal
  · exact h.lineVector ⟨hscope, e, he, hline⟩ hwp
  · exact h.normalVector ⟨hscope, e, he, hnormal⟩ hwp

/-- The direction of a line or normal in space is written. -/
theorem vectorExprs {k : EntityId} (hk : s.Offers scope (k, Entity.hasVector)) :
    Concur (s.vectorExprs k) (t.vectorExprs k) fun a ↦ a.Within known :=
  h.vectorIn hk offersPlane_none

/-- The cosine of the angle between two directions is written. -/
theorem directionCosine (hwp : s.OffersPlane scope wp) {a b : Vec3 (Expr R)}
    (ha : a.Within known) (hb : b.Within known) :
    Concur (s.directionCosine wp a b) (t.directionCosine wp a b) fun e ↦ e.Within known := by
  cases wp with
  | none => exact .ok (by simp [ha, hb])
  | some w =>
    refine (h.frame (hwp _ List.mem_cons_self)).bind fun f hf ↦ .ok ?_
    simp [ha, hb, hf.u, hf.v]

/-- The direction of a cubic at one of its ends is written. -/
theorem cubicTangent {k : EntityId} (hk : s.Offers scope (k, Entity.isCubic)) (atFinish : Bool) :
    Concur (s.cubicTangent k atFinish) (t.cubicTangent k atFinish) fun a ↦ a.Within known := by
  refine (h.entity hk).bind ?_
  rintro ⟨id, g, own, shape⟩ ⟨hkind, hread⟩
  cases shape with
  | cubic start afterStart beforeFinish finish =>
    refine .ite ?_ ?_
    · refine (h.pointExprs (hread.point (by simp [Shape.demands]))).bind fun x hx ↦ ?_
      refine (h.pointExprs (hread.point (by simp [Shape.demands]))).bind fun y hy ↦ .ok ?_
      simp [hx, hy]
    · refine (h.pointExprs (hread.point (by simp [Shape.demands]))).bind fun x hx ↦ ?_
      refine (h.pointExprs (hread.point (by simp [Shape.demands]))).bind fun y hy ↦ .ok ?_
      simp [hx, hy]
  | _ => cases hkind

/-! ## Lengths and distances -/

/-- The distance of two points is written. -/
theorem distanceExpr {a b : EntityId} (ha : s.Offers scope (a, Entity.isPoint))
    (hb : s.Offers scope (b, Entity.isPoint)) (hwp : s.OffersPlane scope wp) :
    Concur (s.distanceExpr wp a b) (t.distanceExpr wp a b) fun e ↦ e.Within known := by
  cases wp with
  | none =>
    refine (h.pointExprs ha).bind fun x hx ↦ (h.pointExprs hb).bind fun y hy ↦ .ok ?_
    simp [hx, hy]
  | some w =>
    have hw := hwp _ List.mem_cons_self
    refine (h.pointInWorkplane ha hw).bind ?_
    rintro ⟨au, av⟩ hau
    refine (h.pointInWorkplane hb hw).bind ?_
    rintro ⟨bu, bv⟩ hbu
    exact .ok (by simp [hau, hbu])

/-- The length of a line is written. -/
theorem lineLength {k : EntityId} (hk : s.Offers scope (k, Entity.isLine))
    (hwp : s.OffersPlane scope wp) :
    Concur (s.lineLength wp k) (t.lineLength wp k) fun e ↦ e.Within known :=
  (h.linePoints hk).bind fun _ hends ↦ h.distanceExpr hends.1 hends.2 hwp

/-- The distance of a point from a line is written. -/
theorem pointLineDistance {p k : EntityId} (hp : s.Offers scope (p, Entity.isPoint))
    (hk : s.Offers scope (k, Entity.isLine)) (hwp : s.OffersPlane scope wp) :
    Concur (s.pointLineDistance wp p k) (t.pointLineDistance wp p k) fun e ↦
      e.Within known := by
  refine (h.linePoints hk).bind ?_
  rintro ⟨la, lb⟩ ⟨hla, hlb⟩
  cases wp with
  | none =>
    refine (h.pointExprs hla).bind fun a ha ↦ (h.pointExprs hlb).bind fun b hb ↦ ?_
    refine (h.pointExprs hp).bind fun x hx ↦ .ok ?_
    simp [ha, hb, hx]
  | some w =>
    have hw := hwp _ List.mem_cons_self
    refine (h.pointInWorkplane hla hw).bind ?_
    rintro ⟨ua, va⟩ ha
    refine (h.pointInWorkplane hlb hw).bind ?_
    rintro ⟨ub, vb⟩ hb
    refine (h.pointInWorkplane hp hw).bind ?_
    rintro ⟨u, v⟩ hx
    exact .ok (by simp [ha, hb, hx])

/-- The radius of a circle or arc is written. -/
theorem circleRadius {k : EntityId} (hk : s.Offers scope (k, Entity.isCircle)) :
    Concur (s.circleRadius k) (t.circleRadius k) fun e ↦ e.Within known := by
  refine (h.entity hk).bind ?_
  rintro ⟨id, g, own, shape⟩ ⟨hkind, hread⟩
  cases shape with
  | circle center normal radius =>
    have hradius : s.Offers scope (radius, Entity.isDistance) :=
      hread.part (by simp [Shape.demands])
    refine (h.entity hradius).bind ?_
    rintro ⟨id, g, own, shape⟩ ⟨hdistance, hr⟩
    cases shape with
    | distance p => exact .ok (Expr.within_param.mpr (hr.params p List.mem_cons_self))
    | _ => cases hdistance
  | arc normal center start finish =>
    exact h.distanceExpr (hread.point (by simp [Shape.demands]))
      (hread.point (by simp [Shape.demands])) hread.plane
  | _ => cases hkind

/-- The current angles of an arc are known. -/
theorem arcAngles {k : EntityId} (hk : s.Offers scope (k, Entity.isArc)) :
    Concur (s.arcAngles k) (t.arcAngles k) fun _ ↦ True := by
  refine (h.entity hk).bind ?_
  rintro ⟨id, g, own, shape⟩ ⟨hkind, hread⟩
  cases shape with
  | arc normal center start finish =>
    have hnormal : s.Offers scope (normal, Entity.isNormal3d) :=
      hread.part (by simp [Shape.demands])
    refine (h.normalQuaternion hnormal.isNormal).bind fun q hq ↦ ?_
    refine (h.position (hread.point (by simp [Shape.demands]))).bind fun c _ ↦ ?_
    refine (h.position (hread.point (by simp [Shape.demands]))).bind fun a _ ↦ ?_
    refine (h.position (hread.point (by simp [Shape.demands]))).bind fun b _ ↦ ?_
    rw [h.eval_vec3_eq (Quaternion.within_rotationU.mpr hq),
      h.eval_vec3_eq (Quaternion.within_rotationV.mpr hq)]
    exact .ok trivial
  | _ => cases hkind

end Shares

end Sketch

end SketchSolver
