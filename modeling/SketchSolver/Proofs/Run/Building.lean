import SketchSolver.Proofs.Run.Requests

/-!
# Building

A builder draws entities or adds a constraint. In every sketch that comes about it does all of this
or nothing: if it is refused, the sketch is as it was, also for a builder that takes a handle before
it is done or that draws several entities one after the other. If it succeeds, what it was asked for
is listed behind all that was there, under the next handles, with parameters of its own.
-/

namespace SketchSolver

open Numbered

/-! ## Appending to tables -/

section Tables

variable {K V : Type} [Numbered K] {name : V → K} {low mid high : Nat} {old between new : Table K V}
  {added : List V}

/-- A table to which values are appended under their own names, which are numbered onwards. -/
structure Appended (name : V → K) (low high : Nat) (old new : Table K V) (added : List V) :
    Prop where
  /-- What was there stays, and the new values follow it. -/
  toList : new.toList = old.toList ++ added.map fun v ↦ (name v, v)
  /-- The new names have the next numbers. -/
  numbers : added.map (fun v ↦ index (name v)) = List.range' (low + 1) added.length
  /-- The new names have greater numbers than all that were there. -/
  above : ∀ k ∈ old.keys, ∀ v ∈ added, index k < index (name v)
  /-- The latest number is that of the last of them. -/
  last : high = low + added.length

namespace Appended

/-- Nothing is appended. -/
theorem refl (name : V → K) (low : Nat) (t : Table K V) : Appended name low low t t [] :=
  ⟨(List.append_nil _).symm, rfl, fun _ _ _ hv ↦ absurd hv List.not_mem_nil, rfl⟩

/-- What was listed before is listed afterwards. -/
theorem mem_keys (h : Appended name low high old new added) {k : K} (hk : k ∈ old.keys) :
    k ∈ new.keys := by
  rw [Table.keys, h.toList, List.map_append]
  exact List.mem_append_left _ hk

/-- What is appended twice is appended. -/
theorem trans {more : List V} (h : Appended name low mid old between added)
    (hm : Appended name mid high between new more) :
    Appended name low high old new (added ++ more) where
  toList := by rw [hm.toList, h.toList, List.map_append, List.append_assoc]
  numbers := by
    rw [List.map_append, h.numbers, hm.numbers, h.last, List.length_append, Nat.add_right_comm,
      List.range'_append_1]
  above k hk v hv :=
    (List.mem_append.mp hv).elim (h.above k hk v) (hm.above k (h.mem_keys hk) v)
  last := by rw [hm.last, h.last, List.length_append, Nat.add_assoc]

/-- What is appended is found. -/
theorem find?_of_mem (h : Appended name low high old new added) {v : V} (hv : v ∈ added) :
    new.find? (name v) = some v := by
  rw [Table.find?_eq_some_iff, h.toList]
  exact List.mem_append_right _ (List.mem_map_of_mem hv)

end Appended

/-- A value is appended under the next number. -/
theorem appended_insert (h : Named name low old) {v : V} (hv : index (name v) = low + 1) :
    Appended name low (low + 1) old (old.insert (name v) v) [v] := by
  have hlt : ∀ e ∈ old.toList, index e.1 < index (name v) := by
    intro e he
    obtain ⟨_, hle⟩ := h e.1 e.2 (Table.find?_eq_some_iff.mpr he)
    omega
  refine ⟨Table.toList_insert_of_forall_lt hlt v, ?_, ?_, rfl⟩
  · rw [List.map_singleton, hv]
    rfl
  · intro k hk w hw
    obtain ⟨e, he, rfl⟩ := List.mem_map.mp hk
    cases List.mem_singleton.mp hw
    exact hlt e he

end Tables

variable {R P : Type}

/-! ## New items -/

/-- The parameters that an entity brings, apart from their values. -/
def Entity.owned (e : Entity) : List (ParamId × GroupId × Item) :=
  e.params.map fun k ↦ (k, e.group, .entity e.id)

/-- The auxiliary unknown that a constraint brings, apart from its value. -/
def Constraint.owned (c : Constraint R) : List (ParamId × GroupId × Item) :=
  c.relation.aux?.toList.map fun k ↦ (k, c.group, .constraint c.id)

namespace Sketch

/-- A sketch in which a group is registered and unsolved along with all later ones. -/
structure Touched (g : GroupId) (s t : Sketch R) : Prop where
  /-- The group is there. -/
  registered : t.groups.contains g = true
  /-- The group and all later ones are unsolved. -/
  unsolved : ∀ h, g ≤ h → t.isSolved h = false
  /-- Earlier groups are as they were. -/
  earlier : ∀ h, h < g → t.groups.find? h = s.groups.find? h
  /-- No other group comes or goes. -/
  others : ∀ h, h ≠ g → t.groups.contains h = s.groups.contains h

/-- A sketch with new items of a group and with the parameters that they bring. -/
structure Built (g : GroupId) (es : List Entity) (cs : List (Constraint R)) (ps : List (Param R))
    (s t : Sketch R) : Prop where
  /-- The entities are appended. -/
  entities : Appended Entity.id s.lastEntity t.lastEntity s.entities t.entities es
  /-- The constraints are appended. -/
  constraints : Appended Constraint.id s.lastConstraint t.lastConstraint s.constraints
    t.constraints cs
  /-- The parameters are appended. -/
  params : Appended Param.id s.lastParam t.lastParam s.params t.params ps
  /-- The entities belong to the group. -/
  entityGroups : ∀ e ∈ es, e.group = g
  /-- The constraints belong to the group. -/
  constraintGroups : ∀ c ∈ cs, c.group = g
  /-- The parameters are those that the items bring. -/
  owned : ps.map Param.identity = es.flatMap Entity.owned ++ cs.flatMap Constraint.owned
  /-- The group is touched. -/
  touched : Touched g s t
  /-- The settings stay. -/
  config : t.config = s.config

variable {s t u : Sketch R} {g : GroupId}

private theorem touched_of_grownIn (h : GrownIn g s t) : Touched g s t where
  registered := by
    rw [h.groups, contains_groups_touchGroup]
    simp
  unsolved j hj := by
    cases hsolved : t.isSolved j with
    | false => rfl
    | true => exact absurd (isSolved_of_grownIn h hsolved).2 (Nat.not_lt.mpr hj)
  earlier j hj := by
    have hne : j ≠ g := fun he ↦ Nat.lt_irrefl _ (he ▸ hj)
    have hnot : ¬ g ≤ j := Nat.not_le.mpr hj
    rw [h.groups, find?_groups_touchGroup, if_neg hne]
    simp only [if_neg hnot, Option.map_id']
  others j hj := by
    rw [h.groups, contains_groups_touchGroup, decide_eq_false hj, Bool.false_or]

/-- Touching a group twice touches it. -/
theorem Touched.trans (h : Touched g s t) (hu : Touched g t u) : Touched g s u where
  registered := hu.registered
  unsolved := hu.unsolved
  earlier j hj := (hu.earlier j hj).trans (h.earlier j hj)
  others j hj := (hu.others j hj).trans (h.others j hj)

/-- Entities that are built in two steps are built. -/
theorem Built.trans {es fs : List Entity} {ps qs : List (Param R)} (h : s.Built g es [] ps t)
    (hu : t.Built g fs [] qs u) : s.Built g (es ++ fs) [] (ps ++ qs) u where
  entities := h.entities.trans hu.entities
  constraints := h.constraints.trans hu.constraints
  params := h.params.trans hu.params
  entityGroups e he := (List.mem_append.mp he).elim (h.entityGroups e) (hu.entityGroups e)
  constraintGroups _ hc := absurd hc List.not_mem_nil
  owned := by
    have hes := h.owned
    have hfs := hu.owned
    simp only [List.flatMap_nil, List.append_nil] at hes hfs
    rw [List.map_append, hes, hfs, List.flatMap_append, List.flatMap_nil, List.append_nil]
  touched := h.touched.trans hu.touched
  config := hu.config.trans h.config

/-! ## Parameters -/

/-- Parameters with given values, numbered onwards. -/
def paramsFrom (g : GroupId) (owner : Item) (last : Nat) : List R → List (Param R)
  | [] => []
  | x :: xs => ⟨⟨last + 1⟩, g, owner, x⟩ :: paramsFrom g owner (last + 1) xs

/-- The values of new parameters are those that are given. -/
theorem map_value_paramsFrom (g : GroupId) (owner : Item) (last : Nat) (values : List R) :
    (paramsFrom g owner last values).map Param.value = values := by
  induction values generalizing last with
  | nil => rfl
  | cons x xs ih => rw [paramsFrom, List.map_cons, ih]

/-- The handles of new parameters are the next ones. -/
theorem map_identity_paramsFrom (g : GroupId) (owner : Item) (last : Nat) (values : List R) :
    (paramsFrom g owner last values).map Param.identity =
      (newParams last values.length).map fun k ↦ (k, g, owner) := by
  induction values generalizing last with
  | nil => rfl
  | cons x xs ih =>
    have hnext : newParams last (xs.length + 1) = ⟨last + 1⟩ :: newParams (last + 1) xs.length := by
      unfold newParams
      rw [List.range_succ_eq_map, List.map_cons, List.map_map]
      congr 2
      funext i
      exact congrArg ParamId.mk (by simp only [Nat.succ_eq_add_one]; omega)
    rw [paramsFrom, List.map_cons, ih, List.length_cons, hnext, List.map_cons]
    rfl

/-- New parameters are appended. -/
theorem appended_addParams (h : Named Param.id s.lastParam s.params) (owner : Item)
    (values : List R) :
    Appended Param.id s.lastParam (s.lastParam + values.length) s.params
      (s.addParams g owner values).params (paramsFrom g owner s.lastParam values) := by
  induction values generalizing s with
  | nil => exact .refl _ _ _
  | cons x xs ih =>
    let p : Param R := ⟨⟨s.lastParam + 1⟩, g, owner, x⟩
    have hfirst := appended_insert h (v := p) rfl
    have hnamed : Named Param.id (s.lastParam + 1) (s.params.insert p.id p) :=
      h.grown (grown_insert (P := fun k q ↦ q.id = k) rfl rfl) (fun _ _ hp ↦ hp) (Nat.le_succ _)
    have hrest := ih (s := { s with
      params := s.params.insert p.id p, lastParam := s.lastParam + 1 }) hnamed
    have hlast : s.lastParam + 1 + xs.length = s.lastParam + (x :: xs).length := by
      rw [List.length_cons]
      omega
    exact hlast ▸ hfirst.trans hrest

/-! ## One item -/

/-- A new entity is built. -/
theorem built_addEntity (h : s.WellNumbered) (wp : Option EntityId) (shape : Shape R) :
    s.Built g [⟨⟨s.lastEntity + 1⟩, g, wp, shape.numbered s.lastParam⟩] []
      (paramsFrom g (.entity ⟨s.lastEntity + 1⟩) s.lastParam shape.params)
      (s.addEntity g wp shape).2 := by
  have htouched := touched_of_grownIn (grownIn_addEntity s g wp shape)
  have hparams := appended_addParams (g := g) (s := { s with lastEntity := s.lastEntity + 1 })
    h.params (.entity ⟨s.lastEntity + 1⟩) shape.params
  have howned : (paramsFrom g (.entity ⟨s.lastEntity + 1⟩) s.lastParam shape.params).map
      Param.identity = Entity.owned ⟨⟨s.lastEntity + 1⟩, g, wp, shape.numbered s.lastParam⟩ := by
    rw [map_identity_paramsFrom, Entity.owned, Entity.params, Shape.params_numbered, newParams]
  simp only [addEntity, touchGroup_addParams] at htouched ⊢
  exact {
    entities := appended_insert h.entities
      (v := ⟨⟨s.lastEntity + 1⟩, g, wp, shape.numbered s.lastParam⟩) rfl
    constraints := .refl _ _ _
    params := hparams
    entityGroups := by simp
    constraintGroups := by simp
    owned := by simpa using howned
    touched := htouched
    config := rfl }

/-- A new constraint is built. -/
theorem built_addConstraint (h : s.WellNumbered) (wp : Option EntityId) {relation : Relation R P}
    {start : Option R} (hstart : start.isSome = relation.aux?.isSome) :
    s.Built g []
      [⟨⟨s.lastConstraint + 1⟩, g, wp, relation.mapAux fun _ ↦ ⟨s.lastParam + 1⟩⟩]
      (paramsFrom g (.constraint ⟨s.lastConstraint + 1⟩) s.lastParam start.toList)
      (s.addConstraint g wp relation start).2 := by
  have htouched := touched_of_grownIn (grownIn_addConstraint s g wp relation start)
  have hparams := appended_addParams (g := g) h.takeConstraint.params
    (.constraint ⟨s.lastConstraint + 1⟩) start.toList
  have howned : (paramsFrom g (.constraint ⟨s.lastConstraint + 1⟩) s.lastParam start.toList).map
      Param.identity = Constraint.owned ⟨⟨s.lastConstraint + 1⟩, g, wp,
        relation.mapAux fun _ ↦ ⟨s.lastParam + 1⟩⟩ := by
    rw [map_identity_paramsFrom, Constraint.owned, toList_aux?_mapAux hstart]
  simp only [addConstraint, placeConstraint, touchGroup_addParams] at htouched ⊢
  exact {
    entities := .refl _ _ _
    constraints := appended_insert h.constraints
      (v := ⟨⟨s.lastConstraint + 1⟩, g, wp, relation.mapAux fun _ ↦ ⟨s.lastParam + 1⟩⟩) rfl
    params := hparams
    entityGroups := by simp
    constraintGroups := by simp
    owned := by simpa using howned
    touched := htouched
    config := rfl }

end Sketch

/-! ## Builders -/

/-- The group that a command builds in, if it draws entities or adds a constraint. -/
def Command.buildsIn? : Command R → Option GroupId
  | .draw g _ => some g
  | .drawBase g => some g
  | .relate g _ => some g
  | _ => none

section Builders

variable [Arith R]

/-- An entity, with the values of its parameters, that a request asks for. -/
structure EntityRequest.Makes (request : EntityRequest R) (e : Entity) (values : List R) :
    Prop where
  /-- It is drawn where it was asked for. -/
  workplane : e.workplane = request.plan.workplane
  /-- It has the shape that was asked for. -/
  shape : ∃ n, e.shape = request.plan.shape.numbered n
  /-- Its parameters have the values that were asked for. -/
  values : values = request.plan.shape.params

/-- Whether a constraint is one that a request can lead to. If it has an auxiliary unknown, that
starts at the value that is found in the sketch before. -/
def ConstraintRequest.Makes (s : Sketch R) (request : ConstraintRequest R) (c : Constraint R)
    (values : List R) : Prop :=
  ∃ plan start k, request.Plans plan ∧ s.startOf plan.relation = .ok start ∧
    c.workplane = plan.workplane ∧ c.relation = plan.relation.mapAux (fun _ ↦ k) ∧
    values = start.toList

/-- What a builder answers and which items it makes, with the values of their parameters. -/
inductive Command.Makes (s : Sketch R) :
    Command R → Answer R → List Entity → List (Constraint R) → List R → Prop
  /-- The entity that was asked for. -/
  | drawn {g : GroupId} {request : EntityRequest R} {e : Entity} {xs : List R}
    (h : request.Makes e xs) : Makes s (.draw g request) (.entity e.id) [e] [] xs
  /-- A normal, an origin, and the workplane of the two. -/
  | base {g : GroupId} {normal origin plane : Entity} {xs ys zs : List R}
    (hnormal : (EntityRequest.normalFromBasis ⟨1.0, 0.0, 0.0⟩ ⟨0.0, 1.0, 0.0⟩).Makes normal xs)
    (horigin : (EntityRequest.point3d ⟨0.0, 0.0, 0.0⟩).Makes origin ys)
    (hplane : (EntityRequest.workplane origin.id normal.id).Makes plane zs) :
    Makes s (.drawBase g) (.entity plane.id) [normal, origin, plane] [] (xs ++ ys ++ zs)
  /-- The constraint that was asked for. -/
  | related {g : GroupId} {request : ConstraintRequest R} {c : Constraint R} {xs : List R}
    (h : request.Makes s c xs) : Makes s (.relate g request) (.constraint c.id) [] [c] xs

/-- What an all-or-nothing builder ends with: the sketch as it was, or new items in it. -/
def BuiltOrNothing (s : Sketch R) (g : GroupId) (c : Command R) :
    EStateM.Result (SketchError R) (Sketch R) (Answer R) → Prop
  | .error _ t => t = s
  | .ok a t => ∃ es cs ps, s.Built g es cs ps t ∧ c.Makes s a es cs (ps.map Param.value)

namespace Sketch

variable {s t : Sketch R} {g : GroupId}

/-- An entity that is drawn is built. -/
theorem built_of_draw (h : s.WellNumbered) {request : EntityRequest R} {id : EntityId}
    (hd : s.draw g request = .ok (id, t)) :
    ∃ e ps, e.id = id ∧ s.Built g [e] [] ps t ∧ request.Makes e (ps.map Param.value) ∧
      t.WellNumbered := by
  obtain ⟨plan, hplan, hd⟩ := Outcome.bind_eq_ok_iff.mp hd
  cases eq_plan_of_planEntity s g request plan hplan
  have hbuilt := built_addEntity (g := g) h request.plan.workplane request.plan.shape
  have hnumbered := h.grown (grownIn_addEntity s g request.plan.workplane request.plan.shape)
  cases hd
  exact ⟨_, _, rfl, hbuilt, ⟨rfl, ⟨_, rfl⟩, map_value_paramsFrom _ _ _ _⟩, hnumbered⟩

private theorem exists_draw_zero (hzero : Arith.isFinite (0.0 : R) = true) (s : Sketch R)
    (g : GroupId) : ∃ id t, s.draw g (.point3d ⟨0.0, 0.0, 0.0⟩) = .ok (id, t) := by
  have hfinite : checkFinite (⟨0.0, 0.0, 0.0⟩ : Vec3 R).toList = .ok () := by
    simp [checkFinite, Vec3.toList, hzero]
  have hplan : s.planEntity g (.point3d ⟨0.0, 0.0, 0.0⟩) = .ok _ :=
    Outcome.bind_eq_ok_iff.mpr ⟨(), hfinite, rfl⟩
  exact ⟨_, _, Outcome.bind_eq_ok_iff.mpr ⟨_, hplan, rfl⟩⟩

private theorem exists_draw_workplane {origin normal : Entity}
    (ho : s.entities.find? origin.id = some origin) (hog : origin.group = g)
    (hop : origin.isPoint3d = true) (hn : s.entities.find? normal.id = some normal)
    (hng : normal.group = g) (hnp : normal.isNormal3d = true) :
    ∃ id t, s.draw g (.workplane origin.id normal.id) = .ok (id, t) := by
  have horigin : s.require g "origin" .point3d origin.id = .ok origin :=
    require_eq_ok_iff.mpr ⟨ho, hop, Nat.le_of_eq (congrArg GroupId.index hog)⟩
  have hnormal : s.require g "normal" .normal3d normal.id = .ok normal :=
    require_eq_ok_iff.mpr ⟨hn, hnp, Nat.le_of_eq (congrArg GroupId.index hng)⟩
  have hplan : s.planEntity g (.workplane origin.id normal.id) = .ok _ :=
    Outcome.bind_eq_ok_iff.mpr ⟨_, horigin, Outcome.bind_eq_ok_iff.mpr ⟨_, hnormal, rfl⟩⟩
  exact ⟨_, _, Outcome.bind_eq_ok_iff.mpr ⟨_, hplan, rfl⟩⟩

private theorem builtOrNothing_draw (h : s.WellNumbered) (la : LinearAlgebra R)
    (request : EntityRequest R) :
    BuiltOrNothing s g (.draw g request) (((Command.draw g request).operation la).run s) := by
  rw [Command.operation, Operation.run_map, Operation.run_change]
  cases hd : s.draw g request with
  | error e => rfl
  | ok result =>
    obtain ⟨e, ps, hid, hbuilt, hmakes, _⟩ := built_of_draw h hd
    exact ⟨_, _, ps, hbuilt, hid ▸ .drawn hmakes⟩

private theorem builtOrNothing_drawBase (h : s.WellNumbered) (la : LinearAlgebra R)
    (hzero : Arith.isFinite (0.0 : R) = true) :
    BuiltOrNothing s g (.drawBase g) (((Command.drawBase g).operation la).run s) := by
  rw [Command.operation, Operation.run_map, Operation.drawBase, EStateM.run_bind,
    Operation.run_change]
  cases hd : s.draw g (.normalFromBasis ⟨1.0, 0.0, 0.0⟩ ⟨0.0, 1.0, 0.0⟩) with
  | error e => rfl
  | ok result =>
    obtain ⟨normalId, s₁⟩ := result
    obtain ⟨normal, ps₁, rfl, hbuilt₁, hnormal, hnumbered₁⟩ := built_of_draw h hd
    -- Once the normal is there, the origin and the workplane cannot be refused.
    obtain ⟨originId, s₂, ho⟩ := exists_draw_zero hzero s₁ g
    obtain ⟨origin, ps₂, rfl, hbuilt₂, horigin, hnumbered₂⟩ := built_of_draw hnumbered₁ ho
    have hboth := hbuilt₁.trans hbuilt₂
    have hnormalKind : normal.isNormal3d = true := by
      obtain ⟨n, hshape⟩ := hnormal.shape
      rw [Entity.isNormal3d, hshape]
      rfl
    have horiginKind : origin.isPoint3d = true := by
      obtain ⟨n, hshape⟩ := horigin.shape
      rw [Entity.isPoint3d, hshape]
      rfl
    obtain ⟨planeId, t, hp⟩ := exists_draw_workplane (g := g)
      (hboth.entities.find?_of_mem (v := origin) (by simp)) (hboth.entityGroups _ (by simp))
      horiginKind (hboth.entities.find?_of_mem (v := normal) (by simp))
      (hboth.entityGroups _ (by simp)) hnormalKind
    obtain ⟨plane, ps₃, rfl, hbuilt₃, hplane, _⟩ := built_of_draw hnumbered₂ hp
    have hall := hboth.trans hbuilt₃
    simp only [EStateM.run_bind, Operation.run_change, ho, hp]
    refine ⟨_, _, _, hall, ?_⟩
    rw [List.map_append, List.map_append]
    exact .base hnormal horigin hplane

private theorem builtOrNothing_relate (h : s.Linked) (hp : s.Placed) (la : LinearAlgebra R)
    (request : ConstraintRequest R) :
    BuiltOrNothing s g (.relate g request) (((Command.relate g request).operation la).run s) := by
  rw [Command.operation, Operation.run_map, Operation.run_relate]
  cases hplan : s.planConstraint g request with
  | error e => rfl
  | ok plan =>
    -- A handle is taken now, so a refusal would leave a trace.
    obtain ⟨start, hstart⟩ := exists_startOf h hp hplan
    have hbuilt := built_addConstraint (g := g) h.numbered plan.workplane (isSome_startOf hstart)
    have hplans := plans_of_planConstraint h.entitiesMet request plan hplan
    have hmakes : request.Makes s ⟨⟨s.lastConstraint + 1⟩, g, plan.workplane,
        plan.relation.mapAux fun _ ↦ ⟨s.lastParam + 1⟩⟩ start.toList :=
      ⟨plan, start, _, hplans, hstart, rfl, rfl, rfl⟩
    simp only [hstart]
    refine ⟨_, _, _, hbuilt, ?_⟩
    rw [map_value_paramsFrom]
    exact .related hmakes

end Sketch

/-- In every sketch that comes about, every builder does all or nothing. If it is refused, the
sketch is as it was. If it succeeds, the items that it was asked for are appended with their
parameters, its group is registered, and this and all later groups are unsolved. -/
theorem Sketch.Reachable.builtOrNothing {la : LinearAlgebra R} {s : Sketch R} (hs : s.Reachable la)
    (hzero : Arith.isFinite (0.0 : R) = true) {c : Command R} {g : GroupId}
    (hc : c.buildsIn? = some g) : BuiltOrNothing s g c ((c.operation la).run s) := by
  obtain ⟨hlinked, hplaced⟩ := hs.linked_placed
  cases c with
  | draw h request =>
    cases hc
    exact builtOrNothing_draw hlinked.numbered la request
  | drawBase h =>
    cases hc
    exact builtOrNothing_drawBase hlinked.numbered la hzero
  | relate h request =>
    cases hc
    exact builtOrNothing_relate hlinked hplaced la request
  | _ => cases hc

end Builders

/-- A run that draws two lines in space and solves their group. -/
def linesInSpace : List (Command Float) :=
  [.draw ⟨1⟩ (.point3d ⟨0.0, 0.0, 0.0⟩), .draw ⟨1⟩ (.point3d ⟨1.0, 0.0, 0.0⟩),
    .draw ⟨1⟩ (.point3d ⟨1.0, 2.0, 0.0⟩), .draw ⟨1⟩ (.line3d ⟨1⟩ ⟨2⟩),
    .draw ⟨1⟩ (.line3d ⟨1⟩ ⟨3⟩), .solve ⟨1⟩]

/-- A later group makes the two lines parallel, by a constraint with an auxiliary unknown. -/
theorem builtOrNothing_linesInSpace :
    let s := (Sketch.empty .default).runAll .standard linesInSpace
    let c : Command Float := .relate ⟨2⟩ (.parallel ⟨4⟩ ⟨5⟩ none)
    s.isSolved ⟨1⟩ = true ∧ (c.run .standard s).toOption.isSome = true ∧
      BuiltOrNothing s ⟨2⟩ c ((c.operation .standard).run s) := by
  intro s c
  have hs : s.Reachable .standard := ⟨.default, linesInSpace, rfl⟩
  exact ⟨by decide +kernel, by decide +kernel, hs.builtOrNothing isFinite_zero rfl⟩

end SketchSolver
