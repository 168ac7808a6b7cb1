import SketchSolver.Command
import SketchSolver.Proofs.Solve.Atomicity
import SketchSolver.Proofs.Solve.Isolation

/-!
# What a command does

A command leaves one of nine kinds of sketch behind, listed by `CommandEffect`: it changes nothing,
adds items to one group, takes a handle that it does not use, changes one value, removes a group,
registers one, removes everything, changes the settings, or solves a group. `commandEffect_step`
says so for every command and every sketch, so that a property of runs is a property of these nine
kinds.
-/

namespace SketchSolver

open Numbered

/-! ## Growing tables -/

section Tables

variable {K V : Type} [Numbered K] {old mid new : Table K V} {low mark high : Nat}
  {P : K → V → Prop}

/-- A table with entries added under numbers of a range, all of which satisfy a condition. -/
def Grown (P : K → V → Prop) (low high : Nat) (old new : Table K V) : Prop :=
  ∀ k, new.find? k = old.find? k ∨
    low < index k ∧ index k ≤ high ∧ ∃ v, new.find? k = some v ∧ P k v

/-- A table grows by nothing. -/
theorem Grown.refl (P : K → V → Prop) (low high : Nat) (t : Table K V) : Grown P low high t t :=
  fun _ ↦ .inl rfl

/-- A table that grows twice has grown. -/
theorem Grown.trans (h₁ : Grown P low mark old mid) (h₂ : Grown P mark high mid new)
    (hlow : low ≤ mark) (hhigh : mark ≤ high) : Grown P low high old new := by
  intro k
  rcases h₂ k with hk | ⟨hmark, hk, v, hv, hp⟩
  · rcases h₁ k with hk' | ⟨hlow', hk', v, hv, hp⟩
    · exact .inl (hk.trans hk')
    · exact .inr ⟨hlow', Nat.le_trans hk' hhigh, v, hk.trans hv, hp⟩
  · exact .inr ⟨Nat.lt_of_le_of_lt hlow hmark, hk, v, hv, hp⟩

/-- A table grows by the entry of the next number. -/
theorem grown_insert {k : K} {v : V} (hk : index k = low + 1) (hv : P k v) :
    Grown P low (low + 1) old (old.insert k v) := by
  intro j
  rw [Table.find?_insert]
  by_cases hj : index k = index j
  · rw [if_pos hj]
    have hkj : k = j := index_inj hj
    subst hkj
    exact .inr ⟨by omega, by omega, v, rfl, hv⟩
  · exact .inl (if_neg hj)

end Tables

variable {R : Type}

/-! ## Adding items -/

/-- A sketch with items added to a group, which is unsolved along with all later ones. -/
structure GrownIn (g : GroupId) (s t : Sketch R) : Prop where
  /-- Parameters of the group are added. -/
  params : Grown (fun k p ↦ p.id = k ∧ p.group = g) s.lastParam t.lastParam s.params t.params
  /-- Entities of the group are added. -/
  entities :
    Grown (fun k e ↦ e.id = k ∧ e.group = g) s.lastEntity t.lastEntity s.entities t.entities
  /-- Constraints of the group are added. -/
  constraints : Grown (fun k c ↦ c.id = k ∧ c.group = g) s.lastConstraint t.lastConstraint
    s.constraints t.constraints
  /-- Parameters are numbered upwards. -/
  lastParam : s.lastParam ≤ t.lastParam
  /-- Entities are numbered upwards. -/
  lastEntity : s.lastEntity ≤ t.lastEntity
  /-- Constraints are numbered upwards. -/
  lastConstraint : s.lastConstraint ≤ t.lastConstraint
  /-- The group is touched. -/
  groups : t.groups = (s.touchGroup g).groups

private theorem groups_touchGroup_congr (s t : Sketch R) (g : GroupId) (h : s.groups = t.groups) :
    (s.touchGroup g).groups = (t.touchGroup g).groups := by
  apply Table.ext
  intro k
  rw [Sketch.find?_groups_touchGroup, Sketch.find?_groups_touchGroup, h]

private theorem groups_touchGroup_twice {s t : Sketch R} {g : GroupId}
    (h : t.groups = (s.touchGroup g).groups) : (t.touchGroup g).groups = t.groups := by
  apply Table.ext
  intro k
  rw [Sketch.find?_groups_touchGroup, h, Sketch.find?_groups_touchGroup,
    Sketch.find?_groups_touchGroup]
  by_cases hk : k = g
  · subst hk
    simp only [if_true, Option.map_some, Option.getD_some, GroupId.le_def, Nat.le_refl]
  · simp only [if_neg hk, Option.map_map]
    congr 1
    funext st
    by_cases hle : g ≤ k <;> simp [hle]

/-- Adding items twice adds items. -/
theorem GrownIn.trans {g : GroupId} {s t u : Sketch R} (h₁ : GrownIn g s t) (h₂ : GrownIn g t u) :
    GrownIn g s u where
  params := h₁.params.trans h₂.params h₁.lastParam h₂.lastParam
  entities := h₁.entities.trans h₂.entities h₁.lastEntity h₂.lastEntity
  constraints := h₁.constraints.trans h₂.constraints h₁.lastConstraint h₂.lastConstraint
  lastParam := Nat.le_trans h₁.lastParam h₂.lastParam
  lastEntity := Nat.le_trans h₁.lastEntity h₂.lastEntity
  lastConstraint := Nat.le_trans h₁.lastConstraint h₂.lastConstraint
  groups := h₂.groups.trans ((groups_touchGroup_twice h₁.groups).trans h₁.groups)

private theorem grown_addParams (s : Sketch R) (g : GroupId) (owner : Item) (values : List R) :
    Grown (fun k p ↦ p.id = k ∧ p.group = g) s.lastParam (s.lastParam + values.length) s.params
      (s.addParams g owner values).params := by
  intro k
  rcases s.find?_addParams g owner values k with hk | ⟨hlow, hhigh, x, hx⟩
  · exact .inl hk
  · exact .inr ⟨hlow, hhigh, _, hx, rfl, rfl⟩

/-- Touching a group after adding parameters adds the parameters and touches the group. -/
theorem touchGroup_addParams (s : Sketch R) (g : GroupId) (owner : Item)
    (values : List R) :
    (s.addParams g owner values).touchGroup g =
      { s with
        params := (s.addParams g owner values).params
        lastParam := s.lastParam + values.length
        groups := (s.touchGroup g).groups } := by
  have heq := s.addParams_eq g owner values
  have hgroups : (s.addParams g owner values).groups = s.groups := by rw [heq]
  rw [Sketch.touchGroup_eq, groups_touchGroup_congr _ s g hgroups, heq]

/-- A new entity adds items to its group. -/
theorem grownIn_addEntity (s : Sketch R) (g : GroupId) (wp : Option EntityId) (shape : Shape R) :
    GrownIn g s (s.addEntity g wp shape).2 := by
  let numbered : Sketch R := { s with lastEntity := s.lastEntity + 1 }
  have hgroups : (numbered.touchGroup g).groups = (s.touchGroup g).groups :=
    groups_touchGroup_congr numbered s g rfl
  simp only [Sketch.addEntity, touchGroup_addParams]
  exact {
    params := grown_addParams numbered g (.entity ⟨s.lastEntity + 1⟩) shape.params
    entities := grown_insert rfl ⟨rfl, rfl⟩
    constraints := .refl _ _ _ _
    lastParam := Nat.le_add_right _ _
    lastEntity := Nat.le_succ _
    lastConstraint := Nat.le_refl _
    groups := hgroups }

/-- A new constraint adds items to its group. -/
theorem grownIn_addConstraint {P : Type} (s : Sketch R) (g : GroupId) (wp : Option EntityId)
    (relation : Relation R P) (start : Option R) :
    GrownIn g s (s.addConstraint g wp relation start).2 := by
  let numbered : Sketch R := s.takeConstraint.2
  have hgroups : (numbered.touchGroup g).groups = (s.touchGroup g).groups :=
    groups_touchGroup_congr numbered s g rfl
  simp only [Sketch.addConstraint, Sketch.placeConstraint, touchGroup_addParams]
  exact {
    params := grown_addParams numbered g (.constraint ⟨s.lastConstraint + 1⟩) start.toList
    entities := .refl _ _ _ _
    constraints := grown_insert rfl ⟨rfl, rfl⟩
    lastParam := Nat.le_add_right _ _
    lastEntity := Nat.le_refl _
    lastConstraint := Nat.le_succ _
    groups := hgroups }

/-! ## Operations that only add items -/

/-- An operation that adds items to a group or changes nothing, also if it is refused. -/
def Operation.Adds {α : Type} (g : GroupId) (op : Operation R α) : Prop :=
  ∀ s, op.left s = s ∨ GrownIn g s (op.left s)

/-- Adding items in two steps adds items, also if the second step is refused. -/
theorem Operation.Adds.bind {α β : Type} {g : GroupId} {op : Operation R α}
    {k : α → Operation R β} (h : op.Adds g) (hk : ∀ a, (k a).Adds g) : (op >>= k).Adds g := by
  intro s
  have hs := h s
  unfold left at hs ⊢
  rw [EStateM.run_bind]
  cases hrun : op.run s with
  | error e t =>
    rw [hrun] at hs
    exact hs
  | ok a t =>
    rw [hrun] at hs
    have ht := hk a t
    unfold left at ht
    rcases hs with rfl | hs
    · exact ht
    · rcases ht with ht | ht
      · rw [ht]
        exact .inr hs
      · exact .inr (hs.trans ht)

variable [Arith R]

/-- Drawing an entity adds items to its group. -/
theorem adds_draw (g : GroupId) (request : EntityRequest R) :
    (Operation.change fun s ↦ s.draw g request).Adds g := by
  intro s
  rw [Operation.left_change]
  cases h : s.draw g request with
  | error e => exact .inl rfl
  | ok result =>
    obtain ⟨plan, _, hplan⟩ := Outcome.bind_eq_ok_iff.mp h
    cases hplan
    exact .inr (grownIn_addEntity s g plan.workplane plan.shape)

/-- Drawing the base workplane adds items to its group. -/
theorem adds_drawBase (g : GroupId) : (Operation.drawBase g : Operation R EntityId).Adds g :=
  (adds_draw g _).bind fun _ ↦ (adds_draw g _).bind fun _ ↦ adds_draw g _

/-! ## Commands -/

/-- The group that a command solves and the parameters that it drags, if it is a solve. -/
def Command.solveTarget? : Command R → Option (GroupId × List ParamId)
  | .solve g => some (g, [])
  | .solveDragged g dragged => some (g, dragged)
  | _ => none

/-- Whether a command solves a group successfully. -/
def Command.solves (la : LinearAlgebra R) (s : Sketch R) (g : GroupId) (c : Command R) : Bool :=
  match c.run la s with
  | .ok (.report r, _) => r.status.isOk && c.solveTarget?.any (·.1 == g)
  | _ => false

/-- What a command does to a sketch. -/
inductive CommandEffect (la : LinearAlgebra R) (s : Sketch R) : Command R → Sketch R → Prop
  /-- Nothing, if it is refused or finds no solution. -/
  | unchanged {c : Command R} : CommandEffect la s c s
  /-- It adds items to a group. -/
  | grown {c : Command R} {g : GroupId} {t : Sketch R} (h : GrownIn g s t) : CommandEffect la s c t
  /-- It takes a handle for a constraint and is refused after that. -/
  | handleTaken {c : Command R} : CommandEffect la s c s.takeConstraint.2
  /-- It changes the value of a parameter. -/
  | assigned {p : ParamId} {x : R} {q : Param R} (hq : s.params.find? p = some q) :
    CommandEffect la s (.setParamValue p x)
      ({ s with params := s.params.insert p { q with value := x } }.markUnsolved q.group)
  /-- It removes a group. -/
  | removed {g : GroupId} :
    CommandEffect la s (.removeGroup g) ((s.withoutGroup g).markUnsolved g)
  /-- It registers a group. -/
  | created {g : GroupId} : CommandEffect la s (.createGroup g) (s.createGroup g)
  /-- It removes everything. -/
  | cleared : CommandEffect la s .clear s.clear
  /-- It changes the settings. -/
  | configured {config : Config R} : CommandEffect la s (.setConfig config) (s.setConfig config)
  /-- It solves a group. -/
  | solved {c : Command R} {g : GroupId} {dragged : List ParamId} {dof : Option Nat} {t : Sketch R}
    (htarget : c.solveTarget? = some (g, dragged)) (hsolves : c.solves la s g = true)
    (h : SolvedApart g (.ofHandles dragged) dof s t) : CommandEffect la s c t

private theorem commandEffect_of_adds {la : LinearAlgebra R} {s : Sketch R} {c : Command R}
    {α : Type} {g : GroupId} {op : Operation R α} {f : α → Answer R} (h : op.Adds g)
    (hc : c.operation la = f <$> op) : CommandEffect la s c (s.step la c) := by
  unfold Sketch.step
  rw [hc, Operation.left_map]
  rcases h s with hs | hs
  · rw [hs]
    exact .unchanged
  · exact .grown hs

private theorem commandEffect_relate (la : LinearAlgebra R) (s : Sketch R) (g : GroupId)
    (request : ConstraintRequest R) :
    CommandEffect la s (.relate g request) (s.step la (.relate g request)) := by
  rw [Sketch.step, Command.operation, Operation.left_map, Operation.left, Operation.run_relate]
  cases s.planConstraint g request with
  | error e => exact .unchanged
  | ok plan =>
    dsimp only
    cases s.startOf plan.relation with
    | error e => exact .handleTaken
    | ok start => exact .grown (grownIn_addConstraint s g plan.workplane plan.relation start)

private theorem commandEffect_setParamValue (la : LinearAlgebra R) (s : Sketch R) (p : ParamId)
    (x : R) : CommandEffect la s (.setParamValue p x) (s.step la (.setParamValue p x)) := by
  rw [Sketch.step, Command.operation, Operation.left_change]
  cases h : s.setParamValue p x with
  | error e => exact .unchanged
  | ok t =>
    unfold Sketch.setParamValue at h
    split at h
    · cases h
    · split at h
      · cases h
      · next q hq =>
        cases h
        exact .assigned hq

private theorem commandEffect_removeGroup (la : LinearAlgebra R) (s : Sketch R) (g : GroupId) :
    CommandEffect la s (.removeGroup g) (s.step la (.removeGroup g)) := by
  rw [Sketch.step, Command.operation, Operation.left_change]
  cases h : s.removeGroup g with
  | error e => exact .unchanged
  | ok t =>
    obtain ⟨_, _, h⟩ := Outcome.bind_eq_ok_iff.mp h
    split at h
    · cases h
    · cases h
      exact .removed

private theorem solvedApart_of_run {la : LinearAlgebra R} {s t : Sketch R} {g : GroupId}
    {dragged : List ParamId} {r : SolveReport R}
    (h : (Operation.solveDragged la g dragged).run s = .ok r t) (hok : r.status.isOk = true) :
    ∃ dof, SolvedApart g (.ofHandles dragged) dof s t := by
  rw [run_solveDragged] at h
  split at h
  · obtain ⟨start, fixed, hp, _, _, rfl⟩ := exists_prepared_of_isOk h hok
    exact ⟨_, hp.solvedApart _⟩
  · cases h

private theorem commandEffect_of_solve (la : LinearAlgebra R) (s : Sketch R) {c : Command R}
    {g : GroupId} {dragged : List ParamId} (htarget : c.solveTarget? = some (g, dragged))
    (hc : c.operation la = .report <$> Operation.solveDragged la g dragged) :
    CommandEffect la s c (s.step la c) := by
  have hall := allOrNothing_solveDragged la s g dragged
  rw [Sketch.step, hc, Operation.left_map, Operation.left]
  cases hrun : (Operation.solveDragged la g dragged).run s with
  | error e t =>
    rw [hrun] at hall
    cases hall
    exact .unchanged
  | ok r t =>
    rw [hrun, AllOrNothing] at hall
    cases hok : r.status.isOk with
    | false =>
      rw [hok, if_neg Bool.false_ne_true] at hall
      rw [hall.2]
      exact .unchanged
    | true =>
      have hsolves : c.solves la s g = true := by
        unfold Command.solves Command.run Operation.outcome
        rw [hc, Operation.run_map, hrun, htarget]
        simp [hok]
      obtain ⟨dof, hapart⟩ := solvedApart_of_run hrun hok
      exact .solved htarget hsolves hapart

/-- Every command does one of the things that are listed. -/
theorem commandEffect_step (la : LinearAlgebra R) (s : Sketch R) (c : Command R) :
    CommandEffect la s c (s.step la c) := by
  cases c with
  | draw g request => exact commandEffect_of_adds (adds_draw g request) rfl
  | drawBase g => exact commandEffect_of_adds (adds_drawBase g) rfl
  | relate g request => exact commandEffect_relate la s g request
  | setParamValue p x => exact commandEffect_setParamValue la s p x
  | removeGroup g => exact commandEffect_removeGroup la s g
  | createGroup g => exact .created
  | clear => exact .cleared
  | setConfig config => exact .configured
  | solve g => exact commandEffect_of_solve la s rfl rfl
  | solveDragged g dragged => exact commandEffect_of_solve la s rfl rfl

end SketchSolver
