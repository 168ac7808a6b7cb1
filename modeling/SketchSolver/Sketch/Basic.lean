import SketchSolver.Config.Basic
import SketchSolver.Sketch.Constraint
import SketchSolver.Sketch.Error
import SketchSolver.Table

/-!
# Sketches

A sketch holds parameters, entities, constraints and groups in tables, and numbers new handles
upwards without ever using one twice. A change to a group makes that group and all later ones
unsolved.

Specification: sections 3 and E.5.
-/

namespace SketchSolver

/-- How far a group is solved. -/
structure GroupState where
  /-- Its handle. -/
  id : GroupId
  /-- Whether its last solve succeeded and nothing has changed since. -/
  solved : Bool
  /-- The degrees of freedom after its last successful solve. -/
  dof : Option Nat
  deriving DecidableEq, Repr

/-- A group that was never solved. -/
def GroupState.fresh (id : GroupId) : GroupState := ⟨id, false, none⟩

/-- Parameters, entities, constraints and groups of one design. -/
structure Sketch (R : Type) where
  /-- The parameters. -/
  params : Table ParamId (Param R)
  /-- The entities. -/
  entities : Table EntityId Entity
  /-- The constraints. -/
  constraints : Table ConstraintId (Constraint R)
  /-- The groups. -/
  groups : Table GroupId GroupState
  /-- The number of the latest parameter. -/
  lastParam : Nat
  /-- The number of the latest entity. -/
  lastEntity : Nat
  /-- The number of the latest constraint. -/
  lastConstraint : Nat
  /-- The settings of the solver. -/
  config : Config R

/-- What an operation on a sketch gives unless it is refused. -/
abbrev Outcome (R α : Type) := Except (SketchError R) α

namespace Outcome

variable {R α β : Type}

/-- Two steps succeed exactly if the first does and the second does with its result. -/
theorem bind_eq_ok_iff {x : Outcome R α} {f : α → Outcome R β} {b : β} :
    (x >>= f) = .ok b ↔ ∃ a, x = .ok a ∧ f a = .ok b := by
  cases x with
  | error e => simp [bind, Except.bind]
  | ok a => simp [bind, Except.bind]

/-- What a step for each member of a list gives comes from one of the members. -/
theorem exists_of_mem_mapM {f : α → Outcome R β} {xs : List α} {ys : List β}
    (h : xs.mapM f = .ok ys) {y : β} (hy : y ∈ ys) : ∃ x ∈ xs, f x = .ok y := by
  induction xs generalizing ys with
  | nil =>
    rw [List.mapM_nil] at h
    cases h
    exact absurd hy List.not_mem_nil
  | cons x xs ih =>
    rw [List.mapM_cons] at h
    obtain ⟨z, hz, h⟩ := bind_eq_ok_iff.mp h
    obtain ⟨zs, hzs, h⟩ := bind_eq_ok_iff.mp h
    cases h
    rcases List.mem_cons.mp hy with rfl | hy
    · exact ⟨x, List.mem_cons_self, hz⟩
    · obtain ⟨w, hw, hf⟩ := ih hzs hy
      exact ⟨w, List.mem_cons_of_mem _ hw, hf⟩

/-- Each member of a list has a part in what a step for each member gives. -/
theorem exists_mem_of_mapM {f : α → Outcome R β} {xs : List α} {ys : List β}
    (h : xs.mapM f = .ok ys) {x : α} (hx : x ∈ xs) : ∃ y ∈ ys, f x = .ok y := by
  induction xs generalizing ys with
  | nil => exact absurd hx List.not_mem_nil
  | cons w xs ih =>
    rw [List.mapM_cons] at h
    obtain ⟨z, hz, h⟩ := bind_eq_ok_iff.mp h
    obtain ⟨zs, hzs, h⟩ := bind_eq_ok_iff.mp h
    cases h
    rcases List.mem_cons.mp hx with rfl | hx
    · exact ⟨z, List.mem_cons_self, hz⟩
    · obtain ⟨y, hy, hf⟩ := ih hzs hx
      exact ⟨y, List.mem_cons_of_mem _ hy, hf⟩

/-- An outcome of which something holds if it succeeds, and which does succeed. -/
theorem exists_of_any_toOption {x : Outcome R α} {p : α → Bool}
    (h : x.toOption.any p = true) : ∃ a, x = .ok a ∧ p a = true := by
  cases x with
  | error e => cases h
  | ok a => exact ⟨a, rfl, h⟩

end Outcome

namespace Sketch

variable {R : Type}

/-- A sketch without content. -/
def empty (config : Config R) : Sketch R where
  params := .empty
  entities := .empty
  constraints := .empty
  groups := .empty
  lastParam := 0
  lastEntity := 0
  lastConstraint := 0
  config := config

/-! ## Looking things up -/

/-- A parameter. -/
def param (s : Sketch R) (id : ParamId) : Outcome R (Param R) :=
  match s.params.find? id with
  | some p => .ok p
  | none => .error (.paramNotFound id)

/-- An entity. -/
def entity (s : Sketch R) (id : EntityId) : Outcome R Entity :=
  match s.entities.find? id with
  | some e => .ok e
  | none => .error (.entityNotFound id)

/-- A constraint. -/
def constraint (s : Sketch R) (id : ConstraintId) : Outcome R (Constraint R) :=
  match s.constraints.find? id with
  | some c => .ok c
  | none => .error (.constraintNotFound id)

/-- A group. -/
def group (s : Sketch R) (id : GroupId) : Outcome R GroupState :=
  match s.groups.find? id with
  | some g => .ok g
  | none => .error (.groupNotFound id)

/-- The entities of a group, in order. -/
def entitiesIn (s : Sketch R) (g : GroupId) : List Entity :=
  s.entities.values.filter (·.group == g)

/-- The constraints of a group, in order. -/
def constraintsIn (s : Sketch R) (g : GroupId) : List (Constraint R) :=
  s.constraints.values.filter (·.group == g)

/-- The current value of a parameter, undefined for one that is missing. -/
def value [Arith R] (s : Sketch R) (id : ParamId) : R :=
  match s.params.find? id with
  | some p => p.value
  | none => Arith.nan

/-- The current values of the parameters of an entity. -/
def entityValues (s : Sketch R) (id : EntityId) : Outcome R (List R) := do
  (← s.entity id).params.mapM fun p ↦ do return (← s.param p).value

/-- An argument of an operation for a group: an entity of some kind whose group is not later. -/
def require (s : Sketch R) (g : GroupId) (role : String) (kind : EntityClass) (id : EntityId) :
    Outcome R Entity := do
  let e ← s.entity id
  if !kind.holds e then .error (.wrongEntityKind role id kind.description e.typeName)
  else if g < e.group then .error (.laterGroup id e.group g)
  else .ok e

/-! ## Changing things -/

/-- The group is there; a new one is unsolved. -/
def createGroup (s : Sketch R) (g : GroupId) : Sketch R :=
  if s.groups.contains g then s else { s with groups := s.groups.insert g (.fresh g) }

/-- A group and all later ones are unsolved. -/
def markUnsolved (s : Sketch R) (g : GroupId) : Sketch R :=
  { s with groups := s.groups.map fun id st ↦
      if g ≤ id then { st with solved := false } else st }

/-- The group is there, and it and all later ones are unsolved. -/
def touchGroup (s : Sketch R) (g : GroupId) : Sketch R := (s.createGroup g).markUnsolved g

/-- Registering a group adds it unsolved, unless it is there. -/
theorem find?_groups_createGroup (s : Sketch R) (g h : GroupId) :
    (s.createGroup g).groups.find? h =
      if h = g then some ((s.groups.find? g).getD (.fresh g)) else s.groups.find? h := by
  unfold createGroup
  split
  · next hg =>
    obtain ⟨st, hst⟩ := Table.contains_iff_exists.mp hg
    by_cases hh : h = g
    · rw [if_pos hh, hh, hst, Option.getD_some]
    · rw [if_neg hh]
  · next hg =>
    have hnone := Table.contains_eq_false_iff.mp (Bool.eq_false_iff.mpr hg)
    rw [Table.find?_insert]
    by_cases hh : h = g
    · rw [if_pos hh, if_pos (congrArg Numbered.index hh.symm), hnone, Option.getD_none]
    · rw [if_neg hh, if_neg fun hi ↦ hh (Numbered.index_inj hi).symm]

/-- Marking a group changes whether it and later groups are solved. -/
theorem find?_groups_markUnsolved (s : Sketch R) (g h : GroupId) :
    (s.markUnsolved g).groups.find? h =
      (s.groups.find? h).map fun st ↦ if g ≤ h then { st with solved := false } else st := by
  rw [markUnsolved, Table.find?_map]

/-- Touching a group changes groups only. -/
theorem touchGroup_eq (s : Sketch R) (g : GroupId) :
    s.touchGroup g = { s with groups := (s.touchGroup g).groups } := by
  unfold touchGroup createGroup
  split <;> rfl

/-- Touching a group adds it, and it and all later ones are unsolved. -/
theorem find?_groups_touchGroup (s : Sketch R) (g h : GroupId) :
    (s.touchGroup g).groups.find? h =
      (if h = g then some ((s.groups.find? g).getD (.fresh g)) else s.groups.find? h).map
        fun st ↦ if g ≤ h then { st with solved := false } else st := by
  rw [touchGroup, find?_groups_markUnsolved, find?_groups_createGroup]

/-- New parameters with given values, numbered onwards. -/
def addParams (s : Sketch R) (g : GroupId) (owner : Item) (values : List R) : Sketch R :=
  values.foldl (fun s x ↦
    let id : ParamId := ⟨s.lastParam + 1⟩
    { s with params := s.params.insert id ⟨id, g, owner, x⟩, lastParam := s.lastParam + 1 }) s

/-- Adding parameters changes the parameters and their number only. -/
theorem addParams_eq (s : Sketch R) (g : GroupId) (owner : Item) (values : List R) :
    s.addParams g owner values =
      { s with
        params := (s.addParams g owner values).params
        lastParam := s.lastParam + values.length } := by
  induction values generalizing s with
  | nil => rfl
  | cons x xs ih =>
    have hcons : s.addParams g owner (x :: xs) =
        Sketch.addParams { s with
          params := s.params.insert ⟨s.lastParam + 1⟩ ⟨⟨s.lastParam + 1⟩, g, owner, x⟩
          lastParam := s.lastParam + 1 } g owner xs := rfl
    rw [hcons, ih, List.length_cons]
    have hlength : s.lastParam + 1 + xs.length = s.lastParam + (xs.length + 1) := by omega
    simp only [hlength]

/-- A parameter after adding some is one from before or one of those added. -/
theorem find?_addParams (s : Sketch R) (g : GroupId) (owner : Item) (values : List R)
    (k : ParamId) :
    (s.addParams g owner values).params.find? k = s.params.find? k ∨
      s.lastParam < k.index ∧ k.index ≤ s.lastParam + values.length ∧
        ∃ x, (s.addParams g owner values).params.find? k = some ⟨k, g, owner, x⟩ := by
  induction values generalizing s with
  | nil => exact .inl rfl
  | cons x xs ih =>
    let one : Sketch R := { s with
      params := s.params.insert ⟨s.lastParam + 1⟩ ⟨⟨s.lastParam + 1⟩, g, owner, x⟩
      lastParam := s.lastParam + 1 }
    have hcons : s.addParams g owner (x :: xs) = one.addParams g owner xs := rfl
    rw [hcons, List.length_cons]
    rcases ih one with hold | ⟨hlow, hhigh, y, hy⟩
    · rw [hold, Table.find?_insert]
      by_cases hk : (⟨s.lastParam + 1⟩ : ParamId) = k
      · subst hk
        refine .inr ⟨Nat.lt_succ_self _, by simp only; omega, x, ?_⟩
        rw [if_pos rfl]
      · exact .inl (if_neg fun hi ↦ hk (Numbered.index_inj hi))
    · have hlast : one.lastParam = s.lastParam + 1 := rfl
      rw [hlast] at hlow hhigh
      exact .inr ⟨by omega, by omega, y, hy⟩

/-- A new entity, whose shape gives the values of its parameters. -/
def addEntity (s : Sketch R) (g : GroupId) (workplane : Option EntityId) (shape : Shape R) :
    EntityId × Sketch R :=
  let id : EntityId := ⟨s.lastEntity + 1⟩
  let e : Entity := ⟨id, g, workplane, shape.numbered s.lastParam⟩
  let s := ({ s with lastEntity := s.lastEntity + 1 }).addParams g (.entity id) shape.params
  let s := s.touchGroup g
  (id, { s with entities := s.entities.insert id e })

/-- The next handle of a constraint, and the sketch in which it is taken. -/
def takeConstraint (s : Sketch R) : ConstraintId × Sketch R :=
  (⟨s.lastConstraint + 1⟩, { s with lastConstraint := s.lastConstraint + 1 })

/-- A constraint under a handle that was taken for it, with the value that its auxiliary unknown
starts with. -/
def placeConstraint {P : Type} (s : Sketch R) (id : ConstraintId) (g : GroupId)
    (workplane : Option EntityId) (relation : Relation R P) (start : Option R) : Sketch R :=
  let c : Constraint R := ⟨id, g, workplane, relation.mapAux fun _ ↦ ⟨s.lastParam + 1⟩⟩
  let s := (s.addParams g (.constraint id) start.toList).touchGroup g
  { s with constraints := s.constraints.insert id c }

/-- A new constraint under the next handle. -/
def addConstraint {P : Type} (s : Sketch R) (g : GroupId) (workplane : Option EntityId)
    (relation : Relation R P) (start : Option R) : ConstraintId × Sketch R :=
  let (id, s) := s.takeConstraint
  (id, s.placeConstraint id g workplane relation start)

/-- A parameter with a new value, which has to be a number within range. The group of the
parameter and all later ones become unsolved. -/
def setParamValue [Arith R] (s : Sketch R) (id : ParamId) (x : R) : Outcome R (Sketch R) :=
  if !Arith.isFinite x then .error (.invalidValue (.assigned id x))
  else
    match s.params.find? id with
    | none => .error (.paramNotFound id)
    | some p =>
      .ok (({ s with params := s.params.insert id { p with value := x } }).markUnsolved p.group)

/-- The first item of another group that refers to an entity of a group. Entities come before
constraints. -/
def userOf? (s : Sketch R) (g : GroupId) : Option Item :=
  let doomed := (s.entitiesIn g).map Entity.id
  let refers (ids : List EntityId) : Bool := ids.any doomed.contains
  match s.entities.values.find? fun e ↦ e.group != g && refers e.references with
  | some e => some (.entity e.id)
  | none =>
    (s.constraints.values.find? fun c ↦ c.group != g && refers c.references).map
      fun c ↦ .constraint c.id

/-- The sketch without a group and all that belongs to it. -/
def withoutGroup (s : Sketch R) (g : GroupId) : Sketch R :=
  { s with
    entities := s.entities.filter fun _ e ↦ e.group != g
    constraints := s.constraints.filter fun _ c ↦ c.group != g
    params := s.params.filter fun _ p ↦ p.group != g
    groups := s.groups.erase g }

/-- The sketch without a group, unless an item of another group refers to one of its entities. All
later groups become unsolved. -/
def removeGroup (s : Sketch R) (g : GroupId) : Outcome R (Sketch R) := do
  let _ ← s.group g
  match s.userOf? g with
  | some user => .error (.groupInUse g user)
  | none => .ok ((s.withoutGroup g).markUnsolved g)

/-- The sketch without content. Handles are not used again. -/
def clear (s : Sketch R) : Sketch R :=
  { s with params := .empty, entities := .empty, constraints := .empty, groups := .empty }

/-- The sketch with another configuration. -/
def setConfig (s : Sketch R) (config : Config R) : Sketch R := { s with config := config }

/-- The sketch with solved values written to its parameters. The group is then solved, with its
degrees of freedom, and all later ones are unsolved. -/
def commit (s : Sketch R) (g : GroupId) (values : Table ParamId R) (dof : Nat) : Sketch R :=
  { s with
    params := s.params.map fun id p ↦ { p with value := (values.find? id).getD p.value }
    groups := (s.groups.map fun id st ↦
      if g < id then { st with solved := false } else st).insert g ⟨g, true, some dof⟩ }

/-- A commit changes the values of parameters only. -/
theorem find?_params_commit (s : Sketch R) (g : GroupId) (values : Table ParamId R) (dof : Nat)
    (k : ParamId) :
    (s.commit g values dof).params.find? k =
      (s.params.find? k).map fun p ↦ { p with value := (values.find? k).getD p.value } := by
  rw [commit, Table.find?_map]

/-- A commit makes its group solved and all later ones unsolved. -/
theorem find?_groups_commit (s : Sketch R) (g : GroupId) (values : Table ParamId R) (dof : Nat)
    (h : GroupId) :
    (s.commit g values dof).groups.find? h =
      if h = g then some ⟨g, true, some dof⟩
      else (s.groups.find? h).map fun st ↦ if g < h then { st with solved := false } else st := by
  rw [commit, Table.find?_insert, Table.find?_map]
  by_cases hg : h = g
  · rw [if_pos hg, if_pos (congrArg Numbered.index hg.symm)]
  · rw [if_neg hg, if_neg fun hi ↦ hg (Numbered.index_inj hi).symm]

end Sketch

end SketchSolver
