import SketchSolver.Proofs.Run.Totality

/-!
# Completeness of references

Removing a group asks what the items of other groups refer to, and it looks at their references
only. So what an equation reads has to be found from these. The entities that are reached from the
references of a constraint are closed under references, they stay in its group and earlier ones, and
they own whatever its equations mention, apart from its own auxiliary unknown. A line keeps the
points of a constraint that holds between its ends, so these are reached through the line.
-/

namespace SketchSolver

variable {R : Type}

namespace Sketch

/-! ## What is reached -/

/-- An entity that is reached by following references. -/
inductive Reaches (s : Sketch R) (roots : List EntityId) : EntityId → Prop
  /-- Where the references start. -/
  | root {k : EntityId} (hk : k ∈ roots) : s.Reaches roots k
  /-- What an entity that is reached refers to. -/
  | step {k r : EntityId} {e : Entity} (hk : s.Reaches roots k)
      (he : s.entities.find? k = some e) (hr : r ∈ e.references) : s.Reaches roots r

/-- A parameter, of a group or an earlier one, that an entity owns and lists which is reached. -/
def OwnedWithin (s : Sketch R) (g : GroupId) (roots : List EntityId) (p : ParamId) : Prop :=
  ∃ q k e, s.params.find? p = some q ∧ q.group ≤ g ∧ q.owner = .entity k ∧ s.Reaches roots k ∧
    s.entities.find? k = some e ∧ p ∈ e.params

/-- The auxiliary unknown of a constraint, of its group or an earlier one. -/
def IsAuxOf (s : Sketch R) (c : Constraint R) (p : ParamId) : Prop :=
  c.relation.aux? = some p ∧
    ∃ q, s.params.find? p = some q ∧ q.group ≤ c.group ∧ q.owner = .constraint c.id

/-- A parameter that a constraint names: its auxiliary unknown, or one of an entity that is reached
from its references. -/
def Names (s : Sketch R) (c : Constraint R) (p : ParamId) : Prop :=
  s.IsAuxOf c p ∨ s.OwnedWithin c.group c.references p

variable {s t : Sketch R} {g : GroupId} {roots : List EntityId} {known : ParamId → Prop}

/-- What is reached from entities of a group and earlier ones is there and in these groups. -/
theorem Linked.hasEntity_of_reaches (h : s.Linked) (hroots : ∀ k ∈ roots, s.HasEntity g k)
    {k : EntityId} (hk : s.Reaches roots k) : s.HasEntity g k := by
  induction hk with
  | root hk => exact hroots _ hk
  | @step k r e _ he hr ih =>
    obtain ⟨f, hf, hle⟩ := ih
    cases he.symm.trans hf
    rw [← Entity.map_fst_demands] at hr
    obtain ⟨d, hd, rfl⟩ := List.mem_map.mp hr
    exact ((h.entities k e he d hd).offers hle).1

/-- What an item refers to is there and in no later group. -/
theorem MeetsAll.hasEntity {ds : List Demand} (h : s.MeetsAll g ds) :
    ∀ k ∈ ds.map Prod.fst, s.HasEntity g k := by
  intro k hk
  obtain ⟨d, hd, rfl⟩ := List.mem_map.mp hk
  exact ((h d hd).offers (Nat.le_refl _)).1

/-- The references of an entity that is reached lead to what is reached. -/
theorem Linked.readable_of_reaches (h : s.Linked) (hp : s.Placed)
    (hroots : ∀ k ∈ roots, s.HasEntity g k) (hknown : ∀ p, s.OwnedWithin g roots p → known p)
    {k : EntityId} (hk : s.Reaches roots k) {e : Entity} (he : s.entities.find? k = some e) :
    e.Readable s (s.Reaches roots) known where
  demands d hd := by
    obtain ⟨f, hf, hkind, _⟩ := h.entities k e he d hd
    exact ⟨.step hk he (Entity.fst_mem_references hd), f, hf, hkind⟩
  params p hmem := by
    obtain ⟨f, hf, hle⟩ := h.hasEntity_of_reaches hroots hk
    cases he.symm.trans hf
    have hks : s.listing (.entity k) = some (e.group, e.params) := by
      rw [listing, he, Option.map_some]
    obtain ⟨q, hq, howner, hgroup⟩ := h.exists_param hks hmem
    exact hknown p ⟨q, k, e, hq, hgroup ▸ hle, howner, hk, he, hmem⟩
  placed := hp.entities k e he

/-- The references of a constraint lead to what is reached from them. -/
theorem Linked.readable_of_names (h : s.Linked) (hp : s.Placed) {k : ConstraintId}
    {c : Constraint R} (hc : s.constraints.find? k = some c) :
    c.Readable s (s.Reaches c.references) (s.Names c) where
  demands d hd := by
    obtain ⟨f, hf, hkind, _⟩ := h.constraints k c hc d hd
    exact ⟨.root (Constraint.fst_mem_references hd), f, hf, hkind⟩
  ends p hmem := by
    obtain ⟨line, e, w, hline, he, _, hend⟩ := h.exists_line_of_mem_ends hc hmem
    obtain ⟨f, hf, hkind, _⟩ := h.ends hc hmem
    have hreferred := Entity.fst_mem_references hend
    exact ⟨.step (.root hline) he hreferred, f, hf, hkind⟩
  aux p haux := by
    have hks : s.listing (.constraint k) = some (c.group, c.relation.aux?.toList) := by
      rw [listing, hc, Option.map_some]
    obtain ⟨q, hq, howner, hgroup⟩ := h.exists_param hks (k := p) (by simp [haux])
    have hid : c.id = k := (h.numbered.constraints k c hc).1
    exact .inl ⟨haux, q, hq, Nat.le_of_eq (congrArg GroupId.index hgroup), by rw [howner, hid]⟩
  placed := hp.constraints k c hc

/-! ## What equations read -/

variable [Arith R]

/-- A sketch shares what is reached with every other that has the same entities there and the same
values of what they own. -/
theorem Linked.shares_reached (h : s.Linked) (hp : s.Placed)
    (hroots : ∀ k ∈ roots, s.HasEntity g k) (hknown : ∀ p, s.OwnedWithin g roots p → known p)
    (hentities : ∀ k, s.Reaches roots k → t.entities.find? k = s.entities.find? k)
    (hvalues : ∀ p, known p → t.value p = s.value p) : s.Shares (s.Reaches roots) known t where
  readable _ _ hk he := h.readable_of_reaches hp hroots hknown hk he
  entities := hentities
  values := hvalues

/-- A sketch shares what a constraint refers to with every other that has the same entities there
and the same values of what they own. -/
theorem Linked.shares_references (h : s.Linked) (hp : s.Placed) {k : ConstraintId}
    {c : Constraint R} (hc : s.constraints.find? k = some c)
    (hentities : ∀ j, s.Reaches c.references j → t.entities.find? j = s.entities.find? j)
    (hvalues : ∀ p, s.OwnedWithin c.group c.references p → t.value p = s.value p) :
    s.Shares (s.Reaches c.references) (s.OwnedWithin c.group c.references) t :=
  h.shares_reached hp (c.map_fst_demands ▸ (h.constraints k c hc).hasEntity)
    (fun _ hown ↦ hown) hentities hvalues

/-- The equations of a constraint mention what the constraint names, and nothing else of the sketch
has a part in them. -/
theorem Linked.equations_of_names (h : s.Linked) (hp : s.Placed) {k : ConstraintId}
    {c : Constraint R} (hc : s.constraints.find? k = some c)
    (hentities : ∀ j, s.Reaches c.references j → t.entities.find? j = s.entities.find? j)
    (hvalues : ∀ p, s.Names c p → t.value p = s.value p) :
    ∃ es, c.equations s = .ok es ∧ c.equations t = .ok es ∧
      ∀ e ∈ es, ∀ p ∈ e.params, s.Names c p := by
  have hroots := c.map_fst_demands ▸ (h.constraints k c hc).hasEntity
  exact (h.shares_reached hp hroots (fun _ ↦ .inr) hentities hvalues).equations
    (h.readable_of_names hp hc)

/-- Whatever equations mention is found by following references. -/
structure ReferencesComplete (s : Sketch R) : Prop where
  /-- The equations of a constraint mention its auxiliary unknown and parameters, of its group and
  earlier ones, that belong to entities reached from its references. -/
  constraints : ∀ k c, s.constraints.find? k = some c →
    ∃ es, c.equations s = .ok es ∧ ∀ e ∈ es, ∀ p ∈ e.params, s.Names c p
  /-- The equations of an entity mention parameters, of its group and earlier ones, that belong to
  it or to entities reached from it. -/
  entities : ∀ k e, s.entities.find? k = some e →
    ∃ xs, s.entityEquations e = .ok xs ∧ ∀ x ∈ xs, ∀ p ∈ x.params, s.OwnedWithin e.group [k] p

/-- References are complete where none is broken and all items are in place. -/
theorem Linked.referencesComplete (h : s.Linked) (hp : s.Placed) : s.ReferencesComplete where
  constraints k c hc := by
    obtain ⟨es, hes, _, hnames⟩ := h.equations_of_names (t := s) hp hc (fun _ _ ↦ rfl) fun _ _ ↦ rfl
    exact ⟨es, hes, hnames⟩
  entities k e he := by
    have hroots : ∀ j ∈ [k], s.HasEntity e.group j := by
      intro j hj
      cases List.mem_singleton.mp hj
      exact ⟨e, he, Nat.le_refl _⟩
    have hshares := h.shares_reached (t := s) hp hroots (fun _ hown ↦ hown) (fun _ _ ↦ rfl)
      fun _ _ ↦ rfl
    have hread := hshares.readable k e (.root List.mem_cons_self) he
    obtain ⟨xs, hxs, _, hwithin⟩ := hshares.entityEquations hread fun _ _ ↦ rfl
    exact ⟨xs, hxs, hwithin⟩

/-- After every run of commands on an empty sketch, answered or refused, whatever the equations of
an item mention belongs to the item or is found by following its references, and is in no later
group. -/
theorem referencesComplete_runAll (la : LinearAlgebra R) (config : Config R)
    (cs : List (Command R)) : ((empty config).runAll la cs).ReferencesComplete := by
  have hreachable : ((empty config).runAll la cs).Reachable la := ⟨config, cs, rfl⟩
  obtain ⟨hlinked, hplaced⟩ := hreachable.linked_placed
  exact hlinked.referencesComplete hplaced

end Sketch

end SketchSolver
