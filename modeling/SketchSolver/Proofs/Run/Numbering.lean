import SketchSolver.Proofs.Run.Effect

/-!
# Numbering

In every sketch that comes about, each item is listed under its own handle and no handle has a
greater number than the latest one of its kind. A new item therefore never takes the place of an
earlier one, and no handle is created a second time, also after items were removed.
-/

namespace SketchSolver

open Numbered

section Tables

variable {K V : Type} [Numbered K] {name : V → K} {low high : Nat} {old new : Table K V}

/-- A table whose entries are listed under their own names, with numbers up to a bound. -/
def Named (name : V → K) (bound : Nat) (t : Table K V) : Prop :=
  ∀ k v, t.find? k = some v → name v = k ∧ index k ≤ bound

/-- Every entry is found under its name. -/
theorem Named.find?_of_mem (h : Named name low old) :
    ∀ v ∈ old.values, old.find? (name v) = some v := by
  intro v hv
  obtain ⟨k, hk⟩ := Table.mem_values_iff.mp hv
  rwa [(h k v hk).1]

/-- A table that grows keeps its entries under their names. -/
theorem Named.grown {P : K → V → Prop} (h : Named name low old) (hg : Grown P low high old new)
    (hP : ∀ k v, P k v → name v = k) (hle : low ≤ high) : Named name high new := by
  intro k v hv
  rcases hg k with hk | ⟨_, hhigh, w, hw, hp⟩
  · obtain ⟨hname, hlow⟩ := h k v (hk ▸ hv)
    exact ⟨hname, Nat.le_trans hlow hle⟩
  · rw [hw] at hv
    cases hv
    exact ⟨hP k v hp, hhigh⟩

/-- A table without entries has none under another name. -/
theorem named_empty : Named name low Table.empty := by
  intro k v hv
  cases hv

/-- A table without some entries keeps the others under their names. -/
theorem Named.filter (h : Named name low old) (p : K → V → Bool) :
    Named name low (old.filter p) := by
  intro k v hv
  rw [Table.find?_filter] at hv
  exact h k v (Option.filter_eq_some_iff.mp hv).1

/-- An entry is not found under a number above the bound. -/
theorem Named.find?_eq_none (h : Named name low old) {k : K} (hk : low < index k) :
    old.find? k = none := by
  cases hf : old.find? k with
  | none => rfl
  | some v => exact absurd (h k v hf).2 (Nat.not_le.mpr hk)

end Tables

variable {R : Type}

/-- A sketch whose items are listed under their own handles, none numbered above the latest. -/
structure Sketch.WellNumbered (s : Sketch R) : Prop where
  /-- The parameters are numbered. -/
  params : Named Param.id s.lastParam s.params
  /-- The entities are numbered. -/
  entities : Named Entity.id s.lastEntity s.entities
  /-- The constraints are numbered. -/
  constraints : Named Constraint.id s.lastConstraint s.constraints

namespace Sketch.WellNumbered

variable {s t : Sketch R}

/-- An empty sketch is well numbered. -/
theorem empty (config : Config R) : (Sketch.empty config).WellNumbered :=
  ⟨named_empty, named_empty, named_empty⟩

/-- Adding items keeps the numbering. -/
theorem grown (h : s.WellNumbered) {g : GroupId} (hg : GrownIn g s t) : t.WellNumbered where
  params := h.params.grown hg.params (fun _ _ hp ↦ hp.1) hg.lastParam
  entities := h.entities.grown hg.entities (fun _ _ he ↦ he.1) hg.lastEntity
  constraints := h.constraints.grown hg.constraints (fun _ _ hc ↦ hc.1) hg.lastConstraint

/-- Changing groups keeps the numbering. -/
theorem of_groups (h : s.WellNumbered) (groups : Table GroupId GroupState) :
    ({ s with groups := groups } : Sketch R).WellNumbered := ⟨h.params, h.entities, h.constraints⟩

/-- Taking a handle keeps the numbering. -/
theorem takeConstraint (h : s.WellNumbered) : s.takeConstraint.2.WellNumbered where
  params := h.params
  entities := h.entities
  constraints k c hc :=
    ⟨(h.constraints k c hc).1, Nat.le_succ_of_le (h.constraints k c hc).2⟩

/-- A value that is assigned keeps the numbering. -/
theorem assigned (h : s.WellNumbered) {p : ParamId} {q : Param R}
    (hq : s.params.find? p = some q) (x : R) :
    ({ s with params := s.params.insert p { q with value := x } } : Sketch R).WellNumbered := by
  refine ⟨?_, h.entities, h.constraints⟩
  intro k v hv
  rw [Table.find?_insert] at hv
  split at hv
  · next hk =>
    cases hv
    cases index_inj hk
    exact h.params p q hq
  · exact h.params k v hv

/-- A solve keeps the numbering. -/
theorem solved (h : s.WellNumbered) {g : GroupId} {dragged : HandleSet ParamId}
    {dof : Option Nat} (ha : SolvedApart g dragged dof s t) : t.WellNumbered := by
  refine ⟨?_, ?_, ?_⟩
  · intro k p hp
    have hidentity := ha.identity k
    rw [hp] at hidentity
    obtain ⟨q, hq, hqp⟩ := Option.map_eq_some_iff.mp hidentity.symm
    rw [ha.lastParam]
    obtain ⟨hid, hle⟩ := h.params k q hq
    exact ⟨(congrArg Prod.fst hqp).symm.trans hid, hle⟩
  · rw [ha.entities, ha.lastEntity]
    exact h.entities
  · rw [ha.constraints, ha.lastConstraint]
    exact h.constraints

variable [Arith R] {la : LinearAlgebra R}

/-- What a command does keeps the numbering. -/
theorem of_effect (h : s.WellNumbered) {c : Command R} (he : CommandEffect la s c t) :
    t.WellNumbered := by
  cases he with
  | unchanged => exact h
  | grown hg => exact h.grown hg
  | handleTaken => exact h.takeConstraint
  | assigned hq => exact (h.assigned hq _).of_groups _
  | removed => exact ⟨h.params.filter _, h.entities.filter _, h.constraints.filter _⟩
  | created =>
    unfold Sketch.createGroup
    split
    · exact h
    · exact h.of_groups _
  | cleared => exact ⟨named_empty, named_empty, named_empty⟩
  | configured => exact ⟨h.params, h.entities, h.constraints⟩
  | solved _ _ ha => exact h.solved ha

/-- A command keeps the numbering. -/
theorem step (h : s.WellNumbered) (c : Command R) : (s.step la c).WellNumbered :=
  h.of_effect (commandEffect_step la s c)

/-- A run of commands keeps the numbering. -/
theorem runAll (h : s.WellNumbered) (cs : List (Command R)) : (s.runAll la cs).WellNumbered := by
  induction cs generalizing s with
  | nil => exact h
  | cons c cs ih => exact ih (h.step c)

end Sketch.WellNumbered

/-- Every sketch that comes about is well numbered. -/
theorem Sketch.Reachable.wellNumbered [Arith R] {la : LinearAlgebra R} {s : Sketch R}
    (h : Reachable la s) : s.WellNumbered := by
  obtain ⟨config, cs, rfl⟩ := h
  exact (WellNumbered.empty config).runAll cs

/-! ## Creation -/

section Creation

variable {K V W : Type} [Numbered K] {view : V → W} {low high : Nat} {old new : Table K V} {k : K}

/-- An entry is created under a key: one is there, and it is not the one that was there before. What
makes two entries the same is said by a view of them. -/
def Created (view : V → W) (old new : Table K V) (k : K) : Prop :=
  new.contains k = true ∧ (new.find? k).map view ≠ (old.find? k).map view

/-- Entries are created under numbers above the latest one only, and numbers go upwards. -/
structure CreatesAbove (view : V → W) (low high : Nat) (old new : Table K V) : Prop where
  /-- What is created has a higher number. -/
  above : ∀ k, Created view old new k → low < index k
  /-- Numbers go upwards. -/
  le : low ≤ high

/-- A table in which every entry is one from before creates none. -/
theorem createsAbove_of_kept
    (h : ∀ k, new.find? k = none ∨ (new.find? k).map view = (old.find? k).map view) :
    CreatesAbove view low low old new := by
  refine ⟨?_, Nat.le_refl low⟩
  rintro k ⟨hthere, hnew⟩
  rcases h k with hk | hk
  · rw [Table.contains, hk] at hthere
    cases hthere
  · exact absurd hk hnew

/-- A table that grows creates entries above the latest number. -/
theorem createsAbove_of_grown {P : K → V → Prop} (h : Grown P low high old new)
    (hle : low ≤ high) : CreatesAbove view low high old new := by
  refine ⟨?_, hle⟩
  rintro k ⟨_, hnew⟩
  rcases h k with hk | ⟨hlow, _⟩
  · rw [hk] at hnew
    exact absurd rfl hnew
  · exact hlow

/-- Removing entries creates none. -/
theorem createsAbove_filter (p : K → V → Bool) :
    CreatesAbove view low low old (old.filter p) := by
  apply createsAbove_of_kept
  intro k
  rw [Table.find?_filter]
  cases old.find? k with
  | none => exact .inl rfl
  | some v =>
    rw [Option.filter_some]
    split
    · exact .inr rfl
    · exact .inl rfl

/-- Nothing is created in a table without entries. -/
theorem createsAbove_empty : CreatesAbove view low low old Table.empty :=
  createsAbove_of_kept fun _ ↦ .inl rfl

/-- Nothing is created in the same table. -/
theorem createsAbove_refl : CreatesAbove view low low old old :=
  createsAbove_of_kept fun _ ↦ .inr rfl

end Creation

/-- A sketch whose items and parameters are those from before or have higher numbers. -/
structure Sketch.NumbersOn (s t : Sketch R) : Prop where
  /-- Parameters are created under higher numbers. -/
  params : CreatesAbove Param.identity s.lastParam t.lastParam s.params t.params
  /-- Entities are created under higher numbers. -/
  entities : CreatesAbove (fun e ↦ e) s.lastEntity t.lastEntity s.entities t.entities
  /-- Constraints are created under higher numbers. -/
  constraints : CreatesAbove (fun c ↦ c) s.lastConstraint t.lastConstraint s.constraints
    t.constraints

section Commands

variable [Arith R] {la : LinearAlgebra R}

/-- What a command creates has a higher number than everything before. -/
theorem CommandEffect.numbersOn {s t : Sketch R} {c : Command R} (he : CommandEffect la s c t) :
    s.NumbersOn t := by
  have hsame : ∀ u : Sketch R, u.entities = s.entities → u.constraints = s.constraints →
      u.lastParam = s.lastParam → u.lastEntity = s.lastEntity →
      u.lastConstraint = s.lastConstraint →
      (∀ k, (u.params.find? k).map Param.identity = (s.params.find? k).map Param.identity) →
      s.NumbersOn u := by
    intro u hentities hconstraints hparam hentity hconstraint hparams
    refine ⟨?_, ?_, ?_⟩
    · rw [hparam]
      exact createsAbove_of_kept fun k ↦ .inr (hparams k)
    · rw [hentity, hentities]
      exact createsAbove_refl
    · rw [hconstraint, hconstraints]
      exact createsAbove_refl
  cases he with
  | unchanged => exact ⟨createsAbove_refl, createsAbove_refl, createsAbove_refl⟩
  | grown hg =>
    exact ⟨createsAbove_of_grown hg.params hg.lastParam,
      createsAbove_of_grown hg.entities hg.lastEntity,
      createsAbove_of_grown hg.constraints hg.lastConstraint⟩
  | handleTaken =>
    exact ⟨createsAbove_refl, createsAbove_refl, createsAbove_refl.above, Nat.le_succ _⟩
  | @assigned p x q hq =>
    refine hsame _ rfl rfl rfl rfl rfl fun k ↦ ?_
    change ((s.params.insert p { q with value := x }).find? k).map Param.identity = _
    rw [Table.find?_insert]
    by_cases hk : index p = index k
    · rw [if_pos hk, ← index_inj hk, hq]
      rfl
    · rw [if_neg hk]
  | @removed g =>
    exact ⟨createsAbove_filter fun _ (p : Param R) ↦ p.group != g,
      createsAbove_filter fun _ (e : Entity) ↦ e.group != g,
      createsAbove_filter fun _ (c : Constraint R) ↦ c.group != g⟩
  | created =>
    unfold Sketch.createGroup
    split
    · exact ⟨createsAbove_refl, createsAbove_refl, createsAbove_refl⟩
    · exact ⟨createsAbove_refl, createsAbove_refl, createsAbove_refl⟩
  | cleared => exact ⟨createsAbove_empty, createsAbove_empty, createsAbove_empty⟩
  | configured => exact ⟨createsAbove_refl, createsAbove_refl, createsAbove_refl⟩
  | solved _ _ ha =>
    exact hsame t ha.entities ha.constraints ha.lastParam ha.lastEntity ha.lastConstraint
      ha.identity

variable {K V W : Type} [Numbered K]

/-- In no run of commands on an empty sketch do two commands create an entry under one key. -/
def CreatedOnce (la : LinearAlgebra R) (config : Config R) (view : V → W)
    (table : Sketch R → Table K V) : Prop :=
  ∀ (before : List (Command R)) (c : Command R) (between : List (Command R)) (d : Command R)
    (k : K),
    let s := (Sketch.empty config).runAll la before
    let t := (s.step la c).runAll la between
    Created view (table s) (table (s.step la c)) k →
      ¬ Created view (table t) (table (t.step la d)) k

/-- Entries that are numbered upwards are created once. -/
theorem createdOnce_of_numbersOn {config : Config R} {view : V → W}
    {table : Sketch R → Table K V} {last : Sketch R → Nat}
    (hstep : ∀ s c, CreatesAbove view (last s) (last (s.step la c)) (table s)
      (table (s.step la c)))
    (hbound : ∀ s : Sketch R, s.WellNumbered → ∀ k, (table s).contains k = true →
      index k ≤ last s) : CreatedOnce la config view table := by
  have hrun : ∀ cs s, last s ≤ last (s.runAll la cs) := by
    intro cs
    induction cs with
    | nil => exact fun s ↦ Nat.le_refl _
    | cons c cs ih => exact fun s ↦ Nat.le_trans (hstep s c).le (ih (s.step la c))
  intro before c between d k s t hc hd
  have hs : s.WellNumbered := (Sketch.WellNumbered.empty config).runAll before
  have hlow : index k ≤ last (s.step la c) := hbound _ (hs.step c) k hc.1
  have hhigh : last t < index k := (hstep t d).above k hd
  exact absurd (hrun between (s.step la c)) (Nat.not_le.mpr (Nat.lt_of_lt_of_le hhigh hlow))

/-- No parameter, entity or constraint is created twice. -/
theorem createdOnce (la : LinearAlgebra R) (config : Config R) :
    CreatedOnce la config Param.identity Sketch.params ∧
      CreatedOnce la config (fun e ↦ e) Sketch.entities ∧
      CreatedOnce la config (fun c ↦ c) Sketch.constraints := by
  have hstep : ∀ (s : Sketch R) c, s.NumbersOn (s.step la c) := fun s c ↦
    (commandEffect_step la s c).numbersOn
  have hnamed : ∀ {K V : Type} [Numbered K] {name : V → K} {bound : Nat} {t : Table K V},
      Named name bound t → ∀ k, t.contains k = true → index k ≤ bound := by
    intro K V _ name bound t h k hk
    obtain ⟨v, hv⟩ := Table.contains_iff_exists.mp hk
    exact (h k v hv).2
  refine ⟨?_, ?_, ?_⟩
  · exact createdOnce_of_numbersOn (fun s c ↦ (hstep s c).params) fun s hs ↦ hnamed hs.params
  · exact createdOnce_of_numbersOn (fun s c ↦ (hstep s c).entities) fun s hs ↦ hnamed hs.entities
  · exact createdOnce_of_numbersOn (fun s c ↦ (hstep s c).constraints)
      fun s hs ↦ hnamed hs.constraints

end Commands

end SketchSolver
