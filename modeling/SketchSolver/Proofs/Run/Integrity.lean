import Mathlib.Data.List.Nodup
import SketchSolver.Proofs.Run.Numbering
import SketchSolver.Proofs.Run.References

/-!
# Referential integrity

In every sketch that comes about, what an item refers to is there, is of the right kind and belongs
to no later group, and a parameter belongs to the one item that lists it. Removing a group asks only
whether items of other groups refer to it directly. That is enough, because the points that a
horizontal or vertical line constraint keeps are those of a line it refers to, and parameters go
with their owners.
-/

namespace SketchSolver

open Numbered

variable {R P : Type}

/-! ## The invariant -/

namespace Sketch

/-- The group of an item and the parameters that it lists, if it is there. -/
def listing (s : Sketch R) : Item → Option (GroupId × List ParamId)
  | .entity id => (s.entities.find? id).map fun e ↦ (e.group, e.params)
  | .constraint id => (s.constraints.find? id).map fun c ↦ (c.group, c.relation.aux?.toList)

/-- A sketch whose parameters and items belong together: what a step of the sketch relies on and
keeps. -/
structure Linked (s : Sketch R) : Prop where
  /-- Items are listed under their own handles. -/
  numbered : s.WellNumbered
  /-- Groups are listed under their own handles. -/
  groupId : ∀ g st, s.groups.find? g = some st → st.id = g
  /-- The demands of entities are met. -/
  entities : ∀ k e, s.entities.find? k = some e → s.MeetsAll e.group e.demands
  /-- Entities refer to earlier ones. -/
  earlier : ∀ k e, s.entities.find? k = some e → ∀ r ∈ e.references, r.index < k.index
  /-- The demands of constraints are met. -/
  constraints : ∀ k c, s.constraints.find? k = some c → s.MeetsAll c.group c.demands
  /-- A parameter has an owner in its group that lists it once. -/
  owned : ∀ k p, s.params.find? k = some p →
    ∃ ks, s.listing p.owner = some (p.group, ks) ∧ ks.count k = 1
  /-- A parameter that is listed is there and belongs to the item that lists it. -/
  listed : ∀ item g ks, s.listing item = some (g, ks) →
    ∀ k ∈ ks, ∃ p, s.params.find? k = some p ∧ p.owner = item
  /-- The groups of items are there. -/
  registered : ∀ item g ks, s.listing item = some (g, ks) → s.groups.contains g = true

variable {s t : Sketch R} {g : GroupId}

/-- A sketch without content has nothing that could dangle. -/
theorem linked_of_empty (hparams : s.params = .empty) (hentities : s.entities = .empty)
    (hconstraints : s.constraints = .empty) (hgroups : s.groups = .empty) : s.Linked := by
  obtain ⟨_, _, _, _, _, _, _, _⟩ := s
  cases hparams
  cases hentities
  cases hconstraints
  cases hgroups
  exact {
    numbered := ⟨named_empty, named_empty, named_empty⟩
    groupId := fun _ _ h ↦ by cases h
    entities := fun _ _ h ↦ by cases h
    earlier := fun _ _ h ↦ by cases h
    constraints := fun _ _ h ↦ by cases h
    owned := fun _ _ h ↦ by cases h
    listed := fun item _ _ h ↦ by cases item <;> cases h
    registered := fun item _ _ h ↦ by cases item <;> cases h }

/-- The entities of such a sketch are what a request can rely on. -/
theorem Linked.entitiesMet (h : s.Linked) : s.EntitiesMet :=
  ⟨fun k e he ↦ (h.numbered.entities k e he).1, h.entities⟩

/-- A parameter that is listed is in the group of the item that lists it. -/
theorem Linked.exists_param (h : s.Linked) {item : Item} {ks : List ParamId}
    (hks : s.listing item = some (g, ks)) {k : ParamId} (hk : k ∈ ks) :
    ∃ p, s.params.find? k = some p ∧ p.owner = item ∧ p.group = g := by
  obtain ⟨p, hp, howner⟩ := h.listed item g ks hks k hk
  obtain ⟨js, hjs, _⟩ := h.owned k p hp
  rw [howner, hks] at hjs
  exact ⟨p, hp, howner, (congrArg Prod.fst (Option.some.inj hjs)).symm⟩

/-! ## Values and groups -/

/-- A sketch with the same items and parameters, apart from values and flags. -/
structure SameLinks (s t : Sketch R) : Prop where
  /-- The items are numbered. -/
  numbered : t.WellNumbered
  /-- The entities stay. -/
  entities : t.entities = s.entities
  /-- The constraints stay. -/
  constraints : t.constraints = s.constraints
  /-- The parameters stay, each in its group and with its owner. -/
  identity : ∀ k, (t.params.find? k).map Param.identity = (s.params.find? k).map Param.identity
  /-- Groups are listed under their own handles. -/
  groupId : ∀ g st, t.groups.find? g = some st → st.id = g
  /-- No group goes away. -/
  groups : ∀ g, s.groups.contains g = true → t.groups.contains g = true

private theorem exists_param_of_identity
    (h : (t.params.find? k).map Param.identity = (s.params.find? k).map Param.identity)
    {p : Param R} (hp : s.params.find? k = some p) :
    ∃ q, t.params.find? k = some q ∧ q.group = p.group ∧ q.owner = p.owner := by
  rw [hp, Option.map_some] at h
  obtain ⟨q, hq, hqp⟩ := Option.map_eq_some_iff.mp h
  have hrest := congrArg Prod.snd hqp
  exact ⟨q, hq, congrArg Prod.fst hrest, congrArg Prod.snd hrest⟩

private theorem listing_congr (hentities : t.entities = s.entities)
    (hconstraints : t.constraints = s.constraints) (item : Item) :
    t.listing item = s.listing item := by
  cases item with
  | entity id => rw [listing, listing, hentities]
  | constraint id => rw [listing, listing, hconstraints]

private theorem meetsAll_congr {ds : List Demand} (hentities : t.entities = s.entities)
    (h : s.MeetsAll g ds) : t.MeetsAll g ds :=
  fun d hd ↦ (h d hd).mono fun _ _ he ↦ hentities ▸ he

/-- Changing values and flags breaks no link. -/
theorem Linked.sameLinks (h : s.Linked) (hst : s.SameLinks t) : t.Linked where
  numbered := hst.numbered
  groupId := hst.groupId
  entities k e he :=
    meetsAll_congr hst.entities (h.entities k e (hst.entities ▸ he))
  earlier k e he := h.earlier k e (hst.entities ▸ he)
  constraints k c hc :=
    meetsAll_congr hst.entities (h.constraints k c (hst.constraints ▸ hc))
  owned k p hp := by
    obtain ⟨q, hq, hgroup, howner⟩ := exists_param_of_identity (hst.identity k).symm hp
    obtain ⟨ks, hks, hcount⟩ := h.owned k q hq
    exact ⟨ks, by rw [listing_congr hst.entities hst.constraints, ← howner, ← hgroup, hks], hcount⟩
  listed item g ks hks k hk := by
    rw [listing_congr hst.entities hst.constraints] at hks
    obtain ⟨p, hp, howner⟩ := h.listed item g ks hks k hk
    obtain ⟨q, hq, _, hqowner⟩ := exists_param_of_identity (hst.identity k) hp
    exact ⟨q, hq, hqowner.trans howner⟩
  registered item g ks hks := by
    rw [listing_congr hst.entities hst.constraints] at hks
    exact hst.groups g (h.registered item g ks hks)

/-! ## New items -/

/-- A sketch with a new item of a group and with the parameters that it lists. -/
structure AddsItem (g : GroupId) (item : Item) (ks : List ParamId) (s t : Sketch R) : Prop where
  /-- The group is touched and everything is numbered upwards. -/
  grown : GrownIn g s t
  /-- The item is new. -/
  fresh : s.listing item = none
  /-- Nothing else is listed. -/
  listing : ∀ i, t.listing i = if i = item then some (g, ks) else s.listing i
  /-- The item lists each of its parameters once. -/
  nodup : ks.Nodup
  /-- Its parameters are new and belong to it. -/
  own : ∀ k ∈ ks, s.params.find? k = none ∧ ∃ x, t.params.find? k = some ⟨k, g, item, x⟩
  /-- Other parameters stay. -/
  others : ∀ k, k ∉ ks → t.params.find? k = s.params.find? k

/-- A touched group is there, and so are all that were. -/
theorem contains_groups_touchGroup (s : Sketch R) (g h : GroupId) :
    (s.touchGroup g).groups.contains h = (decide (h = g) || s.groups.contains h) := by
  rw [Table.contains, find?_groups_touchGroup, Table.contains, Option.isSome_map]
  by_cases hg : h = g
  · simp [hg]
  · simp [hg]

/-- Touching a group keeps groups under their own handles. -/
theorem id_of_find?_touchGroup (hs : ∀ h st, s.groups.find? h = some st → st.id = h)
    {h : GroupId} {st : GroupState} (hst : (s.touchGroup g).groups.find? h = some st) :
    st.id = h := by
  rw [find?_groups_touchGroup] at hst
  obtain ⟨old, hold, rfl⟩ := Option.map_eq_some_iff.mp hst
  have hid : old.id = h := by
    by_cases hg : h = g
    · rw [if_pos hg] at hold
      cases hfound : s.groups.find? g with
      | none =>
        rw [hfound] at hold
        cases hold
        exact hg.symm
      | some st =>
        rw [hfound] at hold
        cases hold
        rw [hg]
        exact hs g _ hfound
    · rw [if_neg hg] at hold
      exact hs h old hold
  split
  · exact hid
  · exact hid

/-- A parameter has one owner after a new item comes with its own. -/
theorem AddsItem.owned {item : Item} {ks : List ParamId} (ha : AddsItem g item ks s t)
    (h : s.Linked) {k : ParamId} {p : Param R} (hp : t.params.find? k = some p) :
    ∃ ks, t.listing p.owner = some (p.group, ks) ∧ ks.count k = 1 := by
  by_cases hk : k ∈ ks
  · obtain ⟨_, x, hx⟩ := ha.own k hk
    rw [hx] at hp
    cases hp
    exact ⟨ks, by rw [ha.listing, if_pos rfl], List.count_eq_one_of_mem ha.nodup hk⟩
  · rw [ha.others k hk] at hp
    obtain ⟨js, hjs, hcount⟩ := h.owned k p hp
    have hne : p.owner ≠ item := by
      rintro howner
      rw [howner, ha.fresh] at hjs
      cases hjs
    exact ⟨js, by rw [ha.listing, if_neg hne, hjs], hcount⟩

/-- A parameter that is listed is there after a new item comes with its own. -/
theorem AddsItem.listed {item : Item} {ks : List ParamId} (ha : AddsItem g item ks s t)
    (h : s.Linked) {i : Item} {j : GroupId} {js : List ParamId} (hi : t.listing i = some (j, js))
    {k : ParamId} (hk : k ∈ js) : ∃ p, t.params.find? k = some p ∧ p.owner = i := by
  rw [ha.listing] at hi
  by_cases hitem : i = item
  · rw [if_pos hitem] at hi
    cases hi
    obtain ⟨_, x, hx⟩ := ha.own k hk
    exact ⟨_, hx, hitem.symm⟩
  · rw [if_neg hitem] at hi
    obtain ⟨p, hp, howner⟩ := h.listed i j js hi k hk
    have hold : k ∉ ks := by
      intro hmem
      rw [(ha.own k hmem).1] at hp
      cases hp
    exact ⟨p, (ha.others k hold).trans hp, howner⟩

/-- A new item whose demands are met breaks no link. -/
theorem Linked.addsItem {item : Item} {ks : List ParamId} (h : s.Linked)
    (ha : AddsItem g item ks s t)
    (hentities : ∀ k e, t.entities.find? k = some e → s.entities.find? k = some e ∨
      e.group = g ∧ s.lastEntity < k.index ∧ s.MeetsAll g e.demands)
    (hconstraints : ∀ k c, t.constraints.find? k = some c → s.constraints.find? k = some c ∨
      c.group = g ∧ s.MeetsAll g c.demands) : t.Linked := by
  have hkept : ∀ k e, s.entities.find? k = some e → t.entities.find? k = some e := by
    intro k e he
    rcases ha.grown.entities k with hk | ⟨hlow, _⟩
    · rw [hk, he]
    · exact absurd (h.numbered.entities k e he).2 (Nat.not_le.mpr hlow)
  have hmono : ∀ {j : GroupId} {ds : List Demand}, s.MeetsAll j ds → t.MeetsAll j ds :=
    fun hds d hd ↦ (hds d hd).mono hkept
  refine ⟨h.numbered.grown ha.grown, ?_, ?_, ?_, ?_, fun k p hp ↦ ha.owned h hp,
    fun i j js hi k hk ↦ ha.listed h hi hk, ?_⟩
  · intro j st hst
    rw [ha.grown.groups] at hst
    exact id_of_find?_touchGroup h.groupId hst
  · intro k e he
    rcases hentities k e he with hold | ⟨rfl, _, hds⟩
    · exact hmono (h.entities k e hold)
    · exact hmono hds
  · intro k e he r hr
    rcases hentities k e he with hold | ⟨_, hlow, hds⟩
    · exact h.earlier k e hold r hr
    · rw [← Entity.map_fst_demands] at hr
      obtain ⟨d, hd, rfl⟩ := List.mem_map.mp hr
      obtain ⟨f, hf, _⟩ := hds d hd
      exact Nat.lt_of_le_of_lt (h.numbered.entities d.1 f hf).2 hlow
  · intro k c hc
    rcases hconstraints k c hc with hold | ⟨rfl, hds⟩
    · exact hmono (h.constraints k c hold)
    · exact hmono hds
  · intro i j js hi
    rw [ha.grown.groups, contains_groups_touchGroup]
    rw [ha.listing] at hi
    split at hi
    · cases hi
      simp
    · rw [h.registered i j js hi, Bool.or_true]

/-- New parameters are there, with the owner they are made for. -/
theorem exists_find?_addParams (s : Sketch R) (g : GroupId) (owner : Item) (values : List R)
    {k : ParamId} (hlow : s.lastParam < k.index)
    (hhigh : k.index ≤ s.lastParam + values.length) :
    ∃ x, (s.addParams g owner values).params.find? k = some ⟨k, g, owner, x⟩ := by
  induction values generalizing s with
  | nil =>
    rw [List.length_nil] at hhigh
    omega
  | cons x xs ih =>
    let one : Sketch R := { s with
      params := s.params.insert ⟨s.lastParam + 1⟩ ⟨⟨s.lastParam + 1⟩, g, owner, x⟩
      lastParam := s.lastParam + 1 }
    have hcons : s.addParams g owner (x :: xs) = one.addParams g owner xs := rfl
    rw [List.length_cons] at hhigh
    rw [hcons]
    rcases one.find?_addParams g owner xs k with hold | ⟨_, _, hnew⟩
    · by_cases hfirst : k.index = s.lastParam + 1
      · have hk : k = ⟨s.lastParam + 1⟩ := index_inj hfirst
        subst hk
        exact ⟨x, hold.trans (Table.find?_insert_self _ _ _)⟩
      · exact ih one (by simp only [one]; omega) (by simp only [one]; omega)
    · exact hnew

/-- The handles of parameters that are numbered onwards. -/
def newParams (last count : Nat) : List ParamId :=
  (List.range count).map fun i ↦ ⟨last + 1 + i⟩

private theorem mem_newParams {last count : Nat} {k : ParamId} :
    k ∈ newParams last count ↔ last < k.index ∧ k.index ≤ last + count := by
  rw [newParams, List.mem_map]
  constructor
  · rintro ⟨i, hi, rfl⟩
    rw [List.mem_range] at hi
    simp only
    omega
  · rintro ⟨hlow, hhigh⟩
    refine ⟨k.index - (last + 1), List.mem_range.mpr (by omega), ?_⟩
    apply index_inj
    change last + 1 + (k.index - (last + 1)) = k.index
    omega

private theorem nodup_newParams (last count : Nat) : (newParams last count).Nodup := by
  apply List.Nodup.map _ List.nodup_range
  intro i j hij
  have hindex := congrArg ParamId.index hij
  simp only at hindex
  omega

/-- The auxiliary unknown that a relation is given is the next parameter. -/
theorem toList_aux?_mapAux {relation : Relation R P} {start : Option R}
    (hstart : start.isSome = relation.aux?.isSome) (last : Nat) :
    ((relation.mapAux fun _ ↦ (⟨last + 1⟩ : ParamId)).aux?).toList =
      newParams last start.toList.length := by
  have hcount : relation.aux?.toList.length = start.toList.length := by
    cases start <;> cases haux : relation.aux? <;> simp_all
  rw [Relation.aux?_mapAux, ← hcount]
  cases relation.aux? <;> rfl

private theorem own_addParams (h : s.WellNumbered) (owner : Item) (values : List R) :
    ∀ k ∈ newParams s.lastParam values.length, s.params.find? k = none ∧
      ∃ x, (s.addParams g owner values).params.find? k = some ⟨k, g, owner, x⟩ := by
  intro k hk
  obtain ⟨hlow, hhigh⟩ := mem_newParams.mp hk
  exact ⟨h.params.find?_eq_none hlow, s.exists_find?_addParams g owner values hlow hhigh⟩

private theorem others_addParams (s : Sketch R) (owner : Item) (values : List R) {k : ParamId}
    (hk : k ∉ newParams s.lastParam values.length) :
    (s.addParams g owner values).params.find? k = s.params.find? k := by
  rcases s.find?_addParams g owner values k with hold | ⟨hlow, hhigh, _⟩
  · exact hold
  · exact absurd (mem_newParams.mpr ⟨hlow, hhigh⟩) hk

/-- What a new entity changes besides groups and numbers. -/
theorem fields_addEntity (s : Sketch R) (g : GroupId) (wp : Option EntityId)
    (shape : Shape R) :
    (s.addEntity g wp shape).2.entities = s.entities.insert ⟨s.lastEntity + 1⟩
        ⟨⟨s.lastEntity + 1⟩, g, wp, shape.numbered s.lastParam⟩ ∧
      (s.addEntity g wp shape).2.constraints = s.constraints ∧
      (s.addEntity g wp shape).2.params =
        (({ s with lastEntity := s.lastEntity + 1 } : Sketch R).addParams g
          (.entity ⟨s.lastEntity + 1⟩) shape.params).params := by
  refine ⟨?_, ?_, ?_⟩ <;> simp only [addEntity, touchGroup_addParams]

/-- What a new constraint changes besides groups and numbers. -/
theorem fields_addConstraint (s : Sketch R) (g : GroupId) (wp : Option EntityId)
    (relation : Relation R P) (start : Option R) :
    (s.addConstraint g wp relation start).2.constraints =
        s.constraints.insert ⟨s.lastConstraint + 1⟩
          ⟨⟨s.lastConstraint + 1⟩, g, wp, relation.mapAux fun _ ↦ ⟨s.lastParam + 1⟩⟩ ∧
      (s.addConstraint g wp relation start).2.entities = s.entities ∧
      (s.addConstraint g wp relation start).2.params =
        (s.takeConstraint.2.addParams g (.constraint s.takeConstraint.1) start.toList).params := by
  refine ⟨?_, ?_, ?_⟩ <;> simp only [addConstraint, placeConstraint, touchGroup_addParams] <;> rfl

/-- An entity that is added is a new item with the parameters of its shape. -/
theorem addsItem_addEntity (h : s.WellNumbered) (g : GroupId) (wp : Option EntityId)
    (shape : Shape R) :
    AddsItem g (.entity ⟨s.lastEntity + 1⟩) (newParams s.lastParam shape.params.length) s
      (s.addEntity g wp shape).2 := by
  obtain ⟨hentities, hconstraints, hparams⟩ := s.fields_addEntity g wp shape
  have hnone : s.entities.find? ⟨s.lastEntity + 1⟩ = none :=
    h.entities.find?_eq_none (Nat.lt_succ_self _)
  refine ⟨grownIn_addEntity s g wp shape, ?_, ?_, nodup_newParams _ _, ?_, ?_⟩
  · rw [listing, hnone, Option.map_none]
  · intro i
    cases i with
    | constraint id =>
      rw [listing, hconstraints, if_neg Item.noConfusion]
      rfl
    | entity id =>
      rw [listing, hentities, Table.find?_insert]
      by_cases hid : (⟨s.lastEntity + 1⟩ : EntityId) = id
      · subst hid
        rw [if_pos rfl, if_pos rfl, Option.map_some, Entity.params, Shape.params_numbered]
        rfl
      · rw [if_neg fun hi ↦ hid (index_inj hi), if_neg fun hi ↦ hid (Item.entity.inj hi).symm]
        rfl
  · rw [hparams]
    exact own_addParams (s := { s with lastEntity := s.lastEntity + 1 })
      ⟨h.params, fun k e he ↦ ⟨(h.entities k e he).1, Nat.le_succ_of_le (h.entities k e he).2⟩,
        h.constraints⟩ _ _
  · intro k hk
    rw [hparams]
    exact others_addParams { s with lastEntity := s.lastEntity + 1 } _ _ hk

/-- A constraint that is added is a new item with its auxiliary unknown. -/
theorem addsItem_addConstraint (h : s.WellNumbered) (g : GroupId) (wp : Option EntityId)
    {relation : Relation R P} {start : Option R} (hstart : start.isSome = relation.aux?.isSome) :
    AddsItem g (.constraint ⟨s.lastConstraint + 1⟩)
      (newParams s.lastParam start.toList.length) s (s.addConstraint g wp relation start).2 := by
  obtain ⟨hconstraints, hentities, hparams⟩ := s.fields_addConstraint g wp relation start
  have hnone : s.constraints.find? ⟨s.lastConstraint + 1⟩ = none :=
    h.constraints.find?_eq_none (Nat.lt_succ_self _)
  refine ⟨grownIn_addConstraint s g wp relation start, ?_, ?_, nodup_newParams _ _, ?_, ?_⟩
  · rw [listing, hnone, Option.map_none]
  · intro i
    cases i with
    | entity id =>
      rw [listing, hentities, if_neg Item.noConfusion]
      rfl
    | constraint id =>
      rw [listing, hconstraints, Table.find?_insert]
      by_cases hid : (⟨s.lastConstraint + 1⟩ : ConstraintId) = id
      · subst hid
        rw [if_pos rfl, if_pos rfl, Option.map_some, toList_aux?_mapAux hstart]
      · rw [if_neg fun hi ↦ hid (index_inj hi), if_neg fun hi ↦ hid (Item.constraint.inj hi).symm]
        rfl
  · rw [hparams]
    exact own_addParams h.takeConstraint _ _
  · intro k hk
    rw [hparams]
    exact others_addParams s.takeConstraint.2 _ _ hk

/-- An entity whose demands are met breaks no link. -/
theorem Linked.addEntity (h : s.Linked) {wp : Option EntityId} {shape : Shape R}
    (hds : s.MeetsAll g (workplaneDemands wp ++ shape.demands wp)) :
    (s.addEntity g wp shape).2.Linked := by
  obtain ⟨hentities, hconstraints, _⟩ := s.fields_addEntity g wp shape
  refine h.addsItem (addsItem_addEntity h.numbered g wp shape) ?_ ?_
  · intro k e he
    rw [hentities, Table.find?_insert] at he
    split at he
    · next hk =>
      cases he
      refine .inr ⟨rfl, ?_, ?_⟩
      · exact Nat.lt_of_lt_of_eq (Nat.lt_succ_self _) hk
      · rw [Entity.demands, Shape.demands_numbered]
        exact hds
    · exact .inl he
  · intro k c hc
    exact .inl (hconstraints ▸ hc)

/-- A constraint whose demands are met breaks no link. -/
theorem Linked.addConstraint (h : s.Linked) {wp : Option EntityId} {relation : Relation R P}
    {start : Option R} (hstart : start.isSome = relation.aux?.isSome)
    (hds : s.MeetsAll g (workplaneDemands wp ++ relation.demands)) :
    (s.addConstraint g wp relation start).2.Linked := by
  obtain ⟨hconstraints, hentities, _⟩ := s.fields_addConstraint g wp relation start
  refine h.addsItem (addsItem_addConstraint h.numbered g wp hstart) ?_ ?_
  · intro k e he
    exact .inl (hentities ▸ he)
  · intro k c hc
    rw [hconstraints, Table.find?_insert] at hc
    split at hc
    · cases hc
      refine .inr ⟨rfl, ?_⟩
      rw [Constraint.demands, Relation.demands_mapAux]
      exact hds
    · exact .inl hc

/-! ## Removing a group -/

private theorem notMem_references {α : Type} {xs : List α} {refers : List EntityId}
    {group : α → GroupId} {references : α → List EntityId}
    (h : (xs.find? fun x ↦ group x != g && (references x).any refers.contains) = none) {x : α}
    (hx : x ∈ xs) (hg : group x ≠ g) {r : EntityId} (hr : r ∈ references x) : r ∉ refers := by
  have hnot := List.find?_eq_none.mp h x hx
  intro hmem
  apply hnot
  rw [Bool.and_eq_true, bne_iff_ne]
  exact ⟨hg, List.any_eq_true.mpr ⟨r, hr, List.contains_iff_mem.mpr hmem⟩⟩

private theorem group_ne_of_notMem (h : s.Linked) {r : EntityId} {f : Entity}
    (hf : s.entities.find? r = some f) (hr : r ∉ (s.entitiesIn g).map Entity.id) :
    f.group ≠ g := by
  intro hg
  apply hr
  refine List.mem_map.mpr ⟨f, ?_, (h.numbered.entities r f hf).1⟩
  rw [entitiesIn, List.mem_filter, beq_iff_eq]
  exact ⟨Table.mem_values_iff.mpr ⟨r, hf⟩, hg⟩

private theorem notMem_of_userOf? (h : s.userOf? g = none) :
    (∀ e ∈ s.entities.values, e.group ≠ g →
        ∀ r ∈ e.references, r ∉ (s.entitiesIn g).map Entity.id) ∧
      ∀ c ∈ s.constraints.values, c.group ≠ g →
        ∀ r ∈ c.references, r ∉ (s.entitiesIn g).map Entity.id := by
  unfold userOf? at h
  dsimp only at h
  split at h
  · cases h
  · next hentities =>
    have hconstraints := Option.map_eq_none_iff.mp h
    exact ⟨fun e he hg r hr ↦ notMem_references hentities he hg hr,
      fun c hc hg r hr ↦ notMem_references hconstraints hc hg hr⟩

private theorem find?_filter_group {K V : Type} [Numbered K] {group : V → GroupId}
    {table : Table K V} {k : K} {v : V} :
    (table.filter fun _ v ↦ group v != g).find? k = some v ↔
      table.find? k = some v ∧ group v ≠ g := by
  rw [Table.find?_filter, Option.filter_eq_some_iff, bne_iff_ne]

private theorem meetsAll_withoutGroup (h : s.Linked) {j : GroupId} {ds : List Demand}
    (hds : s.MeetsAll j ds) (hmem : ∀ d ∈ ds, d.1 ∉ (s.entitiesIn g).map Entity.id) :
    (s.withoutGroup g).MeetsAll j ds := by
  intro d hd
  obtain ⟨e, he, hp, hle⟩ := hds d hd
  exact ⟨e, find?_filter_group.mpr ⟨he, group_ne_of_notMem h he (hmem d hd)⟩, hp, hle⟩

private theorem listing_withoutGroup {item : Item} {j : GroupId} {ks : List ParamId} :
    (s.withoutGroup g).listing item = some (j, ks) ↔ s.listing item = some (j, ks) ∧ j ≠ g := by
  cases item with
  | entity id =>
    rw [listing, listing, Option.map_eq_some_iff, Option.map_eq_some_iff]
    constructor
    · rintro ⟨e, he, hpair⟩
      obtain ⟨hfound, hg⟩ := find?_filter_group.mp he
      cases hpair
      exact ⟨⟨e, hfound, rfl⟩, hg⟩
    · rintro ⟨⟨e, he, hpair⟩, hg⟩
      cases hpair
      exact ⟨e, find?_filter_group.mpr ⟨he, hg⟩, rfl⟩
  | constraint id =>
    rw [listing, listing, Option.map_eq_some_iff, Option.map_eq_some_iff]
    constructor
    · rintro ⟨c, hc, hpair⟩
      obtain ⟨hfound, hg⟩ := find?_filter_group.mp hc
      cases hpair
      exact ⟨⟨c, hfound, rfl⟩, hg⟩
    · rintro ⟨⟨c, hc, hpair⟩, hg⟩
      cases hpair
      exact ⟨c, find?_filter_group.mpr ⟨hc, hg⟩, rfl⟩

/-- Removing a group that no other item refers to breaks no link. -/
theorem Linked.withoutGroup (h : s.Linked) (hg : s.userOf? g = none) :
    (s.withoutGroup g).Linked := by
  obtain ⟨hentities, hconstraints⟩ := notMem_of_userOf? hg
  have hgroups : ∀ j, (s.withoutGroup g).groups.find? j =
      if index j = index g then none else s.groups.find? j := fun j ↦ Table.find?_erase _ _ _
  refine ⟨⟨h.numbered.params.filter _, h.numbered.entities.filter _,
    h.numbered.constraints.filter _⟩, ?_, ?_, ?_, ?_, ?_, ?_, ?_⟩
  · intro j st hst
    rw [hgroups] at hst
    split at hst
    · cases hst
    · exact h.groupId j st hst
  · intro k e he
    obtain ⟨hfound, hne⟩ := find?_filter_group.mp he
    refine meetsAll_withoutGroup h (h.entities k e hfound) fun d hd ↦ ?_
    exact hentities e (Table.mem_values_iff.mpr ⟨k, hfound⟩) hne _ (Entity.fst_mem_references hd)
  · intro k e he
    exact h.earlier k e (find?_filter_group.mp he).1
  · intro k c hc
    obtain ⟨hfound, hne⟩ := find?_filter_group.mp hc
    refine meetsAll_withoutGroup h (h.constraints k c hfound) fun d hd ↦ ?_
    exact hconstraints c (Table.mem_values_iff.mpr ⟨k, hfound⟩) hne _
      (Constraint.fst_mem_references hd)
  · intro k p hp
    obtain ⟨hfound, hne⟩ := find?_filter_group.mp hp
    obtain ⟨ks, hks, hcount⟩ := h.owned k p hfound
    exact ⟨ks, listing_withoutGroup.mpr ⟨hks, hne⟩, hcount⟩
  · intro item j ks hks k hk
    obtain ⟨hks, hne⟩ := listing_withoutGroup.mp hks
    -- A parameter is removed with its owner, since the two are of one group.
    obtain ⟨p, hp, howner, hgroup⟩ := h.exists_param hks hk
    exact ⟨p, find?_filter_group.mpr ⟨hp, hgroup.symm ▸ hne⟩, howner⟩
  · intro item j ks hks
    obtain ⟨hks, hne⟩ := listing_withoutGroup.mp hks
    obtain ⟨st, hst⟩ := Table.contains_iff_exists.mp (h.registered item j ks hks)
    refine Table.contains_iff_exists.mpr ⟨st, ?_⟩
    rw [hgroups, if_neg fun hi ↦ hne (index_inj hi), hst]

/-! ## Operations -/

private theorem contains_groups_markUnsolved (s : Sketch R) (g h : GroupId) :
    (s.markUnsolved g).groups.contains h = s.groups.contains h := by
  rw [Table.contains, find?_groups_markUnsolved, Option.isSome_map, Table.contains]

private theorem sameLinks_markUnsolved (h : s.Linked) (g : GroupId) :
    s.SameLinks (s.markUnsolved g) where
  numbered := h.numbered.of_groups _
  entities := rfl
  constraints := rfl
  identity _ := rfl
  groupId j st hst := by
    rw [find?_groups_markUnsolved] at hst
    obtain ⟨old, hold, rfl⟩ := Option.map_eq_some_iff.mp hst
    split
    · exact h.groupId j old hold
    · exact h.groupId j old hold
  groups j hj := by rw [contains_groups_markUnsolved, hj]

private theorem sameLinks_createGroup (h : s.Linked) (g : GroupId) :
    s.SameLinks (s.createGroup g) := by
  have hgroups : ∀ groups : Table GroupId GroupState,
      (∀ j st, groups.find? j = some st → st.id = j) →
        (∀ j, s.groups.contains j = true → groups.contains j = true) →
        s.SameLinks { s with groups := groups } := fun groups hid hkept ↦
    ⟨h.numbered.of_groups groups, rfl, rfl, fun _ ↦ rfl, hid, hkept⟩
  unfold createGroup
  split
  · exact hgroups s.groups h.groupId fun _ hj ↦ hj
  · refine hgroups _ ?_ ?_
    · intro j st hst
      rw [Table.find?_insert] at hst
      split at hst
      · next hj =>
        cases hst
        exact index_inj hj
      · exact h.groupId j st hst
    · intro j hj
      rw [Table.contains_insert, hj, Bool.or_true]

private theorem sameLinks_assigned (h : s.Linked) {p : ParamId} {q : Param R}
    (hq : s.params.find? p = some q) (x : R) :
    s.SameLinks { s with params := s.params.insert p { q with value := x } } where
  numbered := h.numbered.assigned hq x
  entities := rfl
  constraints := rfl
  identity k := by
    rw [Table.find?_insert]
    by_cases hk : index p = index k
    · rw [if_pos hk, ← index_inj hk, hq]
      rfl
    · rw [if_neg hk]
  groupId := h.groupId
  groups _ hj := hj

private theorem wellNumbered_commit (h : s.WellNumbered) (g : GroupId)
    (values : Table ParamId R) (dof : Nat) : (s.commit g values dof).WellNumbered := by
  refine ⟨?_, h.entities, h.constraints⟩
  intro k p hp
  rw [find?_params_commit] at hp
  obtain ⟨q, hq, rfl⟩ := Option.map_eq_some_iff.mp hp
  exact h.params k q hq

private theorem sameLinks_commit (h : s.Linked) (g : GroupId) (values : Table ParamId R)
    (dof : Nat) : s.SameLinks (s.commit g values dof) where
  numbered := wellNumbered_commit h.numbered g values dof
  entities := rfl
  constraints := rfl
  identity k := by
    rw [find?_params_commit, Option.map_map]
    rfl
  groupId j st hst := by
    rw [find?_groups_commit] at hst
    split at hst
    · next hj =>
      cases hst
      exact hj.symm
    · obtain ⟨old, hold, rfl⟩ := Option.map_eq_some_iff.mp hst
      split
      · exact h.groupId j old hold
      · exact h.groupId j old hold
  groups j hj := by
    rw [Table.contains, find?_groups_commit]
    split
    · rfl
    · rw [Option.isSome_map]
      exact hj

/-- Writing solved values breaks no link. -/
theorem Linked.commit (h : s.Linked) (g : GroupId) (values : Table ParamId R) (dof : Nat) :
    (s.commit g values dof).Linked := h.sameLinks (sameLinks_commit h g values dof)

/-- Removing a group breaks no link. -/
theorem Linked.removeGroup (h : s.Linked) (hg : s.removeGroup g = .ok t) : t.Linked := by
  obtain ⟨_, _, hg⟩ := Outcome.bind_eq_ok_iff.mp hg
  split at hg
  · cases hg
  · next hnone =>
    cases hg
    have hremoved := h.withoutGroup hnone
    exact hremoved.sameLinks (sameLinks_markUnsolved hremoved _)

/-- Taking a handle breaks no link. -/
theorem Linked.takeConstraint (h : s.Linked) : s.takeConstraint.2.Linked :=
  h.sameLinks ⟨h.numbered.takeConstraint, rfl, rfl, fun _ ↦ rfl, h.groupId, fun _ hj ↦ hj⟩

variable [Arith R]

/-- Drawing an entity breaks no link. -/
theorem Linked.draw (h : s.Linked) {request : EntityRequest R} {id : EntityId}
    (hd : s.draw g request = .ok (id, t)) : t.Linked := by
  obtain ⟨plan, hplan, hd⟩ := Outcome.bind_eq_ok_iff.mp hd
  have hadded := h.addEntity (meetsAll_of_planEntity hplan)
  cases hd
  exact hadded

/-- Assigning a value breaks no link. -/
theorem Linked.setParamValue (h : s.Linked) {p : ParamId} {x : R}
    (hp : s.setParamValue p x = .ok t) : t.Linked := by
  unfold Sketch.setParamValue at hp
  split at hp
  · cases hp
  · split at hp
    · cases hp
    · next q hq =>
      cases hp
      have hassigned := h.sameLinks (sameLinks_assigned h hq x)
      exact hassigned.sameLinks (sameLinks_markUnsolved hassigned _)

end Sketch

/-- An operation that keeps a property of the sketch, also if it is refused. -/
def Operation.Keeps {α : Type} (P : Sketch R → Prop) (op : Operation R α) : Prop :=
  ∀ s, P s → P (op.left s)

section Keeping

variable {α β : Type} {P : Sketch R → Prop}

/-- A change keeps what its result has. -/
theorem Operation.keeps_change {f : Sketch R → Outcome R (α × Sketch R)}
    (h : ∀ s a t, P s → f s = .ok (a, t) → P t) : (Operation.change f).Keeps P := by
  intro s hs
  rw [left_change]
  cases hf : f s with
  | error e => exact hs
  | ok r => exact h s r.1 r.2 hs hf

/-- A change that answers nothing keeps what its result has. -/
theorem Operation.keeps_change_map {f : Sketch R → Outcome R (Sketch R)} {a : α}
    (h : ∀ s t, P s → f s = .ok t → P t) :
    (Operation.change fun s ↦ (f s).map (a, ·)).Keeps P := by
  apply keeps_change
  intro s b t hs ht
  cases hf : f s with
  | error e =>
    rw [hf] at ht
    cases ht
  | ok u =>
    rw [hf] at ht
    cases ht
    exact h s t hs hf

/-- Two steps keep what each of them keeps. -/
theorem Operation.Keeps.bind {op : Operation R α} {k : α → Operation R β} (h : op.Keeps P)
    (hk : ∀ a, (k a).Keeps P) : (op >>= k).Keeps P := by
  intro s hs
  have ht := h s hs
  unfold left at ht ⊢
  rw [EStateM.run_bind]
  cases hrun : op.run s with
  | error e t =>
    rw [hrun] at ht
    exact ht
  | ok a t =>
    rw [hrun] at ht
    exact hk a t ht

/-- Relabelling the answer keeps what the operation keeps. -/
theorem Operation.Keeps.map {op : Operation R α} (h : op.Keeps P) (f : α → β) :
    (f <$> op).Keeps P := by
  intro s hs
  rw [left_map]
  exact h s hs

end Keeping

/-! ## Commands -/

namespace Sketch

variable {s t : Sketch R} [Arith R] {la : LinearAlgebra R}

private theorem keeps_linked_draw (g : GroupId) (request : EntityRequest R) :
    (Operation.change fun s ↦ s.draw g request).Keeps Linked :=
  Operation.keeps_change fun _ _ _ hs hd ↦ hs.draw hd

private theorem keeps_linked_relate (g : GroupId) (request : ConstraintRequest R) :
    (Operation.relate g request).Keeps Linked := by
  intro s hs
  rw [Operation.left, Operation.run_relate]
  cases hplan : s.planConstraint g request with
  | error e => exact hs
  | ok plan =>
    dsimp only
    cases hstart : s.startOf plan.relation with
    | error e => exact hs.takeConstraint
    | ok start =>
      exact hs.addConstraint (isSome_startOf hstart)
        (meetsAll_of_planConstraint hs.entitiesMet hplan)

private theorem linked_solveDragged (h : s.Linked) (g : GroupId) (dragged : List ParamId) :
    ((Operation.solveDragged la g dragged).left s).Linked := by
  rcases (allOrNothing_solveDragged la s g dragged).left with hs | ⟨values, d, hs⟩
  · rw [hs]
    exact h
  · rw [hs]
    exact h.commit g values d

/-- A command breaks no link. -/
theorem Linked.step (h : s.Linked) (c : Command R) : (s.step la c).Linked := by
  have hnumbered : (s.step la c).WellNumbered := h.numbered.step c
  unfold Sketch.step at hnumbered ⊢
  cases c with
  | draw g request => exact ((keeps_linked_draw g request).map _) s h
  | drawBase g =>
    refine (Operation.Keeps.map ?_ _) s h
    exact (keeps_linked_draw g _).bind fun _ ↦ (keeps_linked_draw g _).bind fun _ ↦
      keeps_linked_draw g _
  | relate g request => exact ((keeps_linked_relate g request).map _) s h
  | setParamValue p x =>
    exact Operation.keeps_change_map (fun _ _ hs ht ↦ hs.setParamValue ht) s h
  | removeGroup g =>
    exact Operation.keeps_change_map (fun _ _ hs ht ↦ hs.removeGroup ht) s h
  | createGroup g => exact h.sameLinks (sameLinks_createGroup h g)
  | clear => exact linked_of_empty rfl rfl rfl rfl
  | setConfig config =>
    exact h.sameLinks ⟨hnumbered, rfl, rfl, fun _ ↦ rfl, h.groupId, fun _ hj ↦ hj⟩
  | solve g =>
    rw [Command.operation, Operation.left_map]
    exact linked_solveDragged h g []
  | solveDragged g dragged =>
    rw [Command.operation, Operation.left_map]
    exact linked_solveDragged h g dragged

/-- A run of commands breaks no link. -/
theorem Linked.runAll (h : s.Linked) (cs : List (Command R)) : (s.runAll la cs).Linked := by
  induction cs generalizing s with
  | nil => exact h
  | cons c cs ih => exact ih (h.step c)

/-! ## Integrity -/

omit [Arith R] in
/-- The points that a constraint of a line keeps are those of a line in a workplane, which the
constraint refers to. -/
theorem Linked.exists_line_of_mem_ends (h : s.Linked) {k : ConstraintId} {c : Constraint R}
    (hc : s.constraints.find? k = some c) {p : EntityId} (hp : p ∈ c.relation.ends) :
    ∃ line e w, line ∈ c.references ∧ s.entities.find? line = some e ∧ e.group ≤ c.group ∧
      (p, Entity.isPointOf (some w)) ∈ e.demands := by
  have hline : ∃ line a b, (line, Entity.isLineBetween a b) ∈ c.demands ∧ (p = a ∨ p = b) := by
    unfold Constraint.demands
    cases hr : c.relation with
    | horizontal line a b =>
      cases line with
      | none => simp [hr, Relation.ends] at hp
      | some line =>
        refine ⟨line, a, b, List.mem_append_right _ List.mem_cons_self, ?_⟩
        simpa [hr, Relation.ends] using hp
    | vertical line a b =>
      cases line with
      | none => simp [hr, Relation.ends] at hp
      | some line =>
        refine ⟨line, a, b, List.mem_append_right _ List.mem_cons_self, ?_⟩
        simpa [hr, Relation.ends] using hp
    | _ => simp [hr, Relation.ends] at hp
  obtain ⟨line, a, b, hmem, hab⟩ := hline
  obtain ⟨e, he, hbetween, hle⟩ := h.constraints k c hc _ hmem
  simp only [Entity.isLineBetween, Entity.isLine2d, Bool.and_eq_true, decide_eq_true_eq] at hbetween
  obtain ⟨⟨_, hwp⟩, hshape⟩ := hbetween
  obtain ⟨w, hw⟩ := Option.isSome_iff_exists.mp hwp
  refine ⟨line, e, w, Constraint.fst_mem_references hmem, he, hle, ?_⟩
  rw [Entity.demands, hshape, hw]
  rcases hab with rfl | rfl
  · simp [Shape.demands]
  · simp [Shape.demands]

omit [Arith R] in
/-- The points that a constraint of a line keeps are points of a workplane and there. -/
theorem Linked.ends (h : s.Linked) {k : ConstraintId} {c : Constraint R}
    (hc : s.constraints.find? k = some c) {p : EntityId} (hp : p ∈ c.relation.ends) :
    s.Meets c.group (p, Entity.isPoint2d) := by
  obtain ⟨line, e, w, _, he, hle, hend⟩ := h.exists_line_of_mem_ends hc hp
  refine ((h.entities line e he _ hend).of_le hle).imp fun f hf ↦ ?_
  exact (Bool.and_eq_true_iff.mp hf).1

/-- A sketch in which everything that is referred to is there. -/
structure Integral (s : Sketch R) : Prop extends s.Linked where
  /-- The points that a constraint of a line keeps are points of a workplane and there. -/
  ends : ∀ k c, s.constraints.find? k = some c →
    ∀ p ∈ c.relation.ends, s.Meets c.group (p, Entity.isPoint2d)
  /-- No other item lists the parameter of an owner. -/
  oneOwner : ∀ k p, s.params.find? k = some p →
    ∀ item g ks, s.listing item = some (g, ks) → k ∈ ks → item = p.owner
  /-- The groups of parameters are there. -/
  paramGroups : ∀ k p, s.params.find? k = some p → s.groups.contains p.group = true

omit [Arith R] in
/-- A sketch in which no link is broken has integrity. -/
theorem Linked.integral (h : s.Linked) : s.Integral where
  toLinked := h
  ends _ _ hc _ hp := h.ends hc hp
  oneOwner k p hp item g ks hks hk := by
    obtain ⟨q, hq, howner⟩ := h.listed item g ks hks k hk
    rw [hp] at hq
    cases hq
    exact howner.symm
  paramGroups k p hp := by
    obtain ⟨ks, hks, _⟩ := h.owned k p hp
    exact h.registered p.owner p.group ks hks

/-- After every run of commands on an empty sketch, answered or refused, all that is referred to is
there, and no handle is created twice. -/
theorem integral_runAll (la : LinearAlgebra R) (config : Config R) :
    (∀ cs : List (Command R), ((empty config).runAll la cs).Integral) ∧
      CreatedOnce la config Param.identity params ∧
      CreatedOnce la config (fun e ↦ e) entities ∧
      CreatedOnce la config (fun c ↦ c) constraints := by
  refine ⟨fun cs ↦ ?_, createdOnce la config⟩
  have hempty : (empty config).Linked := linked_of_empty rfl rfl rfl rfl
  exact (hempty.runAll cs).integral

end Sketch

end SketchSolver
