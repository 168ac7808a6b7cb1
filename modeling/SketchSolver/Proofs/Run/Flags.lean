import Mathlib.Data.List.Induction
import SketchSolver.LinearAlgebra.Standard
import SketchSolver.Proofs.Run.Numbering

/-!
# Solved flags

A group is flagged as solved if its last solve succeeded and nothing has changed since. Over a run
of commands the flag keeps its word about entities and constraints: none of the group or an earlier
one was added or removed. About values it keeps its word except in one case. A successful solve of
a later group writes to the dragged parameters of earlier groups, and does not make these groups
unsolved. There is no other case.
-/

namespace SketchSolver

open Numbered

/-! ## Tables that agree in part -/

section Tables

variable {K V : Type} [Numbered K] {P : V → Bool} {low high : Nat} {s t u : Table K V}

/-- Two tables have the same entries among those that satisfy a condition. -/
def AgreeOn (P : V → Bool) (s t : Table K V) : Prop :=
  ∀ k, (t.find? k).filter P = (s.find? k).filter P

/-- A table agrees with itself. -/
theorem AgreeOn.refl (P : V → Bool) (t : Table K V) : AgreeOn P t t := fun _ ↦ rfl

/-- Agreement on a condition is agreement on a stronger one. -/
theorem AgreeOn.mono (h : AgreeOn P s t) {Q : V → Bool} (hQ : ∀ v, Q v = true → P v = true) :
    AgreeOn Q s t := by
  have hfilter : ∀ x : Option V, x.filter Q = (x.filter P).filter Q := by
    intro x
    cases x with
    | none => rfl
    | some v =>
      cases hv : P v with
      | true => simp [Option.filter_some, hv]
      | false =>
        have hQv : Q v = false := Bool.eq_false_iff.mpr fun hq ↦ by simp [hQ v hq] at hv
        simp [Option.filter_some, hv, hQv]
  intro k
  rw [hfilter, h k, ← hfilter]

/-- Tables that agree on a condition have the same entries after a filter by it. -/
theorem AgreeOn.filter_eq (h : AgreeOn P s t) :
    (t.filter fun _ v ↦ P v) = s.filter fun _ v ↦ P v := by
  apply Table.ext
  intro k
  rw [Table.find?_filter, Table.find?_filter]
  exact h k

/-- Tables that agree on a condition have the same values that satisfy a stronger one. -/
theorem AgreeOn.values_filter (h : AgreeOn P s t) {Q : V → Bool}
    (hQ : ∀ v, Q v = true → P v = true) : t.values.filter Q = s.values.filter Q := by
  rw [← Table.values_filter, ← Table.values_filter, (h.mono hQ).filter_eq]

/-- An entry that satisfies the condition is found in both tables. -/
theorem AgreeOn.find?_eq_some (h : AgreeOn P s t) {k : K} {v : V} (hv : s.find? k = some v)
    (hP : P v = true) : t.find? k = some v := by
  have hk := h k
  rw [hv, Option.filter_some, if_pos hP] at hk
  exact (Option.filter_eq_some_iff.mp hk).1

/-- Entries that do not satisfy a condition can be added. -/
theorem agreeOn_of_grown {name : V → K} {Q : K → V → Prop} (hg : Grown Q low high s t)
    (hn : Named name low s) (hQ : ∀ k v, Q k v → P v = false) : AgreeOn P s t := by
  intro k
  rcases hg k with hk | ⟨hlow, _, v, hv, hq⟩
  · rw [hk]
  · rw [hv, hn.find?_eq_none hlow, Option.filter_some, hQ k v hq]
    rfl

/-- Entries that do not satisfy a condition can be removed. -/
theorem agreeOn_filter {p : V → Bool} (h : ∀ v, P v = true → p v = true) (t : Table K V) :
    AgreeOn P t (t.filter fun _ v ↦ p v) := by
  intro k
  rw [Table.find?_filter]
  cases t.find? k with
  | none => rfl
  | some v =>
    cases hv : P v with
    | false => cases hp : p v <;> simp [Option.filter_some, hv, hp]
    | true => simp [Option.filter_some, hv, h v hv]

/-- An entry that does not satisfy a condition can be replaced by another such one. -/
theorem agreeOn_insert {k : K} {v w : V} (hv : t.find? k = some v) (hPv : P v = false)
    (hPw : P w = false) : AgreeOn P t (t.insert k w) := by
  intro j
  rw [Table.find?_insert]
  by_cases hj : index k = index j
  · cases index_inj hj
    rw [if_pos rfl, hv, Option.filter_some, Option.filter_some, hPv, hPw]
    rfl
  · rw [if_neg hj]

end Tables

variable {R : Type}

/-! ## What belongs to a group or an earlier one -/

/-- Two sketches have the same entities and constraints of a group and all earlier ones. -/
def SameItems (g : GroupId) (s t : Sketch R) : Prop :=
  AgreeOn (fun e : Entity ↦ decide (e.group ≤ g)) s.entities t.entities ∧
    AgreeOn (fun c : Constraint R ↦ decide (c.group ≤ g)) s.constraints t.constraints

/-- Two sketches have the same parameters of a group and all earlier ones, with the same values. -/
def SameValues (g : GroupId) (s t : Sketch R) : Prop :=
  AgreeOn (fun p : Param R ↦ decide (p.group ≤ g)) s.params t.params

/-- Two sketches are the same in all that belongs to a group or an earlier one. -/
def SameUpTo (g : GroupId) (s t : Sketch R) : Prop := SameItems g s t ∧ SameValues g s t

/-- A sketch is the same as itself. -/
theorem SameUpTo.refl (g : GroupId) (s : Sketch R) : SameUpTo g s s :=
  ⟨⟨.refl _ _, .refl _ _⟩, .refl _ _⟩

private theorem decide_le_eq_false {g h : GroupId} (hgh : g < h) : decide (h ≤ g) = false :=
  decide_eq_false (Nat.not_le.mpr hgh)

/-- Adding items to a later group changes nothing up to a group. -/
theorem sameUpTo_of_grownIn {g h : GroupId} {s t : Sketch R} (hs : s.WellNumbered)
    (hg : GrownIn h s t) (hgh : g < h) : SameUpTo g s t := by
  refine ⟨⟨?_, ?_⟩, ?_⟩
  · apply agreeOn_of_grown hg.entities hs.entities
    rintro k e ⟨_, rfl⟩
    exact decide_le_eq_false hgh
  · apply agreeOn_of_grown hg.constraints hs.constraints
    rintro k c ⟨_, rfl⟩
    exact decide_le_eq_false hgh
  · apply agreeOn_of_grown hg.params hs.params
    rintro k p ⟨_, rfl⟩
    exact decide_le_eq_false hgh

/-- Removing a later group changes nothing up to a group. -/
theorem sameUpTo_withoutGroup {g h : GroupId} (hgh : g < h) (s : Sketch R) :
    SameUpTo g s (s.withoutGroup h) := by
  have hne : ∀ i : GroupId, decide (i ≤ g) = true → (i != h) = true := by
    intro i hi
    rw [bne_iff_ne]
    rintro rfl
    exact Nat.not_le.mpr hgh (of_decide_eq_true hi)
  exact ⟨⟨agreeOn_filter (fun e he ↦ hne e.group he) s.entities,
    agreeOn_filter (fun c hc ↦ hne c.group hc) s.constraints⟩,
    agreeOn_filter (fun p hp ↦ hne p.group hp) s.params⟩

/-- Registering a group changes nothing up to a group. -/
theorem sameUpTo_createGroup (g h : GroupId) (s : Sketch R) : SameUpTo g s (s.createGroup h) := by
  unfold Sketch.createGroup
  split
  · exact .refl g s
  · exact .refl g s

/-- A solve changes no entities and constraints. -/
theorem sameItems_of_solvedApart (g : GroupId) {h : GroupId} {dragged : HandleSet ParamId}
    {dof : Option Nat} {s t : Sketch R} (ha : SolvedApart h dragged dof s t) :
    SameItems g s t := by
  rw [SameItems, ha.entities, ha.constraints]
  exact ⟨.refl _ _, .refl _ _⟩

/-- Assigning a value to a parameter of a later group changes nothing up to a group. -/
theorem sameUpTo_assigned {g : GroupId} {s : Sketch R} {p : ParamId} {q : Param R}
    (hq : s.params.find? p = some q) (hgh : g < q.group) (x : R) :
    SameUpTo g s { s with params := s.params.insert p { q with value := x } } :=
  ⟨⟨.refl _ _, .refl _ _⟩,
    agreeOn_insert hq (decide_le_eq_false hgh) (decide_le_eq_false hgh)⟩

/-! ## Flags -/

/-- Whether a group is there and solved. -/
def Sketch.isSolved (s : Sketch R) (g : GroupId) : Bool :=
  (s.groups.find? g).any GroupState.solved

/-- A flag that is set after a group was marked was set before, and it is that of an earlier
group. -/
theorem isSolved_markUnsolved_iff {s : Sketch R} {g h : GroupId} :
    (s.markUnsolved g).isSolved h = true ↔ s.isSolved h = true ∧ h < g := by
  rw [Sketch.isSolved, Sketch.find?_groups_markUnsolved, Sketch.isSolved]
  cases s.groups.find? h with
  | none => simp
  | some st =>
    by_cases hgh : g ≤ h
    · have hnot : ¬ h < g := Nat.not_lt.mpr hgh
      simp [hgh, hnot]
    · have hlt : h < g := Nat.not_le.mp hgh
      simp [hgh, hlt]

/-- Registering a group changes no flag. -/
theorem isSolved_createGroup (s : Sketch R) (g h : GroupId) :
    (s.createGroup g).isSolved h = s.isSolved h := by
  rw [Sketch.isSolved, Sketch.find?_groups_createGroup, Sketch.isSolved]
  by_cases hg : h = g
  · rw [if_pos hg, hg]
    cases s.groups.find? g <;> rfl
  · rw [if_neg hg]

/-- A flag that is set without another group was set with it. -/
theorem isSolved_of_withoutGroup {g h : GroupId} {s : Sketch R}
    (ht : (s.withoutGroup h).isSolved g = true) : s.isSolved g = true := by
  unfold Sketch.isSolved Sketch.withoutGroup at ht
  rw [Table.find?_erase] at ht
  split at ht
  · cases ht
  · exact ht

/-- A flag that is set after items were added was set before, and the group is an earlier one. -/
theorem isSolved_of_grownIn {g h : GroupId} {s t : Sketch R} (hg : GrownIn h s t)
    (ht : t.isSolved g = true) : s.isSolved g = true ∧ g < h := by
  rw [Sketch.isSolved, hg.groups] at ht
  change ((s.createGroup h).markUnsolved h).isSolved g = true at ht
  rw [isSolved_markUnsolved_iff, isSolved_createGroup] at ht
  exact ht

/-- A flag that is set after a solve was set by it, or it was set before and the group is an earlier
one. -/
theorem isSolved_of_solvedApart {g h : GroupId} {dragged : HandleSet ParamId} {dof : Option Nat}
    {s t : Sketch R} (ha : SolvedApart h dragged dof s t) (ht : t.isSolved g = true) :
    g = h ∨ s.isSolved g = true ∧ g < h := by
  rw [Sketch.isSolved, ha.groups] at ht
  by_cases hgh : g = h
  · exact .inl hgh
  · rw [if_neg hgh] at ht
    cases hst : s.groups.find? g with
    | none =>
      rw [hst] at ht
      cases ht
    | some st =>
      rw [hst, Option.map_some, Option.any_some] at ht
      by_cases hlt : h < g
      · rw [if_pos hlt] at ht
        cases ht
      · rw [if_neg hlt] at ht
        have hne : g.index ≠ h.index := fun hi ↦ hgh (index_inj hi)
        refine .inr ⟨?_, Nat.lt_of_le_of_ne (Nat.not_lt.mp hlt) hne⟩
        rw [Sketch.isSolved, hst, Option.any_some, ht]

/-! ## One command -/

/-- A solve of a later group changes no values up to a group, unless it moves a parameter among them
that is dragged. -/
theorem exists_moved_of_not_sameValues {g h : GroupId} {dragged : List ParamId}
    {dof : Option Nat} {s t : Sketch R} (hs : s.WellNumbered)
    (ha : SolvedApart h (.ofHandles dragged) dof s t) (hgh : g < h) (hv : ¬ SameValues g s t) :
    ∃ p q x, p ∈ dragged ∧ s.params.find? p = some q ∧ q.group ≤ g ∧
      t.params.find? p = some { q with value := x } ∧ x ≠ q.value := by
  obtain ⟨k, hk⟩ := Classical.not_forall.mp hv
  cases hq : s.params.find? k with
  | none =>
    rw [hq, ha.find?_eq_none hq] at hk
    exact absurd rfl hk
  | some q =>
    obtain ⟨x, hx⟩ := ha.exists_value hq
    rw [hq, hx, Option.filter_some, Option.filter_some] at hk
    have hle : q.group ≤ g := by
      by_cases hle : q.group ≤ g
      · exact hle
      · rw [decide_eq_false hle] at hk
        exact absurd rfl hk
    have hne : x ≠ q.value := by
      rintro rfl
      exact hk rfl
    have hmoves : MayMove h (.ofHandles dragged) q := by
      apply Classical.byContradiction
      intro hstill
      have hsame := ha.still k q hq hstill
      rw [hx] at hsame
      exact hne (congrArg Param.value (Option.some.inj hsame))
    refine ⟨k, q, x, ?_, hq, hle, hx, hne⟩
    rcases hmoves with hown | ⟨hd, _⟩
    · exact absurd (hown ▸ hle) (Nat.not_le.mpr hgh)
    · rw [(hs.params k q hq).1] at hd
      exact (HandleSet.contains_ofHandles dragged k).mp hd

section Commands

variable [Arith R] {la : LinearAlgebra R}

/-- Whether a command is a successful solve of a later group that moves a dragged parameter of a
group or an earlier one. -/
def Command.DragsAway (la : LinearAlgebra R) (s : Sketch R) (g : GroupId) (c : Command R) : Prop :=
  ∃ h dragged p q x, c.solveTarget? = some (h, dragged) ∧ c.solves la s h = true ∧ g < h ∧
    p ∈ dragged ∧ s.params.find? p = some q ∧ q.group ≤ g ∧
    (s.step la c).params.find? p = some { q with value := x } ∧ x ≠ q.value

/-- A command after which a group is flagged as solved has solved it, or it was flagged before and
nothing up to the group has changed, apart from values that are dragged away. -/
theorem step_of_isSolved {s : Sketch R} (hs : s.WellNumbered) (c : Command R) {g : GroupId}
    (ht : (s.step la c).isSolved g = true) :
    c.solves la s g = true ∨
      s.isSolved g = true ∧ SameItems g s (s.step la c) ∧
        (SameValues g s (s.step la c) ∨ c.DragsAway la s g) := by
  have hkept : ∀ t : Sketch R, s.isSolved g = true ∧ SameUpTo g s t →
      c.solves la s g = true ∨ s.isSolved g = true ∧ SameItems g s t ∧
        (SameValues g s t ∨ c.DragsAway la s g) := by
    rintro t ⟨hsolved, hitems, hvalues⟩
    exact .inr ⟨hsolved, hitems, .inl hvalues⟩
  have heffect := commandEffect_step la s c
  generalize hstep : s.step la c = t at ht heffect ⊢
  cases heffect with
  | unchanged => exact hkept s ⟨ht, .refl g s⟩
  | grown hg =>
    obtain ⟨hsolved, hgh⟩ := isSolved_of_grownIn hg ht
    exact hkept _ ⟨hsolved, sameUpTo_of_grownIn hs hg hgh⟩
  | handleTaken => exact hkept _ ⟨ht, .refl g s⟩
  | assigned hq =>
    obtain ⟨hsolved, hgh⟩ := isSolved_markUnsolved_iff.mp ht
    exact hkept _ ⟨hsolved, sameUpTo_assigned hq hgh _⟩
  | removed =>
    obtain ⟨hsolved, hgh⟩ := isSolved_markUnsolved_iff.mp ht
    exact hkept _ ⟨isSolved_of_withoutGroup hsolved, sameUpTo_withoutGroup hgh s⟩
  | created =>
    rw [isSolved_createGroup] at ht
    exact hkept _ ⟨ht, sameUpTo_createGroup g _ s⟩
  | cleared => cases ht
  | configured => exact hkept _ ⟨ht, .refl g s⟩
  | @solved _ h dragged _ _ htarget hsolves ha =>
    rcases isSolved_of_solvedApart ha ht with rfl | ⟨hsolved, hgh⟩
    · exact .inl hsolves
    · refine .inr ⟨hsolved, sameItems_of_solvedApart g ha, ?_⟩
      by_cases hvalues : SameValues g s t
      · exact .inl hvalues
      · obtain ⟨p, q, x, hp, hq, hle, hr, hx⟩ :=
          exists_moved_of_not_sameValues hs ha hgh hvalues
        exact .inr ⟨h, dragged, p, q, x, htarget, hsolves, hgh, hp, hq, hle, hstep ▸ hr, hx⟩

/-- A command that drags a value away changes it. -/
theorem Command.DragsAway.not_sameValues {s : Sketch R} {g : GroupId} {c : Command R}
    (h : c.DragsAway la s g) : ¬ SameValues g s (s.step la c) := by
  obtain ⟨_, _, p, q, x, _, _, _, _, hq, hle, hr, hx⟩ := h
  intro hsame
  have hp := hsame p
  rw [hq, hr, Option.filter_some, Option.filter_some, decide_eq_true hle] at hp
  exact hx (congrArg Param.value (Option.some.inj hp))

/-! ## Runs -/

/-- Whether every command of a run satisfies a condition, along with the sketch before it. -/
def Sketch.Throughout (la : LinearAlgebra R) (P : Sketch R → Command R → Prop) :
    Sketch R → List (Command R) → Prop
  | _, [] => True
  | s, c :: cs => P s c ∧ Throughout la P (s.step la c) cs

variable {P Q : Sketch R → Command R → Prop}

private theorem throughout_append_singleton {s : Sketch R} {cs : List (Command R)}
    {c : Command R} :
    s.Throughout la P (cs ++ [c]) ↔ s.Throughout la P cs ∧ P (s.runAll la cs) c := by
  induction cs generalizing s with
  | nil => exact and_comm
  | cons d cs ih =>
    rw [List.cons_append, Sketch.Throughout, ih, ← and_assoc]
    rfl

/-- A condition on each command of a run can be weakened. -/
theorem Sketch.Throughout.imp {s : Sketch R} {cs : List (Command R)} (h : s.Throughout la P cs)
    (hPQ : ∀ s c, P s c → Q s c) : s.Throughout la Q cs := by
  induction cs generalizing s with
  | nil => trivial
  | cons c cs ih => exact ⟨hPQ s c h.1, ih h.2⟩

/-- Two conditions on each command of a run can be put together. -/
theorem Sketch.Throughout.and {s : Sketch R} {cs : List (Command R)} (hP : s.Throughout la P cs)
    (hQ : s.Throughout la Q cs) : s.Throughout la (fun s c ↦ P s c ∧ Q s c) cs := by
  induction cs generalizing s with
  | nil => trivial
  | cons c cs ih => exact ⟨⟨hP.1, hQ.1⟩, ih hP.2 hQ.2⟩

/-- A run with the sketch after the last successful solve of a group, and the commands since. -/
structure SolvedLast (la : LinearAlgebra R) (s : Sketch R) (cs : List (Command R)) (g : GroupId)
    (t : Sketch R) (since : List (Command R)) : Prop where
  /-- A successful solve of the group leaves the sketch behind. -/
  solve : ∃ before c, cs = before ++ c :: since ∧ c.solves la (s.runAll la before) g = true ∧
    (s.runAll la before).step la c = t
  /-- There is no such solve since. -/
  last : t.Throughout la (fun u c ↦ c.solves la u g = false) since

/-- The run since the last solve ends where the whole run ends. -/
theorem SolvedLast.runAll_eq {s t : Sketch R} {cs since : List (Command R)} {g : GroupId}
    (h : SolvedLast la s cs g t since) : t.runAll la since = s.runAll la cs := by
  obtain ⟨before, c, rfl, _, rfl⟩ := h.solve
  rw [Sketch.runAll_append]
  rfl

/-- A run ends with a solve. -/
theorem solvedLast_of_solves {s : Sketch R} {cs : List (Command R)} {g : GroupId} {c : Command R}
    (h : c.solves la (s.runAll la cs) g = true) :
    SolvedLast la s (cs ++ [c]) g ((s.runAll la cs).step la c) [] :=
  ⟨⟨cs, c, rfl, h, rfl⟩, trivial⟩

/-- A run goes on after a solve. -/
theorem SolvedLast.append {s t : Sketch R} {cs since : List (Command R)} {g : GroupId}
    {c : Command R} (h : SolvedLast la s cs g t since)
    (hc : c.solves la (s.runAll la cs) g = false) :
    SolvedLast la s (cs ++ [c]) g t (since ++ [c]) := by
  refine ⟨?_, throughout_append_singleton.mpr ⟨h.last, h.runAll_eq ▸ hc⟩⟩
  obtain ⟨before, d, rfl, hd, ht⟩ := h.solve
  exact ⟨before, d, by rw [List.append_assoc, List.cons_append], hd, ht⟩

/-- A group flagged as solved at the end of a run was solved in it, and each command since has
changed nothing up to the group, apart from values that are dragged away. -/
theorem exists_solvedLast_of_isSolved (config : Config R) (cs : List (Command R)) {g : GroupId}
    (h : ((Sketch.empty config).runAll la cs).isSolved g = true) :
    ∃ t since, SolvedLast la (.empty config) cs g t since ∧
      t.Throughout la (fun u c ↦ SameItems g u (u.step la c) ∧
        (SameValues g u (u.step la c) ∨ c.DragsAway la u g)) since := by
  induction cs using List.reverseRecOn with
  | nil => cases h
  | append_singleton cs c ih =>
    have hlast : (Sketch.empty config).runAll la (cs ++ [c]) =
        ((Sketch.empty config).runAll la cs).step la c := by
      rw [Sketch.runAll_append]
      rfl
    rw [hlast] at h
    cases hc : c.solves la ((Sketch.empty config).runAll la cs) g with
    | true => exact ⟨_, [], solvedLast_of_solves hc, trivial⟩
    | false =>
      have hs : ((Sketch.empty config).runAll la cs).WellNumbered :=
        (Sketch.WellNumbered.empty config).runAll cs
      rcases step_of_isSolved hs c h with hsolves | ⟨hbefore, hkept⟩
      · rw [hc] at hsolves
        cases hsolves
      · obtain ⟨t, since, ht, hsince⟩ := ih hbefore
        refine ⟨t, since ++ [c], ht.append hc, ?_⟩
        exact throughout_append_singleton.mpr ⟨hsince, ht.runAll_eq ▸ hkept⟩

/-- If a group is flagged as solved, then no entity and no constraint of it or an earlier group was
added or removed since it was solved, and the parameters of these groups kept their values unless a
solve of a later group dragged one away. -/
theorem unchanged_since_solved_iff (la : LinearAlgebra R) (config : Config R)
    (cs : List (Command R)) (g : GroupId)
    (h : ((Sketch.empty config).runAll la cs).isSolved g = true) :
    ∃ t since, SolvedLast la (.empty config) cs g t since ∧
      t.Throughout la (fun u c ↦ SameItems g u (u.step la c)) since ∧
      (t.Throughout la (fun u c ↦ SameValues g u (u.step la c)) since ↔
        t.Throughout la (fun u c ↦ ¬ c.DragsAway la u g) since) := by
  obtain ⟨t, since, ht, hsince⟩ := exists_solvedLast_of_isSolved config cs h
  refine ⟨t, since, ht, hsince.imp fun u c hc ↦ hc.1, ?_, ?_⟩
  · intro hvalues
    exact hvalues.imp fun u c hsame hdrags ↦ hdrags.not_sameValues hsame
  · intro hnot
    exact (hsince.and hnot).imp fun u c hc ↦ hc.1.2.resolve_right hc.2

end Commands

/-- A run that solves a group with two points. -/
def pointsSolved : List (Command Float) :=
  [.draw ⟨1⟩ (.point3d ⟨3.0, 0.0, 0.0⟩), .draw ⟨1⟩ (.point3d ⟨0.0, 0.0, 0.0⟩), .solve ⟨1⟩]

/-- A run in which a second group draws the first point away. -/
def pointDraggedAway : List (Command Float) :=
  [.relate ⟨2⟩ (.distance ⟨1⟩ ⟨2⟩ 5.0 none), .solveDragged ⟨2⟩ [⟨1⟩]]

/-- The first group is still flagged as solved after one of its values is dragged away. -/
theorem isSolved_pointDraggedAway :
    ((Sketch.empty .default).runAll .standard (pointsSolved ++ pointDraggedAway)).isSolved ⟨1⟩ ∧
      ∃ t since, SolvedLast .standard (.empty .default) (pointsSolved ++ pointDraggedAway) ⟨1⟩
          t since ∧
        ¬ t.Throughout .standard (fun u c ↦ SameUpTo ⟨1⟩ u (u.step .standard c)) since := by
  refine ⟨by decide +kernel, _, pointDraggedAway,
    ⟨⟨pointsSolved.dropLast, .solve ⟨1⟩, rfl, by decide +kernel, rfl⟩, ?_⟩, ?_⟩
  · exact ⟨by decide +kernel, by decide +kernel, trivial⟩
  · intro h
    have hmoved := congrArg (Option.map Param.value) (h.2.1.2 ⟨1⟩)
    revert hmoved
    decide +kernel

/-- The condition holds of the point that is dragged away. -/
theorem unchanged_since_solved_iff_pointDraggedAway :
    ∃ t since, SolvedLast .standard (.empty .default) (pointsSolved ++ pointDraggedAway) ⟨1⟩
        t since ∧
      t.Throughout .standard (fun u c ↦ SameItems ⟨1⟩ u (u.step .standard c)) since ∧
      (t.Throughout .standard (fun u c ↦ SameValues ⟨1⟩ u (u.step .standard c)) since ↔
        t.Throughout .standard (fun u c ↦ ¬ c.DragsAway .standard u ⟨1⟩) since) :=
  unchanged_since_solved_iff .standard .default (pointsSolved ++ pointDraggedAway) ⟨1⟩
    (by decide +kernel)

end SketchSolver
