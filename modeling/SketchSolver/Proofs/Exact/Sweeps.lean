import Mathlib.Algebra.Order.ToIntervalMod
import Mathlib.Analysis.SpecialFunctions.Trigonometric.Bounds
import SketchSolver.Proofs.Exact.Motion
import SketchSolver.Proofs.Exact.Workplanes

/-!
# Sweeps

An arc runs counter-clockwise from its start to its finish. Its sweep is the difference of their
angles, brought into one turn by two loops: the first adds full turns while the difference is below
a small bound, and the second takes full turns away while it is above a full turn. Both loops end,
and they leave the angle of that direction which is positive and at most a full turn.

The bound of the first loop is there to count ends that nearly coincide as a full turn. For a finish
just behind the start it does. For a finish just ahead of the start, the second loop takes away the
turn that the first one has added, and the sweep stays below the bound.
-/

namespace SketchSolver

open Outcome

/-! ## Loops -/

/-- What a loop makes of a value in the end: it is replaced by the next one as long as the loop goes
on. -/
inductive LoopEnds {α : Type} (goesOn : α → Prop) (next : α → α) : α → α → Prop
  /-- The loop does not go on. -/
  | done {x : α} (h : ¬ goesOn x) : LoopEnds goesOn next x x
  /-- The loop goes on with the next value. -/
  | again {x y : α} (h : goesOn x) (hy : LoopEnds goesOn next (next x) y) : LoopEnds goesOn next x y

namespace LoopEnds

variable {α : Type} {goesOn : α → Prop} {next : α → α} {x y : α}

/-- A loop does not go on at its end. -/
theorem not_goesOn (h : LoopEnds goesOn next x y) : ¬ goesOn y := by
  induction h with
  | done h => exact h
  | again _ _ ih => exact ih

/-- What every step of a loop preserves holds at its end if it holds at its start. -/
theorem preserves {P : α → Prop} (hstep : ∀ z, goesOn z → P z → P (next z))
    (h : LoopEnds goesOn next x y) (hx : P x) : P y := by
  induction h with
  | done _ => exact hx
  | again hgo _ ih => exact ih (hstep _ hgo hx)

end LoopEnds

/-! ## The sweep between two angles -/

/-- Sweeps that the two loops make of a difference of angles. -/
structure IsSweep (difference sweep : ℝ) : Prop where
  /-- Both loops end, the second with the sweep. -/
  loops : ∃ raised, LoopEnds (· < 1e-6) (· + 2 * Real.pi) difference raised ∧
    LoopEnds (2 * Real.pi < ·) (· - 2 * Real.pi) raised sweep
  /-- The sweep differs from the difference by full turns. -/
  turns : ∃ n : ℤ, sweep = difference + n * (2 * Real.pi)
  /-- The sweep is positive. -/
  pos : 0 < sweep
  /-- The sweep is at most a full turn. -/
  le_turn : sweep ≤ 2 * Real.pi
  /-- The sweep is a full turn exactly if the angles are those of one direction. -/
  full : sweep = 2 * Real.pi ↔ ∃ n : ℤ, difference = n * (2 * Real.pi)
  /-- The sweep is below the bound of the first loop exactly if the difference is just above a
  number of full turns. -/
  small : sweep < 1e-6 ↔
    ∃ n : ℤ, 0 < difference + n * (2 * Real.pi) ∧ difference + n * (2 * Real.pi) < 1e-6

namespace Sketch

variable {x : ℝ}

/-- Comparing with the bound below which a turn is added. -/
theorem addTurn_eq (x : ℝ) : addTurn x = if x < 1e-6 then x + 2 * Real.pi else x := by
  unfold addTurn
  rw [Arith.real_two]
  rfl

/-- Comparing with the full turn above which one is taken away. -/
theorem dropTurn_eq (x : ℝ) :
    dropTurn x = if 2 * Real.pi < x then x - 2 * Real.pi else x := by
  unfold dropTurn
  rw [Arith.real_two]
  rfl

private theorem small_lt_pi : (1e-6 : ℝ) < Real.pi := by
  have h := Real.two_le_pi
  norm_num
  linarith

/-- From a difference above minus a full turn, the first loop ends after at most two turns. -/
theorem loopEnds_addTurn (h : -(2 * Real.pi) < x) :
    LoopEnds (· < 1e-6) (· + 2 * Real.pi) x (addTurn (addTurn x)) := by
  have hsmall := small_lt_pi
  have hpi := Real.pi_pos
  rw [addTurn_eq x]
  split
  · next hx =>
    refine .again hx ?_
    rw [addTurn_eq]
    split
    · next hxx => exact .again hxx (.done (by linarith))
    · next hxx => exact .done hxx
  · next hx =>
    rw [addTurn_eq, if_neg hx]
    exact .done hx

/-- From a value of at most two full turns, the second loop ends after at most one turn. -/
theorem loopEnds_dropTurn (h : x ≤ 2 * (2 * Real.pi)) :
    LoopEnds (2 * Real.pi < ·) (· - 2 * Real.pi) x (dropTurn x) := by
  rw [dropTurn_eq]
  split
  · next hx => exact .again hx (.done (by linarith))
  · next hx => exact .done hx

private theorem eq_of_turns {d a b : ℝ} (ha : 0 < a ∧ a ≤ 2 * Real.pi)
    (hb : 0 < b ∧ b ≤ 2 * Real.pi) (hda : ∃ n : ℤ, a = d + n * (2 * Real.pi))
    (hdb : ∃ n : ℤ, b = d + n * (2 * Real.pi)) : a = b := by
  have hmod : ∀ c : ℝ, (0 < c ∧ c ≤ 2 * Real.pi) → (∃ n : ℤ, c = d + n * (2 * Real.pi)) →
      toIocMod Real.two_pi_pos 0 d = c := by
    rintro c hc ⟨n, hn⟩
    rw [toIocMod_eq_iff, zero_add]
    refine ⟨hc, -n, ?_⟩
    rw [hn, zsmul_eq_mul, Int.cast_neg, neg_mul, add_neg_cancel_right]
  rw [← hmod a ha hda, hmod b hb hdb]

private theorem eq_turn_iff {d a : ℝ} (ha : 0 < a ∧ a ≤ 2 * Real.pi)
    (hda : ∃ n : ℤ, a = d + n * (2 * Real.pi)) :
    a = 2 * Real.pi ↔ ∃ n : ℤ, d = n * (2 * Real.pi) := by
  constructor
  · rintro rfl
    obtain ⟨n, hn⟩ := hda
    refine ⟨1 - n, ?_⟩
    push_cast
    linear_combination -hn
  · rintro ⟨n, rfl⟩
    refine eq_of_turns ha ⟨Real.two_pi_pos, le_rfl⟩ hda ⟨1 - n, ?_⟩
    push_cast
    ring

private theorem lt_bound_iff {d a : ℝ} (ha : 0 < a ∧ a ≤ 2 * Real.pi)
    (hda : ∃ n : ℤ, a = d + n * (2 * Real.pi)) :
    a < 1e-6 ↔ ∃ n : ℤ, 0 < d + n * (2 * Real.pi) ∧ d + n * (2 * Real.pi) < 1e-6 := by
  constructor
  · intro hlt
    obtain ⟨n, rfl⟩ := hda
    exact ⟨n, ha.1, hlt⟩
  · rintro ⟨n, hn, hlt⟩
    have hturn : d + n * (2 * Real.pi) ≤ 2 * Real.pi := by linarith [small_lt_pi, Real.pi_pos]
    exact (eq_of_turns ha ⟨hn, hturn⟩ hda ⟨n, rfl⟩).trans_lt hlt

/-- The sweep between two angles of one turn is what the two loops make of their difference. -/
theorem isSweep_sweepBetween {a b : ℝ} (ha : a ∈ Set.Ioc (-Real.pi) Real.pi)
    (hb : b ∈ Set.Ioc (-Real.pi) Real.pi) : IsSweep (b - a) (sweepBetween a b) := by
  have hsmall := small_lt_pi
  have hpi := Real.pi_pos
  have hlow : -(2 * Real.pi) < b - a := by linarith [hb.1, ha.2]
  have hhigh : b - a < 2 * Real.pi := by linarith [hb.2, ha.1]
  have hfirst := loopEnds_addTurn hlow
  -- A turn is added only below the bound, so at most a turn more than the bound is reached.
  have hbound : addTurn (addTurn (b - a)) ≤ 2 * (2 * Real.pi) :=
    hfirst.preserves (P := (· ≤ 2 * (2 * Real.pi))) (fun z hz _ ↦ by linarith) (by linarith)
  have hsecond := loopEnds_dropTurn hbound
  have hpos : 0 < sweepBetween a b :=
    hsecond.preserves (P := (0 < ·)) (fun z hz _ ↦ sub_pos.mpr hz)
      (lt_of_lt_of_le (by norm_num) (not_lt.mp hfirst.not_goesOn))
  have hle : sweepBetween a b ≤ 2 * Real.pi := not_lt.mp hsecond.not_goesOn
  have hraised : ∃ n : ℤ, addTurn (addTurn (b - a)) = b - a + n * (2 * Real.pi) := by
    refine hfirst.preserves (P := fun z ↦ ∃ n : ℤ, z = b - a + n * (2 * Real.pi)) ?_
      ⟨0, by rw [Int.cast_zero, zero_mul, add_zero]⟩
    rintro z - ⟨n, rfl⟩
    exact ⟨n + 1, by push_cast; ring⟩
  have hturns : ∃ n : ℤ, sweepBetween a b = b - a + n * (2 * Real.pi) := by
    refine hsecond.preserves (P := fun z ↦ ∃ n : ℤ, z = b - a + n * (2 * Real.pi)) ?_ hraised
    rintro z - ⟨n, rfl⟩
    exact ⟨n - 1, by push_cast; ring⟩
  exact ⟨⟨_, hfirst, hsecond⟩, hturns, hpos, hle, eq_turn_iff ⟨hpos, hle⟩ hturns,
    lt_bound_iff ⟨hpos, hle⟩ hturns⟩

/-! ## Arcs -/

/-- The angle of a displacement, measured in the plane of a quaternion. -/
noncomputable def angleIn (q : Quaternion ℝ) (d : Vec3 ℝ) : ℝ :=
  Arith.atan2 (d.dot q.axisV) (d.dot q.axisU)

/-- An angle is within half a turn. -/
theorem angleIn_mem (q : Quaternion ℝ) (d : Vec3 ℝ) :
    angleIn q d ∈ Set.Ioc (-Real.pi) Real.pi := Complex.arg_mem_Ioc _

/-- In the plane of a quaternion, the angle of a displacement is that of its numbers. -/
theorem angleIn_displacement {o : Vec3 ℝ} {q : Quaternion ℝ} (h : q.lengthSquared = 1) (x y : ℝ) :
    angleIn q ((Plane.about o q h).displacement x y) = Complex.arg ⟨x, y⟩ := by
  have hu := Plane.displacement_dot_u (P := .about o q h) (x := x) (y := y)
  have hv := Plane.displacement_dot_v (P := .about o q h) (x := x) (y := y)
  exact congrArg₂ Arith.atan2 hv hu

/-- Whether an arc has a given quaternion as its normal, and given positions as its center, start
and finish, at an assignment. -/
def ArcAt (s : Sketch ℝ) (v : ParamId → ℝ) (k : EntityId) (q : Quaternion ℝ)
    (center start finish : Vec3 ℝ) : Prop :=
  ∃ e n c a b qe, s.entities.find? k = some e ∧ e.shape = .arc n c a b ∧
    s.normalQuaternion n = .ok qe ∧ qe.eval v = q ∧ s.StandsAt v c center ∧
    s.StandsAt v a start ∧ s.StandsAt v b finish

variable {s : Sketch ℝ} {v : ParamId → ℝ} {k : EntityId} {q : Quaternion ℝ}
  {center start finish : Vec3 ℝ}

/-- Every arc has a normal and positions. -/
theorem Linked.exists_arcAt (h : s.Linked) (hp : s.Placed) {e : Entity} {n c a b : EntityId}
    (hk : s.entities.find? k = some e) (hshape : e.shape = .arc n c a b) :
    ∃ q center start finish, s.ArcAt v k q center start finish := by
  have hshares := h.shares (g := e.group) hp (.refl _ _) (.refl _ _)
  have hread := h.readable_entity hp hk (Nat.le_refl _)
  have hpoint : ∀ j, j = c ∨ j = a ∨ j = b → ∃ p, s.StandsAt v j p := by
    intro j hj
    obtain ⟨x, hx, _⟩ := hshares.pointExprs (hread.point (k := j)
      (by rcases hj with rfl | rfl | rfl <;> simp [hshape, Shape.demands]))
    exact ⟨_, x, hx, rfl⟩
  have hnormal : s.Offers (s.HasEntity e.group) (n, Entity.isNormal3d) :=
    hread.part (by simp [hshape, Shape.demands])
  obtain ⟨qe, hq, _⟩ := hshares.normalQuaternion hnormal.isNormal
  obtain ⟨center, hcenter⟩ := hpoint c (by simp)
  obtain ⟨start, hstart⟩ := hpoint a (by simp)
  obtain ⟨finish, hfinish⟩ := hpoint b (by simp)
  exact ⟨_, center, start, finish, e, n, c, a, b, qe, hk, hshape, hq, rfl, hcenter, hstart,
    hfinish⟩

/-- An arc has one normal and one set of positions. -/
theorem ArcAt.unique {q' : Quaternion ℝ} {center' start' finish' : Vec3 ℝ}
    (h : s.ArcAt v k q center start finish) (h' : s.ArcAt v k q' center' start' finish') :
    q = q' ∧ center = center' ∧ start = start' ∧ finish = finish' := by
  obtain ⟨e, n, c, a, b, qe, hk, hshape, hq, rfl, hc, ha, hb⟩ := h
  obtain ⟨e', n', c', a', b', qe', hk', hshape', hq', rfl, hc', ha', hb'⟩ := h'
  cases hk.symm.trans hk'
  cases hshape.symm.trans hshape'
  cases hq.symm.trans hq'
  exact ⟨rfl, hc.unique hc', ha.unique ha', hb.unique hb'⟩

/-- The current position of a point is where it stands. -/
theorem StandsAt.position {p : Vec3 ℝ} (h : s.StandsAt s.value k p) : s.position k = .ok p := by
  obtain ⟨e, he, rfl⟩ := h
  exact bind_eq_ok_iff.mpr ⟨_, he, rfl⟩

/-- The angles of an arc are those of its ends from its center, in the plane of its normal. -/
theorem ArcAt.arcAngles (h : s.ArcAt s.value k q center start finish) :
    s.arcAngles k = .ok ⟨angleIn q (start - center), angleIn q (finish - center),
      sweepBetween (angleIn q (start - center)) (angleIn q (finish - center))⟩ := by
  obtain ⟨⟨id, j, wp, _⟩, n, c, a, b, qe, hk, rfl, hq, rfl, hc, ha, hb⟩ := h
  unfold angleIn
  rw [← Quaternion.eval_rotationU, ← Quaternion.eval_rotationV]
  exact bind_eq_ok_iff.mpr ⟨_, entity_of_find? hk, bind_eq_ok_iff.mpr ⟨_, hq,
    bind_eq_ok_iff.mpr ⟨_, hc.position, bind_eq_ok_iff.mpr ⟨_, ha.position,
      bind_eq_ok_iff.mpr ⟨_, hb.position, rfl⟩⟩⟩⟩⟩

/-- In every sketch that comes about, the angles of every arc are found. They are within half a turn
each, and the sweep is what the two loops make of their difference. -/
theorem Reachable.exists_isSweep {la : LinearAlgebra ℝ} (hs : s.Reachable la) {e : Entity}
    {n c a b : EntityId} (hk : s.entities.find? k = some e) (hshape : e.shape = .arc n c a b) :
    ∃ angles, s.arcAngles k = .ok angles ∧ angles.start ∈ Set.Ioc (-Real.pi) Real.pi ∧
      angles.finish ∈ Set.Ioc (-Real.pi) Real.pi ∧
      IsSweep (angles.finish - angles.start) angles.sweep := by
  obtain ⟨hlinked, hplaced⟩ := hs.linked_placed
  obtain ⟨q, center, start, finish, harc⟩ := hlinked.exists_arcAt (v := s.value) hplaced hk hshape
  exact ⟨_, harc.arcAngles, angleIn_mem _ _, angleIn_mem _ _,
    isSweep_sweepBetween (angleIn_mem _ _) (angleIn_mem _ _)⟩

end Sketch

/-! ## An arc that hardly opens -/

/-- An arc about the origin of a tilted plane, from the point one unit along the first direction to
the point with given coordinates. -/
noncomputable def arcTo (x y : ℝ) : Sketch ℝ :=
  (Sketch.empty .default).runAll .exact
    [.draw ⟨1⟩ (.normal3d ⟨0.5, 0.5, 0.5, 0.5⟩), .draw ⟨1⟩ (.point3d ⟨1.0, 2.0, 3.0⟩),
      .draw ⟨1⟩ (.workplane ⟨2⟩ ⟨1⟩), .draw ⟨1⟩ (.point2d ⟨3⟩ 0.0 0.0),
      .draw ⟨1⟩ (.point2d ⟨3⟩ 1.0 0.0), .draw ⟨1⟩ (.point2d ⟨3⟩ x y),
      .draw ⟨1⟩ (.arc ⟨3⟩ ⟨1⟩ ⟨4⟩ ⟨5⟩ ⟨6⟩)]

/-- The normal of the plane of the arc. -/
noncomputable def arcNormal : Quaternion ℝ := ⟨0.5, 0.5, 0.5, 0.5⟩

/-- The normal has length one. -/
theorem lengthSquared_arcNormal : arcNormal.lengthSquared = 1 := by
  norm_num [arcNormal, Quaternion.lengthSquared]

/-- The plane of the arc. -/
noncomputable def arcPlane : Plane := .about ⟨1.0, 2.0, 3.0⟩ arcNormal lengthSquared_arcNormal

section

variable (x y : ℝ)

private theorem arcTo_eq : arcTo x y =
    ((Sketch.empty .default).addEntity ⟨1⟩ none (.normal3d 0.5 0.5 0.5 0.5)).2.runAll .exact
      [.draw ⟨1⟩ (.point3d ⟨1.0, 2.0, 3.0⟩), .draw ⟨1⟩ (.workplane ⟨2⟩ ⟨1⟩),
        .draw ⟨1⟩ (.point2d ⟨3⟩ 0.0 0.0), .draw ⟨1⟩ (.point2d ⟨3⟩ 1.0 0.0),
        .draw ⟨1⟩ (.point2d ⟨3⟩ x y), .draw ⟨1⟩ (.arc ⟨3⟩ ⟨1⟩ ⟨4⟩ ⟨5⟩ ⟨6⟩)] := by
  have hstep := Sketch.step_draw_normal3d .exact (Sketch.empty .default) ⟨1⟩ lengthSquared_arcNormal
  rw [arcTo, Sketch.runAll, List.foldl_cons]
  exact congrArg (List.foldl _ · _) hstep

private theorem contents_arcTo : (arcTo x y).entities.values =
    [⟨⟨1⟩, ⟨1⟩, none, .normal3d ⟨1⟩ ⟨2⟩ ⟨3⟩ ⟨4⟩⟩, ⟨⟨2⟩, ⟨1⟩, none, .point3d ⟨5⟩ ⟨6⟩ ⟨7⟩⟩,
      ⟨⟨3⟩, ⟨1⟩, none, .workplane ⟨2⟩ ⟨1⟩⟩, ⟨⟨4⟩, ⟨1⟩, some ⟨3⟩, .point2d ⟨8⟩ ⟨9⟩⟩,
      ⟨⟨5⟩, ⟨1⟩, some ⟨3⟩, .point2d ⟨10⟩ ⟨11⟩⟩, ⟨⟨6⟩, ⟨1⟩, some ⟨3⟩, .point2d ⟨12⟩ ⟨13⟩⟩,
      ⟨⟨7⟩, ⟨1⟩, some ⟨3⟩, .arc ⟨1⟩ ⟨4⟩ ⟨5⟩ ⟨6⟩⟩] := by
  rw [arcTo_eq]
  rfl

/-- The arc comes about. -/
theorem reachable_arcTo : (arcTo x y).Reachable .exact := ⟨.default, _, rfl⟩

/-- The arc is listed. -/
theorem find?_arcTo : (arcTo x y).entities.find? ⟨7⟩ =
    some ⟨⟨7⟩, ⟨1⟩, some ⟨3⟩, .arc ⟨1⟩ ⟨4⟩ ⟨5⟩ ⟨6⟩⟩ := by
  rw [arcTo_eq]
  rfl

private theorem value_arcTo :
    ((Quaternion.ofParams ⟨1⟩ ⟨2⟩ ⟨3⟩ ⟨4⟩).eval (arcTo x y).value = arcNormal ∧
      (Vec3.ofParams ⟨5⟩ ⟨6⟩ ⟨7⟩).eval (arcTo x y).value = ⟨1.0, 2.0, 3.0⟩) ∧
    ((arcTo x y).value ⟨8⟩ = 0.0 ∧ (arcTo x y).value ⟨9⟩ = 0.0) ∧
    ((arcTo x y).value ⟨10⟩ = 1.0 ∧ (arcTo x y).value ⟨11⟩ = 0.0) ∧
    (arcTo x y).value ⟨12⟩ = x ∧ (arcTo x y).value ⟨13⟩ = y := by
  rw [arcTo_eq]
  exact ⟨⟨rfl, rfl⟩, ⟨rfl, rfl⟩, ⟨rfl, rfl⟩, rfl, rfl⟩

/-- The arc is in its plane. -/
theorem arcAt_arcTo : (arcTo x y).ArcAt (arcTo x y).value ⟨7⟩ arcNormal (arcPlane.point 0 0)
    (arcPlane.point 1 0) (arcPlane.point x y) := by
  have hfind := (reachable_arcTo x y).wellNumbered.entities.find?_of_mem
  simp only [contents_arcTo, List.forall_mem_cons] at hfind
  obtain ⟨hnormal, horigin, hplane, hcenter, hstart, hfinish, harc, _⟩ := hfind
  obtain ⟨⟨hq, ho⟩, ⟨hcu, hcv⟩, ⟨hau, hav⟩, hbu, hbv⟩ := value_arcTo x y
  have hlies : (arcTo x y).LiesAs (arcTo x y).value ⟨3⟩ arcPlane := by
    have habout := Sketch.liesAs_about (v := (arcTo x y).value)
      (bind_eq_ok_iff.mpr ⟨_, Sketch.entity_of_find? hplane, rfl⟩)
      (bind_eq_ok_iff.mpr ⟨_, Sketch.entity_of_find? hnormal, rfl⟩)
      (bind_eq_ok_iff.mpr ⟨_, Sketch.entity_of_find? horigin, rfl⟩)
      (hq ▸ lengthSquared_arcNormal)
    simp only [hq, ho] at habout
    exact habout
  refine ⟨_, _, _, _, _, _, harc, rfl, bind_eq_ok_iff.mpr ⟨_, Sketch.entity_of_find? hnormal, rfl⟩,
    hq, ?_, ?_, ?_⟩
  · have h := hlies.standsAt ⟨_, hcenter, rfl, rfl⟩
    rwa [hcu, hcv, Arith.real_zero] at h
  · have h := hlies.standsAt ⟨_, hstart, rfl, rfl⟩
    rwa [hau, hav, Arith.real_zero, Arith.real_one] at h
  · have h := hlies.standsAt ⟨_, hfinish, rfl, rfl⟩
    rwa [hbu, hbv] at h

end

/-- A quarter of a turn is a sweep. -/
theorem exists_isSweep_arcTo : (arcTo 0 1).Reachable .exact ∧
    (arcTo 0 1).entities.find? ⟨7⟩ = some ⟨⟨7⟩, ⟨1⟩, some ⟨3⟩, .arc ⟨1⟩ ⟨4⟩ ⟨5⟩ ⟨6⟩⟩ ∧
    ∃ angles, (arcTo 0 1).arcAngles ⟨7⟩ = .ok angles ∧
      angles.start ∈ Set.Ioc (-Real.pi) Real.pi ∧ angles.finish ∈ Set.Ioc (-Real.pi) Real.pi ∧
      IsSweep (angles.finish - angles.start) angles.sweep :=
  ⟨reachable_arcTo 0 1, find?_arcTo 0 1, (reachable_arcTo 0 1).exists_isSweep (find?_arcTo 0 1) rfl⟩

private theorem arg_ahead : 0 < Complex.arg ⟨1, 1e-7⟩ ∧ Complex.arg ⟨1, 1e-7⟩ < 1e-6 := by
  have hnonneg : 0 ≤ Complex.arg ⟨1, 1e-7⟩ := Complex.arg_nonneg_iff.mpr (by norm_num)
  have hacute : |Complex.arg ⟨1, 1e-7⟩| < Real.pi / 2 :=
    Complex.abs_arg_lt_pi_div_two_iff.mpr (.inl one_pos)
  have htan : Real.tan (Complex.arg ⟨1, 1e-7⟩) = 1e-7 := (Complex.tan_arg _).trans (div_one _)
  have hpos : 0 < Complex.arg ⟨1, 1e-7⟩ := by
    refine lt_of_le_of_ne hnonneg fun hzero ↦ ?_
    rw [← hzero, Real.tan_zero] at htan
    norm_num at htan
  refine ⟨hpos, (Real.lt_tan hpos (abs_lt.mp hacute).2).trans ?_⟩
  rw [htan]
  norm_num

/-- An arc whose finish is a little ahead of its start has a sweep below the bound of the first
loop, and does not count as a full turn. -/
theorem sweep_small_arcTo : (arcTo 1 1e-7).Reachable .exact ∧
    ∃ angles, (arcTo 1 1e-7).arcAngles ⟨7⟩ = .ok angles ∧ 0 < angles.sweep ∧
      angles.sweep < 1e-6 := by
  have hstart : Sketch.angleIn arcNormal (arcPlane.point 1 0 - arcPlane.point 0 0) = 0 := by
    rw [Plane.point_sub_point, arcPlane, Sketch.angleIn_displacement, sub_zero, sub_zero]
    exact Complex.arg_ofReal_of_nonneg zero_le_one
  have hfinish : Sketch.angleIn arcNormal (arcPlane.point 1 1e-7 - arcPlane.point 0 0) =
      Complex.arg ⟨1, 1e-7⟩ := by
    rw [Plane.point_sub_point, arcPlane, Sketch.angleIn_displacement, sub_zero, sub_zero]
  have hsweep := Sketch.isSweep_sweepBetween
    (Sketch.angleIn_mem arcNormal (arcPlane.point 1 0 - arcPlane.point 0 0))
    (Sketch.angleIn_mem arcNormal (arcPlane.point 1 1e-7 - arcPlane.point 0 0))
  refine ⟨reachable_arcTo 1 1e-7, _, (arcAt_arcTo 1 1e-7).arcAngles, hsweep.pos,
    hsweep.small.mpr ⟨0, ?_⟩⟩
  rw [hstart, hfinish, sub_zero, Int.cast_zero, zero_mul, add_zero]
  exact arg_ahead

end SketchSolver
