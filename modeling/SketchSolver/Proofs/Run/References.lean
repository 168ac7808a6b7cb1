import SketchSolver.Command

/-!
# References

What an entity or a constraint demands of the entities that it refers to: of which kind they are,
and for the points of a shape in which workplane they lie. A request that is accepted has looked at
each of its arguments, so the item that comes of it finds its demands met.
-/

namespace SketchSolver

variable {R P : Type}

/-! ## Demands -/

/-- An entity that an item refers to, and which entities will do in its place. -/
abbrev Demand := EntityId × (Entity → Bool)

/-- Whether the entity is a point of a workplane, or a point in space if there is no workplane. -/
def Entity.isPointOf (wp : Option EntityId) (e : Entity) : Bool :=
  match wp with
  | none => e.isPoint3d
  | some w => e.isPoint2d && decide (e.workplane = some w)

/-- Whether the entity is the line in a workplane between two points. -/
def Entity.isLineBetween (a b : EntityId) (e : Entity) : Bool :=
  e.isLine2d && decide (e.shape = .line a b)

/-- Whether the entity is an arc or a cubic curve. -/
def Entity.isBent (e : Entity) : Bool := e.isArc || e.isCubic

/-- What is demanded of the workplane of an item. -/
def workplaneDemands (wp : Option EntityId) : List Demand :=
  wp.toList.map fun w ↦ (w, Entity.isWorkplane)

/-- What a shape drawn in a workplane or in space demands of its parts. -/
def Shape.demands (wp : Option EntityId) : Shape P → List Demand
  | .workplane origin normal => [(origin, Entity.isPoint3d), (normal, Entity.isNormal3d)]
  | .line a b => [(a, Entity.isPointOf wp), (b, Entity.isPointOf wp)]
  | .cubic a b c d =>
    [(a, Entity.isPointOf wp), (b, Entity.isPointOf wp), (c, Entity.isPointOf wp),
      (d, Entity.isPointOf wp)]
  | .circle center normal radius =>
    [(center, Entity.isPointOf wp), (normal, Entity.isNormal3d), (radius, Entity.isDistance)]
  | .arc normal center start finish =>
    [(normal, Entity.isNormal3d), (center, Entity.isPointOf wp), (start, Entity.isPointOf wp),
      (finish, Entity.isPointOf wp)]
  | _ => []

/-- What a relation demands of the entities that it is between. -/
def Relation.demands : Relation R P → List Demand
  | pointsCoincident a b => [(a, Entity.isPoint), (b, Entity.isPoint)]
  | pointInPlane point plane => [(point, Entity.isPoint), (plane, Entity.isWorkplane)]
  | pointOnLine point line _ => [(point, Entity.isPoint), (line, Entity.isLine)]
  | pointOnCircle point circle => [(point, Entity.isPoint), (circle, Entity.isCircle)]
  | pointPointDistance a b _ => [(a, Entity.isPoint), (b, Entity.isPoint)]
  | projectedPointDistance a b direction _ =>
    [(a, Entity.isPoint), (b, Entity.isPoint), (direction, Entity.hasVector)]
  | pointPlaneDistance point plane _ => [(point, Entity.isPoint), (plane, Entity.isWorkplane)]
  | pointLineDistance point line _ => [(point, Entity.isPoint), (line, Entity.isLine)]
  | equalLength a b => [(a, Entity.isLine), (b, Entity.isLine)]
  | lengthRatio a b _ => [(a, Entity.isLine), (b, Entity.isLine)]
  | lengthDifference a b _ => [(a, Entity.isLine), (b, Entity.isLine)]
  | equalLengthPointLineDistance line point otherLine =>
    [(line, Entity.isLine), (point, Entity.isPoint), (otherLine, Entity.isLine)]
  | equalPointLineDistances pointA lineA pointB lineB =>
    [(pointA, Entity.isPoint), (lineA, Entity.isLine), (pointB, Entity.isPoint),
      (lineB, Entity.isLine)]
  | equalLineArcLength line arc => [(line, Entity.isLine), (arc, Entity.isCircle)]
  | equalRadius a b => [(a, Entity.isCircle), (b, Entity.isCircle)]
  | diameter circle _ => [(circle, Entity.isCircle)]
  | symmetric a b plane => [(a, Entity.isPoint), (b, Entity.isPoint), (plane, Entity.isWorkplane)]
  | symmetricHorizontal a b => [(a, Entity.isPoint2d), (b, Entity.isPoint2d)]
  | symmetricVertical a b => [(a, Entity.isPoint2d), (b, Entity.isPoint2d)]
  | symmetricLine a b line => [(a, Entity.isPoint), (b, Entity.isPoint), (line, Entity.isLine)]
  | pointAtMidpoint point line => [(point, Entity.isPoint), (line, Entity.isLine)]
  | midpointInPlane line plane => [(line, Entity.isLine), (plane, Entity.isWorkplane)]
  | horizontal (some line) a b => [(line, Entity.isLineBetween a b)]
  | horizontal none a b => [(a, Entity.isPoint2d), (b, Entity.isPoint2d)]
  | vertical (some line) a b => [(line, Entity.isLineBetween a b)]
  | vertical none a b => [(a, Entity.isPoint2d), (b, Entity.isPoint2d)]
  | sameOrientation a b _ => [(a, Entity.isNormal3d), (b, Entity.isNormal3d)]
  | angle a b _ _ => [(a, Entity.hasVector), (b, Entity.hasVector)]
  | perpendicular a b _ => [(a, Entity.hasVector), (b, Entity.hasVector)]
  | equalAngle a b c d _ =>
    [(a, Entity.hasVector), (b, Entity.hasVector), (c, Entity.hasVector), (d, Entity.hasVector)]
  | parallel a b _ => [(a, Entity.hasVector), (b, Entity.hasVector)]
  | arcLineTangent arc line _ => [(arc, Entity.isArc), (line, Entity.isLine)]
  | cubicLineTangent cubic line _ _ => [(cubic, Entity.isCubic), (line, Entity.isLine)]
  | curveCurveTangent a b _ _ => [(a, Entity.isBent), (b, Entity.isBent)]
  | whereDragged point => [(point, Entity.isPoint)]

/-- The points that a relation of a line keeps beside the line. -/
def Relation.ends : Relation R P → List EntityId
  | horizontal (some _) a b => [a, b]
  | vertical (some _) a b => [a, b]
  | _ => []

/-- What an entity demands of its workplane and its parts. -/
def Entity.demands (e : Entity) : List Demand :=
  workplaneDemands e.workplane ++ e.shape.demands e.workplane

/-- What a constraint demands of its workplane and the entities that it is between. -/
def Constraint.demands (c : Constraint R) : List Demand :=
  workplaneDemands c.workplane ++ c.relation.demands

/-- A shape demands the same whatever stands for its parameters. -/
theorem Shape.demands_numbered (wp : Option EntityId) (n : Nat) (shape : Shape P) :
    (shape.numbered n).demands wp = shape.demands wp := by
  cases shape <;> rfl

/-- A relation demands the same whatever stands for its auxiliary unknown. -/
theorem Relation.demands_mapAux {Q : Type} (f : P → Q) (r : Relation R P) :
    (r.mapAux f).demands = r.demands := by
  cases r with
  | horizontal line a b => cases line <;> rfl
  | vertical line a b => cases line <;> rfl
  | _ => rfl

private theorem map_fst_workplaneDemands (wp : Option EntityId) :
    (workplaneDemands wp).map Prod.fst = wp.toList := by
  cases wp <;> rfl

/-- An entity makes a demand of each entity that it refers to. -/
theorem Entity.map_fst_demands (e : Entity) : e.demands.map Prod.fst = e.references := by
  rw [demands, List.map_append, map_fst_workplaneDemands, references]
  congr 1
  cases e.shape <;> rfl

/-- A constraint makes a demand of each entity that it refers to. -/
theorem Constraint.map_fst_demands (c : Constraint R) : c.demands.map Prod.fst = c.references := by
  rw [demands, List.map_append, map_fst_workplaneDemands, references]
  congr 1
  cases c.relation with
  | horizontal line a b => cases line <;> rfl
  | vertical line a b => cases line <;> rfl
  | _ => rfl

/-- What an entity makes a demand of is among its references. -/
theorem Entity.fst_mem_references {e : Entity} {d : Demand} (hd : d ∈ e.demands) :
    d.1 ∈ e.references := e.map_fst_demands ▸ List.mem_map_of_mem hd

/-- What a constraint makes a demand of is among its references. -/
theorem Constraint.fst_mem_references {c : Constraint R} {d : Demand} (hd : d ∈ c.demands) :
    d.1 ∈ c.references := c.map_fst_demands ▸ List.mem_map_of_mem hd

/-! ## Demands that are met -/

namespace Sketch

/-- A demand of an item of a group is met by an entity of it or an earlier group. -/
def Meets (s : Sketch R) (g : GroupId) (d : Demand) : Prop :=
  ∃ e, s.entities.find? d.1 = some e ∧ d.2 e = true ∧ e.group ≤ g

/-- All demands of an item of a group are met. -/
def MeetsAll (s : Sketch R) (g : GroupId) (ds : List Demand) : Prop := ∀ d ∈ ds, s.Meets g d

variable {s : Sketch R} {g : GroupId}

/-- Nothing is demanded. -/
theorem meetsAll_nil : s.MeetsAll g [] := fun _ hd ↦ absurd hd List.not_mem_nil

/-- One more demand is met. -/
theorem meetsAll_cons {d : Demand} {ds : List Demand} (hd : s.Meets g d) (hds : s.MeetsAll g ds) :
    s.MeetsAll g (d :: ds) := List.forall_mem_cons.mpr ⟨hd, hds⟩

/-- Two lists of demands are met. -/
theorem meetsAll_append {ds es : List Demand} (hds : s.MeetsAll g ds) (hes : s.MeetsAll g es) :
    s.MeetsAll g (ds ++ es) := List.forall_mem_append.mpr ⟨hds, hes⟩

/-- The demand of a workplane is met. -/
theorem meetsAll_workplane {w : EntityId} (h : s.Meets g (w, Entity.isWorkplane)) :
    s.MeetsAll g (workplaneDemands (some w)) := meetsAll_cons h meetsAll_nil

/-- What meets a demand meets a weaker one. -/
theorem Meets.imp {id : EntityId} {p q : Entity → Bool} (h : s.Meets g (id, p))
    (hpq : ∀ e, p e = true → q e = true) : s.Meets g (id, q) := by
  obtain ⟨e, he, hp, hle⟩ := h
  exact ⟨e, he, hpq e hp, hle⟩

/-- A demand is met for a later group if it is met for an earlier one. -/
theorem Meets.of_le {h : GroupId} {d : Demand} (hd : s.Meets g d) (hgh : g ≤ h) : s.Meets h d := by
  obtain ⟨e, he, hp, hle⟩ := hd
  exact ⟨e, he, hp, Nat.le_trans hle hgh⟩

/-- A demand stays met if no entity changes or goes away. -/
theorem Meets.mono {t : Sketch R} {d : Demand} (h : s.Meets g d)
    (hst : ∀ k e, s.entities.find? k = some e → t.entities.find? k = some e) : t.Meets g d := by
  obtain ⟨e, he, hp, hle⟩ := h
  exact ⟨e, hst d.1 e he, hp, hle⟩

/-! ## Arguments -/

/-- An argument is accepted exactly if the entity is there, of the kind, and of no later group. -/
theorem require_eq_ok_iff {role : String} {kind : EntityClass} {id : EntityId} {e : Entity} :
    s.require g role kind id = .ok e ↔
      s.entities.find? id = some e ∧ kind.holds e = true ∧ e.group ≤ g := by
  rw [require, Outcome.bind_eq_ok_iff]
  have hentity : ∀ e, s.entity id = .ok e ↔ s.entities.find? id = some e := by
    intro e
    unfold entity
    cases s.entities.find? id <;> simp
  simp only [hentity]
  constructor
  · rintro ⟨a, ha, h⟩
    by_cases hkind : kind.holds a = true
    · by_cases hgroup : g < a.group
      · simp [hkind, hgroup] at h
      · simp only [hkind, Bool.not_true, Bool.false_eq_true, if_false, hgroup] at h
        cases h
        exact ⟨ha, hkind, Nat.not_lt.mp hgroup⟩
    · simp [hkind] at h
  · rintro ⟨he, hkind, hle⟩
    refine ⟨e, he, ?_⟩
    simp [hkind, GroupId.lt_def, Nat.not_lt.mpr (GroupId.le_def.mp hle)]

/-- An argument that is accepted meets the demand of its role. -/
theorem meets_of_require {role : String} {kind : EntityClass} {id : EntityId} {e : Entity}
    (h : s.require g role kind id = .ok e) : s.Meets g (id, kind.holds) :=
  ⟨e, require_eq_ok_iff.mp h⟩

/-- A point that is accepted as one of a workplane is one. -/
theorem meets_of_requirePointIn {wp id : EntityId} {role operation : String} {e : Entity}
    (h : s.requirePointIn g wp role operation id = .ok e) :
    s.Meets g (id, Entity.isPointOf (some wp)) := by
  obtain ⟨a, ha, h⟩ := Outcome.bind_eq_ok_iff.mp h
  split at h
  · next hwp =>
    obtain ⟨hfound, hkind, hle⟩ := require_eq_ok_iff.mp ha
    have hpoint : a.isPoint2d = true := hkind
    refine ⟨a, hfound, ?_, hle⟩
    simp [Entity.isPointOf, hpoint, hwp]
  · cases h

/-- A workplane that is accepted is one. -/
theorem meetsAll_of_checkWorkplane {wp : Option EntityId} (h : s.checkWorkplane g wp = .ok ()) :
    s.MeetsAll g (workplaneDemands wp) := by
  cases wp with
  | none => exact meetsAll_nil
  | some w =>
    obtain ⟨_, hw, _⟩ := Outcome.bind_eq_ok_iff.mp h
    exact meetsAll_workplane (meets_of_require hw)

private theorem meetsAll_of_requireEach {A : Type} {x y : A}
    (args : List (String × EntityClass × EntityId))
    (h : args.foldr (fun (role, kind, id) next ↦ s.require g role kind id >>= fun _ ↦ next)
      (.ok x) = .ok y) :
    y = x ∧ s.MeetsAll g (args.map fun (_, kind, id) ↦ (id, kind.holds)) := by
  induction args with
  | nil => exact ⟨(Except.ok.inj h).symm, meetsAll_nil⟩
  | cons arg args ih =>
    obtain ⟨_, hfirst, hrest⟩ := Outcome.bind_eq_ok_iff.mp h
    obtain ⟨hplan, hmet⟩ := ih hrest
    exact ⟨hplan, meetsAll_cons (meets_of_require hfirst) hmet⟩

private theorem meetsAll_of_requireIn {A : Type} {x y : A} {wp : Option EntityId}
    (args : List (String × EntityClass × EntityId))
    (h : (s.checkWorkplane g wp >>= fun _ ↦
      args.foldr (fun (role, kind, id) next ↦ s.require g role kind id >>= fun _ ↦ next)
        (.ok x)) = .ok y) :
    y = x ∧
      s.MeetsAll g (workplaneDemands wp ++ args.map fun (_, kind, id) ↦ (id, kind.holds)) := by
  obtain ⟨_, hwp, h⟩ := Outcome.bind_eq_ok_iff.mp h
  obtain ⟨hplan, hmet⟩ := meetsAll_of_requireEach args h
  exact ⟨hplan, meetsAll_append (meetsAll_of_checkWorkplane hwp) hmet⟩

/-! ## Entities -/

private theorem meetsAll_of_planNormal3d [Arith R] {q : Quaternion R} {plan : EntityPlan R}
    (h : planNormal3d q = .ok plan) :
    s.MeetsAll g (workplaneDemands plan.workplane ++ plan.shape.demands plan.workplane) := by
  obtain ⟨_, _, h⟩ := Outcome.bind_eq_ok_iff.mp h
  split at h
  · cases h
  · cases h
    exact meetsAll_nil

/-- The plan of an entity has its demands met. -/
theorem meetsAll_of_planEntity [Arith R] {request : EntityRequest R} {plan : EntityPlan R}
    (h : s.planEntity g request = .ok plan) :
    s.MeetsAll g (workplaneDemands plan.workplane ++ plan.shape.demands plan.workplane) := by
  cases request with
  | point3d p =>
    obtain ⟨_, _, h⟩ := Outcome.bind_eq_ok_iff.mp h
    cases h
    exact meetsAll_nil
  | point2d wp u v =>
    obtain ⟨_, _, h⟩ := Outcome.bind_eq_ok_iff.mp h
    obtain ⟨_, hwp, h⟩ := Outcome.bind_eq_ok_iff.mp h
    cases h
    exact meetsAll_workplane (meets_of_require hwp)
  | normal3d q => exact meetsAll_of_planNormal3d h
  | normalFromBasis u v => exact meetsAll_of_planNormal3d h
  | normal2d wp =>
    obtain ⟨_, hwp, h⟩ := Outcome.bind_eq_ok_iff.mp h
    cases h
    exact meetsAll_workplane (meets_of_require hwp)
  | distance wp x =>
    obtain ⟨_, _, h⟩ := Outcome.bind_eq_ok_iff.mp h
    obtain ⟨_, hwp, h⟩ := Outcome.bind_eq_ok_iff.mp h
    cases h
    exact meetsAll_workplane (meets_of_require hwp)
  | workplane origin normal =>
    obtain ⟨rfl, hmet⟩ := meetsAll_of_requireEach
      [("origin", .point3d, origin), ("normal", .normal3d, normal)] h
    exact hmet
  | line2d wp a b =>
    obtain ⟨_, hwp, h⟩ := Outcome.bind_eq_ok_iff.mp h
    obtain ⟨_, ha, h⟩ := Outcome.bind_eq_ok_iff.mp h
    obtain ⟨_, hb, h⟩ := Outcome.bind_eq_ok_iff.mp h
    cases h
    exact meetsAll_cons (meets_of_require hwp) (meetsAll_cons (meets_of_requirePointIn ha)
      (meetsAll_cons (meets_of_requirePointIn hb) meetsAll_nil))
  | line3d a b =>
    obtain ⟨rfl, hmet⟩ := meetsAll_of_requireEach
      [("point", .point3d, a), ("point", .point3d, b)] h
    exact hmet
  | cubic wp a b c d =>
    obtain ⟨_, hwp, h⟩ := Outcome.bind_eq_ok_iff.mp h
    obtain ⟨_, ha, h⟩ := Outcome.bind_eq_ok_iff.mp h
    obtain ⟨_, hb, h⟩ := Outcome.bind_eq_ok_iff.mp h
    obtain ⟨_, hc, h⟩ := Outcome.bind_eq_ok_iff.mp h
    obtain ⟨_, hd, h⟩ := Outcome.bind_eq_ok_iff.mp h
    cases h
    exact meetsAll_cons (meets_of_require hwp) (meetsAll_cons (meets_of_requirePointIn ha)
      (meetsAll_cons (meets_of_requirePointIn hb) (meetsAll_cons (meets_of_requirePointIn hc)
        (meetsAll_cons (meets_of_requirePointIn hd) meetsAll_nil))))
  | arc wp normal center start finish =>
    obtain ⟨_, hwp, h⟩ := Outcome.bind_eq_ok_iff.mp h
    obtain ⟨_, hnormal, h⟩ := Outcome.bind_eq_ok_iff.mp h
    obtain ⟨_, hcenter, h⟩ := Outcome.bind_eq_ok_iff.mp h
    obtain ⟨_, hstart, h⟩ := Outcome.bind_eq_ok_iff.mp h
    obtain ⟨_, hfinish, h⟩ := Outcome.bind_eq_ok_iff.mp h
    cases h
    exact meetsAll_cons (meets_of_require hwp) (meetsAll_cons (meets_of_require hnormal)
      (meetsAll_cons (meets_of_requirePointIn hcenter)
        (meetsAll_cons (meets_of_requirePointIn hstart)
          (meetsAll_cons (meets_of_requirePointIn hfinish) meetsAll_nil))))
  | circle wp normal center radius =>
    obtain ⟨_, hwp, h⟩ := Outcome.bind_eq_ok_iff.mp h
    obtain ⟨_, hnormal, h⟩ := Outcome.bind_eq_ok_iff.mp h
    obtain ⟨_, hcenter, h⟩ := Outcome.bind_eq_ok_iff.mp h
    obtain ⟨_, hradius, h⟩ := Outcome.bind_eq_ok_iff.mp h
    cases h
    exact meetsAll_cons (meets_of_require hwp) (meetsAll_cons (meets_of_requirePointIn hcenter)
      (meetsAll_cons (meets_of_require hnormal)
        (meetsAll_cons (meets_of_require hradius) meetsAll_nil)))

/-! ## Constraints -/

private def planDemands (plan : ConstraintPlan R) : List Demand :=
  workplaneDemands plan.workplane ++ plan.relation.demands

private theorem meetsAll_pair {wp : Option EntityId} {c d : Demand}
    (hwp : s.checkWorkplane g wp = .ok ()) (hc : s.Meets g c) (hd : s.Meets g d) :
    s.MeetsAll g (workplaneDemands wp ++ [c, d]) :=
  meetsAll_append (meetsAll_of_checkWorkplane hwp)
    (meetsAll_cons hc (meetsAll_cons hd meetsAll_nil))

private theorem meetsAll_of_planCoincident [Arith R] {a b : EntityId} {wp : Option EntityId}
    {plan : ConstraintPlan R} (h : s.planCoincident g a b wp = .ok plan) :
    s.MeetsAll g (planDemands plan) := by
  obtain ⟨_, hwp, h⟩ := Outcome.bind_eq_ok_iff.mp h
  obtain ⟨_, ha, h⟩ := Outcome.bind_eq_ok_iff.mp h
  obtain ⟨other, hb, h⟩ := Outcome.bind_eq_ok_iff.mp h
  obtain ⟨hfound, hlocus, hle⟩ := require_eq_ok_iff.mp hb
  have hpair : ∀ p : Entity → Bool, p other = true →
      s.MeetsAll g (workplaneDemands wp ++ [(a, Entity.isPoint), (b, p)]) := fun p hp ↦
    meetsAll_pair hwp (meets_of_require ha) ⟨other, hfound, hp, hle⟩
  split at h
  · next hpoint =>
    cases h
    exact hpair _ hpoint
  · split at h
    · next hplane =>
      split at h
      · cases h
      · cases h
        exact hpair _ hplane
    · split at h
      · next hline =>
        obtain ⟨⟨la, lb⟩, _, h⟩ := Outcome.bind_eq_ok_iff.mp h
        obtain ⟨_, _, h⟩ := Outcome.bind_eq_ok_iff.mp h
        obtain ⟨_, _, h⟩ := Outcome.bind_eq_ok_iff.mp h
        obtain ⟨_, _, h⟩ := Outcome.bind_eq_ok_iff.mp h
        cases h
        exact hpair _ hline
      · next hpoint hplane hline =>
        cases h
        refine hpair _ ?_
        simpa [EntityClass.locus, hpoint, hplane, hline] using hlocus

private theorem meetsAll_of_planDistance {a b : EntityId} {x : R} {wp : Option EntityId}
    {plan : ConstraintPlan R} (h : s.planDistance g a b x wp = .ok plan) :
    s.MeetsAll g (planDemands plan) := by
  obtain ⟨_, hwp, h⟩ := Outcome.bind_eq_ok_iff.mp h
  obtain ⟨_, ha, h⟩ := Outcome.bind_eq_ok_iff.mp h
  obtain ⟨other, hb, h⟩ := Outcome.bind_eq_ok_iff.mp h
  obtain ⟨hfound, hlandmark, hle⟩ := require_eq_ok_iff.mp hb
  have hpair : ∀ p : Entity → Bool, p other = true →
      s.MeetsAll g (workplaneDemands wp ++ [(a, Entity.isPoint), (b, p)]) := fun p hp ↦
    meetsAll_pair hwp (meets_of_require ha) ⟨other, hfound, hp, hle⟩
  split at h
  · next hpoint =>
    cases h
    exact hpair _ hpoint
  · split at h
    · next hplane =>
      split at h
      · cases h
      · cases h
        exact hpair _ hplane
    · next hpoint hplane =>
      cases h
      refine hpair _ ?_
      simpa [EntityClass.landmark, hpoint, hplane] using hlandmark

private theorem meetsAll_of_planEqual {a b : EntityId} {wp : Option EntityId}
    {plan : ConstraintPlan R} (h : s.planEqual g a b wp = .ok plan) :
    s.MeetsAll g (planDemands plan) := by
  obtain ⟨_, hwp, h⟩ := Outcome.bind_eq_ok_iff.mp h
  obtain ⟨ea, ha, h⟩ := Outcome.bind_eq_ok_iff.mp h
  obtain ⟨eb, hb, h⟩ := Outcome.bind_eq_ok_iff.mp h
  obtain ⟨hfoundA, hmeasuredA, hleA⟩ := require_eq_ok_iff.mp ha
  obtain ⟨hfoundB, hmeasuredB, hleB⟩ := require_eq_ok_iff.mp hb
  have hfirst : ∀ p : Entity → Bool, p ea = true → s.Meets g (a, p) :=
    fun p hp ↦ ⟨ea, hfoundA, hp, hleA⟩
  have hsecond : ∀ p : Entity → Bool, p eb = true → s.Meets g (b, p) :=
    fun p hp ↦ ⟨eb, hfoundB, hp, hleB⟩
  have hcircle : ∀ e, EntityClass.measured.holds e = true → e.isLine = false →
      e.isCircle = true := by
    intro e hmeasured hline
    simpa [EntityClass.measured, hline] using hmeasured
  cases hlineA : ea.isLine with
  | true =>
    cases hlineB : eb.isLine with
    | true =>
      rw [hlineA, hlineB] at h
      cases h
      exact meetsAll_pair hwp (hfirst _ hlineA) (hsecond _ hlineB)
    | false =>
      rw [hlineA, hlineB] at h
      cases h
      exact meetsAll_pair hwp (hfirst _ hlineA) (hsecond _ (hcircle eb hmeasuredB hlineB))
  | false =>
    cases hlineB : eb.isLine with
    | true =>
      rw [hlineA, hlineB] at h
      cases h
      exact meetsAll_pair hwp (hsecond _ hlineB) (hfirst _ (hcircle ea hmeasuredA hlineA))
    | false =>
      rw [hlineA, hlineB] at h
      cases h
      exact meetsAll_pair hwp (hfirst _ (hcircle ea hmeasuredA hlineA))
        (hsecond _ (hcircle eb hmeasuredB hlineB))

/-- The demands of all entities are met, and each is listed under its own handle. -/
structure EntitiesMet (s : Sketch R) : Prop where
  /-- An entity is listed under its own handle. -/
  id : ∀ k e, s.entities.find? k = some e → e.id = k
  /-- What an entity demands is met. -/
  demands : ∀ k e, s.entities.find? k = some e → s.MeetsAll e.group e.demands

private theorem meetsAll_of_planSymmetric (hs : s.EntitiesMet) {a b about : EntityId}
    {wp : Option EntityId} {plan : ConstraintPlan R}
    (h : s.planSymmetric g a b about wp = .ok plan) : s.MeetsAll g (planDemands plan) := by
  obtain ⟨_, hwp, h⟩ := Outcome.bind_eq_ok_iff.mp h
  obtain ⟨ea, ha, h⟩ := Outcome.bind_eq_ok_iff.mp h
  obtain ⟨eb, hb, h⟩ := Outcome.bind_eq_ok_iff.mp h
  obtain ⟨mirror, hmirror, h⟩ := Outcome.bind_eq_ok_iff.mp h
  obtain ⟨hfound, hkind, hle⟩ := require_eq_ok_iff.mp hmirror
  have hthree : ∀ p : Entity → Bool, p mirror = true →
      s.MeetsAll g [(a, Entity.isPoint), (b, Entity.isPoint), (about, p)] := fun p hp ↦
    meetsAll_cons (meets_of_require ha) (meetsAll_cons (meets_of_require hb)
      (meetsAll_cons ⟨mirror, hfound, hp, hle⟩ meetsAll_nil))
  split at h
  · next hline =>
    cases wp with
    | none => cases h
    | some wp =>
      cases h
      exact meetsAll_append (meetsAll_of_checkWorkplane hwp) (hthree _ hline)
  · next hline =>
    have hplane : mirror.isWorkplane = true := by simpa [EntityClass.mirror, hline] using hkind
    cases wp with
    | some wp =>
      cases h
      exact meetsAll_append (meetsAll_of_checkWorkplane hwp) (hthree _ hplane)
    | none =>
      cases h
      refine meetsAll_append ?_ (hthree _ hplane)
      dsimp only
      split
      · obtain ⟨hfoundA, _, hleA⟩ := require_eq_ok_iff.mp ha
        intro d hd
        exact ((hs.demands a ea hfoundA) d (List.mem_append_left _ hd)).of_le hleA
      · exact meetsAll_nil

private theorem meetsAll_of_planLineTangent [Arith R] {curve line : Entity}
    {ends lineEnds : EntityId × EntityId} {wp : Option EntityId} {plan : ConstraintPlan R}
    (hwp : s.checkWorkplane g wp = .ok ()) (hbent : curve.isBent = true)
    (hcurve : ∀ p : Entity → Bool, p curve = true → s.Meets g (curve.id, p))
    (hline : s.Meets g (line.id, Entity.isLine))
    (h : s.planLineTangent curve line ends lineEnds wp = .ok plan) :
    s.MeetsAll g (planDemands plan) := by
  unfold planLineTangent at h
  obtain ⟨atStart, _, h⟩ := Outcome.bind_eq_ok_iff.mp h
  dsimp only at h
  -- Whether or not the finish is looked at, what follows is the same.
  split at h
  all_goals
    obtain ⟨atFinish, _, h⟩ := Outcome.bind_eq_ok_iff.mp h
    split at h
    · cases h
    · split at h
      · next harc =>
        cases wp with
        | none => cases h
        | some wp =>
          cases h
          exact meetsAll_pair hwp (hcurve _ harc) hline
      · next harc =>
        have hcubic : curve.isCubic = true := by simpa [Entity.isBent, harc] using hbent
        cases wp with
        | some wp =>
          cases h
          exact meetsAll_pair hwp (hcurve _ hcubic) hline
        | none =>
          cases h
          exact meetsAll_pair hwp (hcurve _ hcubic) hline

private theorem meetsAll_of_planCurveTangent [Arith R] {a b : Entity}
    {aEnds bEnds : EntityId × EntityId} {wp : Option EntityId} {plan : ConstraintPlan R}
    (hwp : s.checkWorkplane g wp = .ok ()) (ha : s.Meets g (a.id, Entity.isBent))
    (hb : s.Meets g (b.id, Entity.isBent))
    (h : s.planCurveTangent a b aEnds bEnds wp = .ok plan) :
    s.MeetsAll g (planDemands plan) := by
  cases wp with
  | none => cases h
  | some wp =>
    have hpair := meetsAll_pair hwp ha hb
    unfold planCurveTangent at h
    obtain ⟨_, _, h⟩ := Outcome.bind_eq_ok_iff.mp h
    split at h
    · cases h
      exact hpair
    · obtain ⟨_, _, h⟩ := Outcome.bind_eq_ok_iff.mp h
      split at h
      · cases h
        exact hpair
      · obtain ⟨_, _, h⟩ := Outcome.bind_eq_ok_iff.mp h
        split at h
        · cases h
          exact hpair
        · obtain ⟨_, _, h⟩ := Outcome.bind_eq_ok_iff.mp h
          split at h
          · cases h
            exact hpair
          · cases h

private theorem meetsAll_of_planTangent [Arith R] (hs : s.EntitiesMet) {a b : EntityId}
    {wp : Option EntityId} {plan : ConstraintPlan R} (h : s.planTangent g a b wp = .ok plan) :
    s.MeetsAll g (planDemands plan) := by
  obtain ⟨_, hwp, h⟩ := Outcome.bind_eq_ok_iff.mp h
  obtain ⟨ea, ha, h⟩ := Outcome.bind_eq_ok_iff.mp h
  obtain ⟨eb, hb, h⟩ := Outcome.bind_eq_ok_iff.mp h
  have hmeets : ∀ {role : String} {id : EntityId} {e : Entity},
      s.require g role .curve id = .ok e →
        ∀ p : Entity → Bool, p e = true → s.Meets g (e.id, p) := by
    intro role id e he p hp
    obtain ⟨hfound, _, hle⟩ := require_eq_ok_iff.mp he
    exact ⟨e, (hs.id id e hfound).symm ▸ hfound, hp, hle⟩
  have hbent : ∀ {role : String} {id : EntityId} {e : Entity},
      s.require g role .curve id = .ok e → e.isLine = false → e.isBent = true := by
    intro role id e he hline
    have hkind := (require_eq_ok_iff.mp he).2.1
    simpa [EntityClass.curve, hline, Entity.isBent] using hkind
  cases hlineA : ea.isLine with
  | true =>
    simp only [hlineA, if_true] at h
    split at h
    · cases h
    · next hlineB =>
      split at h
      · exact meetsAll_of_planLineTangent hwp (hbent hb (Bool.eq_false_iff.mpr hlineB)) (hmeets hb)
          (hmeets ha _ hlineA) h
      · cases h
  | false =>
    simp only [hlineA, Bool.false_eq_true, if_false] at h
    split at h
    · split at h
      · next hlineB =>
        exact meetsAll_of_planLineTangent hwp (hbent ha hlineA) (hmeets ha) (hmeets hb _ hlineB) h
      · next hlineB =>
        exact meetsAll_of_planCurveTangent hwp (hmeets ha _ (hbent ha hlineA))
          (hmeets hb _ (hbent hb (Bool.eq_false_iff.mpr hlineB))) h
    · cases h

private theorem meetsAll_of_requireLine2d {line wp a b : EntityId}
    (h : s.requireLine2d g line wp = .ok (a, b)) :
    s.MeetsAll g (workplaneDemands (some wp) ++ [(line, Entity.isLineBetween a b)]) := by
  obtain ⟨_, hwp, h⟩ := Outcome.bind_eq_ok_iff.mp h
  obtain ⟨e, he, h⟩ := Outcome.bind_eq_ok_iff.mp h
  obtain ⟨hfound, hkind, hle⟩ := require_eq_ok_iff.mp he
  have hline : e.isLine2d = true := hkind
  obtain ⟨f, hf, h⟩ := Outcome.bind_eq_ok_iff.mp h
  rw [entity, hfound] at hf
  cases hf
  split at h
  · next hshape =>
    cases h
    refine meetsAll_append (meetsAll_of_checkWorkplane hwp)
      (meetsAll_cons ⟨e, hfound, ?_, hle⟩ meetsAll_nil)
    simp [Entity.isLineBetween, hline, hshape]
  · cases h

/-- The plan of a constraint has its demands met. -/
theorem meetsAll_of_planConstraint [Arith R] (hs : s.EntitiesMet)
    {request : ConstraintRequest R} {plan : ConstraintPlan R}
    (h : s.planConstraint g request = .ok plan) :
    s.MeetsAll g (workplaneDemands plan.workplane ++ plan.relation.demands) := by
  cases request with
  | coincident a b wp => exact meetsAll_of_planCoincident h
  | distance a b x wp => exact meetsAll_of_planDistance h
  | equal a b wp => exact meetsAll_of_planEqual h
  | symmetric a b about wp => exact meetsAll_of_planSymmetric hs h
  | tangent a b wp => exact meetsAll_of_planTangent hs h
  | projectedDistance a b direction x =>
    obtain ⟨rfl, hmet⟩ := meetsAll_of_requireEach
      [("first", .point, a), ("second", .point, b), ("direction", .direction, direction)] h
    exact hmet
  | equalAngle a b c d inverse wp =>
    obtain ⟨rfl, hmet⟩ := meetsAll_of_requireIn
      [("direction", .direction, a), ("direction", .direction, b), ("direction", .direction, c),
        ("direction", .direction, d)] h
    exact hmet
  | equalPointToLine pointA lineA pointB lineB wp =>
    obtain ⟨rfl, hmet⟩ := meetsAll_of_requireIn
      [("point", .point, pointA), ("line", .line, lineA), ("point", .point, pointB),
        ("line", .line, lineB)] h
    exact hmet
  | equalLengthPointLineDistance line point otherLine wp =>
    obtain ⟨rfl, hmet⟩ := meetsAll_of_requireIn
      [("line", .line, line), ("point", .point, point), ("line", .line, otherLine)] h
    exact hmet
  | diameter circle x =>
    obtain ⟨rfl, hmet⟩ := meetsAll_of_requireEach [("circle", .circle, circle)] h
    exact hmet
  | midpoint point line wp =>
    obtain ⟨rfl, hmet⟩ := meetsAll_of_requireIn [("point", .point, point), ("line", .line, line)] h
    exact hmet
  | midpointOnPlane line plane wp =>
    obtain ⟨rfl, hmet⟩ := meetsAll_of_requireIn
      [("line", .line, line), ("plane", .workplane, plane)] h
    exact hmet
  | dragged point wp =>
    obtain ⟨rfl, hmet⟩ := meetsAll_of_requireIn [("point", .point, point)] h
    exact hmet
  | sameOrientation a b =>
    obtain ⟨_, ha, h⟩ := Outcome.bind_eq_ok_iff.mp h
    obtain ⟨_, hb, h⟩ := Outcome.bind_eq_ok_iff.mp h
    obtain ⟨_, _, h⟩ := Outcome.bind_eq_ok_iff.mp h
    cases h
    exact meetsAll_cons (meets_of_require ha) (meetsAll_cons (meets_of_require hb) meetsAll_nil)
  | ratio a b x wp | lengthDifference a b x wp =>
    obtain ⟨_, hab, h⟩ := Outcome.bind_eq_ok_iff.mp h
    cases h
    exact (meetsAll_of_requireIn [("first", .line, a), ("second", .line, b)] hab).2
  | symmetricHorizontal a b wp | symmetricVertical a b wp | horizontalPoints a b wp
  | verticalPoints a b wp =>
    obtain ⟨_, hab, h⟩ := Outcome.bind_eq_ok_iff.mp h
    cases h
    exact (meetsAll_of_requireIn [("first", .point2d, a), ("second", .point2d, b)] hab).2
  | horizontal line wp | vertical line wp =>
    obtain ⟨⟨a, b⟩, hline, h⟩ := Outcome.bind_eq_ok_iff.mp h
    cases h
    exact meetsAll_of_requireLine2d hline
  | angle a b _ inverse wp | perpendicular a b inverse wp =>
    obtain ⟨_, hab, h⟩ := Outcome.bind_eq_ok_iff.mp h
    cases h
    exact (meetsAll_of_requireIn [("first", .direction, a), ("second", .direction, b)] hab).2
  | parallel a b wp =>
    obtain ⟨_, hab, h⟩ := Outcome.bind_eq_ok_iff.mp h
    have hmet := (meetsAll_of_requireIn [("first", .direction, a), ("second", .direction, b)] hab).2
    cases wp with
    | some wp =>
      cases h
      exact hmet
    | none =>
      cases h
      exact hmet

end Sketch

end SketchSolver
