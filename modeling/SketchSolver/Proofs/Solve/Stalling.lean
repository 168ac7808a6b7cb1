import SketchSolver.Proofs.Solve.Magnitudes

/-!
# Stalling

An iteration is given up when the best of its latest residuals is above a fraction of the best
earlier one. What is meant is not below that fraction. The two rules differ where the best of the
latest residuals is that fraction exactly. With the whole as the fraction this is so where the
residual does not change at all, and such an iteration runs on until its steps are used up. No
iteration is given up before it has taken as many steps as are looked at.
-/

namespace SketchSolver

variable {R : Type} [Arith R]

/-! ## The least entry of a list -/

/-- The entries of a list that are defined. -/
def definedEntries (xs : List R) : Set R := {x | x ∈ xs ∧ Arith.isNaN x = false}

/-- Lists whose defined entries are magnitudes. -/
def HoldsMagnitudes (xs : List R) : Prop := ∀ x ∈ definedEntries xs, IsMagnitude x

section

variable {xs ys : List R} {a b x : R}

/-- One more entry is among the defined ones unless it is undefined. -/
theorem definedEntries_concat (xs : List R) (x : R) :
    definedEntries (xs ++ [x]) =
      if Arith.isNaN x then definedEntries xs else insert x (definedEntries xs) := by
  ext y
  cases hx : Arith.isNaN x with
  | true =>
    rw [if_pos rfl]
    refine ⟨fun ⟨hy, hdefined⟩ ↦ ?_, fun ⟨hy, hdefined⟩ ↦ ⟨List.mem_append_left [x] hy, hdefined⟩⟩
    rcases List.mem_append.mp hy with hy | hy
    · exact ⟨hy, hdefined⟩
    · rw [List.mem_singleton.mp hy, hx] at hdefined
      cases hdefined
  | false =>
    rw [if_neg Bool.false_ne_true]
    constructor
    · rintro ⟨hy, hdefined⟩
      rcases List.mem_append.mp hy with hy | hy
      · exact .inr ⟨hy, hdefined⟩
      · exact .inl (List.mem_singleton.mp hy)
    · rintro (rfl | ⟨hy, hdefined⟩)
      · exact ⟨List.mem_concat_self, hx⟩
      · exact ⟨List.mem_append_left [x] hy, hdefined⟩

/-- A part of a list of magnitudes holds magnitudes. -/
theorem HoldsMagnitudes.mono (h : HoldsMagnitudes xs) (hsub : ys ⊆ xs) : HoldsMagnitudes ys :=
  fun x hx ↦ h x ⟨hsub hx.1, hx.2⟩

/-- The smaller of a defined value and another one is defined. -/
theorem isNaN_smaller (ha : Arith.isNaN a = false) : Arith.isNaN (Arith.smaller a b) = false := by
  unfold Arith.smaller
  rw [ha, if_neg Bool.false_ne_true]
  cases hb : Arith.isNaN b with
  | true => rwa [if_pos rfl]
  | false =>
    rw [if_neg Bool.false_ne_true]
    split
    · exact hb
    · exact ha

/-- The smaller of the least member of a set and a further value is the least of both. -/
theorem isLeast_insert_smaller [OrderedArith R] {s : Set R} (h : IsLeast s a)
    (ha : Arith.isNaN a = false) (hb : Arith.isNaN b = false) :
    IsLeast (insert b s) (Arith.smaller a b) := by
  unfold Arith.smaller
  rw [ha, hb, if_neg Bool.false_ne_true, if_neg Bool.false_ne_true]
  split
  · next hlt =>
    refine ⟨Set.mem_insert b s, ?_⟩
    rintro c (rfl | hc)
    · exact le_self_of_isNaN hb
    · exact OrderedArith.le_trans (OrderedArith.le_of_lt hlt) (h.2 hc)
  · next hlt =>
    refine ⟨Set.mem_insert_of_mem b h.1, ?_⟩
    rintro c (rfl | hc)
    · exact OrderedArith.le_of_not_lt hb ha hlt
    · exact h.2 hc

variable [OrderedMagnitudes R]

/-- The smallest of a list is the least of its defined entries and the value above all numbers. -/
theorem isLeast_insert_smallest (xs : List R) :
    Arith.isNaN (smallest xs) = false ∧
      IsLeast (insert Arith.infinity (definedEntries xs)) (smallest xs) := by
  induction xs using List.reverseRecOn with
  | nil =>
    refine ⟨OrderedMagnitudes.isNaN_infinity, Set.mem_insert _ _, ?_⟩
    rintro c (rfl | hc)
    · exact le_self_of_isNaN OrderedMagnitudes.isNaN_infinity
    · exact absurd hc.1 List.not_mem_nil
  | append_singleton xs x ih =>
    obtain ⟨hdefined, hleast⟩ := ih
    have hconcat : smallest (xs ++ [x]) = Arith.smaller (smallest xs) x := List.foldl_concat ..
    rw [hconcat, definedEntries_concat]
    refine ⟨isNaN_smaller hdefined, ?_⟩
    cases hx : Arith.isNaN x with
    | true =>
      unfold Arith.smaller
      rwa [hdefined, hx, if_neg Bool.false_ne_true, if_pos rfl, if_pos rfl]
    | false =>
      rw [if_neg Bool.false_ne_true, Set.insert_comm]
      exact isLeast_insert_smaller hleast hdefined hx

/-- The smallest of a list of magnitudes that are not all undefined is the least defined one. -/
theorem isLeast_smallest (hmag : HoldsMagnitudes xs) (hsome : (definedEntries xs).Nonempty) :
    IsLeast (definedEntries xs) (smallest xs) := by
  obtain ⟨hdefined, hmem, hle⟩ := isLeast_insert_smallest xs
  refine ⟨?_, fun x hx ↦ hle (.inr hx)⟩
  rcases hmem with hinfinite | hmem
  · -- An entry is then at least the value above all numbers, and that it is.
    obtain ⟨x, hx⟩ := hsome
    obtain ⟨y, rfl⟩ := (hmag x hx).2
    have hy : Arith.isNaN y = false := (OrderedArith.isNaN_abs y).symm.trans hx.2
    have hinfinity : IsMagnitude (Arith.infinity : R) :=
      ⟨OrderedMagnitudes.isNaN_infinity, _, OrderedMagnitudes.abs_infinity⟩
    have hupper := OrderedMagnitudes.abs_le_infinity hy
    rw [hinfinite, hinfinity.antisymm (hmag _ hx) (hinfinite ▸ hle (.inr hx)) hupper]
    exact hx
  · exact hmem

/-- A list of magnitudes has at most one least entry. -/
theorem HoldsMagnitudes.isLeast_unique (hmag : HoldsMagnitudes xs)
    (ha : IsLeast (definedEntries xs) a) (hb : IsLeast (definedEntries xs) b) : a = b :=
  (hmag a ha.1).antisymm (hmag b hb.1) (ha.2 hb.1) (hb.2 ha.1)

end

/-! ## When a history is stalled -/

/-- The best of the latest residuals of a history and the best of all earlier ones. -/
structure BestOf (history : List R) (window : Nat) (earlier latest : R) : Prop where
  /-- Some residuals count as the latest. -/
  window_pos : 1 ≤ window
  /-- There are earlier ones. -/
  window_lt : window < history.length
  /-- The best earlier one. -/
  isLeast_earlier : IsLeast (definedEntries (history.take (history.length - window))) earlier
  /-- The best of the latest ones. -/
  isLeast_latest : IsLeast (definedEntries (history.drop (history.length - window))) latest

section

variable {history : List R} {window : Nat} {ratio a b : R}

/-- A stalled history is longer than the window, which is not empty. -/
theorem window_of_isStalled (h : isStalled history window ratio = true) :
    1 ≤ window ∧ window < history.length := by
  unfold isStalled at h
  split at h
  · cases h
  · omega

variable [OrderedMagnitudes R]

/-- Whether a history is stalled is decided by the best of its latest and of its earlier
residuals. -/
theorem BestOf.isStalled_iff (hmag : HoldsMagnitudes history) (h : BestOf history window a b) :
    isStalled history window ratio = true ↔ ratio * a < b := by
  have hearlier : smallest (history.take (history.length - window)) = a :=
    have hpart := hmag.mono (List.take_subset _ _)
    hpart.isLeast_unique (isLeast_smallest hpart ⟨a, h.isLeast_earlier.1⟩) h.isLeast_earlier
  have hlatest : smallest (history.drop (history.length - window)) = b :=
    have hpart := hmag.mono (List.drop_subset _ _)
    hpart.isLeast_unique (isLeast_smallest hpart ⟨b, h.isLeast_latest.1⟩) h.isLeast_latest
  have hpos := h.window_pos
  have hlt := h.window_lt
  unfold isStalled
  rw [if_neg (by omega), List.splitAt_eq]
  dsimp only
  rw [hearlier, hlatest, decide_eq_true_iff]

/-- A history of defined residuals that is longer than the window has a best earlier and a best
latest one. -/
theorem exists_bestOf (hmag : ∀ m ∈ history, IsMagnitude m) (hpos : 1 ≤ window)
    (hlt : window < history.length) : ∃ a b, BestOf history window a b := by
  have hpart : ∀ part : List R, part ⊆ history → part ≠ [] →
      IsLeast (definedEntries part) (smallest part) := by
    intro part hsub hne
    obtain ⟨m, hm⟩ := List.exists_mem_of_ne_nil part hne
    exact isLeast_smallest (fun x hx ↦ hmag x (hsub hx.1)) ⟨m, hm, (hmag m (hsub hm)).1⟩
  refine ⟨_, _, hpos, hlt, hpart _ (List.take_subset _ _) ?_, hpart _ (List.drop_subset _ _) ?_⟩
  · rw [← List.length_pos_iff_ne_nil, List.length_take]
    omega
  · rw [← List.length_pos_iff_ne_nil, List.length_drop]
    omega

/-- A history of defined residuals is stalled exactly if it is longer than the window and the best
of the latest residuals is above the given fraction of the best earlier one. -/
theorem isStalled_iff (hmag : ∀ m ∈ history, IsMagnitude m) :
    isStalled history window ratio = true ↔ ∃ a b, BestOf history window a b ∧ ratio * a < b := by
  have hholds : HoldsMagnitudes history := fun m hm ↦ hmag m hm.1
  constructor
  · intro h
    obtain ⟨hpos, hlt⟩ := window_of_isStalled h
    obtain ⟨a, b, hbest⟩ := exists_bestOf hmag hpos hlt
    exact ⟨a, b, hbest, (hbest.isStalled_iff hholds).mp h⟩
  · rintro ⟨a, b, hbest, hlt⟩
    exact (hbest.isStalled_iff hholds).mpr hlt

/-- What is meant by a stalled history: the best of the latest residuals is not below a fraction of
the best earlier one. -/
def MeantStalled (history : List R) (window : Nat) (ratio : R) : Prop :=
  ∃ a b, BestOf history window a b ∧ ¬ b < ratio * a

/-- Histories whose best latest residual is neither above nor below a fraction of the best earlier
one. -/
def Tied (history : List R) (window : Nat) (ratio : R) : Prop :=
  ∃ a b, BestOf history window a b ∧ ¬ b < ratio * a ∧ ¬ ratio * a < b

/-- A history of defined residuals is stalled as it is meant exactly if there is no tie. -/
theorem isStalled_iff_meantStalled_iff (hmag : ∀ m ∈ history, IsMagnitude m) :
    (isStalled history window ratio = true ↔ MeantStalled history window ratio) ↔
      ¬ Tied history window ratio := by
  constructor
  · rintro h ⟨a, b, hbest, hbelow, habove⟩
    have hstalled := h.mpr ⟨a, b, hbest, hbelow⟩
    exact habove ((hbest.isStalled_iff fun m hm ↦ hmag m hm.1).mp hstalled)
  · intro h
    rw [isStalled_iff hmag]
    constructor
    · rintro ⟨a, b, hbest, hlt⟩
      exact ⟨a, b, hbest, OrderedArith.not_lt_of_le (OrderedArith.le_of_lt hlt)⟩
    · rintro ⟨a, b, hbest, hbelow⟩
      exact ⟨a, b, hbest, Classical.byContradiction fun habove ↦
        h ⟨a, b, hbest, hbelow, habove⟩⟩

end

/-! ## The course of an iteration -/

/-- Where an iteration is: the values of the unknowns and the residuals so far. -/
structure Progress (R : Type) where
  /-- The values of the unknowns. -/
  x : List R
  /-- The residuals in the order of the steps. -/
  history : List R

namespace NewtonSystem

/-- Where an iteration is after one more step, if it goes on. -/
def advance? (la : LinearAlgebra R) (config : Config R) (nw : NewtonSystem R)
    (sys : EquationSystem R) (now : Progress R) : Option (Progress R) :=
  let f := nw.residuals sys now.x
  if isConverged f config.tolerance || isStalled now.history config.stallWindow config.stallRatio ||
      nw.unknowns.isEmpty then none
  else
    match la.leastSquaresStep? (nw.jacobian sys now.x) f (nw.scale config.draggedScale) with
    | none => none
    | some step =>
      let x := takeStep config.damping now.x step
      let f := nw.residuals sys x
      if outOfRange x || outOfRange f then none else some ⟨x, now.history ++ [maxAbs f]⟩

/-- Where an iteration is after a number of steps, if it gets as far as that. -/
def progress? (la : LinearAlgebra R) (config : Config R) (nw : NewtonSystem R)
    (sys : EquationSystem R) : Nat → Option (Progress R)
  | 0 => some ⟨nw.initial sys, [maxAbs (nw.residuals sys (nw.initial sys))]⟩
  | n + 1 =>
    if n < config.maxIterations then
      (nw.progress? la config sys n).bind (nw.advance? la config sys)
    else none

end NewtonSystem

section

variable {la : LinearAlgebra R} {config : Config R} {nw : NewtonSystem R} {sys : EquationSystem R}
  {now next : Progress R} {n : Nat}

/-- What a step does: the iteration goes on from where it takes it, with one more residual. -/
theorem advance?_eq_some (h : nw.advance? la config sys now = some next) :
    next.history = now.history ++ [maxAbs (nw.residuals sys next.x)] ∧
      outOfRange (nw.residuals sys next.x) = false ∧
      ∀ left taken, iterateFrom la config nw sys (left + 1) taken now.x now.history =
        iterateFrom la config nw sys left (taken + 1) next.x next.history := by
  unfold NewtonSystem.advance? at h
  dsimp only at h
  split at h
  · cases h
  · next hstop =>
    rw [Bool.not_eq_true, Bool.or_eq_false_iff, Bool.or_eq_false_iff] at hstop
    obtain ⟨⟨hconverged, hstalled⟩, hunknowns⟩ := hstop
    split at h
    · cases h
    · next step hstep =>
      split at h
      · cases h
      · next hrange =>
        obtain rfl := Option.some.inj h
        refine ⟨rfl, (Bool.or_eq_false_iff.mp (Bool.not_eq_true _ ▸ hrange)).2, fun left taken ↦ ?_⟩
        rw [iterateFrom]
        dsimp only
        rw [hconverged, hstalled, hunknowns, if_neg Bool.false_ne_true, if_neg Bool.false_ne_true,
          if_neg Bool.false_ne_true, hstep]
        dsimp only
        rw [if_neg hrange]

/-- An iteration gets one step further by a step from where it is, as long as steps are left. -/
theorem progress?_succ_eq_some : nw.progress? la config sys (n + 1) = some next ↔
    n < config.maxIterations ∧
      ∃ now, nw.progress? la config sys n = some now ∧
        nw.advance? la config sys now = some next := by
  rw [NewtonSystem.progress?]
  split
  · next hn => exact Option.bind_eq_some_iff.trans (and_iff_right hn).symm
  · next hn => exact iff_of_false (fun h ↦ nomatch h) fun h ↦ hn h.1

/-- An iteration goes on from wherever it gets to. -/
theorem iterate_eq_of_progress? (h : nw.progress? la config sys n = some now) :
    n ≤ config.maxIterations ∧ nw.iterate la config sys =
      iterateFrom la config nw sys (config.maxIterations - n) n now.x now.history := by
  induction n generalizing now with
  | zero =>
    cases h
    exact ⟨Nat.zero_le _, rfl⟩
  | succ n ih =>
    obtain ⟨hn, before, hbefore, hstep⟩ := progress?_succ_eq_some.mp h
    have hleft : config.maxIterations - n = config.maxIterations - (n + 1) + 1 := by omega
    refine ⟨hn, ?_⟩
    rw [(ih hbefore).2, hleft, (advance?_eq_some hstep).2.2]

/-- There is one residual for the start and one for each step. -/
theorem length_history_of_progress? (h : nw.progress? la config sys n = some now) :
    now.history.length = n + 1 := by
  induction n generalizing now with
  | zero =>
    cases h
    rfl
  | succ n ih =>
    obtain ⟨_, before, hbefore, hstep⟩ := progress?_succ_eq_some.mp h
    rw [(advance?_eq_some hstep).1, List.length_append, ih hbefore, List.length_singleton]

/-- An iteration that is given up for a stall has got to a stalled history. -/
theorem exists_progress_of_stalled {left taken : Nat} {x history : List R}
    (hleft : left + taken = config.maxIterations)
    (hnow : nw.progress? la config sys taken = some ⟨x, history⟩)
    (h : (iterateFrom la config nw sys left taken x history).stalled = true) :
    ∃ now, nw.progress? la config sys
        (iterateFrom la config nw sys left taken x history).iterations = some now ∧
      isConverged (nw.residuals sys now.x) config.tolerance = false ∧
      isStalled now.history config.stallWindow config.stallRatio = true := by
  -- Along the iteration the state stays one that the run gets to.
  fun_induction iterateFrom la config nw sys left taken x history with
  | case1 => cases h
  | case2 left taken x history f hconverged hstalled =>
    exact ⟨_, hnow, Bool.eq_false_iff.mpr hconverged, hstalled⟩
  | case3 => cases h
  | case4 => cases h
  | case5 => cases h
  | case6 => cases h
  | case7 taken x history f hconverged hstalled left hunknowns step hstep x' f' hrange ih =>
    have hnext : nw.advance? la config sys ⟨x, history⟩ = some ⟨x', history ++ [maxAbs f']⟩ := by
      unfold NewtonSystem.advance?
      dsimp only
      rw [Bool.eq_false_iff.mpr hconverged, Bool.eq_false_iff.mpr hstalled,
        Bool.eq_false_iff.mpr hunknowns, Bool.or_self, Bool.or_self, if_neg Bool.false_ne_true,
        hstep]
      dsimp only
      rw [if_neg hrange]
    exact ih (by omega) (progress?_succ_eq_some.mpr ⟨by omega, _, hnow, hnext⟩) h

/-- An iteration is given up for a stall exactly where it gets to a stalled history and its
equations do not hold. -/
theorem stalled_at_iff (hnow : nw.progress? la config sys n = some now)
    (hfailed : isConverged (nw.residuals sys now.x) config.tolerance = false) :
    ((nw.iterate la config sys).stalled = true ∧ (nw.iterate la config sys).iterations = n) ↔
      isStalled now.history config.stallWindow config.stallRatio = true := by
  constructor
  · rintro ⟨hstalled, hiterations⟩
    obtain ⟨final, hfinal, _, hhistory⟩ :=
      exists_progress_of_stalled (Nat.add_zero _) rfl hstalled
    have hsame : nw.progress? la config sys n = some final := hiterations ▸ hfinal
    rw [Option.some.inj (hnow.symm.trans hsame)]
    exact hhistory
  · intro hstalled
    rw [(iterate_eq_of_progress? hnow).2, iterateFrom.eq_def]
    dsimp only
    rw [hfailed, hstalled, if_neg Bool.false_ne_true, if_pos rfl]
    exact ⟨rfl, rfl⟩

/-- No iteration is given up for a stall before it has taken as many steps as are looked at. -/
theorem window_le_of_stalled (h : (nw.iterate la config sys).stalled = true) :
    1 ≤ config.stallWindow ∧ config.stallWindow ≤ (nw.iterate la config sys).iterations := by
  obtain ⟨final, hfinal, _, hhistory⟩ := exists_progress_of_stalled (Nat.add_zero _) rfl h
  obtain ⟨hpos, hlt⟩ := window_of_isStalled hhistory
  rw [length_history_of_progress? hfinal] at hlt
  exact ⟨hpos, Nat.lt_succ_iff.mp hlt⟩

end

/-! ## A residual that stays the same -/

section

variable [OrderedMagnitudes R] {la : LinearAlgebra R} {config : Config R} {nw : NewtonSystem R}
  {sys : EquationSystem R} {now : Progress R} {n : Nat}

/-- A defined largest magnitude is a magnitude. -/
theorem isMagnitude_maxAbs {v : List R} (h : Arith.isNaN (maxAbs v) = false) :
    IsMagnitude (maxAbs v) := by
  have hend : ¬ EndsUndefined v := fun hend ↦
    Bool.false_ne_true (h.symm.trans (isNaN_maxAbs_iff.mpr hend))
  have hgreatest := isGreatestMagnitude_maxAbs hend
  rcases eq_or_ne (definedEnd v) [] with hempty | hne
  · rw [hgreatest.empty hempty]
    exact isMagnitude_zero
  · obtain ⟨⟨x, _, hx⟩, _⟩ := hgreatest.greatest hne
    exact ⟨h, x, hx⟩

/-- All residuals of an iteration but the first are magnitudes, and so is the first if it is
defined. -/
theorem holdsMagnitudes_of_progress? (hnow : nw.progress? la config sys n = some now) :
    HoldsMagnitudes now.history ∧ ∀ m ∈ now.history.tail, Arith.isNaN m = false := by
  induction n generalizing now with
  | zero =>
    cases hnow
    refine ⟨fun m ⟨hm, hdefined⟩ ↦ ?_, fun m hm ↦ absurd hm List.not_mem_nil⟩
    rw [List.mem_singleton.mp hm] at hdefined ⊢
    exact isMagnitude_maxAbs hdefined
  | succ n ih =>
    obtain ⟨_, before, hbefore, hstep⟩ := progress?_succ_eq_some.mp hnow
    obtain ⟨hhistory, hrange, _⟩ := advance?_eq_some hstep
    obtain ⟨hholds, htail⟩ := ih hbefore
    have hdefined : Arith.isNaN (maxAbs (nw.residuals sys now.x)) = false :=
      isNaN_maxAbs fun x hx ↦ isNaN_of_abs_le (outOfRange_eq_false_iff.mp hrange x hx)
    have hne : before.history ≠ [] := by
      rw [← List.length_pos_iff_ne_nil, length_history_of_progress? hbefore]
      omega
    rw [hhistory, List.tail_append_of_ne_nil hne]
    refine ⟨fun m ⟨hm, hm'⟩ ↦ ?_, fun m hm ↦ ?_⟩
    · rcases List.mem_append.mp hm with hm | hm
      · exact hholds m ⟨hm, hm'⟩
      · rw [List.mem_singleton.mp hm]
        exact isMagnitude_maxAbs hdefined
    · rcases List.mem_append.mp hm with hm | hm
      · exact htail m hm
      · rw [List.mem_singleton.mp hm]
        exact hdefined

/-- A defined value is the least entry of a list that it fills. -/
theorem isLeast_replicate {r : R} {k : Nat} (hk : k ≠ 0) (hr : Arith.isNaN r = false) :
    IsLeast (definedEntries (List.replicate k r)) r := by
  refine ⟨⟨List.mem_replicate.mpr ⟨hk, rfl⟩, hr⟩, fun x hx ↦ ?_⟩
  rw [List.eq_of_mem_replicate hx.1]
  exact le_self_of_isNaN hr

/-- What is looked at of a history that has stayed the same for a window. -/
theorem bestOf_of_replicate {before : List R} {r best : R} {window : Nat} (hpos : 1 ≤ window)
    (hr : Arith.isNaN r = false) (hbest : IsLeast (definedEntries (before ++ [r])) best) :
    BestOf (before ++ List.replicate (window + 1) r) window best r := by
  have hsplit : before ++ List.replicate (window + 1) r =
      (before ++ [r]) ++ List.replicate window r := by
    rw [List.append_assoc, List.replicate_succ]
    rfl
  have hlength : ((before ++ [r]) ++ List.replicate window r).length - window =
      (before ++ [r]).length := by
    rw [List.length_append, List.length_replicate, Nat.add_sub_cancel]
  rw [hsplit]
  refine ⟨hpos, ?_, ?_, ?_⟩
  · rw [List.length_append, List.length_append, List.length_replicate, List.length_singleton]
    omega
  · rwa [hlength, List.take_left]
  · rw [hlength, List.drop_left]
    exact isLeast_replicate (Nat.one_le_iff_ne_zero.mp hpos) hr

/-- An iteration whose residual has stayed the same for as many steps as are looked at is given up
exactly if that residual is above the given fraction of the best one up to the first of these
steps. -/
theorem stalled_of_flat_iff {before : List R} {r best : R}
    (hnow : nw.progress? la config sys n = some now)
    (hfailed : isConverged (nw.residuals sys now.x) config.tolerance = false)
    (hpos : 1 ≤ config.stallWindow)
    (hflat : now.history = before ++ List.replicate (config.stallWindow + 1) r)
    (hbest : IsLeast (definedEntries (before ++ [r])) best) :
    ((nw.iterate la config sys).stalled = true ∧ (nw.iterate la config sys).iterations = n) ↔
      config.stallRatio * best < r := by
  obtain ⟨hholds, htail⟩ := holdsMagnitudes_of_progress? hnow
  have hr : Arith.isNaN r = false := by
    apply htail
    rw [hflat]
    cases before with
    | nil =>
      rw [List.nil_append, List.tail_replicate]
      exact List.mem_replicate.mpr ⟨by omega, rfl⟩
    | cons m before =>
      exact List.mem_append_right _ (List.mem_replicate.mpr ⟨by omega, rfl⟩)
  rw [stalled_at_iff hnow hfailed]
  rw [hflat] at hholds ⊢
  exact (bestOf_of_replicate hpos hr hbest).isStalled_iff hholds

/-- How stalls are told. -/
structure StallLaws (la : LinearAlgebra R) (config : Config R) (nw : NewtonSystem R)
    (sys : EquationSystem R) : Prop where
  /-- A history of defined residuals is stalled exactly if it is longer than the window, which is
  not empty, and the best of the latest residuals is above a fraction of the best earlier one. -/
  isStalled_iff (history : List R) (window : Nat) (ratio : R) :
    (∀ m ∈ history, IsMagnitude m) →
      (isStalled history window ratio = true ↔
        ∃ a b, BestOf history window a b ∧ ratio * a < b)
  /-- That is as it is meant exactly if there is no tie. -/
  meantStalled_iff (history : List R) (window : Nat) (ratio : R) :
    (∀ m ∈ history, IsMagnitude m) →
      ((isStalled history window ratio = true ↔ MeantStalled history window ratio) ↔
        ¬ Tied history window ratio)
  /-- An iteration whose residual has stayed the same for as many steps as are looked at is given up
  there exactly if that residual is above the given fraction of the best one up to the first of
  these steps. -/
  flat_iff (n : Nat) (now : Progress R) (before : List R) (r best : R) :
    nw.progress? la config sys n = some now →
      isConverged (nw.residuals sys now.x) config.tolerance = false →
        1 ≤ config.stallWindow →
          now.history = before ++ List.replicate (config.stallWindow + 1) r →
            IsLeast (definedEntries (before ++ [r])) best →
              ((nw.iterate la config sys).stalled = true ∧
                  (nw.iterate la config sys).iterations = n ↔
                config.stallRatio * best < r)
  /-- No iteration is given up for a stall before it has taken as many steps as are looked at. -/
  window_le : (nw.iterate la config sys).stalled = true →
    config.stallWindow ≤ (nw.iterate la config sys).iterations

/-- Every iteration is given up for a stall by these laws. -/
theorem stallLaws_iterate (la : LinearAlgebra R) (config : Config R) (nw : NewtonSystem R)
    (sys : EquationSystem R) : StallLaws la config nw sys where
  isStalled_iff _ _ _ := isStalled_iff
  meantStalled_iff _ _ _ := isStalled_iff_meantStalled_iff
  flat_iff _ _ _ _ _ := stalled_of_flat_iff
  window_le h := (window_le_of_stalled h).2

end

/-- Two points of a workplane that are to be mirror images at its V axis. Their distances from it
differ in the last digit, which a small step does not change. -/
def farMirrorImages : Sketch Float :=
  (Sketch.empty .default).runAll .standard
    [.drawBase ⟨1⟩,
      .draw ⟨2⟩ (.point2d ⟨3⟩ 10000000000.0 1.0),
      .draw ⟨2⟩ (.point2d ⟨3⟩ (-9999999999.999998) 1.0),
      .relate ⟨2⟩ (.symmetricHorizontal ⟨4⟩ ⟨5⟩ ⟨3⟩)]

/-- The settings of a solver that takes four small steps and looks at two of them for progress. -/
def smallSteps (ratio : Float) : Config Float :=
  { Config.default with maxIterations := 4, damping := 0.1, stallWindow := 2, stallRatio := ratio }

/-- Whether two small steps leave the residual as it is, and a test holds for it. -/
def staysAfterTwo (ratio : Float) (test : Float → Bool) : Bool :=
  (farMirrorImages.prepared? (smallSteps ratio) ⟨2⟩ .empty).any fun fixed ↦
    (fixed.newton.progress? .standard (smallSteps ratio) fixed 2).any fun now ↦
      let f := fixed.newton.residuals fixed now.x
      !isConverged f (smallSteps ratio).tolerance &&
        (decide (now.history = [] ++ List.replicate 3 (maxAbs f)) && test (maxAbs f))

/-- If the test succeeds, two small steps lead to a history that repeats one residual. -/
theorem exists_of_staysAfterTwo {ratio : Float} {test : Float → Bool}
    (h : staysAfterTwo ratio test = true) :
    ∃ start fixed now r, Prepared (smallSteps ratio) farMirrorImages ⟨2⟩ .empty start fixed ∧
      fixed.newton.progress? .standard (smallSteps ratio) fixed 2 = some now ∧
      isConverged (fixed.newton.residuals fixed now.x) (smallSteps ratio).tolerance = false ∧
      now.history = [] ++ List.replicate 3 r ∧ test r = true := by
  obtain ⟨fixed, hfixed, h⟩ := (Option.any_eq_true _ _).mp h
  obtain ⟨now, hnow, h⟩ := (Option.any_eq_true _ _).mp h
  obtain ⟨start, hp⟩ := Sketch.prepared?_eq_some_iff.mp hfixed
  obtain ⟨hfailed, h⟩ := Bool.and_eq_true_iff.mp h
  obtain ⟨hhistory, htest⟩ := Bool.and_eq_true_iff.mp h
  exact ⟨start, fixed, now, _, hp, hnow, Bool.not_eq_true' _ ▸ hfailed,
    of_decide_eq_true hhistory, htest⟩

/-- With a fraction below the whole, an iteration that gets nowhere is given up after the two steps
that are looked at. -/
theorem stallLaws_iterate_farMirrorImages :
    ∃ start fixed now r, Prepared (smallSteps 0.9) farMirrorImages ⟨2⟩ .empty start fixed ∧
      fixed.newton.progress? .standard (smallSteps 0.9) fixed 2 = some now ∧
      now.history = [] ++ List.replicate 3 r ∧
      (fixed.newton.iterate .standard (smallSteps 0.9) fixed).stalled = true ∧
      (fixed.newton.iterate .standard (smallSteps 0.9) fixed).iterations = 2 := by
  have hstays : staysAfterTwo 0.9 (fun r ↦ !Arith.isNaN r && decide (0.9 * r < r)) = true := by
    decide +kernel
  obtain ⟨start, fixed, now, r, hp, hnow, hfailed, hhistory, htest⟩ :=
    exists_of_staysAfterTwo hstays
  obtain ⟨hdefined, hlt⟩ := Bool.and_eq_true_iff.mp htest
  have hbest := isLeast_replicate Nat.one_ne_zero (Bool.not_eq_true' _ ▸ hdefined)
  exact ⟨start, fixed, now, r, hp, hnow, hhistory,
    ((stallLaws_iterate .standard (smallSteps 0.9) fixed.newton fixed).flat_iff 2 now [] r r hnow
      hfailed (by decide) hhistory hbest).mpr (of_decide_eq_true hlt)⟩

/-- With the whole as the fraction, an iteration that gets nowhere is not given up after the two
steps that are looked at, and its history is not taken for stalled, as it is meant to be. -/
theorem not_stalled_farMirrorImages :
    farMirrorImages.Reachable .standard ∧ (smallSteps 1.0).validate = .ok () ∧
      (∃ r t, farMirrorImages.solveWith .standard (smallSteps 1.0) ⟨2⟩ .empty = .ok (r, t) ∧
        r.status = .didntConverge ∧ r.iterations = 4) ∧
      ∃ start fixed now r, Prepared (smallSteps 1.0) farMirrorImages ⟨2⟩ .empty start fixed ∧
        fixed.newton.progress? .standard (smallSteps 1.0) fixed 2 = some now ∧
        isConverged (fixed.newton.residuals fixed now.x) (smallSteps 1.0).tolerance = false ∧
        now.history = [] ++ List.replicate 3 r ∧
        (fixed.newton.iterate .standard (smallSteps 1.0) fixed).stalled = false ∧
        isStalled now.history 2 1.0 = false ∧ MeantStalled now.history 2 1.0 := by
  have hsolved : (farMirrorImages.solveWith .standard (smallSteps 1.0) ⟨2⟩ .empty).toOption.any
      (fun result ↦ decide (result.1.status = .didntConverge) &&
        decide (result.1.iterations = 4)) = true := by decide +kernel
  have hstays : staysAfterTwo 1.0 (fun r ↦ !Arith.isNaN r && !decide (r < 1.0 * r)) = true := by
    decide +kernel
  have hgoes : (farMirrorImages.prepared? (smallSteps 1.0) ⟨2⟩ .empty).any (fun fixed ↦
      !(fixed.newton.iterate .standard (smallSteps 1.0) fixed).stalled) = true := by decide +kernel
  obtain ⟨⟨r, t⟩, hrun, hreport⟩ := Outcome.exists_of_any_toOption hsolved
  obtain ⟨hstatus, hiterations⟩ := Bool.and_eq_true_iff.mp hreport
  obtain ⟨start, fixed, now, m, hp, hnow, hfailed, hhistory, htest⟩ :=
    exists_of_staysAfterTwo hstays
  obtain ⟨hdefined, hbelow⟩ := Bool.and_eq_true_iff.mp htest
  rw [Sketch.prepared?_eq_some_iff.mpr ⟨start, hp⟩, Option.any_some, Bool.not_eq_true'] at hgoes
  have hunstalled : isStalled now.history 2 1.0 = false := by
    rw [← Bool.not_eq_true]
    intro hstalled
    have hgiven := ((stalled_at_iff hnow hfailed).mpr hstalled).1
    rw [hgoes] at hgiven
    cases hgiven
  have hm : Arith.isNaN m = false := Bool.not_eq_true' _ ▸ hdefined
  have hmeant : MeantStalled now.history 2 1.0 := by
    rw [hhistory]
    exact ⟨m, m, bestOf_of_replicate (by decide) hm (isLeast_replicate Nat.one_ne_zero hm),
      of_decide_eq_false (Bool.not_eq_true' _ ▸ hbelow)⟩
  exact ⟨⟨.default, _, rfl⟩, rfl, ⟨r, t, hrun, of_decide_eq_true hstatus,
    of_decide_eq_true hiterations⟩, start, fixed, now, m, hp, hnow, hfailed, hhistory, hgoes,
    hunstalled, hmeant⟩

end SketchSolver
