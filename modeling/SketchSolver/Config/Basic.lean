import SketchSolver.Arith

/-!
# Solver configuration

The settings of the solver, with their defaults and the ranges in which they are usable.
`Config.validate` names the first setting in declaration order that is out of range.

Specification: section E.2.
-/

namespace SketchSolver

/-- The settings of the solver. -/
structure Config (R : Type) where
  /-- Largest magnitude of an equation that counts as zero. -/
  tolerance : R
  /-- Number of Newton steps after which the solver gives up. -/
  maxIterations : Nat
  /-- Largest number of unknowns, or of equations, in one solve. -/
  maxUnknowns : Nat
  /-- Singular values below this fraction of the largest one count as zero. -/
  rankTolerance : R
  /-- Weight of the step of a dragged parameter. -/
  draggedScale : R
  /-- Fraction of the Newton step that is taken. -/
  damping : R
  /-- Number of latest steps among which progress is looked for. -/
  stallWindow : Nat
  /-- Progress means getting below this fraction of the best earlier residual. -/
  stallRatio : R
  /-- Whether to name the constraints behind a failure or a redundancy. -/
  findBadConstraints : Bool
  /-- Whether to name the parameters that are left free. -/
  findFreeParams : Bool
  deriving BEq, Repr

/-- A setting that is out of range, with its value where the value is reported. -/
inductive InvalidSetting (R : Type)
  | tolerance (value : R)
  | maxIterations
  | maxUnknowns
  | rankTolerance (value : R)
  | draggedScale (value : R)
  | damping (value : R)
  | stallWindow
  | stallRatio (value : R)
  deriving Repr

/-- What is wrong with a setting, given the text of its value. -/
def InvalidSetting.message {R : Type} (number : R → String) : InvalidSetting R → String
  | .tolerance x => "tolerance must be positive, got " ++ number x
  | .maxIterations => "max_iterations must be at least 1"
  | .maxUnknowns => "max_unknowns must be at least 1"
  | .rankTolerance x => "rank_tolerance must be positive, got " ++ number x
  | .draggedScale x => "dragged_scale must be positive, got " ++ number x
  | .damping x => "damping must be in (0, 1], got " ++ number x
  | .stallWindow => "stall_window must be at least 1"
  | .stallRatio x => "stall_ratio must be in (0, 1], got " ++ number x

namespace Config

variable {R : Type} [Arith R]

/-- The configuration that is used unless another one is given. -/
def default : Config R where
  tolerance := 1e-8
  maxIterations := 50
  maxUnknowns := 1024
  rankTolerance := 1e-10
  draggedScale := 1.0 / 20.0
  damping := 1.0
  stallWindow := 10
  stallRatio := 0.9
  findBadConstraints := true
  findFreeParams := false

instance : Inhabited (Config R) := ⟨default⟩

/-- The configuration with another fraction of the Newton step, brought into the range from a
tenth to the whole step. -/
def withDamping (c : Config R) (damping : R) : Config R :=
  { c with damping := Arith.clamp damping 0.1 1.0 }

/-- The configuration with another rule for progress. -/
def withStallDetection (c : Config R) (window : Nat) (ratio : R) : Config R :=
  { c with stallWindow := window, stallRatio := ratio }

/-- Whether a value is a positive number within range. -/
def isPositive (x : R) : Bool := Arith.isFinite x && decide ((0.0 : R) < x)

/-- Whether a value is a positive fraction of a whole. -/
def isFraction (x : R) : Bool := decide ((0.0 : R) < x) && decide (x ≤ (1.0 : R))

/-- Accepts a configuration whose settings are all usable. -/
def validate (c : Config R) : Except (InvalidSetting R) Unit :=
  if !isPositive c.tolerance then .error (.tolerance c.tolerance)
  else if c.maxIterations = 0 then .error .maxIterations
  else if c.maxUnknowns = 0 then .error .maxUnknowns
  else if !isPositive c.rankTolerance then .error (.rankTolerance c.rankTolerance)
  else if !isPositive c.draggedScale then .error (.draggedScale c.draggedScale)
  else if !isFraction c.damping then .error (.damping c.damping)
  else if c.stallWindow = 0 then .error .stallWindow
  else if !isFraction c.stallRatio then .error (.stallRatio c.stallRatio)
  else .ok ()

/-- The tolerance of a valid configuration is positive. -/
theorem tolerance_pos {c : Config R} (h : c.validate = .ok ()) : (0.0 : R) < c.tolerance := by
  unfold validate at h
  split at h
  · cases h
  · next ht =>
    rw [Bool.not_eq_true', Bool.not_eq_false] at ht
    unfold isPositive at ht
    exact of_decide_eq_true (Bool.and_eq_true_iff.mp ht).2

end Config

end SketchSolver
