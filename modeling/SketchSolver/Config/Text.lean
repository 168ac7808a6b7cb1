import SketchSolver.Config.Basic

/-!
# Configuration text

A configuration is written as its settings, each with its name. How the text is laid out and taken
apart is a parameter. A text need not have all settings. The others are those of the default
configuration, and what comes of it has to be usable.

Specification: section E.2.
-/

namespace SketchSolver

/-- One setting with its value. -/
inductive Setting (R : Type)
  | tolerance (value : R)
  | maxIterations (value : Nat)
  | maxUnknowns (value : Nat)
  | rankTolerance (value : R)
  | draggedScale (value : R)
  | damping (value : R)
  | stallWindow (value : Nat)
  | stallRatio (value : R)
  | findBadConstraints (value : Bool)
  | findFreeParams (value : Bool)
  deriving Repr

namespace Setting

variable {R : Type}

/-- The name of a setting. -/
def name : Setting R → List Char
  | tolerance _ => "tolerance".toList
  | maxIterations _ => "max_iterations".toList
  | maxUnknowns _ => "max_unknowns".toList
  | rankTolerance _ => "rank_tolerance".toList
  | draggedScale _ => "dragged_scale".toList
  | damping _ => "damping".toList
  | stallWindow _ => "stall_window".toList
  | stallRatio _ => "stall_ratio".toList
  | findBadConstraints _ => "find_bad_constraints".toList
  | findFreeParams _ => "find_free_params".toList

end Setting

/-- How configurations are written as text and read. -/
structure TextFormat (R : Type) where
  /-- The text of the value of a setting. -/
  valueText : Setting R → List Char
  /-- The setting of a name with the value of a text. -/
  readSetting? : List Char → List Char → Option (Setting R)
  /-- The text of a configuration. -/
  write : Config R → List Char
  /-- The configuration of a text, with the settings of another one where the text has none. -/
  read? : Config R → List Char → Option (Config R)

namespace Config

/-- Why no configuration comes from a text. -/
inductive Error (R : Type)
  /-- There is no text to read. -/
  | unreadable
  /-- The text is not a configuration. -/
  | malformed
  /-- A setting is out of range. -/
  | invalid (setting : InvalidSetting R)
  deriving Repr

variable {R : Type}

/-- The settings in declaration order. -/
def settings (c : Config R) : List (Setting R) :=
  [.tolerance c.tolerance, .maxIterations c.maxIterations, .maxUnknowns c.maxUnknowns,
    .rankTolerance c.rankTolerance, .draggedScale c.draggedScale, .damping c.damping,
    .stallWindow c.stallWindow, .stallRatio c.stallRatio,
    .findBadConstraints c.findBadConstraints, .findFreeParams c.findFreeParams]

/-- The configuration with one setting replaced. -/
def set (c : Config R) : Setting R → Config R
  | .tolerance x => { c with tolerance := x }
  | .maxIterations n => { c with maxIterations := n }
  | .maxUnknowns n => { c with maxUnknowns := n }
  | .rankTolerance x => { c with rankTolerance := x }
  | .draggedScale x => { c with draggedScale := x }
  | .damping x => { c with damping := x }
  | .stallWindow n => { c with stallWindow := n }
  | .stallRatio x => { c with stallRatio := x }
  | .findBadConstraints b => { c with findBadConstraints := b }
  | .findFreeParams b => { c with findFreeParams := b }

/-- The text of a configuration. -/
def render (format : TextFormat R) (c : Config R) : List Char := format.write c

variable [Arith R]

/-- The usable configuration that a text describes. -/
def parse (format : TextFormat R) (cs : List Char) : Except (Error R) (Config R) :=
  match format.read? default cs with
  | none => .error .malformed
  | some c =>
    match c.validate with
    | .ok () => .ok c
    | .error e => .error (.invalid e)

/-- The usable configuration of a file with the given contents, or of one that is missing. -/
def load (format : TextFormat R) : Option (List Char) → Except (Error R) (Config R)
  | none => .error .unreadable
  | some cs => parse format cs

end Config

end SketchSolver
