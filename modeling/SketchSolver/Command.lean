import SketchSolver.Sketch.Relate
import SketchSolver.Solve.Solver

/-!
# Commands

The operations on a sketch as data. A command leaves a sketch behind whether it is answered or
refused, so a run of commands is a sequence of sketches, and the sketches that can come about are
those at the end of a run.

Specification: section 6.
-/

namespace SketchSolver

/-- An operation on a sketch. -/
inductive Command (R : Type)
  /-- Draw an entity in a group. -/
  | draw (g : GroupId) (request : EntityRequest R)
  /-- Draw the base workplane in a group. -/
  | drawBase (g : GroupId)
  /-- Add a constraint to a group. -/
  | relate (g : GroupId) (request : ConstraintRequest R)
  /-- Give a parameter a new value. -/
  | setParamValue (p : ParamId) (value : R)
  /-- Remove a group and all that belongs to it. -/
  | removeGroup (g : GroupId)
  /-- Register a group. -/
  | createGroup (g : GroupId)
  /-- Remove all content. -/
  | clear
  /-- Replace the configuration. -/
  | setConfig (config : Config R)
  /-- Solve a group. -/
  | solve (g : GroupId)
  /-- Solve a group with dragged parameters. -/
  | solveDragged (g : GroupId) (dragged : List ParamId)
  deriving Repr

/-- What a command answers. -/
inductive Answer (R : Type)
  /-- The handle of a new entity. -/
  | entity (id : EntityId)
  /-- The handle of a new constraint. -/
  | constraint (id : ConstraintId)
  /-- The report of a solve. -/
  | report (r : SolveReport R)
  /-- Nothing more than that it is done. -/
  | done
  deriving Repr

variable {R : Type} [Arith R]

/-- What a command does to a sketch. -/
def Command.operation (la : LinearAlgebra R) : Command R → Operation R (Answer R)
  | .draw g request => .entity <$> .change fun s ↦ s.draw g request
  | .drawBase g => .entity <$> Operation.drawBase g
  | .relate g request => .constraint <$> Operation.relate g request
  | .setParamValue p x => .change fun s ↦ (s.setParamValue p x).map (.done, ·)
  | .removeGroup g => .change fun s ↦ (s.removeGroup g).map (.done, ·)
  | .createGroup g => .change fun s ↦ .ok (.done, s.createGroup g)
  | .clear => .change fun s ↦ .ok (.done, s.clear)
  | .setConfig config => .change fun s ↦ .ok (.done, s.setConfig config)
  | .solve g => .report <$> Operation.solve la g
  | .solveDragged g dragged => .report <$> Operation.solveDragged la g dragged

/-- The answer to a command and the sketch after it, unless the command is refused. -/
def Command.run (la : LinearAlgebra R) (s : Sketch R) (c : Command R) :
    Outcome R (Answer R × Sketch R) := (c.operation la).outcome s

namespace Sketch

/-- The sketch that a command leaves behind, also if it is refused. -/
def step (la : LinearAlgebra R) (s : Sketch R) (c : Command R) : Sketch R :=
  (c.operation la).left s

/-- The sketch after a run of commands. -/
def runAll (la : LinearAlgebra R) (s : Sketch R) (cs : List (Command R)) : Sketch R :=
  cs.foldl (step la) s

/-- A run can be split. -/
theorem runAll_append (la : LinearAlgebra R) (s : Sketch R) (cs ds : List (Command R)) :
    s.runAll la (cs ++ ds) = (s.runAll la cs).runAll la ds :=
  List.foldl_append

/-- A sketch that comes about by a run of commands on an empty one. -/
def Reachable (la : LinearAlgebra R) (s : Sketch R) : Prop :=
  ∃ (config : Config R) (cs : List (Command R)), s = (empty config).runAll la cs

/-- The sketch after a command comes about if the one before does. -/
theorem Reachable.step {la : LinearAlgebra R} {s : Sketch R} (h : Reachable la s)
    (c : Command R) : Reachable la (s.step la c) := by
  obtain ⟨config, cs, rfl⟩ := h
  exact ⟨config, cs ++ [c], by rw [runAll_append]; rfl⟩

end Sketch

end SketchSolver
