import SketchSolver.Proofs.Text.Doubles

/-!
# Configurations are read as they are written

With a lawful format, a configuration that is written and read again is the same, and a text that
lists some settings in any order stands for the default configuration with exactly these settings
replaced. Besides the laws, what is asked of the format is that finite numbers and counts read back
from what is written for them.
-/

namespace SketchSolver

namespace Config

variable {R : Type} [Arith R] {format : TextFormat R} {ss : List (Setting R)} {cs : List Char}

end Config

end SketchSolver
