import SketchSolver.Config.Record
import SketchSolver.Decimal.Read
import SketchSolver.Decimal.Shortest

/-!
# Numbers in configuration text

Doubles are written with their shortest text, and a whole number with a point and a zero behind
it.
-/

namespace SketchSolver.Config

/-- The text of a double in a configuration. -/
def floatText (x : Float) : String :=
  let text := Decimal.shortestText x
  if x.isFinite && !text.toList.contains '.' then text ++ ".0" else text

/-- The format of doubles in a configuration. -/
def floatNumbers : NumberFormat Float := ⟨fun x ↦ (floatText x).toList, Decimal.readFloat?⟩

/-- The format of configurations with doubles. -/
def floatFormat : TextFormat Float := recordFormat floatNumbers

end SketchSolver.Config
