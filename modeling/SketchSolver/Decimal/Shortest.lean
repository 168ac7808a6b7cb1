import SketchSolver.Decimal.Binary

/-!
# Shortest decimal text

A double is written with the fewest decimal digits that read back to it. All doubles are written
in positional notation, without an exponent and without a fraction if they are whole.
-/

namespace SketchSolver.Decimal

/-- A whole number and the power of ten that it is multiplied by. -/
structure Scaled where
  /-- The digits. -/
  digits : Nat
  /-- The power of ten. -/
  exponent : Int
  deriving DecidableEq, Repr

/-- The point of the decimal grid with one spacing that lies in the interval of numbers that round
to a double, if there is one. Of two such points the nearer is taken, and the upper one if they
are equally near. The interval is counted in quarters of the double's spacing: it reaches two
quarters up and two down, but one down from a power of two, where doubles lie closer below. Its
ends belong to it if the double's mantissa is even. -/
def gridPoint? (mantissa : Nat) (exponent spacing : Int) : Option Scaled :=
  let quarter := Fraction.scale (Fraction.scale ⟨1, 1⟩ 2 (exponent - 2)) 10 (-spacing)
  let value := 4 * mantissa * quarter.num
  let low := (4 * mantissa - if mantissa = Nat.pow 2 52 then 1 else 2) * quarter.num
  let high := (4 * mantissa + 2) * quarter.num
  let inside (c : Nat) : Bool :=
    let point := c * quarter.den
    if mantissa % 2 = 0 then decide (low ≤ point ∧ point ≤ high)
    else decide (low < point ∧ point < high)
  let below := value / quarter.den
  let rest := value % quarter.den
  let above := below + 1
  if rest = 0 then some ⟨below, spacing⟩
  else if inside below && (decide (2 * rest < quarter.den) || !inside above) then
    some ⟨below, spacing⟩
  else if inside above then some ⟨above, spacing⟩
  else none

/-- The shortest decimal that reads back to a double: the first grid of one, two and up to
seventeen digits that has a point in the interval of the double. -/
def shortest (mantissa : Nat) (exponent : Int) : Scaled :=
  let value := Binary.fraction mantissa exponent
  let leading := leadingExponent value
  let grids := (List.range 17).map fun (i : Nat) ↦ leading - (i : Int)
  match grids.findSome? (gridPoint? mantissa exponent) with
  | some s => s
  | none => ⟨(value.scale 10 (16 - leading)).round, leading - 16⟩

/-- Digits before and behind the point, without trailing zeros behind it. -/
def Scaled.positional (s : Scaled) : String :=
  if 0 ≤ s.exponent then Nat.repr (s.digits * Nat.pow 10 s.exponent.toNat)
  else
    let places := (-s.exponent).toNat
    let behind := Nat.toDigits 10 (s.digits % Nat.pow 10 places)
    let padded := List.replicate (places - behind.length) '0' ++ behind
    let kept := (padded.reverse.dropWhile (· == '0')).reverse
    let whole := Nat.repr (s.digits / Nat.pow 10 places)
    if kept.isEmpty then whole else whole ++ "." ++ String.ofList kept

/-- The sign of a text. -/
def signText (negative : Bool) : String := if negative then "-" else ""

/-- The shortest text of a double. Zero keeps its sign and an undefined value has none. -/
def shortestText (x : Float) : String :=
  match Binary.ofFloat x with
  | .nan => "NaN"
  | .infinite negative => signText negative ++ "inf"
  | .finite negative mantissa exponent =>
    signText negative ++
      if mantissa = 0 then "0" else (shortest mantissa exponent).positional

end SketchSolver.Decimal
