import SketchSolver.Decimal.Shortest

/-!
# Decimal text with a given number of places

Fixed notation shows a given number of digits behind the point; scientific notation shows one
digit before the point, a given number behind it and the power of ten. Both round the exact binary
value, a half to the even neighbour.
-/

namespace SketchSolver.Decimal

/-- The digits of a number, filled with zeros in front. -/
def padded (width n : Nat) : String :=
  let ds := Nat.toDigits 10 n
  String.ofList (List.replicate (width - ds.length) '0' ++ ds)

/-- The magnitude of a finite value in fixed notation, with at least one place. -/
def fixedDigits (places mantissa : Nat) (exponent : Int) : String :=
  let units := ((Binary.fraction mantissa exponent).scale 10 places).round
  Nat.repr (units / Nat.pow 10 places) ++ "." ++ padded places (units % Nat.pow 10 places)

/-- Fixed notation. -/
def fixedText (places : Nat) (x : Float) : String :=
  match Binary.ofFloat x with
  | .nan => "NaN"
  | .infinite negative => signText negative ++ "inf"
  | .finite negative mantissa exponent =>
    signText negative ++ fixedDigits places mantissa exponent

/-- The magnitude of a finite value in scientific notation. A value that rounds up to the next
power of ten is written with that power. -/
def scientificDigits (places mantissa : Nat) (exponent : Int) : String :=
  let value := Binary.fraction mantissa exponent
  let leading := if mantissa = 0 then 0 else leadingExponent value
  let units := (value.scale 10 ((places : Int) - leading)).round
  let carried := decide (units = Nat.pow 10 (places + 1))
  let units := if carried then Nat.pow 10 places else units
  let leading := if carried then leading + 1 else leading
  Nat.repr (units / Nat.pow 10 places) ++ "." ++ padded places (units % Nat.pow 10 places) ++ "e" ++
    signText (decide (leading < 0)) ++ Nat.repr leading.natAbs

/-- Scientific notation. -/
def scientificText (places : Nat) (x : Float) : String :=
  match Binary.ofFloat x with
  | .nan => "NaN"
  | .infinite negative => signText negative ++ "inf"
  | .finite negative mantissa exponent =>
    signText negative ++ scientificDigits places mantissa exponent

end SketchSolver.Decimal
