import SketchSolver.Decimal.Binary

/-!
# Reading decimal text

A decimal number is an optional sign, digits with at most one point among them and at least one
digit, and an optional exponent of ten with an optional sign of its own.
-/

namespace SketchSolver.Decimal

/-- The whole number that a list of decimal digits is written for. -/
def ofDigits (ds : List Char) : Nat := ds.foldl (fun n c ↦ 10 * n + (c.toNat - '0'.toNat)) 0

/-- An optional sign, as whether the number is negative, and what follows it. -/
def splitSign : List Char → Bool × List Char
  | '-' :: cs => (true, cs)
  | '+' :: cs => (false, cs)
  | cs => (false, cs)

/-- The value of an exponent with its mark, where no text means zero. -/
def readExponent? : List Char → Option Int
  | [] => some 0
  | c :: cs =>
    let (negative, ds) := splitSign cs
    if (c == 'e' || c == 'E') && !ds.isEmpty && ds.all Char.isDigit then
      some (if negative then -(ofDigits ds : Int) else (ofDigits ds : Int))
    else none

/-- A decimal number as its sign, its digits and the power of ten they are multiplied by. -/
def readDecimal? (cs : List Char) : Option (Bool × Nat × Int) :=
  let (negative, cs) := splitSign cs
  let whole := cs.takeWhile Char.isDigit
  let rest := cs.dropWhile Char.isDigit
  let (places, rest) :=
    match rest with
    | '.' :: cs => (cs.takeWhile Char.isDigit, cs.dropWhile Char.isDigit)
    | cs => ([], cs)
  let digits := whole ++ places
  if digits.isEmpty then none
  else (readExponent? rest).map fun e ↦ (negative, ofDigits digits, e - (places.length : Int))

/-- The double nearest to a decimal number. -/
def readFloat? (cs : List Char) : Option Float :=
  (readDecimal? cs).map fun d ↦ floatOfDecimal d.1 d.2.1 d.2.2

end SketchSolver.Decimal
