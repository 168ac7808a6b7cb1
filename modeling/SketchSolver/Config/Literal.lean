import SketchSolver.Arith

/-!
# Literals of configuration text

Numbers and truth values as they are read from configuration text. Whole numbers may be written in
base sixteen, eight or two and with underscores between the digits. How scalars within range are
written and read is a parameter.
-/

namespace SketchSolver

/-- How scalars within range are written and read. -/
structure NumberFormat (R : Type) where
  /-- The text of a scalar. -/
  render : R → List Char
  /-- The scalar of a text. -/
  read? : List Char → Option R

namespace Config

/-- The truth value of a text. -/
def readFlag? (cs : List Char) : Option Bool :=
  if cs = "true".toList then some true
  else if cs = "false".toList then some false
  else none

/-- The value of a digit below sixteen. -/
def digitValue? (c : Char) : Option Nat :=
  if c.isDigit then some (c.toNat - '0'.toNat)
  else if 'a' ≤ c ∧ c ≤ 'f' then some (c.toNat - 'a'.toNat + 10)
  else if 'A' ≤ c ∧ c ≤ 'F' then some (c.toNat - 'A'.toNat + 10)
  else none

/-- One more digit of a number in some base. An underscore between digits means nothing. -/
def readDigit (base : Nat) (n : Option Nat) (c : Char) : Option Nat :=
  if c = '_' then n
  else
    match n, digitValue? c with
    | some n, some d => if d < base then some (base * n + d) else none
    | _, _ => none

/-- A number in some base, which begins with a digit. -/
def readDigits? (base : Nat) (cs : List Char) : Option Nat :=
  match cs with
  | [] => none
  | '_' :: _ => none
  | cs => cs.foldl (readDigit base) (some 0)

/-- A whole number in base ten, or in base sixteen, eight or two after its mark. -/
def readMagnitude? : List Char → Option Nat
  | '0' :: 'x' :: ds => readDigits? 16 ds
  | '0' :: 'o' :: ds => readDigits? 8 ds
  | '0' :: 'b' :: ds => readDigits? 2 ds
  | ds => readDigits? 10 ds

/-- A whole number without a sign that fits 64 bits. -/
def readCount? (cs : List Char) : Option Nat :=
  (readMagnitude? cs).filter (· < Nat.pow 2 64)

/-- Whether a text is a whole number that fits 64 bits, of which one is for the sign if there is
a sign. -/
def isInteger : List Char → Bool
  | '+' :: ds => (readMagnitude? ds).any (· < Nat.pow 2 63)
  | '-' :: ds => (readMagnitude? ds).any (· ≤ Nat.pow 2 63)
  | ds => (readCount? ds).isSome

variable {R : Type} [Arith R]

/-- A scalar: a number, or a word for a value beyond all numbers or for none. -/
def readNumber? (format : NumberFormat R) (cs : List Char) : Option R :=
  if cs = "inf".toList ∨ cs = "+inf".toList then some Arith.infinity
  else if cs = "-inf".toList then some (-Arith.infinity)
  else if cs = "NaN".toList ∨ cs = "+NaN".toList ∨ cs = "-NaN".toList then some Arith.nan
  else format.read? cs

/-- Whether a text is a number of any kind. -/
def isNumber (format : NumberFormat R) (cs : List Char) : Bool :=
  (readNumber? format cs).isSome || isInteger cs

end Config

end SketchSolver
