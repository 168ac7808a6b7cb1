import SketchSolver.Proofs.Exact.Arith
import SketchSolver.Vector

/-!
# Undefined results

Exact arithmetic gives a number for every quotient and every root. Here it gives one only where
there is one: a quotient by zero, the square root of a number that is not positive and the angle of
a sine or cosine out of range are undefined, and so is everything that is computed from them. A
computation has met none of these if it gives a number over these scalars.
-/

namespace SketchSolver

/-- The real numbers, and what operations give that are undefined. -/
inductive PartialReal where
  /-- The result of an undefined operation. -/
  | undefined
  /-- A number. -/
  | value (x : ℝ)

namespace PartialReal

open Classical in
/-- A function of the numbers of a domain. -/
noncomputable def lift (domain : ℝ → Prop) (f : ℝ → ℝ) : PartialReal → PartialReal
  | value x => if domain x then value (f x) else undefined
  | undefined => undefined

open Classical in
/-- A function of two numbers, the second one of a domain. -/
noncomputable def lift₂ (domain : ℝ → Prop) (f : ℝ → ℝ → ℝ) :
    PartialReal → PartialReal → PartialReal
  | value x, value y => if domain y then value (f x y) else undefined
  | _, _ => undefined

/-- A relation between numbers. What is undefined is in none. -/
def Both (r : ℝ → ℝ → Prop) : PartialReal → PartialReal → Prop
  | value x, value y => r x y
  | _, _ => False

open Classical in
/-- The real numbers with undefined results. -/
noncomputable instance : Arith PartialReal where
  add := lift₂ (fun _ ↦ True) (· + ·)
  sub := lift₂ (fun _ ↦ True) (· - ·)
  mul := lift₂ (fun _ ↦ True) (· * ·)
  div := lift₂ (fun y ↦ y ≠ 0) (· / ·)
  neg := lift (fun _ ↦ True) (- ·)
  ofScientific m s e := value (OfScientific.ofScientific m s e)
  lt := Both (· < ·)
  le := Both (· ≤ ·)
  beq x y := decide (Both (· = ·) x y)
  decLt _ _ := inferInstance
  decLe _ _ := inferInstance
  sqrt := lift (fun x ↦ 0 < x) Arith.sqrt
  sin := lift (fun _ ↦ True) Arith.sin
  cos := lift (fun _ ↦ True) Arith.cos
  asin := lift (fun x ↦ |x| ≤ 1) Arith.asin
  acos := lift (fun x ↦ |x| ≤ 1) Arith.acos
  atan2 := lift₂ (fun _ ↦ True) Arith.atan2
  abs := lift (fun _ ↦ True) Arith.abs
  isNaN | undefined => true | value _ => false
  isFinite | undefined => false | value _ => true
  pi := value Arith.pi
  nan := undefined
  infinity := undefined

variable {x y : ℝ}

/-- Literals are numbers. -/
@[simp] theorem ofScientific_eq (m : ℕ) (s : Bool) (e : ℕ) :
    (OfScientific.ofScientific m s e : PartialReal) =
      value (@OfScientific.ofScientific ℝ Arith.real.toOfScientific m s e) := rfl

/-- Numbers have a sum. -/
@[simp] theorem value_add (x y : ℝ) : value x + value y = value (x + y) := if_pos trivial

/-- Numbers have a difference. -/
@[simp] theorem value_sub (x y : ℝ) : value x - value y = value (x - y) := if_pos trivial

/-- Numbers have a product. -/
@[simp] theorem value_mul (x y : ℝ) : value x * value y = value (x * y) := if_pos trivial

/-- Numbers have a quotient unless they are divided by zero. -/
theorem value_div (h : y ≠ 0) : value x / value y = value (x / y) := if_pos h

/-- Positive numbers have a square root. -/
theorem sqrt_value (h : 0 < x) : Arith.sqrt (value x) = value (Arith.sqrt x) := if_pos h

/-- Numbers are compared as such. -/
@[simp] theorem value_lt_value : value x < value y ↔ x < y := Iff.rfl

/-- Vectors of numbers have an outer product. -/
theorem cross_map_value (u v : Vec3 ℝ) :
    (u.map value).cross (v.map value) = (u.cross v).map value := by
  simp [Vec3.cross, Vec3.map]

end PartialReal

end SketchSolver
