import CellFormula.ErrorKind
import CellFormula.Number.Binary64

/-!
# Powers

The power operator refuses what has no finite real value: operands that are not finite, zero to the
power zero, a negative base under an exponent that is not whole, and results past the largest
double. Zero under a negative exponent is a division by zero. Whole exponents of ten, which the
rounding functions scale with, are multiplied up by repeated squaring.

## Main definitions

* `power` — the power operator on numbers
* `powerOfTen` — a whole power of ten by repeated squaring
-/

namespace CellFormula.Number

/-- The number is whole up to an error that computed exponents may carry. -/
def isNearlyWhole (x : Float) : Bool := (x - roundHalfAway x).abs ≤ 1.0e-10

/-- A finite number, and a number error for the rest. -/
def finite (x : Float) : Except ErrorKind Float := if x.isFinite then .ok x else .error .num

/-- The first number raised to the second. -/
def power (base exponent : Float) : Except ErrorKind Float :=
  if !base.isFinite || !exponent.isFinite then .error .num
  else if base == 0.0 && exponent == 0.0 then .error .num
  else if base == 0.0 && exponent < 0.0 then .error .div0
  else if base < 0.0 && !isNearlyWhole exponent then .error .num
  else finite (base.pow exponent)

/-- The product of `acc` and the squares of `square` that the binary digits of `n` select. -/
def powerBySquaring : Nat → Float → Float → Float
  | 0, acc, _ => acc
  | n + 1, acc, square =>
    powerBySquaring ((n + 1) / 2) (if (n + 1) % 2 = 1 then acc * square else acc)
      (square * square)
termination_by n => n

/-- Ten to a whole power. -/
def powerOfTen (n : Nat) : Float := powerBySquaring n 1.0 10.0

end CellFormula.Number
