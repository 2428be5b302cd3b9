import CellFormula.Number.Power
import CellFormula.Worksheet.Lifting

/-!
# Functions of numbers

Each function here is a function of one or two doubles, lifted to values. A function fails with a
number error outside its domain and with a division by zero where it divides.

## Rounding

To round to a number of places, a number is scaled by a power of ten, cut or rounded to a whole
number, and scaled back; for a negative number of places the two scalings change their roles. The
number of places is cut to a whole number between -308 and 308, and one that is not a number counts
as zero.

## Main definitions

* `absolute`, `roundedDown`, `sign`, `squareRoot`, `exponential`, `naturalLog`, `log10`, `log`
* `modulo`, `raised`, `pi`, `sine`, `cosine`, `tangent`
* `Rounding`, `Rounding.toPlaces` and the functions that round to places
-/

namespace CellFormula.Worksheet

/-- `ABS` -/
def absolute : List Value → Value := liftNumber fun x => .ok x.abs

/-- `INT` -/
def roundedDown : List Value → Value := liftNumber fun x => .ok (Number.roundDown x)

/-- `SIGN` -/
def sign : List Value → Value := liftNumber fun x =>
  .ok (if x > 0.0 then 1.0 else if x < 0.0 then -1.0 else 0.0)

/-- `SQRT` -/
def squareRoot : List Value → Value := liftNumber fun x =>
  if x < 0.0 then .error .num else .ok x.sqrt

/-- `EXP` -/
def exponential : List Value → Value := liftNumber fun x => .ok x.exp

/-- A number above zero, and a number error for the rest. -/
def positive (x : Float) : Except ErrorKind Float := if x > 0.0 then .ok x else .error .num

/-- `LN` -/
def naturalLog : List Value → Value := liftNumber fun x => (positive x).map Float.log

/-- `LOG10` -/
def log10 : List Value → Value := liftNumber fun x => (positive x).map Float.log10

/-- The logarithm to a base. -/
def logTo (x base : Float) : Except ErrorKind Float := do
  let x ← positive x
  let base ← positive base
  if base == 1.0 then throw .div0
  return x.log / base.log

/-- `LOG`: to the base ten unless another one is given. -/
def log (args : List Value) : Value :=
  if (optionalArgument args 1).isNone then log10 (args.take 1) else liftNumber2 logTo args

/-- The remainder that has the sign of the divisor. -/
def remainder (x d : Float) : Except ErrorKind Float :=
  if d == 0.0 then .error .div0 else .ok (x - d * Number.roundDown (x / d))

/-- `MOD` -/
def modulo : List Value → Value := liftNumber2 remainder

/-- `POWER` -/
def raised : List Value → Value := liftNumber2 Number.power

/-- The double nearest to the circle number. -/
def piNumber : Float := 3.141592653589793

/-- `PI` -/
def pi (_ : List Value) : Value := .number piNumber

/-- `SIN` -/
def sine : List Value → Value := liftNumber fun x => .ok x.sin

/-- `COS` -/
def cosine : List Value → Value := liftNumber fun x => .ok x.cos

/-- `TAN` -/
def tangent : List Value → Value := liftNumber fun x => .ok x.tan

/-! ### Rounding to places -/

/-- Which whole number a scaled number becomes. -/
inductive Rounding
  /-- The nearest one, a half going away from zero. -/
  | nearest
  /-- The next one towards zero. -/
  | towardsZero
  /-- The next one away from zero. -/
  | awayFromZero
deriving DecidableEq, Repr

/-- The most places, on either side of the point. -/
def maxPlaces : Nat := 308

/-- A number of places: cut to a whole number and to the bounds. -/
def placesOf (x : Float) : Int :=
  if x.isNaN then 0
  else
    let size := min x.abs.toUInt64.toNat maxPlaces
    if x < 0.0 then -size else size

namespace Rounding

/-- The whole number. -/
def whole (mode : Rounding) (x : Float) : Float :=
  match mode with
  | towardsZero => Number.truncate x
  | awayFromZero =>
    if Number.fraction x == 0.0 then x else Number.truncate x + Number.unitSign x
  | nearest => Number.roundHalfAway x

/-- The number rounded to a number of places. -/
def toPlaces (mode : Rounding) (x : Float) (places : Float) : Float :=
  let places := placesOf places
  let factor := Number.powerOfTen places.natAbs
  if 0 ≤ places then mode.whole (x * factor) / factor else mode.whole (x / factor) * factor

/-- The worksheet function that rounds in this way, to no places unless a number is given. -/
def function (mode : Rounding) (args : List Value) : Value :=
  if (optionalArgument args 1).isNone then
    liftNumber (fun x => .ok (mode.toPlaces x 0.0)) (args.take 1)
  else
    liftNumber2 (fun x places => .ok (mode.toPlaces x places)) args

end Rounding

/-- `ROUND` -/
def round : List Value → Value := Rounding.nearest.function

/-- `ROUNDUP` -/
def roundUp : List Value → Value := Rounding.awayFromZero.function

/-- `ROUNDDOWN` -/
def roundDown : List Value → Value := Rounding.towardsZero.function

/-- `TRUNC` -/
def trunc : List Value → Value := Rounding.towardsZero.function

end CellFormula.Worksheet
