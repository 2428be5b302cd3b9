import CellFormula.Bytes.LittleEndian

/-!
# Stored doubles and whole parts

A number in a stored formula is eight bytes. `Binary64` keeps them as they are, so a formula that
is read and written again keeps every bit, the payload of a NaN included. Computation happens on
`Float`, where all NaNs are one; `Binary64.toFloat` is the step from the one to the other.

## Whole parts

`truncate` is the only operation here that looks inside a double. It goes through the 64-bit
integers: a double of magnitude `2 ^ 63` or more is whole already, and below that the truncated
magnitude is an integer that a double holds exactly. Rounding down, rounding half away from zero
and the fraction are arithmetic on it.

## Main definitions

* `Binary64`, `Binary64.toFloat`, `Binary64.ofFloat`
* `ofCount` — a count as a number
* `truncate`, `roundDown`, `roundHalfAway`, `fraction`, `unitSign`
* `lesser`, `greater` — the smaller and the larger of two numbers, ignoring a NaN
-/

namespace CellFormula

/-- A double as it is stored: its 64 bits. -/
structure Binary64 where
  /-- The sign, the exponent and the fraction, the sign highest. -/
  bits : UInt64
deriving DecidableEq, Repr, Inhabited

namespace Binary64

/-- The number that the bits stand for. -/
def toFloat (x : Binary64) : Float := Float.ofBits x.bits

/-- The bits of a computed number. -/
def ofFloat (x : Float) : Binary64 := ⟨x.toBits⟩

end Binary64

namespace Number

/-- A count as a number. Counts are 64-bit words. -/
def ofCount (n : Nat) : Float := n.toUInt64.toFloat

/-- The sign bit is set. Negative zero has it set too. -/
def hasSignBit (x : Float) : Bool := x.toBits >>> 63 == 1

/-- The number without the part after the point; the sign stays, also on a zero. -/
def truncate (x : Float) : Float :=
  if x.abs < 9223372036854775808.0 then
    let whole := x.abs.toUInt64.toFloat
    if hasSignBit x then -whole else whole
  else x

/-- The part after the point, with the sign of the number. -/
def fraction (x : Float) : Float := x - truncate x

/-- The largest whole number that is not larger. -/
def roundDown (x : Float) : Float :=
  let whole := truncate x
  if x < whole then whole - 1.0 else whole

/-- One with the sign of the number, also for a zero; a NaN has none. -/
def unitSign (x : Float) : Float :=
  if x.isNaN then x else if hasSignBit x then -1.0 else 1.0

/-- The nearest whole number, a half going away from zero. -/
def roundHalfAway (x : Float) : Float :=
  if (fraction x).abs < 0.5 then truncate x else truncate x + unitSign x

/-- The smaller number; a NaN gives way to the other, and of two equal ones the first stays. -/
def lesser (a b : Float) : Float := if a.isNaN then b else if b < a then b else a

/-- The larger number; a NaN gives way to the other, and of two equal ones the first stays. -/
def greater (a b : Float) : Float := if a.isNaN then b else if a < b then b else a

end Number

end CellFormula
