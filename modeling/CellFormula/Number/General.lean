import CellFormula.Number.Shortest

/-!
# Numbers as text in the General format

A number is written with at most fifteen significant digits. It is rounded to fifteen digits, the
rounded decimal is read back as a double, and the shortest digits of that double are written:
positionally when the leading digit stands between `10 ^ -9` and `10 ^ 14`, with an exponent of at
least two digits otherwise. Zero has no sign, a number that is not finite is written as the error
it counts as, and the few doubles whose fifteen digits lie past the largest double as `inf`.

## Main definitions

* `NumberFormat`, `general` — the decisions of the format as data
* `Decimal.positional`, `Decimal.scientific` — the two notations
* `generalText` — a number as text
-/

namespace CellFormula.Number

/-- How numbers are written. -/
structure NumberFormat where
  /-- The most significant digits that are written. -/
  significant : Nat
  /-- The least power of ten of a leading digit that is written positionally. -/
  positionalFrom : Int
  /-- The first power of ten of a leading digit that is written with an exponent again. -/
  positionalBelow : Int
  /-- The least count of digits in an exponent. -/
  exponentDigits : Nat
  /-- What is written for a number that is not finite. -/
  notFinite : String
  /-- What is written for a magnitude that rounds past the largest double. -/
  overflow : String

/-- The General format: fifteen digits, positional from `1E-09` and below `1E+15`. -/
def general : NumberFormat where
  significant := 15
  positionalFrom := -9
  positionalBelow := 15
  exponentDigits := 2
  notFinite := "#NUM!"
  overflow := "inf"

/-- Some zeros. -/
def zeros (count : Nat) : List Char := List.replicate count '0'

/-- The digits of a natural number. -/
def digitsOf (n : Nat) : List Char := Nat.toDigits 10 n

namespace Decimal

/-- The power of ten of the leading digit. -/
def leadingPower (d : Decimal) : Int := d.exponent + (digitsOf d.digits).length - 1

/-- The decimal without an exponent: its digits, with zeros and a point where they are needed. -/
def positional (d : Decimal) : List Char :=
  let digits := digitsOf d.digits
  if 0 ≤ d.exponent then digits ++ zeros d.exponent.toNat
  else
    let places := (-d.exponent).toNat
    if places < digits.length then
      digits.take (digits.length - places) ++ '.' :: digits.drop (digits.length - places)
    else
      '0' :: '.' :: (zeros (places - digits.length) ++ digits)

/-- The digits after the first, behind a point, or nothing when there is only one. -/
def fractionDigits : List Char → List Char
  | [] => []
  | ds => '.' :: ds

/-- The decimal with one digit before the point and a signed exponent. -/
def scientific (exponentDigits : Nat) (d : Decimal) : List Char :=
  let digits := digitsOf d.digits
  let power := digitsOf d.leadingPower.natAbs
  digits.take 1 ++ fractionDigits (digits.drop 1)
    ++ 'E' :: (if d.leadingPower < 0 then '-' else '+')
    :: (zeros (exponentDigits - power.length) ++ power)

/-- The decimal in the notation that the format chooses for its size. -/
def write (format : NumberFormat) (d : Decimal) : List Char :=
  if format.positionalFrom ≤ d.leadingPower ∧ d.leadingPower < format.positionalBelow then
    d.positional
  else
    d.scientific format.exponentDigits

end Decimal

/-- The double nearest to a decimal. -/
def Decimal.toFloat (d : Decimal) : Float :=
  Float.ofScientific d.digits (decide (d.exponent < 0)) d.exponent.natAbs

/-- The magnitude of a finite number as text, in the given format. -/
def NumberFormat.magnitudeText (format : NumberFormat) (x : Float) : List Char :=
  let rounded := ((Dyadic.ofFloat x).rounded format.significant).toFloat
  if rounded.isFinite then ((Dyadic.ofFloat rounded).shortest.normalized).write format
  else format.overflow.toList

/-- The number as text, in the given format. -/
def NumberFormat.text (format : NumberFormat) (x : Float) : String :=
  if x == 0.0 then "0"
  else if x.isFinite then
    let magnitude := format.magnitudeText x
    String.ofList (if x < 0.0 then '-' :: magnitude else magnitude)
  else format.notFinite

/-- The number as text in the General format. -/
def generalText (x : Float) : String := general.text x

end CellFormula.Number
