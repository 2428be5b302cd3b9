import CellFormula.Number.General
import CellFormula.Text.Blank
import CellFormula.Text.Case

/-!
# Reading a number from text

Worksheet text counts as a number when it is, after the white space at both ends, a numeral with at
most one percent sign behind it. A numeral is an optional sign, digits with an optional point among
them, and an optional exponent. Names of infinities, inner spaces, a second percent sign and signs
elsewhere are refused.

## A filter and a reader

Doubles are read by a reader that knows more than numerals: it takes the names of infinity and of
NaN too, in capitals or small letters and with a sign or without one. What worksheet text may not
be is kept from it by a filter that looks at single bytes. It lets a text through that is not empty,
has no bytes but those of digits, of the point, of the letter e and of signs, and has a digit.

## Implementation notes

A numeral is read by a scanner over characters that collects the digits as one natural number and
counts those behind the point, so the number is known exactly before it is rounded once, to the
nearest double. The percent sign multiplies the rounded number by a hundredth; that is a second
rounding, and answers show it.

## Main definitions

* `Numeral` — sign, digits and exponent of a numeral
* `Numeral.ofChars?` — the numeral that the characters spell
* `floatOfChars?` — the double that the characters spell or name
* `numberOfText?` — the number that a worksheet text stands for
-/

namespace CellFormula.Number

/-- A numeral: a sign and a decimal. -/
structure Numeral where
  negative : Bool
  magnitude : Decimal
deriving DecidableEq, Repr

/-- The value of a decimal digit. -/
def digitValue (c : Char) : Nat := c.toNat - '0'.toNat

/-- The number that a row of digits spells. -/
def digitsValue (ds : List Char) : Nat := ds.foldl (fun n c => 10 * n + digitValue c) 0

/-- The sign in front, if there is one: whether it is a minus, and the characters behind it. -/
def takeSign : List Char → Bool × List Char
  | '-' :: cs => (true, cs)
  | '+' :: cs => (false, cs)
  | cs => (false, cs)

/-- The exponent that makes up all of the characters: nothing at all, or a letter e, an optional
sign and at least one digit. -/
def exponentOf? : List Char → Option Int
  | [] => some 0
  | c :: cs =>
    if c = 'e' ∨ c = 'E' then
      let (negative, digits) := takeSign cs
      if digits.isEmpty || !digits.all Char.isDigit then none
      else if negative then some (-(digitsValue digits : Int)) else some (digitsValue digits)
    else none

/-- The digits behind a point, and what follows them. Without a point there are none. -/
def takePlaces : List Char → List Char × List Char
  | '.' :: cs => (cs.takeWhile Char.isDigit, cs.dropWhile Char.isDigit)
  | cs => ([], cs)

/-- The numeral that the characters spell, all of them. -/
def Numeral.ofChars? (cs : List Char) : Option Numeral :=
  let (negative, unsigned) := takeSign cs
  let whole := unsigned.takeWhile Char.isDigit
  let (places, tail) := takePlaces (unsigned.dropWhile Char.isDigit)
  if whole.isEmpty && places.isEmpty then none
  else (exponentOf? tail).map fun exponent =>
    ⟨negative, ⟨digitsValue (whole ++ places), exponent - places.length⟩⟩

/-- The double nearest to the numeral. A minus stays on a zero. -/
def Numeral.toFloat (n : Numeral) : Float :=
  if n.negative then -n.magnitude.toFloat else n.magnitude.toFloat

/-- The characters in front of a percent sign at the end and the factor that goes with it. -/
def takePercent (cs : List Char) : List Char × Float :=
  match cs.reverse with
  | '%' :: before => (Text.trimEnd before.reverse, 0.01)
  | _ => (cs, 1.0)

/-! ### Doubles -/

/-- The names of numbers that have no numeral, in capital letters. -/
def numberNames : List (String × Float) :=
  [("INF", 1.0 / 0.0), ("INFINITY", 1.0 / 0.0), ("NAN", 0.0 / 0.0)]

/-- The number with this name, in capital letters or small ones. -/
def namedNumber? (cs : List Char) : Option Float :=
  numberNames.lookup (String.ofList (Text.asciiCapital cs))

/-- The double that the characters spell, all of them: that of a numeral, or one that has a name,
with a sign in front of it or without one. -/
def floatOfChars? (cs : List Char) : Option Float :=
  match Numeral.ofChars? cs with
  | some n => some n.toFloat
  | none =>
    let (negative, name) := takeSign cs
    (namedNumber? name).map fun x => if negative then -x else x

/-! ### Worksheet text -/

/-- The byte is a decimal digit. -/
def isDigitByte (b : UInt8) : Bool := '0'.toUInt8 ≤ b && b ≤ '9'.toUInt8

/-- The byte may stand in a numeral. -/
def isNumeralByte (b : UInt8) : Bool :=
  isDigitByte b || b ∈ ['.'.toUInt8, 'e'.toUInt8, 'E'.toUInt8, '+'.toUInt8, '-'.toUInt8]

/-- The bytes of a text pass the filter: there are some, all of them may stand in a numeral, and one
is a digit. -/
def passesFilter (bytes : List UInt8) : Bool :=
  !bytes.isEmpty && bytes.all isNumeralByte && bytes.any isDigitByte

/-- The number that a worksheet text stands for, if it stands for one. -/
def numberOfText? (s : String) : Option Float :=
  let (body, factor) := takePercent (Text.trim s.toList)
  if passesFilter (body.flatMap String.utf8EncodeChar) then
    (floatOfChars? body).map (· * factor)
  else none

end CellFormula.Number
