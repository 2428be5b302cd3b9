import CellFormula.Text.Case
import CellFormula.Text.Slice
import CellFormula.Worksheet.Lifting

/-!
# Functions of texts

These functions measure, cut, respell and join texts. Lengths and places are counted in characters.
A count is cut to a whole number and must not be negative; one that is not a number, or larger than
any text, means all there is.

## Main definitions

* `characterCount` — an argument as a count of characters
* `length`, `upper`, `lower`, `trimmed`, `left`, `right`, `middle`, `concatenated` — the functions
-/

namespace CellFormula.Worksheet

/-- The largest count of characters. -/
def maxCount : Float := 4294967295.0

/-- A number of characters. -/
def characterCount (v : Value) : Except ErrorKind Nat := do
  let n := Number.truncate (← v.toNumber)
  if n < 0.0 then throw .value
  return (Number.lesser n maxCount).toUInt64.toNat

/-- `LEN` -/
def length : List Value → Value := liftText fun s => .number (Number.ofCount (Text.charCount s))

/-- `UPPER` -/
def upper : List Value → Value := liftText fun s => .text (Text.capitalForm s)

/-- `LOWER` -/
def lower : List Value → Value := liftText fun s => .text (Text.smallForm s)

/-- `TRIM` -/
def trimmed : List Value → Value := liftText fun s => .text (Text.singleSpaced s)

/-- A part of a text that a count says the size of. -/
def partOf (cut : Nat → String → String) (text count : Value) : Except ErrorKind String := do
  let s ← text.toText
  let n ← characterCount count
  return cut n s

/-- A worksheet function that takes a part from a side of a text: one character unless a count is
given. -/
def side (cut : Nat → String → String) (args : List Value) : Value :=
  match args with
  | [] => .error .value
  | text :: _ =>
    let count := (optionalArgument args 1).getD (.number 1.0)
    broadcast [text, count] fun
      | [t, n] => valueOrError .text (partOf cut t n)
      | _ => .error .value

/-- `LEFT` -/
def left : List Value → Value := side Text.firstChars

/-- `RIGHT` -/
def right : List Value → Value := side Text.lastChars

/-- A part of a text from a place, counted from one, on. -/
def middleOf (text start count : Value) : Except ErrorKind String := do
  let s ← text.toText
  let place := Number.truncate (← start.toNumber)
  if !(place ≥ 1.0) then throw .value
  let n ← characterCount count
  return Text.charsFrom (place.toUInt64.toNat - 1) n s

/-- `MID` -/
def middle (args : List Value) : Value :=
  broadcast args fun
    | [text, start, count] => valueOrError .text (middleOf text start count)
    | _ => .error .value

/-- The texts of the values, one after the other. -/
def concatenation (vs : List Value) : Except ErrorKind String := do
  return String.join (← vs.mapM Value.toText)

/-- `CONCATENATE` -/
def concatenated (args : List Value) : Value :=
  broadcast args fun vs => valueOrError .text (concatenation vs)

end CellFormula.Worksheet
