import CellFormula.Number.Numeral
import CellFormula.Value.Basic

/-!
# Values read as numbers, truth values and texts

An operator that wants a number takes what it is given and reads a number out of it, and likewise
for truth values and texts. An error stays the error it is, and an area is read as none of the
three: areas are taken apart cell by cell before anything is coerced.

## Main definitions

* `Value.toNumber`, `Value.toBool`, `Value.toText`
-/

namespace CellFormula.Value

/-- The value as a number. Nothing counts as zero, and text as the number it spells. -/
def toNumber : Value → Except ErrorKind Float
  | number x => .ok x
  | boolean b => .ok (if b then 1.0 else 0.0)
  | blank | missing => .ok 0.0
  | text s =>
    match Number.numberOfText? s with
    | some x => .ok x
    | none => .error .value
  | error kind => .error kind
  | area _ => .error .value

/-- The truth value that a text spells, white space and the case of letters set aside. -/
def boolOfText? (s : String) : Option Bool :=
  let word := Text.trim s.toList
  if Text.sameButAsciiCase word "TRUE".toList then some true
  else if Text.sameButAsciiCase word "FALSE".toList then some false
  else none

/-- The value as a truth value. Every number but zero is true. -/
def toBool : Value → Except ErrorKind Bool
  | boolean b => .ok b
  | number x => .ok (x != 0.0)
  | blank | missing => .ok false
  | text s =>
    match boolOfText? s with
    | some b => .ok b
    | none => .error .value
  | error kind => .error kind
  | area _ => .error .value

/-- A truth value as text. -/
def boolText (b : Bool) : String := if b then "TRUE" else "FALSE"

/-- The value as text. Numbers are written in the General format. -/
def toText : Value → Except ErrorKind String
  | text s => .ok s
  | number x => .ok (Number.generalText x)
  | boolean b => .ok (boolText b)
  | blank | missing => .ok ""
  | error kind => .error kind
  | area _ => .error .value

end CellFormula.Value
