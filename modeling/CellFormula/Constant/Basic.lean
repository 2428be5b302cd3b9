import CellFormula.Number.Binary64
import CellFormula.Value.Basic

/-!
# Constants

A constant is a value as it is stored: a cell of an array literal or a remembered external value.
Its number is the stored bits, and its error is a 16-bit code that need not be the code of any
error that worksheets know.

## Main definitions

* `Constant`, `Constant.ofKind`
* `Constant.tag` — the byte that announces the kind of a constant
* `Constant.toValue` — the value that a constant stands for
-/

namespace CellFormula

/-- A stored value. -/
inductive Constant
  | empty
  | number (x : Binary64)
  | text (s : String)
  | boolean (b : Bool)
  | code (code : UInt16)
deriving DecidableEq, Repr, Inhabited

namespace Constant

/-- The constant for an error. -/
def ofKind (kind : ErrorKind) : Constant := code kind.byte.toUInt16

/-- The byte that announces an empty constant. -/
def emptyTag : UInt8 := 0x00

/-- The byte that announces a number. -/
def numberTag : UInt8 := 0x01

/-- The byte that announces a text. -/
def textTag : UInt8 := 0x02

/-- The byte that announces a truth value. -/
def booleanTag : UInt8 := 0x04

/-- The byte that announces an error code. -/
def errorTag : UInt8 := 0x10

/-- The byte that announces the constant. -/
def tag : Constant → UInt8
  | empty => emptyTag
  | number _ => numberTag
  | text _ => textTag
  | boolean _ => booleanTag
  | code _ => errorTag

/-- The error that a stored code stands for. A code that no error has counts as a value error. -/
def kindOfCode (code : UInt16) : ErrorKind :=
  if code ≤ 0xFF then (ErrorKind.ofByte? code.toUInt8).getD .value else .value

/-- The value that the constant stands for. -/
def toValue : Constant → Value
  | empty => .blank
  | number x => Value.ofNumber x.toFloat
  | text s => .text s
  | boolean b => .boolean b
  | code c => .error (kindOfCode c)

end Constant

end CellFormula
