import CellFormula.Text.Case

/-!
# The error values of a worksheet

A worksheet knows eight error values. Each has a code, which is its text, and a byte, which is its
stored form. Both have partial inverses; the one for codes ignores the case of ASCII letters.

## Main definitions

* `ErrorKind` — the eight errors
* `ErrorKind.code`, `ErrorKind.ofCode?` — the text of an error, and back
* `ErrorKind.byte`, `ErrorKind.ofByte?` — its stored byte, and back
-/

namespace CellFormula

/-- An error that a cell can show. -/
inductive ErrorKind
  /-- Two ranges have no cell in common. -/
  | null
  /-- A division by zero. -/
  | div0
  /-- An operand of the wrong kind. -/
  | value
  /-- A reference to a cell that is gone. -/
  | ref
  /-- A name that is not defined. -/
  | name
  /-- A number that cannot be represented or computed. -/
  | num
  /-- No value is available. -/
  | na
  /-- A value that is still being fetched. -/
  | gettingData
deriving DecidableEq, Repr, Inhabited

namespace ErrorKind

/-- All errors, in the order of their bytes. -/
def all : List ErrorKind := [null, div0, value, ref, name, num, na, gettingData]

/-- The text that a cell shows for the error. -/
def code : ErrorKind → String
  | null => "#NULL!"
  | div0 => "#DIV/0!"
  | value => "#VALUE!"
  | ref => "#REF!"
  | name => "#NAME?"
  | num => "#NUM!"
  | na => "#N/A"
  | gettingData => "#GETTING_DATA"

/-- The byte that stands for the error in a stored formula. -/
def byte : ErrorKind → UInt8
  | null => 0x00
  | div0 => 0x07
  | value => 0x0F
  | ref => 0x17
  | name => 0x1D
  | num => 0x24
  | na => 0x2A
  | gettingData => 0x2B

/-- The error that a stored byte stands for. -/
def ofByte? (b : UInt8) : Option ErrorKind := all.find? (·.byte == b)

/-- The error with this code, capital and small ASCII letters being the same. -/
def ofCode? (s : String) : Option ErrorKind :=
  all.find? fun kind => Text.sameButAsciiCase kind.code.toList s.toList

theorem ofByte?_byte (kind : ErrorKind) : ofByte? kind.byte = some kind := by
  cases kind <;> decide

end ErrorKind

end CellFormula
