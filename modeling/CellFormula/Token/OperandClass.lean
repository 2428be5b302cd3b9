/-!
# Operand classes

A token that stands for a reference, a name, an array or a call says in its opcode how its value is
wanted: as a reference, as a value or as an array. A classed opcode has `01`, `10` or `11` in the
two bits above its low five, and its base is the form with `01`.

## Main definitions

* `OperandClass`, `OperandClass.opcodeOffset`
* `OperandClass.split?` — the base and the class of a classed opcode
-/

namespace CellFormula

/-- How the value of an operand is wanted. -/
inductive OperandClass
  | reference
  | value
  | array
deriving DecidableEq, Repr, Inhabited

namespace OperandClass

/-- What the class adds to the base of an opcode. -/
def opcodeOffset : OperandClass → UInt8
  | reference => 0x00
  | value => 0x20
  | array => 0x40

/-- The base and the class of a classed opcode; an opcode below `0x20` or above `0x7F` has none. -/
def split? (opcode : UInt8) : Option (UInt8 × OperandClass) :=
  let base := 0x20 ||| (opcode &&& 0x1F)
  if opcode < 0x20 then none
  else if opcode < 0x40 then some (base, reference)
  else if opcode < 0x60 then some (base, value)
  else if opcode < 0x80 then some (base, array)
  else none

end OperandClass

end CellFormula
