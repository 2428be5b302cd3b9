/-!
# Operators

Eighteen operators have an opcode each. Three of them stand behind or before one operand, the others
between two. The three that combine references (intersection, union and range) work on sets of
cells; all others work on values.

## Main definitions

* `Operator`, `Operator.all`
* `Operator.opcode`, `Operator.ofOpcode?`
* `Operator.arity`, `Operator.isUnary`, `Operator.combinesReferences`
* `Operator.symbol`, `Operator.precedence` — how it is written and how tightly it binds
-/

namespace CellFormula

/-- An operator of a formula. -/
inductive Operator
  | add | subtract | multiply | divide | power | concat
  | less | lessEqual | equal | greaterEqual | greater | notEqual
  | intersect | union | range
  | unaryPlus | unaryMinus | percent
deriving DecidableEq, Repr, Inhabited

namespace Operator

/-- All operators, in the order of their opcodes. -/
def all : List Operator :=
  [add, subtract, multiply, divide, power, concat, less, lessEqual, equal, greaterEqual, greater,
   notEqual, intersect, union, range, unaryPlus, unaryMinus, percent]

/-- The byte that stands for the operator. -/
def opcode : Operator → UInt8
  | add => 0x03
  | subtract => 0x04
  | multiply => 0x05
  | divide => 0x06
  | power => 0x07
  | concat => 0x08
  | less => 0x09
  | lessEqual => 0x0A
  | equal => 0x0B
  | greaterEqual => 0x0C
  | greater => 0x0D
  | notEqual => 0x0E
  | intersect => 0x0F
  | union => 0x10
  | range => 0x11
  | unaryPlus => 0x12
  | unaryMinus => 0x13
  | percent => 0x14

/-- The operator that a byte stands for. -/
def ofOpcode? (b : UInt8) : Option Operator := all.find? (·.opcode == b)

/-- The operator has one operand. -/
def isUnary : Operator → Bool
  | unaryPlus | unaryMinus | percent => true
  | _ => false

/-- The number of operands. -/
def arity (op : Operator) : Nat := if op.isUnary then 1 else 2

/-- The operator combines references and not values. -/
def combinesReferences : Operator → Bool
  | intersect | union | range => true
  | _ => false

/-- The operator as it is written. Intersection is written as a space. -/
def symbol : Operator → String
  | add | unaryPlus => "+"
  | subtract | unaryMinus => "-"
  | multiply => "*"
  | divide => "/"
  | power => "^"
  | concat => "&"
  | less => "<"
  | lessEqual => "<="
  | equal => "="
  | greaterEqual => ">="
  | greater => ">"
  | notEqual => "<>"
  | intersect => " "
  | union => ","
  | range => ":"
  | percent => "%"

/-- How tightly the operator binds; a higher number binds tighter. -/
def precedence : Operator → Nat
  | range => 9
  | intersect => 8
  | union => 7
  | unaryPlus | unaryMinus => 6
  | percent => 5
  | power => 4
  | multiply | divide => 3
  | add | subtract => 2
  | concat => 1
  | less | lessEqual | equal | greaterEqual | greater | notEqual => 0

theorem ofOpcode?_opcode (op : Operator) : ofOpcode? op.opcode = some op := by
  cases op <;> decide

end Operator

end CellFormula
