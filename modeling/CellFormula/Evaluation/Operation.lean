import CellFormula.Number.Power
import CellFormula.Token.Operator
import CellFormula.Value.Order

/-!
# Operators on plain values

Every operator but the three that combine references computes a value from values. The operands are
coerced from left to right, so of two errors the left one is the answer.

## Main definitions

* `Operator.compute` — the value that an operator gives for plain operands
* `Operator.holds` — whether a comparison holds for operands in a given order
* `Operator.arithmetic` — the arithmetic operators on numbers
-/

namespace CellFormula.Operator

/-- The comparison holds when its operands stand in this order. -/
def holds : Operator → Ordering → Bool
  | less, order => order == .lt
  | lessEqual, order => order != .gt
  | equal, order => order == .eq
  | greaterEqual, order => order != .lt
  | greater, order => order == .gt
  | _, order => order != .eq

/-- The operator compares its operands. -/
def isComparison : Operator → Bool
  | less | lessEqual | equal | greaterEqual | greater | notEqual => true
  | _ => false

/-- An arithmetic operator on two numbers. The result has to be finite. -/
def arithmetic (op : Operator) (a b : Float) : Except ErrorKind Float :=
  match op with
  | add => Number.finite (a + b)
  | subtract => Number.finite (a - b)
  | multiply => Number.finite (a * b)
  | divide => if b == 0.0 then .error .div0 else Number.finite (a / b)
  | power => Number.power a b
  | _ => .error .value

/-- Two texts one after the other. -/
def joined (l r : Value) : Except ErrorKind String := do
  let a ← l.toText
  let b ← r.toText
  return a ++ b

/-- The value that an operator with one operand gives. -/
def computeUnary (op : Operator) (v : Value) : Value :=
  match op with
  | unaryPlus =>
    match v with
    | .missing => .blank
    | other => other
  | unaryMinus => .ofResult (v.toNumber.map fun x => -x)
  | percent => .ofResult (v.toNumber.map fun x => x / 100.0)
  | _ => .error .value

/-- The value that an operator with two operands gives. -/
def computeBinary (op : Operator) (l r : Value) : Value :=
  if op = concat then
    match joined l r with
    | .ok s => .text s
    | .error kind => .error kind
  else if op.isComparison then
    match l.order r with
    | .ok order => .boolean (op.holds order)
    | .error kind => .error kind
  else
    .ofResult do
      let a ← l.toNumber
      let b ← r.toNumber
      op.arithmetic a b

/-- The value that an operator gives for plain operands. A wrong number of them is a value error. -/
def compute (op : Operator) : List Value → Value
  | [v] => op.computeUnary v
  | [l, r] => op.computeBinary l r
  | _ => .error .value

end CellFormula.Operator
