import CellFormula.Evaluation.Place
import CellFormula.Matrix.Arithmetic
import CellFormula.Value.Coercion

/-!
# Functions of whole areas

The matrix functions read their operands as matrices of numbers: a plain value is a matrix of one
cell, and every cell of an area has to hold a number. Their results are all or nothing: one entry
that is not finite makes the whole result a number error. A result begins where the first operand
begins, or at the formula's own cell when that operand has no place.

## Main definitions

* `numericMatrix` — a value as a matrix of numbers
* `transposed`, `determinant`, `inverted`, `multiplied`
* `rowCount`, `columnCount`
-/

namespace CellFormula.Worksheet

/-- A cell of a numeric area as a number. -/
def matrixEntry : Value → Except ErrorKind Float
  | .number x => .ok x
  | .error kind => .error kind
  | _ => .error .value

/-- A value as a matrix of numbers, or the error of its first cell that holds none. -/
def numericMatrix : Value → Except ErrorKind (Matrix Float)
  | .area block => block.cells.traverse matrixEntry
  | v => v.toNumber.map Matrix.single

/-- Where a result that belongs to this operand begins. -/
def anchorOf (place : Place) : Value → Nat × Nat
  | .area block => (block.firstRow, block.firstCol)
  | _ => (place.row, place.col)

/-- A matrix of numbers as an area. -/
def numericArea (anchor : Nat × Nat) (m : Matrix Float) : Value :=
  if m.cells.all Float.isFinite then .area ⟨anchor.1, anchor.2, m.map .number⟩
  else .error .num

/-- The error value of a failed matrix operation. -/
def orMatrixError {α : Type} (r : Except MatrixError α) : Except ErrorKind α :=
  r.mapError MatrixError.kind

/-- `TRANSPOSE` -/
def transposed (place : Place) : List Value → Value
  | [] => .error .value
  | v :: _ =>
    let anchor := anchorOf place v
    let cells :=
      match v with
      | .area block => block.cells.transpose
      | plain => Matrix.single plain
    .area ⟨anchor.1, anchor.2, cells⟩

/-- `MDETERM` -/
def determinant (_ : Place) : List Value → Value
  | [] => .error .value
  | v :: _ => .ofResult do orMatrixError (← numericMatrix v).determinant

/-- The area that a matrix computation gives, or its error. -/
def areaOrError (anchor : Nat × Nat) : Except ErrorKind (Matrix Float) → Value
  | .ok m => numericArea anchor m
  | .error kind => .error kind

/-- `MINVERSE` -/
def inverted (place : Place) : List Value → Value
  | [] => .error .value
  | v :: _ => areaOrError (anchorOf place v) do orMatrixError (← numericMatrix v).inverse

/-- `MMULT` -/
def multiplied (place : Place) : List Value → Value
  | l :: r :: _ =>
    areaOrError (anchorOf place l) do
      let a ← numericMatrix l
      let b ← numericMatrix r
      orMatrixError (a.multiply b)
  | _ => .error .value

/-- `ROWS` -/
def rowCount (_ : Place) : List Value → Value
  | .area block :: _ => .number (Number.ofCount block.rows)
  | _ => .number 1.0

/-- `COLUMNS` -/
def columnCount (_ : Place) : List Value → Value
  | .area block :: _ => .number (Number.ofCount block.cols)
  | _ => .number 1.0

end CellFormula.Worksheet
