import CellFormula.Matrix.Basic
import CellFormula.Number.Overflowing

/-!
# Values

A value is what a cell holds and what a formula computes. Besides numbers, texts, truth values and
errors there are two that stand for nothing, a blank cell and an argument left out, and there are
areas: rectangles of values that know where on a sheet they begin.

## Areas of areas

Nothing in the type keeps the cells of an area from being areas again. A source of cells may hand
out such values, and the evaluator says what becomes of them; that areas of plain cells stay areas
of plain cells is a fact about evaluation and not about the type.

## Main definitions

* `Block` — a rectangle of cells at a place on a sheet
* `Value` — the values
* `Value.ofNumber`, `Value.ofResult` — computed numbers, of which only finite ones are numbers
-/

namespace CellFormula

/-- A rectangle of cells whose top left corner lies at a place on a sheet. -/
structure Block (α : Type) where
  /-- The row of the top left corner. -/
  firstRow : Nat
  /-- The column of the top left corner. -/
  firstCol : Nat
  /-- The cells. -/
  cells : Matrix α
deriving Repr, DecidableEq

/-- What a cell holds and what a formula computes. -/
inductive Value
  /-- An empty cell. -/
  | blank
  /-- An argument that was left out. -/
  | missing
  | number (x : Float)
  | text (s : String)
  | boolean (b : Bool)
  | error (kind : ErrorKind)
  | area (block : Block Value)
deriving Inhabited

/-- An area of values. -/
abbrev Area := Block Value

namespace Block

variable {α : Type}

/-- The number of rows. -/
def rows (b : Block α) : Nat := b.cells.rows

/-- The number of columns. -/
def cols (b : Block α) : Nat := b.cells.cols

/-- The last of some positions in a row, by way of the one behind it. Positions are 32-bit words. -/
def lastPosition (first count : Nat) : Overflowing UInt32 := do
  let behind ← .add first.toUInt32 count.toUInt32
  .sub behind 1

/-- The row of the bottom right corner. -/
def lastRow (b : Block α) : Overflowing UInt32 := lastPosition b.firstRow b.rows

/-- The column of the bottom right corner. -/
def lastCol (b : Block α) : Overflowing UInt32 := lastPosition b.firstCol b.cols

/-- The cell at an offset from the top left corner. -/
def get? (b : Block α) (rowOffset colOffset : Nat) : Option α := b.cells.get? rowOffset colOffset

/-- The cell at a position on the sheet, if the block covers it. -/
def getAt? (b : Block α) (row col : Nat) : Option α :=
  if b.firstRow ≤ row ∧ b.firstCol ≤ col then b.get? (row - b.firstRow) (col - b.firstCol)
  else none

/-- The block covers the position. -/
def contains (b : Block α) (row col : Nat) : Bool := (b.getAt? row col).isSome

/-- The cells, row by row. -/
def values (b : Block α) : List α := b.cells.cells.toList

end Block

namespace Value

/-- The value is an error. -/
def isError : Value → Bool
  | error _ => true
  | _ => false

/-- The error that the value is, if it is one. -/
def error? : Value → Option ErrorKind
  | error kind => some kind
  | _ => none

/-- The value stands for nothing. -/
def isVoid : Value → Bool
  | blank | missing => true
  | _ => false

/-- A computed number as a value: one that is not finite counts as a number error. -/
def ofNumber (x : Float) : Value := if x.isFinite then number x else error .num

/-- The outcome of a numeric computation as a value. -/
def ofResult : Except ErrorKind Float → Value
  | .ok x => ofNumber x
  | .error kind => error kind

/-- The value with a number that is not finite replaced by a number error. Cells of areas stay as
they are. -/
def normalize : Value → Value
  | number x => ofNumber x
  | v => v

end Value

end CellFormula
