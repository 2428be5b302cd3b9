import CellFormula.Matrix.Basic
import CellFormula.Number.Binary64

/-!
# Matrix product, determinant and inverse

The numeric routines are written once, over any `PivotNumber`: numbers with the four operations, a
magnitude, and the comparisons that pivoting needs. Doubles are the numbers that run; the exact
rationals are the numbers in which the routines are what their names say.

## Loops over cells

The routines do not work on rows and columns but on the list of cells. They compute the places of
cells in it, row number times row length plus column number, and overwrite cells one by one. Each
loop is a definition here, and what it carries from round to round is the list of cells, or two
lists that are worked on together. The order of the loops is part of the answer: on doubles the
order of additions and subtractions shows in the last bits.

A place beyond the last cell would be read as zero and written to without effect. No routine gets
there with a matrix that is well formed.

## Pivots

The pivot of a column is the entry of largest magnitude on or below the diagonal, the first one
among equals. A pivot counts as zero when its magnitude is at most `10 ^ -12` times the largest
magnitude of the whole matrix.

## Main definitions

* `PivotNumber` — the numbers; instances for doubles and rationals
* `Matrix.multiply`, `Matrix.determinant`, `Matrix.inverse`, `Matrix.identity`
* `Matrix.swapRows`, `Matrix.subtractRow`, `Matrix.divideRows`, `Matrix.subtractRows` — inner loops
-/

namespace CellFormula

/-- Numbers on which elimination with pivots runs. -/
class PivotNumber (α : Type) extends Zero α, One α, Add α, Sub α, Mul α, Div α, Neg α where
  /-- The size of a number, without its sign. -/
  magnitude : α → α
  /-- The larger of two sizes. -/
  larger : α → α → α
  /-- The number is zero. -/
  isZero : α → Bool
  /-- The first number is less than the second. -/
  below : α → α → Bool
  /-- The first number is at most the second. -/
  atMost : α → α → Bool
  /-- A pivot of this share of the largest magnitude counts as zero. -/
  negligibleShare : α

instance : PivotNumber Float where
  zero := 0.0
  one := 1.0
  magnitude := Float.abs
  larger := Number.greater
  isZero x := x == 0.0
  below x y := decide (x < y)
  atMost x y := decide (x ≤ y)
  negligibleShare := 1e-12

instance : PivotNumber Rat where
  zero := 0
  one := 1
  magnitude x := x.abs
  larger x y := if x ≤ y then y else x
  isZero x := decide (x = 0)
  below x y := decide (x < y)
  atMost x y := decide (x ≤ y)
  negligibleShare := 1 / 1000000000000

namespace Matrix

variable {α : Type} [PivotNumber α]

open PivotNumber

/-- The entry in a row and a column; outside the matrix it is zero. -/
def entry (m : Matrix α) (i j : Nat) : α := (m.get? i j).getD 0

/-- The square matrix with ones on the diagonal and zeros elsewhere. -/
def identity (n : Nat) : Except MatrixError (Matrix α) :=
  generate n n fun i j => if i = j then 1 else 0

/-- The cell at a place. -/
def cellAt (cells : Array α) (place : Nat) : α := cells.getD place 0

/-! ### Product -/

/-- Row `k` of `b`, multiplied by a factor, is added to row `i` of the product. -/
def addRow (b : Matrix α) (i k : Nat) (factor : α) (out : Array α) : Array α :=
  (List.range b.cols).foldl
    (fun out j =>
      let term := factor * cellAt b.cells (k * b.cols + j)
      out.modify (i * b.cols + j) (· + term)) out

/-- Row `i` of the product is added up from the rows of `b`. A row with a zero factor is passed
over. -/
def addProductRow (a b : Matrix α) (out : Array α) (i : Nat) : Array α :=
  (List.range a.cols).foldl
    (fun out k =>
      let factor := cellAt a.cells (i * a.cols + k)
      if isZero factor then out else addRow b i k factor out) out

/-- The matrix product. -/
def multiply (a b : Matrix α) : Except MatrixError (Matrix α) :=
  if a.cols = b.rows then
    ofCells a.rows b.cols
      ((List.range a.rows).foldl (addProductRow a b) (Array.replicate (a.rows * b.cols) 0))
  else .error (.dimensionMismatch a.cols b.rows)

/-! ### Pivots -/

/-- The size up to which a pivot counts as zero. -/
def tolerance (m : Matrix α) : α :=
  m.cells.foldl (fun size x => larger size (magnitude x)) 0 * negligibleShare

/-- The row of the pivot of column `k`: the first of largest magnitude from row `k` on. The entries
of the column are given row by row. -/
def searchPivot (column : Nat → α) (n k : Nat) : Nat :=
  ((List.range' (k + 1) (n - (k + 1))).foldl
    (fun best i =>
      let size := magnitude (column i)
      if below best.2 size then (i, size) else best)
    (k, magnitude (column k))).1

/-- Rows `p` and `q`, of `n` cells each, change places. -/
def swapRows (n p q : Nat) (cells : Array α) : Array α :=
  (List.range n).foldl (fun cells j => cells.swapIfInBounds (p * n + j) (q * n + j)) cells

/-- The cells of a matrix to work on, one for each place of its shape. A matrix that is well formed
has just these. -/
def workingCells (m : Matrix α) : Array α := (tabulate m.rows m.cols m.entry).cells

/-! ### Determinant -/

/-- A multiple of row `k` is taken from row `i`, from column `k` on. -/
def subtractRow (n k i : Nat) (factor : α) (cells : Array α) : Array α :=
  (List.range' k (n - k)).foldl
    (fun cells j =>
      let taken := factor * cellAt cells (k * n + j)
      cells.modify (i * n + j) (· - taken)) cells

/-- Column `k` is cleared below the diagonal. Columns to the left of it are done with and stay. -/
def clearRowsBelow (n k : Nat) (pivot : α) (cells : Array α) : Array α :=
  (List.range' (k + 1) (n - (k + 1))).foldl
    (fun cells i =>
      let factor := cellAt cells (i * n + k) / pivot
      if isZero factor then cells else subtractRow n k i factor cells) cells

/-- The determinant from column `k` on, `det` being the product of the pivots so far with a change
of sign for every exchange. -/
def determinantLoop (n : Nat) (limit : α) : List Nat → Array α → α → α
  | [], _, det => det
  | k :: columns, cells, det =>
    let p := searchPivot (fun i => cellAt cells (i * n + k)) n k
    let pivot := cellAt cells (p * n + k)
    if atMost (magnitude pivot) limit then 0
    else if p = k then
      determinantLoop n limit columns (clearRowsBelow n k pivot cells) (det * pivot)
    else
      determinantLoop n limit columns (clearRowsBelow n k pivot (swapRows n k p cells))
        (-det * pivot)

/-- The determinant of a square matrix; a pivot that counts as zero makes it zero. -/
def determinant (m : Matrix α) : Except MatrixError α :=
  if m.rows = m.cols then
    .ok (determinantLoop m.rows m.tolerance (List.range m.rows) m.workingCells 1)
  else .error (.notSquare m.rows m.cols)

/-! ### Inverse

Two lists of cells are worked on at the same time: those of the matrix, on their way to the unit
matrix, and those of the unit matrix, on their way to the inverse.
-/

/-- Row `k` of both matrices is divided by the pivot. -/
def divideRows (n k : Nat) (pivot : α) (both : Array α × Array α) : Array α × Array α :=
  (List.range n).foldl
    (fun (cells, inv) j =>
      (cells.modify (k * n + j) (· / pivot), inv.modify (k * n + j) (· / pivot))) both

/-- A multiple of row `k` is taken from row `i` of both matrices. -/
def subtractRows (n k i : Nat) (factor : α) (both : Array α × Array α) : Array α × Array α :=
  (List.range n).foldl
    (fun (cells, inv) j =>
      let taken := factor * cellAt cells (k * n + j)
      let takenInv := factor * cellAt inv (k * n + j)
      (cells.modify (i * n + j) (· - taken), inv.modify (i * n + j) (· - takenInv))) both

/-- Column `k` of the first matrix is cleared in all rows but row `k`. -/
def clearOtherRows (n k : Nat) (both : Array α × Array α) : Array α × Array α :=
  (List.range n).foldl
    (fun both i =>
      if i = k then both
      else
        let factor := cellAt both.1 (i * n + k)
        if isZero factor then both else subtractRows n k i factor both) both

/-- The inverse from column `k` on. -/
def inverseLoop (n : Nat) (limit : α) :
    List Nat → Array α × Array α → Except MatrixError (Array α)
  | [], both => .ok both.2
  | k :: columns, both =>
    let p := searchPivot (fun i => cellAt both.1 (i * n + k)) n k
    if atMost (magnitude (cellAt both.1 (p * n + k))) limit then .error .singular
    else
      let turned := if p = k then both else (swapRows n k p both.1, swapRows n k p both.2)
      let pivot := cellAt turned.1 (k * n + k)
      inverseLoop n limit columns (clearOtherRows n k (divideRows n k pivot turned))

/-- The inverse of a square matrix. -/
def inverse (m : Matrix α) : Except MatrixError (Matrix α) :=
  if m.rows = m.cols then do
    let unit ← identity m.rows
    let cells ← inverseLoop m.rows m.tolerance (List.range m.rows) (m.workingCells, unit.cells)
    ofCells m.rows m.rows cells
  else .error (.notSquare m.rows m.cols)

end Matrix

end CellFormula
