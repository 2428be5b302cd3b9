import CellFormula.Sheet.Range
import CellFormula.Token.Reference
import CellFormula.Value.Basic

/-!
# Where the values come from

Evaluation asks a `CellSource` for the cells, areas and names that a formula refers to, and for the
sheets that exist. A source may answer for an area in its own way; the ordinary way, `readArea`,
asks for each of its cells, row by row.

## Main definitions

* `CellSource` — the four questions
* `CellSource.readArea` — an area as its cells
* `CellSource.ofCells` — a source that knows cells only
-/

namespace CellFormula

/-- What evaluation can ask about the workbook. -/
structure CellSource where
  /-- The value of a cell. -/
  cell : SheetRef → Nat → Nat → Value
  /-- The values of a range, or the error that reading it gives. -/
  area : Range → Except ErrorKind Area
  /-- The value of a name. -/
  name : NameRef → Value
  /-- The sheet exists. -/
  hasSheet : SheetRef → Bool

namespace CellSource

/-- The values of a range, asked for cell by cell. -/
def readArea (cell : SheetRef → Nat → Nat → Value) (range : Range) : Except ErrorKind Area :=
  match Matrix.generate range.rows range.cols
      fun r c => cell range.sheet (range.firstRow + r) (range.firstCol + c) with
  | .ok cells => .ok ⟨range.firstRow, range.firstCol, cells⟩
  | .error _ => .error .ref

/-- A source that knows the values of cells and nothing else: names are not defined, and every
sheet exists. -/
def ofCells (cell : SheetRef → Nat → Nat → Value) : CellSource where
  cell := cell
  area := readArea cell
  name _ := .error .name
  hasSheet _ := true

end CellSource

end CellFormula
