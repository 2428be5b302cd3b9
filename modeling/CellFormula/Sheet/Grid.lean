import CellFormula.Sheet.Source
import Std.Data.HashMap
import Std.Data.HashSet

/-!
# A grid of cells in memory

A `Grid` remembers the cells and names that were written to it and the sheets that were made known.
A cell that was never written is blank and a name that was never defined is a name error. Writing a
cell behind a sheet link makes that sheet known, so no stored cell lies on a sheet that does not
exist.

## Main definitions

* `Grid`, `Grid.empty`
* `Grid.put`, `Grid.addSheet`, `Grid.define` — the three ways to change a grid
* `Grid.cellAt`, `Grid.nameValue`, `Grid.hasSheet`, `Grid.size`
* `Grid.source` — the grid as a source of values
-/

namespace CellFormula

/-- The place of a cell: its sheet, its row and its column. -/
abbrev CellKey := SheetRef × Nat × Nat

/-- Cells, names and sheets. -/
structure Grid where
  cells : Std.HashMap CellKey Value
  names : Std.HashMap NameRef Value
  sheets : Std.HashSet UInt16

namespace Grid

/-- The grid with nothing in it. -/
def empty : Grid := ⟨∅, ∅, ∅⟩

/-- The sheet behind a link exists from now on. -/
def addSheet (g : Grid) (link : UInt16) : Grid := { g with sheets := g.sheets.insert link }

/-- The grid in which the sheet exists. -/
def withSheet (g : Grid) : SheetRef → Grid
  | .current => g
  | .external link => g.addSheet link

/-- The grid with a value in a cell. The cell's sheet exists from now on. -/
def put (g : Grid) (sheet : SheetRef) (row col : Nat) (v : Value) : Grid :=
  let known := g.withSheet sheet
  { known with cells := known.cells.insert (sheet, row, col) v }

/-- The grid with a value for a name. -/
def define (g : Grid) (name : NameRef) (v : Value) : Grid :=
  { g with names := g.names.insert name v }

/-- The value of a cell. -/
def cellAt (g : Grid) (sheet : SheetRef) (row col : Nat) : Value :=
  (g.cells[(sheet, row, col)]?).getD .blank

/-- The value of a name. -/
def nameValue (g : Grid) (name : NameRef) : Value := (g.names[name]?).getD (.error .name)

/-- The sheet exists. -/
def hasSheet (g : Grid) : SheetRef → Bool
  | .current => true
  | .external link => g.sheets.contains link

/-- The number of cells that were written. -/
def size (g : Grid) : Nat := g.cells.size

/-- The grid as a source of values. -/
def source (g : Grid) : CellSource where
  cell := g.cellAt
  area := CellSource.readArea g.cellAt
  name := g.nameValue
  hasSheet := g.hasSheet

end Grid

end CellFormula
