/-!
# References

A stored reference names a cell or an area of the formula's own sheet or of another one. Rows are
16-bit words; a column shares its word with two flags, which say for each axis whether the address
moves along when the formula is copied.

## Shared references

In a shared formula an axis with its flag set does not hold an address but an offset from the cell
that the formula is read for: the row as a signed 16-bit number, and the low byte of the column as
a signed 8-bit number. `CellRef.place?` is the address for a given cell, and it fails when the
address falls off the grid of 65536 rows and 256 columns. An axis without its flag has to lie on the
grid too.

## Main definitions

* `CellRef`, `AreaRef` — a cell and an area as they are stored
* `CellRef.ofFields`, `CellRef.columnField` — the column word with its flags
* `CellRef.place?` — the address of a shared reference
* `Reference`, `NameRef`
-/

namespace CellFormula

/-- The last row of the grid. -/
def lastGridRow : Nat := 0xFFFF

/-- The last column of the grid. -/
def lastGridCol : Nat := 0xFF

/-- The bits of a column word that hold the column. -/
def columnMask : UInt16 := 0x3FFF

/-- The flag of a column word for a column that moves along. -/
def columnFlag : UInt16 := 0x4000

/-- The flag of a column word for a row that moves along. -/
def rowFlag : UInt16 := 0x8000

/-- A cell address as it is stored. -/
structure CellRef where
  row : UInt16
  col : UInt16
  /-- The row moves along, or is an offset in a shared formula. -/
  rowRelative : Bool
  /-- The column moves along, or is an offset in a shared formula. -/
  colRelative : Bool
deriving DecidableEq, Repr, Inhabited

namespace CellRef

/-- An address that moves along on both axes, as it is written without markers. -/
def relative (row col : UInt16) : CellRef := ⟨row, col &&& columnMask, true, true⟩

/-- An address that is fixed on both axes. -/
def absolute (row col : UInt16) : CellRef := ⟨row, col &&& columnMask, false, false⟩

/-- The address with this row word and this column word. -/
def ofFields (row field : UInt16) : CellRef :=
  ⟨row, field &&& columnMask, field &&& rowFlag != 0, field &&& columnFlag != 0⟩

/-- The column word: the column and the two flags. -/
def columnField (c : CellRef) : UInt16 :=
  (c.col &&& columnMask) ||| (if c.rowRelative then rowFlag else 0)
    ||| (if c.colRelative then columnFlag else 0)

/-- The position lies on the grid. -/
def onGrid (row col : Int) : Bool :=
  0 ≤ row && row ≤ lastGridRow && 0 ≤ col && col ≤ lastGridCol

/-- The row that a shared reference means for a formula in row `base`. -/
def placedRow (c : CellRef) (base : Nat) : Int :=
  if c.rowRelative then base + (c.row.toNat : Int).bmod UInt16.size else c.row.toNat

/-- The column that a shared reference means for a formula in column `base`. -/
def placedCol (c : CellRef) (base : Nat) : Int :=
  if c.colRelative then base + ((c.col.toNat % UInt8.size : Nat) : Int).bmod UInt8.size
  else c.col.toNat

/-- The address that a shared reference means for a formula in this cell, if it is on the grid. -/
def place? (c : CellRef) (baseRow baseCol : Nat) : Option (Nat × Nat) :=
  let row := c.placedRow baseRow
  let col := c.placedCol baseCol
  if onGrid row col then some (row.toNat, col.toNat) else none

end CellRef

/-- An area as it is stored: two opposite corners. -/
structure AreaRef where
  first : CellRef
  last : CellRef
deriving DecidableEq, Repr, Inhabited

/-- A reference operand. Sheets other than the formula's own are numbered by the workbook's table of
sheet links. -/
inductive Reference
  | cell (cell : CellRef)
  | area (area : AreaRef)
  /-- A cell that was deleted. -/
  | cellGone
  /-- An area that was deleted. -/
  | areaGone
  /-- A cell of a shared formula. -/
  | sharedCell (cell : CellRef)
  /-- An area of a shared formula. -/
  | sharedArea (area : AreaRef)
  | sheetCell (sheet : UInt16) (cell : CellRef)
  | sheetArea (sheet : UInt16) (area : AreaRef)
  | sheetCellGone (sheet : UInt16)
  | sheetAreaGone (sheet : UInt16)
deriving DecidableEq, Repr, Inhabited

namespace Reference

/-- The base of the opcode. -/
def baseOpcode : Reference → UInt8
  | cell _ => 0x24
  | area _ => 0x25
  | cellGone => 0x2A
  | areaGone => 0x2B
  | sharedCell _ => 0x2C
  | sharedArea _ => 0x2D
  | sheetCell .. => 0x3A
  | sheetArea .. => 0x3B
  | sheetCellGone _ => 0x3C
  | sheetAreaGone _ => 0x3D

/-- The size of the fields behind the opcode. -/
def fieldSize : Reference → Nat
  | cell _ | cellGone | sharedCell _ => 4
  | area _ | areaGone | sharedArea _ => 8
  | sheetCell .. | sheetCellGone _ => 6
  | sheetArea .. | sheetAreaGone _ => 10

/-- What the reference meant was deleted. -/
def isGone : Reference → Bool
  | cellGone | areaGone | sheetCellGone _ | sheetAreaGone _ => true
  | _ => false

/-- The reference with offsets replaced by the addresses they mean for a formula in this cell. One
that falls off the grid becomes a deleted reference of the same size. -/
def placed (row col : Nat) : Reference → Reference
  | sharedCell c =>
    match c.place? row col with
    | some (r, k) => cell { c with row := r.toUInt16, col := k.toUInt16 }
    | none => cellGone
  | sharedArea a =>
    match a.first.place? row col, a.last.place? row col with
    | some (r, k), some (r', k') =>
      area ⟨{ a.first with row := r.toUInt16, col := k.toUInt16 },
        { a.last with row := r'.toUInt16, col := k'.toUInt16 }⟩
    | _, _ => areaGone
  | other => other

end Reference

/-- A name that stands for a value, numbered from one. -/
inductive NameRef
  /-- A name of the workbook. -/
  | defined (index : UInt16)
  /-- A name of the book behind a sheet link. -/
  | external (sheet index : UInt16)
deriving DecidableEq, Repr, Inhabited, Hashable

end CellFormula
