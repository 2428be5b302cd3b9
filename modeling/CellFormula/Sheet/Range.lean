import CellFormula.Matrix.Basic

/-!
# Ranges of cells

A range is a rectangle of positions on one sheet: what a reference means once its address is known.
`Range.spanning` puts two opposite corners in order, so every range it makes has its first corner
above and to the left of its last one, and the operations on ranges keep that.

## Main definitions

* `SheetRef` — the formula's own sheet, or the one behind a sheet link
* `Range`, `Range.spanning`, `Range.single`
* `Range.contains`, `Range.cellCount`, `Range.isSingle`
* `Range.bounding?`, `Range.intersect?` — the hull and the common part of two ranges
-/

namespace CellFormula

/-- Which sheet is meant. -/
inductive SheetRef
  /-- The sheet that holds the formula. -/
  | current
  /-- The sheet behind an entry of the workbook's table of sheet links. -/
  | external (link : UInt16)
deriving DecidableEq, Repr, Hashable

/-- A rectangle of positions on a sheet. -/
structure Range where
  sheet : SheetRef
  firstRow : Nat
  firstCol : Nat
  lastRow : Nat
  lastCol : Nat
deriving DecidableEq, Repr

namespace Range

/-- The range between two opposite corners, in whatever order they are given. -/
def spanning (sheet : SheetRef) (row1 col1 row2 col2 : Nat) : Range where
  sheet := sheet
  firstRow := min row1 row2
  firstCol := min col1 col2
  lastRow := max row1 row2
  lastCol := max col1 col2

/-- The range of one cell. -/
def single (sheet : SheetRef) (row col : Nat) : Range := spanning sheet row col row col

/-- The corners are in order. -/
def Normal (r : Range) : Prop := r.firstRow ≤ r.lastRow ∧ r.firstCol ≤ r.lastCol

instance (r : Range) : Decidable r.Normal := by unfold Normal; infer_instance

/-- The number of rows. -/
def rows (r : Range) : Nat := r.lastRow - r.firstRow + 1

/-- The number of columns. -/
def cols (r : Range) : Nat := r.lastCol - r.firstCol + 1

/-- The number of cells, up to the largest count that is reported. -/
def cellCount (r : Range) : Nat := min (r.rows * r.cols) Matrix.countLimit

/-- The range is one cell. -/
def isSingle (r : Range) : Bool := r.firstRow == r.lastRow && r.firstCol == r.lastCol

/-- The row is one of the range's. -/
def containsRow (r : Range) (row : Nat) : Bool := r.firstRow ≤ row && row ≤ r.lastRow

/-- The column is one of the range's. -/
def containsCol (r : Range) (col : Nat) : Bool := r.firstCol ≤ col && col ≤ r.lastCol

/-- The position lies in the range, the sheet left aside. -/
def contains (r : Range) (row col : Nat) : Bool := r.containsRow row && r.containsCol col

/-- The smallest range that covers both, if they are on one sheet. -/
def bounding? (a b : Range) : Option Range :=
  if a.sheet = b.sheet then
    some ⟨a.sheet, min a.firstRow b.firstRow, min a.firstCol b.firstCol,
      max a.lastRow b.lastRow, max a.lastCol b.lastCol⟩
  else none

/-- The part that both have in common, if there is one. -/
def intersect? (a b : Range) : Option Range :=
  let common : Range := ⟨a.sheet, max a.firstRow b.firstRow, max a.firstCol b.firstCol,
    min a.lastRow b.lastRow, min a.lastCol b.lastCol⟩
  if a.sheet = b.sheet ∧ common.firstRow ≤ common.lastRow ∧ common.firstCol ≤ common.lastCol then
    some common
  else none

theorem normal_spanning (sheet : SheetRef) (row1 col1 row2 col2 : Nat) :
    (spanning sheet row1 col1 row2 col2).Normal :=
  ⟨Nat.le_trans (Nat.min_le_left ..) (Nat.le_max_left ..),
    Nat.le_trans (Nat.min_le_left ..) (Nat.le_max_left ..)⟩

theorem normal_of_bounding? {a b c : Range} (ha : a.Normal) (h : a.bounding? b = some c) :
    c.Normal := by
  unfold bounding? at h
  split at h
  · cases h
    obtain ⟨h1, h2⟩ := ha
    constructor <;> simp <;> omega
  · cases h

theorem normal_of_intersect? {a b c : Range} (h : a.intersect? b = some c) : c.Normal := by
  simp only [intersect?] at h
  split at h
  · next hc => cases h; exact hc.2
  · cases h

end Range

end CellFormula
