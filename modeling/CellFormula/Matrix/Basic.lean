import CellFormula.ErrorKind

/-!
# Rectangles of cells

A `Matrix` is a rectangle of cells of any kind, held row by row. Array literals, areas of values
and the operands of the matrix functions are all such rectangles.

## Why the shape is not part of the type

`WellFormed` says that a matrix has at least one row and one column and as many cells as its shape
asks for. It is a predicate and not a field of the structure, because a value may be an area whose
cells are values: a type that contains itself through a structure cannot have fields that speak
about its own elements. Every operation below keeps `WellFormed`, and a look-up outside the shape
answers `none`, so no operation depends on it to be defined.

## Main definitions

* `Matrix`, `Matrix.WellFormed`
* `MatrixError`, `MatrixError.message`, `MatrixError.kind`
* `Matrix.ofCells`, `Matrix.tabulate`, `Matrix.generate`, `Matrix.filled`, `Matrix.single`
* `Matrix.get?`, `Matrix.set?`, `Matrix.map`, `Matrix.traverse`, `Matrix.transpose`
-/

namespace CellFormula

/-- A rectangle of cells, row by row. -/
structure Matrix (α : Type) where
  /-- The number of rows. -/
  rows : Nat
  /-- The number of columns. -/
  cols : Nat
  /-- The cells, the first row first. -/
  cells : Array α
deriving Repr, DecidableEq

/-- Why there is no such matrix. -/
inductive MatrixError
  /-- The count of cells is not the one that the shape asks for. -/
  | shapeMismatch (expected actual : Nat)
  /-- There are no rows or no columns. -/
  | empty
  /-- The operation is defined for square matrices only. -/
  | notSquare (rows cols : Nat)
  /-- The left operand has another number of columns than the right one has rows. -/
  | dimensionMismatch (leftCols rightRows : Nat)
  /-- The matrix has no inverse that can be computed. -/
  | singular
deriving DecidableEq, Repr

namespace MatrixError

/-- The cause in words. -/
def message : MatrixError → String
  | shapeMismatch expected actual => s!"expected {expected} cells, got {actual}"
  | empty => "matrix must be non-empty"
  | notSquare rows cols => s!"{rows}x{cols} matrix is not square"
  | dimensionMismatch leftCols rightRows =>
    s!"cannot multiply a matrix with {leftCols} columns by one with {rightRows} rows"
  | singular => "matrix is singular"

/-- The error value that a matrix function answers with. -/
def kind : MatrixError → ErrorKind
  | singular => .num
  | _ => .value

end MatrixError

namespace Matrix

variable {α β : Type}

/-- The shape is not empty and the cells fill it. -/
def WellFormed (m : Matrix α) : Prop :=
  0 < m.rows ∧ 0 < m.cols ∧ m.cells.size = m.rows * m.cols

instance (m : Matrix α) : Decidable m.WellFormed := by
  unfold WellFormed; infer_instance

/-- The largest count of cells that is reported: counts are 64-bit words. -/
def countLimit : Nat := UInt64.size - 1

/-! ### Making matrices -/

/-- The matrix of this shape with these cells, row by row. -/
def ofCells (rows cols : Nat) (cells : Array α) : Except MatrixError (Matrix α) :=
  if rows = 0 ∨ cols = 0 then .error .empty
  else if cells.size = rows * cols then .ok ⟨rows, cols, cells⟩
  else .error (.shapeMismatch (min (rows * cols) countLimit) cells.size)

/-- The matrix whose cell in row `r` and column `c` is `f r c`. -/
def tabulate (rows cols : Nat) (f : Nat → Nat → α) : Matrix α where
  rows := rows
  cols := cols
  cells := Array.ofFn fun i : Fin (rows * cols) => f (i / cols) (i % cols)

/-- The matrix of this shape with the cells that `f` gives, if the shape is not empty. -/
def generate (rows cols : Nat) (f : Nat → Nat → α) : Except MatrixError (Matrix α) :=
  if rows = 0 ∨ cols = 0 then .error .empty else .ok (tabulate rows cols f)

/-- The matrix of this shape with the same value in every cell. -/
def filled (rows cols : Nat) (value : α) : Except MatrixError (Matrix α) :=
  if rows = 0 ∨ cols = 0 then .error .empty
  else .ok ⟨rows, cols, Array.replicate (rows * cols) value⟩

/-- The matrix of one cell. -/
def single (value : α) : Matrix α := ⟨1, 1, #[value]⟩

/-! ### Looking at matrices -/

/-- There are as many rows as columns. -/
def isSquare (m : Matrix α) : Bool := m.rows == m.cols

/-- The shapes are equal and so are the cells, by a given test. -/
def isEqv (a b : Matrix α) (same : α → α → Bool) : Bool :=
  a.rows == b.rows && a.cols == b.cols && a.cells.isEqv b.cells same

/-- The cell in a row and a column, both counted from zero, if it lies inside. -/
def get? (m : Matrix α) (row col : Nat) : Option α :=
  if row < m.rows ∧ col < m.cols then m.cells[row * m.cols + col]? else none

/-- The cells of one row. -/
def row (m : Matrix α) (r : Nat) : List α :=
  (m.cells.extract (r * m.cols) ((r + 1) * m.cols)).toList

/-- The rows, the first one first. -/
def rowList (m : Matrix α) : List (List α) := (List.range m.rows).map m.row

/-! ### Matrices from matrices -/

/-- The matrix with another value in one cell, if that cell lies inside. -/
def set? (m : Matrix α) (row col : Nat) (value : α) : Option (Matrix α) :=
  if row < m.rows ∧ col < m.cols then
    some { m with cells := m.cells.setIfInBounds (row * m.cols + col) value }
  else none

/-- The matrix with every cell replaced. -/
def map (f : α → β) (m : Matrix α) : Matrix β := ⟨m.rows, m.cols, m.cells.map f⟩

/-- The matrix with every cell replaced, or the first failure, row by row. -/
def traverse {ε : Type} (f : α → Except ε β) (m : Matrix α) : Except ε (Matrix β) := do
  return ⟨m.rows, m.cols, ← m.cells.mapM f⟩

/-- The matrix with rows and columns exchanged. -/
def transpose (m : Matrix α) : Matrix α where
  rows := m.cols
  cols := m.rows
  cells := ((List.range m.cols).flatMap fun c =>
    (List.range m.rows).filterMap fun r => m.get? r c).toArray

/-! ### The shape is kept -/

theorem wellFormed_of_ofCells {rows cols : Nat} {cells : Array α} {m : Matrix α}
    (h : ofCells rows cols cells = .ok m) : m.WellFormed := by
  unfold ofCells at h
  split at h
  · cases h
  · split at h
    · next hshape hsize =>
      cases h
      exact ⟨Nat.pos_of_ne_zero fun h0 => hshape (.inl h0),
        Nat.pos_of_ne_zero fun h0 => hshape (.inr h0), hsize⟩
    · cases h

theorem wellFormed_tabulate {rows cols : Nat} (f : Nat → Nat → α) (hr : 0 < rows)
    (hc : 0 < cols) : (tabulate rows cols f).WellFormed :=
  ⟨hr, hc, by simp [tabulate]⟩

theorem shape_of_generate {rows cols : Nat} {f : Nat → Nat → α} {m : Matrix α}
    (h : generate rows cols f = .ok m) : m.rows = rows ∧ m.cols = cols := by
  rw [generate] at h
  split at h
  · cases h
  · cases h
    exact ⟨rfl, rfl⟩

theorem wellFormed_of_generate {rows cols : Nat} {f : Nat → Nat → α} {m : Matrix α}
    (h : generate rows cols f = .ok m) : m.WellFormed := by
  rw [generate] at h
  split at h
  · cases h
  · cases h
    exact wellFormed_tabulate f (by omega) (by omega)

theorem wellFormed_map {m : Matrix α} (f : α → β) (h : m.WellFormed) : (m.map f).WellFormed :=
  ⟨h.1, h.2.1, by simpa [map] using h.2.2⟩

/-- The place of a cell among all cells lies inside if the cell does. -/
theorem place_lt {rows cols r c : Nat} (hr : r < rows) (hc : c < cols) :
    r * cols + c < rows * cols := by
  calc r * cols + c < r * cols + cols := by omega
    _ = (r + 1) * cols := by rw [Nat.succ_mul]
    _ ≤ rows * cols := Nat.mul_le_mul_right _ hr

/-- The row that a place lies in. -/
theorem place_div {cols c : Nat} (r : Nat) (hc : c < cols) : (r * cols + c) / cols = r := by
  have hpos : 0 < cols := by omega
  rw [Nat.mul_comm, Nat.mul_add_div hpos, Nat.div_eq_of_lt hc, Nat.add_zero]

/-- The column that a place lies in. -/
theorem place_mod {cols c : Nat} (r : Nat) (hc : c < cols) : (r * cols + c) % cols = c := by
  rw [Nat.mul_comm, Nat.mul_add_mod, Nat.mod_eq_of_lt hc]

theorem get?_tabulate {rows cols r c : Nat} (f : Nat → Nat → α) (hr : r < rows) (hc : c < cols) :
    (tabulate rows cols f).get? r c = some (f r c) := by
  have hlt := place_lt hr hc
  simp [get?, tabulate, hr, hc, hlt, place_div r hc, place_mod r hc]

/-- Cells that are equal one by one make equal matrices. -/
theorem tabulate_congr {rows cols : Nat} {f g : Nat → Nat → α}
    (h : ∀ r < rows, ∀ c < cols, f r c = g r c) : tabulate rows cols f = tabulate rows cols g := by
  have hcell (i : Fin (rows * cols)) : f (i / cols) (i % cols) = g (i / cols) (i % cols) := by
    have hcols : 0 < cols := Nat.pos_of_ne_zero fun h0 => by simpa [h0] using i.pos
    exact h _ (Nat.div_lt_of_lt_mul (Nat.mul_comm rows cols ▸ i.isLt)) _ (Nat.mod_lt _ hcols)
  simp only [tabulate, hcell]

/-- A matrix with one value has the shape that was asked for, and that value in every cell. -/
theorem of_filled {rows cols : Nat} {value : α} {m : Matrix α}
    (h : filled rows cols value = .ok m) :
    m.rows = rows ∧ m.cols = cols ∧ ∀ r < rows, ∀ c < cols, m.get? r c = some value := by
  unfold filled at h
  split at h
  · cases h
  · cases h
    refine ⟨rfl, rfl, fun r hr c hc => ?_⟩
    simp [get?, hr, hc, place_lt hr hc]

end Matrix

end CellFormula
