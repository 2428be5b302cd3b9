import CellFormula.Matrix.Basic
import Mathlib.Data.List.FinRange

/-!
# The cells of a matrix, row by row

The cells of a matrix are kept in one list, the first row first. Here that list is tied to rows and
columns: each place in it belongs to one cell, and the places of cells are in the order of their
rows first and of their columns then.

A matrix that is well formed is its table: there is a function of rows and columns of which it is
made. What is to be shown of all matrices that are well formed can be shown of tables, where no
place has to be computed.

## Main results

* `Matrix.exists_place`, `Matrix.place_lt_place_iff` — places and cells
* `Matrix.exists_eq_tabulate` — a matrix is its table
* `Matrix.ext_get?` — matrices with the same cells are equal
* `Matrix.transpose_tabulate`, `Matrix.map_tabulate` — tables from tables
* `Matrix.toList_tabulate` — the list of cells
-/

namespace CellFormula

namespace Matrix

variable {α β : Type} {a b m : Matrix α} {row col rows cols r c r' c' : Nat}

/-! ### Places -/

/-- Each place is that of a cell. -/
theorem exists_place {place : Nat} (h : place < rows * cols) :
    ∃ r < rows, ∃ c < cols, place = r * cols + c := by
  have hcols : 0 < cols := Nat.pos_of_ne_zero fun h0 => by simp [h0] at h
  exact ⟨place / cols, Nat.div_lt_of_lt_mul (Nat.mul_comm rows cols ▸ h), place % cols,
    Nat.mod_lt _ hcols, (Nat.div_add_mod' place cols).symm⟩

/-- **Places are in the order of rows**, and within a row in the order of columns. -/
theorem place_lt_place_iff (hc : c < cols) (hc' : c' < cols) :
    r * cols + c < r' * cols + c' ↔ r < r' ∨ r = r' ∧ c < c' := by
  rcases Nat.lt_trichotomy r r' with hlt | rfl | hgt
  · have hrows : (r + 1) * cols ≤ r' * cols := Nat.mul_le_mul_right _ hlt
    rw [Nat.succ_mul] at hrows
    omega
  · omega
  · have hrows : (r' + 1) * cols ≤ r * cols := Nat.mul_le_mul_right _ hgt
    rw [Nat.succ_mul] at hrows
    omega

/-! ### Look-ups -/

theorem lt_of_get?_eq_some {x : α} (h : m.get? row col = some x) :
    row < m.rows ∧ col < m.cols := by
  rw [get?] at h
  split at h
  · next hinside => exact hinside
  · cases h

/-- Inside the shape the cell is the one at its place. -/
theorem get?_of_lt (hr : r < m.rows) (hc : c < m.cols) :
    m.get? r c = m.cells[r * m.cols + c]? :=
  if_pos ⟨hr, hc⟩

/-- There is a cell at each place inside the shape. -/
theorem isSome_get?_iff (h : m.WellFormed) :
    (m.get? row col).isSome = true ↔ row < m.rows ∧ col < m.cols := by
  obtain ⟨-, -, hsize⟩ := h
  constructor
  · intro hsome
    obtain ⟨x, hx⟩ := Option.isSome_iff_exists.mp hsome
    exact lt_of_get?_eq_some hx
  · rintro ⟨hrow, hcol⟩
    have hplace : row * m.cols + col < m.cells.size := hsize ▸ place_lt hrow hcol
    rw [get?_of_lt hrow hcol, Array.getElem?_eq_getElem hplace]
    rfl

/-- Each cell is found in some row and column. -/
theorem exists_get?_of_mem (h : m.WellFormed) {x : α} (hx : x ∈ m.cells.toList) :
    ∃ r c, m.get? r c = some x := by
  obtain ⟨-, -, hsize⟩ := h
  obtain ⟨place, hplace, rfl⟩ := Array.getElem_of_mem (Array.mem_toList_iff.mp hx)
  obtain ⟨r, hr, c, hc, hrc⟩ := exists_place (hsize ▸ hplace)
  refine ⟨r, c, ?_⟩
  rw [get?_of_lt hr hc, ← hrc, Array.getElem?_eq_getElem hplace]

theorem get?_map (f : α → β) (m : Matrix α) (r c : Nat) :
    (m.map f).get? r c = (m.get? r c).map f := by
  by_cases hinside : r < m.rows ∧ c < m.cols
  · rw [get?_of_lt hinside.1 hinside.2, ← Array.getElem?_map]
    exact if_pos hinside
  · have hnone : m.get? r c = none := if_neg hinside
    rw [hnone]
    exact if_neg hinside

theorem wellFormed_of_map {f : α → β} (h : (m.map f).WellFormed) : m.WellFormed :=
  ⟨h.1, h.2.1, Array.size_map.symm.trans h.2.2⟩

/-! ### Tables -/

/-- Matrices of one shape, with as many cells as it asks for, are equal if their cells are. -/
theorem ext_get? (ha : a.cells.size = a.rows * a.cols) (hb : b.cells.size = b.rows * b.cols)
    (hrows : a.rows = b.rows) (hcols : a.cols = b.cols)
    (h : ∀ r < a.rows, ∀ c < a.cols, a.get? r c = b.get? r c) : a = b := by
  obtain ⟨rows, cols, cells⟩ := a
  obtain ⟨rows', cols', cells'⟩ := b
  obtain rfl : rows = rows' := hrows
  obtain rfl : cols = cols' := hcols
  have hcells : cells = cells' := by
    refine Array.ext_getElem? fun place => ?_
    by_cases hplace : place < rows * cols
    · obtain ⟨r, hr, c, hc, rfl⟩ := exists_place hplace
      have hcell := h r hr c hc
      rwa [get?_of_lt hr hc, get?_of_lt hr hc] at hcell
    · rw [Array.getElem?_eq_none (ha ▸ not_lt.mp hplace),
        Array.getElem?_eq_none (hb ▸ not_lt.mp hplace)]
  rw [hcells]

/-- **A matrix that is well formed is its table.** -/
theorem exists_eq_tabulate (h : m.WellFormed) :
    ∃ cell : Nat → Nat → α, m = tabulate m.rows m.cols cell := by
  have hsome : ∀ r c, ∃ x, r < m.rows → c < m.cols → m.get? r c = some x := fun r c => by
    by_cases hinside : r < m.rows ∧ c < m.cols
    · obtain ⟨x, hx⟩ := Option.isSome_iff_exists.mp ((isSome_get?_iff h).mpr hinside)
      exact ⟨x, fun _ _ => hx⟩
    · obtain ⟨x, -⟩ := Option.isSome_iff_exists.mp ((isSome_get?_iff h).mpr ⟨h.1, h.2.1⟩)
      exact ⟨x, fun hr hc => absurd ⟨hr, hc⟩ hinside⟩
  choose cell hcell using hsome
  refine ⟨cell, ext_get? h.2.2 (by simp [tabulate]) rfl rfl fun r hr c hc => ?_⟩
  rw [hcell r c hr hc, get?_tabulate cell hr hc]

theorem get?_tabulate_eq (cell : Nat → Nat → α) (rows cols r c : Nat) :
    (tabulate rows cols cell).get? r c
      = if r < rows ∧ c < cols then some (cell r c) else none := by
  split
  · next hinside => exact get?_tabulate cell hinside.1 hinside.2
  · next houtside => exact if_neg houtside

/-- **The cells of a matrix are those of its rows**, one row after the other. -/
theorem toList_tabulate (rows cols : Nat) (f : Nat → Nat → α) :
    (tabulate rows cols f).cells.toList
      = (List.range rows).flatMap fun r => (List.range cols).map (f r) := by
  have hplace (r : Fin rows) (c : Fin cols) :
      f ((r * cols + c) / cols) ((r * cols + c) % cols) = f r c := by
    rw [place_div _ c.isLt, place_mod _ c.isLt]
  calc (tabulate rows cols f).cells.toList
    _ = (List.ofFn fun r : Fin rows => List.ofFn fun c : Fin cols => f r c).flatten := by
        rw [tabulate, Array.toList_ofFn, List.ofFn_mul]
        simp only [hplace]
    _ = (List.range rows).flatMap fun r => (List.range cols).map (f r) := by
        rw [List.flatMap_def]
        simp only [List.ofFn_eq_map, ← List.map_coe_finRange_eq_range, List.map_map,
          Function.comp_def]

theorem map_tabulate (g : α → β) (rows cols : Nat) (cell : Nat → Nat → α) :
    (tabulate rows cols cell).map g = tabulate rows cols fun r c => g (cell r c) := by
  rw [tabulate, map, Array.map_ofFn]
  rfl

/-- **A table is turned around** by reading it the other way. -/
theorem transpose_tabulate (rows cols : Nat) (cell : Nat → Nat → α) :
    (tabulate rows cols cell).transpose = tabulate cols rows fun c r => cell r c := by
  have hcolumn : ∀ c < cols, (List.range rows).filterMap ((tabulate rows cols cell).get? · c)
      = (List.range rows).map (cell · c) := fun c hc => by
    rw [← List.filterMap_eq_map]
    exact List.filterMap_congr fun r hr => get?_tabulate cell (List.mem_range.mp hr) hc
  have hcells : (tabulate rows cols cell).transpose.cells
      = (tabulate cols rows fun c r => cell r c).cells := by
    rw [← Array.toList_inj, toList_tabulate]
    exact List.flatMap_congr fun c hc => hcolumn c (List.mem_range.mp hc)
  exact congrArg (Matrix.mk cols rows) hcells

end Matrix

end CellFormula
