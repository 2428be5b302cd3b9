import CellFormula.Proofs.RangeCells
import CellFormula.Proofs.RowMajor

/-!
# Areas keep the addresses of their cells

A source that reads areas cell by cell numbers the cells from the corner of the range, and the area
that it makes numbers them from its own corner again. The two conversions cancel: the area answers
for an address on the sheet with the cell at that address, and for no other address. Its list of
cells goes through the addresses of the range once each, row by row.

`Block.Holds` says what it means for an area to be the cells of a range; nothing there mentions
offsets or places in the list.

## Main definitions

* `Range.positions` — the addresses of a range, row by row
* `Block.Holds` — the block is the cells of the range

## Main results

* `Range.mem_positions`, `Range.pairwise_positions` — each address once, in order
* `Block.Holds.checked?_last` — areas end where their ranges end
* `CellSource.area_keeps_addresses` — areas that are read cell by cell
-/

namespace CellFormula

/-! ### The addresses of a range -/

namespace Range

variable {r : Range} {row col : Nat}

/-- The addresses of the range, row by row. -/
def positions (r : Range) : List (Nat × Nat) :=
  (List.range' r.firstRow r.rows).flatMap fun row =>
    (List.range' r.firstCol r.cols).map fun col => (row, col)

/-- The offsets from the corner of a range in order that stay inside its extent lead to the cells of
the range. -/
theorem Normal.contains_iff (h : r.Normal) :
    r.contains row col = true ↔
      (r.firstRow ≤ row ∧ row < r.firstRow + r.rows) ∧
        r.firstCol ≤ col ∧ col < r.firstCol + r.cols := by
  obtain ⟨hrows, hcols⟩ := h
  rw [contains_eq_true, rows, cols]
  omega

theorem mem_positions (h : r.Normal) : (row, col) ∈ r.positions ↔ r.contains row col = true := by
  simp only [h.contains_iff, positions, List.mem_flatMap, List.mem_map, List.mem_range'_1,
    Prod.mk.injEq, exists_eq_right_right]

/-- **Each address comes after those above it and those to its left in its row.** So none comes
twice. -/
theorem pairwise_positions (r : Range) :
    r.positions.Pairwise fun p q => p.1 < q.1 ∨ p.1 = q.1 ∧ p.2 < q.2 := by
  refine List.pairwise_flatMap.mpr ⟨fun row _ => ?_, ?_⟩
  · refine List.pairwise_map.mpr ?_
    exact (List.pairwise_lt_range' 1).imp fun hlt => .inr ⟨rfl, hlt⟩
  · refine (List.pairwise_lt_range' 1).imp fun hlt p hp q hq => ?_
    obtain ⟨-, -, rfl⟩ := List.mem_map.mp hp
    obtain ⟨-, -, rfl⟩ := List.mem_map.mp hq
    exact .inl hlt

theorem nodup_positions (r : Range) : r.positions.Nodup :=
  r.pairwise_positions.imp fun hbefore heq => by
    subst heq
    exact hbefore.elim (Nat.lt_irrefl _) fun hrow => Nat.lt_irrefl _ hrow.2

end Range

/-! ### Blocks at addresses -/

/-- The block is the cells of the range: it lies where the range lies, answers for the addresses of
the range and for no others, and lists its cells in their order. -/
structure Block.Holds {α : Type} (block : Block α) (r : Range) (cell : Nat → Nat → α) : Prop where
  firstRow : block.firstRow = r.firstRow
  firstCol : block.firstCol = r.firstCol
  rows : block.rows = r.rows
  cols : block.cols = r.cols
  getAt? : ∀ row col,
    block.getAt? row col = if r.contains row col then some (cell row col) else none
  values : block.values = r.positions.map fun p => cell p.1 p.2

namespace Block

variable {α : Type} {block : Block α} {r : Range} {cell : Nat → Nat → α}

/-- The block covers what the range covers. -/
theorem Holds.contains_eq (h : block.Holds r cell) (row col : Nat) :
    block.contains row col = r.contains row col := by
  rw [Block.contains, h.getAt?]
  split
  · next hinside => rw [hinside]; rfl
  · next houtside => rw [Bool.not_eq_true] at houtside; rw [houtside]; rfl

/-- **The two offsets cancel**: what is put into the block by offsets from the corner of the range
is found at the addresses of the range. -/
theorem holds_tabulate (hr : r.Normal) (cell : Nat → Nat → α) :
    (⟨r.firstRow, r.firstCol, Matrix.tabulate r.rows r.cols fun i j =>
      cell (r.firstRow + i) (r.firstCol + j)⟩ : Block α).Holds r cell where
  firstRow := rfl
  firstCol := rfl
  rows := rfl
  cols := rfl
  getAt? row col := by
    by_cases hinside : r.contains row col = true
    · obtain ⟨⟨hrow, hrow'⟩, hcol, hcol'⟩ := hr.contains_iff.mp hinside
      have hi : row - r.firstRow < r.rows := by omega
      have hj : col - r.firstCol < r.cols := by omega
      rw [if_pos hinside, Block.getAt?, if_pos ⟨hrow, hcol⟩, get?, Matrix.get?_tabulate _ hi hj,
        Nat.add_sub_of_le hrow, Nat.add_sub_of_le hcol]
    · rw [if_neg hinside, Block.getAt?]
      split
      · next hcorner =>
        refine if_neg fun hoffset => hinside (hr.contains_iff.mpr ?_)
        obtain ⟨hrow, hcol⟩ : r.firstRow ≤ row ∧ r.firstCol ≤ col := hcorner
        obtain ⟨hi, hj⟩ : row - r.firstRow < r.rows ∧ col - r.firstCol < r.cols := hoffset
        omega
      · rfl
  values := by
    show (Matrix.tabulate r.rows r.cols _).cells.toList = _
    simp only [Matrix.toList_tabulate, Range.positions, List.range'_eq_map_range, List.flatMap_map,
      List.map_flatMap, List.map_map, Function.comp_def]

/-- **The last position is computed** unless it is the last of all positions, because the one behind
it has to be a position too. -/
theorem checked?_lastPosition {first last : Nat} (h : first ≤ last) (hlast : last < UInt32.size) :
    (lastPosition first (last - first + 1)).checked?
      = if last + 1 < UInt32.size then some last.toUInt32 else none := by
  have hfirst : first.toUInt32.toNat = first := Nat.mod_eq_of_lt (h.trans_lt hlast)
  set behind := first.toUInt32 + (last - first + 1).toUInt32 with hbehind
  have hsum : behind.toNat = (last + 1) % UInt32.size := by
    rw [hbehind, UInt32.toNat_add]
    show (first % 2 ^ 32 + (last - first + 1) % 2 ^ 32) % 2 ^ 32 = (last + 1) % 2 ^ 32
    rw [← Nat.add_mod, ← Nat.add_assoc, Nat.add_sub_of_le h]
  have hchecked : (lastPosition first (last - first + 1)).checked?
      = if behind < first.toUInt32 ∨ behind < 1 then none else some (behind - 1) := by
    simp [lastPosition, Overflowing.checked?, Overflowing.add, Overflowing.sub, bind, hbehind]
  rw [hchecked]
  by_cases hroom : last + 1 < UInt32.size
  · rw [Nat.mod_eq_of_lt hroom] at hsum
    have hone : 1 ≤ behind := by
      rw [UInt32.le_iff_toNat_le, hsum]
      exact Nat.succ_pos last
    have hfits : ¬ (behind < first.toUInt32 ∨ behind < 1) := by
      refine not_or.mpr ⟨?_, UInt32.not_lt.mpr hone⟩
      rw [UInt32.lt_iff_toNat_lt, hsum, hfirst]
      omega
    rw [if_neg hfits, if_pos hroom]
    refine congrArg some (UInt32.toNat_inj.mp ?_)
    rw [UInt32.toNat_sub_of_le _ _ hone, hsum]
    exact (Nat.mod_eq_of_lt hlast).symm
  · -- The sum wraps around to zero, and there is no position before that.
    have hend : last + 1 = UInt32.size := by omega
    have hwraps : behind < 1 := by
      rw [UInt32.lt_iff_toNat_lt, hsum, hend, Nat.mod_self]
      exact Nat.one_pos
    rw [if_pos (.inr hwraps), if_neg hroom]

/-- A block that is the cells of a range ends where the range ends. -/
theorem Holds.checked?_last (h : block.Holds r cell) (hr : r.Normal)
    (hrow : r.lastRow + 1 < UInt32.size) (hcol : r.lastCol + 1 < UInt32.size) :
    block.lastRow.checked? = some r.lastRow.toUInt32 ∧
      block.lastCol.checked? = some r.lastCol.toUInt32 := by
  rw [lastRow, lastCol, h.firstRow, h.firstCol, h.rows, h.cols, Range.rows, Range.cols,
    checked?_lastPosition hr.1 (by omega), checked?_lastPosition hr.2 (by omega), if_pos hrow,
    if_pos hcol]
  exact ⟨rfl, rfl⟩

end Block

namespace CellSource

/-- **Areas that are read cell by cell keep the addresses of their cells**: for every range in
order, whatever its size and place, and whatever the cells are. -/
theorem area_keeps_addresses (source : CellSource) (r : Range)
    (hreads : source.area = readArea source.cell) (hr : r.Normal) :
    ∃ block, source.area r = .ok block ∧ block.Holds r (source.cell r.sheet) ∧
      (∀ row col, block.contains row col = r.contains row col) ∧
      r.positions.Pairwise (fun p q => p.1 < q.1 ∨ p.1 = q.1 ∧ p.2 < q.2) ∧
      r.positions.Nodup ∧ ∀ row col, (row, col) ∈ r.positions ↔ r.contains row col = true := by
  have hshape : ¬ (r.rows = 0 ∨ r.cols = 0) := by simp [Range.rows, Range.cols]
  have hholds := Block.holds_tabulate hr (source.cell r.sheet)
  refine ⟨_, ?_, hholds, hholds.contains_eq, r.pairwise_positions, r.nodup_positions,
    fun row col => Range.mem_positions hr⟩
  rw [hreads, readArea, Matrix.generate, if_neg hshape]

/-- Two rows of two cells in the middle of a sheet, whose diagonal is true. -/
theorem area_keeps_addresses_square :
    let source : CellSource := .ofCells fun _ row col => .boolean (row == col)
    let r : Range := ⟨.current, 7, 7, 8, 8⟩
    source.area = readArea source.cell ∧ r.Normal ∧
      ∃ block, source.area r = .ok block ∧ block.getAt? 8 7 = some (.boolean false) ∧
        block.getAt? 6 7 = none ∧ block.getAt? 8 9 = none ∧
        block.values = [.boolean true, .boolean false, .boolean false, .boolean true] := by
  intro source r
  obtain ⟨block, hblock, hholds, -⟩ := area_keeps_addresses source r rfl (by decide)
  exact ⟨rfl, by decide, block, hblock, hholds.getAt? 8 7, hholds.getAt? 6 7, hholds.getAt? 8 9,
    hholds.values⟩

end CellSource

end CellFormula
