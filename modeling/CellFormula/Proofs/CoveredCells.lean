import CellFormula.Proofs.RangeCells

/-!
# How often references cover a cell

A reference operand is a list of ranges, and ranges may overlap, so a cell can be covered more than
once: `SUM` of a union counts the cell for each range that covers it. `Range.coverage` is that
number. Union adds the coverage of its operands and intersection multiplies it, since each pair of
ranges that cover a cell has a common part that does.

## The range operator

It does not count. Its value is one range, the smallest around all ranges of both operands, and that
exists on one sheet only. `Range.IsHull` says what it is by cells alone. A range in order is known
by its cells, so there is one such range at most, and the order of the operands does not matter.

## Main definitions

* `Range.coverage` — how many ranges cover a cell
* `Range.IsHull` — the smallest range around ranges
* `Operand.Covers` — ranges in order with a given coverage

## Main results

* `Range.coverage_commonParts` — the coverage of common parts
* `Range.IsHull.unique`, `Range.exists_hull?` — the smallest range
* `Operand.combineReferences_coverage` — union, intersection and range
-/

namespace CellFormula

namespace Range

variable {a b r hull hull' : Range} {rs left right : List Range} {key : CellKey}

/-! ### Counting ranges -/

/-- The range covers the cell. -/
def covers (r : Range) (key : CellKey) : Bool := key.1 == r.sheet && r.contains key.2.1 key.2.2

/-- How many of the ranges cover the cell. -/
def coverage (rs : List Range) (key : CellKey) : Nat := rs.countP fun r => r.covers key

theorem covers_iff : r.covers key = true ↔ key ∈ r.cells := by
  simp [covers, cells]

theorem coverage_append (left right : List Range) (key : CellKey) :
    coverage (left ++ right) key = coverage left key + coverage right key := List.countP_append

theorem coverage_pos_iff : 0 < coverage rs key ↔ ∃ r ∈ rs, key ∈ r.cells := by
  simp only [coverage, List.countP_pos_iff, covers_iff]

/-- The common part of two ranges covers what both of them cover, and so does its absence. -/
theorem covers_intersect? (a b : Range) (key : CellKey) :
    ((a.intersect? b).map fun r => r.covers key).getD false = (a.covers key && b.covers key) := by
  rw [Bool.eq_iff_iff, Bool.and_eq_true, covers_iff, covers_iff, ← Set.mem_inter_iff]
  cases hcommon : a.intersect? b with
  | some c => rw [← cells_intersect? hcommon]; exact covers_iff
  | none =>
    refine iff_of_false Bool.false_ne_true ?_
    rintro ⟨ha, hb⟩
    obtain ⟨sheet, row, col⟩ := key
    obtain ⟨rfl, hrow, hcol⟩ := mem_cells.mp ha
    obtain ⟨hsheet, hrow', hcol'⟩ := mem_cells.mp hb
    simp only [intersect?] at hcommon
    rw [if_pos ⟨hsheet, by omega, by omega⟩] at hcommon
    cases hcommon

/-- **Common parts cover a cell for each pair of ranges that do.** -/
theorem coverage_commonParts (left right : List Range) (key : CellKey) :
    coverage (commonParts left right) key = coverage left key * coverage right key := by
  have hpart (a : Range) : coverage (right.filterMap fun b => a.intersect? b) key
      = if a.covers key then coverage right key else 0 := by
    simp only [coverage, List.countP_filterMap, covers_intersect?]
    cases a.covers key <;> simp
  induction left with
  | nil => simp [commonParts, coverage]
  | cons a left ih =>
    have hcons : commonParts (a :: left) right
        = (right.filterMap fun b => a.intersect? b) ++ commonParts left right := rfl
    rw [hcons, coverage_append, ih, hpart]
    simp only [coverage, List.countP_cons]
    split
    · rw [Nat.add_mul, Nat.one_mul, Nat.add_comm]
    · rw [Nat.zero_add, Nat.add_zero]

theorem normal_of_mem_commonParts (h : r ∈ commonParts left right) : r.Normal := by
  obtain ⟨a, -, hr⟩ := List.mem_flatMap.mp h
  obtain ⟨b, -, hr⟩ := List.mem_filterMap.mp hr
  exact normal_of_intersect? hr

/-- There are no common parts exactly when no cell is covered by both sides. -/
theorem commonParts_eq_nil_iff :
    commonParts left right = [] ↔ ∀ key, ¬ (0 < coverage left key ∧ 0 < coverage right key) := by
  constructor
  · intro hnil key hboth
    have hzero : coverage left key * coverage right key = 0 := by
      rw [← coverage_commonParts, hnil]
      rfl
    exact (Nat.mul_pos hboth.1 hboth.2).ne' hzero
  · intro hnone
    refine List.eq_nil_iff_forall_not_mem.mpr fun r hr => ?_
    -- A part in order has a cell, its first corner.
    have hcorner := (normal_of_mem_commonParts hr).corners_mem.1
    have hpos := coverage_pos_iff.mpr ⟨r, hr, hcorner⟩
    rw [coverage_commonParts] at hpos
    exact hnone _ ⟨Nat.pos_of_mul_pos_right hpos, Nat.pos_of_mul_pos_left hpos⟩

/-! ### The smallest range -/

/-- The range is the smallest one around the ranges. -/
structure IsHull (hull : Range) (rs : List Range) : Prop where
  normal : hull.Normal
  covers : ∀ r ∈ rs, r.cells ⊆ hull.cells
  smallest : ∀ box : Range, (∀ r ∈ rs, r.cells ⊆ box.cells) → hull.cells ⊆ box.cells

/-- A range in order is known by its cells. -/
theorem Normal.eq_of_cells_eq (ha : a.Normal) (hb : b.Normal) (h : a.cells = b.cells) : a = b := by
  obtain ⟨haFirst, haLast⟩ := ha.corners_mem
  obtain ⟨hbFirst, hbLast⟩ := hb.corners_mem
  rw [h, mem_cells] at haFirst haLast
  rw [← h, mem_cells] at hbFirst hbLast
  obtain ⟨sheet, firstRow, firstCol, lastRow, lastCol⟩ := a
  obtain ⟨sheet', firstRow', firstCol', lastRow', lastCol'⟩ := b
  simp only at haFirst haLast hbFirst hbLast
  rw [mk.injEq]
  exact ⟨haFirst.1, by omega, by omega, by omega, by omega⟩

theorem IsHull.unique (h : hull.IsHull rs) (h' : hull'.IsHull rs) : hull = hull' :=
  h.normal.eq_of_cells_eq h'.normal
    ((h.smallest _ h'.covers).antisymm (h'.smallest _ h.covers))

theorem IsHull.congr {rs' : List Range} (h : hull.IsHull rs) (hmem : ∀ r, r ∈ rs' ↔ r ∈ rs) :
    hull.IsHull rs' where
  normal := h.normal
  covers r hr := h.covers r ((hmem r).mp hr)
  smallest box hbox := h.smallest box fun r hr => hbox r ((hmem r).mpr hr)

theorem sheet_eq_of_foldlM_bounding? (h : rs.foldlM bounding? r = some hull) :
    ∀ b ∈ r :: rs, b.sheet = hull.sheet := by
  induction rs generalizing r with
  | nil => cases h; exact List.forall_mem_singleton.mpr rfl
  | cons b rs ih =>
    rw [List.foldlM_cons] at h
    cases hc : r.bounding? b with
    | none => rw [hc] at h; cases h
    | some c =>
      rw [hc] at h
      obtain ⟨hchull, hrs⟩ := List.forall_mem_cons.mp (ih h)
      have hsheets := sheet_eq_of_bounding? hc
      have hr : r.sheet = hull.sheet := (cells_subset_bounding? hc).1.symm.trans hchull
      exact List.forall_mem_cons.mpr ⟨hr, List.forall_mem_cons.mpr ⟨hsheets ▸ hr, hrs⟩⟩

/-- Ranges have a smallest range around them only if they are on one sheet. -/
theorem sheet_eq_of_hull? (h : hull? rs = some hull) : ∀ r ∈ rs, r.sheet = hull.sheet := by
  cases rs with
  | nil => cases h
  | cons r rs => exact sheet_eq_of_foldlM_bounding? h

/-- **Ranges on one sheet have a smallest range around them.** -/
theorem exists_hull? {sheet : SheetRef} (hne : rs ≠ []) (hnormal : ∀ r ∈ rs, r.Normal)
    (hsheet : ∀ r ∈ rs, r.sheet = sheet) : ∃ hull, hull? rs = some hull ∧ hull.IsHull rs := by
  cases rs with
  | nil => exact absurd rfl hne
  | cons r rs =>
    obtain ⟨hr, hrs⟩ := List.forall_mem_cons.mp hsheet
    obtain ⟨hull, hhull, hcovers⟩ :=
      exists_foldlM_bounding? (r := r) fun b hb => (hrs b hb).trans hr.symm
    have hwithin (box : Range) (hbox : ∀ b ∈ r :: rs, b.cells ⊆ box.cells) :
        hull.Within box.cells := by
      have hall : ∀ b ∈ r :: rs, b.Within box.cells := fun b hb => ⟨hnormal b hb, hbox b hb⟩
      obtain ⟨hr, hrs⟩ := List.forall_mem_cons.mp hall
      exact of_foldlM_bounding? (fun _ _ _ ha hb hc => ha.bounding? (hullClosed_cells box) hb hc)
        hr hrs hhull
    exact ⟨hull, hhull, (hwithin hull hcovers).normal, hcovers,
      fun box hbox => (hwithin box hbox).subset⟩

end Range

/-! ### Operators -/

namespace Operand

open Range

/-- The operand is ranges in order, and so many of them cover each cell. -/
def Covers (o : Operand) (times : CellKey → Nat) : Prop :=
  ∃ rs, o = ranges rs ∧ rs ≠ [] ∧ (∀ r ∈ rs, r.Normal) ∧ ∀ key, coverage rs key = times key

variable {left right : List Range}

theorem covers_union (hleft : left ≠ []) (hnormal : ∀ r ∈ left ++ right, r.Normal) :
    (combineRanges .union left right).Covers fun key => coverage left key + coverage right key :=
  ⟨left ++ right, rfl, List.append_ne_nil_of_left_ne_nil hleft right, hnormal,
    coverage_append left right⟩

/-- An intersection is a null error where it has no common parts. -/
theorem intersect_cases (left right : List Range) :
    commonParts left right = [] ∧ combineRanges .intersect left right = error .null ∨
      commonParts left right ≠ [] ∧
        combineRanges .intersect left right = ranges (commonParts left right) := by
  rw [combineRanges.eq_def]
  cases commonParts left right with
  | nil => exact .inl ⟨rfl, rfl⟩
  | cons r rs => exact .inr ⟨List.cons_ne_nil r rs, rfl⟩

theorem intersect_eq_null_iff : combineRanges .intersect left right = error .null ↔
    ∀ key, ¬ (0 < coverage left key ∧ 0 < coverage right key) := by
  rw [← commonParts_eq_nil_iff]
  obtain ⟨hnil, hnull⟩ | ⟨hparts, hranges⟩ := intersect_cases left right
  · exact iff_of_true hnull hnil
  · rw [hranges]
    exact iff_of_false nofun hparts

theorem covers_intersect (h : combineRanges .intersect left right ≠ error .null) :
    (combineRanges .intersect left right).Covers
      fun key => coverage left key * coverage right key := by
  obtain ⟨-, hnull⟩ | ⟨hparts, hranges⟩ := intersect_cases left right
  · exact absurd hnull h
  · exact ⟨_, hranges, hparts, fun r hr => normal_of_mem_commonParts hr,
      coverage_commonParts left right⟩

theorem range_of_hull? {hull : Range} (h : Range.hull? (left ++ right) = some hull) :
    combineRanges .range left right = range hull := by
  rw [combineRanges, h]

/-- Without a smallest range around all of them, ranges give a reference error. -/
theorem range_of_sheets (h : ¬ ∃ sheet, ∀ r ∈ left ++ right, r.sheet = sheet) :
    combineRanges .range left right = error .ref := by
  rw [combineRanges]
  cases hhull : Range.hull? (left ++ right) with
  | none => rfl
  | some hull => exact absurd ⟨hull.sheet, sheet_eq_of_hull? hhull⟩ h

/-- The smallest range does not depend on the order of the operands. -/
theorem range_comm (hleft : left ≠ []) (hright : right ≠ [])
    (hnormal : ∀ r ∈ left ++ right, r.Normal) :
    combineRanges .range left right = combineRanges .range right left := by
  have hmem (r : Range) : r ∈ right ++ left ↔ r ∈ left ++ right := by
    rw [List.mem_append, List.mem_append, or_comm]
  by_cases hsheet : ∃ sheet, ∀ r ∈ left ++ right, r.sheet = sheet
  · obtain ⟨sheet, hsheet⟩ := hsheet
    obtain ⟨hull, hhull, hisHull⟩ :=
      exists_hull? (List.append_ne_nil_of_left_ne_nil hleft right) hnormal hsheet
    obtain ⟨hull', hhull', hisHull'⟩ :=
      exists_hull? (List.append_ne_nil_of_left_ne_nil hright left)
        (fun r hr => hnormal r ((hmem r).mp hr)) fun r hr => hsheet r ((hmem r).mp hr)
    rw [range_of_hull? hhull, range_of_hull? hhull', (hisHull.congr hmem).unique hisHull']
  · rw [range_of_sheets hsheet, range_of_sheets]
    rintro ⟨sheet, hsheet'⟩
    exact hsheet ⟨sheet, fun r hr => hsheet' r ((hmem r).mpr hr)⟩

/-- **Reference operators compute on cells.** Let two operands be ranges in order, at least one on
each side. A union covers a cell as often as both sides together. An intersection covers it as often
as there are pairs of ranges that do, and is a null error exactly when no cell is covered by both
sides. The range operator gives the smallest range around all of them if they are on one sheet, and
a reference error otherwise; the order of its operands does not matter. -/
theorem combineReferences_coverage (hleft : left ≠ []) (hright : right ≠ [])
    (hnormal : ∀ r ∈ left ++ right, r.Normal) :
    let combined (op : Operator) := combineReferences op [ranges left, ranges right]
    (combined .union).Covers (fun key => coverage left key + coverage right key) ∧
      (combined .intersect = error .null ↔
        ∀ key, ¬ (0 < coverage left key ∧ 0 < coverage right key)) ∧
      (combined .intersect ≠ error .null →
        (combined .intersect).Covers fun key => coverage left key * coverage right key) ∧
      (∀ sheet, (∀ r ∈ left ++ right, r.sheet = sheet) →
        ∃ hull, combined .range = range hull ∧ hull.IsHull (left ++ right)) ∧
      ((¬ ∃ sheet, ∀ r ∈ left ++ right, r.sheet = sheet) → combined .range = error .ref) ∧
      combined .range = combineReferences .range [ranges right, ranges left] := by
  intro combined
  refine ⟨covers_union hleft hnormal, intersect_eq_null_iff, covers_intersect, ?_,
    range_of_sheets, range_comm hleft hright hnormal⟩
  intro sheet hsheet
  obtain ⟨hull, hhull, hisHull⟩ :=
    exists_hull? (List.append_ne_nil_of_left_ne_nil hleft right) hnormal hsheet
  exact ⟨hull, range_of_hull? hhull, hisHull⟩

/-- Two ranges that overlap, and on the other side one on another sheet. The first cell is covered
by two pairs. -/
theorem combineReferences_coverage_overlap :
    let left : List Range := [⟨.current, 0, 0, 1, 1⟩, ⟨.current, 0, 0, 0, 0⟩]
    let right : List Range := [⟨.current, 0, 0, 3, 0⟩, ⟨.external 2, 0, 0, 0, 0⟩]
    left ≠ [] ∧ right ≠ [] ∧ (∀ r ∈ left ++ right, r.Normal) ∧
      (∃ rs, combineReferences .intersect [ranges left, ranges right] = ranges rs ∧
        coverage rs (.current, 0, 0) = 2) ∧
      combineReferences .range [ranges left, ranges right] = error .ref := by
  intro left right
  have hleft : left ≠ [] := nofun
  have hright : right ≠ [] := nofun
  have hnormal : ∀ r ∈ left ++ right, r.Normal := by decide
  obtain ⟨-, hnull, hcovers, -, hsheets, -⟩ := combineReferences_coverage hleft hright hnormal
  have hboth : 0 < coverage left (.current, 0, 0) ∧ 0 < coverage right (.current, 0, 0) := by decide
  obtain ⟨rs, hrs, -, -, htimes⟩ := hcovers fun h => hnull.mp h _ hboth
  refine ⟨hleft, hright, hnormal, ⟨rs, hrs, htimes _⟩, hsheets ?_⟩
  rintro ⟨sheet, hsheet⟩
  have hcurrent := hsheet ⟨.current, 0, 0, 1, 1⟩ (by decide)
  have hother := hsheet ⟨.external 2, 0, 0, 0, 0⟩ (by decide)
  cases hcurrent.trans hother.symm

end Operand

end CellFormula
