import CellFormula.Evaluation.Operand
import CellFormula.Sheet.Grid
import Mathlib.Data.Set.Basic

/-!
# Ranges as sets of cells

A range covers cells, and what the reference operators make of ranges can be said of those cells. An
intersection covers what both ranges cover. The range operator makes the smallest range around its
operands, which covers both and more, so it may leave a set of cells that holds its operands; a set
that it cannot leave is called `HullClosed`. Union makes no new ranges.

## Main definitions

* `Range.cells` — the cells that a range covers
* `Range.Within`, `Operand.Within` — all cells lie in a set
* `HullClosed` — a set that the range operator does not leave
* `Operand.Keeps` — an operator that keeps a property of ranges

## Main results

* `Range.cells_intersect?`, `Range.cells_subset_bounding?` — the cells of the two combinations
* `Range.hullClosed_cells` — a range is closed
* `Operand.keeps_within` — operators on references do not leave a set
* `Operand.forall_combineReferences` — what they keep
-/

namespace CellFormula

/-! ### Cells of ranges -/

namespace Range

/-- The cells that the range covers. -/
def cells (r : Range) : Set CellKey := {key | key.1 = r.sheet ∧ r.contains key.2.1 key.2.2 = true}

theorem contains_eq_true {r : Range} {row col : Nat} :
    r.contains row col = true ↔
      (r.firstRow ≤ row ∧ row ≤ r.lastRow) ∧ r.firstCol ≤ col ∧ col ≤ r.lastCol := by
  simp [contains, containsRow, containsCol]

theorem mem_cells {r : Range} {sheet : SheetRef} {row col : Nat} :
    (sheet, row, col) ∈ r.cells ↔ sheet = r.sheet ∧
      (r.firstRow ≤ row ∧ row ≤ r.lastRow) ∧ r.firstCol ≤ col ∧ col ≤ r.lastCol :=
  and_congr_right fun _ => contains_eq_true

/-- The range lies in a set of cells, and its corners are in order. -/
structure Within (r : Range) (s : Set CellKey) : Prop where
  normal : r.Normal
  subset : r.cells ⊆ s

variable {a b c r : Range} {s : Set CellKey}

/-- The corners of a range in order are cells of it. -/
theorem Normal.corners_mem (h : r.Normal) :
    (r.sheet, r.firstRow, r.firstCol) ∈ r.cells ∧ (r.sheet, r.lastRow, r.lastCol) ∈ r.cells := by
  obtain ⟨hrows, hcols⟩ := h
  exact ⟨mem_cells.mpr ⟨rfl, ⟨Nat.le_refl _, hrows⟩, Nat.le_refl _, hcols⟩,
    mem_cells.mpr ⟨rfl, ⟨hrows, Nat.le_refl _⟩, hcols, Nat.le_refl _⟩⟩

/-- What two ranges have in common is what they have in common as sets of cells. -/
theorem cells_intersect? (h : a.intersect? b = some c) : c.cells = a.cells ∩ b.cells := by
  simp only [intersect?] at h
  split at h
  · next hcommon =>
    obtain ⟨hsheet, -, -⟩ := hcommon
    cases h
    ext ⟨sheet, row, col⟩
    simp only [Set.mem_inter_iff, mem_cells, ← hsheet, Nat.max_le, Nat.le_min]
    grind
  · cases h

theorem Within.intersect? (ha : a.Within s) (h : a.intersect? b = some c) : c.Within s :=
  ⟨normal_of_intersect? h, by
    rw [cells_intersect? h]; exact Set.inter_subset_left.trans ha.subset⟩

/-- Only ranges on one sheet have a smallest range around them. -/
theorem sheet_eq_of_bounding? (h : a.bounding? b = some c) : a.sheet = b.sheet := by
  by_contra hother
  rw [bounding?, if_neg hother] at h
  cases h

/-- The smallest range around two ranges covers both of them. -/
theorem cells_subset_bounding? (h : a.bounding? b = some c) :
    c.sheet = a.sheet ∧ a.cells ⊆ c.cells ∧ b.cells ⊆ c.cells := by
  rw [bounding?] at h
  split at h
  · next hsheet =>
    cases h
    refine ⟨rfl, ?_, ?_⟩
    · rintro ⟨sheet, row, col⟩ hkey
      simp only [mem_cells] at hkey ⊢
      exact ⟨hkey.1, by omega⟩
    · rintro ⟨sheet, row, col⟩ hkey
      simp only [mem_cells, hsheet] at hkey ⊢
      exact ⟨hkey.1, by omega⟩
  · cases h

/-- Ranges on one sheet have a smallest range around them, and it covers them. -/
theorem exists_foldlM_bounding? {rs : List Range} (h : ∀ b ∈ rs, b.sheet = r.sheet) :
    ∃ hull, rs.foldlM bounding? r = some hull ∧ ∀ b ∈ r :: rs, b.cells ⊆ hull.cells := by
  induction rs generalizing r with
  | nil => exact ⟨r, rfl, List.forall_mem_singleton.mpr Set.Subset.rfl⟩
  | cons b rs ih =>
    obtain ⟨hb, hrs⟩ := List.forall_mem_cons.mp h
    obtain ⟨c, hc⟩ : ∃ c, r.bounding? b = some c := ⟨_, if_pos hb.symm⟩
    obtain ⟨hsheet, hrc, hbc⟩ := cells_subset_bounding? hc
    rw [← hsheet] at hrs
    obtain ⟨hull, hhull, hcovers⟩ := ih hrs
    obtain ⟨hcHull, hrest⟩ := List.forall_mem_cons.mp hcovers
    refine ⟨hull, by rw [List.foldlM_cons, hc]; exact hhull, ?_⟩
    exact List.forall_mem_cons.mpr ⟨hrc.trans hcHull,
      List.forall_mem_cons.mpr ⟨hbc.trans hcHull, hrest⟩⟩

/-- What the smallest range around two ranges has, the one around several has too. -/
theorem of_foldlM_bounding? {P : Range → Prop}
    (h : ∀ a b c, P a → P b → a.bounding? b = some c → P c) {rs : List Range} {hull : Range}
    (hr : P r) (hrs : ∀ b ∈ rs, P b) (hhull : rs.foldlM bounding? r = some hull) : P hull := by
  induction rs generalizing r with
  | nil => cases hhull; exact hr
  | cons b rs ih =>
    obtain ⟨hb, hrest⟩ := List.forall_mem_cons.mp hrs
    rw [List.foldlM_cons] at hhull
    cases hc : r.bounding? b with
    | none => rw [hc] at hhull; cases hhull
    | some c =>
      rw [hc] at hhull
      exact ih (h r b c hr hb hc) hrest hhull

end Range

/-- The smallest range around two ranges in the set does not leave the set. -/
def HullClosed (s : Set CellKey) : Prop :=
  ∀ a b c : Range, a.Within s → b.Within s → a.bounding? b = some c → c.cells ⊆ s

theorem Range.Within.bounding? {s : Set CellKey} (hs : HullClosed s) {a b c : Range}
    (ha : a.Within s) (hb : b.Within s) (h : a.bounding? b = some c) : c.Within s :=
  ⟨normal_of_bounding? ha.normal h, hs a b c ha hb h⟩

/-- A range around two ranges is around the smallest range around them. -/
theorem Range.hullClosed_cells (box : Range) : HullClosed box.cells := by
  intro a b c ha hb hc
  obtain ⟨haFirst, haLast⟩ := ha.normal.corners_mem
  obtain ⟨hbFirst, hbLast⟩ := hb.normal.corners_mem
  have haFirst := mem_cells.mp (ha.subset haFirst)
  have haLast := mem_cells.mp (ha.subset haLast)
  have hbFirst := mem_cells.mp (hb.subset hbFirst)
  have hbLast := mem_cells.mp (hb.subset hbLast)
  rw [bounding?, if_pos (sheet_eq_of_bounding? hc)] at hc
  cases hc
  rintro ⟨sheet, row, col⟩ hkey
  simp only [mem_cells] at hkey ⊢
  exact ⟨hkey.1.trans haFirst.1, by omega, by omega⟩

namespace Operand

/-- The ranges of an operand. A value has none. -/
def rangeList : Operand → List Range
  | value _ => []
  | ranges rs => rs

/-- All ranges of the operand lie in the set. -/
def Within (o : Operand) (s : Set CellKey) : Prop := ∀ r ∈ o.rangeList, r.Within s

variable {s : Set CellKey}

theorem within_value (v : Value) : (value v).Within s := nofun

theorem within_range {r : Range} : (range r).Within s ↔ r.Within s := List.forall_mem_singleton

/-! ### Combining ranges -/

variable {P : Range → Prop} {op : Operator}

/-- The operator on references keeps a property of ranges: common parts of ranges have it, and so
does the smallest range around two ranges if that is what the operator makes. -/
structure Keeps (op : Operator) (P : Range → Prop) : Prop where
  common : ∀ a b c, P a → a.intersect? b = some c → P c
  around : op = .range → ∀ a b c, P a → P b → a.bounding? b = some c → P c

theorem keeps_within (h : op = .range → HullClosed s) : Keeps op (Range.Within · s) where
  common _ _ _ ha hc := ha.intersect? hc
  around hop _ _ _ ha hb hc := ha.bounding? (h hop) hb hc

theorem forall_error (kind : ErrorKind) : ∀ r ∈ (error kind).rangeList, P r := nofun

theorem forall_combineRanges (h : Keeps op P) {left right : List Range}
    (hleft : ∀ r ∈ left, P r) (hright : ∀ r ∈ right, P r) :
    ∀ r ∈ (combineRanges op left right).rangeList, P r := by
  have hboth : ∀ r ∈ left ++ right, P r := List.forall_mem_append.mpr ⟨hleft, hright⟩
  rw [combineRanges.eq_def]
  split
  · exact hboth
  · split
    · next hull hhull =>
      cases hranges : left ++ right with
      | nil => rw [hranges] at hhull; cases hhull
      | cons r rs =>
        rw [hranges] at hboth hhull
        obtain ⟨hr, hrs⟩ := List.forall_mem_cons.mp hboth
        exact List.forall_mem_singleton.mpr
          (Range.of_foldlM_bounding? (h.around rfl) hr hrs hhull)
    · exact forall_error _
  · split
    · exact forall_error _
    · intro r hr
      obtain ⟨a, ha, hr⟩ := List.mem_flatMap.mp hr
      obtain ⟨b, -, hr⟩ := List.mem_filterMap.mp hr
      exact h.common a b r (hleft a ha) hr

/-- **A reference operator makes no ranges without the property** of ranges that have it. -/
theorem forall_combineReferences (h : Keeps op P) {operands : List Operand}
    (hoperands : ∀ o ∈ operands, ∀ r ∈ o.rangeList, P r) :
    ∀ r ∈ (combineReferences op operands).rangeList, P r := by
  rw [combineReferences.eq_def]
  split
  · next left right =>
    obtain ⟨hleft, hright⟩ := List.forall_mem_cons.mp hoperands
    exact forall_combineRanges h hleft (List.forall_mem_singleton.mp hright)
  · exact forall_error _
  · exact forall_error _
  · exact forall_error _

end Operand

end CellFormula
