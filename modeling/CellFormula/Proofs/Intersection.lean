import CellFormula.Proofs.CellRules
import CellFormula.Proofs.ConditionalCells
import CellFormula.Proofs.ReferencedCells

/-!
# The one cell that is meant by a range

Outside an array formula a range stands for one of its cells where a single value is wanted. Which
one depends on the shape of the range and on the formula's place. `Range.Meets` gives the four
shapes, and they overlap: a column of one cell is a single cell, and a formula inside a column is
both in one of its rows and at one of its positions. Where two shapes apply they mean the same cell,
so it does not matter which of them is tried first.

## Areas in cells

A source may answer for a single cell with an area, whose first cell may be an area again. A value
`Nests` areas so many deep around an inner value that is none. The inner value is found if there are
no more areas around it than the limit says. Deeper ones are a value error, and so is an area that
has no first cell at all, which no source makes that keeps to the shapes of its areas
(`Value.exists_nests`).

## Main definitions

* `Range.Meets` — the cell that a formula means by a range
* `Value.Nests`, `Value.OpensTo` — how deep areas lie around a value, and what opening them comes to
* `Machine.Intersects` — what a range stands for

## Main results

* `Machine.intersection?_eq_some_iff` — the shapes overlap without harm
* `Value.opened_eq_iff`, `Value.exists_nests` — opening areas
* `Machine.reads_one_cell` — what is read of a range
-/

namespace CellFormula

/-! ### Which cell -/

/-- The cell that a formula in this place means by the range: the only cell, the one in its own row
of a column, the one in its own column of a row, or the one in its own position. -/
inductive Range.Meets (r : Range) (place : Place) : Nat → Nat → Prop
  | cell (hrow : r.firstRow = r.lastRow) (hcol : r.firstCol = r.lastCol) :
    Meets r place r.firstRow r.firstCol
  | column (hcol : r.firstCol = r.lastCol)
    (hrow : r.firstRow ≤ place.row ∧ place.row ≤ r.lastRow) : Meets r place place.row r.firstCol
  | row (hrow : r.firstRow = r.lastRow)
    (hcol : r.firstCol ≤ place.col ∧ place.col ≤ r.lastCol) : Meets r place r.firstRow place.col
  | position (hrow : r.firstRow ≤ place.row ∧ place.row ≤ r.lastRow)
    (hcol : r.firstCol ≤ place.col ∧ place.col ≤ r.lastCol) : Meets r place place.row place.col

/-- **The shapes overlap without harm**: whichever applies, the cell is the one that is computed by
trying them in order. -/
theorem Machine.intersection?_eq_some_iff {m : Machine} {r : Range} {row col : Nat} :
    m.intersection? r = some (row, col) ↔ r.Meets m.place row col := by
  simp only [intersection?, Range.isSingle, Range.contains, Range.containsRow, Range.containsCol,
    Bool.and_eq_true, beq_iff_eq, decide_eq_true_eq]
  constructor
  · intro h
    split at h
    · next hsingle => cases h; exact .cell hsingle.1 hsingle.2
    · split at h
      · next hcol =>
        split at h
        · next hrow => cases h; exact .column hcol hrow
        · cases h
      · split at h
        · next hrow =>
          split at h
          · next hcol => cases h; exact .row hrow hcol
          · cases h
        · split at h
          · next hinside => cases h; exact .position hinside.1 hinside.2
          · cases h
  · intro h
    cases h with
    | cell hrow hcol => grind
    | column hcol hrow => grind
    | row hrow hcol => grind
    | position hrow hcol => grind

/-! ### Areas in cells -/

namespace Value

/-- There are so many areas around the inner value, each the first cell of the one around it. -/
inductive Nests (inner : Value) : Nat → Value → Prop
  | plain (hinner : ¬ inner.IsArea) : Nests inner 0 inner
  | area {block : Area} {first : Value} {depth : Nat} (hfirst : block.get? 0 0 = some first)
    (hinside : Nests inner depth first) : Nests inner (depth + 1) (.area block)

/-- The value is no area, or one whose cells fill its shape. -/
def IsFilled : Value → Prop
  | area block => block.cells.WellFormed
  | _ => True

variable {v inner : Value} {depth : Nat}

theorem Nests.not_isArea (h : Nests inner depth v) : ¬ inner.IsArea := by
  induction h with
  | plain hinner => exact hinner
  | area _ _ ih => exact ih

theorem Nests.unique {inner' : Value} {depth' : Nat} (h : Nests inner depth v)
    (h' : Nests inner' depth' v) : inner = inner' ∧ depth = depth' := by
  induction h generalizing depth' with
  | plain hinner =>
    cases h' with
    | plain => exact ⟨rfl, rfl⟩
    | area => exact absurd trivial hinner
  | area hfirst _ ih =>
    cases h' with
    | plain hinner => exact absurd trivial hinner
    | area hfirst' hinside =>
      obtain rfl := Option.some.inj (hfirst.symm.trans hfirst')
      obtain ⟨hinner, hdepth⟩ := ih hinside
      exact ⟨hinner, congrArg (· + 1) hdepth⟩

/-- **Opening areas** comes to the inner value if there are not too many of them. -/
theorem opened_of_nests (h : Nests inner depth v) (times : Nat) :
    v.opened times = if depth ≤ times then inner else .error .value := by
  induction h generalizing times with
  | plain hinner => rw [opened_of_not_isArea hinner, if_pos (Nat.zero_le times)]
  | @area block first depth hfirst _ ih =>
    cases times with
    | zero => rw [opened, if_neg (Nat.not_succ_le_zero depth)]
    | succ times =>
      rw [opened, hfirst, Option.getD_some, ih]
      simp only [Nat.succ_le_succ_iff]

/-- Otherwise it comes to a value error. -/
theorem opened_of_not_nests (h : ∀ inner depth, ¬ Nests inner depth v) (times : Nat) :
    v.opened times = .error .value := by
  induction times generalizing v with
  | zero =>
    cases v with
    | area block => rfl
    | _ => exact absurd (.plain id) (h _ 0)
  | succ times ih =>
    cases v with
    | area block =>
      rw [opened]
      cases hfirst : block.get? 0 0 with
      | none => exact opened_of_not_isArea id times
      | some first => exact ih fun inner depth hinside => h inner (depth + 1) (.area hfirst hinside)
    | _ => exact absurd (.plain id) (h _ 0)

/-- What is left of a value of which so many areas are opened: the inner value, or a value error if
it lies deeper. -/
inductive OpensTo (times : Nat) (v : Value) : Value → Prop
  | inner {inner : Value} {depth : Nat} (hinner : Nests inner depth v) (hdepth : depth ≤ times) :
    OpensTo times v inner
  | tooDeep (hdeep : ∀ inner depth, Nests inner depth v → times < depth) :
    OpensTo times v (.error .value)

theorem opened_eq_iff {times : Nat} {w : Value} : v.opened times = w ↔ v.OpensTo times w := by
  constructor
  · rintro rfl
    by_cases hnests : ∃ inner depth, Nests inner depth v
    · obtain ⟨inner, depth, hinner⟩ := hnests
      rw [opened_of_nests hinner]
      split
      · next hdepth => exact .inner hinner hdepth
      · next hdepth =>
        refine .tooDeep fun inner' depth' hinner' => ?_
        obtain ⟨-, rfl⟩ := hinner.unique hinner'
        exact Nat.not_le.mp hdepth
    · have hnone : ∀ inner depth, ¬ Nests inner depth v :=
        fun inner depth hinner => hnests ⟨inner, depth, hinner⟩
      rw [opened_of_not_nests hnone]
      exact .tooDeep fun inner depth hinner => absurd hinner (hnone inner depth)
  · intro h
    cases h with
    | inner hinner hdepth => rw [opened_of_nests hinner, if_pos hdepth]
    | tooDeep hdeep =>
      by_cases hnests : ∃ inner depth, Nests inner depth v
      · obtain ⟨inner, depth, hinner⟩ := hnests
        rw [opened_of_nests hinner, if_neg (Nat.not_le.mpr (hdeep inner depth hinner))]
      · exact opened_of_not_nests (fun inner depth hinner => hnests ⟨inner, depth, hinner⟩) times

theorem OpensTo.not_isArea {times : Nat} {w : Value} (h : v.OpensTo times w) : ¬ w.IsArea := by
  cases h with
  | inner hinner => exact hinner.not_isArea
  | tooDeep => exact id

theorem sizeOf_lt_of_get? {block : Area} {row col : Nat} (h : block.get? row col = some v) :
    sizeOf v < sizeOf (area block) := by
  have hmem : v ∈ block.cells.cells := Array.mem_toList_iff.mp (Matrix.mem_of_get? h)
  have hcells := Array.sizeOf_lt_of_mem hmem
  obtain ⟨firstRow, firstCol, ⟨rows, cols, cells⟩⟩ := block
  simp only [area.sizeOf_spec, Block.mk.sizeOf_spec, Matrix.mk.sizeOf_spec] at hcells ⊢
  omega

/-- **Areas end somewhere**: inside areas that all have a first cell there is an inner value. -/
theorem exists_nests (v : Value) (h : v.Throughout IsFilled) :
    ∃ inner depth, Nests inner depth v := by
  cases v with
  | area block =>
    obtain ⟨hfilled, hcells⟩ := throughout_area_iff.mp h
    obtain ⟨first, hfirst⟩ : ∃ first, block.get? 0 0 = some first :=
      Option.isSome_iff_exists.mp ((Matrix.isSome_get?_iff hfilled).mpr ⟨hfilled.1, hfilled.2.1⟩)
    have hsmaller := sizeOf_lt_of_get? hfirst
    obtain ⟨inner, depth, hinside⟩ := exists_nests first (hcells first (Matrix.mem_of_get? hfirst))
    exact ⟨inner, depth + 1, .area hfirst hinside⟩
  | _ => exact ⟨_, 0, .plain id⟩
termination_by sizeOf v

end Value

/-! ### What is read -/

namespace Machine

variable {m : Machine} {r : Range}

/-- What the range stands for: what is left of the cell that is meant, or a value error if no cell
is. -/
inductive Intersects (m : Machine) (r : Range) : Value → Prop
  | cell {row col : Nat} {v : Value} (hcell : r.Meets m.place row col)
    (hv : (m.source.cell r.sheet row col).OpensTo m.limits.valueNesting v) : Intersects m r v
  | nothing (hnone : ∀ row col, ¬ r.Meets m.place row col) : Intersects m r (.error .value)

/-- A range is read by way of the cell that is meant. -/
theorem readIntersected_of_meets {row col : Nat} (h : r.Meets m.place row col) :
    m.readIntersected r = m.cellValue r.sheet row col := by
  rw [readIntersected, intersection?_eq_some_iff.mpr h]

theorem readIntersected_of_not_meets (h : ∀ row col, ¬ r.Meets m.place row col) :
    m.readIntersected r = .error .value := by
  rw [readIntersected]
  split
  · next row col hcell => exact absurd (intersection?_eq_some_iff.mp hcell) (h row col)
  · rfl

/-- **What is read of a range is what it stands for.** -/
theorem readIntersected_eq_iff {v : Value} : m.readIntersected r = v ↔ m.Intersects r v := by
  constructor
  · rintro rfl
    by_cases hmeets : ∃ row col, r.Meets m.place row col
    · obtain ⟨row, col, hcell⟩ := hmeets
      exact .cell hcell (Value.opened_eq_iff.mp (readIntersected_of_meets hcell).symm)
    · have hnone : ∀ row col, ¬ r.Meets m.place row col :=
        fun row col hcell => hmeets ⟨row, col, hcell⟩
      rw [readIntersected_of_not_meets hnone]
      exact .nothing hnone
  · intro h
    cases h with
    | cell hcell hv => exact (readIntersected_of_meets hcell).trans (Value.opened_eq_iff.mpr hv)
    | nothing hnone => exact readIntersected_of_not_meets hnone

theorem Intersects.not_isArea {v : Value} (h : m.Intersects r v) : ¬ v.IsArea := by
  cases h with
  | cell _ hv => exact hv.not_isArea
  | nothing => exact id

/-- **Outside an array formula one cell is read of a range**: what the range stands for, and never
an area, whatever the source answers. The cell that is meant lies in the range. If the areas in it
have all their cells, there is a value inside them, and that is read unless it lies too deep. -/
theorem reads_one_cell (m : Machine) (r : Range) (hmode : m.place.inArrayFormula = false)
    (hr : r.Normal) :
    (∀ v, m.operandValue (.range r) = v ↔ m.Intersects r v) ∧
      ¬ (m.operandValue (.range r)).IsArea ∧
      ∀ row col, r.Meets m.place row col → r.contains row col = true ∧
        ((m.source.cell r.sheet row col).Throughout Value.IsFilled → ∃ inner depth,
          Value.Nests inner depth (m.source.cell r.sheet row col) ∧
          m.operandValue (.range r)
            = if depth ≤ m.limits.valueNesting then inner else .error .value) := by
  have hread : m.operandValue (.range r) = m.readIntersected r := by
    refine if_neg fun hlarge => ?_
    rw [hmode] at hlarge
    exact Bool.false_ne_true hlarge.1
  rw [hread]
  refine ⟨fun v => readIntersected_eq_iff, (readIntersected_eq_iff.mp rfl).not_isArea, ?_⟩
  intro row col hcell
  obtain ⟨-, hinside⟩ := mem_cells_of_intersection? hr (intersection?_eq_some_iff.mpr hcell)
  refine ⟨hinside, fun hfilled => ?_⟩
  obtain ⟨inner, depth, hinner⟩ := Value.exists_nests _ hfilled
  refine ⟨inner, depth, hinner, ?_⟩
  rw [readIntersected_of_meets hcell, cellValue, Value.opened_of_nests hinner]

/-- `F3:F5` beside a formula in row 4, from a source that answers with two areas around a text, for
a machine that opens as many. -/
theorem reads_one_cell_column :
    let boxed (v : Value) : Value := .area ⟨0, 0, ⟨1, 2, #[v, .blank]⟩⟩
    let cell (row : Nat) : Value := if row = 3 then .text "in" else .blank
    let m : Machine :=
      ⟨.ofCells fun _ row _ => boxed (boxed (cell row)), ⟨3, 1, false⟩, ⟨1, 1, 2⟩, .builtin⟩
    let r : Range := ⟨.current, 2, 5, 4, 5⟩
    m.place.inArrayFormula = false ∧ r.Normal ∧ r.Meets m.place 3 5 ∧ m.Intersects r (.text "in") ∧
      m.operandValue (.range r) = .text "in" := by
  intro boxed cell m r
  have hmeets : r.Meets m.place 3 5 := .column rfl (by decide)
  have hv : m.Intersects r (.text "in") :=
    .cell hmeets (.inner (.area rfl (.area rfl (.plain id))) (Nat.le_refl 2))
  exact ⟨rfl, by decide, hmeets, hv, ((reads_one_cell m r rfl (by decide)).1 _).mpr hv⟩

end Machine

end CellFormula
