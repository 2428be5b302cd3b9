import CellFormula.Proofs.Elementwise
import CellFormula.Proofs.ExpressionTree
import CellFormula.Proofs.SharedFormula

/-!
# Array formulas

In an array formula an operator reads areas whole and works on them cell by cell. In an ordinary
formula it reads single cells. If the areas have one shape the two agree: the array formula has an
area of that shape as its value, and each cell of it is the value of an ordinary formula, the one
that has single cells in the place of the areas.

## Where areas are kept in step

The operators of a formula are applied one after the other, each to whole areas. That the cells
never get out of step is said by `Value.Spreads`: a value contributes at each position what some
other computation has there. A plain value contributes itself everywhere, an area its cell, and
applying an operator cell by cell keeps it (`spreads_broadcast`).

## What is deliberately absent

The formulas here have no calls, because a call may look at an area as a whole, and no names and no
array literals, which have values of any shape. Areas of different shapes are left out as well:
where one of them ends, the others go on.

## Main definitions

* `ValueExpr` — formulas of literals, references and operators on values
* `ValueExpr.atCell` — the formula for one cell of the areas
* `Value.Spreads` — what a value contributes at each position

## Main results

* `spreads_broadcast` — operators keep cells in step
* `ValueExpr.spreads_read` — so do formulas
* `ValueExpr.evaluate_array` — an array formula is its cells' formulas
-/

namespace CellFormula

open Worksheet (FunctionTable)

/-! ### Plain values -/

namespace Value

/-- The value is an area. -/
def IsArea : Value → Prop
  | area _ => True
  | _ => False

/-- A value is an area or it is none. -/
theorem exists_eq_area_or_not_isArea (v : Value) : (∃ block, v = .area block) ∨ ¬ v.IsArea := by
  cases v with
  | area block => exact .inl ⟨block, rfl⟩
  | _ => exact .inr id

/-- The value is what a cell can hold: no area, nothing that was left out, and a finite number if it
is a number. -/
def IsPlain : Value → Prop
  | missing | area _ => False
  | number x => x.isFinite = true
  | _ => True

theorem not_isArea_of_isPlain {v : Value} (h : v.IsPlain) : ¬ v.IsArea := by
  cases v with
  | area block => exact absurd h id
  | _ => exact id

theorem isPlain_ofNumber (x : Float) : (ofNumber x).IsPlain := by
  rw [ofNumber]
  split
  · next hfinite => exact hfinite
  · trivial

theorem isPlain_ofResult (x : Except ErrorKind Float) : (ofResult x).IsPlain := by
  cases x with
  | ok x => exact isPlain_ofNumber x
  | error kind => trivial

theorem opened_of_not_isArea {v : Value} (h : ¬ v.IsArea) (times : Nat) : v.opened times = v := by
  cases v with
  | area block => exact absurd trivial h
  | _ => cases times <;> rfl

end Value

/-- A plain value is left as it is at the end of a formula. -/
theorem Machine.result_of_isPlain (m : Machine) {v : Value} (h : v.IsPlain) :
    m.result (.value v) = v := by
  cases v with
  | missing | area => exact absurd h id
  | number x =>
    have hfinite : x.isFinite = true := h
    simp [result, operandValue, Value.normalize, Value.ofNumber, hfinite]
  | _ => rfl

/-! ### What operators give -/

namespace Operator

theorem isPlain_computeBinary (op : Operator) (l r : Value) : (op.computeBinary l r).IsPlain := by
  rw [computeBinary]
  split
  · split <;> trivial
  · split
    · split <;> trivial
    · exact Value.isPlain_ofResult _

/-- Only a plus sign can hand on a value that is not plain. -/
theorem isPlain_compute (op : Operator) {args : List Value}
    (h : ∀ v, args = [v] → v.IsPlain) : (op.compute args).IsPlain := by
  match args with
  | [] => trivial
  | [v] =>
    have hplain := h v rfl
    cases op with
    | unaryPlus => cases v <;> first | exact hplain | trivial
    | unaryMinus | percent => exact Value.isPlain_ofResult _
    | _ => trivial
  | [l, r] => exact op.isPlain_computeBinary l r
  | _ :: _ :: _ :: _ => trivial

theorem not_isArea_compute (op : Operator) {args : List Value} (h : ∀ v ∈ args, ¬ v.IsArea) :
    ¬ (op.compute args).IsArea := by
  match args with
  | [] => exact id
  | [v] =>
    have hv := h v (List.mem_singleton.mpr rfl)
    cases op with
    | unaryPlus => cases v <;> exact hv
    | unaryMinus | percent => exact Value.not_isArea_of_isPlain (Value.isPlain_ofResult _)
    | _ => exact id
  | [l, r] => exact Value.not_isArea_of_isPlain (op.isPlain_computeBinary l r)
  | _ :: _ :: _ :: _ => exact id

end Operator

/-! ### Cell by cell -/

theorem exists_area_mem {args : List Value} (h : ∃ v ∈ args, v.IsArea) :
    ∃ block, Value.area block ∈ args := by
  obtain ⟨v, hv, hisArea⟩ := h
  cases v with
  | area block => exact ⟨block, hv⟩
  | _ => exact absurd hisArea id

theorem areasOf_eq_nil {args : List Value} (h : ∀ v ∈ args, ¬ v.IsArea) : areasOf args = [] := by
  refine List.eq_nil_iff_forall_not_mem.mpr fun block hblock => ?_
  exact h (.area block) (mem_areasOf.mp hblock) trivial

theorem broadcast_of_not_isArea {args : List Value} (h : ∀ v ∈ args, ¬ v.IsArea)
    (f : List Value → Value) : broadcast args f = f args := by
  rw [broadcast, areasOf_eq_nil h]

theorem liftFirst_of_not_isArea {v : Value} (h : ¬ v.IsArea) (f : Value → Value) :
    Worksheet.liftFirst f [v] = f v := by
  rw [Worksheet.liftFirst, broadcast_of_not_isArea (List.forall_mem_singleton.mpr h)]

/-- Areas of one shape give an area of that shape. -/
theorem broadcast_of_isArea {args : List Value} {rows cols : Nat} (hrows : 0 < rows)
    (hcols : 0 < cols)
    (hshape : ∀ block, .area block ∈ args → block.rows = rows ∧ block.cols = cols)
    (harea : ∃ v ∈ args, v.IsArea) (f : List Value → Value) :
    ∃ firstRow firstCol, broadcast args f
      = .area ⟨firstRow, firstCol, Matrix.tabulate rows cols (broadcastCell args f)⟩ := by
  obtain ⟨block, hblock⟩ := exists_area_mem harea
  have hgreatest {extent : Area → Nat} {n : Nat} (h : ∀ b, .area b ∈ args → extent b = n) :
      IsGreatest (areaExtents extent args) n := by
    refine ⟨⟨block, hblock, h block hblock⟩, ?_⟩
    rintro _ ⟨b, hb, rfl⟩
    exact Nat.le_of_eq (h b hb)
  obtain ⟨firstRow, firstCol, hbroadcast⟩ := broadcast_of_isGreatest
    (hgreatest fun b hb => (hshape b hb).1) (hgreatest fun b hb => (hshape b hb).2) hrows hcols
  exact ⟨firstRow, firstCol, hbroadcast f⟩

/-- The value contributes `cell row col` at each position of an area of this shape. -/
structure Value.Spreads (rows cols : Nat) (v : Value) (cell : Nat → Nat → Value) : Prop where
  shape : ∀ block, v = .area block → block.rows = rows ∧ block.cols = cols
  element : ∀ row < rows, ∀ col < cols, elementAt? row col v = some (cell row col)

theorem elementAt?_of_not_isArea {v : Value} (h : ¬ v.IsArea) (row col : Nat) :
    elementAt? row col v = some v := by
  cases v with
  | area block => exact absurd trivial h
  | _ => rfl

theorem repeatedIndex_of_lt {extent place : Nat} (h : place < extent) :
    repeatedIndex extent place = place := by
  rw [repeatedIndex]
  split <;> omega

/-- A position inside an area is looked up where it is. -/
theorem elementAt?_area {block : Area} {row col : Nat} (hrow : row < block.rows)
    (hcol : col < block.cols) : elementAt? row col (.area block) = block.get? row col := by
  rw [elementAt?, repeatedIndex_of_lt hrow, repeatedIndex_of_lt hcol]

namespace Value.Spreads

variable {rows cols : Nat}

theorem of_not_isArea {v : Value} (h : ¬ v.IsArea) {cell : Nat → Nat → Value}
    (hcell : ∀ row < rows, ∀ col < cols, cell row col = v) : v.Spreads rows cols cell where
  shape block hv := absurd (by rw [hv]; trivial) h
  element row hrow col hcol := by rw [hcell row hrow col hcol, elementAt?_of_not_isArea h]

theorem of_tabulate (firstRow firstCol : Nat) (cell : Nat → Nat → Value) :
    (area ⟨firstRow, firstCol, Matrix.tabulate rows cols cell⟩).Spreads rows cols cell where
  shape block hblock := by cases hblock; exact ⟨rfl, rfl⟩
  element row hrow col hcol := by
    rw [elementAt?_area hrow hcol]
    exact Matrix.get?_tabulate cell hrow hcol

theorem congr {v : Value} {cell cell' : Nat → Nat → Value} (h : v.Spreads rows cols cell)
    (hcell : ∀ row < rows, ∀ col < cols, cell' row col = cell row col) :
    v.Spreads rows cols cell' where
  shape := h.shape
  element row hrow col hcol := by rw [h.element row hrow col hcol, hcell row hrow col hcol]

theorem get?_eq {block : Area} {cell : Nat → Nat → Value}
    (h : (area block).Spreads rows cols cell) {row col : Nat} (hrow : row < rows)
    (hcol : col < cols) : block.get? row col = some (cell row col) := by
  obtain ⟨hrows, hcols⟩ := h.shape block rfl
  rw [← h.element row hrow col hcol, elementAt?_area (by rwa [hrows]) (by rwa [hcols])]

end Value.Spreads

/-- What all arguments contribute, if each of them contributes something. -/
theorem elementsAt?_ofFn {n row col : Nat} {values elements : Fin n → Value}
    (h : ∀ i, elementAt? row col (values i) = some (elements i)) :
    elementsAt? (List.ofFn values) row col = some (List.ofFn elements) :=
  elementsAt?_eq_some_iff.mpr (forall₂_ofFn h)

/-- **Applying a function cell by cell keeps cells in step**, and gives an area as soon as there is
one. -/
theorem spreads_broadcast {n rows cols : Nat} (hrows : 0 < rows) (hcols : 0 < cols)
    {values : Fin n → Value} {cells : Fin n → Nat → Nat → Value}
    (h : ∀ i, (values i).Spreads rows cols (cells i)) {f : List Value → Value}
    (hf : ∀ args, (∀ v ∈ args, ¬ v.IsArea) → ¬ (f args).IsArea) :
    (broadcast (List.ofFn values) f).Spreads rows cols
        (fun row col => f (List.ofFn fun i => cells i row col)) ∧
      ((∃ i, (values i).IsArea) → (broadcast (List.ofFn values) f).IsArea) := by
  have helements : ∀ row < rows, ∀ col < cols, elementsAt? (List.ofFn values) row col
      = some (List.ofFn fun i => cells i row col) :=
    fun row hrow col hcol => elementsAt?_ofFn fun i => (h i).element row hrow col hcol
  -- One area makes the result an area; without any, `f` is applied once.
  by_cases harea : ∃ i, (values i).IsArea
  · obtain ⟨i, hi⟩ := harea
    have hshape : ∀ block, .area block ∈ List.ofFn values →
        block.rows = rows ∧ block.cols = cols := by
      intro block hblock
      obtain ⟨j, hj⟩ := List.mem_ofFn.mp hblock
      exact (h j).shape block hj
    obtain ⟨firstRow, firstCol, hbroadcast⟩ := broadcast_of_isArea hrows hcols hshape
      ⟨values i, List.mem_ofFn.mpr ⟨i, rfl⟩, hi⟩ f
    rw [hbroadcast]
    refine ⟨⟨fun block hblock => ?_, fun row hrow col hcol => ?_⟩, fun _ => trivial⟩
    · cases hblock
      exact ⟨rfl, rfl⟩
    · rw [elementAt?_area hrow hcol]
      refine (Matrix.get?_tabulate _ hrow hcol).trans ?_
      rw [broadcastCell, helements row hrow col hcol]
  · have hnone : ∀ v ∈ List.ofFn values, ¬ v.IsArea := by
      intro v hv hisArea
      obtain ⟨i, rfl⟩ := List.mem_ofFn.mp hv
      exact harea ⟨i, hisArea⟩
    rw [broadcast_of_not_isArea hnone]
    refine ⟨.of_not_isArea (hf _ hnone) fun row hrow col hcol => ?_, fun hi => absurd hi harea⟩
    have hsame (i : Fin n) : cells i row col = values i := by
      have helement := (h i).element row hrow col hcol
      rw [elementAt?_of_not_isArea fun hi => harea ⟨i, hi⟩] at helement
      exact (Option.some.inj helement).symm
    simp only [hsame]

/-! ### Reading cells and areas -/

namespace Range

theorem single_eq (sheet : SheetRef) (row col : Nat) :
    single sheet row col = ⟨sheet, row, col, row, col⟩ := by
  rw [single, spanning, Nat.min_self, Nat.min_self, Nat.max_self, Nat.max_self]

/-- A reference to the cell at an offset from the first corner of the range. -/
def cellReference (range : Range) (row col : Nat) : Reference :=
  let cell : CellRef :=
    ⟨(range.firstRow + row).toUInt16, (range.firstCol + col).toUInt16, false, false⟩
  match range.sheet with
  | .current => .cell cell
  | .external link => .sheetCell link cell

/-- The range has an address: its rows and columns are words. -/
structure Addressable (range : Range) : Prop where
  row : range.firstRow + range.rows ≤ UInt16.size
  col : range.firstCol + range.cols ≤ UInt16.size

end Range

namespace Machine

/-- The machine with its formula taken as an array formula, or as an ordinary one. -/
def inMode (m : Machine) (array : Bool) : Machine :=
  { m with place := { m.place with inArrayFormula := array } }

variable {m : Machine}

theorem referenceOperand_inMode (m : Machine) (array : Bool) (r : Reference) :
    (m.inMode array).referenceOperand r = m.referenceOperand r := by
  cases r <;> rfl

/-- A single cell is read alike in both modes. -/
theorem readValue_of_isSingle {range : Range} (h : range.isSingle = true) :
    m.readValue [range] = m.cellValue range.sheet range.firstRow range.firstCol := by
  rw [readValue, if_neg (fun hlarge => hlarge.2 h), readIntersected, intersection?, if_pos h]

/-- The range of one cell is read as that cell. -/
theorem operandValue_single (sheet : SheetRef) (row col : Nat) :
    m.operandValue (.range (.single sheet row col)) = m.cellValue sheet row col := by
  have hone : (⟨sheet, row, col, row, col⟩ : Range).isSingle = true := by simp [Range.isSingle]
  rw [Range.single_eq]
  exact readValue_of_isSingle hone

theorem cellValue_of_isPlain {sheet : SheetRef} {row col : Nat}
    (h : (m.source.cell sheet row col).IsPlain) :
    m.cellValue sheet row col = m.source.cell sheet row col :=
  Value.opened_of_not_isArea (Value.not_isArea_of_isPlain h) _

/-- The cells of a range, asked for one by one. -/
def cellBlock (m : Machine) (r : Range) : Area :=
  ⟨r.firstRow, r.firstCol, .tabulate r.rows r.cols fun row col =>
    m.source.cell r.sheet (r.firstRow + row) (r.firstCol + col)⟩

/-- A range within the limit is read as its cells. -/
theorem readWhole_eq_area (harea : m.source.area = CellSource.readArea m.source.cell) {r : Range}
    (hcells : r.cellCount ≤ m.limits.areaCells) : m.readWhole r = .area (m.cellBlock r) := by
  have hshape : ¬ (r.rows = 0 ∨ r.cols = 0) := by simp [Range.rows, Range.cols]
  rw [readWhole, if_neg (by omega), harea, CellSource.readArea, Matrix.generate, if_neg hshape]
  rfl

/-- A larger range is read whole in an array formula, cell by cell. -/
theorem readValue_inMode {range : Range} (hsingle : range.isSingle = false)
    (harea : m.source.area = CellSource.readArea m.source.cell)
    (hcount : range.rows * range.cols ≤ m.limits.areaCells) :
    (m.inMode true).readValue [range] = .area ⟨range.firstRow, range.firstCol,
      Matrix.tabulate range.rows range.cols fun row col =>
        m.source.cell range.sheet (range.firstRow + row) (range.firstCol + col)⟩ := by
  have hseveral : (m.inMode true).place.inArrayFormula = true ∧ ¬ range.isSingle = true :=
    ⟨rfl, by rw [hsingle]; exact Bool.false_ne_true⟩
  have hcells : range.cellCount ≤ range.rows * range.cols := Nat.min_le_left _ _
  calc (m.inMode true).readValue [range]
    _ = m.readWhole range := if_pos hseveral
    _ = .area (m.cellBlock range) := readWhole_eq_area harea (hcells.trans hcount)

end Machine

/-! ### The reference to one cell of a range -/

theorem Range.addressable_spanning (sheet : SheetRef) {row col row' col' : Nat}
    (hrow : row < UInt16.size) (hcol : col < UInt16.size) (hrow' : row' < UInt16.size)
    (hcol' : col' < UInt16.size) : (spanning sheet row col row' col').Addressable := by
  constructor
  · simp only [spanning, rows]
    omega
  · simp only [spanning, cols]
    omega

namespace Machine

variable {m : Machine}

theorem addressable_onSheet {link : UInt16} {range : SheetRef → Range} {resolved : Range}
    (hrange : ∀ sheet, (range sheet).Addressable ∧ (range sheet).sheet = sheet)
    (h : m.onSheet link range = .range resolved) :
    resolved.Addressable ∧
      ∀ link, resolved.sheet = .external link → m.source.hasSheet (.external link) = true := by
  rw [onSheet] at h
  split at h
  · next hsheet =>
    cases h
    refine ⟨(hrange _).1, fun link hlink => ?_⟩
    rw [(hrange _).2] at hlink
    rwa [← hlink]
  · cases h

/-- **A reference that resolves has an address** on a sheet that exists. -/
theorem addressable_of_resolves {r : Reference} {range : Range}
    (h : m.referenceOperand r = .range range) : range.Addressable ∧
      ∀ link, range.sheet = .external link → m.source.hasSheet (.external link) = true := by
  have hword (n : UInt16) : n.toNat < UInt16.size := n.toNat_lt
  have hplaced {c : CellRef} {row col : Nat} (h : m.placed? c = some (row, col)) :
      row < UInt16.size ∧ col < UInt16.size := by
    obtain ⟨hrow, hcol⟩ := CellRef.place?_bounds h
    exact ⟨Nat.lt_succ_of_le hrow, Nat.lt_of_le_of_lt hcol (by decide)⟩
  have hcurrent (link : UInt16) (hlink : SheetRef.current = .external link) :
      m.source.hasSheet (.external link) = true := by
    cases hlink
  cases r with
  | cell c =>
    cases h
    exact ⟨Range.addressable_spanning _ (hword _) (hword _) (hword _) (hword _), hcurrent⟩
  | area a =>
    cases h
    exact ⟨Range.addressable_spanning _ (hword _) (hword _) (hword _) (hword _), hcurrent⟩
  | sharedCell c =>
    rw [referenceOperand] at h
    split at h
    · next row col hcell =>
      cases h
      obtain ⟨hrow, hcol⟩ := hplaced hcell
      exact ⟨Range.addressable_spanning _ hrow hcol hrow hcol, hcurrent⟩
    · cases h
  | sharedArea a =>
    rw [referenceOperand] at h
    split at h
    · next row col row' col' hfirst hlast =>
      cases h
      obtain ⟨hrow, hcol⟩ := hplaced hfirst
      obtain ⟨hrow', hcol'⟩ := hplaced hlast
      exact ⟨Range.addressable_spanning _ hrow hcol hrow' hcol', hcurrent⟩
    · cases h
  | sheetCell link c =>
    exact addressable_onSheet (fun sheet =>
      ⟨Range.addressable_spanning sheet (hword _) (hword _) (hword _) (hword _), rfl⟩) h
  | sheetArea link a =>
    exact addressable_onSheet (fun sheet =>
      ⟨Range.addressable_spanning sheet (hword _) (hword _) (hword _) (hword _), rfl⟩) h
  | cellGone | areaGone | sheetCellGone | sheetAreaGone => cases h

/-- The reference to a cell of a range means that cell. -/
theorem referenceOperand_cellReference {range : Range} (haddress : range.Addressable)
    (hsheet : ∀ link, range.sheet = .external link → m.source.hasSheet (.external link) = true)
    {row col : Nat} (hrow : row < range.rows) (hcol : col < range.cols) :
    m.referenceOperand (range.cellReference row col)
      = .range (.single range.sheet (range.firstRow + row) (range.firstCol + col)) := by
  have hrowWord : (range.firstRow + row).toUInt16.toNat = range.firstRow + row :=
    UInt16.toNat_ofNat_of_lt' (by have := haddress.row; omega)
  have hcolWord : (range.firstCol + col).toUInt16.toNat = range.firstCol + col :=
    UInt16.toNat_ofNat_of_lt' (by have := haddress.col; omega)
  rw [Range.cellReference]
  cases hat : range.sheet with
  | current => simp only [referenceOperand, hrowWord, hcolWord]
  | external link =>
    simp only [referenceOperand, onSheet, hsheet link hat, hrowWord, hcolWord, if_true]

/-- The reference with a range of several cells cut down to the one at an offset. -/
def cellReference (m : Machine) (r : Reference) (row col : Nat) : Reference :=
  match m.referenceOperand r with
  | .ranges [range] => if range.isSingle then r else range.cellReference row col
  | _ => r

theorem cellReference_eq {r : Reference} {range : Range} (h : m.referenceOperand r = .range range)
    (row col : Nat) : m.cellReference r row col
      = if range.isSingle then r else range.cellReference row col := by
  rw [cellReference, h]
  rfl

end Machine

/-! ### Formulas on values -/

/-- A formula of literals, references and operators on values. -/
inductive ValueExpr
  | literal (l : Literal)
  | reference (r : Reference) (cls : OperandClass)
  | apply (op : Operator) (onValues : op.combinesReferences = false)
      (operands : Fin op.arity → ValueExpr)

namespace ValueExpr

/-- The formula as a tree for some table of functions, none of which it calls. -/
def toExpr (table : FunctionTable) : ValueExpr → Expr table
  | literal l => .leaf (.literal l) .value
  | reference r cls => .leaf (.reference r) cls
  | apply op _ operands => .operator op fun i => (operands i).toExpr table

/-- The tokens of the formula. -/
def tokens : ValueExpr → Formula
  | literal l => [.literal l]
  | reference r cls => [.reference r cls]
  | apply op _ operands => (List.ofFn fun i => (operands i).tokens).flatten ++ [.operator op]

/-- The references in the formula. -/
def references : ValueExpr → List Reference
  | literal _ => []
  | reference r _ => [r]
  | apply _ _ operands => (List.ofFn fun i => (operands i).references).flatten

/-- The value of the formula where an operator reads it. -/
def read (m : Machine) : ValueExpr → Value
  | literal l => l.toValue
  | reference r _ => m.operandValue (m.referenceOperand r)
  | apply op _ operands => broadcast (List.ofFn fun i => (operands i).read m) op.compute

/-- The formula for one cell: every range of several cells is cut down to the cell there. -/
def atCell (m : Machine) (row col : Nat) : ValueExpr → ValueExpr
  | literal l => literal l
  | reference r cls => reference (m.cellReference r row col) cls
  | apply op onValues operands => apply op onValues fun i => (operands i).atCell m row col

/-- Every reference resolves, and those to several cells have one shape. -/
structure Fits (m : Machine) (rows cols : Nat) (e : ValueExpr) : Prop where
  resolves : ∀ r ∈ e.references, ∃ range, m.referenceOperand r = .range range
  shape : ∀ r ∈ e.references, ∀ range, m.referenceOperand r = .range range →
    range.isSingle = false → range.rows = rows ∧ range.cols = cols

/-- There is a reference to several cells. -/
def Spans (m : Machine) (e : ValueExpr) : Prop :=
  ∃ r ∈ e.references, ∃ range, m.referenceOperand r = .range range ∧ range.isSingle = false

theorem tokens_toExpr (table : FunctionTable) (e : ValueExpr) :
    (e.toExpr table).tokens = e.tokens := by
  induction e with
  | literal l => rfl
  | reference r cls => rfl
  | apply op onValues operands ih =>
    simp only [toExpr, Expr.tokens, tokens, ih]

theorem operandValue_toExpr (m : Machine) (e : ValueExpr) :
    m.operandValue ((e.toExpr m.functions).operand m) = e.read m := by
  induction e with
  | literal l => rfl
  | reference r cls => rfl
  | apply op onValues operands ih =>
    have hoperand : ((apply op onValues operands).toExpr m.functions).operand m = .value
        (broadcast ((List.ofFn fun i => ((operands i).toExpr m.functions).operand m).map
          m.operandValue) op.compute) := by
      rw [toExpr, Expr.operand, Machine.applyOperator, onValues]
      rfl
    rw [hoperand, List.map_ofFn, read]
    exact congrArg (fun values => broadcast (List.ofFn values) op.compute) (funext ih)

/-- **A formula has the value that is read**, if there is room for it. -/
theorem evaluate_tokens (m : Machine) (e : ValueExpr)
    (hroom : e.tokens.peak 0 ≤ m.limits.stackDepth) :
    m.evaluate e.tokens = .ok (m.result (.value (e.read m))) := by
  have hpushes := (e.toExpr m.functions).pushes
  rw [tokens_toExpr] at hpushes
  rw [hpushes.evaluate hroom, ← operandValue_toExpr]
  rfl

/-- The formula for a cell needs as much room. -/
theorem peak_atCell (m : Machine) (row col : Nat) (e : ValueExpr) (depth : Nat) :
    (e.atCell m row col).tokens.peak depth = e.tokens.peak depth := by
  have hroom : ((e.atCell m row col).toExpr .empty).room = (e.toExpr .empty).room := by
    induction e with
    | literal l => rfl
    | reference r cls => rfl
    | apply op onValues operands ih => simp only [atCell, toExpr, Expr.room, ih]
  rw [← tokens_toExpr .empty, ← tokens_toExpr .empty, (Expr.needs _).peak_eq, hroom,
    (Expr.needs _).peak_eq]

theorem mem_references_apply {op : Operator} {onValues : op.combinesReferences = false}
    {operands : Fin op.arity → ValueExpr} {r : Reference} :
    r ∈ (apply op onValues operands).references ↔ ∃ i, r ∈ (operands i).references := by
  rw [references, List.mem_flatten]
  constructor
  · rintro ⟨rs, hrs, hr⟩
    obtain ⟨i, rfl⟩ := List.mem_ofFn.mp hrs
    exact ⟨i, hr⟩
  · rintro ⟨i, hr⟩
    exact ⟨_, List.mem_ofFn.mpr ⟨i, rfl⟩, hr⟩

end ValueExpr

/-- Areas are read cell by cell, and all cells hold plain values. -/
structure CellSource.Plain (source : CellSource) : Prop where
  area_eq : source.area = readArea source.cell
  isPlain : ∀ sheet row col, (source.cell sheet row col).IsPlain

section

variable {m : Machine} {rows cols : Nat}

/-- A reference to a single cell means that cell in the formula for any cell. -/
theorem Machine.read_cellReference_single (hsource : m.source.Plain) {r : Reference} {range : Range}
    (hrange : m.referenceOperand r = .range range) (hsingle : range.isSingle = true)
    (array : Bool) (row col : Nat) :
    (m.inMode array).operandValue ((m.inMode array).referenceOperand (m.cellReference r row col))
      = m.source.cell range.sheet range.firstRow range.firstCol := by
  rw [cellReference_eq hrange, if_pos hsingle, referenceOperand_inMode, hrange]
  exact (readValue_of_isSingle hsingle).trans (cellValue_of_isPlain (hsource.isPlain _ _ _))

/-- A reference to several cells means the cell at the position. -/
theorem Machine.read_cellReference (hsource : m.source.Plain) {r : Reference} {range : Range}
    (hrange : m.referenceOperand r = .range range) (hsingle : range.isSingle = false)
    {row col : Nat} (hrow : row < range.rows) (hcol : col < range.cols) (array : Bool) :
    (m.inMode array).operandValue ((m.inMode array).referenceOperand (m.cellReference r row col))
      = m.source.cell range.sheet (range.firstRow + row) (range.firstCol + col) := by
  obtain ⟨haddress, hsheet⟩ := addressable_of_resolves hrange
  rw [cellReference_eq hrange, if_neg (by rw [hsingle]; exact Bool.false_ne_true),
    referenceOperand_inMode, referenceOperand_cellReference haddress hsheet hrow hcol]
  have hone : (⟨range.sheet, range.firstRow + row, range.firstCol + col, range.firstRow + row,
      range.firstCol + col⟩ : Range).isSingle = true := by
    simp [Range.isSingle]
  rw [Range.single_eq]
  exact (readValue_of_isSingle hone).trans (cellValue_of_isPlain (hsource.isPlain _ _ _))

namespace ValueExpr

theorem Fits.operand {op : Operator} {onValues : op.combinesReferences = false}
    {operands : Fin op.arity → ValueExpr} (h : (apply op onValues operands).Fits m rows cols)
    (i : Fin op.arity) : (operands i).Fits m rows cols where
  resolves r hr := h.resolves r (mem_references_apply.mpr ⟨i, hr⟩)
  shape r hr := h.shape r (mem_references_apply.mpr ⟨i, hr⟩)

/-- A reference in the formula for a cell is read as a plain value. -/
theorem isPlain_read_reference (hsource : m.source.Plain) {r : Reference} {cls : OperandClass}
    (hfits : (reference r cls).Fits m rows cols) {row col : Nat} (hrow : row < rows)
    (hcol : col < cols) (array : Bool) :
    (((reference r cls).atCell m row col).read (m.inMode array)).IsPlain := by
  have hr : r ∈ (reference r cls).references := List.mem_singleton.mpr rfl
  obtain ⟨range, hrange⟩ := hfits.resolves r hr
  rw [atCell, read]
  cases hsingle : range.isSingle with
  | true =>
    rw [Machine.read_cellReference_single hsource hrange hsingle]
    exact hsource.isPlain _ _ _
  | false =>
    obtain ⟨rfl, rfl⟩ := hfits.shape r hr range hrange hsingle
    rw [Machine.read_cellReference hsource hrange hsingle hrow hcol]
    exact hsource.isPlain _ _ _

theorem not_isArea_toValue (l : Literal) : ¬ l.toValue.IsArea := by
  cases l with
  | number x => exact Value.not_isArea_of_isPlain (Value.isPlain_ofNumber _)
  | _ => exact id

/-- The formula for a cell reads no area. -/
theorem not_isArea_read_atCell (hsource : m.source.Plain) {e : ValueExpr}
    (hfits : e.Fits m rows cols) {row col : Nat} (hrow : row < rows) (hcol : col < cols)
    (array : Bool) : ¬ ((e.atCell m row col).read (m.inMode array)).IsArea := by
  induction e with
  | literal l => exact not_isArea_toValue l
  | reference r cls =>
    exact Value.not_isArea_of_isPlain (isPlain_read_reference hsource hfits hrow hcol array)
  | apply op onValues operands ih =>
    have hoperands : ∀ v ∈ List.ofFn fun i => ((operands i).atCell m row col).read (m.inMode array),
        ¬ v.IsArea := List.forall_mem_ofFn_iff.mpr fun i => ih i (hfits.operand i)
    rw [atCell, read, broadcast_of_not_isArea hoperands]
    exact op.not_isArea_compute hoperands

/-- So its operators are applied once. -/
theorem read_atCell_apply (hsource : m.source.Plain) {op : Operator}
    {onValues : op.combinesReferences = false} {operands : Fin op.arity → ValueExpr}
    (hfits : (apply op onValues operands).Fits m rows cols) {row col : Nat} (hrow : row < rows)
    (hcol : col < cols) (array : Bool) :
    ((apply op onValues operands).atCell m row col).read (m.inMode array)
      = op.compute (List.ofFn fun i => ((operands i).atCell m row col).read (m.inMode array)) := by
  rw [atCell, read]
  refine broadcast_of_not_isArea ?_ op.compute
  exact List.forall_mem_ofFn_iff.mpr fun i =>
    not_isArea_read_atCell hsource (hfits.operand i) hrow hcol array

/-- Where there are several cells, the formula for one of them has a plain value. -/
theorem isPlain_read_atCell (hsource : m.source.Plain) {e : ValueExpr}
    (hfits : e.Fits m rows cols) (hspans : e.Spans m) {row col : Nat} (hrow : row < rows)
    (hcol : col < cols) (array : Bool) :
    ((e.atCell m row col).read (m.inMode array)).IsPlain := by
  induction e with
  | literal l =>
    obtain ⟨r, hr, -⟩ := hspans
    cases hr
  | reference r cls => exact isPlain_read_reference hsource hfits hrow hcol array
  | apply op onValues operands ih =>
    obtain ⟨r, hr, hseveral⟩ := hspans
    obtain ⟨i, hi⟩ := mem_references_apply.mp hr
    rw [read_atCell_apply hsource hfits hrow hcol]
    -- The operand with several cells is plain, and if it is not the only one, all results are.
    refine op.isPlain_compute fun v hv => ?_
    have hplain := ih i (hfits.operand i) ⟨r, hi, hseveral⟩
    have hmem : ((operands i).atCell m row col).read (m.inMode array) ∈ [v] := by
      rw [← hv]
      exact List.mem_ofFn.mpr ⟨i, rfl⟩
    rwa [← List.mem_singleton.mp hmem]

/-- **An array formula keeps its cells in step** with the formulas for the cells, and reads an area
as soon as one of its references does. -/
theorem spreads_read (hsource : m.source.Plain) (hrows : 0 < rows) (hcols : 0 < cols)
    (hcount : rows * cols ≤ m.limits.areaCells) {e : ValueExpr} (hfits : e.Fits m rows cols)
    (array : Bool) :
    (e.read (m.inMode true)).Spreads rows cols
        (fun row col => (e.atCell m row col).read (m.inMode array)) ∧
      (e.Spans m → (e.read (m.inMode true)).IsArea) := by
  induction e with
  | literal l =>
    refine ⟨.of_not_isArea (not_isArea_toValue l) fun _ _ _ _ => rfl, fun hspans => ?_⟩
    obtain ⟨r, hr, -⟩ := hspans
    cases hr
  | reference r cls =>
    have hr : r ∈ (reference r cls).references := List.mem_singleton.mpr rfl
    obtain ⟨range, hrange⟩ := hfits.resolves r hr
    have hread : (reference r cls).read (m.inMode true) = (m.inMode true).readValue [range] := by
      rw [read, Machine.referenceOperand_inMode, hrange]
      rfl
    rw [hread]
    cases hsingle : range.isSingle with
    | true =>
      have hcell : (m.inMode true).readValue [range]
          = m.source.cell range.sheet range.firstRow range.firstCol :=
        (Machine.readValue_of_isSingle hsingle).trans
          (Machine.cellValue_of_isPlain (hsource.isPlain _ _ _))
      rw [hcell]
      have hplain := hsource.isPlain range.sheet range.firstRow range.firstCol
      refine ⟨.of_not_isArea (Value.not_isArea_of_isPlain hplain) fun row _ col _ => ?_, ?_⟩
      · exact Machine.read_cellReference_single hsource hrange hsingle array row col
      · rintro ⟨r', hr', range', hrange', hseveral⟩
        rw [List.mem_singleton.mp hr', hrange] at hrange'
        cases hrange'
        rw [hsingle] at hseveral
        cases hseveral
    | false =>
      obtain ⟨rfl, rfl⟩ := hfits.shape r hr range hrange hsingle
      rw [Machine.readValue_inMode hsingle hsource.area_eq hcount]
      refine ⟨(Value.Spreads.of_tabulate _ _ _).congr fun row hrow col hcol => ?_, fun _ => trivial⟩
      exact Machine.read_cellReference hsource hrange hsingle hrow hcol array
  | apply op onValues operands ih =>
    obtain ⟨hspreads, hisArea⟩ := spreads_broadcast hrows hcols
      (fun i => (ih i (hfits.operand i)).1) fun _ => op.not_isArea_compute
    refine ⟨hspreads.congr fun row hrow col hcol => ?_, ?_⟩
    · exact read_atCell_apply hsource hfits hrow hcol array
    · rintro ⟨r, hr, hseveral⟩
      obtain ⟨i, hi⟩ := mem_references_apply.mp hr
      exact hisArea ⟨i, (ih i (hfits.operand i)).2 ⟨r, hi, hseveral⟩⟩

/-- **An array formula is its cells' formulas.** Its value is an area of the shape of its
references, and each cell of that is the value of the formula for the cell, in either mode. -/
theorem evaluate_array (m : Machine) (e : ValueExpr) (rows cols : Nat) (hsource : m.source.Plain)
    (hfits : e.Fits m rows cols) (hspans : e.Spans m) (hcount : rows * cols ≤ m.limits.areaCells)
    (hroom : e.tokens.peak 0 ≤ m.limits.stackDepth) :
    ∃ block, (m.inMode true).evaluate e.tokens = .ok (.area block) ∧
      block.rows = rows ∧ block.cols = cols ∧
      ∀ row < rows, ∀ col < cols, ∃ v, block.get? row col = some v ∧
        ∀ array, (m.inMode array).evaluate (e.atCell m row col).tokens = .ok v := by
  have hpos : 0 < rows ∧ 0 < cols := by
    obtain ⟨r, hr, range, hrange, hseveral⟩ := hspans
    obtain ⟨rfl, rfl⟩ := hfits.shape r hr range hrange hseveral
    exact ⟨Nat.succ_pos _, Nat.succ_pos _⟩
  have hread (array : Bool) := spreads_read hsource hpos.1 hpos.2 hcount hfits array
  have hvalue := evaluate_tokens (m.inMode true) e hroom
  have hisArea : (e.read (m.inMode true)).IsArea := (hread true).2 hspans
  cases harea : e.read (m.inMode true) with
  | area block =>
    simp only [harea] at hread hvalue
    obtain ⟨hrows, hcols⟩ := (hread true).1.shape block rfl
    refine ⟨block, hvalue, hrows, hcols, fun row hrow col hcol => ?_⟩
    -- The cell is the same for both modes, so one value serves for both.
    have hcell (array : Bool) : block.get? row col
        = some ((e.atCell m row col).read (m.inMode array)) :=
      (hread array).1.get?_eq hrow hcol
    refine ⟨_, hcell true, fun array => ?_⟩
    have hsame : (e.atCell m row col).read (m.inMode true)
        = (e.atCell m row col).read (m.inMode array) :=
      Option.some.inj ((hcell true).symm.trans (hcell array))
    have hroomCell : (e.atCell m row col).tokens.peak 0 ≤ m.limits.stackDepth := by
      rwa [peak_atCell]
    have hplain := isPlain_read_atCell hsource hfits hspans hrow hcol array
    rw [hsame, evaluate_tokens (m.inMode array) _ hroomCell, Machine.result_of_isPlain _ hplain]
  | _ => rw [harea] at hisArea; exact absurd hisArea id

/-- A column with a number and a text in it, negated and added to one cell of another sheet. -/
theorem evaluate_array_column :
    let m : Machine := .over (.ofCells fun _ row _ => if row = 0 then .number 3.0 else .text "-")
    let column : Reference := .area ⟨.relative 0 4, .relative 1 4⟩
    let single : Reference := .sheetCell 7 (.absolute 0 0)
    let e : ValueExpr := .apply .add rfl fun i : Fin 2 =>
      if i = 0 then .apply .unaryMinus rfl fun _ : Fin 1 => .reference column .array
      else .reference single .value
    (m.source.Plain ∧ e.Fits m 2 1 ∧ e.Spans m) ∧
      ∃ block, (m.inMode true).evaluate [.reference column .array, .operator .unaryMinus,
          .reference single .value, .operator .add] = .ok (.area block) ∧
        block.rows = 2 ∧ block.cols = 1 ∧
        ∀ row < 2, ∀ col < 1, ∃ v, block.get? row col = some v ∧
          ∀ array, (m.inMode array).evaluate (e.atCell m row col).tokens = .ok v := by
  intro m column single e
  have hsource : m.source.Plain := by
    refine ⟨rfl, fun sheet row col => ?_⟩
    have hcell : m.source.cell sheet row col = if row = 0 then .number 3.0 else .text "-" := rfl
    rw [hcell]
    split
    · exact (rfl : (3.0 : Float).isFinite = true)
    · trivial
  have hreferences : e.references = [column, single] := rfl
  have hcolumn : m.referenceOperand column = .range ⟨.current, 0, 4, 1, 4⟩ := rfl
  have hsingle : m.referenceOperand single = .range ⟨.external 7, 0, 0, 0, 0⟩ := rfl
  have hfits : e.Fits m 2 1 := by
    constructor
    · rw [hreferences]
      exact List.forall_mem_cons.mpr ⟨⟨_, hcolumn⟩, List.forall_mem_singleton.mpr ⟨_, hsingle⟩⟩
    · rw [hreferences]
      refine List.forall_mem_cons.mpr ⟨fun range hrange _ => ?_,
        List.forall_mem_singleton.mpr fun range hrange hseveral => ?_⟩
      · rw [hcolumn] at hrange
        cases hrange
        exact ⟨rfl, rfl⟩
      · rw [hsingle] at hrange
        cases hrange
        cases hseveral
  have hspans : e.Spans m := by
    refine ⟨column, ?_, _, hcolumn, rfl⟩
    rw [hreferences]
    exact List.mem_cons_self ..
  exact ⟨⟨hsource, hfits, hspans⟩,
    evaluate_array m e 2 1 hsource hfits hspans (by decide) (by decide)⟩

end ValueExpr

end

end CellFormula
