import CellFormula.Proofs.AreaShapes
import CellFormula.Proofs.ReferencedCells
import CellFormula.Proofs.ResultValues
import CellFormula.Proofs.SharedFormula

/-!
# How large areas get

The limit on the cells of an area is looked at where a range is read, and nowhere else. So an area
that was read has at most that many cells. What functions make of areas is not looked at, and it can
be larger: a column of three cells and a row of three cells have a sum of nine.

## What the limit does for computed areas

Every area has its shape from areas that were read (`ShapedBy`), so it never has more rows or more
columns than the limit. It has more cells only if, somewhere in the part of the formula that
computes it, a token reads two areas one of which is taller while the other one is wider
(`Machine.Crosses`). Where that does not happen, one of the two covers the other, and what comes of
them is no larger than the larger one.

Areas inside the cells of areas count too: choosing by an area of selectors makes such cells.

## Main definitions

* `CellSource.Scalar` — a source whose cells and names are no areas
* `Machine.valuesRead` — the values that a token reads
* `Machine.Crosses` — a formula that brings a taller and a wider area together
* `Machine.Bounds` — the shapes that areas can have

## Main results

* `ShapedBy.bounds` — one token
* `Machine.bounds_of_run` — a run
* `Machine.areas_bounded` — areas on the stack and areas that are results
-/

namespace CellFormula

open Worksheet (FunctionInfo)

/-! ### Ranges on the grid -/

/-- The cells that a reference can name. -/
def gridCells : Set CellKey := {key | key.2.1 < UInt16.size ∧ key.2.2 < UInt16.size}

theorem Range.within_gridCells_iff {r : Range} (h : r.Normal) :
    r.Within gridCells ↔ r.lastRow < UInt16.size ∧ r.lastCol < UInt16.size := by
  constructor
  · intro hr
    exact hr.subset h.corners_mem.2
  · rintro ⟨hrow, hcol⟩
    refine ⟨h, fun ⟨sheet, row, col⟩ hkey => ?_⟩
    obtain ⟨-, hrows, hcols⟩ := mem_cells.mp hkey
    exact ⟨Nat.lt_of_le_of_lt hrows.2 hrow, Nat.lt_of_le_of_lt hcols.2 hcol⟩

theorem hullClosed_gridCells : HullClosed gridCells := by
  intro a b c ha hb hc
  have hc' := Range.normal_of_bounding? ha.normal hc
  obtain ⟨haRow, haCol⟩ := (Range.within_gridCells_iff ha.normal).mp ha
  obtain ⟨hbRow, hbCol⟩ := (Range.within_gridCells_iff hb.normal).mp hb
  refine ((Range.within_gridCells_iff hc').mpr ?_).subset
  rw [Range.bounding?, if_pos (Range.sheet_eq_of_bounding? hc)] at hc
  cases hc
  exact ⟨Nat.max_lt.mpr ⟨haRow, hbRow⟩, Nat.max_lt.mpr ⟨haCol, hbCol⟩⟩

namespace Machine

variable {m : Machine} {f : Formula}

theorem within_spanning (sheet : SheetRef) {row col row' col' : Nat} (hrow : row < UInt16.size)
    (hcol : col < UInt16.size) (hrow' : row' < UInt16.size) (hcol' : col' < UInt16.size) :
    (Operand.range (.spanning sheet row col row' col')).Within gridCells := by
  refine Operand.within_range.mpr ((Range.within_gridCells_iff (Range.normal_spanning ..)).mpr ?_)
  exact ⟨Nat.max_lt.mpr ⟨hrow, hrow'⟩, Nat.max_lt.mpr ⟨hcol, hcol'⟩⟩

/-- Whatever a reference means lies on the grid. -/
theorem within_referenceOperand (m : Machine) (r : Reference) :
    (m.referenceOperand r).Within gridCells := by
  have hword (n : UInt16) : n.toNat < UInt16.size := n.toNat_lt
  have hplaced {c : CellRef} {row col : Nat} (h : m.placed? c = some (row, col)) :
      row < UInt16.size ∧ col < UInt16.size := by
    obtain ⟨hrow, hcol⟩ := CellRef.place?_bounds h
    exact ⟨Nat.lt_succ_of_le hrow, Nat.lt_of_le_of_lt hcol (by decide)⟩
  have hsheet {link : UInt16} {range : SheetRef → Range}
      (h : (Operand.range (range (.external link))).Within gridCells) :
      (m.onSheet link range).Within gridCells := by
    rw [onSheet]
    split
    · exact h
    · exact Operand.within_value _
  cases r with
  | cell | area => exact within_spanning _ (hword _) (hword _) (hword _) (hword _)
  | sheetCell | sheetArea =>
    rw [referenceOperand]
    refine hsheet ?_
    exact within_spanning _ (hword _) (hword _) (hword _) (hword _)
  | sharedCell c =>
    rw [referenceOperand]
    split
    · next hcell =>
      obtain ⟨hrow, hcol⟩ := hplaced hcell
      exact within_spanning _ hrow hcol hrow hcol
    · exact Operand.within_value _
  | sharedArea a =>
    rw [referenceOperand]
    split
    · next hfirst hlast =>
      obtain ⟨hrow, hcol⟩ := hplaced hfirst
      obtain ⟨hrow', hcol'⟩ := hplaced hlast
      exact within_spanning _ hrow hcol hrow' hcol'
    · exact Operand.within_value _
  | cellGone | areaGone | sheetCellGone | sheetAreaGone => exact Operand.within_value _

theorem covers_gridCells (m : Machine) (f : Formula) : m.Covers gridCells f where
  reference r _ := m.within_referenceOperand r
  hull _ := hullClosed_gridCells

end Machine

/-- The cells of a range on the grid are few enough to be counted exactly. -/
theorem Range.Within.cellCount_eq {r : Range} (h : r.Within gridCells) :
    r.cellCount = r.rows * r.cols := by
  obtain ⟨hrow, hcol⟩ := (Range.within_gridCells_iff h.normal).mp h
  have hrows : r.rows ≤ UInt16.size := by rw [Range.rows]; omega
  have hcols : r.cols ≤ UInt16.size := by rw [Range.cols]; omega
  refine Nat.min_eq_left ?_
  calc r.rows * r.cols ≤ UInt16.size * UInt16.size := Nat.mul_le_mul hrows hcols
    _ ≤ Matrix.countLimit := by decide

/-! ### Sources without areas -/

/-- The source reads areas cell by cell, and neither a cell nor a name is an area. -/
structure CellSource.Scalar (source : CellSource) : Prop where
  reads : source.area = readArea source.cell
  cell : ∀ sheet row col, ¬ (source.cell sheet row col).IsArea
  name : ∀ n, ¬ (source.name n).IsArea

/-- If the value is an area, its numbers of rows and columns are related like this. -/
def Value.HasShape (S : Nat → Nat → Prop) : Value → Prop
  | area block => S block.rows block.cols
  | _ => True

section

variable {S : Nat → Nat → Prop} {v : Value}

theorem Value.hasShape_of_not_isArea (h : ¬ v.IsArea) : v.HasShape S := by
  cases v with
  | area block => exact absurd trivial h
  | _ => trivial

/-- Areas inside cells have such shapes. -/
def CellRule.shaped (S : Nat → Nat → Prop) : CellRule :=
  .throughout (Value.HasShape S) fun _ h =>
    Value.hasShape_of_not_isArea (Value.not_isArea_of_isPlain h)

theorem Value.throughout_hasShape_of_not_isArea (h : ¬ v.IsArea) : v.Throughout (HasShape S) :=
  throughout_of_not_isArea h (hasShape_of_not_isArea h)

theorem Value.throughout_hasShape_normalize (h : v.Throughout (HasShape S)) :
    v.normalize.Throughout (HasShape S) := by
  cases v with
  | number x =>
    exact throughout_hasShape_of_not_isArea (not_isArea_of_isPlain (isPlain_ofNumber x))
  | _ => exact h

theorem CellSource.Scalar.obeys {source : CellSource} (h : source.Scalar) :
    source.Obeys (.shaped S) where
  cell sheet row col := Value.throughout_hasShape_of_not_isArea (h.cell sheet row col)
  area r block hblock := by
    rw [h.reads] at hblock
    exact obeys_readArea
      (fun sheet row col => Value.throughout_hasShape_of_not_isArea (h.cell sheet row col)) hblock
  name n := Value.obeys_of_throughout (Value.throughout_hasShape_of_not_isArea (h.name n))

end

theorem CellSource.shape_of_readArea {cell : SheetRef → Nat → Nat → Value} {r : Range}
    {block : Area} (h : readArea cell r = .ok block) :
    block.rows = r.rows ∧ block.cols = r.cols := by
  rw [readArea] at h
  split at h
  · next cells hcells => cases h; exact Matrix.shape_of_generate hcells
  · cases h

/-! ### What a token reads -/

namespace Machine

/-- The values that a token reads of its operands. An operator on references reads none, and a call
with a number of operands that the function does not accept reads none either. -/
def valuesRead (m : Machine) : Action → List Operand → List Value
  | .combine op, operands => if op.combinesReferences then [] else operands.map m.operandValue
  | .call info _, operands => if info.accepts operands.length then m.arguments info operands else []
  | _, _ => []

/-- While the formula is evaluated, a token reads two areas one of which is taller while the other
one is wider. -/
def Crosses (m : Machine) (f : Formula) : Prop :=
  ∃ before t after operands, f = before ++ t :: after ∧
    t.action.operandCount = operands.length ∧ m.Finds before operands ∧
    ∃ tall wide : Area, .area tall ∈ m.valuesRead t.action operands ∧
      .area wide ∈ m.valuesRead t.action operands ∧ wide.rows < tall.rows ∧ tall.cols < wide.cols

/-- An area with so many rows and columns is within the limit on areas, as far as the formula keeps
areas within it. -/
structure Bounds (m : Machine) (f : Formula) (rows cols : Nat) : Prop where
  rows_le : rows ≤ m.limits.areaCells
  cols_le : cols ≤ m.limits.areaCells
  cells_le : ¬ m.Crosses f → rows * cols ≤ m.limits.areaCells

variable {m : Machine} {f : Formula}

theorem bounds_of_le {rows cols : Nat} (hrows : 0 < rows) (hcols : 0 < cols)
    (h : rows * cols ≤ m.limits.areaCells) : m.Bounds f rows cols :=
  ⟨(Nat.le_mul_of_pos_right rows hcols).trans h, (Nat.le_mul_of_pos_left cols hrows).trans h,
    fun _ => h⟩

end Machine

/-- **Shapes that come from areas within the limit** are within it, unless the areas cross. -/
theorem ShapedBy.bounds {m : Machine} {f : Formula} {areas : List Area} {rows cols : Nat}
    (h : ShapedBy areas rows cols) (hlimit : 1 ≤ m.limits.areaCells)
    (hareas : ∀ block ∈ areas, m.Bounds f block.rows block.cols)
    (hcross : ∀ tall ∈ areas, ∀ wide ∈ areas, wide.rows < tall.rows → tall.cols < wide.cols →
      m.Crosses f) : m.Bounds f rows cols := by
  cases h with
  | single => exact Machine.bounds_of_le Nat.one_pos Nat.one_pos hlimit
  | turned hblock =>
    obtain ⟨hrows, hcols, hcells⟩ := hareas _ hblock
    exact ⟨hcols, hrows, fun hnot => Nat.mul_comm .. ▸ hcells hnot⟩
  | @crossed tall wide htall hwide =>
    obtain ⟨hrows, -, htallCells⟩ := hareas tall htall
    obtain ⟨-, hcols, hwideCells⟩ := hareas wide hwide
    refine ⟨hrows, hcols, fun hnot => ?_⟩
    -- One of the two areas covers the other, or they cross.
    by_cases htaller : wide.rows < tall.rows
    · have hwider : wide.cols ≤ tall.cols :=
        Nat.not_lt.mp fun hwider => hnot (hcross tall htall wide hwide htaller hwider)
      calc tall.rows * wide.cols ≤ tall.rows * tall.cols := Nat.mul_le_mul_left _ hwider
        _ ≤ m.limits.areaCells := htallCells hnot
    · calc tall.rows * wide.cols ≤ wide.rows * wide.cols :=
          Nat.mul_le_mul_right _ (Nat.not_lt.mp htaller)
        _ ≤ m.limits.areaCells := hwideCells hnot

namespace Machine

variable {m : Machine} {f : Formula}

/-! ### Reading -/

/-- An area that is read is within the limit, and none of its cells is an area. -/
theorem throughout_readWhole (hsource : m.source.Scalar) {r : Range} (hr : r.Within gridCells) :
    (m.readWhole r).Throughout (Value.HasShape (m.Bounds f)) := by
  refine Value.throughout_of_obeys (obeys_readWhole hsource.obeys r) ?_
  rw [readWhole]
  split
  · trivial
  · next hfits =>
    split
    · next block hblock =>
      rw [hsource.reads] at hblock
      obtain ⟨hrows, hcols⟩ := CellSource.shape_of_readArea hblock
      rw [hr.cellCount_eq, ← hrows, ← hcols] at hfits
      have hrowsPos : 0 < block.rows := by rw [hrows, Range.rows]; omega
      have hcolsPos : 0 < block.cols := by rw [hcols, Range.cols]; omega
      exact bounds_of_le hrowsPos hcolsPos (Nat.not_lt.mp hfits)
    · trivial

theorem throughout_readValue (hsource : m.source.Scalar) {rs : List Range}
    (hrs : ∀ r ∈ rs, r.Within gridCells) :
    (m.readValue rs).Throughout (Value.HasShape (m.Bounds f)) := by
  rw [readValue.eq_def]
  split
  · next r =>
    split
    · exact throughout_readWhole hsource (hrs r (List.mem_singleton.mpr rfl))
    · rw [readIntersected]
      split
      · rw [cellValue, Value.opened_of_not_isArea (hsource.cell _ _ _)]
        exact Value.throughout_hasShape_of_not_isArea (hsource.cell _ _ _)
      · exact Value.throughout_hasShape_of_not_isArea id
  · exact Value.throughout_hasShape_of_not_isArea id

/-- Areas inside the value that the operand is are within the limit. Of ranges nothing is asked. -/
def OperandBounds (m : Machine) (f : Formula) (o : Operand) : Prop :=
  ∀ v, o = .value v → v.Throughout (Value.HasShape (m.Bounds f))

theorem throughout_operandValue (hsource : m.source.Scalar) {o : Operand}
    (ho : m.OperandBounds f o) (hgrid : o.Within gridCells) :
    (m.operandValue o).Throughout (Value.HasShape (m.Bounds f)) := by
  cases o with
  | value v => exact ho v rfl
  | ranges rs => exact throughout_readValue hsource hgrid

theorem throughout_arguments (hsource : m.source.Scalar) (info : FunctionInfo)
    {operands : List Operand} (hoperands : ∀ o ∈ operands, m.OperandBounds f o)
    (hgrid : ∀ o ∈ operands, o.Within gridCells) :
    ∀ v ∈ m.arguments info operands, v.Throughout (Value.HasShape (m.Bounds f)) := by
  intro v hv
  obtain ⟨values, hvalues, hv⟩ := List.mem_flatten.mp hv
  obtain ⟨position, hposition, rfl⟩ := List.mem_mapIdx.mp hvalues
  have ho := hoperands _ (List.getElem_mem hposition)
  have hwithin := hgrid _ (List.getElem_mem hposition)
  cases hoperand : operands[position] with
  | value u =>
    rw [hoperand] at hv ho
    rw [List.mem_singleton.mp hv]
    exact ho u rfl
  | ranges rs =>
    rw [hoperand] at hwithin
    rw [hoperand, argumentValues] at hv
    split at hv
    · obtain ⟨r, hr, rfl⟩ := List.mem_map.mp hv
      exact throughout_readWhole hsource (hwithin r hr)
    · rw [List.mem_singleton.mp hv]
      exact throughout_readValue hsource hwithin

/-- **What a token reads is within the limit**, if its operands are. -/
theorem throughout_valuesRead (hsource : m.source.Scalar) (a : Action) {operands : List Operand}
    (hoperands : ∀ o ∈ operands, m.OperandBounds f o)
    (hgrid : ∀ o ∈ operands, o.Within gridCells) :
    ∀ v ∈ m.valuesRead a operands, v.Throughout (Value.HasShape (m.Bounds f)) := by
  intro v hv
  rw [valuesRead.eq_def] at hv
  split at hv
  · split at hv
    · cases hv
    · obtain ⟨o, ho, rfl⟩ := List.mem_map.mp hv
      exact throughout_operandValue hsource (hoperands o ho) (hgrid o ho)
  · split at hv
    · exact throughout_arguments hsource _ hoperands hgrid v hv
    · cases hv
  · cases hv

end Machine

/-! ### Making -/

theorem Value.ShapedFrom.normalize {args : List Value} {v : Value} (h : v.ShapedFrom args) :
    v.normalize.ShapedFrom args := by
  cases v with
  | number x => exact shapedFrom_of_isPlain (isPlain_ofNumber x)
  | _ => exact h

/-- Operators on references make no areas. -/
theorem Operand.not_isArea_of_combineReferences {op : Operator} {operands : List Operand}
    {v : Value} (h : combineReferences op operands = .value v) : ¬ v.IsArea := by
  rw [combineReferences.eq_def] at h
  split at h
  · rw [combineRanges.eq_def] at h
    split at h
    · cases h
    · split at h
      · cases h
      · cases h; exact id
    · split at h
      · cases h; exact id
      · cases h
  · cases h; exact id
  · cases h; exact id
  · cases h; exact id

namespace Machine

variable {m : Machine} {f : Formula}

/-- A leaf is no area unless it is an array literal. -/
theorem not_isArea_of_leafOperand (hsource : m.source.Scalar) {leaf : Leaf}
    (harray : ∀ cells, leaf ≠ .array (some cells)) {v : Value}
    (h : m.leafOperand leaf = .value v) : ¬ v.IsArea := by
  cases leaf with
  | missing => cases h; exact id
  | literal l => cases h; exact Value.not_isArea_of_isPlain l.isPlain_toValue
  | name n => cases h; exact hsource.name n
  | array cells =>
    cases cells with
    | none => cases h; exact id
    | some cells => exact absurd rfl (harray cells)
  | reference r =>
    rw [leafOperand] at h
    obtain ⟨kind, hr⟩ | ⟨_, _, _, _, _, hr⟩ := m.referenceOperand_cases r
    · rw [hr] at h; cases h; exact id
    · rw [hr] at h; cases h

/-- **An area that a token makes** has its shape from areas that the token reads. -/
theorem Makes.shapedFrom (hfunctions : m.functions = .builtin) (hsource : m.source.Scalar)
    {a : Action} (harray : ∀ cells, a ≠ .put (.array (some cells))) {operands : List Operand}
    {v : Value} (h : m.Makes a operands (.value v)) : v.ShapedFrom (m.valuesRead a operands) := by
  generalize ho : Operand.value v = o at h
  cases h with
  | put leaf =>
    have hleaf : ∀ cells, leaf ≠ .array (some cells) := fun cells hcells =>
      harray cells (congrArg Action.put hcells)
    exact Value.shapedFrom_of_not_isArea (not_isArea_of_leafOperand hsource hleaf ho.symm)
  | combine op _ count =>
    rw [applyOperator] at ho
    rw [valuesRead]
    split at ho
    · exact Value.shapedFrom_of_not_isArea (Operand.not_isArea_of_combineReferences ho.symm)
    · next hvalues =>
      cases ho
      rw [if_neg hvalues]
      exact shapedFrom_broadcast_compute op _
  | call info _ _ value =>
    obtain ⟨kind, rfl⟩ | ⟨haccepts, g, hbound, rfl⟩ := applyFunction_cases value
    · cases ho; trivial
    · rw [hfunctions] at hbound
      obtain ⟨b, hb, -, rfl⟩ := Worksheet.exists_builtin_of_find? hbound
      cases ho
      rw [valuesRead, if_pos haccepts, callValue]
      split
      · trivial
      · exact (Worksheet.shapedFrom_builtin hb m.place _).normalize

/-- **A token makes what is within the limit** of operands that are. -/
theorem Makes.operandBounds (hfunctions : m.functions = .builtin) (hsource : m.source.Scalar)
    (hlimit : 1 ≤ m.limits.areaCells) {before after : Formula} {t : Token}
    {operands : List Operand} {operand : Operand} (hf : f = before ++ t :: after)
    (harray : ∀ cells, t.action ≠ .put (.array (some cells))) (hfinds : m.Finds before operands)
    (h : m.Makes t.action operands operand) (hoperands : ∀ o ∈ operands, m.OperandBounds f o) :
    m.OperandBounds f operand := by
  have hgrid : ∀ o ∈ operands, o.Within gridCells := by
    obtain ⟨below, hrun⟩ := hfinds
    have hall := within_of_run (m.covers_gridCells before) (fun _ ht => ht) hrun
    exact fun o ho => hall o (List.mem_append_left _ (List.mem_reverse.mpr ho))
  have hread := throughout_valuesRead hsource t.action hoperands hgrid
  rintro v rfl
  have hobeys : (Operand.value v).Obeys (.shaped (m.Bounds f)) := by
    refine h.obeys hfunctions hsource.obeys (fun info haction haccepts => ?_) fun o ho => ?_
    · -- A choice that is put into a cell is an argument, so it is within the limit.
      rw [haction, valuesRead, if_pos haccepts] at hread
      exact ⟨fun _ _ => Value.throughout_hasShape_of_not_isArea id,
        fun _ selector choices hsplit _ v hv _ =>
          hread v (hsplit ▸ List.mem_cons_of_mem selector hv)⟩
    · cases o with
      | value u => exact Value.obeys_of_throughout (hoperands _ ho u rfl)
      | ranges rs => trivial
  refine Value.throughout_of_obeys hobeys ?_
  cases v with
  | area block =>
    have hshape : ShapedBy _ _ _ := h.shapedFrom hfunctions hsource harray
    refine hshape.bounds hlimit (fun b hb => ?_) fun tall htall wide hwide hrows hcols => ?_
    · exact hread _ (mem_areasOf.mp hb) _ .self
    · exact ⟨before, t, after, operands, hf, h.operandCount_eq, hfinds, tall, wide,
        mem_areasOf.mp htall, mem_areasOf.mp hwide, hrows, hcols⟩
  | _ => trivial

/-! ### Runs -/

/-- **All areas on the stack are within the limit**, after any tokens. -/
theorem bounds_of_run (hfunctions : m.functions = .builtin) (hsource : m.source.Scalar)
    (hlimit : 1 ≤ m.limits.areaCells)
    (harrays : ∀ t ∈ f, ∀ cells cls, t ≠ .array (some cells) cls) {stack : Stack Operand}
    (h : m.run 0 .empty f = .ok stack) : ∀ o ∈ stack.entries, m.OperandBounds f o := by
  refine forall_entries_of_run h fun before t after operands operand hf hfinds hmade hoperands => ?_
  refine hmade.operandBounds hfunctions hsource hlimit hf (fun cells haction => ?_) hfinds hoperands
  obtain ⟨cls, ht⟩ := Token.exists_eq_array_of_action haction
  exact harrays t (by simp [hf]) cells cls ht

/-! ### Formulas that do not cross -/

/-- Tokens without operands read nothing. -/
theorem not_crosses_of_forall (h : ∀ t ∈ f, t.action.operandCount = 0) : ¬ m.Crosses f := by
  rintro ⟨before, t, after, operands, rfl, hcount, -, tall, -, htall, -⟩
  rw [h t (by simp), eq_comm, List.length_eq_zero_iff] at hcount
  subst hcount
  rw [valuesRead.eq_def] at htall
  split at htall
  · split at htall <;> cases htall
  · split at htall <;> cases htall
  · cases htall

/-- A formula crosses without its last token, or its last token reads the two areas. -/
theorem crosses_concat {t : Token} (h : m.Crosses (f ++ [t])) :
    m.Crosses f ∨ ∃ operands, t.action.operandCount = operands.length ∧ m.Finds f operands ∧
      ∃ tall wide : Area, .area tall ∈ m.valuesRead t.action operands ∧
        .area wide ∈ m.valuesRead t.action operands ∧ wide.rows < tall.rows ∧
        tall.cols < wide.cols := by
  obtain ⟨before, t', after, operands, hf, hcount, hfinds, hareas⟩ := h
  obtain rfl | ⟨after, last, rfl⟩ := after.eq_nil_or_concat
  · obtain ⟨rfl, hlast⟩ := List.append_inj' hf rfl
    cases hlast
    exact .inr ⟨operands, hcount, hfinds, hareas⟩
  · rw [List.concat_eq_append, ← List.cons_append, ← List.append_assoc] at hf
    obtain ⟨rfl, -⟩ := List.append_inj' hf rfl
    exact .inl ⟨before, t', after, operands, rfl, hcount, hfinds, hareas⟩

/-! ### The bound -/

/-- **Areas are bounded.** Let the built-in functions be bound, let the limit allow for a cell, and
let areas come from ranges alone: no cell and no name is an area, and there is no array literal. An
area on the stack, after any tokens, and an area that is the value of the formula have no more rows
and no more columns than the limit on cells. They have no more cells either, unless a token of the
part of the formula that pushes them reads two areas one of which is taller while the other one is
wider. -/
theorem areas_bounded (m : Machine) (f : Formula) (hfunctions : m.functions = .builtin)
    (hsource : m.source.Scalar) (hlimit : 1 ≤ m.limits.areaCells)
    (harrays : ∀ t ∈ f, ∀ cells cls, t ≠ .array (some cells) cls) :
    (∀ before after stack, f = before ++ after → m.run 0 .empty before = .ok stack →
        ∀ v, .value v ∈ stack.entries →
          (∃ part, part <:+: before ∧ m.Pushes part (.value v)) ∧
            ∀ part, part <:+: before → m.Pushes part (.value v) →
              ∀ block, (Value.area block).Occurs v → m.Bounds part block.rows block.cols) ∧
      ∀ v, m.evaluate f = .ok v →
        ∀ block, (Value.area block).Occurs v → m.Bounds f block.rows block.cols := by
  constructor
  · intro before after stack hf hrun v hv
    refine ⟨exists_part_of_run hrun hv, fun part hcut hpushes block hblock => ?_⟩
    have hpart : ∀ t ∈ part, ∀ cells cls, t ≠ .array (some cells) cls := fun t ht =>
      harrays t (hf ▸ List.mem_append_left _ (hcut.mem ht))
    have halone := hpushes.run_of_part hcut hrun
    have hbounds := bounds_of_run hfunctions hsource hlimit hpart halone
    exact hbounds _ (List.mem_cons_self ..) v rfl _ hblock
  · intro v hv block hblock
    obtain ⟨stack, operand, hrun, hoperand, rfl⟩ := exists_entry_of_evaluate hv
    have hbounds := bounds_of_run hfunctions hsource hlimit harrays hrun operand hoperand
    have hgrid := within_of_run (m.covers_gridCells f) (fun _ ht => ht) hrun operand hoperand
    have hvalue := throughout_operandValue hsource hbounds hgrid
    rw [result] at hblock
    split at hblock
    · cases hblock
    · exact Value.throughout_hasShape_normalize hvalue _ hblock

/-- Two columns of as many cells as the limit allows for. They do not cross, and what is made of
them has no more cells. -/
theorem areas_bounded_columns :
    let m : Machine := ⟨.ofCells fun _ _ _ => .blank, ⟨0, 0, true⟩, ⟨1024, 3, 8⟩, .builtin⟩
    let left : Reference := .area ⟨.relative 0 0, .relative 2 0⟩
    let right : Reference := .area ⟨.relative 0 1, .relative 2 1⟩
    let parts : Formula := [.reference left .reference, .reference right .reference]
    let f : Formula := parts ++ [.operator .concat]
    let block : Area := ⟨0, 0, ⟨3, 1, #[.text "", .text "", .text ""]⟩⟩
    m.evaluate f = .ok (.area block) ∧ ¬ m.Crosses f ∧ m.Bounds f block.rows block.cols := by
  intro m left right parts f block
  have hvalue : m.evaluate f = .ok (.area block) := by
    dsimp only [m, left, right, parts, f, block]
    rfl
  have hsource : m.source.Scalar := ⟨rfl, fun _ _ _ => id, fun _ => id⟩
  have harrays : ∀ t ∈ f, ∀ cells cls, t ≠ .array (some cells) cls := by
    intro t ht cells cls
    simp only [f, parts, List.mem_append, List.mem_cons, List.not_mem_nil, or_false] at ht
    rcases ht with (rfl | rfl) | rfl <;> nofun
  have hcross : ¬ m.Crosses f := by
    intro hcross
    obtain hcross | ⟨operands, hcount, hfinds, tall, wide, htall, hwide, hrows, -⟩ :=
      crosses_concat hcross
    · refine not_crosses_of_forall (fun t ht => ?_) hcross
      simp only [parts, List.mem_cons, List.not_mem_nil, or_false] at ht
      rcases ht with rfl | rfl <;> rfl
    · let ranges : List Operand := [.range ⟨.current, 0, 0, 2, 0⟩, .range ⟨.current, 0, 1, 2, 1⟩]
      have hfound : m.Finds parts ranges := ⟨.empty, rfl⟩
      rw [← hfound.unique hfinds hcount] at htall hwide
      have hread : m.valuesRead (.combine .concat) ranges
          = [.area ⟨0, 0, ⟨3, 1, Array.replicate 3 .blank⟩⟩,
            .area ⟨0, 1, ⟨3, 1, Array.replicate 3 .blank⟩⟩] := by
        dsimp only [m, ranges]
        rfl
      have hshape : ∀ block, .area block ∈ m.valuesRead (.combine .concat) ranges →
          block.rows = 3 := by
        intro block hblock
        rw [hread, List.mem_pair] at hblock
        rcases hblock with h | h <;> cases h <;> rfl
      rw [hshape tall htall, hshape wide hwide] at hrows
      exact Nat.lt_irrefl 3 hrows
  exact ⟨hvalue, hcross, (areas_bounded m f rfl hsource (by decide) harrays).2 _ hvalue _ .self⟩

/-- **A column and a row with as many cells as the limit allows for** make an area with more. -/
theorem larger_than_limit_crossed :
    let m : Machine := ⟨.ofCells fun _ _ _ => .blank, ⟨0, 0, true⟩, ⟨1024, 3, 8⟩, .builtin⟩
    let column : Reference := .area ⟨.relative 0 0, .relative 2 0⟩
    let row : Reference := .area ⟨.relative 0 0, .relative 0 2⟩
    let f : Formula :=
      [.reference column .reference, .reference row .reference, .operator .concat]
    (m.functions = .builtin ∧ m.source.Scalar ∧ 1 ≤ m.limits.areaCells ∧
        ∀ t ∈ f, ∀ cells cls, t ≠ .array cells cls) ∧
      ∃ block, m.evaluate f = .ok (.area block) ∧
        m.limits.areaCells < block.rows * block.cols := by
  intro m column row f
  have hsource : m.source.Scalar := ⟨rfl, fun _ _ _ => id, fun _ => id⟩
  have harrays : ∀ t ∈ f, ∀ cells cls, t ≠ .array cells cls := by
    intro t ht cells cls
    simp only [f, List.mem_cons, List.not_mem_nil, or_false] at ht
    rcases ht with rfl | rfl | rfl <;> nofun
  have hvalue : m.evaluate f = .ok (.area ⟨0, 0, ⟨3, 3, Array.replicate 9 (.text "")⟩⟩) := by
    dsimp only [m, column, row, f]
    rfl
  exact ⟨⟨rfl, hsource, by decide, harrays⟩, _, hvalue, by decide⟩

end Machine

end CellFormula
