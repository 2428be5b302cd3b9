import CellFormula.Evaluation.Operation
import CellFormula.Evaluation.Broadcast
import CellFormula.Formula.Action
import CellFormula.Sheet.Source
import CellFormula.Worksheet.Table

/-!
# Operands of an evaluation

An operand is a value, or it is ranges that were not read yet. References stay unread until an
operator or a function says how it wants them: cut down to one cell, or whole.

## Why ranges are kept

`SUM(A1:A9)` and `-A1:A9` begin with the same token. The first wants all nine cells, the second only
the one in the row of the formula, so nothing can be read before it is known who asks. Union and
intersection do not read cells at all.

## Main definitions

* `Limits`, `Machine` — what an evaluation may use, and what it works with
* `Operand` — an entry of the operand stack
* `Machine.leafOperand` — what a leaf stands for
* `Operand.combineReferences` — union, intersection and range
* `Machine.readValue`, `Machine.readWhole` — the two ways to read ranges
-/

namespace CellFormula

/-- Bounds on what a single evaluation may use. -/
structure Limits where
  /-- The most entries of the operand stack. -/
  stackDepth : Nat
  /-- The most cells of an area that is read whole. -/
  areaCells : Nat
  /-- How often an area that a source gives for a single cell is opened at its first cell. -/
  valueNesting : Nat
deriving DecidableEq, Repr

/-- The bounds for formulas whose workbook asks for no others. -/
def Limits.standard : Limits := ⟨1024, 5000000, 8⟩

/-- What an evaluation works with. -/
structure Machine where
  source : CellSource
  place : Place
  limits : Limits
  functions : Worksheet.FunctionTable

/-- A machine for the first cell of a sheet, with the built-in functions. -/
def Machine.over (source : CellSource) : Machine :=
  ⟨source, .origin, .standard, .builtin⟩

/-- An entry of the operand stack. -/
inductive Operand
  | value (v : Value)
  /-- Ranges that were not read. There is more than one only behind a union or an intersection. -/
  | ranges (rs : List Range)
deriving Inhabited

namespace Operand

/-- An error as an operand. -/
def error (kind : ErrorKind) : Operand := value (.error kind)

/-- One range as an operand. -/
def range (r : Range) : Operand := ranges [r]

end Operand

/-! ### Leaves -/

/-- The value of a literal. -/
def Literal.toValue : Literal → Value
  | int n => .number n.toFloat
  | number x => .ofNumber x.toFloat
  | text s => .text s
  | boolean b => .boolean b
  | error kind => .error kind

/-- The range between two corners on the formula's own sheet. -/
def rangeOf (sheet : SheetRef) (a : AreaRef) : Range :=
  .spanning sheet a.first.row.toNat a.first.col.toNat a.last.row.toNat a.last.col.toNat

namespace Machine

/-- The range if the sheet behind the link exists. -/
def onSheet (m : Machine) (link : UInt16) (range : SheetRef → Range) : Operand :=
  if m.source.hasSheet (.external link) then .range (range (.external link)) else .error .ref

/-- The cell that a shared reference means for the formula's cell. -/
def placed? (m : Machine) (c : CellRef) : Option (Nat × Nat) := c.place? m.place.row m.place.col

/-- A reference as an operand. One that means nothing is a reference error. -/
def referenceOperand (m : Machine) : Reference → Operand
  | .cell c => .range (.single .current c.row.toNat c.col.toNat)
  | .area a => .range (rangeOf .current a)
  | .sharedCell c =>
    match m.placed? c with
    | some (row, col) => .range (.single .current row col)
    | none => .error .ref
  | .sharedArea a =>
    match m.placed? a.first, m.placed? a.last with
    | some (row, col), some (row', col') => .range (.spanning .current row col row' col')
    | _, _ => .error .ref
  | .sheetCell link c => m.onSheet link fun sheet => .single sheet c.row.toNat c.col.toNat
  | .sheetArea link a => m.onSheet link fun sheet => rangeOf sheet a
  | .cellGone | .areaGone | .sheetCellGone _ | .sheetAreaGone _ => .error .ref

/-- An array literal as a value. It has no place of its own and is put at the formula's cell. -/
def arrayValue (m : Machine) (cells : Matrix Constant) : Value :=
  .area ⟨m.place.row, m.place.col, cells.map Constant.toValue⟩

/-- A leaf as an operand. -/
def leafOperand (m : Machine) : Leaf → Operand
  | .missing => .value .missing
  | .literal l => .value l.toValue
  | .reference r => m.referenceOperand r
  | .name n => .value (m.source.name n)
  | .array (some cells) => .value (m.arrayValue cells)
  | .array none => .error .value

end Machine

/-! ### Reference operators -/

/-- The smallest range that covers all of them, if they are on one sheet. -/
def Range.hull? : List Range → Option Range
  | [] => none
  | r :: rs => rs.foldlM bounding? r

/-- The parts that a range of each side have in common, the left side varying slowest. -/
def Range.commonParts (left right : List Range) : List Range :=
  left.flatMap fun a => right.filterMap fun b => a.intersect? b

namespace Operand

/-- A reference operator on ranges. -/
def combineRanges (op : Operator) (left right : List Range) : Operand :=
  match op with
  | .union => ranges (left ++ right)
  | .range =>
    match Range.hull? (left ++ right) with
    | some hull => range hull
    | none => error .ref
  | _ =>
    match Range.commonParts left right with
    | [] => error .null
    | parts => ranges parts

/-- A reference operator on operands. Of two errors the left one is the answer; any other value is
no reference. -/
def combineReferences (op : Operator) : List Operand → Operand
  | [ranges left, ranges right] => combineRanges op left right
  | [value (.error kind), _] => error kind
  | [_, value (.error kind)] => error kind
  | _ => error .value

end Operand

/-! ### Reading ranges -/

/-- The value with areas opened at their first cell, at most `times` times. An area that is left
then is a value error. -/
def Value.opened (times : Nat) (v : Value) : Value :=
  match times, v with
  | 0, area _ => error .value
  | times + 1, area block => ((block.get? 0 0).getD (error .value)).opened times
  | _, v => v

namespace Machine

/-- The value of a single cell. -/
def cellValue (m : Machine) (sheet : SheetRef) (row col : Nat) : Value :=
  (m.source.cell sheet row col).opened m.limits.valueNesting

/-- All cells of a range as an area, or the error that reading them gives. -/
def readWhole (m : Machine) (r : Range) : Value :=
  if m.limits.areaCells < r.cellCount then .error .num
  else
    match m.source.area r with
    | .ok block => .area block
    | .error kind => .error kind

/-- The cell of a range that a formula outside an array formula means: the one cell, the cell of a
column in the formula's row, the cell of a row in its column, or the formula's own position in a
larger range. -/
def intersection? (m : Machine) (r : Range) : Option (Nat × Nat) :=
  if r.isSingle then some (r.firstRow, r.firstCol)
  else if r.firstCol = r.lastCol then
    if r.containsRow m.place.row then some (m.place.row, r.firstCol) else none
  else if r.firstRow = r.lastRow then
    if r.containsCol m.place.col then some (r.firstRow, m.place.col) else none
  else if r.contains m.place.row m.place.col then some (m.place.row, m.place.col)
  else none

/-- A range cut down to one cell. -/
def readIntersected (m : Machine) (r : Range) : Value :=
  match m.intersection? r with
  | some (row, col) => m.cellValue r.sheet row col
  | none => .error .value

/-- Ranges where a value is wanted. Outside an array formula a range is cut down to one cell; more
than one range is no value. -/
def readValue (m : Machine) : List Range → Value
  | [r] =>
    if m.place.inArrayFormula ∧ ¬ r.isSingle then m.readWhole r else m.readIntersected r
  | _ => .error .value

/-- An operand as an operator on values reads it. -/
def operandValue (m : Machine) : Operand → Value
  | .value v => v
  | .ranges rs => m.readValue rs

end Machine

end CellFormula
