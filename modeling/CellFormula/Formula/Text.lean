import CellFormula.Formula.Stack
import CellFormula.Text.ColumnLabel
import CellFormula.Text.Quoted
import CellFormula.Value.Coercion

/-!
# Formulas as text

The text of a formula, without the equals sign in front. A stored formula has a token for every pair
of parentheses that was typed, so its text follows the tokens. A formula that was put together by
hand may lack them: then an operand that binds more loosely than its operator is enclosed, and so is
the right one of two that bind equally.

## Main definitions

* `Labels` — what the sheets and names of a workbook are called
* `addressText`, `Labels.referenceText` — references as text
* `Phrase` — the text of a part of a formula and how tightly it holds together
* `Formula.text` — the text of a formula
-/

namespace CellFormula

open Worksheet (FunctionInfo)

/-! ### Labels -/

/-- What a formula refers to by number only: the labels of sheets and names, and the cell that it is
written for. -/
structure Labels where
  /-- The sheet behind a sheet link. -/
  sheet : UInt16 → String
  name : NameRef → String
  /-- The row of the cell that offsets count from. -/
  row : Nat
  /-- The column of the cell that offsets count from. -/
  col : Nat

namespace Labels

/-- The label of the sheet behind a link when none is known. -/
def numberedSheet (link : UInt16) : String := "Sheet" ++ toString (link.toNat + 1)

/-- The label of a name when none is known. A name of another book stands behind its sheet. -/
def numberedName (sheet : UInt16 → String) : NameRef → String
  | .defined index => "Name" ++ toString index.toNat
  | .external link index =>
    Text.sheetLabel (sheet link) ++ "!Name" ++ toString index.toNat

/-- The labels of a workbook of which nothing is known, for its first cell. -/
def numbered : Labels := ⟨numberedSheet, numberedName numberedSheet, 0, 0⟩

end Labels

/-! ### References -/

/-- The address of a cell: a mark before each axis that stays, the column and the row. -/
def addressText (row col : Nat) (rowFixed colFixed : Bool) : String :=
  (if colFixed then "$" else "") ++ Text.columnLabel col
    ++ (if rowFixed then "$" else "") ++ toString (row + 1)

/-- The address in a reference. -/
def CellRef.text (c : CellRef) : String :=
  addressText c.row.toNat c.col.toNat (!c.rowRelative) (!c.colRelative)

/-- Two corners with a colon between them. -/
def AreaRef.text (a : AreaRef) : String := a.first.text ++ ":" ++ a.last.text

namespace Labels

/-- A shared reference as the address that it means, if that is on the grid. -/
def sharedText? (labels : Labels) (c : CellRef) : Option String :=
  (c.place? labels.row labels.col).map fun (row, col) =>
    addressText row col (!c.rowRelative) (!c.colRelative)

/-- A shared area as the addresses that it means, if both are on the grid. -/
def sharedAreaText? (labels : Labels) (a : AreaRef) : Option String := do
  let first ← labels.sharedText? a.first
  let last ← labels.sharedText? a.last
  return first ++ ":" ++ last

/-- The text behind the label of a sheet. -/
def onSheet (labels : Labels) (link : UInt16) (text : String) : String :=
  Text.sheetLabel (labels.sheet link) ++ "!" ++ text

/-- What stands for a reference that means nothing. -/
def goneText : String := ErrorKind.code .ref

/-- A reference as text. -/
def referenceText (labels : Labels) : Reference → String
  | .cell c => c.text
  | .area a => a.text
  | .sharedCell c => (labels.sharedText? c).getD goneText
  | .sharedArea a => (labels.sharedAreaText? a).getD goneText
  | .cellGone | .areaGone => goneText
  | .sheetCell link c => labels.onSheet link c.text
  | .sheetArea link a => labels.onSheet link a.text
  | .sheetCellGone link | .sheetAreaGone link => labels.onSheet link goneText

end Labels

/-! ### Literals -/

/-- A literal as text. -/
def Literal.formulaText : Literal → String
  | int n => toString n.toNat
  | number x => Number.generalText x.toFloat
  | text s => Text.textLiteral s
  | boolean b => Value.boolText b
  | error kind => kind.code

/-- A cell of an array literal as text. An empty one leaves nothing. -/
def Value.literalText : Value → String
  | number x => Number.generalText x
  | text s => Text.textLiteral s
  | boolean b => Value.boolText b
  | error kind => kind.code
  | _ => ""

/-- An array literal as text: cells with commas and rows with semicolons between them. -/
def arrayText (m : Matrix Constant) : String :=
  let rowText (row : List Constant) : String :=
    ",".intercalate (row.map fun c => c.toValue.literalText)
  "\x7b" ++ ";".intercalate (m.rowList.map rowText) ++ "\x7d"

/-- A leaf as text. An argument that was left out leaves nothing. -/
def Labels.leafText (labels : Labels) : Leaf → String
  | .missing => ""
  | .literal l => l.formulaText
  | .reference r => labels.referenceText r
  | .name n => labels.name n
  | .array (some m) => arrayText m
  | .array none => "\x7b\x7d"

/-! ### Phrases -/

/-- The text of a part of a formula. -/
structure Phrase where
  text : String
  /-- How tightly the outermost operator binds. -/
  precedence : Nat
deriving DecidableEq, Repr, Inhabited

namespace Phrase

/-- Tighter than every operator. -/
def atomPrecedence : Nat := 255

/-- A phrase that never needs parentheses. -/
def atom (text : String) : Phrase := ⟨text, atomPrecedence⟩

/-- The text in parentheses. -/
def enclosedText (p : Phrase) : String := "(" ++ p.text ++ ")"

/-- The text, in parentheses if need be. -/
def textEnclosedIf (p : Phrase) (needed : Bool) : String :=
  if needed then p.enclosedText else p.text

/-- Parentheses around the one phrase that they take. -/
def ofEnclosed : List Phrase → Phrase
  | [p] => atom p.enclosedText
  | _ => atom ""

/-- An operator behind its operand. -/
def behind (op : Operator) (p : Phrase) : Phrase :=
  ⟨p.textEnclosedIf (p.precedence < op.precedence) ++ op.symbol, op.precedence⟩

/-- An operator before its operand. -/
def before (op : Operator) (p : Phrase) : Phrase :=
  ⟨op.symbol ++ p.textEnclosedIf (p.precedence < op.precedence), op.precedence⟩

/-- An operator between its operands. The right one is enclosed also when it binds equally, since
the text is read from the left. -/
def between (op : Operator) (l r : Phrase) : Phrase :=
  ⟨l.textEnclosedIf (l.precedence < op.precedence) ++ op.symbol
    ++ r.textEnclosedIf (r.precedence ≤ op.precedence), op.precedence⟩

/-- An operator with its operands. -/
def ofOperator (op : Operator) : List Phrase → Phrase
  | [p] => if op = .percent then behind op p else before op p
  | [l, r] => between op l r
  | _ => atom ""

/-- The text as an argument. A union is enclosed, since its comma would part two arguments. -/
def argumentText (p : Phrase) : String :=
  p.textEnclosedIf (p.precedence == Operator.precedence .union)

/-- A name with arguments behind it. -/
def callText (name : String) (args : List Phrase) : String :=
  name ++ "(" ++ ",".intercalate (args.map argumentText) ++ ")"

/-- A call. The first argument of a call of a user function is the name of that function. -/
def ofCall (info : FunctionInfo) (args : List Phrase) : Phrase :=
  match args with
  | name :: others =>
    if info.index = Worksheet.userIndex then atom (callText name.text others)
    else atom (callText info.name args)
  | [] => atom (callText info.name [])

end Phrase

/-! ### The walk -/

namespace StackFault

/-- What keeps a formula from having a text, in words. -/
def textMessage : StackFault → String
  | underflow index opcode needed available =>
    "stack underflow rendering token #" ++ toString index ++ " (ptg=0x" ++ hexByte opcode
      ++ "): needed " ++ toString needed ++ ", had " ++ toString available
  | notSingular depth => "formula text left " ++ toString depth ++ " expressions on the stack"
  | unknownFunction index function =>
    "unknown function id " ++ toString function.toNat ++ " at token #" ++ toString index
  | unresolved index =>
    "shared/table formula marker at token #" ++ toString index ++ " has no text form"

end StackFault

namespace Labels

/-- The stack after the token at a place in the formula. -/
def step (labels : Labels) (index : Nat) (t : Token) (stack : Stack Phrase) :
    Except StackFault (Stack Phrase) :=
  match t.action with
  | .pass => .ok stack
  | .unresolved => .error (.unresolved index)
  | .unknownFunction function => .error (.unknownFunction index function)
  | .put leaf => .ok (stack.push (.atom (labels.leafText leaf)))
  | .enclose => do
    let (taken, below) ← stack.operands index t 1
    return below.push (.ofEnclosed taken)
  | .combine op => do
    let (taken, below) ← stack.operands index t op.arity
    return below.push (.ofOperator op taken)
  | .call info count => do
    let (taken, below) ← stack.operands index t count
    return below.push (.ofCall info taken)

end Labels

namespace Formula

/-- The text of the formula. -/
def text (f : Formula) (labels : Labels) : Except StackFault String := do
  let stack ← walk labels.step 0 .empty f
  match stack.only? with
  | some p => return p.text
  | none => throw (.notSingular stack.depth)

end Formula

end CellFormula
