import CellFormula.Token.Basic
import CellFormula.Worksheet.Catalogue

/-!
# Formulas

A formula is a list of tokens in reverse Polish order. What can be said of it without evaluating it
stands here: its size, whether it is volatile, whether it only points at a shared formula, and what
a shared formula looks like from one cell.

## Main definitions

* `Formula`, `Formula.streamSize`, `Formula.isVolatile`, `Formula.anchor?`
* `Formula.placed` — a shared formula as one cell sees it
* `Formula.withClass` — a formula with one operand class throughout
* `Formula.sameMeaning` — equality in which number literals are compared as numbers
-/

namespace CellFormula

/-- The tokens of a formula, in the order in which they are evaluated. -/
abbrev Formula := List Token

/-- The number of arguments that a call takes off the stack, given the function that it calls. -/
def Call.argumentCount (c : Call) (info : Worksheet.FunctionInfo) : Nat :=
  match c with
  | .fixed _ => info.minArguments
  | .counted _ count _ _ => count.toNat

namespace Token

/-- The token makes its formula volatile: it says so, or it calls a volatile function. -/
def isVolatile : Token → Bool
  | hint a => a.isVolatile
  | call c _ => (Worksheet.functionAt? c.index).any (·.isVolatile)
  | _ => false

/-- The token as the cell in this row and column sees it. -/
def placed (row col : Nat) : Token → Token
  | reference r cls => reference (r.placed row col) cls
  | other => other

end Token

namespace Formula

/-- The size of the token stream. -/
def streamSize (f : Formula) : Nat := (f.map Token.streamSize).foldr (· + ·) 0

/-- The formula has to be computed again at every change. -/
def isVolatile (f : Formula) : Bool := f.any Token.isVolatile

/-- The cell of the shared formula that the formula stands for, if it does. -/
def anchor? (f : Formula) : Option (UInt16 × UInt16) :=
  match f.head? with
  | some (.shared row col) => some (row, col)
  | _ => none

/-- A shared formula as the cell in this row and column sees it: offsets become addresses, and those
that fall off the grid become deleted references. -/
def placed (f : Formula) (row col : Nat) : Formula := f.map (Token.placed row col)

/-- The formula with every operand wanted in the same way. -/
def withClass (f : Formula) (cls : OperandClass) : Formula := f.map fun t => t.withClass cls

end Formula

/-! ### Equality of formulas with numbers in them -/

/-- The bits stand for equal numbers. Both zeros are equal, and a NaN is not equal to itself. -/
def Binary64.sameNumber (a b : Binary64) : Bool := a.toFloat == b.toFloat

/-- The constants are equal, numbers being compared as numbers. -/
def Constant.sameMeaning : Constant → Constant → Bool
  | .number a, .number b => a.sameNumber b
  | a, b => a == b

/-- The tokens are equal, numbers being compared as numbers. -/
def Token.sameMeaning : Token → Token → Bool
  | .literal (.number a), .literal (.number b) => a.sameNumber b
  | .array (some a) cls, .array (some b) cls' =>
    a.isEqv b Constant.sameMeaning && cls == cls'
  | a, b => a == b

/-- The formulas are equal, numbers being compared as numbers. -/
def Formula.sameMeaning : Formula → Formula → Bool
  | [], [] => true
  | a :: f, b :: g => Token.sameMeaning a b && sameMeaning f g
  | _, _ => false

end CellFormula
