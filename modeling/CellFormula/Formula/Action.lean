import CellFormula.Formula.Basic

/-!
# What a token asks for

A formula can be evaluated and it can be written out as text, and both go through its tokens with a
stack. What a token asks of that stack is the same for both and stands here: it puts a leaf there,
or it combines entries, or it does nothing.

## What is deliberately absent

An action does not know the class of its token. Classes are bookkeeping of whoever stored the
formula; which operands are read whole is decided by the catalogue. Nor does it say how a call was
spelled: the sum attribute and both kinds of call tokens ask for the same thing.

## Main definitions

* `Leaf` — an operand that a token brings along
* `Action`, `Token.action` — what a token asks for
* `Action.operandCount` — how many entries it takes
-/

namespace CellFormula

open Worksheet (FunctionInfo)

/-- An operand that a token brings along. -/
inductive Leaf
  /-- An argument that was left out. -/
  | missing
  | literal (l : Literal)
  | reference (r : Reference)
  | name (n : NameRef)
  /-- An array literal, or the place of one that was not read. -/
  | array (cells : Option (Matrix Constant))
deriving DecidableEq, Repr, Inhabited

/-- What a token asks of the stack. -/
inductive Action
  /-- Nothing. -/
  | pass
  /-- Parentheses around the last entry, which matter to the text and not to the value. -/
  | enclose
  /-- One more entry. -/
  | put (leaf : Leaf)
  /-- An entry for the operands of an operator. -/
  | combine (op : Operator)
  /-- An entry for the arguments of a call. -/
  | call (function : FunctionInfo) (count : Nat)
  /-- A call of a function that is not in the catalogue. -/
  | unknownFunction (index : UInt16)
  /-- The formula of another cell, which has to be looked up first. -/
  | unresolved
deriving DecidableEq, Repr

namespace Action

/-- The call of the function with this index, with as many arguments as its entry says. -/
def ofCall (index : UInt16) (count : FunctionInfo → Nat) : Action :=
  match Worksheet.functionAt? index with
  | some info => call info (count info)
  | none => unknownFunction index

/-- How many entries are taken off the stack. -/
def operandCount : Action → Nat
  | combine op => op.arity
  | call _ count => count
  | _ => 0

end Action

/-- What the token asks of the stack. -/
def Token.action : Token → Action
  | operator op => .combine op
  | shared .. | table .. => .unresolved
  | paren => .enclose
  | missing => .put .missing
  | hint a => if a.isSum then .ofCall Worksheet.sumIndex fun _ => 1 else .pass
  | literal l => .put (.literal l)
  | reference r _ => .put (.reference r)
  | name n _ => .put (.name n)
  | mem .. => .pass
  | array cells _ => .put (.array cells)
  | call c _ => .ofCall c.index c.argumentCount

theorem Token.action_withClass (t : Token) (cls : OperandClass) :
    (t.withClass cls).action = t.action := by
  cases t <;> rfl

end CellFormula
