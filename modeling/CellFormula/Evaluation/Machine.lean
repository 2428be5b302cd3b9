import CellFormula.Evaluation.Operand
import CellFormula.Formula.Stack

/-!
# Evaluating formulas

A formula is evaluated by a walk through its tokens with a stack of operands. What a formula
computes may be an error value, and that is an answer like any other. An evaluation only fails when
the formula is no program for a stack, when the stack grows too deep, or when a function is called
that nothing is bound to.

## Differences that overflow

A function that is called may take a difference of words that overflows. Without checks the
difference wraps around and the evaluation goes on, and so do the walk and the value of a formula
here. The checked evaluation is the same walk, but it stops in front of a call that overflows, also
where the call would be the last token for which there is room.

## Main definitions

* `EvalError` — how an evaluation can fail
* `Machine.applyOperator`, `Machine.applyFunction` — one operator, one call
* `Machine.step`, `Machine.run` — one token, all tokens
* `Machine.evaluate` — the value of a formula
* `Machine.checkedEvaluate` — the value of a formula if differences of words are checked
-/

namespace CellFormula

open Worksheet (FunctionInfo Implementation)

/-- How an evaluation can fail. -/
inductive EvalError
  /-- The formula is no program for a stack. -/
  | stack (fault : StackFault)
  /-- The stack holds as many entries as it may, and the token at this place adds one. -/
  | overflow (index limit : Nat)
  /-- Nothing is bound to the function. -/
  | notImplemented (index : UInt16) (name : String)
deriving DecidableEq, Repr

namespace EvalError

/-- A fault of the stack in words. -/
def stackMessage : StackFault → String
  | .underflow index opcode needed available =>
    "stack underflow evaluating token #" ++ toString index ++ " (ptg=0x" ++ hexByte opcode
      ++ "): needed " ++ toString needed ++ ", had " ++ toString available
  | .notSingular depth => "formula left " ++ toString depth ++ " values on the stack"
  | .unknownFunction index function =>
    "unknown function id " ++ toString function.toNat ++ " at token #" ++ toString index
  | .unresolved index =>
    "shared/table formula marker at token #" ++ toString index
      ++ " must be resolved before evaluation"

/-- The error in words. -/
def message : EvalError → String
  | stack fault => stackMessage fault
  | overflow index limit =>
    "operand stack exceeded " ++ toString limit ++ " entries at token #" ++ toString index
  | notImplemented index name =>
    "function " ++ name ++ " (id " ++ toString index.toNat ++ ") has no implementation"

end EvalError

namespace Machine

/-! ### Operators and calls -/

/-- An operator on its operands. -/
def applyOperator (m : Machine) (op : Operator) (operands : List Operand) : Operand :=
  if op.combinesReferences then .combineReferences op operands
  else .value (broadcast (operands.map m.operandValue) op.compute)

/-- The values that an operand of a call gives, at its position among the operands. Ranges are read
whole where the function says so, and more than one range gives a value for each. -/
def argumentValues (m : Machine) (info : FunctionInfo) (position : Nat) : Operand → List Value
  | .value v => [v]
  | .ranges rs =>
    if 1 < rs.length ∨ info.parameterClass position ≠ .value then rs.map m.readWhole
    else [m.readValue rs]

/-- The arguments of a call. -/
def arguments (m : Machine) (info : FunctionInfo) (operands : List Operand) : List Value :=
  (operands.mapIdx (m.argumentValues info)).flatten

/-- The value of a call with these arguments. Unless the implementation wants to see errors, the
first error among the arguments is the value. -/
def callValue (m : Machine) (info : FunctionInfo) (f : Implementation) (args : List Value) :
    Value :=
  match if f.inspectsErrors then none else args.findSome? Value.error? with
  | some kind => .error kind
  | none => (f.compute ⟨m.place, info⟩ args).normalize

/-- A call of a function on its operands. A wrong number of operands is a value error, and a user
function is not known by name. -/
def applyFunction (m : Machine) (info : FunctionInfo) (operands : List Operand) :
    Except EvalError Operand :=
  if !info.accepts operands.length then .ok (.error .value)
  else if info.index = Worksheet.userIndex then .ok (.error .name)
  else
    match m.functions.find? info.index with
    | some f => .ok (.value (m.callValue info f (m.arguments info operands)))
    | none => .error (.notImplemented info.index info.name)

/-! ### The walk -/

/-- The stack with one more operand, for the token at a place in the formula. -/
def pushed (m : Machine) (index : Nat) (stack : Stack Operand) (operand : Operand) :
    Except EvalError (Stack Operand) :=
  if stack.depth < m.limits.stackDepth then .ok (stack.push operand)
  else .error (.overflow index m.limits.stackDepth)

/-- The stack after the token at a place in the formula. The limit is looked at last, when the
operands are gone and the new entry is computed. -/
def step (m : Machine) (index : Nat) (t : Token) (stack : Stack Operand) :
    Except EvalError (Stack Operand) :=
  match t.action with
  | .pass | .enclose => .ok stack
  | .unresolved => .error (.stack (.unresolved index))
  | .unknownFunction function => .error (.stack (.unknownFunction index function))
  | .put leaf => m.pushed index stack (m.leafOperand leaf)
  | .combine op => do
    let (operands, below) ← (stack.operands index t op.arity).mapError EvalError.stack
    m.pushed index below (m.applyOperator op operands)
  | .call info count => do
    let (operands, below) ← (stack.operands index t count).mapError EvalError.stack
    m.pushed index below (← m.applyFunction info operands)

/-- The stack after all tokens, the first of which has this place in the formula. -/
def run (m : Machine) (index : Nat) (stack : Stack Operand) (f : Formula) :
    Except EvalError (Stack Operand) :=
  walk m.step index stack f

/-- The value that an operand stands for at the end of a formula. Nothing is left out there. -/
def result (m : Machine) (operand : Operand) : Value :=
  match m.operandValue operand with
  | .missing => .blank
  | v => v.normalize

/-- The value of a formula. -/
def evaluate (m : Machine) (f : Formula) : Except EvalError Value := do
  let stack ← m.run 0 .empty f
  match stack.only? with
  | some operand => return m.result operand
  | none => throw (.stack (.notSingular stack.depth))

/-! ### The checked walk -/

/-- How a checked evaluation ends without a value. -/
inductive CheckedError
  /-- It fails like any other evaluation. -/
  | failed (e : EvalError)
  /-- A difference of words overflows in the call that the token at this place makes. -/
  | overflow (index : Nat)
deriving DecidableEq, Repr

/-- A difference of words overflows in the implementation, if it is called on these arguments. -/
def callOverflows (m : Machine) (info : FunctionInfo) (f : Implementation) (args : List Value) :
    Bool :=
  match if f.inspectsErrors then none else args.findSome? Value.error? with
  | some _ => false
  | none => (f.outcome ⟨m.place, info⟩ args).overflows

/-- A difference of words overflows in a call of the function on its operands. -/
def applicationOverflows (m : Machine) (info : FunctionInfo) (operands : List Operand) : Bool :=
  if !info.accepts operands.length then false
  else if info.index = Worksheet.userIndex then false
  else
    match m.functions.find? info.index with
    | some f => m.callOverflows info f (m.arguments info operands)
    | none => false

/-- A difference of words overflows in the call that the token makes, if it makes one. -/
def tokenOverflows (m : Machine) (index : Nat) (t : Token) (stack : Stack Operand) : Bool :=
  match t.action with
  | .call info count =>
    match stack.operands index t count with
    | .ok (operands, _) => m.applicationOverflows info operands
    | .error _ => false
  | _ => false

/-- The stack after the token at a place in the formula, unless a difference of words overflows. -/
def checkedStep (m : Machine) (index : Nat) (t : Token) (stack : Stack Operand) :
    Except CheckedError (Stack Operand) :=
  if m.tokenOverflows index t stack then .error (.overflow index)
  else (m.step index t stack).mapError .failed

/-- The value of a formula, unless a difference of words overflows. -/
def checkedEvaluate (m : Machine) (f : Formula) : Except CheckedError Value := do
  let stack ← walk m.checkedStep 0 .empty f
  match stack.only? with
  | some operand => return m.result operand
  | none => throw (.failed (.stack (.notSingular stack.depth)))

end Machine

end CellFormula
