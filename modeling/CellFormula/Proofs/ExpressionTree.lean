import CellFormula.Proofs.SelfContained
import Mathlib.Data.List.OfFn

/-!
# Formulas as trees

A formula that was typed is a tree of operators and calls. It is stored token by token, each
operator and each call behind its operands, and is evaluated in that order with a stack. Here the
two meet: the tokens of a tree push one entry, and that entry is what the tree gives when each node
is computed from what its children give.

## The contract of a tree

`Expr.run_tokens` holds above any stack that leaves as much room as the tree needs, and `Expr.room`
is exactly that much (`Expr.needs`). The entries below are neither read nor changed, so the tokens
before and after the tree do not matter to it, nor it to them.

## Implementation notes

The trees are those of one function table: a call carries the implementation that is bound to its
function, and as many children as it takes. So every tree has an operand, and none of the failures
of an evaluation has to be said in advance. The sum attribute is a call of the summing function
that is spelled another way, and carries an implementation of it like any other call.

## Main definitions

* `Expr`, `Expr.tokens` — trees, and their tokens in reverse Polish order
* `Expr.operand` — what a tree gives, computed from its children
* `Expr.room` — how many entries are needed

## Main results

* `Expr.needs` — the tokens need the room of the tree
* `Expr.pushes` — the tokens push the operand
* `Expr.run_tokens` — the same within a formula
-/

namespace CellFormula

open Worksheet (FunctionInfo FunctionTable Implementation)

/-! ### Trees -/

/-- A formula as a tree, with the implementation of each function that it calls. -/
inductive Expr (table : FunctionTable)
  | leaf (l : Leaf) (cls : OperandClass)
  | operator (op : Operator) (operands : Fin op.arity → Expr table)
  | call (c : Call) (cls : OperandClass) (info : FunctionInfo) (f : Implementation)
      (known : Worksheet.functionAt? c.index = some info) (bound : table.find? info.index = some f)
      (arguments : Fin (c.argumentCount info) → Expr table)
  /-- A call of the summing function with one argument, spelled as an attribute. -/
  | sum (a : Attribute) (isSum : a.isSum = true) (info : FunctionInfo) (f : Implementation)
      (known : Worksheet.functionAt? Worksheet.sumIndex = some info)
      (bound : table.find? info.index = some f) (argument : Expr table)

/-- The token that brings the leaf along. -/
def Leaf.token (cls : OperandClass) : Leaf → Token
  | missing => .missing
  | literal l => .literal l
  | reference r => .reference r cls
  | name n => .name n cls
  | array cells => .array cells cls

theorem Leaf.action_token (cls : OperandClass) (l : Leaf) : (l.token cls).action = .put l := by
  cases l <;> rfl

/-- What a call gives once its function is bound: an error if it is called with a wrong number of
operands or from outside, and the value of the implementation otherwise. -/
def Machine.callOperand (m : Machine) (info : FunctionInfo) (f : Implementation)
    (operands : List Operand) : Operand :=
  if !info.accepts operands.length then .error .value
  else if info.index = Worksheet.userIndex then .error .name
  else .value (m.callValue info f (m.arguments info operands))

theorem Machine.applyFunction_of_bound {m : Machine} {info : FunctionInfo} {f : Implementation}
    (h : m.functions.find? info.index = some f) (operands : List Operand) :
    m.applyFunction info operands = .ok (m.callOperand info f operands) := by
  rw [applyFunction, callOperand, h]
  by_cases haccepts : (!info.accepts operands.length) = true
  · rw [if_pos haccepts, if_pos haccepts]
  · rw [if_neg haccepts, if_neg haccepts]
    by_cases huser : info.index = Worksheet.userIndex
    · rw [if_pos huser, if_pos huser]
    · rw [if_neg huser, if_neg huser]

/-- The most entries above the stack below while formulas run one after the other, each of which
needs so many for itself and leaves one. -/
def roomInTurn : List Nat → Nat
  | [] => 0
  | room :: rooms => max room (1 + roomInTurn rooms)

namespace Expr

variable {table : FunctionTable}

/-- The tokens of a tree, each behind those of its children. -/
def tokens : Expr table → Formula
  | leaf l cls => [l.token cls]
  | operator op operands => (List.ofFn fun i => (operands i).tokens).flatten ++ [.operator op]
  | call c cls _ _ _ _ arguments =>
    (List.ofFn fun i => (arguments i).tokens).flatten ++ [.call c cls]
  | sum a _ _ _ _ _ argument => argument.tokens ++ [.hint a]

/-- What the tree gives, computed from what its children give. References are not read before an
operator or a call asks for them. -/
def operand (m : Machine) : Expr m.functions → Operand
  | leaf l _ => m.leafOperand l
  | operator op operands => m.applyOperator op (List.ofFn fun i => (operands i).operand m)
  | call _ _ info f _ _ arguments =>
    m.callOperand info f (List.ofFn fun i => (arguments i).operand m)
  | sum _ _ info f _ _ argument => m.callOperand info f [argument.operand m]

/-- The most entries above the stack below while the tokens run. The children run in turn, and there
is one entry at the end even if there are none. -/
def room : Expr table → Nat
  | leaf _ _ => 1
  | operator _ operands => max 1 (roomInTurn (List.ofFn fun i => (operands i).room))
  | call _ _ _ _ _ _ arguments => max 1 (roomInTurn (List.ofFn fun i => (arguments i).room))
  | sum _ _ _ _ _ _ argument => max 1 argument.room

end Expr

/-! ### The room that a tree needs -/

/-- What holds at each index holds of the two lists in step. -/
theorem forall₂_ofFn {α β : Type} {R : α → β → Prop} {n : Nat} {as : Fin n → α} {bs : Fin n → β}
    (h : ∀ i, R (as i) (bs i)) : List.Forall₂ R (List.ofFn as) (List.ofFn bs) := by
  rw [List.forall₂_iff_get]
  refine ⟨by rw [List.length_ofFn, List.length_ofFn], fun i hi _ => ?_⟩
  rw [List.length_ofFn] at hi
  simpa using h ⟨i, hi⟩

/-- The formula leaves one entry more than there was, and needs so many entries meanwhile. -/
structure Formula.Needs (f : Formula) (room : Nat) : Prop where
  peak_eq : ∀ depth, f.peak depth = depth + room
  depthAfter_eq : ∀ depth, f.depthAfter depth = depth + 1

namespace Formula.Needs

/-- One after the other, formulas need what the last entries need on top of those before. -/
theorem peak_flatten {fs : List Formula} {rooms : List Nat} (h : List.Forall₂ Needs fs rooms)
    (depth : Nat) : Formula.peak fs.flatten depth = depth + roomInTurn rooms := by
  induction h generalizing depth with
  | nil => rfl
  | cons hf _ ih =>
    rw [List.flatten_cons, Formula.peak_append, hf.peak_eq, hf.depthAfter_eq, ih, roomInTurn,
      Nat.add_assoc, Nat.add_max_add_left]

/-- A token that takes all of the entries needs room for one at the end. -/
theorem node {fs : List Formula} {rooms : List Nat} (h : List.Forall₂ Needs fs rooms) {t : Token}
    (htakes : t.action.operandCount = rooms.length) (hgives : t.action.resultCount = 1) :
    Needs (fs.flatten ++ [t]) (max 1 (roomInTurn rooms)) := by
  have hflatten (depth : Nat) : Formula.depthAfter fs.flatten depth = depth + rooms.length :=
    Formula.depthAfter_flatten (fun _ _ hf => hf.depthAfter_eq) h depth
  constructor
  · intro depth
    -- The token itself needs no more than the operands that it finds.
    have hlast : depth + rooms.length ≤ depth + roomInTurn rooms := by
      rw [← hflatten, ← peak_flatten h]
      exact Formula.depthAfter_le_peak _ _
    rw [Formula.peak_append, peak_flatten h, hflatten, Formula.peak, Formula.peak,
      Token.depthAfter_add_eq htakes hgives]
    omega
  · intro depth
    rw [Formula.depthAfter_append, hflatten, Formula.depthAfter_cons,
      Token.depthAfter_add_eq htakes hgives]
    rfl

end Formula.Needs

namespace Expr

variable {table : FunctionTable}

theorem action_call {c : Call} {info : FunctionInfo}
    (h : Worksheet.functionAt? c.index = some info) (cls : OperandClass) :
    (Token.call c cls).action = .call info (c.argumentCount info) := by
  rw [Token.action, Action.ofCall, h]

theorem action_hint {a : Attribute} (ha : a.isSum = true) {info : FunctionInfo}
    (h : Worksheet.functionAt? Worksheet.sumIndex = some info) :
    (Token.hint a).action = .call info 1 := by
  rw [Token.action, if_pos ha, Action.ofCall, h]

/-- **The room of a tree** is what its tokens need. -/
theorem needs (e : Expr table) : e.tokens.Needs e.room := by
  induction e with
  | leaf l cls =>
    refine Formula.Needs.node (List.Forall₂.nil : List.Forall₂ Formula.Needs [] []) ?_ ?_
    · rw [l.action_token]; rfl
    · rw [l.action_token]; rfl
  | operator op operands ih =>
    exact .node (forall₂_ofFn ih) (by rw [List.length_ofFn]; rfl) rfl
  | call c cls info f known bound arguments ih =>
    refine .node (forall₂_ofFn ih) ?_ ?_
    · rw [action_call known, List.length_ofFn]; rfl
    · rw [action_call known]; rfl
  | sum a isSum info f known bound argument ih =>
    have h := Formula.Needs.node (.cons ih .nil) (t := Token.hint a)
      (by rw [action_hint isSum known]; rfl) (by rw [action_hint isSum known]; rfl)
    have hroom : max 1 (roomInTurn [argument.room]) = max 1 argument.room := by
      rw [roomInTurn, roomInTurn]
      omega
    rwa [List.flatten_cons, List.flatten_nil, List.append_nil, hroom] at h

/-! ### What a tree pushes -/

variable {m : Machine}

/-- **The tokens of a tree push its operand.** -/
theorem pushes (e : Expr m.functions) : m.Pushes e.tokens (e.operand m) := by
  induction e with
  | leaf l cls => exact Machine.pushes_leaf (l.action_token cls)
  | operator op operands ih =>
    exact Machine.pushes_combine (forall₂_ofFn ih) rfl List.length_ofFn
  | call c cls info f known bound arguments ih =>
    refine Machine.pushes_call (forall₂_ofFn ih) ?_ (Machine.applyFunction_of_bound bound _)
    rw [List.length_ofFn]
    exact action_call known cls
  | sum a isSum info f known bound argument ih =>
    have h := Machine.pushes_call (.cons ih .nil) (t := Token.hint a) (action_hint isSum known)
      (Machine.applyFunction_of_bound bound _)
    rwa [List.flatten_cons, List.flatten_nil, List.append_nil] at h

/-- **The stack computes the tree.** On any stack that leaves room for the tree, its tokens push one
entry, which is what the tree gives, and do so in the middle of any formula. -/
theorem run_tokens (m : Machine) (e : Expr m.functions) (below : Stack Operand)
    (hroom : below.depth + e.room ≤ m.limits.stackDepth) :
    (∀ index, m.run index below e.tokens = .ok (below.push (e.operand m))) ∧
      ∀ index start before after, m.run index start before = .ok below →
        m.run index start (before ++ e.tokens ++ after)
          = m.run (index + before.length + e.tokens.length) (below.push (e.operand m)) after := by
  have hrun (index : Nat) : m.run index below e.tokens = .ok (below.push (e.operand m)) :=
    e.pushes.run_eq index below (by rw [e.needs.peak_eq]; exact hroom)
  refine ⟨hrun, fun index start before after hbefore => ?_⟩
  calc m.run index start (before ++ e.tokens ++ after)
    _ = (m.run index start before).bind fun stack =>
          (m.run (index + before.length) stack e.tokens).bind fun stack =>
            m.run (index + before.length + e.tokens.length) stack after := by
        rw [List.append_assoc, Machine.run, walk_append]
        exact congrArg _ (funext fun stack => walk_append _ _ _ _ _)
    _ = m.run (index + before.length + e.tokens.length) (below.push (e.operand m)) after := by
        rw [hbefore]
        simp only [Except.bind, hrun]

/-- A union that the sum attribute reads, as the right side of a difference and above another
entry. -/
theorem run_tokens_sum_of_union :
    let f : Implementation := ⟨false, fun _ args => Worksheet.sum args⟩
    let m : Machine := ⟨.ofCells fun _ _ _ => .number 5.0, .origin, .standard, ⟨[(4, f)]⟩⟩
    let info : FunctionInfo := ⟨4, "SUM", 0, 30, .value, [.reference], false⟩
    let area : Reference := .area ⟨.relative 0 0, .relative 1 1⟩
    let cell : Reference := .cell (.relative 2 2)
    let parts : Expr m.functions := .operator .union fun i : Fin 2 =>
      if i = 0 then .leaf (.reference area) .reference else .leaf (.reference cell) .reference
    let e : Expr m.functions := .operator .subtract fun i : Fin 2 =>
      if i = 0 then .leaf (.literal (.int 100)) .value else .sum .sum rfl info f rfl rfl parts
    let below : Stack Operand := .push .empty (.value .blank)
    below.depth + e.room ≤ m.limits.stackDepth ∧
      m.run 7 below [.literal (.int 100), .reference area .reference, .reference cell .reference,
        .operator .union, .hint .sum, .operator .subtract]
        = .ok (below.push (.value (.number 75.0))) := by
  intro f m info area cell parts e below
  have hroom : below.depth + e.room ≤ m.limits.stackDepth := by decide
  refine ⟨hroom, ?_⟩
  have hrun := (run_tokens m e below hroom).1 7
  exact hrun

/-- **The sum attribute needs the summing function.** Where nothing is bound to that, its argument
has a value and the sum has none. -/
theorem sum_attribute_not_implemented :
    let m : Machine := ⟨.ofCells fun _ _ _ => .blank, .origin, .standard, .empty⟩
    Attribute.sum.isSum = true ∧
      m.run 0 .empty [.literal (.int 1)] = .ok (.push .empty (.value (.number 1.0))) ∧
      m.run 0 .empty [.literal (.int 1), .hint .sum] = .error (.notImplemented 4 "SUM") := by
  intro m
  exact ⟨rfl, rfl, rfl⟩

end Expr

end CellFormula
