import CellFormula.Proofs.RangeCells
import CellFormula.Proofs.StackEntries

/-!
# Machines that agree

Two machines may differ in their sources or in their places and still do the same with a formula,
because the difference never shows in what is on the stack. `Machine.Agree` says what has to be
shown for that. The machines read every operand alike that has a certain property, and no token of
the formula makes an operand without it.

## What is compared

Leaves, readings and calls, nothing else. Taking operands, counting entries and the limits on them
do not depend on what the entries are, so a step, a run and an evaluation need no argument of their
own.

## Main definitions

* `Machine.Agree` — machines that read alike what a formula puts on the stack

## Main results

* `Machine.Agree.step_eq`, `Machine.Agree.run_eq` — one token, all tokens
* `Machine.Agree.evaluate_eq` — values and failures
-/

namespace CellFormula.Machine

open Worksheet (FunctionInfo Implementation)

/-- The machines read operands with a property alike, and the formula makes no others. -/
structure Agree (m m' : Machine) (f : Formula) (P : Operand → Prop) : Prop where
  limits : m'.limits = m.limits
  functions : m'.functions = m.functions
  leaf : ∀ t ∈ f, ∀ leaf, t.action = .put leaf → m'.leafOperand leaf = m.leafOperand leaf
  value : ∀ o, P o → m'.operandValue o = m.operandValue o
  whole : ∀ o, P o → ∀ r ∈ o.rangeList, m'.readWhole r = m.readWhole r
  call : ∀ info imp args, m.functions.find? info.index = some imp →
    m'.callValue info imp args = m.callValue info imp args
  kept : ∀ t ∈ f, ∀ operands operand, m.Makes t.action operands operand →
    (∀ o ∈ operands, P o) → P operand

namespace Agree

variable {m m' : Machine} {f : Formula} {P : Operand → Prop} (h : m.Agree m' f P)
include h

theorem applyOperator_eq (op : Operator) {operands : List Operand}
    (hoperands : ∀ o ∈ operands, P o) :
    m'.applyOperator op operands = m.applyOperator op operands := by
  have hvalues : operands.map m'.operandValue = operands.map m.operandValue :=
    List.map_congr_left fun o ho => h.value o (hoperands o ho)
  rw [applyOperator, applyOperator, hvalues]

theorem argumentValues_eq (info : FunctionInfo) (position : Nat) {o : Operand} (ho : P o) :
    m'.argumentValues info position o = m.argumentValues info position o := by
  cases o with
  | value v => rfl
  | ranges rs =>
    have hwhole : rs.map m'.readWhole = rs.map m.readWhole := List.map_congr_left (h.whole _ ho)
    have hvalue : m'.readValue rs = m.readValue rs := h.value _ ho
    rw [argumentValues, argumentValues, hwhole, hvalue]

theorem arguments_eq (info : FunctionInfo) {operands : List Operand}
    (hoperands : ∀ o ∈ operands, P o) : m'.arguments info operands = m.arguments info operands := by
  have hvalues : operands.mapIdx (m'.argumentValues info)
      = operands.mapIdx (m.argumentValues info) := by
    refine List.mapIdx_eq_mapIdx_iff.mpr fun position hposition => ?_
    exact h.argumentValues_eq info position (hoperands _ (List.getElem_mem hposition))
  rw [arguments, arguments, hvalues]

theorem applyFunction_eq (info : FunctionInfo) {operands : List Operand}
    (hoperands : ∀ o ∈ operands, P o) :
    m'.applyFunction info operands = m.applyFunction info operands := by
  rw [applyFunction, applyFunction, h.arguments_eq info hoperands, h.functions]
  cases hbound : m.functions.find? info.index with
  | none => rfl
  | some imp => simp only [h.call info imp _ hbound]

theorem pushed_eq : m'.pushed = m.pushed := by
  funext index stack operand
  rw [pushed, pushed, h.limits]

/-- **A token does the same to a stack** whose entries all have the property. -/
theorem step_eq {t : Token} (ht : t ∈ f) (index : Nat) {stack : Stack Operand}
    (hstack : ∀ o ∈ stack.entries, P o) : m'.step index t stack = m.step index t stack := by
  by_cases hfew : stack.depth < t.action.operandCount
  · rw [step_of_depth_lt hfew, step_of_depth_lt hfew]
  · obtain ⟨operands, below, hcount, rfl⟩ := Stack.exists_pushAll (Nat.not_lt.mp hfew)
    rw [Stack.entries_pushAll, List.forall_mem_append] at hstack
    have hoperands : ∀ o ∈ operands, P o := fun o ho => hstack.1 o (List.mem_reverse.mpr ho)
    cases haction : t.action with
    | put leaf =>
      rw [step_put haction, step_put haction, h.leaf t ht leaf haction, h.pushed_eq]
    | combine op =>
      rw [haction] at hcount
      rw [step_combine haction hcount, step_combine haction hcount,
        h.applyOperator_eq op hoperands, h.pushed_eq]
    | call info count =>
      rw [haction] at hcount
      rw [step_call haction hcount, step_call haction hcount,
        h.applyFunction_eq info hoperands, h.pushed_eq]
    | _ => rw [step, step, haction]

theorem of_subset {g : Formula} (hg : ∀ t ∈ g, t ∈ f) : m.Agree m' g P where
  limits := h.limits
  functions := h.functions
  leaf t ht := h.leaf t (hg t ht)
  value := h.value
  whole := h.whole
  call := h.call
  kept t ht := h.kept t (hg t ht)

theorem forall_entries {stack : Stack Operand} (hrun : m.run 0 .empty f = .ok stack) :
    ∀ o ∈ stack.entries, P o :=
  forall_entries_of_run hrun fun _ t _ operands operand hsplit _ =>
    h.kept t (by simp [hsplit]) operands operand

omit h in
/-- **So do all tokens of the formula** to the stack without entries. -/
theorem run_eq (h : m.Agree m' f P) : m'.run 0 .empty f = m.run 0 .empty f := by
  induction f using List.reverseRecOn with
  | nil => rw [run, run, walk, walk]
  | append_singleton f t ih =>
    have hinit := h.of_subset fun _ hu => List.mem_append_left [t] hu
    rw [run_concat, run_concat, ih hinit]
    cases hrun : m.run 0 .empty f with
    | error e => simp only [Except.bind]
    | ok stack =>
      simp only [Except.bind]
      exact h.step_eq (List.mem_append_right f (List.mem_singleton.mpr rfl)) _
        (hinit.forall_entries hrun)

/-- **Machines that agree give the same value**, or fail alike. -/
theorem evaluate_eq : m'.evaluate f = m.evaluate f := by
  rw [Machine.evaluate_eq, Machine.evaluate_eq, h.run_eq]
  cases hrun : m.run 0 .empty f with
  | error e => rfl
  | ok stack =>
    have hstack := h.forall_entries hrun
    simp only [Except.bind]
    cases honly : stack.only? with
    | none => rfl
    | some operand =>
      rw [Stack.only?_eq_some honly] at hstack
      simp only [result, h.value operand (hstack operand (List.mem_cons_self ..))]

end Agree

end CellFormula.Machine
