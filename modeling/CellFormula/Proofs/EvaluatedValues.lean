import CellFormula.Proofs.BuiltinValues
import CellFormula.Proofs.StackEntries

/-!
# Values of an evaluation

A rule for the cells of areas that the source obeys is obeyed by every value on the operand stack
and by the value of the formula. The built-in functions have to be bound, and the calls that are
reached have to be admitted.

## Which calls are reached

`Machine.Calls` says what a formula calls while it is evaluated: the function and the arguments that
it is called on, read the way the catalogue asks for. Only calls with a number of operands that the
function accepts count, because no other call computes anything.

## Main definitions

* `CellSource.Obeys` — a source that obeys a rule
* `Operand.Obeys` — an operand that does
* `Machine.Calls` — the calls that are reached

## Main results

* `Machine.Makes.obeys` — one token
* `Machine.obeys_of_run`, `Machine.obeys_of_evaluate` — a run, and the value of a formula
-/

namespace CellFormula

open Worksheet (FunctionInfo FunctionTable)

/-! ### Sources -/

/-- What the source hands out obeys the rule. -/
structure CellSource.Obeys (source : CellSource) (rule : CellRule) : Prop where
  /-- What is in a cell of a sheet may stand in a cell of an area. -/
  cell : ∀ sheet row col, rule.Allows (source.cell sheet row col)
  area : ∀ r block, source.area r = .ok block → (Value.area block).Obeys rule
  name : ∀ n, (source.name n).Obeys rule

variable {rule : CellRule}

/-- Areas that are read cell by cell obey the rule that the cells obey. -/
theorem CellSource.obeys_readArea {cell : SheetRef → Nat → Nat → Value}
    (h : ∀ sheet row col, rule.Allows (cell sheet row col)) {r : Range} {block : Area}
    (hblock : readArea cell r = .ok block) : (Value.area block).Obeys rule := by
  rw [readArea] at hblock
  split at hblock
  · next cells hcells =>
    cases hblock
    intro v hv
    obtain ⟨row, col, rfl⟩ := Matrix.exists_of_mem_generate hcells hv
    exact h _ _ _
  · cases hblock

theorem Value.allows_opened {v : Value} (h : rule.Allows v) (times : Nat) :
    rule.Allows (v.opened times) := by
  induction times generalizing v with
  | zero =>
    cases v with
    | area block => exact rule.allows_of_isPlain trivial
    | _ => exact h
  | succ times ih =>
    cases v with
    | area block =>
      rw [opened]
      cases hfirst : block.get? 0 0 with
      | none => exact ih (rule.allows_of_isPlain trivial)
      | some u => exact ih (rule.allows_of_mem h (Matrix.mem_of_get? hfirst))
    | _ => exact h

/-! ### Operands -/

/-- The value of the operand obeys the rule. Of ranges nothing is asked. -/
def Operand.Obeys (rule : CellRule) : Operand → Prop
  | value v => v.Obeys rule
  | ranges _ => True

theorem Literal.isPlain_toValue (l : Literal) : l.toValue.IsPlain := by
  cases l with
  | int n => exact Number.isFinite_wordToFloat n
  | number x => exact Value.isPlain_ofNumber _
  | _ => trivial

theorem Constant.isPlain_toValue (c : Constant) : c.toValue.IsPlain := by
  cases c with
  | number x => exact Value.isPlain_ofNumber _
  | _ => trivial

namespace Operand

theorem obeys_error (kind : ErrorKind) : (error kind).Obeys rule :=
  Value.obeys_of_isPlain (v := .error kind) trivial

/-- Reference operators make ranges and errors. -/
theorem obeys_combineReferences (op : Operator) (operands : List Operand) :
    (combineReferences op operands).Obeys rule := by
  rw [combineReferences.eq_def]
  split
  · rw [combineRanges.eq_def]
    split
    · trivial
    · split
      · trivial
      · exact obeys_error _
    · split
      · exact obeys_error _
      · trivial
  · exact obeys_error _
  · exact obeys_error _
  · exact obeys_error _

end Operand

namespace Machine

variable {m : Machine}

/-! ### Reading -/

theorem obeys_readWhole (hsource : m.source.Obeys rule) (r : Range) :
    (m.readWhole r).Obeys rule := by
  rw [readWhole]
  split
  · exact Value.obeys_of_isPlain trivial
  · split
    · next block hblock => exact hsource.area r block hblock
    · exact Value.obeys_of_isPlain trivial

theorem obeys_readValue (hsource : m.source.Obeys rule) (rs : List Range) :
    (m.readValue rs).Obeys rule := by
  rw [readValue.eq_def]
  split
  · split
    · exact obeys_readWhole hsource _
    · rw [readIntersected]
      split
      · exact Value.obeys_of_allows (Value.allows_opened (hsource.cell _ _ _) _)
      · exact Value.obeys_of_isPlain trivial
  · exact Value.obeys_of_isPlain trivial

theorem obeys_operandValue (hsource : m.source.Obeys rule) {o : Operand} (ho : o.Obeys rule) :
    (m.operandValue o).Obeys rule := by
  cases o with
  | value v => exact ho
  | ranges rs => exact obeys_readValue hsource rs

theorem obeys_arguments (hsource : m.source.Obeys rule) (info : FunctionInfo)
    {operands : List Operand} (hoperands : ∀ o ∈ operands, o.Obeys rule) :
    ∀ v ∈ m.arguments info operands, v.Obeys rule := by
  intro v hv
  obtain ⟨values, hvalues, hv⟩ := List.mem_flatten.mp hv
  obtain ⟨position, hposition, rfl⟩ := List.mem_mapIdx.mp hvalues
  have ho := hoperands _ (List.getElem_mem hposition)
  cases hoperand : operands[position] with
  | value u =>
    rw [hoperand] at hv ho
    rw [List.mem_singleton.mp hv]
    exact ho
  | ranges rs =>
    rw [hoperand, argumentValues] at hv
    split at hv
    · obtain ⟨r, -, rfl⟩ := List.mem_map.mp hv
      exact obeys_readWhole hsource r
    · rw [List.mem_singleton.mp hv]
      exact obeys_readValue hsource rs

/-! ### Tokens -/

theorem obeys_leafOperand (hsource : m.source.Obeys rule) (leaf : Leaf) :
    (m.leafOperand leaf).Obeys rule := by
  cases leaf with
  | missing => trivial
  | literal l => exact Value.obeys_of_isPlain l.isPlain_toValue
  | name n => exact hsource.name n
  | array cells =>
    cases cells with
    | none => exact Operand.obeys_error _
    | some cells =>
      intro v hv
      obtain ⟨c, -, rfl⟩ := Array.mem_map.mp (Array.mem_toList_iff.mp hv)
      exact rule.allows_of_isPlain c.isPlain_toValue
  | reference r =>
    rw [leafOperand]
    obtain ⟨kind, hr⟩ | ⟨_, _, _, _, _, hr⟩ := m.referenceOperand_cases r
    · rw [hr]
      exact Operand.obeys_error kind
    · rw [hr]
      trivial

theorem obeys_applyOperator (hsource : m.source.Obeys rule) (op : Operator)
    {operands : List Operand} (hoperands : ∀ o ∈ operands, o.Obeys rule) :
    (m.applyOperator op operands).Obeys rule := by
  rw [applyOperator]
  split
  · exact Operand.obeys_combineReferences op operands
  · refine CellRule.obeys_broadcast_compute op fun v hv => ?_
    obtain ⟨o, ho, rfl⟩ := List.mem_map.mp hv
    exact obeys_operandValue hsource (hoperands o ho)

/-- The value of a call is an error, or it is what the built-in function gives. -/
theorem obeys_of_applyFunction (hfunctions : m.functions = .builtin) (hsource : m.source.Obeys rule)
    {info : FunctionInfo} {operands : List Operand}
    (hadmits : info.accepts operands.length = true →
      rule.Admits info.index (m.arguments info operands))
    (hoperands : ∀ o ∈ operands, o.Obeys rule) {operand : Operand}
    (h : m.applyFunction info operands = .ok operand) : operand.Obeys rule := by
  obtain ⟨kind, rfl⟩ | ⟨haccepts, f, hbound, rfl⟩ := applyFunction_cases h
  · exact Operand.obeys_error kind
  · rw [hfunctions] at hbound
    obtain ⟨b, hb, hi, rfl⟩ := Worksheet.exists_builtin_of_find? hbound
    show (m.callValue info b.implementation (m.arguments info operands)).Obeys rule
    rw [callValue]
    split
    · exact Value.obeys_of_isPlain trivial
    · have harguments := obeys_arguments hsource info hoperands
      exact (Worksheet.obeys_builtin hb hi harguments (hadmits haccepts) m.place).normalize

/-- **What a token makes obeys the rule** if its operands do and its call, if it is one, is
admitted. -/
theorem Makes.obeys (hfunctions : m.functions = .builtin) (hsource : m.source.Obeys rule)
    {a : Action} {operands : List Operand} {operand : Operand} (h : m.Makes a operands operand)
    (hadmits : ∀ info, a = .call info operands.length → info.accepts operands.length = true →
      rule.Admits info.index (m.arguments info operands))
    (hoperands : ∀ o ∈ operands, o.Obeys rule) : operand.Obeys rule := by
  cases h with
  | put leaf => exact obeys_leafOperand hsource leaf
  | combine op _ count => exact obeys_applyOperator hsource op hoperands
  | call info _ _ value =>
    exact obeys_of_applyFunction hfunctions hsource (hadmits info rfl) hoperands value

/-! ### Runs -/

/-- While the formula is evaluated, the function with this index is called on these arguments. -/
def Calls (m : Machine) (f : Formula) (index : UInt16) (args : List Value) : Prop :=
  ∃ before t after info operands, f = before ++ t :: after ∧ m.Finds before operands ∧
    t.action = .call info operands.length ∧ info.accepts operands.length = true ∧
    info.index = index ∧ m.arguments info operands = args

section

variable {f : Formula} {index : UInt16} {args : List Value}

/-- What the first part of a formula calls, the formula calls. -/
theorem Calls.append (h : m.Calls f index args) (g : Formula) : m.Calls (f ++ g) index args := by
  obtain ⟨before, t, after, info, operands, rfl, hcall⟩ := h
  exact ⟨before, t, after ++ g, info, operands, by simp, hcall⟩

/-- A formula does not call a function whose tokens it does not have. -/
theorem not_calls_of_forall
    (h : ∀ t ∈ f, ∀ info count, t.action = .call info count → info.index ≠ index) :
    ¬ m.Calls f index args := by
  rintro ⟨before, t, after, info, operands, rfl, -, haction, -, hindex, -⟩
  exact h t (by simp) info operands.length haction hindex

/-- A formula calls what it calls without its last token, or what its last token calls. -/
theorem calls_concat {t : Token} (h : m.Calls (f ++ [t]) index args) :
    m.Calls f index args ∨ ∃ info operands, m.Finds f operands ∧
      t.action = .call info operands.length ∧ m.arguments info operands = args := by
  obtain ⟨before, t', after, info, operands, hf, hfinds, haction, haccepts, hindex, hargs⟩ := h
  obtain rfl | ⟨after, last, rfl⟩ := after.eq_nil_or_concat
  · obtain ⟨rfl, hlast⟩ := List.append_inj' hf rfl
    cases hlast
    exact .inr ⟨info, operands, hfinds, haction, hargs⟩
  · rw [List.concat_eq_append, ← List.cons_append, ← List.append_assoc] at hf
    obtain ⟨rfl, -⟩ := List.append_inj' hf rfl
    exact .inl ⟨before, t', after, info, operands, rfl, hfinds, haction, haccepts, hindex, hargs⟩

end

/-- **All values on the stack obey the rule**, after any tokens. -/
theorem obeys_of_run (hfunctions : m.functions = .builtin) (hsource : m.source.Obeys rule)
    {f : Formula} (hadmits : ∀ index args, m.Calls f index args → (∀ v ∈ args, v.Obeys rule) →
      rule.Admits index args)
    {stack : Stack Operand} (h : m.run 0 .empty f = .ok stack) :
    ∀ o ∈ stack.entries, o.Obeys rule := by
  refine forall_entries_of_run h fun before t after operands operand hf hfinds hmade hoperands => ?_
  refine hmade.obeys hfunctions hsource (fun info haction haccepts => ?_) hoperands
  exact hadmits _ _ ⟨before, t, after, info, operands, hf, hfinds, haction, haccepts, rfl, rfl⟩
    (obeys_arguments hsource info hoperands)

theorem obeys_result (hsource : m.source.Obeys rule) {o : Operand} (ho : o.Obeys rule) :
    (m.result o).Obeys rule := by
  have hvalue := obeys_operandValue hsource ho
  rw [result]
  split
  · exact Value.obeys_of_isPlain trivial
  · exact hvalue.normalize

/-- At the end of a formula nothing is left out. -/
theorem result_ne_missing (m : Machine) (o : Operand) : m.result o ≠ .missing := by
  rw [result]
  split
  · simp
  · next hgiven => exact Value.normalize_ne_missing hgiven

/-- **So does the value of the formula**, and it is not one that was left out. -/
theorem obeys_of_evaluate (hfunctions : m.functions = .builtin) (hsource : m.source.Obeys rule)
    {f : Formula} (hadmits : ∀ index args, m.Calls f index args → (∀ v ∈ args, v.Obeys rule) →
      rule.Admits index args)
    {v : Value} (h : m.evaluate f = .ok v) : v.Obeys rule ∧ v ≠ .missing := by
  obtain ⟨stack, operand, hrun, hoperand, rfl⟩ := exists_entry_of_evaluate h
  have hobeys := obeys_of_run hfunctions hsource hadmits hrun operand hoperand
  exact ⟨obeys_result hsource hobeys, m.result_ne_missing operand⟩

end Machine

end CellFormula
