import CellFormula.Proofs.SelfContained
import Mathlib.Data.List.Induction

/-!
# What holds of all entries of the operand stack

A token puts at most one entry on the stack, and it makes that entry of the operands it takes. So a
property of operands holds of all entries, after any number of tokens, as soon as what a token makes
has it whenever its operands do.

## What a token finds

A token may make an entry without the property from operands that have it, and still do no harm,
because no run brings such operands to it. `Machine.Finds` says which operands a token takes when it
is reached, and the property has to be kept for those only.

## Main definitions

* `Machine.Finds` — the operands that lie on top of the stack after some tokens
* `Machine.Reaches` — the calls that an evaluation gets to

## Main results

* `Machine.referenceOperand_cases`, `Machine.applyFunction_cases` — what references and calls make
* `Machine.run_concat`, `Machine.exists_of_run_concat` — a run to which one token is added
* `Machine.exists_pushes_of_run`, `Machine.Finds.exists_pushes` — entries are pushed by parts of the
  formula
* `Machine.forall_entries_of_step`, `Machine.forall_entries_of_run` — what tokens keep
* `Machine.exists_entry_of_evaluate` — a value comes from an entry
-/

namespace CellFormula.Machine

open Worksheet (FunctionInfo)

variable {m : Machine} {P : Operand → Prop}

/-! ### What a token makes -/

/-- A reference is an error or one range with its corners put in order. -/
theorem referenceOperand_cases (m : Machine) (r : Reference) :
    (∃ kind, m.referenceOperand r = .error kind) ∨
      ∃ sheet row col row' col',
        m.referenceOperand r = .range (.spanning sheet row col row' col') := by
  cases r with
  | cell | area => exact .inr ⟨_, _, _, _, _, rfl⟩
  | sharedCell | sharedArea =>
    rw [referenceOperand]
    split
    · exact .inr ⟨_, _, _, _, _, rfl⟩
    · exact .inl ⟨_, rfl⟩
  | sheetCell | sheetArea =>
    rw [referenceOperand, onSheet]
    split
    · exact .inr ⟨_, _, _, _, _, rfl⟩
    · exact .inl ⟨_, rfl⟩
  | cellGone | areaGone | sheetCellGone | sheetAreaGone => exact .inl ⟨_, rfl⟩

/-- A call that yields an operand yields an error, or it has an accepted number of operands and
yields what the bound function computes. -/
theorem applyFunction_cases {info : FunctionInfo} {operands : List Operand} {operand : Operand}
    (h : m.applyFunction info operands = .ok operand) :
    (∃ kind, operand = .error kind) ∨
      info.accepts operands.length = true ∧ ∃ f, m.functions.find? info.index = some f ∧
        operand = .value (m.callValue info f (m.arguments info operands)) := by
  rw [applyFunction] at h
  split at h
  · exact .inl ⟨_, (Except.ok.inj h).symm⟩
  · next haccepts =>
    split at h
    · exact .inl ⟨_, (Except.ok.inj h).symm⟩
    · split at h
      · next f hbound =>
        exact .inr ⟨by simpa using haccepts, f, hbound, (Except.ok.inj h).symm⟩
      · cases h

/-! ### What a token finds -/

/-- After these tokens the operands are the last entries of the stack. -/
def Finds (m : Machine) (before : Formula) (operands : List Operand) : Prop :=
  ∃ below : Stack Operand, m.run 0 .empty before = .ok (below.pushAll operands)

/-- While the formula is evaluated, the function is called on these operands. -/
def Reaches (m : Machine) (f : Formula) (info : FunctionInfo) (operands : List Operand) : Prop :=
  ∃ before t after, f = before ++ t :: after ∧ t.action = .call info operands.length ∧
    m.Finds before operands

/-- Of so many operands a token finds only these. -/
theorem Finds.unique {before : Formula} {operands operands' : List Operand}
    (h : m.Finds before operands) (h' : m.Finds before operands')
    (hlength : operands.length = operands'.length) : operands = operands' := by
  obtain ⟨below, hrun⟩ := h
  obtain ⟨below', hrun'⟩ := h'
  have hstack := Except.ok.inj (hrun.symm.trans hrun')
  have hentries := congrArg Stack.entries hstack
  rw [Stack.entries_pushAll, Stack.entries_pushAll] at hentries
  exact List.reverse_injective (List.append_inj_left hentries (by simp [hlength]))

/-- After a formula that pushes an operand, that is what is found. -/
theorem Pushes.finds {f : Formula} {operand : Operand} (h : m.Pushes f operand)
    (hroom : f.peak 0 ≤ m.limits.stackDepth) : m.Finds f [operand] :=
  ⟨.empty, h.run_eq 0 .empty hroom⟩

/-- A walk to which one token is added is the walk, and then that token. -/
theorem walk_concat {ε σ : Type} (step : Nat → Token → σ → Except ε σ) (index : Nat) (state : σ)
    (f : Formula) (t : Token) :
    walk step index state (f ++ [t])
      = (walk step index state f).bind fun next => step (index + f.length) t next := by
  rw [walk_append]
  refine congrArg _ (funext fun next => ?_)
  rw [walk]
  cases step (index + f.length) t next <;> rfl

theorem run_concat (m : Machine) (index : Nat) (stack : Stack Operand) (f : Formula) (t : Token) :
    m.run index stack (f ++ [t])
      = (m.run index stack f).bind fun next => m.step (index + f.length) t next :=
  walk_concat m.step index stack f t

/-- What such a run leaves is what the token makes of what the run leaves without it. -/
theorem exists_of_run_concat {index : Nat} {stack stack' : Stack Operand} {f : Formula} {t : Token}
    (h : m.run index stack (f ++ [t]) = .ok stack') :
    ∃ next, m.run index stack f = .ok next ∧ m.step (index + f.length) t next = .ok stack' := by
  rw [run_concat] at h
  cases hrun : m.run index stack f with
  | error e => rw [hrun] at h; cases h
  | ok next => rw [hrun] at h; exact ⟨next, rfl, h⟩

/-! ### Where entries come from -/

/-- A token that does nothing to any stack does not change the depth. -/
theorem depthAfter_of_pass {t : Token}
    (h : ∀ index stack, m.step index t stack = .ok stack) (depth : Nat) :
    t.depthAfter depth = depth := by
  have hcount := m.step_depth 0 t .empty
  rw [h] at hcount
  obtain ⟨hadmits, hdepth⟩ := DepthRules.step_eq_ok_iff.mp hcount.symm
  have htakes : t.action.operandCount ≤ 0 := hadmits.operands
  have hgives : 0 - t.action.operandCount + t.action.resultCount = 0 := hdepth
  rw [Token.depthAfter]
  omega

/-- A token that does nothing may follow a formula that pushes an operand. -/
theorem Pushes.append_pass {f : Formula} {operand : Operand} (h : m.Pushes f operand) {t : Token}
    (hpass : ∀ index stack, m.step index t stack = .ok stack) : m.Pushes (f ++ [t]) operand where
  run_eq index below hroom := by
    rw [Formula.peak_append] at hroom
    rw [run_concat, h.run_eq index below (Nat.max_le.mp hroom).1]
    exact hpass _ _
  depthAfter_eq depth := by
    rw [Formula.depthAfter_append, h.depthAfter_eq, Formula.depthAfter_cons,
      depthAfter_of_pass hpass]
    rfl

/-- The parts that the last entries go with stand at the end. -/
theorem exists_last_parts {α : Type} {R : Formula → α → Prop} {parts : List Formula}
    {taken below : List α} (h : List.Forall₂ R parts (taken.reverse ++ below)) :
    ∃ rest fs, parts.reverse.flatten = rest.reverse.flatten ++ fs.flatten ∧
      List.Forall₂ R rest below ∧ List.Forall₂ R fs taken := by
  have htaken := List.forall₂_reverse_iff.mpr (List.forall₂_take_append parts _ _ h)
  have hrest := List.forall₂_drop_append parts _ _ h
  rw [List.reverse_reverse] at htaken
  refine ⟨_, _, ?_, hrest, htaken⟩
  rw [← List.flatten_append, ← List.reverse_append, List.take_append_drop]

/-- **Every entry was pushed by a part of the formula**, and the parts stand one after the other.
The entries come last one first here, and so do the parts. -/
theorem exists_pushes_of_run {f : Formula} {stack : Stack Operand}
    (h : m.run 0 .empty f = .ok stack) :
    ∃ lead parts, f = lead ++ parts.reverse.flatten ∧
      List.Forall₂ m.Pushes parts stack.entries := by
  induction f using List.reverseRecOn generalizing stack with
  | nil => cases h; exact ⟨[], [], rfl, .nil⟩
  | append_singleton f t ih =>
    obtain ⟨next, hrun, hstep⟩ := exists_of_run_concat h
    obtain ⟨lead, parts, rfl, hparts⟩ := ih hrun
    obtain ⟨hpass, rfl⟩ | ⟨operands, operand, below, hmade, rfl, -, rfl⟩ := step_cases hstep
    · -- A token that does nothing belongs to the part before it.
      generalize stack.entries = entries at hparts ⊢
      cases hparts with
      | nil => exact ⟨lead ++ [t], [], by simp, .nil⟩
      | @cons part operand parts operands hpart hparts =>
        exact ⟨lead, (part ++ [t]) :: parts, by simp, .cons (hpart.append_pass hpass) hparts⟩
    · -- A token that makes an entry makes one part of those that it takes operands from.
      obtain ⟨rest, fs, hsplit, hrest, hfs⟩ := exists_last_parts hparts
      refine ⟨lead, (fs.flatten ++ [t]) :: rest, ?_, .cons (.node hfs hmade) hrest⟩
      rw [hsplit]
      simp

/-- An entry of the stack is pushed by a part of the formula. -/
theorem exists_part_of_run {f : Formula} {stack : Stack Operand}
    (h : m.run 0 .empty f = .ok stack) {o : Operand} (ho : o ∈ stack.entries) :
    ∃ part, part <:+: f ∧ m.Pushes part o := by
  obtain ⟨lead, parts, rfl, hparts⟩ := exists_pushes_of_run h
  obtain ⟨part, hpart, hpushes⟩ : ∃ part ∈ parts, m.Pushes part o := by
    clear h
    generalize stack.entries = entries at ho hparts
    induction hparts with
    | nil => cases ho
    | cons hpush _ ih =>
      obtain rfl | ho := List.mem_cons.mp ho
      · exact ⟨_, List.mem_cons_self .., hpush⟩
      · obtain ⟨part, hpart, hpushes⟩ := ih ho
        exact ⟨part, List.mem_cons_of_mem _ hpart, hpushes⟩
  have hflatten : part <:+: parts.reverse.flatten :=
    List.infix_of_mem_flatten (List.mem_reverse.mpr hpart)
  exact ⟨part, hflatten.trans (List.suffix_append _ _).isInfix, hpushes⟩

/-- Whatever a part of the formula pushes is found after that part alone. -/
theorem Pushes.run_of_part {f part : Formula} {o : Operand} (h : m.Pushes part o)
    (hpart : part <:+: f) {stack : Stack Operand} (hrun : m.run 0 .empty f = .ok stack) :
    m.run 0 .empty part = .ok (Stack.empty.push o) := by
  obtain ⟨hadmits, -⟩ := admitsAll_of_run hrun
  exact h.run_eq 0 .empty
    (Nat.le_trans (Formula.peak_le_of_part hpart) (hadmits.peak_le (Nat.zero_le _)))

/-- **What a token finds was pushed by the parts of the formula before it.** -/
theorem Finds.exists_pushes {before : Formula} {operands : List Operand}
    (h : m.Finds before operands) :
    ∃ lead fs, before = lead ++ fs.flatten ∧ List.Forall₂ m.Pushes fs operands := by
  obtain ⟨below, hrun⟩ := h
  obtain ⟨lead, parts, rfl, hparts⟩ := exists_pushes_of_run hrun
  obtain ⟨rest, fs, hsplit, -, hfs⟩ := exists_last_parts hparts
  exact ⟨lead ++ rest.reverse.flatten, fs, by rw [hsplit, List.append_assoc], hfs⟩

/-! ### Properties that tokens keep -/

/-- **A token keeps a property of all entries** if what it makes has it. -/
theorem forall_entries_of_step {index : Nat} {t : Token} {stack stack' : Stack Operand}
    (h : m.step index t stack = .ok stack') (hstack : ∀ o ∈ stack.entries, P o)
    (hmakes : ∀ (below : Stack Operand) (operands : List Operand) (operand : Operand),
      stack = below.pushAll operands → m.Makes t.action operands operand →
      (∀ o ∈ operands, P o) → P operand) :
    ∀ o ∈ stack'.entries, P o := by
  obtain ⟨-, rfl⟩ | ⟨operands, operand, below, hmade, rfl, -, rfl⟩ := step_cases h
  · exact hstack
  · rw [Stack.entries_pushAll, List.forall_mem_append] at hstack
    have hoperands : ∀ o ∈ operands, P o := fun o ho => hstack.1 o (List.mem_reverse.mpr ho)
    exact List.forall_mem_cons.mpr ⟨hmakes below operands operand rfl hmade hoperands, hstack.2⟩

/-- **What every token keeps holds of all entries** that a run leaves. -/
theorem forall_entries_of_run {f : Formula} {stack : Stack Operand}
    (h : m.run 0 .empty f = .ok stack)
    (hmakes : ∀ before t after operands operand, f = before ++ t :: after →
      m.Finds before operands → m.Makes t.action operands operand →
      (∀ o ∈ operands, P o) → P operand) :
    ∀ o ∈ stack.entries, P o := by
  induction f using List.reverseRecOn generalizing stack with
  | nil => cases h; exact fun o ho => absurd ho List.not_mem_nil
  | append_singleton f t ih =>
    obtain ⟨next, hrun, hstep⟩ := exists_of_run_concat h
    have hnext : ∀ o ∈ next.entries, P o := by
      refine ih hrun fun before t' after operands operand hf => ?_
      exact hmakes before t' (after ++ [t]) operands operand (by rw [hf]; simp)
    refine forall_entries_of_step hstep hnext fun below operands operand htop => ?_
    exact hmakes f t [] operands operand rfl ⟨below, by rw [hrun, htop]⟩

/-- The value of a formula is what the entry stands for that its run leaves. -/
theorem exists_entry_of_evaluate {f : Formula} {v : Value} (h : m.evaluate f = .ok v) :
    ∃ stack operand, m.run 0 .empty f = .ok stack ∧ operand ∈ stack.entries ∧
      m.result operand = v := by
  rw [evaluate_eq] at h
  cases hrun : m.run 0 .empty f with
  | error e => rw [hrun] at h; cases h
  | ok stack =>
    simp only [hrun, Except.bind] at h
    cases honly : stack.only? with
    | none => rw [honly] at h; cases h
    | some operand =>
      rw [honly] at h
      cases h
      refine ⟨stack, operand, rfl, ?_, rfl⟩
      rw [Stack.only?_eq_some honly]
      exact List.mem_cons_self ..

end CellFormula.Machine
