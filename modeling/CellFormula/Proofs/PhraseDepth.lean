import CellFormula.Formula.Text
import CellFormula.Proofs.StackEntries
import Mathlib.Tactic.MkIffOfInductiveProp

/-!
# The depth of the stack of phrases

A formula is written out by a walk through its tokens with a stack of phrases, and it is evaluated
by a walk with a stack of operands. The two have nothing in common but what a token asks of its
stack, and that is enough: after any tokens they have the same depth, so a formula that is a program
for one of them is one for the other.

## Where they part

Writing knows no limit on the depth and needs no implementations, so an evaluation may still fail
for want of either. And only the text cares for parentheses, which enclose the last phrase: they
need one to be there, while an evaluation passes over them. So a formula that begins with
parentheses may have a value and has no text.

## Main definitions

* `Action.phraseCount` — how many phrases are taken off the stack
* `Token.phraseStep`, `Formula.textCheck` — writing that only counts
* `Token.Writable` — a token that can be written out at a depth

## Main results

* `Labels.step_depth`, `Formula.text_check` — counting meets the same failures
* `Formula.exists_text_eq_ok_iff` — when there is a text
* `Formula.text_agrees` — what has a text can be evaluated, and the other way round
-/

namespace CellFormula

open Worksheet (FunctionInfo)

/-! ### Counting phrases -/

/-- How many phrases are taken off the stack. Parentheses take the one that they enclose. -/
def Action.phraseCount : Action → Nat
  | .enclose => 1
  | other => other.operandCount

namespace Token

/-- The depth after the token at a place in the formula is written out. -/
def phraseStep (index : Nat) (t : Token) (depth : Nat) : Except StackFault Nat :=
  match t.action with
  | .unresolved => .error (.unresolved index)
  | .unknownFunction function => .error (.unknownFunction index function)
  | action =>
    if depth < action.phraseCount then
      .error (.underflow index t.opcode action.phraseCount depth)
    else .ok (t.depthAfter depth)

/-- The token can be written out at this depth. -/
@[mk_iff] structure Writable (t : Token) (depth : Nat) : Prop where
  /-- Its phrases are there. -/
  phrases : t.action.phraseCount ≤ depth
  /-- It does not stand for the formula of another cell. -/
  resolved : t.action ≠ .unresolved
  /-- It does not call a function that is not in the catalogue. -/
  known : ∀ function, t.action ≠ .unknownFunction function

end Token

/-- What keeps a formula from having a text, if anything does. -/
def Formula.textCheck (f : Formula) : Except StackFault Unit :=
  (walk Token.phraseStep 0 0 f).bind fun depth =>
    if depth = 1 then .ok () else .error (.notSingular depth)

/-! ### Writing and its count -/

namespace Labels

variable (labels : Labels)

/-- An action that takes phrases fails when they are missing, and else leaves one in their place. -/
theorem map_operands (index : Nat) (t : Token) (stack : Stack Phrase) (count : Nat)
    (write : List Phrase → Phrase) :
    ((stack.operands index t count).bind fun (taken, below) =>
        Except.ok (below.push (write taken))).map Stack.depth
      = if stack.depth < count then .error (.underflow index t.opcode count stack.depth)
        else .ok (stack.depth - count + 1) := by
  by_cases hfew : stack.depth < count
  · rw [if_pos hfew, Stack.operands_of_lt hfew]
    rfl
  · rw [if_neg hfew]
    obtain ⟨taken, below, rfl, rfl⟩ := Stack.exists_pushAll (Nat.not_lt.mp hfew)
    rw [Stack.operands_pushAll, Stack.depth_pushAll, Nat.add_sub_cancel_left]
    rfl

/-- **Writing a token does to the depth what counting says**, failures included. -/
theorem step_depth (index : Nat) (t : Token) (stack : Stack Phrase) :
    (labels.step index t stack).map Stack.depth = t.phraseStep index stack.depth := by
  rw [step, Token.phraseStep, Token.depthAfter]
  cases haction : t.action with
  | enclose =>
    refine (map_operands index t stack 1 .ofEnclosed).trans ?_
    -- The phrase in parentheses takes the place of the one without.
    cases stack.depth with
    | zero => rfl
    | succ depth => rfl
  | combine op => exact map_operands index t stack op.arity (.ofOperator op)
  | call info count => exact map_operands index t stack count (.ofCall info)
  | _ => rfl

end Labels

namespace Formula

/-- The text of a formula is a walk from the empty stack and a look at what it leaves. -/
theorem text_eq (f : Formula) (labels : Labels) :
    f.text labels = (walk labels.step 0 .empty f).bind fun stack =>
      match stack.only? with
      | some p => .ok p.text
      | none => .error (.notSingular stack.depth) := rfl

/-- **Counting meets the failures of writing**, and no others. -/
theorem text_check (f : Formula) (labels : Labels) :
    (f.text labels).map (fun _ => ()) = f.textCheck := by
  have hwalk : (walk labels.step 0 .empty f).map Stack.depth = walk Token.phraseStep 0 0 f :=
    walk_map Stack.depth labels.step_depth 0 .empty f
  rw [textCheck, text_eq, ← hwalk]
  cases walk labels.step 0 .empty f with
  | error e => rfl
  | ok stack =>
    obtain ⟨phrase, honly, hdepth⟩ | ⟨honly, hdepth⟩ := stack.only?_cases
    · simp [Except.map, Except.bind, honly, hdepth]
    · simp [Except.map, Except.bind, honly, hdepth]

end Formula

/-! ### When there is a text -/

/-- **A token is written out exactly when it can be**, and then it does to the depth what its counts
say. -/
theorem Token.phraseStep_eq_ok_iff {t : Token} {index depth next : Nat} :
    t.phraseStep index depth = .ok next ↔ t.Writable depth ∧ t.depthAfter depth = next := by
  -- Of an action that may take phrases, only their number matters.
  have htaken {count : Nat} {fault : StackFault} :
      (if depth < count then .error fault else .ok (t.depthAfter depth)) = Except.ok next ↔
        count ≤ depth ∧ t.depthAfter depth = next := by
    by_cases hfew : depth < count
    · simp [hfew, Nat.not_le.mpr hfew]
    · simp [hfew, Nat.not_lt.mp hfew]
  rw [phraseStep, writable_iff]
  cases t.action <;> simp [htaken]

namespace Formula

/-- Every token of the formula can be written out where it stands, beginning at a depth. -/
def WritableAll (f : Formula) (depth : Nat) : Prop :=
  ∀ before t after, f = before ++ t :: after → t.Writable (depthAfter before depth)

/-- **A formula has a text exactly when each token can be written out** where it stands and one
phrase is left at the end. -/
theorem exists_text_eq_ok_iff {f : Formula} {labels : Labels} :
    (∃ s, f.text labels = .ok s) ↔ f.WritableAll 0 ∧ f.depthAfter 0 = 1 := by
  have hcheck : (∃ s, f.text labels = .ok s) ↔ f.textCheck = .ok () := by
    rw [← f.text_check labels]
    cases f.text labels <;> simp [Except.map]
  rw [hcheck, textCheck, count_eq_ok_iff]
  exact walk_depth_eq_ok_iff fun _ _ _ _ => Token.phraseStep_eq_ok_iff

end Formula

/-! ### Writing and evaluating -/

theorem Action.operandCount_le_phraseCount (a : Action) : a.operandCount ≤ a.phraseCount := by
  cases a with
  | enclose => exact Nat.zero_le _
  | _ => exact Nat.le_refl _

theorem Action.ofCall_ne_enclose (index : UInt16) (count : FunctionInfo → Nat) :
    ofCall index count ≠ .enclose := by
  rw [ofCall]
  split <;> simp

/-- Only parentheses take a phrase and no operand. -/
theorem Token.phraseCount_eq {t : Token} (h : t ≠ .paren) :
    t.action.phraseCount = t.action.operandCount := by
  have hother : t.action ≠ .enclose := by
    cases t with
    | paren => exact absurd rfl h
    | hint a =>
      rw [action]
      split
      · exact Action.ofCall_ne_enclose _ _
      · simp
    | call c cls => exact Action.ofCall_ne_enclose _ _
    | _ => simp [action]
  cases haction : t.action with
  | enclose => exact absurd haction hother
  | _ => rfl

/-- What can be written out can be evaluated, but for the limit and missing implementations. -/
theorem Token.Writable.step_error {t : Token} {index depth : Nat} {r : DepthRules} {e : EvalError}
    (h : t.Writable depth) (hfails : r.step index t depth = .error e) :
    e = .overflow index r.limit ∨ ∃ function name, e = .notImplemented function name := by
  have hfits : t.action.operandCount ≤ depth :=
    Nat.le_trans t.action.operandCount_le_phraseCount h.phrases
  have hpushed {depth : Nat} (hfails : r.pushed index depth = .error e) :
      e = .overflow index r.limit := by
    rw [DepthRules.pushed] at hfails
    split at hfails
    · cases hfails
    · exact (Except.error.inj hfails).symm
  rw [DepthRules.step, if_neg (Nat.not_lt.mpr hfits)] at hfails
  cases haction : t.action with
  | put leaf =>
    rw [haction] at hfails
    exact .inl (hpushed hfails)
  | combine op =>
    rw [haction] at hfails
    exact .inl (hpushed hfails)
  | call info count =>
    rw [haction] at hfails
    simp only [DepthRules.called] at hfails
    split at hfails
    · exact .inr ⟨_, _, (Except.error.inj hfails).symm⟩
    · exact .inl (hpushed hfails)
  | pass => rw [haction] at hfails; cases hfails
  | enclose => rw [haction] at hfails; cases hfails
  | unresolved => exact absurd haction h.resolved
  | unknownFunction function => exact absurd haction (h.known function)

namespace Machine

variable {m : Machine} {f : Formula}

/-- No parentheses are reached with an empty stack. -/
def EnclosesEntries (m : Machine) (f : Formula) : Prop :=
  ∀ before after, f = before ++ .paren :: after → m.run 0 .empty before ≠ .ok .empty

/-- A formula that can be written out fails only for want of room or of an implementation. -/
theorem evaluate_error_of_writableAll (hwritable : f.WritableAll 0) (hone : f.depthAfter 0 = 1)
    {e : EvalError} (hfails : m.evaluate f = .error e) :
    (∃ index, e = .overflow index m.limits.stackDepth) ∨
      ∃ function name, e = .notImplemented function name := by
  rw [evaluate_eq_error_iff, DepthRules.check] at hfails
  obtain ⟨before, t, after, depth, hf, hbefore, hstep⟩ | ⟨depth, hwalk, hmany, -⟩ :=
    exists_of_count_eq_error hfails
  · obtain ⟨-, rfl⟩ := DepthRules.walk_eq_ok_iff.mp hbefore
    exact ((hwritable before t after hf).step_error hstep).imp_left fun h => ⟨_, h⟩
  · obtain ⟨-, rfl⟩ := DepthRules.walk_eq_ok_iff.mp hwalk
    exact absurd hone hmany

/-- Of a formula that is gone through, the tokens can be written out exactly when no parentheses are
reached with an empty stack. -/
theorem writableAll_iff {stack : Stack Operand} (hrun : m.run 0 .empty f = .ok stack) :
    f.WritableAll 0 ↔ m.EnclosesEntries f := by
  have hdepth {before : Formula} {reached : Stack Operand}
      (h : m.run 0 .empty before = .ok reached) : before.depthAfter 0 = reached.depth :=
    (admitsAll_of_run h).2
  constructor
  · intro hwritable before after hf hempty
    have hphrase : 1 ≤ before.depthAfter 0 := (hwritable before .paren after hf).phrases
    rw [hdepth hempty] at hphrase
    exact absurd hphrase (by decide)
  · intro hencloses before t after hf
    obtain ⟨hoperands, -, hresolved, hknown, -⟩ := (admitsAll_of_run hrun).1 before t after hf
    refine ⟨?_, hresolved, hknown⟩
    by_cases hparen : t = .paren
    · subst hparen
      rw [hf] at hrun
      obtain ⟨reached, hbefore, -⟩ := walk_append_eq_ok_iff.mp hrun
      rw [hdepth hbefore]
      refine Nat.pos_of_ne_zero fun hzero => hencloses before after hf ?_
      obtain rfl := Stack.eq_empty hzero
      exact hbefore
    · rw [t.phraseCount_eq hparen]
      exact hoperands

end Machine

/-- **Writing and evaluating agree on what is a formula.** What has a text has a value, unless the
limit is met or an implementation is missing. What has a value has a text exactly when no
parentheses are reached with an empty stack. -/
theorem Formula.text_agrees (f : Formula) (labels : Labels) :
    (∀ s, f.text labels = .ok s → ∀ m : Machine,
      (∃ v, m.evaluate f = .ok v) ∨
      (∃ index, m.evaluate f = .error (.overflow index m.limits.stackDepth)) ∨
      ∃ function name, m.evaluate f = .error (.notImplemented function name)) ∧
    ∀ (m : Machine) (v : Value), m.evaluate f = .ok v →
      ((∃ s, f.text labels = .ok s) ↔ m.EnclosesEntries f) := by
  constructor
  · intro s htext m
    obtain ⟨hwritable, hone⟩ := exists_text_eq_ok_iff.mp ⟨s, htext⟩
    cases hvalue : m.evaluate f with
    | ok v => exact .inl ⟨v, rfl⟩
    | error e =>
      obtain ⟨index, rfl⟩ | ⟨function, name, rfl⟩ :=
        Machine.evaluate_error_of_writableAll hwritable hone hvalue
      · exact .inr (.inl ⟨index, rfl⟩)
      · exact .inr (.inr ⟨function, name, rfl⟩)
  · intro m v hvalue
    obtain ⟨stack, operand, hrun, -, -⟩ := Machine.exists_entry_of_evaluate hvalue
    have hone : f.depthAfter 0 = 1 := (DepthRules.check_eq_ok_iff.mp
      (Machine.exists_evaluate_eq_ok_iff.mp ⟨v, hvalue⟩)).2
    rw [exists_text_eq_ok_iff, Machine.writableAll_iff hrun]
    exact and_iff_left hone

/-- The sum of a constant in parentheses has a text, and so a value. Parentheses before a constant
leave its value as it is and keep it from having a text. -/
theorem Formula.text_agrees_parentheses :
    let m : Machine :=
      ⟨.ofCells fun _ _ _ => .blank, .origin, .standard,
        ⟨[(4, ⟨true, fun _ _ => Value.blank⟩)]⟩⟩
    let sum : Formula := [.literal (.boolean true), .paren, .hint .sum]
    let constant : Formula := [.paren, .literal (.boolean true)]
    sum.text .numbered = .ok "SUM((TRUE))" ∧ (∃ v, m.evaluate sum = .ok v) ∧
      (∃ v, m.evaluate constant = .ok v) ∧ ¬ ∃ s, constant.text .numbered = .ok s := by
  intro m sum constant
  have htext : sum.text .numbered = .ok "SUM((TRUE))" := by rfl
  have hcheck : m.depthRules.check sum = .ok () := by rfl
  have hconstant : m.evaluate constant = .ok (.boolean true) := by rfl
  refine ⟨htext, ?_, ⟨_, hconstant⟩, ?_⟩
  · obtain hvalue | ⟨index, hfull⟩ | ⟨function, name, hmissing⟩ :=
      (text_agrees sum .numbered).1 _ htext m
    · exact hvalue
    · rw [Machine.evaluate_eq_error_iff, hcheck] at hfull
      cases hfull
    · rw [Machine.evaluate_eq_error_iff, hcheck] at hmissing
      cases hmissing
  · rw [(text_agrees constant .numbered).2 m _ hconstant]
    exact fun hencloses => hencloses [] [.literal (.boolean true)] rfl rfl

end CellFormula
