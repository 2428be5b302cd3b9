import CellFormula.Evaluation.Machine
import CellFormula.Formula.Text

/-!
# Failures with other labels

A failure names its token by the place in the formula, and a token that finds too few entries by its
opcode as well. Nothing that happens depends on these labels. Two tokens that ask for the same thing
do the same to the stack, wherever they stand and however they are written, and where they fail, one
failure is the other with other labels.

So two formulas are compared through their walks: once these agree up to labels, the values and the
texts do.

## Main definitions

* `StackFault.relabelled`, `EvalError.relabelled` — a failure with other labels

## Main results

* `Machine.step_relabelled`, `Labels.step_relabelled` — one token in the place of another
* `Machine.evaluate_relabelled`, `Formula.text_relabelled` — from walks to values and texts
-/

namespace CellFormula

open Worksheet (FunctionInfo)

/-! ### Failures -/

/-- The fault with new places for the tokens, and with new opcodes. The new opcode may depend on the
old place. -/
def StackFault.relabelled (place : Nat → Nat) (opcode : Nat → UInt8 → UInt8) :
    StackFault → StackFault
  | underflow index code needed available =>
    underflow (place index) (opcode index code) needed available
  | notSingular depth => notSingular depth
  | unknownFunction index function => unknownFunction (place index) function
  | unresolved index => unresolved (place index)

/-- The failure with new places for the tokens, and with new opcodes. -/
def EvalError.relabelled (place : Nat → Nat) (opcode : Nat → UInt8 → UInt8) :
    EvalError → EvalError
  | stack fault => stack (fault.relabelled place opcode)
  | overflow index limit => overflow (place index) limit
  | notImplemented index name => notImplemented index name

section

variable {ε ε' α β : Type} {x : Except ε α}

theorem mapError_eq_ok_iff {φ : ε → ε'} {a : α} : x.mapError φ = .ok a ↔ x = .ok a := by
  cases x with
  | error e => exact iff_of_false nofun nofun
  | ok b =>
    constructor
    all_goals
      intro h
      cases h
      rfl

theorem mapError_eq_error_iff {φ : ε → ε'} {e' : ε'} :
    x.mapError φ = .error e' ↔ ∃ e, x = .error e ∧ e' = φ e := by
  cases x with
  | error e =>
    constructor
    · intro h
      cases h
      exact ⟨e, rfl, rfl⟩
    · rintro ⟨e, h, rfl⟩
      cases h
      rfl
  | ok a => exact iff_of_false nofun nofun

/-- A computation and what comes after it may have their errors replaced one after the other. -/
theorem mapError_bind {φ : ε → ε'} {next : α → Except ε β} {next' : α → Except ε' β}
    (h : ∀ a, next' a = (next a).mapError φ) :
    (x.mapError φ).bind next' = (x.bind next).mapError φ := by
  cases x with
  | error e => rfl
  | ok a => exact h a

end

/-! ### One token -/

section

variable {place : Nat → Nat} {opcode : Nat → UInt8 → UInt8} {index : Nat} {t u : Token}

/-- Operands are taken alike, and a lack of them is reported with the new labels. -/
theorem Stack.operands_relabelled {α : Type} (hopcode : u.opcode = opcode index t.opcode)
    (s : Stack α) (count : Nat) :
    s.operands (place index) u count
      = (s.operands index t count).mapError (StackFault.relabelled place opcode) := by
  rw [operands, operands, hopcode]
  cases s.take? count <;> rfl

/-- A fault of the stack is the same failure of an evaluation. -/
theorem EvalError.mapError_stack {α : Type} (x : Except StackFault α) :
    (x.mapError (StackFault.relabelled place opcode)).mapError stack
      = (x.mapError stack).mapError (relabelled place opcode) := by
  cases x <;> rfl

namespace Machine

variable (m : Machine)

/-- A stack that is full is reported at the new place. -/
theorem pushed_relabelled (stack : Stack Operand) (operand : Operand) :
    m.pushed (place index) stack operand
      = (m.pushed index stack operand).mapError (EvalError.relabelled place opcode) := by
  rw [pushed, pushed]
  split <;> rfl

/-- A function that nothing is bound to is reported without a label. -/
theorem applyFunction_relabelled (info : FunctionInfo) (operands : List Operand) :
    (m.applyFunction info operands).mapError (EvalError.relabelled place opcode)
      = m.applyFunction info operands := by
  rw [applyFunction]
  split
  · rfl
  · split
    · rfl
    · split <;> rfl

/-- **A token that asks for the same does the same to the stack.** -/
theorem step_relabelled (haction : u.action = t.action) (hopcode : u.opcode = opcode index t.opcode)
    (stack : Stack Operand) :
    m.step (place index) u stack
      = (m.step index t stack).mapError (EvalError.relabelled place opcode) := by
  rw [step, step, haction]
  cases t.action with
  | put leaf => exact m.pushed_relabelled stack _
  | combine op =>
    simp only [Stack.operands_relabelled hopcode, EvalError.mapError_stack]
    exact mapError_bind fun (_, below) => m.pushed_relabelled below _
  | call info count =>
    simp only [Stack.operands_relabelled hopcode, EvalError.mapError_stack]
    refine mapError_bind fun (operands, below) => ?_
    -- The failure of the call itself has no label, so it may be relabelled along with the others.
    refine Eq.trans ?_ (mapError_bind (m.pushed_relabelled below))
    rw [applyFunction_relabelled]
    rfl
  | _ => rfl

end Machine

/-- **A token that asks for the same does the same to the text.** -/
theorem Labels.step_relabelled (labels : Labels) (haction : u.action = t.action)
    (hopcode : u.opcode = opcode index t.opcode) (stack : Stack Phrase) :
    labels.step (place index) u stack
      = (labels.step index t stack).mapError (StackFault.relabelled place opcode) := by
  rw [step, step, haction]
  cases t.action with
  | enclose | combine op | call info count =>
    simp only [Stack.operands_relabelled hopcode]
    exact mapError_bind fun _ => rfl
  | _ => rfl

/-! ### Whole formulas -/

variable {f g : Formula}

/-- Values agree up to labels if the walks to them do. -/
theorem Machine.evaluate_relabelled {m : Machine}
    (h : m.run 0 .empty g = (m.run 0 .empty f).mapError (EvalError.relabelled place opcode)) :
    m.evaluate g = (m.evaluate f).mapError (EvalError.relabelled place opcode) := by
  rw [evaluate, evaluate, h]
  refine mapError_bind fun stack => ?_
  cases stack.only? <;> rfl

/-- Texts agree up to labels if the walks to them do. -/
theorem Formula.text_relabelled {labels : Labels}
    (h : walk labels.step 0 .empty g
      = (walk labels.step 0 .empty f).mapError (StackFault.relabelled place opcode)) :
    g.text labels = (f.text labels).mapError (StackFault.relabelled place opcode) := by
  rw [text, text, h]
  refine mapError_bind fun stack => ?_
  cases stack.only? <;> rfl

end

end CellFormula
