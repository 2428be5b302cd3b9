import CellFormula.Proofs.RelabelledFailures
import Mathlib.Data.List.Forall2

/-!
# Results do not depend on operand classes

The class of a token says how whoever stored the formula wanted its value. Neither an evaluation nor
the text looks at it: what a call reads whole is decided by the catalogue. So two formulas that
differ in classes only have the same value and the same text, or they fail alike.

## The one trace that a class leaves

A class is part of the opcode, and a token that finds too few entries on the stack is reported with
its opcode. That is the only place where the two failures can differ, and nothing of it is lost:
`StackFault.reported` puts the opcode of the one formula in the place of the other's, and the
failures are equal after that.

## Tokens that ask for the same things

Nothing else is used of the two formulas than that their tokens ask for the same things, one by one
(`Formula.SameActions`). A class is one way in which such tokens can differ.

## Main definitions

* `Formula.reclassed` — the formula with a class for each token
* `StackFault.reported`, `EvalError.reported` — a failure with the opcode that another formula has
* `Formula.SameActions` — formulas whose tokens ask for the same things

## Main results

* `walk_sameActions` — all tokens
* `Machine.evaluate_sameActions`, `Formula.text_sameActions` — values, texts and failures agree
* `Formula.same_outcomes_reclassed` — so they do whatever the classes are
-/

namespace CellFormula

/-! ### Classes and failures -/

/-- The formula with a class for each token, given by the token's place. Tokens without a class stay
as they are. -/
def Formula.reclassed (f : Formula) (classes : Nat → OperandClass) : Formula :=
  f.mapIdx fun index t => t.withClass (classes index)

theorem Formula.forall₂_reclassed {related : Token → Token → Prop} (f : Formula)
    (classes : Nat → OperandClass)
    (h : ∀ (t : Token) (cls : OperandClass), related t (t.withClass cls)) :
    List.Forall₂ related f (f.reclassed classes) := by
  induction f generalizing classes with
  | nil => exact .nil
  | cons t f ih =>
    rw [reclassed, List.mapIdx_cons]
    exact .cons (h t _) (ih _)

/-- The fault, with the opcode that the token at its place has in `f`. -/
def StackFault.reported (f : Formula) : StackFault → StackFault
  | underflow index opcode needed available =>
    underflow index ((f[index]?.map Token.opcode).getD opcode) needed available
  | fault => fault

/-- The failure, with the opcode that the token at its place has in `f`. -/
def EvalError.reported (f : Formula) : EvalError → EvalError
  | stack fault => stack (fault.reported f)
  | e => e

/-- The opcode that the token at a place has in `f`. Where `f` has no token it is the given one. -/
def Formula.opcodeAt (f : Formula) (index : Nat) (opcode : UInt8) : UInt8 :=
  (f[index]?.map Token.opcode).getD opcode

theorem Formula.opcodeAt_of_getElem? {f : Formula} {index : Nat} {t : Token}
    (h : f[index]? = some t) (opcode : UInt8) : t.opcode = f.opcodeAt index opcode := by
  rw [opcodeAt, h]
  rfl

/-- A fault is reported at its own place, with another opcode. -/
theorem StackFault.reported_eq_relabelled (f : Formula) :
    reported f = relabelled id f.opcodeAt := by
  funext fault
  cases fault <;> rfl

theorem EvalError.reported_eq_relabelled (f : Formula) :
    reported f = relabelled id f.opcodeAt := by
  funext e
  cases e with
  | stack fault => exact congrArg (stack <| · fault) (StackFault.reported_eq_relabelled f)
  | _ => rfl

/-! ### Tokens that ask for the same things -/

/-- The tokens ask for the same things, one by one. -/
def Formula.SameActions (f g : Formula) : Prop :=
  List.Forall₂ (fun t u => u.action = t.action) f g

/-- **A walk through a formula that asks for the same things** ends alike if its steps do. -/
theorem walk_sameActions {ε σ : Type} {step : Nat → Token → σ → Except ε σ} {reported : ε → ε}
    {g : Formula}
    (hstep : ∀ (index : Nat) (t u : Token) (state : σ), u.action = t.action →
      g[index]? = some u → step index u state = (step index t state).mapError reported)
    {rest rest' : Formula} (hrest : rest.SameActions rest') (index : Nat) (state : σ)
    (hplaces : ∀ place, rest'[place]? = g[index + place]?) :
    walk step index state rest' = (walk step index state rest).mapError reported := by
  induction hrest generalizing index state with
  | nil => rfl
  | @cons t u rest rest' haction _ ih =>
    rw [walk, walk, hstep index t u state haction (hplaces 0).symm]
    cases step index t state with
    | error e => rfl
    | ok next =>
      refine ih (index + 1) next fun place => ?_
      rw [Nat.add_right_comm]
      exact hplaces (place + 1)

section

variable {f g : Formula} (h : f.SameActions g)
include h

theorem Machine.evaluate_sameActions (m : Machine) :
    m.evaluate g = (m.evaluate f).mapError (EvalError.reported g) := by
  rw [EvalError.reported_eq_relabelled]
  exact evaluate_relabelled <| walk_sameActions
    (fun _ _ _ stack haction hu =>
      m.step_relabelled haction (Formula.opcodeAt_of_getElem? hu _) stack)
    h 0 .empty fun place => by rw [Nat.zero_add]

theorem Formula.text_sameActions (labels : Labels) :
    g.text labels = (f.text labels).mapError (StackFault.reported g) := by
  rw [StackFault.reported_eq_relabelled]
  exact text_relabelled <| walk_sameActions
    (fun _ _ _ stack haction hu =>
      labels.step_relabelled haction (opcodeAt_of_getElem? hu _) stack)
    h 0 .empty fun place => by rw [Nat.zero_add]

end

namespace Formula

variable (f : Formula) (classes : Nat → OperandClass)

theorem sameActions_reclassed : f.SameActions (f.reclassed classes) :=
  f.forall₂_reclassed classes Token.action_withClass

theorem evaluate_reclassed (m : Machine) :
    m.evaluate (f.reclassed classes)
      = (m.evaluate f).mapError (EvalError.reported (f.reclassed classes)) :=
  m.evaluate_sameActions (f.sameActions_reclassed classes)

theorem text_reclassed (labels : Labels) :
    (f.reclassed classes).text labels
      = (f.text labels).mapError (StackFault.reported (f.reclassed classes)) :=
  text_sameActions (f.sameActions_reclassed classes) labels

/-- **Operand classes do not change results.** Give the tokens any classes: the formula has the same
values and the same texts, for every machine and all labels. Its failures are those that it had, at
the same tokens, except that a token that lacks operands is named by the opcode of its new class. -/
theorem same_outcomes_reclassed (m : Machine) (labels : Labels) :
    let g := f.reclassed classes
    (∀ v, m.evaluate g = .ok v ↔ m.evaluate f = .ok v) ∧
      (∀ e, m.evaluate g = .error e ↔ ∃ e', m.evaluate f = .error e' ∧ e = e'.reported g) ∧
      (∀ s, g.text labels = .ok s ↔ f.text labels = .ok s) ∧
      ∀ e, g.text labels = .error e ↔ ∃ e', f.text labels = .error e' ∧ e = e'.reported g := by
  intro g
  rw [f.evaluate_reclassed classes m, f.text_reclassed classes labels]
  exact ⟨fun v => mapError_eq_ok_iff, fun e => mapError_eq_error_iff, fun s => mapError_eq_ok_iff,
    fun e => mapError_eq_error_iff⟩

/-- The trace of a class: a sum without its argument, wanted as a value and as an array. -/
example (labels : Labels) :
    (text [.call (.counted 4 1 false false) .value] labels,
        text [.call (.counted 4 1 false false) .array] labels)
      = (.error (.underflow 0 0x42 1 0), .error (.underflow 0 0x62 1 0)) := rfl

end Formula

end CellFormula
