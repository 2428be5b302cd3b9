import CellFormula.Proofs.ClassIndependence

/-!
# Spellings of a call

There are three ways to store a call. The most common one, of a sum with one argument, has an
attribute of its own. A call of a function that always takes the same number of arguments need not
say how many there are. And a call that does say so can be had of every function. The first two are
short for the third (`Token.Spelled`), and nobody who evaluates a formula or writes it out can tell
them apart.

## What is deliberately absent

It does not matter whether the function can be called with so many arguments, or whether anything is
bound to it. The short spelling of a call that is wrong is short for a call that is wrong in the
same way. Nor does it matter what the arguments are, or if there are any.

## Main definitions

* `Token.Spelled` — what a call is short for

## Main results

* `Worksheet.toNat_minArguments` — a call can carry the number that it need not say
* `Token.Spelled.action` — what is asked for is the same
* `Formula.same_outcomes_spelled` — values, texts and failures are the same
-/

namespace CellFormula

open Worksheet (FunctionInfo functionAt?)

/-- The number of arguments that a function takes at least fits into a call. -/
theorem Worksheet.toNat_minArguments {index : UInt16} {info : FunctionInfo}
    (h : functionAt? index = some info) : info.minArguments.toUInt8.toNat = info.minArguments := by
  have hall : ∀ entry ∈ catalogue, entry.minArguments < UInt8.size := by decide +kernel
  exact UInt8.toNat_ofNat_of_lt' (hall info (mem_of_functionAt? h))

/-- The second token is the first one, or it says in full what the first one is short for. The class
of the call and the other flags in it may be any. -/
inductive Token.Spelled : Token → Token → Prop
  | same (t : Token) : Spelled t t
  | sum {a : Attribute} (isSum : a.isSum = true) (prompt command : Bool) (cls : OperandClass) :
    Spelled (.hint a) (.call (.counted Worksheet.sumIndex 1 prompt command) cls)
  | fixed {index : UInt16} {info : FunctionInfo} (known : functionAt? index = some info)
    (prompt command : Bool) (cls cls' : OperandClass) :
    Spelled (.call (.fixed index) cls)
      (.call (.counted index info.minArguments.toUInt8 prompt command) cls')

/-- **What is asked for is the same.** -/
theorem Token.Spelled.action {t u : Token} (h : t.Spelled u) : u.action = t.action := by
  cases h with
  | same => rfl
  | sum isSum prompt command cls => exact (if_pos isSum).symm
  | fixed known prompt command cls cls' =>
    simp only [Token.action, Action.ofCall, Call.index, known, Call.argumentCount,
      Worksheet.toNat_minArguments known]

/-- **How a call is spelled does not change results.** Spell any of the calls in full: the formula
has the same values and the same texts, for every machine and all labels. Its failures are those
that it had, at the same tokens, except that a token that lacks operands is named by its new
opcode. -/
theorem Formula.same_outcomes_spelled {f g : Formula} (h : List.Forall₂ Token.Spelled f g)
    (m : Machine) (labels : Labels) :
    (∀ v, m.evaluate g = .ok v ↔ m.evaluate f = .ok v) ∧
      (∀ e, m.evaluate g = .error e ↔ ∃ e', m.evaluate f = .error e' ∧ e = e'.reported g) ∧
      (∀ s, g.text labels = .ok s ↔ f.text labels = .ok s) ∧
      ∀ e, g.text labels = .error e ↔ ∃ e', f.text labels = .error e' ∧ e = e'.reported g := by
  have hactions : f.SameActions g := h.imp fun _ _ hspelled => hspelled.action
  rw [m.evaluate_sameActions hactions, text_sameActions hactions labels]
  exact ⟨fun v => mapError_eq_ok_iff, fun e => mapError_eq_error_iff, fun s => mapError_eq_ok_iff,
    fun e => mapError_eq_error_iff⟩

/-- A sum that is an error, and the question whether it is, with every call spelled in full. -/
theorem Formula.same_outcomes_spelled_isna :
    let sums : Worksheet.Implementation := ⟨false, fun _ args => Worksheet.sum args⟩
    let asks : Worksheet.Implementation :=
      ⟨true, fun _ args => Value.boolean (args.findSome? Value.error?).isSome⟩
    let m : Machine := ⟨.ofCells fun _ _ _ => .blank, .origin, .standard, ⟨[(4, sums), (2, asks)]⟩⟩
    let f : Formula := [.literal (.error .na), .hint .sum, .call (.fixed 2) .value]
    let g : Formula := [.literal (.error .na), .call (.counted 4 1 true false) .array,
      .call (.counted 2 1 false true) .reference]
    List.Forall₂ Token.Spelled f g ∧ m.evaluate g = .ok (.boolean true) ∧
      g.text .numbered = .ok "ISNA(SUM(#N/A))" := by
  intro sums asks m f g
  have hisna : functionAt? 2 = some ⟨2, "ISNA", 1, 1, .value, [.value], false⟩ := rfl
  have hspelled : List.Forall₂ Token.Spelled f g :=
    .cons (.same _) (.cons (.sum (by decide) true false .array)
      (.cons (.fixed hisna false true .value .reference) .nil))
  obtain ⟨hvalues, -, htexts, -⟩ := same_outcomes_spelled hspelled m .numbered
  exact ⟨hspelled, (hvalues _).mpr rfl, (htexts _).mpr (by cbv)⟩

/-- The one trace of a spelling: the opcode of a sum without its argument. -/
example (labels : Labels) :
    (Formula.text [.hint .sum] labels,
        Formula.text [.call (.counted 4 1 false false) .value] labels)
      = (.error (.underflow 0 0x19 1 0), .error (.underflow 0 0x42 1 0)) := rfl

end CellFormula
