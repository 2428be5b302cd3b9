import CellFormula.Proofs.CallArguments
import CellFormula.Proofs.PhraseDepth
import CellFormula.Proofs.StoredFormula

/-!
# The calls of a formula that was read

Three times the catalogue is asked about a call: when it is read, when it is evaluated and when it
is written out. Reading looks up the function and checks the number of arguments, once by the entry
alone and once by a count with a flag taken out of it. Evaluating and writing look the function up
again and take the number from the entry, or from the token, or from neither, for the sum that is
only a hint. What reading has checked is what the other two rely on, so their failures do not occur.

A formula that was put together by hand is not checked by anything, so none of this holds for it.

## Main definitions

* `Token.CallsWell` — a token whose call is in order

## Main results

* `Token.callsWell_of_stored` — a stored token is checked when it is read
* `Formula.calls_of_decode` — what holds of the calls of a formula that was read
-/

namespace CellFormula

open Worksheet (FunctionInfo functionAt?)

/-! ### Calls that are in order -/

/-- A function that always takes the same number of arguments takes that many. -/
theorem Worksheet.FunctionInfo.accepts_minArguments {info : FunctionInfo}
    (h : info.hasFixedArity = true) : info.accepts info.minArguments = true := by
  have hbounds : info.minArguments = info.maxArguments := by simpa [hasFixedArity] using h
  simp [accepts, hbounds]

/-- The entry of the function that sums, which a hint calls with one argument. -/
theorem Worksheet.functionAt?_sumIndex :
    ∃ info, functionAt? sumIndex = some info ∧ info.accepts 1 = true :=
  ⟨_, rfl, rfl⟩

namespace Token

/-- If the token calls a function, that function is in the catalogue and takes as many arguments as
the call has. -/
structure CallsWell (t : Token) : Prop where
  known : ∀ function, t.action ≠ .unknownFunction function
  accepted : ∀ info count, t.action = .call info count → info.accepts count = true

variable {t : Token}

/-- A call that is in order has an entry in the catalogue that accepts it. -/
theorem CallsWell.exists_call (h : t.CallsWell) {index : UInt16}
    (hindex : t.calledIndex? = some index) : ∃ info count, functionAt? index = some info ∧
      t.action = .call info count ∧ info.accepts count = true := by
  obtain ⟨count, haction⟩ := exists_action_eq_ofCall hindex
  rw [Action.ofCall] at haction
  cases hinfo : functionAt? index with
  | none =>
    rw [hinfo] at haction
    exact absurd haction (h.known index)
  | some info =>
    rw [hinfo] at haction
    exact ⟨info, count info, rfl, haction, h.accepted info _ haction⟩

/-- A call is in order if the look-up finds an entry that accepts it. -/
theorem CallsWell.of_ofCall {index : UInt16} {count : FunctionInfo → Nat} {info : FunctionInfo}
    (haction : t.action = .ofCall index count) (hinfo : functionAt? index = some info)
    (haccepts : info.accepts (count info) = true) : t.CallsWell := by
  rw [Action.ofCall, hinfo] at haction
  refine ⟨fun function h => ?_, fun info' count' h => ?_⟩
  · rw [haction] at h
    cases h
  · rw [haction] at h
    cases h
    exact haccepts

/-- A token that calls nothing is in order. -/
theorem CallsWell.of_calledIndex?_eq_none (h : t.calledIndex? = none) : t.CallsWell where
  known := (action_of_calledIndex?_eq_none h).1
  accepted info count haction := absurd haction ((action_of_calledIndex?_eq_none h).2 info count)

/-- **A stored token is checked when it is read**, so its call is in order. -/
theorem callsWell_of_stored {bytes : List UInt8} (h : t.Stored bytes) : t.CallsWell := by
  obtain ⟨fields, hfields, -⟩ := h
  cases t with
  | call c cls =>
    cases c with
    | fixed index =>
      obtain ⟨⟨info, hinfo, hfixed⟩, -⟩ := hfields
      exact .of_ofCall rfl hinfo (info.accepts_minArguments hfixed)
    | counted index count prompt command =>
      obtain ⟨⟨info, hinfo, haccepts⟩, -⟩ := hfields
      exact .of_ofCall rfl hinfo haccepts
  | hint a =>
    by_cases hsum : a.isSum = true
    · obtain ⟨info, hinfo, haccepts⟩ := Worksheet.functionAt?_sumIndex
      exact .of_ofCall (if_pos hsum) hinfo haccepts
    · exact .of_calledIndex?_eq_none (if_neg hsum)
  | _ => exact .of_calledIndex?_eq_none rfl

end Token

/-- The calls of a formula that was read are in order. -/
theorem Formula.callsWell_of_decode {bytes : List UInt8} {declared : Nat} {f : Formula}
    (h : decode bytes declared = .ok f) {t : Token} (ht : t ∈ f) : t.CallsWell := by
  obtain ⟨pieces, payloads, hsplit⟩ := exists_split_of_decode h
  obtain ⟨piece, hstored⟩ := exists_of_forall₂ hsplit.tokens t ht
  exact Token.callsWell_of_stored hstored

/-! ### Failures that name a function -/

/-- Counting operands names an unknown function only at a token that calls it. -/
theorem DepthRules.action_of_step_error {r : DepthRules} {index depth place : Nat} {t : Token}
    {function : UInt16}
    (h : r.step index t depth = .error (.stack (.unknownFunction place function))) :
    t.action = .unknownFunction function := by
  have hpushed {depth : Nat} :
      r.pushed index depth ≠ .error (.stack (.unknownFunction place function)) := by
    rw [pushed]
    split <;> simp
  rw [step] at h
  split at h
  · cases h
  · split at h
    · cases h
    · cases h
    · cases h
    · next function' haction => cases h; exact haction
    · exact absurd h hpushed
    · exact absurd h hpushed
    · next info count _ =>
      rw [called] at h
      split at h
      · cases h
      · exact absurd h hpushed

/-- And so does counting phrases. -/
theorem Token.action_of_phraseStep_error {index depth place : Nat} {t : Token} {function : UInt16}
    (h : t.phraseStep index depth = .error (.unknownFunction place function)) :
    t.action = .unknownFunction function := by
  rw [phraseStep] at h
  split at h
  · cases h
  · next function' haction => cases h; exact haction
  · split at h <;> cases h

/-! ### The calls of a formula that was read -/

namespace Formula

variable {f : Formula} {function : UInt16}

/-- An evaluation names an unknown function only if a token calls it. -/
theorem action_of_evaluate_error {m : Machine} {place : Nat}
    (h : m.evaluate f = .error (.stack (.unknownFunction place function))) :
    ∃ t ∈ f, t.action = .unknownFunction function := by
  rw [Machine.evaluate_eq_error_iff, DepthRules.check] at h
  obtain ⟨before, t, after, depth, rfl, -, hstep⟩ | ⟨depth, -, -, hother⟩ :=
    exists_of_count_eq_error h
  · exact ⟨t, by simp, DepthRules.action_of_step_error hstep⟩
  · cases hother

/-- And so does writing. -/
theorem action_of_text_error {labels : Labels} {place : Nat}
    (h : f.text labels = .error (.unknownFunction place function)) :
    ∃ t ∈ f, t.action = .unknownFunction function := by
  have hcheck := f.text_check labels
  rw [h] at hcheck
  obtain ⟨before, t, after, depth, rfl, -, hstep⟩ | ⟨depth, -, -, hother⟩ :=
    exists_of_count_eq_error hcheck.symm
  · exact ⟨t, by simp, Token.action_of_phraseStep_error hstep⟩
  · cases hother

/-- **What was read calls only functions of the catalogue**, each with a number of arguments that it
takes. So an evaluation never meets a function that it does not know, nor does writing, and no call
that is reached has the value error of a wrong number of arguments. -/
theorem calls_of_decode {bytes : List UInt8} {declared : Nat} (f : Formula)
    (h : decode bytes declared = .ok f) :
    (∀ t ∈ f, ∀ index, t.calledIndex? = some index → ∃ info count,
      functionAt? index = some info ∧ t.action = .call info count ∧
        info.accepts count = true) ∧
    (∀ (m : Machine) (info : FunctionInfo) (operands : List Operand),
      m.Reaches f info operands → info.accepts operands.length = true) ∧
    (∀ (m : Machine) (place : Nat) (function : UInt16),
      m.evaluate f ≠ .error (.stack (.unknownFunction place function))) ∧
    ∀ (labels : Labels) (place : Nat) (function : UInt16),
      f.text labels ≠ .error (.unknownFunction place function) := by
  refine ⟨?_, ?_, ?_, ?_⟩
  · intro t ht index hindex
    exact (callsWell_of_decode h ht).exists_call hindex
  · rintro m info operands ⟨before, t, after, rfl, haction, -⟩
    exact (callsWell_of_decode h (by simp)).accepted info _ haction
  · intro m place function hfails
    obtain ⟨t, ht, haction⟩ := action_of_evaluate_error hfails
    exact (callsWell_of_decode h ht).known function haction
  · intro labels place function hfails
    obtain ⟨t, ht, haction⟩ := action_of_text_error hfails
    exact (callsWell_of_decode h ht).known function haction

/-- A number, the sum hint, and a call that is stored with both of its flags. -/
theorem calls_of_decode_sum :
    let bytes : List UInt8 := [0x1E, 5, 0, 0x19, 0x10, 0, 0, 0x22, 0x81, 4, 0x80]
    let f : Formula :=
      [.literal (.int 5), .hint .sum, .call (.counted 4 1 true true) .reference]
    decode bytes 11 = .ok f ∧
      ∀ (m : Machine) (place : Nat) (function : UInt16),
        m.evaluate f ≠ .error (.stack (.unknownFunction place function)) := by
  intro bytes f
  have hdecode : decode bytes 11 = .ok f := by cbv
  exact ⟨hdecode, (calls_of_decode f hdecode).2.2.1⟩

end Formula

end CellFormula
