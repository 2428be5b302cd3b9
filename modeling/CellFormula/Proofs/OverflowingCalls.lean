import CellFormula.Proofs.CallArguments
import CellFormula.Proofs.ChosenChoice
import CellFormula.Proofs.ResultValues

/-!
# Calls that overflow

A checked evaluation stops in front of the first call in which a difference of words overflows. If
there is no such call it is the plain evaluation, failures included.

## Why a NaN has to come from the source

Of the built-in functions only `CHOOSE` takes a difference, and that overflows for a NaN alone. But
what an operator or a function computes is a finite number or an error, and no text spells a NaN. So
a NaN on the stack was handed out by the source, and over a source without any a checked evaluation
is the plain one.

## Main definitions

* `Machine.Overflows` — a call that is reached overflows
* `Value.NoNaN` — a value that is not a NaN

## Main results

* `Machine.checkedEvaluate_of_not_overflows`, `Machine.checkedEvaluate_eq_overflow_iff`
* `Worksheet.overflows_builtin` — only `CHOOSE` overflows
* `Machine.checkedEvaluate_eq_evaluate` — sources without a NaN
-/

namespace CellFormula

open Worksheet (FunctionInfo FunctionTable)

namespace Machine

variable {m : Machine} {f : Formula} {t : Token} {info : FunctionInfo} {operands : List Operand}

/-! ### Calls -/

/-- The function calls an implementation on these operands, and that overflows. -/
theorem applicationOverflows_iff : m.applicationOverflows info operands = true ↔
    ∃ imp args, m.Invokes info operands imp args ∧
      (imp.outcome ⟨m.place, info⟩ args).overflows = true := by
  constructor
  · intro h
    rw [applicationOverflows] at h
    split at h
    · cases h
    · next haccepts =>
      split at h
      · cases h
      · next huser =>
        split at h
        · next imp hbound =>
          rw [callOverflows] at h
          split at h
          · cases h
          · next hnone =>
            refine ⟨imp, _, ⟨by simpa using haccepts, huser, hbound, rfl, fun hinspects => ?_⟩, h⟩
            rwa [hinspects, if_neg Bool.false_ne_true] at hnone
        · cases h
  · rintro ⟨imp, args, hinvokes, hoverflows⟩
    simp only [applicationOverflows, hinvokes.accepted, hinvokes.notUser, hinvokes.bound,
      callOverflows, hinvokes.arguments_eq, hinvokes.computes]
    exact hoverflows

theorem tokenOverflows_iff {index : Nat} {stack : Stack Operand} :
    m.tokenOverflows index t stack = true ↔
      ∃ (info : FunctionInfo) (operands : List Operand) (below : Stack Operand),
      t.action = .call info operands.length ∧ stack = below.pushAll operands ∧
      m.applicationOverflows info operands = true := by
  constructor
  · intro h
    rw [tokenOverflows] at h
    split at h
    · next info count haction =>
      split at h
      · next operands below hoperands =>
        obtain ⟨hcount, hstack⟩ := Stack.eq_pushAll_of_operands hoperands
        exact ⟨info, operands, below, hcount ▸ haction, hstack, h⟩
      · cases h
    · cases h
  · rintro ⟨info, operands, below, haction, rfl, h⟩
    rw [tokenOverflows, haction]
    simp only [Stack.operands_pushAll]
    exact h

/-! ### Walks -/

/-- While the formula is evaluated, a difference of words overflows in a call. -/
def Overflows (m : Machine) (f : Formula) : Prop :=
  ∃ info operands, m.Reaches f info operands ∧ m.applicationOverflows info operands = true

/-- A formula reaches what it reaches without its last token, and the call of that. -/
theorem reaches_concat_iff : m.Reaches (f ++ [t]) info operands ↔
    m.Reaches f info operands ∨ t.action = .call info operands.length ∧ m.Finds f operands := by
  constructor
  · rintro ⟨before, t', after, hf, haction, hfinds⟩
    obtain rfl | ⟨after, last, rfl⟩ := after.eq_nil_or_concat
    · obtain ⟨rfl, hlast⟩ := List.append_inj' hf rfl
      cases hlast
      exact .inr ⟨haction, hfinds⟩
    · rw [List.concat_eq_append, ← List.cons_append, ← List.append_assoc] at hf
      obtain ⟨rfl, -⟩ := List.append_inj' hf rfl
      exact .inl ⟨before, t', after, rfl, haction, hfinds⟩
  · rintro (⟨before, t', after, rfl, hcall⟩ | hcall)
    · exact ⟨before, t', after ++ [t], by simp, hcall⟩
    · exact ⟨f, t, [], rfl, hcall⟩

/-- The last token overflows, or a token before it. -/
theorem overflows_concat_iff : m.Overflows (f ++ [t]) ↔ m.Overflows f ∨
    ∃ stack, m.run 0 .empty f = .ok stack ∧ m.tokenOverflows f.length t stack = true := by
  simp only [Overflows, reaches_concat_iff, or_and_right, exists_or, tokenOverflows_iff]
  refine or_congr_right ⟨?_, ?_⟩
  · rintro ⟨info, operands, ⟨haction, below, hrun⟩, hoverflows⟩
    exact ⟨_, hrun, info, operands, below, haction, rfl, hoverflows⟩
  · rintro ⟨stack, hrun, info, operands, below, haction, rfl, hoverflows⟩
    exact ⟨info, operands, ⟨haction, below, hrun⟩, hoverflows⟩

/-- **The checked walk is the walk** if no call overflows. -/
theorem checkedWalk_of_not_overflows (h : ¬ m.Overflows f) :
    walk m.checkedStep 0 .empty f = (m.run 0 .empty f).mapError .failed := by
  induction f using List.reverseRecOn with
  | nil => rfl
  | append_singleton f t ih =>
    rw [overflows_concat_iff, not_or, not_exists] at h
    rw [walk_concat, run_concat, ih h.1, Nat.zero_add]
    cases hrun : m.run 0 .empty f with
    | error e => rfl
    | ok stack =>
      have hfits : m.tokenOverflows f.length t stack = false :=
        Bool.not_eq_true _ ▸ fun hoverflows => h.2 stack ⟨hrun, hoverflows⟩
      show m.checkedStep f.length t stack = (m.step f.length t stack).mapError .failed
      rw [checkedStep, hfits, if_neg Bool.false_ne_true]

/-- **The checked walk stops** if a call overflows. -/
theorem checkedWalk_of_overflows (h : m.Overflows f) :
    ∃ index, walk m.checkedStep 0 .empty f = .error (.overflow index) := by
  induction f using List.reverseRecOn with
  | nil =>
    obtain ⟨info, operands, ⟨before, t, after, hf, -⟩, -⟩ := h
    exact absurd hf.symm (by simp)
  | append_singleton f t ih =>
    rw [walk_concat]
    by_cases hbefore : m.Overflows f
    · obtain ⟨index, hindex⟩ := ih hbefore
      exact ⟨index, by rw [hindex]; rfl⟩
    · obtain ⟨stack, hrun, hoverflows⟩ := (overflows_concat_iff.mp h).resolve_left hbefore
      refine ⟨f.length, ?_⟩
      rw [checkedWalk_of_not_overflows hbefore, hrun, Nat.zero_add]
      show m.checkedStep f.length t stack = _
      rw [checkedStep, hoverflows, if_pos rfl]

/-- **A checked evaluation is the evaluation** if no call overflows. -/
theorem checkedEvaluate_of_not_overflows (h : ¬ m.Overflows f) :
    m.checkedEvaluate f = (m.evaluate f).mapError .failed := by
  rw [checkedEvaluate, checkedWalk_of_not_overflows h, evaluate_eq]
  cases m.run 0 .empty f with
  | error e => rfl
  | ok stack =>
    simp only [Except.mapError, Except.bind, bind]
    cases stack.only? <;> rfl

/-- **A checked evaluation stops** exactly if a call overflows. -/
theorem checkedEvaluate_eq_overflow_iff :
    (∃ index, m.checkedEvaluate f = .error (.overflow index)) ↔ m.Overflows f := by
  constructor
  · rintro ⟨index, h⟩
    by_contra hfits
    rw [checkedEvaluate_of_not_overflows hfits] at h
    cases hvalue : m.evaluate f with
    | ok v => rw [hvalue] at h; cases h
    | error e => rw [hvalue] at h; cases h
  · intro h
    obtain ⟨index, hindex⟩ := checkedWalk_of_overflows h
    exact ⟨index, by rw [checkedEvaluate, hindex]; rfl⟩

/-- A choice by the NaN in a cell. -/
example :
    let m : Machine := ⟨.ofCells fun _ _ _ => .number (0.0 / 0.0), .origin, .standard,
      ⟨[(100, ⟨true, fun _ args => Worksheet.choose args⟩)]⟩⟩
    let f : Formula := [.reference (.cell (.relative 0 0)) .value, .literal (.text "a"),
      .call (.counted 100 2 false false) .value]
    m.checkedEvaluate f = .error (.overflow 2) := rfl

end Machine

/-! ### Numbers that are not NaNs -/

namespace Number

open Float.Model

/-- Packing a number that is no NaN does not make it one. -/
theorem isNaN_pack {u : UnpackedFloat} (h : u.isNaN = false) :
    (Float.Model.pack u).isNaN = false := by
  show (Float.Model.pack u).unpack.isNaN = false
  by_cases hsmall : ExponentAtMost 971 u
  · have hfinite : (Float.Model.pack u).unpack.isFinite = true := isFinite_pack hsmall
    cases hx : (Float.Model.pack u).unpack with
    | notANumber => rw [hx] at hfinite; cases hfinite
    | _ => rfl
  · cases u with
    | notANumber => cases h
    | zero sign => exact absurd trivial hsmall
    | infinity sign =>
      rw [unpack_pack_infinity]
      rfl
    | finite sign mantissa exponent hpos =>
      have hover : ¬ exponent ≤ 971 := hsmall
      have hinfinite : UnpackedFloat.pack Format.binary64 (.finite sign mantissa exponent hpos)
          = UnpackedFloat.packedInfinity Format.binary64 sign := by
        rw [UnpackedFloat.pack]
        dsimp only
        rw [exponentBias_eq, if_pos (by omega)]
      show (UnpackedFloat.unpack Format.binary64 (UnpackedFloat.pack Format.binary64 _)).isNaN = _
      rw [hinfinite]
      exact congrArg UnpackedFloat.isNaN (unpack_pack_infinity sign)

theorem isNaN_roundWithAccuracy (sign : UnpackedFloat.Sign) (mantissa : Nat) (exponent : Int)
    (accuracy : UnpackedFloat.Accuracy) :
    (UnpackedFloat.roundWithAccuracy Format.binary64 sign mantissa exponent accuracy).isNaN
      = false := by
  rw [roundWithAccuracy_eq]
  split
  · rfl
  · split <;> rfl

/-- A decimal is no NaN as a double. -/
theorem isNaN_ofScientific (digits : Nat) (exponent : Int) :
    (Float.Model.ofScientific digits exponent).isNaN = false := by
  rw [Float.Model.ofScientific]
  refine isNaN_pack ?_
  rw [UnpackedFloat.ofScientific]
  split
  · rfl
  · split
    · rfl
    · split
      · rfl
      · split <;> exact isNaN_roundWithAccuracy ..

theorem isNaN_of_isFinite {x : Float} (h : x.isFinite = true) : x.isNaN = false := by
  have hfinite : x.toModel.unpack.isFinite = true := h
  show x.toModel.unpack.isNaN = false
  cases hx : x.toModel.unpack with
  | notANumber => rw [hx] at hfinite; cases hfinite
  | _ => rfl

theorem Decimal.isNaN_toFloat (d : Decimal) : d.toFloat.isNaN = false := by
  by_cases hsmall : d.digits < 2 ^ 53 ∧ d.exponent.natAbs ≤ 22
  · exact isNaN_of_isFinite (isFinite_scaled hsmall.1 hsmall.2 _)
  · rw [toFloat, Float.ofScientific, dif_neg hsmall]
    exact isNaN_ofScientific _ _

theorem Numeral.isNaN_toFloat (n : Numeral) : n.toFloat.isNaN = false := by
  have hmagnitude := n.magnitude.isNaN_toFloat
  rw [toFloat]
  split
  · rwa [isNaN_neg]
  · exact hmagnitude

theorem isNaN_mul_percentFactor {x : Float} (h : x.isNaN = false) (percent : Bool) :
    (x * percentFactor percent).isNaN = false := by
  obtain ⟨mantissa, exponent, hpos, hfactor, -⟩ := exists_unpack_percentFactor percent
  show (Float.Model.pack (UnpackedFloat.mul Format.binary64 x.toModel.unpack
    (percentFactor percent).toModel.unpack)).isNaN = false
  refine isNaN_pack ?_
  rw [hfactor]
  have hunpack : x.toModel.unpack.isNaN = false := h
  cases hx : x.toModel.unpack with
  | notANumber => rw [hx] at hunpack; cases hunpack
  | zero sign | infinity sign => rfl
  | finite sign m e hm => exact isNaN_roundWithAccuracy ..

/-- **No text spells a NaN.** -/
theorem isNaN_of_numberOfText {s : String} {x : Float} (h : numberOfText? s = some x) :
    x.isNaN = false := by
  obtain ⟨n, percent, -, rfl⟩ := numberOfText?_eq_some_iff.mp h
  exact isNaN_mul_percentFactor n.isNaN_toFloat percent

end Number

/-- The value is not a NaN. -/
def Value.NoNaN : Value → Prop
  | number x => x.isNaN = false
  | _ => True

theorem Value.noNaN_of_isPlain (v : Value) (h : v.IsPlain) : v.NoNaN := by
  cases v with
  | number x => exact Number.isNaN_of_isFinite h
  | _ => trivial

/-- **Only a NaN is coerced to a NaN.** -/
theorem Value.NoNaN.not_isNaN {v : Value} (h : v.NoNaN) : ¬ v.IsNaN := by
  rintro ⟨x, hx, hnan⟩
  refine Bool.false_ne_true (Eq.trans (Eq.symm ?_) hnan)
  cases v with
  | number y =>
    cases hx
    exact h
  | boolean b =>
    cases hx
    cases b <;> rfl
  | blank | missing =>
    cases hx
    rfl
  | text s => exact Number.isNaN_of_numberOfText (toNumber_text_eq_ok.mp hx)
  | error kind | area block => cases hx

/-! ### The built-in functions -/

namespace Worksheet

/-- **Only `CHOOSE` overflows.** -/
theorem overflows_builtin {b : Builtin} (hb : b ∈ builtins) (place : Place) (args : List Value) :
    (b.outcome place args).overflows = (b.name == "CHOOSE" && (choose args).overflows) := by
  have hall : builtins.map (fun b => (b.outcome place args).overflows)
      = builtins.map (fun b => b.name == "CHOOSE" && (choose args).overflows) := rfl
  exact List.map_inj_left.mp hall b hb

/-- `CHOOSE` does not overflow without a NaN among its arguments and in their cells. -/
theorem overflows_choose_eq_false {args : List Value}
    (h : ∀ v ∈ args, v.Throughout Value.NoNaN) : (choose args).overflows = false := by
  cases args with
  | nil => rfl
  | cons selector choices =>
    have hselector := h selector (List.mem_cons_self ..)
    rw [← Bool.not_eq_true]
    intro hoverflows
    obtain ⟨block, rfl⟩ | hplain := selector.exists_eq_area_or_not_isArea
    · obtain ⟨v, hv, hnan⟩ := List.any_eq_true.mp
        (show (block.values.any fun v => (pickFor choices v).overflows) = true from hoverflows)
      exact (hselector v (.cell hv .self)).not_isNaN (overflows_pickFor_iff.mp hnan)
    · rw [choose_of_not_isArea hplain] at hoverflows
      exact (hselector selector .self).not_isNaN (overflows_pickFor_iff.mp hoverflows)

end Worksheet

/-! ### Sources without a NaN -/

namespace Machine

variable {m : Machine} {f : Formula}

/-- **No call overflows** over a source that hands out no NaN. -/
theorem not_overflows (hfunctions : m.functions = .builtin)
    (hsource : m.source.Throughout Value.NoNaN) (f : Formula) : ¬ m.Overflows f := by
  rintro ⟨info, operands, ⟨before, t, after, -, -, below, hrun⟩, hoverflows⟩
  obtain ⟨imp, args, hinvokes, hoverflows⟩ := applicationOverflows_iff.mp hoverflows
  obtain ⟨b, hb, -, rfl⟩ := Worksheet.exists_builtin_of_find? (hfunctions ▸ hinvokes.bound)
  -- The arguments are read from operands, and those obey the rule that the source obeys.
  have hrule : m.source.Obeys (.throughout Value.NoNaN Value.noNaN_of_isPlain) := hsource.obeys
  have hoperands := obeys_of_run hfunctions hrule
    (fun _ _ _ hargs => CellRule.admits_throughout (fun _ => trivial) hargs fun _ _ => trivial) hrun
  have hargs : ∀ v ∈ args, v.Throughout Value.NoNaN := by
    rw [← hinvokes.arguments_eq]
    refine fun v hv => Value.throughout_of_obeys_of_area (fun _ => trivial) trivial
      (obeys_arguments hrule info (fun o ho => hoperands o ?_) v hv)
    rw [Stack.entries_pushAll]
    exact List.mem_append_left _ (List.mem_reverse.mpr ho)
  have hfits : (b.outcome m.place args).overflows = false := by
    rw [Worksheet.overflows_builtin hb, Worksheet.overflows_choose_eq_false hargs, Bool.and_false]
  exact Bool.false_ne_true (hfits.symm.trans hoverflows)

/-- **Over a source without a NaN a checked evaluation is the evaluation.** -/
theorem checkedEvaluate_eq_evaluate (hfunctions : m.functions = .builtin)
    (hsource : m.source.Throughout Value.NoNaN) (f : Formula) :
    m.checkedEvaluate f = (m.evaluate f).mapError .failed :=
  checkedEvaluate_of_not_overflows (not_overflows hfunctions hsource f)

end Machine

end CellFormula
