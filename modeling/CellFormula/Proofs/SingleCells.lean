import CellFormula.Proofs.ArrayFormula
import CellFormula.Proofs.FunctionTable
import CellFormula.Proofs.ReferencedCells

/-!
# Formulas of single cells

Whether a formula is an array formula decides how a range is read where a single value is wanted. A
range of one cell is read as that cell either way. So a formula whose references are single cells
has the same value in both modes, provided that nothing in it makes larger ranges of them.

## What makes ranges larger

Union puts ranges beside each other and an intersection of single cells is one of them. Only the
range operator makes a range of several cells from single ones, and it is excluded. Whether a
reference is a single cell is a matter of the formula's place, so it is asked of the machine.

## What else sees the mode

An implementation does, because it is called with the place of the formula. The built-in functions
look at its row and its column only (`Worksheet.body_inMode`), and other functions are excluded.

## Main definitions

* `Operand.IsSingle` — an operand without a range of several cells

## Main results

* `Operand.keeps_isSingle` — union and intersection keep to single cells
* `Machine.agree_inMode` — the machines of the two modes agree
* `Machine.modes_agree_on_single` — so do the values
-/

namespace CellFormula

open Worksheet (FunctionInfo Implementation)

/-! ### Ranges of one cell -/

theorem Range.isSingle_iff {r : Range} :
    r.isSingle = true ↔ r.firstRow = r.lastRow ∧ r.firstCol = r.lastCol := by
  rw [isSingle, Bool.and_eq_true, beq_iff_eq, beq_iff_eq]

/-- What a single cell has in common with a range is that cell. -/
theorem Range.isSingle_of_intersect? {a b c : Range} (ha : a.isSingle = true)
    (h : a.intersect? b = some c) : c.isSingle = true := by
  obtain ⟨hrow, hcol⟩ := isSingle_iff.mp ha
  obtain ⟨hrows, hcols⟩ := normal_of_intersect? h
  simp only [intersect?] at h
  split at h
  · cases h
    rw [isSingle_iff]
    dsimp only at hrows hcols ⊢
    omega
  · cases h

namespace Operand

/-- No range of the operand has several cells. -/
def IsSingle (o : Operand) : Prop := ∀ r ∈ o.rangeList, r.isSingle = true

theorem keeps_isSingle {op : Operator} (hop : op ≠ .range) :
    Keeps op fun r => r.isSingle = true where
  common _ _ _ ha hc := Range.isSingle_of_intersect? ha hc
  around hrange := absurd hrange hop

end Operand

/-! ### What sees the mode -/

/-- The built-in functions do not look at the mode. -/
theorem Worksheet.body_inMode {b : Worksheet.Builtin} (hb : b ∈ Worksheet.builtins) (place : Place)
    (array : Bool) : b.body { place with inArrayFormula := array } = b.body place := by
  have hall : Worksheet.builtins.map (fun b => b.body { place with inArrayFormula := array })
      = Worksheet.builtins.map (fun b => b.body place) := rfl
  exact List.map_inj_left.mp hall b hb

namespace Machine

variable {m : Machine} {f : Formula}

theorem callValue_inMode (hfunctions : m.functions = .builtin) (array : Bool) {info : FunctionInfo}
    {imp : Implementation} (hbound : m.functions.find? info.index = some imp) (args : List Value) :
    (m.inMode array).callValue info imp args = m.callValue info imp args := by
  rw [hfunctions] at hbound
  obtain ⟨b, hb, -, rfl⟩ := Worksheet.exists_builtin_of_find? hbound
  have hbody : b.body (m.inMode array).place args = b.body m.place args :=
    congrFun (Worksheet.body_inMode hb m.place array) args
  rw [callValue, callValue, Worksheet.Builtin.compute_implementation,
    Worksheet.Builtin.compute_implementation, hbody]

/-- **An operand of single cells is read alike in both modes.** -/
theorem operandValue_inMode {o : Operand} (ho : o.IsSingle) (array : Bool) :
    (m.inMode array).operandValue o = m.operandValue o := by
  cases o with
  | value v => rfl
  | ranges rs =>
    match rs with
    | [] => rfl
    | [r] =>
      have hr : r.isSingle = true := ho r (List.mem_singleton.mpr rfl)
      rw [operandValue, operandValue, readValue_of_isSingle hr, readValue_of_isSingle hr]
      rfl
    | _ :: _ :: _ => rfl

/-- **The machines of the two modes agree** on a formula of single cells. -/
theorem agree_inMode (hfunctions : m.functions = .builtin) (hrange : .operator .range ∉ f)
    (hsingle : ∀ r ∈ m.referencedRanges f, r.isSingle = true) (array : Bool) :
    m.Agree (m.inMode array) f Operand.IsSingle where
  limits := rfl
  functions := rfl
  leaf _ _ leaf _ := by
    cases leaf with
    | reference ref => exact m.referenceOperand_inMode array ref
    | array cells => cases cells <;> rfl
    | _ => rfl
  value _ ho := operandValue_inMode ho array
  whole _ _ _ _ := rfl
  call _ _ args hbound := callValue_inMode hfunctions array hbound args
  kept _ ht _ _ hmade hoperands := by
    refine hmade.forall_ranges (fun ref haction r hr => ?_) (fun op haction => ?_) hoperands
    · have href : ref ∈ f.references := Formula.mem_references (Formula.mem_leaves ht haction)
      exact hsingle r (List.mem_flatMap.mpr ⟨ref, href, hr⟩)
    · refine Operand.keeps_isSingle fun hop => hrange ?_
      rw [hop] at haction
      exact Token.eq_operator_of_action haction ▸ ht

/-- **The mode matters for ranges of several cells only.** Let all references of a formula be single
cells, or references that mean nothing, and let it have no range operator. As an array formula it
has the same value as an ordinary formula, or it fails alike: whatever the source answers, wherever
the formula stands, and whatever the limits are. -/
theorem modes_agree_on_single (m : Machine) (f : Formula) (hfunctions : m.functions = .builtin)
    (hrange : .operator .range ∉ f) (hsingle : ∀ r ∈ m.referencedRanges f, r.isSingle = true) :
    (m.inMode true).evaluate f = (m.inMode false).evaluate f :=
  calc (m.inMode true).evaluate f
    _ = m.evaluate f := (agree_inMode hfunctions hrange hsingle true).evaluate_eq
    _ = (m.inMode false).evaluate f :=
        (agree_inMode hfunctions hrange hsingle false).evaluate_eq.symm

/-- `B4 B4:B4` joined to a text, from a source that answers with areas. The first reference is
relative to the formula's cell and means what the second one does. -/
theorem modes_agree_on_single_intersection :
    let boxed (s : String) : Value := .area ⟨0, 0, ⟨1, 2, #[.text s, .blank]⟩⟩
    let m : Machine := ⟨.ofCells fun _ row col => boxed (if row = 3 ∧ col = 1 then "in" else "out"),
      ⟨4, 1, false⟩, .standard, .builtin⟩
    let f : Formula := [.reference (.sharedCell ⟨0xFFFF, 0, true, true⟩) .reference,
      .reference (.area ⟨.relative 3 1, .relative 3 1⟩) .reference, .operator .intersect,
      .literal (.text "side"), .operator .concat]
    m.functions = .builtin ∧ .operator .range ∉ f ∧
      (∀ r ∈ m.referencedRanges f, r.isSingle = true) ∧
      (m.inMode true).evaluate f = (m.inMode false).evaluate f ∧
      (m.inMode false).evaluate f = .ok (.text "inside") := by
  intro boxed m f
  have hranges : m.referencedRanges f = [⟨.current, 3, 1, 3, 1⟩, ⟨.current, 3, 1, 3, 1⟩] := by
    decide +kernel
  have hsingle : ∀ r ∈ m.referencedRanges f, r.isSingle = true := by
    rw [hranges]
    decide
  exact ⟨rfl, by decide, hsingle, modes_agree_on_single m f rfl (by decide) hsingle, rfl⟩

end Machine

end CellFormula
