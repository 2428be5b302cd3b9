import CellFormula.Proofs.EvaluatedValues

/-!
# What can be inside the value of a formula

Three facts about values hold at every depth and for every formula with the built-in functions, as
long as the source keeps to them.

* Numbers are finite, on the stack and in the value of the formula.
* No argument that was left out is inside the value of a formula. The exception is a formula that
  transposes such an argument.
* No area has an area among its cells. The exception is a formula that chooses from areas by an area
  of selectors.

The two exceptions are real: `missing_inside_transposed` and `area_inside_chosen` show formulas that
have such values over sources without any.

## Main definitions

* `Value.IsFinite`, `Value.IsFlat` — finite numbers, areas without areas
* `CellSource.Throughout`, `CellSource.Flat` — sources

## Main results

* `Machine.throughout_isFinite` — numbers are finite
* `Machine.throughout_ne_missing` — nothing left out is inside a value
* `Machine.isFlat` — areas do not nest
-/

namespace CellFormula

open Worksheet (FunctionInfo transposeInfo chooseInfo)

/-! ### Properties of all that is inside a value -/

/-- The property holds throughout whatever the source hands out. -/
structure CellSource.Throughout (source : CellSource) (p : Value → Prop) : Prop where
  cell : ∀ sheet row col, (source.cell sheet row col).Throughout p
  area : ∀ r block, source.area r = .ok block → (Value.area block).Throughout p
  name : ∀ n, (source.name n).Throughout p

section

variable {p : Value → Prop} {hplain : ∀ v : Value, v.IsPlain → p v}

theorem Value.obeys_of_throughout {v : Value} (h : v.Throughout p) :
    v.Obeys (.throughout p hplain) :=
  obeys_of_allows h

/-- A value with the property obeys the rule only if its cells have the property throughout. -/
theorem Value.throughout_of_obeys {v : Value} (h : v.Obeys (.throughout p hplain)) (hv : p v) :
    v.Throughout p := by
  cases v with
  | area block => exact throughout_area_iff.mpr ⟨hv, h⟩
  | missing => exact throughout_of_not_isArea id hv
  | _ => exact h

/-- A value has the property throughout if areas, and what was left out, have it anyhow. -/
theorem Value.throughout_of_obeys_of_area (harea : ∀ block, p (.area block)) (hmissing : p .missing)
    {v : Value} (h : v.Obeys (.throughout p hplain)) : v.Throughout p := by
  cases v with
  | area block => exact throughout_of_obeys h (harea block)
  | missing => exact throughout_of_obeys h hmissing
  | _ => exact h

theorem CellSource.Throughout.obeys {source : CellSource} (h : source.Throughout p) :
    source.Obeys (.throughout p hplain) where
  cell := h.cell
  area r block hblock := Value.obeys_of_throughout (h.area r block hblock)
  name n := Value.obeys_of_throughout (h.name n)

/-- A source of plain cells hands out nothing else, but for areas of them. -/
theorem CellSource.throughout_ofCells (hplain : ∀ v : Value, v.IsPlain → p v)
    (harea : ∀ block, p (.area block)) {cell : SheetRef → Nat → Nat → Value}
    (h : ∀ sheet row col, (cell sheet row col).IsPlain) : (ofCells cell).Throughout p where
  cell sheet row col := (CellRule.throughout p hplain).allows_of_isPlain (h sheet row col)
  area r block hblock := by
    have hobeys : (Value.area block).Obeys (.throughout p hplain) :=
      obeys_readArea (fun sheet row col => CellRule.allows_of_isPlain _ (h sheet row col)) hblock
    exact Value.throughout_of_obeys hobeys (harea block)
  name _ := (CellRule.throughout p hplain).allows_of_isPlain trivial

/-- If areas may be anything, choosing among them does no harm. -/
theorem CellRule.admits_throughout (harea : ∀ block, p (.area block)) {index : UInt16}
    {args : List Value} (hargs : ∀ v ∈ args, v.Obeys (.throughout p hplain))
    (htranspose : index = transposeInfo.index → args.head? = some .missing → p .missing) :
    (CellRule.throughout p hplain).Admits index args where
  transpose hindex hmissing :=
    Value.throughout_of_not_isArea id (htranspose hindex hmissing)
  choose _ selector choices hsplit _ v hv hisArea := by
    have hobeys := hargs v (hsplit ▸ List.mem_cons_of_mem selector hv)
    cases v with
    | area block => exact Value.throughout_of_obeys hobeys (harea block)
    | _ => exact absurd hisArea id

end

/-! ### Finite numbers -/

/-- If the value is a number, it is a finite one. -/
def Value.IsFinite : Value → Prop
  | number x => x.isFinite = true
  | _ => True

theorem Value.isFinite_of_isPlain (v : Value) (h : v.IsPlain) : v.IsFinite := by
  cases v with
  | number x => exact h
  | _ => trivial

/-- **Numbers are finite.** Over a source of finite numbers no value on the stack has another number
inside, after any tokens, and no value of a formula has. -/
theorem Machine.throughout_isFinite (m : Machine) (f : Formula)
    (hfunctions : m.functions = .builtin) (hsource : m.source.Throughout Value.IsFinite) :
    (∀ before after stack v, f = before ++ after → m.run 0 .empty before = .ok stack →
        .value v ∈ stack.entries → v.Throughout Value.IsFinite) ∧
      ∀ v, m.evaluate f = .ok v → v.Throughout Value.IsFinite := by
  have hadmits (g : Formula) (index : UInt16) (args : List Value) (_ : m.Calls g index args)
      (hargs : ∀ v ∈ args, v.Obeys (.throughout Value.IsFinite Value.isFinite_of_isPlain)) :
      (CellRule.throughout Value.IsFinite Value.isFinite_of_isPlain).Admits index args :=
    CellRule.admits_throughout (fun _ => trivial) hargs fun _ _ => trivial
  constructor
  · intro before after stack v _ hrun hv
    have hobeys := obeys_of_run hfunctions hsource.obeys (hadmits before) hrun (.value v) hv
    exact Value.throughout_of_obeys_of_area (fun _ => trivial) trivial hobeys
  · intro v h
    have hobeys := (obeys_of_evaluate hfunctions hsource.obeys (hadmits f) h).1
    exact Value.throughout_of_obeys_of_area (fun _ => trivial) trivial hobeys

/-- Three halves, read from two cells and multiplied by the largest double, overflow. -/
theorem Machine.throughout_isFinite_overflow :
    let m : Machine := { Machine.over (.ofCells fun _ _ _ => .number 1.5) with
      place := ⟨0, 0, true⟩ }
    let f : Formula := [.reference (.area ⟨.relative 0 0, .relative 0 1⟩) .array,
      .literal (.number ⟨0x7FEFFFFFFFFFFFFF⟩), .operator .multiply]
    let v : Value := .area ⟨0, 0, ⟨1, 2, #[.error .num, .error .num]⟩⟩
    m.source.Throughout Value.IsFinite ∧ m.evaluate f = .ok v ∧ v.Throughout Value.IsFinite := by
  intro m f v
  have hcell : Value.IsPlain (.number 1.5) := (rfl : (1.5 : Float).isFinite = true)
  have hsource : m.source.Throughout Value.IsFinite :=
    CellSource.throughout_ofCells Value.isFinite_of_isPlain (fun _ => trivial) fun _ _ _ => hcell
  have hvalue : m.evaluate f = .ok v := by rfl
  exact ⟨hsource, hvalue, (throughout_isFinite m f rfl hsource).2 v hvalue⟩

/-! ### Arguments that were left out -/

theorem Value.ne_missing_of_isPlain (v : Value) (h : v.IsPlain) : v ≠ .missing := by
  rintro rfl
  exact h

/-- **Nothing that was left out is inside a value** of a formula, if the source has nothing of that
kind and the formula does not transpose an argument that was left out. -/
theorem Machine.throughout_ne_missing (m : Machine) (f : Formula)
    (hfunctions : m.functions = .builtin) (hsource : m.source.Throughout (· ≠ .missing))
    (hcalls : ∀ others, ¬ m.Calls f transposeInfo.index (.missing :: others)) {v : Value}
    (h : m.evaluate f = .ok v) : v.Throughout (· ≠ .missing) := by
  have hadmits (index : UInt16) (args : List Value) (hcall : m.Calls f index args)
      (hargs : ∀ v ∈ args, v.Obeys (.throughout (· ≠ .missing) Value.ne_missing_of_isPlain)) :
      (CellRule.throughout (· ≠ .missing) Value.ne_missing_of_isPlain).Admits index args := by
    refine CellRule.admits_throughout (fun _ => nofun) hargs fun hindex hmissing => ?_
    obtain ⟨others, rfl⟩ := List.head?_eq_some_iff.mp hmissing
    exact absurd (hindex ▸ hcall) (hcalls others)
  obtain ⟨hobeys, hgiven⟩ := obeys_of_evaluate hfunctions hsource.obeys hadmits h
  exact Value.throughout_of_obeys hobeys hgiven

/-- A branch that was left out is picked, and what it counts as is transposed. -/
theorem Machine.throughout_ne_missing_branch :
    let m : Machine := .over (.ofCells fun _ _ _ => .blank)
    let branch : Formula := [.literal (.boolean true), .missing, .literal (.int 7),
      .call (.counted 1 3 false false) .value]
    let f : Formula := branch ++ [.call (.fixed 83) .array]
    let v : Value := .area ⟨0, 0, .single (.number 0.0)⟩
    m.source.Throughout (· ≠ .missing) ∧
      (∀ others, ¬ m.Calls f transposeInfo.index (.missing :: others)) ∧
      m.evaluate f = .ok v ∧ v.Throughout (· ≠ .missing) := by
  intro m branch f v
  have hsource : m.source.Throughout (· ≠ .missing) :=
    CellSource.throughout_ofCells Value.ne_missing_of_isPlain (fun _ => nofun) fun _ _ _ => trivial
  have hfunctions : m.functions = .builtin := rfl
  have hbranch : m.Pushes branch (.value (.number 0.0)) := by
    have hcondition : m.Pushes [.literal (.boolean true)] _ := pushes_leaf rfl
    have hyes : m.Pushes [.missing] _ := pushes_leaf rfl
    have hno : m.Pushes [.literal (.int 7)] _ := pushes_leaf rfl
    exact pushes_call (.cons hcondition (.cons hyes (.cons hno .nil))) rfl
      (applyFunction_of_bound (hfunctions ▸ Worksheet.builtin_conditional) _)
  have hwhole : m.Pushes f (.value v) := pushes_call (.cons hbranch .nil) rfl
    (applyFunction_of_bound (hfunctions ▸ Worksheet.builtin_transpose) _)
  have hvalue : m.evaluate f = .ok v := hwhole.evaluate (by decide)
  -- Only the last token transposes, and it finds a zero.
  have hcalls : ∀ others, ¬ m.Calls f transposeInfo.index (.missing :: others) := by
    intro others hcall
    obtain hcall | ⟨info, operands, hfinds, haction, hargs⟩ := calls_concat hcall
    · refine not_calls_of_forall (fun t ht info count haction => ?_) hcall
      simp only [branch, List.mem_cons, List.not_mem_nil, or_false] at ht
      rcases ht with rfl | rfl | rfl | rfl
      · cases haction
      · cases haction
      · cases haction
      · have hcall : Token.action (.call (.counted 1 3 false false) .value)
            = .call Worksheet.conditionalInfo 3 := rfl
        obtain ⟨rfl, -⟩ := Action.call.inj (hcall.symm.trans haction)
        decide
    · have hcall : Token.action (.call (.fixed 83) .array) = .call transposeInfo 1 := rfl
      obtain ⟨rfl, hlength⟩ := Action.call.inj (hcall.symm.trans haction)
      cases (hbranch.finds (by decide)).unique hfinds hlength
      cases hargs
  exact ⟨hsource, hcalls, hvalue, throughout_ne_missing m f rfl hsource hcalls hvalue⟩

/-- **Transposing an argument that was left out** gives an area with it inside, over a source
without such values. -/
theorem Machine.missing_inside_transposed :
    let m : Machine := .over (.ofCells fun _ _ _ => .blank)
    let f : Formula := [.missing, .call (.fixed 83) .array]
    m.functions = .builtin ∧ m.source.Throughout (· ≠ .missing) ∧
      ∃ v, m.evaluate f = .ok v ∧ ¬ v.Throughout (· ≠ .missing) := by
  intro m f
  have hsource : m.source.Throughout (· ≠ .missing) :=
    CellSource.throughout_ofCells Value.ne_missing_of_isPlain (fun _ => nofun) fun _ _ _ => trivial
  have hfunctions : m.functions = .builtin := rfl
  have hmissing : m.Pushes [.missing] _ := pushes_leaf rfl
  have hwhole : m.Pushes f (.value (.area ⟨0, 0, .single .missing⟩)) :=
    pushes_call (.cons hmissing .nil) rfl
      (applyFunction_of_bound (hfunctions ▸ Worksheet.builtin_transpose) _)
  refine ⟨hfunctions, hsource, _, hwhole.evaluate (by decide), fun h => ?_⟩
  exact h .missing (.cell (List.mem_singleton.mpr rfl) .self) rfl

/-! ### Areas inside areas -/

/-- If the value is an area, none of its cells is one. -/
def Value.IsFlat : Value → Prop
  | area block => ∀ v ∈ block.values, ¬ v.IsArea
  | _ => True

/-- The rule that no cell is an area. -/
def CellRule.flat : CellRule where
  Allows v := ¬ v.IsArea
  allows_of_isPlain := Value.not_isArea_of_isPlain
  allows_of_mem h := absurd trivial h

theorem Value.obeys_flat_iff {v : Value} : v.Obeys .flat ↔ v.IsFlat := by
  cases v with
  | area block => exact Iff.rfl
  | missing => exact Iff.rfl
  | _ => exact iff_of_true id trivial

/-- The cells of the source are no areas, and the areas that it hands out have no areas inside. -/
structure CellSource.Flat (source : CellSource) : Prop where
  cell : ∀ sheet row col, ¬ (source.cell sheet row col).IsArea
  area : ∀ r block, source.area r = .ok block → (Value.area block).IsFlat
  name : ∀ n, (source.name n).IsFlat

theorem CellSource.Flat.obeys {source : CellSource} (h : source.Flat) : source.Obeys .flat where
  cell := h.cell
  area r block hblock := Value.obeys_flat_iff.mpr (h.area r block hblock)
  name n := Value.obeys_flat_iff.mpr (h.name n)

/-- A source that knows cells only is flat if its cells are no areas. -/
theorem CellSource.flat_ofCells {cell : SheetRef → Nat → Nat → Value}
    (h : ∀ sheet row col, ¬ (cell sheet row col).IsArea) : (ofCells cell).Flat where
  cell := h
  area r block hblock := by
    have hobeys : (Value.area block).Obeys .flat := obeys_readArea h hblock
    exact Value.obeys_flat_iff.mp hobeys
  name _ := trivial

/-- What `CHOOSE` gives on arguments that are read. -/
theorem Machine.applyFunction_choose {m : Machine} (hfunctions : m.functions = .builtin)
    {operands : List Operand} {args : List Value} (hargs : m.arguments chooseInfo operands = args)
    (haccepts : chooseInfo.accepts operands.length = true) {v : Value}
    (hv : (Worksheet.choose args).wrapped.normalize = v) :
    m.applyFunction chooseInfo operands = .ok (.value v) := by
  rw [applyFunction, haccepts, hfunctions, Worksheet.builtin_choose, hargs, ← hv]
  rfl

/-- **Areas do not nest.** Over a flat source no value on the stack is an area with an area among
its cells, after any tokens, and no value of a formula is, if the formula does not choose from areas
by an area of selectors. -/
theorem Machine.isFlat (m : Machine) (f : Formula) (hfunctions : m.functions = .builtin)
    (hsource : m.source.Flat)
    (hcalls : ∀ selector choices, m.Calls f chooseInfo.index (selector :: choices) →
      selector.IsArea → ∀ v ∈ choices, ¬ v.IsArea) :
    (∀ before after stack v, f = before ++ after → m.run 0 .empty before = .ok stack →
        .value v ∈ stack.entries → v.IsFlat) ∧
      ∀ v, m.evaluate f = .ok v → v.IsFlat := by
  have hadmits (index : UInt16) (args : List Value) (hcall : m.Calls f index args) :
      CellRule.flat.Admits index args := by
    refine ⟨fun _ _ => id, fun hindex selector choices hsplit => ?_⟩
    subst hindex hsplit
    exact fun harea v hv _ => hcalls selector choices hcall harea v hv
  constructor
  · intro before after stack v hf hrun hv
    have hbefore (index : UInt16) (args : List Value) (hcall : m.Calls before index args)
        (_ : ∀ v ∈ args, v.Obeys .flat) : CellRule.flat.Admits index args :=
      hadmits index args (hf ▸ hcall.append after)
    exact Value.obeys_flat_iff.mp (obeys_of_run hfunctions hsource.obeys hbefore hrun (.value v) hv)
  · intro v h
    have hobeys := obeys_of_evaluate hfunctions hsource.obeys
      (fun index args hcall _ => hadmits index args hcall) h
    exact Value.obeys_flat_iff.mp hobeys.1

/-- Two cells select from two numbers. -/
theorem Machine.isFlat_numbers :
    let m : Machine := { Machine.over (.ofCells fun _ _ _ => .number 2.0) with
      place := ⟨0, 0, true⟩ }
    let cells : Reference := .area ⟨.relative 0 0, .relative 0 1⟩
    let parts : Formula := [.reference cells .array, .literal (.int 5), .literal (.int 7)]
    let f : Formula := parts ++ [.call (.counted 100 3 false false) .array]
    let v : Value := .area ⟨0, 0, ⟨1, 2, #[.number 7.0, .number 7.0]⟩⟩
    m.source.Flat ∧
      (∀ selector choices, m.Calls f chooseInfo.index (selector :: choices) → selector.IsArea →
        ∀ v ∈ choices, ¬ v.IsArea) ∧
      m.evaluate f = .ok v ∧ v.IsFlat := by
  intro m cells parts f v
  have hsource : m.source.Flat := CellSource.flat_ofCells fun _ _ _ => id
  have hfunctions : m.functions = .builtin := rfl
  have hcells : m.leafOperand (.reference cells) = .range ⟨.current, 0, 0, 0, 1⟩ := rfl
  have hselectors : m.Pushes [.reference cells .array] _ := pushes_leaf rfl
  have hfive : m.Pushes [.literal (.int 5)] _ := pushes_leaf rfl
  have hseven : m.Pushes [.literal (.int 7)] _ := pushes_leaf rfl
  rw [hcells] at hselectors
  have hparts := List.Forall₂.cons hselectors (.cons hfive (.cons hseven .nil))
  have hargs : m.arguments chooseInfo [.range ⟨.current, 0, 0, 0, 1⟩,
        m.leafOperand (.literal (.int 5)), m.leafOperand (.literal (.int 7))]
      = [.area ⟨0, 0, ⟨1, 2, #[.number 2.0, .number 2.0]⟩⟩, .number 5.0, .number 7.0] := rfl
  have hwhole : m.Pushes f (.value v) :=
    pushes_call hparts rfl (applyFunction_choose hfunctions hargs rfl rfl)
  have hvalue : m.evaluate f = .ok v := hwhole.evaluate (by decide)
  have hcalls : ∀ selector choices, m.Calls f chooseInfo.index (selector :: choices) →
      selector.IsArea → ∀ v ∈ choices, ¬ v.IsArea := by
    intro selector choices hcall _
    obtain hcall | ⟨info, operands, hfinds, haction, hargs⟩ := calls_concat hcall
    · refine absurd hcall (not_calls_of_forall fun t ht info count haction => ?_)
      simp only [parts, List.mem_cons, List.not_mem_nil, or_false] at ht
      rcases ht with rfl | rfl | rfl <;> cases haction
    · have hcall : Token.action (.call (.counted 100 3 false false) .array) = .call chooseInfo 3 :=
        rfl
      obtain ⟨rfl, hlength⟩ := Action.call.inj (hcall.symm.trans haction)
      have hfound : m.Finds parts _ := ⟨.empty, run_flatten hparts (by decide)⟩
      cases hfound.unique hfinds hlength
      cases hargs
      exact List.forall_mem_cons.mpr ⟨id, List.forall_mem_singleton.mpr id⟩
  exact ⟨hsource, hcalls, hvalue, (isFlat m f hfunctions hsource hcalls).2 v hvalue⟩

/-- **Choosing from areas by an area of selectors** gives an area of areas, over a flat source. -/
theorem Machine.area_inside_chosen :
    let m : Machine := { Machine.over (.ofCells fun _ _ _ => .number 1.0) with
      place := ⟨0, 0, true⟩ }
    let cells : Reference := .area ⟨.relative 0 0, .relative 0 1⟩
    let f : Formula := [.reference cells .array, .reference cells .array, .literal (.int 7),
      .call (.counted 100 3 false false) .array]
    m.functions = .builtin ∧ m.source.Flat ∧ ∃ v, m.evaluate f = .ok v ∧ ¬ v.IsFlat := by
  intro m cells f
  have hsource : m.source.Flat := CellSource.flat_ofCells fun _ _ _ => id
  have hfunctions : m.functions = .builtin := rfl
  have hcells : m.leafOperand (.reference cells) = .range ⟨.current, 0, 0, 0, 1⟩ := rfl
  have harea : m.Pushes [.reference cells .array] _ := pushes_leaf rfl
  have hseven : m.Pushes [.literal (.int 7)] _ := pushes_leaf rfl
  rw [hcells] at harea
  let inner : Value := .area ⟨0, 0, ⟨1, 2, #[.number 1.0, .number 1.0]⟩⟩
  have hargs : m.arguments chooseInfo [.range ⟨.current, 0, 0, 0, 1⟩,
        .range ⟨.current, 0, 0, 0, 1⟩, m.leafOperand (.literal (.int 7))]
      = [inner, inner, .number 7.0] := rfl
  have hchosen : (Worksheet.choose [inner, inner, .number 7.0]).wrapped.normalize
      = .area ⟨0, 0, ⟨1, 2, #[inner, inner]⟩⟩ := by
    dsimp only [inner]
    rfl
  have hwhole : m.Pushes f (.value (.area ⟨0, 0, ⟨1, 2, #[inner, inner]⟩⟩)) :=
    pushes_call (.cons harea (.cons harea (.cons hseven .nil))) rfl
      (applyFunction_choose hfunctions hargs rfl hchosen)
  refine ⟨hfunctions, hsource, _, hwhole.evaluate (by decide), fun h => ?_⟩
  exact h inner (List.mem_cons_self ..) trivial

end CellFormula
