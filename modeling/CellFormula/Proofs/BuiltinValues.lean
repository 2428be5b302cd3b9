import CellFormula.Proofs.CellRules
import CellFormula.Proofs.Selection
import CellFormula.Proofs.WordDouble

/-!
# What the built-in functions give

Forty-nine of the built-in functions are lifted: they give a plain value, or they apply a function
of plain values cell by cell. `MINVERSE` and `MMULT` take areas for matrices. All of these compute
their values: whatever the arguments are, they give a plain value or an area of plain cells. The
other three hand on what they are given.

* `IF` replaces what was left out by zero and, for an area of conditions, takes both branches apart
  cell by cell. So it obeys every rule that its arguments obey.
* `TRANSPOSE` makes a plain argument an area of one cell, also one that was left out.
* `CHOOSE` puts whole choices into cells if its selector is an area, also choices that are areas.

`CellRule.Admits` says of a call that it is none of the latter two, or that the rule does not mind.

## Main definitions

* `Lifted`, `TakesWhole` — values of functions that are lifted, and the functions that are not
* `Builtin.Computes` — a function that does not hand on its arguments
* `CellRule.Admits` — a call that keeps the rule

## Main results

* `lifts_or_takesWhole` — the built-in functions, one by one
* `computes_or_hands_on` — those that hand on their arguments
* `obeys_builtin` — a call that is admitted gives a value that obeys the rule
-/

namespace CellFormula

namespace Worksheet

/-! ### Functions of numbers and texts -/

theorem isPlain_valueOrError {α : Type} {f : α → Value} (hf : ∀ a, (f a).IsPlain)
    (r : Except ErrorKind α) : (valueOrError f r).IsPlain := by
  cases r with
  | ok a => exact hf a
  | error kind => trivial

/-- A plain value, or what a function of plain values gives cell by cell. The areas that it is
applied to are arguments, but it may be applied to other plain values than the arguments. -/
inductive Lifted (args : List Value) : Value → Prop
  | plain {v : Value} (isPlain : v.IsPlain) : Lifted args v
  | broadcast {vs : List Value} {f : List Value → Value}
    (areas : ∀ block, .area block ∈ vs → .area block ∈ args)
    (isPlain : ∀ elements, (f elements).IsPlain) : Lifted args (broadcast vs f)

theorem Lifted.obeys {args : List Value} {v : Value} (h : Lifted args v) : v.Obeys .plain := by
  cases h with
  | plain isPlain => exact Value.obeys_of_isPlain isPlain
  | broadcast areas isPlain => exact obeys_broadcast fun elements _ => isPlain elements

section

variable {args vs : List Value}

theorem lifted_liftNumber (f : Float → Except ErrorKind Float)
    (hareas : ∀ block, .area block ∈ vs → .area block ∈ args) :
    Lifted args (liftNumber f vs) := by
  refine .broadcast hareas fun elements => ?_
  split
  · exact Value.isPlain_ofResult _
  · trivial

theorem lifted_liftNumber2 (f : Float → Float → Except ErrorKind Float) (args : List Value) :
    Lifted args (liftNumber2 f args) := by
  refine .broadcast (fun _ hblock => hblock) fun elements => ?_
  split
  · exact Value.isPlain_ofResult _
  · trivial

theorem lifted_liftFirst {f : Value → Value} (hf : ∀ v, (f v).IsPlain) (args : List Value) :
    Lifted args (liftFirst f args) := by
  refine .broadcast (fun _ hblock => hblock) fun elements => ?_
  split
  · exact hf _
  · trivial

theorem lifted_liftText {f : String → Value} (hf : ∀ s, (f s).IsPlain) (args : List Value) :
    Lifted args (liftText f args) :=
  lifted_liftFirst (fun v => isPlain_valueOrError hf v.toText) args

theorem lifted_asks (test : Value → Bool) (args : List Value) : Lifted args (asks test args) := by
  refine lifted_liftFirst (fun v => ?_) args
  trivial

theorem lifted_negate (args : List Value) : Lifted args (negate args) := by
  refine lifted_liftFirst (fun v => isPlain_valueOrError (fun b => ?_) v.toBool) args
  trivial

theorem lifted_log (args : List Value) : Lifted args (log args) := by
  rw [log]
  split
  · exact lifted_liftNumber _ fun _ => List.mem_of_mem_take
  · exact lifted_liftNumber2 _ _

theorem lifted_rounding (mode : Rounding) (args : List Value) :
    Lifted args (mode.function args) := by
  rw [Rounding.function]
  split
  · exact lifted_liftNumber _ fun _ => List.mem_of_mem_take
  · exact lifted_liftNumber2 _ _

theorem lifted_length (args : List Value) : Lifted args (length args) := by
  refine lifted_liftText (fun s => ?_) args
  exact Number.isFinite_ofCount (Text.charCount s)

theorem isPlain_textOrError (r : Except ErrorKind String) : (valueOrError .text r).IsPlain := by
  refine isPlain_valueOrError (fun s => ?_) r
  trivial

/-- What is given for an optional argument is one of the arguments. -/
theorem mem_of_optionalArgument {position : Nat} {v : Value}
    (h : optionalArgument args position = some v) : v ∈ args := by
  rw [optionalArgument.eq_def] at h
  split at h
  · cases h
  · cases h
  · next u _ hu =>
    cases h
    exact List.mem_of_getElem? hu

theorem lifted_side (cut : Nat → String → String) (args : List Value) :
    Lifted args (side cut args) := by
  cases args with
  | nil => exact .plain trivial
  | cons text others =>
    rw [side]
    refine .broadcast (fun block hblock => ?_) fun elements => ?_
    · obtain htext | hcount := List.mem_pair.mp hblock
      · exact htext ▸ List.mem_cons_self ..
      · cases hgiven : optionalArgument (text :: others) 1 with
        | none => rw [hgiven] at hcount; cases hcount
        | some count =>
          rw [hgiven] at hcount
          exact mem_of_optionalArgument (hgiven.trans (congrArg some hcount.symm))
    · split
      · exact isPlain_textOrError _
      · trivial

theorem lifted_middle (args : List Value) : Lifted args (middle args) := by
  refine .broadcast (fun _ hblock => hblock) fun elements => ?_
  split
  · exact isPlain_textOrError _
  · trivial

theorem lifted_concatenated (args : List Value) : Lifted args (concatenated args) :=
  .broadcast (fun _ hblock => hblock) fun elements => isPlain_textOrError (concatenation elements)

/-! ### Functions that sum up -/

theorem lifted_aggregate (f : List Float → Except ErrorKind Float) (args : List Value) :
    Lifted args (aggregate f args) :=
  .plain (Value.isPlain_ofResult _)

theorem lifted_aggregateTruths (f : List Bool → Bool) (args : List Value) :
    Lifted args (aggregateTruths f args) := by
  refine .plain ?_
  rw [aggregateTruths.eq_def]
  split <;> trivial

theorem lifted_countOf (count : Value → Nat) (args : List Value) :
    Lifted args (countOf count args) :=
  .plain (Number.isFinite_ofCount _)

theorem lifted_rowCount (place : Place) (args : List Value) :
    Lifted args (rowCount place args) := by
  refine .plain ?_
  rw [rowCount.eq_def]
  split
  · exact Number.isFinite_ofCount _
  · exact (rfl : (1.0 : Float).isFinite = true)

theorem lifted_columnCount (place : Place) (args : List Value) :
    Lifted args (columnCount place args) := by
  refine .plain ?_
  rw [columnCount.eq_def]
  split
  · exact Number.isFinite_ofCount _
  · exact (rfl : (1.0 : Float).isFinite = true)

theorem lifted_determinant (place : Place) (args : List Value) :
    Lifted args (determinant place args) := by
  cases args with
  | nil => exact .plain trivial
  | cons v others => exact .plain (Value.isPlain_ofResult _)

end

/-! ### Matrices -/

/-- One entry that is not finite makes the whole area a number error. -/
theorem obeys_numericArea (anchor : Nat × Nat) (m : Matrix Float) :
    (numericArea anchor m).Obeys .plain := by
  rw [numericArea]
  split
  · next hfinite =>
    intro v hv
    obtain ⟨x, hx, rfl⟩ := Array.mem_map.mp (Array.mem_toList_iff.mp hv)
    exact Array.all_eq_true_iff_forall_mem.mp hfinite x hx
  · trivial

theorem obeys_areaOrError (anchor : Nat × Nat) (r : Except ErrorKind (Matrix Float)) :
    (areaOrError anchor r).Obeys .plain := by
  cases r with
  | ok m => exact obeys_numericArea anchor m
  | error kind => trivial

theorem obeys_inverted (place : Place) (args : List Value) :
    (inverted place args).Obeys .plain := by
  cases args with
  | nil => trivial
  | cons v others => exact obeys_areaOrError _ _

theorem obeys_multiplied (place : Place) (args : List Value) :
    (multiplied place args).Obeys .plain := by
  rw [multiplied.eq_def]
  split
  · exact obeys_areaOrError _ _
  · trivial

/-! ### Functions that hand on their arguments -/

variable {rule : CellRule}

/-- A branch obeys the rule, and what was left out is replaced. -/
theorem obeys_branchValue {args : List Value} (h : ∀ v ∈ args, v.Obeys rule) (position : Nat) :
    (branchValue args[position]?).Obeys rule ∧ branchValue args[position]? ≠ .missing := by
  have hzero : (Value.number 0.0).Obeys rule :=
    Value.obeys_of_isPlain (rfl : (0.0 : Float).isFinite = true)
  cases hv : args[position]? with
  | none => exact ⟨hzero, by simp [branchValue]⟩
  | some v =>
    have hobeys := h v (List.mem_of_getElem? hv)
    cases v with
    | missing => exact ⟨hzero, by simp [branchValue]⟩
    | _ => exact ⟨hobeys, by simp [branchValue]⟩

theorem obeys_otherwiseValue {args : List Value} (h : ∀ v ∈ args, v.Obeys rule) :
    (otherwiseValue args).Obeys rule ∧ otherwiseValue args ≠ .missing := by
  have hbranch := obeys_branchValue h 2
  rw [otherwiseValue]
  cases hthird : args[2]? with
  | none => exact ⟨Value.obeys_of_isPlain trivial, by simp⟩
  | some v =>
    rw [hthird] at hbranch
    exact hbranch

theorem pickBranch_cases {p : Value → Prop} {condition yes no : Value}
    (herror : ∀ kind, p (.error kind)) (hyes : p yes) (hno : p no) :
    p (pickBranch condition yes no) := by
  rw [pickBranch]
  cases condition.toBool with
  | error kind => exact herror kind
  | ok b => cases b <;> assumption

/-- **`IF` obeys every rule** that its arguments obey. -/
theorem obeys_conditional {args : List Value} (h : ∀ v ∈ args, v.Obeys rule) :
    (conditional args).Obeys rule := by
  obtain ⟨hyes, hyesGiven⟩ := obeys_branchValue h 1
  obtain ⟨hno, hnoGiven⟩ := obeys_otherwiseValue h
  have hpick (condition : Value) :
      (pickBranch condition (branchValue args[1]?) (otherwiseValue args)).Obeys rule :=
    pickBranch_cases (fun _ => Value.obeys_of_isPlain trivial) hyes hno
  cases args with
  | nil => exact Value.obeys_of_isPlain trivial
  | cons condition others =>
    cases condition with
    | area block =>
      rw [conditional]
      refine obeys_broadcast fun elements helements => ?_
      -- Neither branch is left out, so what they contribute may stand in a cell.
      obtain _ | ⟨_, _ | ⟨hy, _ | ⟨hn, _ | _⟩⟩⟩ := helements
      refine pickBranch_cases (fun _ => rule.allows_of_isPlain trivial) ?_ ?_
      · exact (hy.allows_or hyes).resolve_right fun hleft => hyesGiven hleft.1
      · exact (hn.allows_or hno).resolve_right fun hleft => hnoGiven hleft.1
    | _ => exact hpick _

theorem pickChoice_cases {p : Value → Prop} {choices : List Value} (herror : p (.error .value))
    (hchoice : ∀ position : Nat, p (branchValue choices[position]?)) (index : Float) :
    p (pickChoice choices index).wrapped := by
  rw [pickChoice_eq]
  split
  · exact herror
  · exact hchoice _

theorem pickFor_cases {p : Value → Prop} {choices : List Value} (herror : ∀ kind, p (.error kind))
    (hchoice : ∀ position : Nat, p (branchValue choices[position]?)) (selector : Value) :
    p (pickFor choices selector).wrapped := by
  rw [pickFor]
  cases selector.toNumber with
  | error kind => exact herror kind
  | ok x => exact pickChoice_cases (herror .value) hchoice _

/-- **`CHOOSE` obeys a rule** that its arguments obey, if an area of selectors does not pick from
areas that may not stand in a cell. -/
theorem obeys_choose {selector : Value} {choices : List Value}
    (h : ∀ v ∈ choices, v.Obeys rule)
    (hareas : selector.IsArea → ∀ v ∈ choices, v.IsArea → rule.Allows v) :
    (choose (selector :: choices)).wrapped.Obeys rule := by
  rw [choose, wrapped_liftOverflowing]
  by_cases harea : selector.IsArea
  · rw [liftFirst]
    refine obeys_broadcast fun elements helements => ?_
    obtain _ | ⟨_, _ | _⟩ := helements
    refine pickFor_cases (fun _ => rule.allows_of_isPlain trivial) (fun position => ?_) _
    obtain ⟨hobeys, hgiven⟩ := obeys_branchValue h position
    by_cases hchoice : (branchValue choices[position]?).IsArea
    · cases hv : choices[position]? with
      | none => rw [hv] at hchoice; exact absurd hchoice id
      | some v =>
        rw [hv] at hchoice
        cases v with
        | area block => exact hareas harea _ (List.mem_of_getElem? hv) trivial
        | _ => exact absurd hchoice id
    · exact Value.allows_of_obeys hobeys hchoice hgiven
  · rw [liftFirst_of_not_isArea harea]
    exact pickFor_cases (fun _ => Value.obeys_of_isPlain trivial)
      (fun position => (obeys_branchValue h position).1) selector

theorem Matrix.mem_transpose {α : Type} {m : Matrix α} {a : α}
    (h : a ∈ m.transpose.cells.toList) : a ∈ m.cells.toList := by
  obtain ⟨col, -, h⟩ := List.mem_flatMap.mp h
  obtain ⟨row, -, h⟩ := List.mem_filterMap.mp h
  exact Matrix.mem_of_get? h

/-- **`TRANSPOSE` obeys a rule** that its argument obeys, if that was not left out. -/
theorem obeys_transposed {args : List Value} (h : ∀ v ∈ args, v.Obeys rule)
    (hgiven : args.head? = some .missing → rule.Allows .missing) (place : Place) :
    (transposed place args).Obeys rule := by
  cases args with
  | nil => exact Value.obeys_of_isPlain trivial
  | cons v others =>
    have hv := h v (List.mem_cons_self ..)
    cases v with
    | area block => exact fun u hu => hv u (Matrix.mem_transpose hu)
    | missing => exact List.forall_mem_singleton.mpr (hgiven rfl)
    | _ => exact List.forall_mem_singleton.mpr hv

/-! ### All built-in functions -/

/-- Whatever its arguments are, the function gives a plain value or is applied cell by cell. -/
def Builtin.Lifts (b : Builtin) : Prop :=
  ∀ (place : Place) (args : List Value), Lifted args (b.body place args)

/-- The functions that look at areas as a whole, or hand on what they are given. -/
inductive TakesWhole : Builtin → Prop
  | choose : TakesWhole (overflowingBuiltin "CHOOSE" choose)
  | conditional : TakesWhole (inspectingBuiltin "IF" conditional)
  | inverted : TakesWhole (placedBuiltin "MINVERSE" inverted)
  | multiplied : TakesWhole (placedBuiltin "MMULT" multiplied)
  | transposed : TakesWhole (placedBuiltin "TRANSPOSE" transposed)

/-- **The built-in functions, one by one**: each is lifted, or it is one of the five that take whole
values. -/
theorem lifts_or_takesWhole : ∀ b ∈ builtins, b.Lifts ∨ TakesWhole b := by
  have number {f : Float → Except ErrorKind Float} (_ : Place) (args : List Value) :
      Lifted args (liftNumber f args) := lifted_liftNumber f fun _ hblock => hblock
  have numbers {f : Float → Float → Except ErrorKind Float} (_ : Place) := lifted_liftNumber2 f
  have total {f : List Float → Except ErrorKind Float} (_ : Place) := lifted_aggregate f
  have truths {f : List Bool → Bool} (_ : Place) := lifted_aggregateTruths f
  have count {f : Value → Nat} (_ : Place) := lifted_countOf f
  have question {test : Value → Bool} (_ : Place) := lifted_asks test
  have part {cut : Nat → String → String} (_ : Place) := lifted_side cut
  have rounded {mode : Rounding} (_ : Place) := lifted_rounding mode
  have respelled {f : String → String} (_ : Place) (args : List Value) :
      Lifted args (liftText (fun s => .text (f s)) args) := by
    refine lifted_liftText (fun s => ?_) args
    trivial
  have constant {v : Value} (h : v.IsPlain) (_ : Place) (args : List Value) : Lifted args v :=
    .plain h
  refine List.forall_iff_forall_mem.mp ?_
  exact
    ⟨.inl number, .inl truths, .inl total, -- `ABS`, `AND`, `AVERAGE`
     .inr .choose, .inl lifted_columnCount, -- `CHOOSE`, `COLUMNS`
     .inl fun _ => lifted_concatenated, .inl number, -- `CONCATENATE`, `COS`
     .inl count, .inl count, .inl number, -- `COUNT`, `COUNTA`, `EXP`
     .inl (constant trivial), .inr .conditional, .inl number, -- `FALSE`, `IF`, `INT`
     .inl question, .inl question, .inl question, -- `ISBLANK`, `ISERR`, `ISERROR`
     .inl question, .inl question, .inl question, -- `ISLOGICAL`, `ISNA`, `ISNUMBER`
     .inl question, .inl part, .inl fun _ => lifted_length, -- `ISTEXT`, `LEFT`, `LEN`
     .inl number, .inl fun _ => lifted_log, .inl number, -- `LN`, `LOG`, `LOG10`
     .inl respelled, .inl total, .inl lifted_determinant, -- `LOWER`, `MAX`, `MDETERM`
     .inl fun _ => lifted_middle, .inl total, .inr .inverted, -- `MID`, `MIN`, `MINVERSE`
     .inr .multiplied, .inl numbers, .inl (constant trivial), -- `MMULT`, `MOD`, `NA`
     .inl fun _ => lifted_negate, .inl truths, .inl (constant rfl), -- `NOT`, `OR`, `PI`
     .inl numbers, .inl total, .inl part, -- `POWER`, `PRODUCT`, `RIGHT`
     .inl rounded, .inl rounded, .inl rounded, -- `ROUND`, `ROUNDDOWN`, `ROUNDUP`
     .inl lifted_rowCount, .inl number, .inl number, -- `ROWS`, `SIGN`, `SIN`
     .inl number, .inl total, .inl number, -- `SQRT`, `SUM`, `TAN`
     .inr .transposed, .inl respelled, -- `TRANSPOSE`, `TRIM`
     .inl (constant trivial), .inl rounded, .inl respelled⟩ -- `TRUE`, `TRUNC`, `UPPER`

/-- Whatever its arguments are, the function gives a plain value or an area of plain cells. -/
def Builtin.Computes (b : Builtin) : Prop :=
  ∀ (place : Place) (args : List Value), (b.body place args).Obeys .plain

/-- Each built-in function computes its values, or it is one of the three that hand on their
arguments. -/
theorem computes_or_hands_on : ∀ b ∈ builtins, b.Computes ∨
    b = overflowingBuiltin "CHOOSE" choose ∨ b = inspectingBuiltin "IF" conditional ∨
    b = placedBuiltin "TRANSPOSE" transposed := by
  intro b hb
  obtain hlifts | hwhole := lifts_or_takesWhole b hb
  · exact .inl fun place args => (hlifts place args).obeys
  · cases hwhole with
    | choose => exact .inr (.inl rfl)
    | conditional => exact .inr (.inr (.inl rfl))
    | inverted => exact .inl obeys_inverted
    | multiplied => exact .inl obeys_multiplied
    | transposed => exact .inr (.inr (.inr rfl))

/-- The catalogue's entry for `TRANSPOSE`. -/
def transposeInfo : FunctionInfo := ⟨83, "TRANSPOSE", 1, 1, .array, [.array], false⟩

theorem builtin_transpose : FunctionTable.builtin.find? transposeInfo.index
    = some ⟨false, fun context args => transposed context.place args⟩ :=
  find?_builtin (b := placedBuiltin "TRANSPOSE" transposed)
    (List.mem_of_getElem? (i := 49) rfl) (by decide +kernel)

end Worksheet

/-- The call keeps the rule, whatever function it is of: it does not transpose an argument that was
left out, nor choose from areas by an area of selectors, or else the rule allows what comes out. -/
structure CellRule.Admits (rule : CellRule) (index : UInt16) (args : List Value) : Prop where
  transpose : index = Worksheet.transposeInfo.index →
    args.head? = some .missing → rule.Allows .missing
  choose : index = Worksheet.chooseInfo.index → ∀ selector choices, args = selector :: choices →
    selector.IsArea → ∀ v ∈ choices, v.IsArea → rule.Allows v

namespace Worksheet

variable {rule : CellRule}

/-- **A call that is admitted obeys the rule** that its arguments obey. -/
theorem obeys_builtin {b : Builtin} (hb : b ∈ builtins) {i : UInt16} (hi : b.index? = some i)
    {args : List Value} (hargs : ∀ v ∈ args, v.Obeys rule) (hadmits : rule.Admits i args)
    (place : Place) : (b.body place args).Obeys rule := by
  obtain hcomputes | rfl | rfl | rfl := computes_or_hands_on b hb
  · exact Value.obeys_of_obeys_plain (hcomputes place args)
  · have hindex : some chooseInfo.index = some i := by rw [← hi]; decide +kernel
    cases args with
    | nil => exact Value.obeys_of_isPlain trivial
    | cons selector choices =>
      exact obeys_choose (List.forall_mem_cons.mp hargs).2
        (hadmits.choose (Option.some.inj hindex).symm selector choices rfl)
  · exact obeys_conditional hargs
  · have hindex : some transposeInfo.index = some i := by rw [← hi]; decide +kernel
    exact obeys_transposed hargs (hadmits.transpose (Option.some.inj hindex).symm) place

end Worksheet

end CellFormula
