import CellFormula.Proofs.ExpressionTree
import CellFormula.Proofs.FunctionTable
import CellFormula.Proofs.RoundedCount
import CellFormula.Proofs.StackEntries

/-!
# Formulas that pick a branch

`IF` and `CHOOSE` take the parts of a formula that they pick from as arguments like any other, so
all of them are evaluated, and one of the values is the answer. What that value is depends on what
the picked branch leaves on the stack. A value is what the branch yields alone. A reference is not:
both functions want their branches as references, and a reference that is an argument is read whole,
so that even a single cell becomes an area of one cell.

## Which branch is picked

Branches are counted as arguments. A union is one argument for each of its ranges, so a branch
stands where it was written only if none before it leaves a union. Branches behind it do not
matter.

## What is deliberately absent

Nothing is said of conditions that are areas. Those pick cell by cell, from several branches at
once.

## Main definitions

* `Operand.Present` — there is a value or a range behind the operand
* `Machine.wholeValues` — the arguments that a branch becomes
* `Machine.LeavesUnion` — a branch that counts for several
* `Machine.Picks` — what a formula yields that picks a branch

## Main results

* `Machine.present_of_run` — no operand is without ranges
* `Machine.picks_of_call` — a call that picks an argument by its position
* `Machine.picks_branch` — `IF` and `CHOOSE`
-/

namespace CellFormula

open Worksheet (FunctionInfo FunctionTable Implementation)

/-! ### Operands are present -/

/-- There is something behind the operand: a value, or at least one range. -/
def Operand.Present : Operand → Prop
  | value _ => True
  | ranges rs => rs ≠ []

namespace Operand

theorem present_range (r : Range) : (range r).Present := List.cons_ne_nil r []

theorem present_combineRanges (op : Operator) {left : List Range} (h : left ≠ [])
    (right : List Range) : (combineRanges op left right).Present := by
  rw [combineRanges.eq_def]
  split
  · exact fun happend => h (List.append_eq_nil_iff.mp happend).1
  · split
    · exact present_range _
    · trivial
  · split
    · trivial
    · next hparts => exact hparts

theorem present_combineReferences (op : Operator) {operands : List Operand}
    (h : ∀ o ∈ operands, o.Present) : (combineReferences op operands).Present := by
  rw [combineReferences.eq_def]
  split
  · next left right =>
    exact present_combineRanges op (h (ranges left) (List.mem_cons_self ..)) right
  · trivial
  · trivial
  · trivial

end Operand

namespace Machine

variable {m : Machine}

theorem present_leafOperand (m : Machine) (l : Leaf) : (m.leafOperand l).Present := by
  cases l with
  | reference r =>
    rw [leafOperand]
    obtain ⟨kind, hr⟩ | ⟨_, _, _, _, _, hr⟩ := m.referenceOperand_cases r
    · rw [hr]
      trivial
    · rw [hr]
      exact Operand.present_range _
  | array cells => cases cells <;> trivial
  | _ => trivial

theorem present_applyOperator (m : Machine) (op : Operator) {operands : List Operand}
    (h : ∀ o ∈ operands, o.Present) : (m.applyOperator op operands).Present := by
  rw [applyOperator]
  split
  · exact Operand.present_combineReferences op h
  · trivial

theorem present_of_applyFunction {info : FunctionInfo} {operands : List Operand} {o : Operand}
    (h : m.applyFunction info operands = .ok o) : o.Present := by
  obtain ⟨kind, rfl⟩ | ⟨-, f, -, rfl⟩ := applyFunction_cases h
  · trivial
  · trivial

theorem Makes.present {a : Action} {operands : List Operand} {operand : Operand}
    (h : m.Makes a operands operand) (hoperands : ∀ o ∈ operands, o.Present) :
    operand.Present := by
  cases h with
  | put leaf => exact m.present_leafOperand leaf
  | combine op _ count => exact m.present_applyOperator op hoperands
  | call info _ _ value => exact present_of_applyFunction value

/-- **All entries of a stack are present** after any tokens. -/
theorem present_of_run {f : Formula} {stack : Stack Operand} (h : m.run 0 .empty f = .ok stack) :
    ∀ o ∈ stack.entries, o.Present :=
  forall_entries_of_run h fun _ _ _ _ _ _ _ hmade hoperands => hmade.present hoperands

theorem Pushes.present {f : Formula} {operand : Operand} (h : m.Pushes f operand)
    (hroom : f.peak 0 ≤ m.limits.stackDepth) : operand.Present :=
  present_of_run (h.run_eq 0 .empty hroom) operand (List.mem_cons_self ..)

/-! ### Branches as arguments -/

/-- The values that an operand becomes as an argument where references are read whole. -/
def wholeValues (m : Machine) : Operand → List Value
  | .value v => [v]
  | .ranges rs => rs.map m.readWhole

theorem wholeValues_ne_nil {o : Operand} (h : o.Present) : m.wholeValues o ≠ [] := by
  cases o with
  | value v => exact List.cons_ne_nil v []
  | ranges rs => exact fun hnil => h (List.map_eq_nil_iff.mp hnil)

/-- The formula leaves more than one range. -/
def LeavesUnion (m : Machine) (f : Formula) : Prop :=
  ∃ r r' rs, m.Pushes f (.ranges (r :: r' :: rs))

theorem length_wholeValues {f : Formula} {o : Operand} (h : m.Pushes f o) (hpresent : o.Present)
    (hone : ¬ m.LeavesUnion f) : (m.wholeValues o).length = 1 := by
  cases o with
  | value v => rfl
  | ranges rs =>
    match rs with
    | [] => exact absurd rfl hpresent
    | [_] => rfl
    | r :: r' :: rs => exact absurd ⟨r, r', rs, h⟩ hone

/-- **A branch stands where it was written** among the arguments, if those before it are one
argument each. -/
theorem getElem?_flatMap_wholeValues {fs : List Formula} {os : List Operand}
    (h : List.Forall₂ (fun f o => m.Pushes f o ∧ o.Present) fs os) {position : Nat}
    {branch : Formula} (hbranch : fs[position]? = some branch)
    (hbefore : ∀ f ∈ fs.take position, ¬ m.LeavesUnion f) :
    ∃ o, m.Pushes branch o ∧ o.Present ∧
      (os.flatMap m.wholeValues)[position]? = (m.wholeValues o).head? := by
  induction h generalizing position with
  | nil => cases hbranch
  | @cons f o fs os hf _ ih =>
    -- At the position itself any number of values may follow; before it there is exactly one.
    obtain ⟨hpushes, hpresent⟩ := hf
    rw [List.flatMap_cons]
    cases position with
    | zero =>
      cases hbranch
      have hpos := List.length_pos_iff.mpr (m.wholeValues_ne_nil hpresent)
      exact ⟨o, hpushes, hpresent, by rw [List.getElem?_append_left hpos, List.head?_eq_getElem?]⟩
    | succ position =>
      rw [List.take_succ_cons] at hbefore
      obtain ⟨hone, hbefore⟩ := List.forall_mem_cons.mp hbefore
      have hlength := length_wholeValues hpushes hpresent hone
      obtain ⟨picked, hpicked, hpresent, hvalue⟩ := ih hbranch hbefore
      refine ⟨picked, hpicked, hpresent, ?_⟩
      rw [List.getElem?_append_right (by omega), hlength, Nat.add_sub_cancel, hvalue]

/-- Operands that a function wants as references are read whole, from some position on. -/
theorem flatten_argumentValues {info : FunctionInfo} {offset : Nat}
    (h : ∀ position, info.parameterClass (position + offset) ≠ .value) (os : List Operand) :
    (os.mapIdx fun position => m.argumentValues info (position + offset)).flatten
      = os.flatMap m.wholeValues := by
  have hvalues (position : Nat) (o : Operand) :
      m.argumentValues info (position + offset) o = m.wholeValues o := by
    cases o <;> simp [argumentValues, wholeValues, h position]
  have hmap : os.mapIdx (fun position => m.argumentValues info (position + offset))
      = os.map m.wholeValues := by
    refine List.ext_getElem? fun position => ?_
    rw [List.getElem?_mapIdx, List.getElem?_map]
    exact congrArg (Option.map · _) (funext (hvalues position))
  rw [hmap, List.flatMap_def]

/-- The first operand is a condition, which is read as a value, and the others are branches. -/
theorem arguments_cons {info : FunctionInfo}
    (hclasses : info.parameterClasses = [.value, .reference]) (condition : Operand)
    (branches : List Operand) :
    m.arguments info (condition :: branches)
      = m.argumentValues info 0 condition ++ branches.flatMap m.wholeValues := by
  have hbranch (position : Nat) : info.parameterClass (position + 1) ≠ .value := by
    cases position <;> simp [FunctionInfo.parameterClass, hclasses]
  rw [arguments, List.mapIdx_cons, List.flatten_cons, flatten_argumentValues hbranch]

/-- A condition is read once, unless it is a union and so has no value anyway. -/
theorem argumentValues_condition {info : FunctionInfo} (hclass : info.parameterClass 0 = .value)
    {o : Operand} (h : (m.operandValue o).isError = false) :
    m.argumentValues info 0 o = [m.operandValue o] := by
  cases o with
  | value v => rfl
  | ranges rs =>
    match rs with
    | [] | [_] => simp [argumentValues, hclass, operandValue]
    | _ :: _ :: _ => cases h

end Machine

/-! ### The value of a picked branch -/

theorem Value.normalize_normalize (v : Value) : v.normalize.normalize = v.normalize := by
  cases v with
  | number x =>
    by_cases h : x.isFinite = true <;> simp [normalize, ofNumber, h]
  | _ => rfl

theorem Value.normalize_ne_missing {v : Value} (h : v ≠ .missing) : v.normalize ≠ .missing := by
  cases v with
  | number x => by_cases hx : x.isFinite = true <;> simp [normalize, ofNumber, hx]
  | missing => exact absurd rfl h
  | _ => rintro ⟨⟩

namespace Machine

variable {m : Machine}

theorem result_value {v : Value} (h : v ≠ .missing) : m.result (.value v) = v.normalize := by
  cases v with
  | missing => exact absurd rfl h
  | _ => rfl

theorem branchValue_of_ne_missing {v : Value} (h : v ≠ .missing) :
    Worksheet.branchValue (some v) = v := by
  cases v with
  | missing => exact absurd rfl h
  | _ => rfl

theorem readWhole_ne_missing (m : Machine) (r : Range) : m.readWhole r ≠ .missing := by
  rw [readWhole]
  split
  · rintro ⟨⟩
  · split <;> rintro ⟨⟩

theorem normalize_readWhole (m : Machine) (r : Range) :
    (m.readWhole r).normalize = m.readWhole r := by
  rw [readWhole]
  split
  · rfl
  · split <;> rfl

/-- What a formula yields that picks a branch. -/
inductive Picks (m : Machine) (branch whole : Formula) : Prop
  /-- A value is what the branch yields alone. -/
  | value (v : Value) (leaves : m.Pushes branch (.value v)) (given : v ≠ .missing)
      (yields : m.evaluate whole = m.evaluate branch)
  /-- What was left out counts as zero. -/
  | leftOut (leaves : m.Pushes branch (.value .missing))
      (yields : m.evaluate whole = .ok (.number 0.0))
  /-- A reference is read whole, and a union is as good as its first range. -/
  | reference (r : Range) (others : List Range) (leaves : m.Pushes branch (.ranges (r :: others)))
      (yields : m.evaluate whole = .ok (m.readWhole r))

theorem picks_of_pushes {branch whole : Formula} {o : Operand} (hbranch : m.Pushes branch o)
    (hpresent : o.Present) (hfits : branch.peak 0 ≤ m.limits.stackDepth)
    (hwhole : m.Pushes whole
      (.value (Worksheet.branchValue (m.wholeValues o).head?).normalize))
    (hroom : whole.peak 0 ≤ m.limits.stackDepth) : m.Picks branch whole := by
  cases o with
  | ranges rs =>
    obtain ⟨r, others, rfl⟩ := List.exists_cons_of_ne_nil hpresent
    have hvalue : Worksheet.branchValue (m.wholeValues (.ranges (r :: others))).head?
        = m.readWhole r := branchValue_of_ne_missing (m.readWhole_ne_missing r)
    rw [hvalue, m.normalize_readWhole] at hwhole
    refine .reference r others hbranch ?_
    rw [hwhole.evaluate hroom, result_value (m.readWhole_ne_missing r), m.normalize_readWhole]
  | value v =>
    by_cases hmissing : v = .missing
    · subst hmissing
      refine .leftOut hbranch ?_
      rw [hwhole.evaluate hroom]
      rfl
    · have hvalue : Worksheet.branchValue (m.wholeValues (.value v)).head? = v :=
        branchValue_of_ne_missing hmissing
      rw [hvalue] at hwhole
      refine .value v hbranch hmissing ?_
      rw [hwhole.evaluate hroom, hbranch.evaluate hfits, result_value hmissing,
        result_value (Value.normalize_ne_missing hmissing), Value.normalize_normalize]

/-- What each of several things is related to can be put in a list. -/
theorem exists_forall₂ {α β : Type} {R : α → β → Prop} {as : List α} (h : ∀ a ∈ as, ∃ b, R a b) :
    ∃ bs, List.Forall₂ R as bs := by
  induction as with
  | nil => exact ⟨[], .nil⟩
  | cons a as ih =>
    obtain ⟨⟨b, hb⟩, hrest⟩ := List.forall_mem_cons.mp h
    obtain ⟨bs, hbs⟩ := ih hrest
    exact ⟨b :: bs, .cons hb hbs⟩

/-- Formulas that have values push operands. -/
theorem exists_operands {fs : List Formula} (h : ∀ f ∈ fs, ∃ v, m.evaluate f = .ok v) :
    ∃ os, List.Forall₂ (fun f o => m.Pushes f o ∧ o.Present) fs os := by
  refine exists_forall₂ fun f hf => ?_
  obtain ⟨v, hv⟩ := h f hf
  obtain ⟨o, hpushes, hroom, -⟩ := evaluate_eq_ok_iff.mp hv
  exact ⟨o, hpushes, hpushes.present hroom⟩

/-- The function is bound, wants its first argument as a value and the others as references, and is
passed errors. -/
structure BindsChoice (m : Machine) (info : FunctionInfo) (f : Implementation) : Prop where
  bound : m.functions.find? info.index = some f
  inspects : f.inspectsErrors = true
  named : info.index ≠ Worksheet.userIndex
  classes : info.parameterClasses = [.value, .reference]

/-- **A call that picks an argument by its position** picks the branch that was written there. -/
theorem picks_of_call {info : FunctionInfo} {f : Implementation} (hf : m.BindsChoice info f)
    {condition : Formula} {o : Operand} (hcondition : m.Pushes condition o)
    (hscalar : (m.operandValue o).isError = false) {branches : List Formula}
    (hbranches : ∀ f ∈ branches, ∃ v, m.evaluate f = .ok v) {position : Nat} {branch : Formula}
    (hbranch : branches[position]? = some branch)
    (hbefore : ∀ f ∈ branches.take position, ¬ m.LeavesUnion f)
    (hcompute : ∀ context args v, args[position]? = some v →
      f.compute context (m.operandValue o :: args) = Worksheet.branchValue (some v))
    {t : Token} (haction : t.action = .call info (branches.length + 1))
    (haccepts : info.accepts (branches.length + 1) = true)
    (hroom : Formula.peak (condition ++ branches.flatten ++ [t]) 0 ≤ m.limits.stackDepth) :
    m.Picks branch (condition ++ branches.flatten ++ [t]) := by
  obtain ⟨os, hos⟩ := exists_operands hbranches
  obtain ⟨picked, hpicked, hpresent, hpick⟩ := getElem?_flatMap_wholeValues hos hbranch hbefore
  -- Of what the picked branch becomes, the first value stands at its position.
  obtain ⟨v, hv⟩ : ∃ v, (m.wholeValues picked).head? = some v :=
    Option.isSome_iff_exists.mp (List.isSome_head?.mpr (wholeValues_ne_nil hpresent))
  obtain ⟨w, hw⟩ := hbranches branch (List.mem_of_getElem? hbranch)
  have hfits : branch.peak 0 ≤ m.limits.stackDepth :=
    let ⟨_, _, hfits, _⟩ := evaluate_eq_ok_iff.mp hw
    hfits
  have hall : List.Forall₂ m.Pushes (condition :: branches) (o :: os) :=
    .cons hcondition (hos.imp fun _ _ h => h.1)
  have hcount : (o :: os).length = branches.length + 1 := hall.length_eq.symm
  have harguments : m.arguments info (o :: os) = m.operandValue o :: os.flatMap m.wholeValues := by
    have hclass : info.parameterClass 0 = .value := by
      rw [FunctionInfo.parameterClass, hf.classes]
      rfl
    rw [arguments_cons hf.classes, argumentValues_condition hclass hscalar, List.singleton_append]
  have hvalue : m.callValue info f (m.arguments info (o :: os))
      = (Worksheet.branchValue (m.wholeValues picked).head?).normalize := by
    rw [callValue, if_pos hf.inspects, harguments, hv]
    exact congrArg Value.normalize (hcompute _ _ v (hpick.trans hv))
  have hcall : m.applyFunction info (o :: os)
      = .ok (.value (Worksheet.branchValue (m.wholeValues picked).head?).normalize) := by
    rw [applyFunction, hcount, haccepts, if_neg hf.named, hf.bound, ← hvalue]
    rfl
  have hwhole := pushes_call hall (haction.trans (by rw [hcount])) hcall
  exact picks_of_pushes hpicked hpresent hfits hwhole hroom

/-! ### Conditions and selectors -/

/-- What is coerced at the end of a formula is coerced alike as an operand, if errors are not
coerced and what was left out counts as blank. -/
theorem coerce_operandValue {α : Type} {coerce : Value → Except ErrorKind α}
    (herror : ∀ kind, coerce (.error kind) = .error kind)
    (hmissing : coerce .missing = coerce .blank) {o : Operand} {a : α}
    (h : coerce (m.result o) = .ok a) :
    coerce (m.operandValue o) = .ok a ∧ (m.operandValue o).isError = false := by
  rw [result] at h
  cases hv : m.operandValue o with
  | number x =>
    rw [hv] at h
    by_cases hfinite : x.isFinite = true
    · simp only [Value.normalize, Value.ofNumber, hfinite, if_true] at h
      exact ⟨h, rfl⟩
    · simp only [Value.normalize, Value.ofNumber, hfinite, Bool.false_eq_true, if_false,
        herror] at h
      cases h
  | error kind =>
    rw [hv] at h
    have hfails := (herror kind).symm.trans h
    cases hfails
  | missing =>
    rw [hv] at h
    exact ⟨hmissing.trans h, rfl⟩
  | _ => rw [hv] at h; exact ⟨h, rfl⟩

end Machine

namespace Worksheet

theorem conditional_pick {condition : Value} {b : Bool} (h : condition.toBool = .ok b)
    {args : List Value} {v : Value} (hv : args[if b then 0 else 1]? = some v) :
    conditional (condition :: args) = branchValue (some v) := by
  have hpick (yes no : Value) : pickBranch condition yes no = if b then yes else no := by
    rw [pickBranch, h]
    rfl
  have hscalar : conditional (condition :: args) = pickBranch condition
      (branchValue (condition :: args)[1]?) (otherwiseValue (condition :: args)) := by
    cases condition with
    | area block => cases h
    | _ => rfl
  rw [hscalar, hpick]
  cases b with
  | true => exact congrArg branchValue hv
  | false =>
    have hthird : (condition :: args)[2]? = some v := hv
    rw [otherwiseValue, hthird]
    rfl

/-- The numbers of the choices that a call can have are counts. -/
theorem toFloat_eq_ofCount : ∀ n < 30, n.toFloat = Number.ofCount n := by decide +kernel

/-- **The number of a choice** picks that choice, because it passes the test of the range and is a
word that is not zero. -/
theorem pickChoice_of_lt {choices : List Value} {x : Float} {k : Nat}
    (hx : Number.rational? x = some ((k + 1 : Nat) : ℚ))
    (hk : k < min choices.length Matrix.countLimit) :
    pickChoice choices x = branchValue choices[k]? := by
  have hleast : ¬ x < 1.0 := by
    rw [Number.lt_iff_of_rational hx Number.rational?_one, not_lt]
    exact_mod_cast Nat.succ_pos k
  have hmost : ¬ choiceCount choices < x := by
    obtain ⟨r, hr, hkept⟩ := Number.exists_rational?_ofCount
      ((Nat.min_le_right choices.length Matrix.countLimit).trans_lt (by decide))
    rw [choiceCount, Number.lt_iff_of_rational hr hx, not_lt]
    exact hkept x _ hx (by exact_mod_cast hk)
  have hword : x.toUInt64.toNat = k + 1 := by
    rw [Number.toNat_toUInt64_of_rational hx, Nat.floor_natCast]
    exact Nat.min_eq_left ((Nat.succ_le_of_lt hk).trans (Nat.min_le_right ..))
  have hfits : ¬ x.toUInt64 < 1 := by
    rw [UInt64.lt_iff_toNat_lt, hword]
    exact Nat.not_lt_of_le (Nat.succ_pos k)
  have hplace : (x.toUInt64 - 1).toNat = k := by
    rw [UInt64.toNat_sub_of_le _ _ (UInt64.not_lt.mp hfits), hword]
    rfl
  rw [pickChoice_eq, if_neg (not_or.mpr ⟨hleast, hmost⟩), hplace, decide_eq_false hfits]

theorem choose_pick {selector : Value} {x : Float} (h : selector.toNumber = .ok x) {n : Nat}
    (hx : Number.truncate x = n.toFloat) (hpos : 1 ≤ n) (hmost : n < 30) {args : List Value}
    {v : Value} (hv : args[n - 1]? = some v) :
    choose (selector :: args) = branchValue (some v) := by
  have hscalar : choose (selector :: args) = pickFor args selector := by
    cases selector with
    | area block => cases h
    | _ => rfl
  obtain ⟨k, rfl⟩ := Nat.exists_eq_add_of_le' hpos
  have hnumber : Number.rational? (Number.truncate x) = some ((k + 1 : Nat) : ℚ) := by
    rw [hx, toFloat_eq_ofCount _ hmost]
    exact Number.rational?_ofCount (hmost.le.trans (by decide))
  have hlength : k < min args.length Matrix.countLimit :=
    Nat.lt_min.mpr ⟨(List.getElem?_eq_some_iff.mp hv).1,
      Nat.lt_of_succ_lt (hmost.trans (by decide))⟩
  rw [Nat.add_sub_cancel] at hv
  rw [hscalar, pickFor, h, ← hv]
  exact pickChoice_of_lt hnumber hlength

/-- The catalogue's entry for `IF`. -/
def conditionalInfo : FunctionInfo := ⟨1, "IF", 2, 3, .reference, [.value, .reference], false⟩

/-- The catalogue's entry for `CHOOSE`. -/
def chooseInfo : FunctionInfo :=
  ⟨100, "CHOOSE", 2, maxArguments, .reference, [.value, .reference], false⟩

theorem builtin_conditional : FunctionTable.builtin.find? conditionalInfo.index
    = some ⟨true, fun _ args => conditional args⟩ :=
  find?_builtin (b := inspectingBuiltin "IF" conditional)
    (List.mem_of_getElem? (i := 11) rfl) (by decide +kernel)

theorem builtin_choose : FunctionTable.builtin.find? chooseInfo.index
    = some ⟨true, fun _ args => choose args⟩ :=
  find?_builtin (b := overflowingBuiltin "CHOOSE" choose)
    (List.mem_of_getElem? (i := 3) rfl) (by decide +kernel)

end Worksheet

namespace Machine

variable {m : Machine}

theorem bindsChoice_conditional (h : m.functions = .builtin) :
    m.BindsChoice Worksheet.conditionalInfo ⟨true, fun _ args => Worksheet.conditional args⟩ where
  bound := h ▸ Worksheet.builtin_conditional
  inspects := rfl
  named := by decide
  classes := rfl

theorem bindsChoice_choose (h : m.functions = .builtin) :
    m.BindsChoice Worksheet.chooseInfo ⟨true, fun _ args => Worksheet.choose args⟩ where
  bound := h ▸ Worksheet.builtin_choose
  inspects := rfl
  named := by decide
  classes := rfl

/-- **`IF` and `CHOOSE` yield what the picked branch is as an argument.** That is the value of the
branch alone if it leaves a value, zero if it was left out, and otherwise its first range, read
whole. -/
theorem picks_branch (m : Machine) (hfunctions : m.functions = .builtin) :
    (∀ (condition yes no : Formula) (v w w' : Value) (b prompt command : Bool) (cls : OperandClass),
      m.evaluate condition = .ok v → m.evaluate yes = .ok w → m.evaluate no = .ok w' →
      v.toBool = .ok b → (b = false → ¬ m.LeavesUnion yes) →
      let whole := condition ++ yes ++ no ++ [.call (.counted 1 3 prompt command) cls]
      Formula.peak whole 0 ≤ m.limits.stackDepth → m.Picks (if b then yes else no) whole) ∧
    (∀ (selector : Formula) (choices : List Formula) (v : Value) (x : Float) (n : Nat)
      (choice : Formula) (count : UInt8) (prompt command : Bool) (cls : OperandClass),
      m.evaluate selector = .ok v → (∀ f ∈ choices, ∃ w, m.evaluate f = .ok w) →
      v.toNumber = .ok x → Number.truncate x = n.toFloat → 1 ≤ n →
      choices[n - 1]? = some choice → (∀ f ∈ choices.take (n - 1), ¬ m.LeavesUnion f) →
      count.toNat = choices.length + 1 → count.toNat ≤ Worksheet.maxArguments →
      let whole := selector ++ choices.flatten ++ [.call (.counted 100 count prompt command) cls]
      Formula.peak whole 0 ≤ m.limits.stackDepth → m.Picks choice whole) := by
  constructor
  · intro condition yes no v w w' b prompt command cls hcondition hyes hno hbool hunion whole hroom
    obtain ⟨o, hpushes, -, rfl⟩ := evaluate_eq_ok_iff.mp hcondition
    obtain ⟨hbool', hscalar⟩ := coerce_operandValue (fun _ => rfl) rfl hbool
    have hwhole : whole
        = condition ++ [yes, no].flatten ++ [.call (.counted 1 3 prompt command) cls] := by
      simp [whole]
    rw [hwhole] at hroom ⊢
    refine picks_of_call (bindsChoice_conditional hfunctions) hpushes hscalar ?_ ?_ ?_
      (fun _ args v hv => Worksheet.conditional_pick hbool' hv) rfl rfl hroom
    · exact List.forall_mem_cons.mpr ⟨⟨w, hyes⟩, List.forall_mem_cons.mpr ⟨⟨w', hno⟩, nofun⟩⟩
    · cases b <;> rfl
    · cases b with
      | true => nofun
      | false => exact List.forall_mem_singleton.mpr (hunion rfl)
  · intro selector choices v x n choice count prompt command cls hselector hchoices hnumber hindex
      hpos hchoice hunion hcount hmost whole hroom
    obtain ⟨o, hpushes, -, rfl⟩ := evaluate_eq_ok_iff.mp hselector
    obtain ⟨hnumber', hscalar⟩ := coerce_operandValue (fun _ => rfl) rfl hnumber
    have hlast : n - 1 < choices.length := (List.getElem?_eq_some_iff.mp hchoice).1
    have hthirty : count.toNat ≤ 30 := hmost
    have haction : (Token.call (.counted 100 count prompt command) cls).action
        = .call Worksheet.chooseInfo (choices.length + 1) := by
      rw [← hcount]
      rfl
    have haccepts : Worksheet.chooseInfo.accepts (choices.length + 1) = true := by
      rw [← hcount, FunctionInfo.accepts, Bool.and_eq_true, decide_eq_true_iff, decide_eq_true_iff]
      exact ⟨by rw [hcount]; exact Nat.succ_le_succ (Nat.one_le_of_lt hlast), hmost⟩
    exact picks_of_call (bindsChoice_choose hfunctions) hpushes hscalar hchoices hchoice hunion
      (fun _ args v hv =>
        congrArg Overflowing.wrapped (Worksheet.choose_pick hnumber' hindex hpos (by omega) hv))
      haction haccepts hroom

/-- A failed comparison picks an area, and two and a half the second of three choices, the last of
which is a union. -/
theorem picks_branch_references :
    let m : Machine := .over (.ofCells fun _ _ _ => .number 5.0)
    let area : Token := .reference (.area ⟨.relative 0 0, .relative 1 1⟩) .reference
    let cell : Token := .reference (.cell (.relative 2 2)) .reference
    let seven : Token := .literal (.int 7)
    let comparison : Formula := [.literal (.int 1), .literal (.int 2), .operator .greater]
    let selector : Token := .literal (.number ⟨0x4004000000000000⟩)
    m.Picks [area] (comparison ++ [seven] ++ [area] ++ [.call (.counted 1 3 false false) .value]) ∧
      m.Picks [cell] ([selector] ++ [[seven], [cell], [area, cell, .operator .union]].flatten
        ++ [.call (.counted 100 4 false false) .value]) := by
  intro m area cell seven comparison selector
  have hseven : m.evaluate [seven] = .ok (.number 7.0) := rfl
  have hcell : m.evaluate [cell] = .ok (.number 5.0) := rfl
  have hunion : m.evaluate [area, cell, .operator .union] = .ok (.error .value) := rfl
  have hone : ¬ m.LeavesUnion [seven] := by
    rintro ⟨r, r', rs, h⟩
    have hrun := h.run_eq 0 .empty (by decide)
    cases hrun
  constructor
  · exact (picks_branch m rfl).1 comparison [seven] [area] (.boolean false) (.number 7.0)
      (.number 5.0) false false false .value rfl hseven rfl rfl (fun _ => hone) (by decide)
  · have hchoices : ∀ f ∈ [[seven], [cell], [area, cell, .operator .union]],
        ∃ v, m.evaluate f = .ok v := by
      intro f hf
      rcases List.mem_cons.mp hf with rfl | hf
      · exact ⟨_, hseven⟩
      rcases List.mem_cons.mp hf with rfl | hf
      · exact ⟨_, hcell⟩
      rcases List.mem_singleton.mp hf with rfl
      exact ⟨_, hunion⟩
    exact (picks_branch m rfl).2 [selector] _ (.number 2.5) 2.5 2 [cell] 4 false false .value rfl
      hchoices rfl rfl (by decide) rfl (List.forall_mem_singleton.mpr hone) rfl (by decide)
      (by decide)

/-- The value of `IF` in terms of what its parts leave. -/
theorem evaluate_conditional (hfunctions : m.functions = .builtin) {condition yes no : Formula}
    {c y n : Operand} (hcondition : m.Pushes condition c) (hyes : m.Pushes yes y)
    (hno : m.Pushes no n) {t : Token} (haction : t.action = .call Worksheet.conditionalInfo 3)
    (hroom : Formula.peak (condition ++ yes ++ no ++ [t]) 0 ≤ m.limits.stackDepth) :
    m.evaluate (condition ++ yes ++ no ++ [t]) = .ok (m.result (m.callOperand
      Worksheet.conditionalInfo ⟨true, fun _ args => Worksheet.conditional args⟩ [c, y, n])) := by
  have hparts : condition ++ yes ++ no ++ [t] = [condition, yes, no].flatten ++ [t] := by simp
  rw [hparts] at hroom ⊢
  exact (pushes_call (.cons hcondition (.cons hyes (.cons hno .nil))) haction
    (applyFunction_of_bound (bindsChoice_conditional hfunctions).bound _)).evaluate hroom

/-- **Picking a branch is not the same as evaluating it alone.** A single cell becomes an area, a
name without a value becomes zero, the ranges of a union count as branches, and the other branches
take room on the stack and places among the arguments of the call. -/
theorem picked_is_not_alone :
    let cells : SheetRef → Nat → Nat → Value := fun _ _ _ => .number 5.0
    let m : Machine :=
      .over ⟨cells, CellSource.readArea cells, fun _ => .missing, fun _ => true⟩
    let tight : Machine := { m with limits := ⟨2, 4, 8⟩ }
    let area : Value := .area ⟨0, 0, ⟨1, 1, #[.number 5.0]⟩⟩
    let yes : Token := .literal (.boolean true)
    let no : Token := .literal (.boolean false)
    let seven : Token := .literal (.int 7)
    let cell : Token := .reference (.cell (.relative 0 0)) .reference
    let union : Formula := [cell, cell, .operator .union]
    let name : Token := .name (.defined 1) .value
    let choose : Token := .call (.counted 1 3 false false) .value
    let pick : Token := .call (.counted 100 31 false false) .value
    (m.evaluate [yes] = .ok (.boolean true) ∧ m.evaluate [no] = .ok (.boolean false) ∧
      m.evaluate [seven] = .ok (.number 7.0)) ∧
    (m.evaluate [cell] = .ok (.number 5.0) ∧
      m.evaluate ([yes] ++ [cell] ++ [seven] ++ [choose]) = .ok area) ∧
    (m.evaluate [name] = .ok .blank ∧
      m.evaluate ([yes] ++ [name] ++ [seven] ++ [choose]) = .ok (.number 0.0)) ∧
    (m.evaluate union = .ok (.error .value) ∧
      m.evaluate ([no] ++ union ++ [seven] ++ [choose]) = .ok area) ∧
    (tight.evaluate [yes] = .ok (.boolean true) ∧ tight.evaluate [seven] = .ok (.number 7.0) ∧
      tight.evaluate ([yes] ++ [seven] ++ [seven] ++ [choose]) = .error (.overflow 2 2)) ∧
    m.evaluate ([seven] ++ (List.replicate 30 [seven]).flatten ++ [pick])
      = .ok (.error .value) := by
  intro cells m tight area yes no seven cell union name choose pick
  have hyes : m.Pushes [yes] _ := pushes_leaf rfl
  have hno : m.Pushes [no] _ := pushes_leaf rfl
  have hseven : m.Pushes [seven] _ := pushes_leaf rfl
  have hcell : m.Pushes [cell] _ := pushes_leaf rfl
  have hname : m.Pushes [name] _ := pushes_leaf rfl
  have hunion : m.Pushes union _ :=
    pushes_combine (.cons hcell (.cons hcell .nil)) (t := .operator .union) rfl rfl
  refine ⟨⟨rfl, rfl, rfl⟩, ⟨rfl, ?_⟩, ⟨rfl, ?_⟩, ⟨rfl, ?_⟩, ⟨rfl, rfl, rfl⟩, rfl⟩
  · exact (evaluate_conditional rfl hyes hcell hseven rfl (by decide)).trans rfl
  · exact (evaluate_conditional rfl hyes hname hseven rfl (by decide)).trans rfl
  · exact (evaluate_conditional rfl hno hunion hseven rfl (by decide)).trans rfl

end Machine

end CellFormula
