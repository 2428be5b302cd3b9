import CellFormula.Proofs.RangeCells
import CellFormula.Proofs.Selection

/-!
# The arguments of a call

The number of operands of a call is checked before any of them is read. What the implementation
sees are the arguments, and those are read afterwards: a value is one argument, and so is a range,
but of several ranges each is an argument of its own. So a function that always takes `n` arguments
is called on `n` operands, and its implementation sees `n` arguments or more.

## What an implementation may rely on

It never sees fewer arguments than the least number of the catalogue, because no operand is without
ranges. Where no operand is a union, the arguments are the operands in their order, each read the
way the catalogue says. A union moves all arguments behind it.

## Main definitions

* `Token.calledIndex?` — the index of the function that a token calls
* `Operand.IsUnion`, `Operand.furtherRanges` — several ranges
* `Machine.Gives` — what an operand that is no union is read as
* `Machine.Supplies`, `Machine.SuppliesAll` — the arguments that operands become
* `Machine.Invokes` — the arguments that an implementation is called on

## Main results

* `Machine.applyFunction_of_invokes`, `Machine.applyFunction_of_not_invokes` — calls and errors
* `Machine.suppliesAll_of_invokes` — where the arguments come from
* `Machine.SuppliesAll.length_eq`, `Machine.SuppliesAll.getElem?_eq` — their number and their order
* `Machine.arguments_of_fixedArity` — functions that always take the same number of arguments
-/

namespace CellFormula

open Worksheet (FunctionInfo Implementation functionAt?)

/-! ### Calls as tokens -/

namespace Token

/-- The index of the function that the token calls, if it calls one. -/
def calledIndex? : Token → Option UInt16
  | call c _ => some c.index
  | hint a => if a.isSum then some Worksheet.sumIndex else none
  | _ => none

variable {t : Token}

/-- What a token that calls a function asks for is a look-up of that function. -/
theorem exists_action_eq_ofCall {index : UInt16} (h : t.calledIndex? = some index) :
    ∃ count, t.action = .ofCall index count := by
  cases t with
  | call c cls =>
    cases h
    exact ⟨c.argumentCount, rfl⟩
  | hint a =>
    rw [calledIndex?] at h
    split at h
    · next hsum =>
      cases h
      exact ⟨fun _ => 1, if_pos hsum⟩
    · cases h
  | _ => cases h

/-- A token that calls no function asks for no look-up. -/
theorem action_of_calledIndex?_eq_none (h : t.calledIndex? = none) :
    (∀ function, t.action ≠ .unknownFunction function) ∧
      ∀ info count, t.action ≠ .call info count := by
  cases t with
  | call c cls => cases h
  | hint a =>
    have hsum : ¬ a.isSum = true := fun hsum => by rw [calledIndex?, if_pos hsum] at h; cases h
    simp [action, hsum]
  | _ => simp [action]

/-- What a call says of its function is what the catalogue says. -/
theorem functionAt?_of_action {info : FunctionInfo} {count : Nat}
    (h : t.action = .call info count) : functionAt? info.index = some info := by
  cases hindex : t.calledIndex? with
  | none => exact absurd h ((action_of_calledIndex?_eq_none hindex).2 info count)
  | some index =>
    obtain ⟨counted, haction⟩ := exists_action_eq_ofCall hindex
    rw [haction, Action.ofCall] at h
    cases hinfo : functionAt? index with
    | none => rw [hinfo] at h; cases h
    | some found =>
      rw [hinfo] at h
      cases h
      rwa [Worksheet.index_of_functionAt? hinfo]

end Token

/-! ### Several ranges -/

namespace Operand

/-- There is more than one range. Unions leave that, and intersections of unions. -/
def IsUnion (o : Operand) : Prop := 1 < o.rangeList.length

/-- The ranges besides the first one. -/
def furtherRanges (o : Operand) : List Range := o.rangeList.tail

theorem furtherRanges_eq_nil_iff {o : Operand} : o.furtherRanges = [] ↔ ¬ o.IsUnion := by
  rw [furtherRanges, IsUnion, ← List.length_eq_zero_iff, List.length_tail]
  omega

end Operand

namespace Machine

variable {m : Machine} {info : FunctionInfo}

/-! ### Reading operands as arguments -/

/-- What an operand that is no union is read as, for a parameter of this class. -/
inductive Gives (m : Machine) (wanted : OperandClass) : Operand → Value → Prop
  /-- A value is read as itself. -/
  | value (v : Value) : Gives m wanted (.value v) v
  /-- A range is cut down where a value is wanted. -/
  | cut (r : Range) (hwanted : wanted = .value) : Gives m wanted (.ranges [r]) (m.readValue [r])
  /-- It is read whole elsewhere. -/
  | whole (r : Range) (hwanted : wanted ≠ .value) : Gives m wanted (.ranges [r]) (m.readWhole r)

/-- The arguments that an operand becomes, for a parameter of this class. -/
inductive Supplies (m : Machine) (wanted : OperandClass) : Operand → List Value → Prop
  | one {o : Operand} {v : Value} (gives : m.Gives wanted o v) : Supplies m wanted o [v]
  /-- Of a union each range is read whole, whatever is wanted. -/
  | each {rs : List Range} (many : 1 < rs.length) :
    Supplies m wanted (.ranges rs) (rs.map m.readWhole)

/-- The arguments that operands become, the first of which has this position. -/
inductive SuppliesAll (m : Machine) (info : FunctionInfo) : Nat → List Operand → List Value → Prop
  | nil (position : Nat) : SuppliesAll m info position [] []
  | cons {position : Nat} {o : Operand} {os : List Operand} {part args : List Value}
    (head : m.Supplies (info.parameterClass position) o part)
    (tail : SuppliesAll m info (position + 1) os args) :
    SuppliesAll m info position (o :: os) (part ++ args)

theorem Gives.not_isUnion {wanted : OperandClass} {o : Operand} {v : Value}
    (h : m.Gives wanted o v) : ¬ o.IsUnion := by
  cases h with
  | value v => exact Nat.not_lt_zero 1
  | cut r => exact Nat.lt_irrefl 1
  | whole r => exact Nat.lt_irrefl 1

namespace Supplies

variable {wanted : OperandClass} {o : Operand} {part : List Value}

/-- An operand becomes one argument, and one more for each further range. -/
theorem length_eq (h : m.Supplies wanted o part) : part.length = o.furtherRanges.length + 1 := by
  cases h with
  | one gives => rw [Operand.furtherRanges_eq_nil_iff.mpr gives.not_isUnion]; rfl
  | @each rs many =>
    rw [List.length_map, Operand.furtherRanges, Operand.rangeList, List.length_tail]
    omega

theorem exists_gives (h : m.Supplies wanted o part) (hone : ¬ o.IsUnion) :
    ∃ v, m.Gives wanted o v ∧ part = [v] := by
  cases h with
  | one gives => exact ⟨_, gives, rfl⟩
  | each many => exact absurd many hone

end Supplies

/-- Every operand that is present becomes arguments. -/
theorem supplies_argumentValues (info : FunctionInfo) (position : Nat) {o : Operand}
    (h : o.Present) :
    m.Supplies (info.parameterClass position) o (m.argumentValues info position o) := by
  cases o with
  | value v => exact .one (.value v)
  | ranges rs =>
    match rs with
    | [] => exact absurd rfl h
    | [r] =>
      by_cases hwanted : info.parameterClass position = .value
      · have hargument : m.argumentValues info position (.ranges [r]) = [m.readValue [r]] := by
          simp [argumentValues, hwanted]
        rw [hargument]
        exact .one (.cut r hwanted)
      · have hargument : m.argumentValues info position (.ranges [r]) = [m.readWhole r] := by
          simp [argumentValues, hwanted]
        rw [hargument]
        exact .one (.whole r hwanted)
    | r :: r' :: rs =>
      have hmany : 1 < (r :: r' :: rs).length := by simp
      rw [argumentValues, if_pos (.inl hmany)]
      exact .each hmany

/-- **The arguments of a call come from its operands**, in their order. -/
theorem suppliesAll_arguments {operands : List Operand} (h : ∀ o ∈ operands, o.Present) :
    m.SuppliesAll info 0 operands (m.arguments info operands) := by
  -- The induction is on the operands that are left, so the position has to be kept.
  have hfrom (position : Nat) : m.SuppliesAll info position operands
      (operands.mapIdx fun i => m.argumentValues info (position + i)).flatten := by
    induction operands generalizing position with
    | nil => exact .nil position
    | cons o os ih =>
      obtain ⟨ho, hos⟩ := List.forall_mem_cons.mp h
      rw [List.mapIdx_cons, List.flatten_cons]
      refine .cons (supplies_argumentValues info position ho) ?_
      simpa only [Nat.add_assoc, Nat.add_comm 1] using ih hos (position + 1)
  rw [arguments]
  simpa only [Nat.zero_add] using hfrom 0

namespace SuppliesAll

variable {position : Nat} {operands : List Operand} {args : List Value}

/-- **There is one argument for each operand, and one for each further range.** -/
theorem length_eq (h : m.SuppliesAll info position operands args) :
    args.length = operands.length + (operands.flatMap Operand.furtherRanges).length := by
  induction h with
  | nil position => rfl
  | cons head _ ih =>
    rw [List.length_append, head.length_eq, ih, List.length_cons, List.flatMap_cons,
      List.length_append]
    omega

/-- So there is one for each operand exactly when none is a union. -/
theorem length_eq_iff (h : m.SuppliesAll info position operands args) :
    args.length = operands.length ↔ ∀ o ∈ operands, ¬ o.IsUnion := by
  rw [h.length_eq, Nat.add_eq_left, List.length_eq_zero_iff, List.flatMap_eq_nil_iff]
  simp only [Operand.furtherRanges_eq_nil_iff]

/-- **An argument is what the operand at its place is read as**, if there is no union up to it. -/
theorem getElem?_eq (h : m.SuppliesAll info position operands args) {i : Nat} {o : Operand}
    (ho : operands[i]? = some o) (hone : ∀ o ∈ operands.take (i + 1), ¬ o.IsUnion) :
    ∃ v, m.Gives (info.parameterClass (position + i)) o v ∧ args[i]? = some v := by
  induction h generalizing i with
  | nil position => cases ho
  | @cons position first os part args head tail ih =>
    obtain ⟨hfirst, hothers⟩ := List.forall_mem_cons.mp hone
    obtain ⟨v, hv, rfl⟩ := head.exists_gives hfirst
    cases i with
    | zero => cases ho; exact ⟨v, hv, rfl⟩
    | succ i =>
      obtain ⟨w, hw, hargument⟩ := ih ho hothers
      rw [Nat.add_right_comm, Nat.add_assoc] at hw
      exact ⟨w, hw, hargument⟩

end SuppliesAll

/-! ### Calls of an implementation -/

/-- A call on these operands calls the implementation on these arguments. -/
structure Invokes (m : Machine) (info : FunctionInfo) (operands : List Operand)
    (imp : Implementation) (args : List Value) : Prop where
  /-- The function takes so many operands. -/
  accepted : info.accepts operands.length = true
  /-- It is not one of the user's functions. -/
  notUser : info.index ≠ Worksheet.userIndex
  bound : m.functions.find? info.index = some imp
  arguments_eq : m.arguments info operands = args
  /-- An error is no argument unless the implementation wants to see errors. -/
  noError : imp.inspectsErrors = false → args.findSome? Value.error? = none

variable {operands : List Operand} {imp : Implementation} {args : List Value}

/-- No error keeps the implementation from being called. -/
theorem Invokes.computes (h : m.Invokes info operands imp args) :
    (if imp.inspectsErrors then none else args.findSome? Value.error?) = none := by
  cases hinspects : imp.inspectsErrors with
  | true => rfl
  | false => exact h.noError hinspects

theorem applyFunction_of_invokes (h : m.Invokes info operands imp args) :
    m.applyFunction info operands
      = .ok (.value (imp.compute ⟨m.place, info⟩ args).normalize) := by
  simp only [applyFunction, h.accepted, h.notUser, h.bound, callValue, h.arguments_eq, h.computes]
  rfl

/-- Without an implementation that is called, a call is an error or fails. -/
theorem applyFunction_of_not_invokes (h : ∀ imp args, ¬ m.Invokes info operands imp args) :
    (∃ kind, m.applyFunction info operands = .ok (.error kind)) ∨
      m.applyFunction info operands = .error (.notImplemented info.index info.name) := by
  cases haccepted : info.accepts operands.length with
  | false => exact .inl ⟨.value, by simp [applyFunction, haccepted]⟩
  | true =>
    by_cases huser : info.index = Worksheet.userIndex
    · exact .inl ⟨.name, by simp [applyFunction, haccepted, huser]⟩
    · cases hbound : m.functions.find? info.index with
      | none => exact .inr (by simp [applyFunction, haccepted, huser, hbound])
      | some imp =>
        have herrors : ¬ (imp.inspectsErrors = false →
            (m.arguments info operands).findSome? Value.error? = none) :=
          fun hnone => h imp _ ⟨haccepted, huser, hbound, rfl, hnone⟩
        obtain ⟨hinspects, hsome⟩ := Classical.not_imp.mp herrors
        obtain ⟨kind, hkind⟩ := Option.ne_none_iff_exists'.mp hsome
        refine .inl ⟨kind, ?_⟩
        simp [applyFunction, haccepted, huser, hbound, callValue, hinspects, hkind, Operand.error]

/-- **Where arguments come from**, in any call that is reached. -/
theorem suppliesAll_of_invokes {f : Formula} (hreached : m.Reaches f info operands)
    (hinvoked : m.Invokes info operands imp args) : m.SuppliesAll info 0 operands args := by
  obtain ⟨before, t, after, -, -, below, hrun⟩ := hreached
  rw [← hinvoked.arguments_eq]
  refine suppliesAll_arguments fun o ho => present_of_run hrun o ?_
  rw [Stack.entries_pushAll]
  exact List.mem_append_left _ (List.mem_reverse.mpr ho)

/-- **What a function sees that always takes the same number of arguments.** Its operands are pushed
by as many parts of the formula, right before the call, and it is called on what they are read as,
in this order, for the value of the call. Each union makes it see one more argument for each of its
ranges after the first. So the number of arguments is the one that it takes exactly when no operand
is a union, and an argument stands at its place if no operand up to there is one. -/
theorem arguments_of_fixedArity {f : Formula} {n : Nat} (hreached : m.Reaches f info operands)
    (hmin : info.minArguments = n) (hmax : info.maxArguments = n)
    (hinvoked : m.Invokes info operands imp args) :
    (∃ lead fs t after, f = lead ++ List.flatten fs ++ t :: after ∧ t.action = .call info n ∧
      fs.length = n ∧ List.Forall₂ m.Pushes fs operands) ∧
    m.applyFunction info operands
      = .ok (.value (imp.compute ⟨m.place, info⟩ args).normalize) ∧
    m.SuppliesAll info 0 operands args ∧
    args.length = n + (operands.flatMap Operand.furtherRanges).length ∧
    (args.length = n ↔ ∀ o ∈ operands, ¬ o.IsUnion) ∧
    ∀ i o, operands[i]? = some o → (∀ o ∈ operands.take (i + 1), ¬ o.IsUnion) →
      ∃ v, m.Gives (info.parameterClass i) o v ∧ args[i]? = some v := by
  have hlength : operands.length = n := by
    have haccepted := hinvoked.accepted
    simp only [FunctionInfo.accepts, hmin, hmax, Bool.and_eq_true, decide_eq_true_eq] at haccepted
    exact Nat.le_antisymm haccepted.2 haccepted.1
  have hsupplies := suppliesAll_of_invokes hreached hinvoked
  refine ⟨?_, applyFunction_of_invokes hinvoked, hsupplies, ?_, ?_, ?_⟩
  · obtain ⟨before, t, after, rfl, haction, hfinds⟩ := hreached
    obtain ⟨lead, fs, rfl, hfs⟩ := hfinds.exists_pushes
    exact ⟨lead, fs, t, after, rfl, hlength ▸ haction, hfs.length_eq.trans hlength, hfs⟩
  · rw [← hlength]
    exact hsupplies.length_eq
  · rw [← hlength]
    exact hsupplies.length_eq_iff
  · intro i o ho hone
    simpa only [Nat.zero_add] using hsupplies.getElem?_eq ho hone

end Machine

/-- The remainder, which takes two values. -/
def Worksheet.moduloInfo : FunctionInfo := ⟨39, "MOD", 2, 2, .value, [.value], false⟩

namespace Machine

open Worksheet (moduloInfo)

/-- A call of the remainder without errors among its arguments. -/
theorem invokes_modulo {source : CellSource} {operands : List Operand} {args : List Value}
    (hcount : operands.length = 2)
    (hargs : (Machine.over source).arguments moduloInfo operands = args)
    (hnone : args.findSome? Value.error? = none) :
    ∃ imp, (Machine.over source).Invokes moduloInfo operands imp args := by
  refine ⟨(Worksheet.plainBuiltin "MOD" Worksheet.modulo).implementation, ?_, by decide, ?_, hargs,
    fun _ => hnone⟩
  · rw [hcount]
    rfl
  · exact Worksheet.find?_builtin (List.mem_of_getElem? (i := 32) rfl) (by decide +kernel)

/-- `MOD(A1,TRUE)`: the first argument is the cell, and the second one the constant. -/
theorem arguments_of_fixedArity_modulo :
    let m : Machine := .over (.ofCells fun _ _ _ => .text "cell")
    let cell : Token := .reference (.cell (.relative 0 0)) .reference
    let f : Formula := [cell, .literal (.boolean true), .call (.fixed 39) .value]
    let operands : List Operand := [.ranges [.single .current 0 0], .value (.boolean true)]
    ∃ imp args, m.Reaches f moduloInfo operands ∧ m.Invokes moduloInfo operands imp args ∧
      args.length = 2 ∧ args[1]? = some (.boolean true) := by
  intro m cell f operands
  have hreached : m.Reaches f moduloInfo operands :=
    ⟨[cell, .literal (.boolean true)], .call (.fixed 39) .value, [], rfl, rfl, .empty, rfl⟩
  obtain ⟨imp, hinvoked⟩ : ∃ imp, m.Invokes moduloInfo operands imp [.text "cell", .boolean true] :=
    invokes_modulo rfl rfl rfl
  obtain ⟨-, -, -, -, hnumber, hplace⟩ := arguments_of_fixedArity hreached rfl rfl hinvoked
  have hnone : ∀ o ∈ operands, ¬ o.IsUnion := by
    simp [operands, Operand.IsUnion, Operand.rangeList]
  obtain ⟨v, hgives, hsecond⟩ := hplace 1 (.value (.boolean true)) rfl hnone
  cases hgives
  exact ⟨imp, _, hreached, hinvoked, hnumber.mpr hnone, hsecond⟩

/-- `MOD((A1,B1),TRUE)`: three arguments for the two operands, and the second argument is not the
second operand but the second range of the first one. -/
theorem arguments_of_union :
    let m : Machine := .over (.ofCells fun _ _ _ => .text "cell")
    let cell (col : UInt16) : Token := .reference (.cell (.relative 0 col)) .reference
    let f : Formula := [cell 0, cell 1, .operator .union, .literal (.boolean true),
      .call (.fixed 39) .value]
    let operands : List Operand :=
      [.ranges [.single .current 0 0, .single .current 0 1], .value (.boolean true)]
    ∃ imp args, m.Reaches f moduloInfo operands ∧ moduloInfo.minArguments = 2 ∧
      moduloInfo.maxArguments = 2 ∧ m.Invokes moduloInfo operands imp args ∧ args.length = 3 ∧
      m.Gives (moduloInfo.parameterClass 1) (.value (.boolean true)) (.boolean true) ∧
      args[1]? ≠ some (.boolean true) := by
  intro m cell f operands
  have hreached : m.Reaches f moduloInfo operands :=
    ⟨[cell 0, cell 1, .operator .union, .literal (.boolean true)], .call (.fixed 39) .value, [],
      rfl, rfl, .empty, rfl⟩
  obtain ⟨imp, hinvoked⟩ : ∃ imp, m.Invokes moduloInfo operands imp
      [m.readWhole (.single .current 0 0), m.readWhole (.single .current 0 1), .boolean true] :=
    invokes_modulo rfl rfl rfl
  exact ⟨imp, _, hreached, rfl, rfl, hinvoked, rfl, .value _, fun hsame => by cases hsame⟩

end Machine

end CellFormula
