import CellFormula.Proofs.CallArguments
import CellFormula.Proofs.CellRules

/-!
# Accesses to arguments by position

Some built-in functions take an argument by its position, or an element where they are applied cell
by cell, and do not ask whether it is there. Here those functions are written a second time, with
accesses that can fail: `CheckedBuiltin.body` has no value as soon as one access fails, in any cell.
For all other functions nothing is written a second time, because they take their arguments apart
by cases or all together.

## Why no access fails

Nothing in the functions themselves keeps an access from failing. How many arguments a function
needs is part of its entry here, with proofs that those suffice and that fewer do not. That it gets
as many is a fact about evaluations: the catalogue asks for at least as many operands as the
function needs arguments, calls with fewer operands are errors, and an operand that was pushed is
never without a range, so that it becomes at least one argument.

## Main definitions

* `elementLists`, `broadcast?` — accesses that can fail, cell by cell
* `CheckedBuiltin` — a function whose accesses can fail, and the number of arguments that it needs
* `checkedBuiltins` — all built-in functions

## Main results

* `broadcast?_eq_some` — accesses to elements succeed if there are as many as arguments
* `needed_le_minArguments` — the catalogue asks for as many operands as a function needs
* `Machine.no_access_fails` — in no evaluation an access fails
-/

namespace CellFormula

/-! ### Accesses cell by cell -/

/-- The lists of elements that a function is applied to, cell by cell. -/
def elementLists (args : List Value) : List (List Value) :=
  match areasOf args with
  | [] => [args]
  | anchor :: others =>
    let rows := others.foldl (fun n block => max n block.rows) anchor.rows
    let cols := others.foldl (fun n block => max n block.cols) anchor.cols
    (List.range rows).flatMap fun row => (List.range cols).filterMap (elementsAt? args row)

/-- A function that may have no value, applied cell by cell: it has to have one in every cell. -/
def broadcast? (args : List Value) (f : List Value → Option Value) : Option Value :=
  if (elementLists args).all fun elements => (f elements).isSome then
    some (broadcast args fun elements => (f elements).getD .missing)
  else none

/-- There are as many elements as arguments. -/
theorem length_of_mem_elementLists {args elements : List Value}
    (h : elements ∈ elementLists args) : elements.length = args.length := by
  rw [elementLists] at h
  split at h
  · rw [List.mem_singleton.mp h]
  · obtain ⟨row, -, hrow⟩ := List.mem_flatMap.mp h
    obtain ⟨col, -, hcol⟩ := List.mem_filterMap.mp hrow
    exact (contributes_of_elementsAt? hcol).length_eq.symm

/-- Two functions give the same, cell by cell, if they agree on as many elements as arguments. -/
theorem broadcast_congr {args : List Value} {f g : List Value → Value}
    (h : ∀ elements, elements.length = args.length → f elements = g elements) :
    broadcast args f = broadcast args g :=
  broadcast_congr_contributed fun elements helements => h elements helements.length_eq.symm

/-- **Accesses to elements succeed** cell by cell, if they do on as many elements as arguments. -/
theorem broadcast?_eq_some {args : List Value} {f? : List Value → Option Value}
    {f : List Value → Value}
    (h : ∀ elements, elements.length = args.length → f? elements = some (f elements)) :
    broadcast? args f? = some (broadcast args f) := by
  have hall : (elementLists args).all (fun elements => (f? elements).isSome) = true := by
    refine List.all_eq_true.mpr fun elements helements => ?_
    rw [h elements (length_of_mem_elementLists helements)]
    rfl
  rw [broadcast?, if_pos hall]
  refine congrArg some (broadcast_congr fun elements hlength => ?_)
  rw [h elements hlength]
  rfl

namespace Worksheet

/-! ### Functions with accesses that can fail -/

/-- A function of the first element, which is accessed by its position, cell by cell. -/
def liftFirst? (f : Value → Value) (args : List Value) : Option Value :=
  broadcast? args fun elements => do
    let v ← elements[0]?
    return f v

/-- There is a first element if there is an argument. -/
theorem liftFirst?_eq_some (f : Value → Value) {args : List Value} (h : 1 ≤ args.length) :
    liftFirst? f args = some (liftFirst f args) := by
  rw [liftFirst?, liftFirst]
  refine broadcast?_eq_some fun elements hlength => ?_
  cases elements with
  | nil =>
    rw [← hlength] at h
    exact absurd h (Nat.not_succ_le_zero 0)
  | cons v others => rfl

/-- A built-in function with accesses that can fail, and the number of arguments that it needs. -/
structure CheckedBuiltin where
  builtin : Builtin
  /-- The number of arguments that the function needs. -/
  needed : Nat
  /-- What the function computes, unless an access fails. -/
  body : Place → List Value → Option Value
  /-- On as many arguments as are needed no access fails. -/
  agrees : ∀ place args, needed ≤ args.length → body place args = some (builtin.body place args)
  /-- On fewer arguments one does. -/
  fails : ∀ place args, args.length < needed → body place args = none

theorem eq_nil_of_length_lt_one {args : List Value} (h : args.length < 1) : args = [] :=
  List.eq_nil_of_length_eq_zero (Nat.lt_one_iff.mp h)

namespace CheckedBuiltin

/-- A function without accesses by position. -/
def free (b : Builtin) : CheckedBuiltin where
  builtin := b
  needed := 0
  body place args := some (b.body place args)
  agrees _ _ _ := rfl
  fails _ _ h := absurd h (Nat.not_lt_zero _)

/-- A function of the first element, cell by cell. -/
def ofElement (name : String) (inspectsErrors : Bool) (f : Value → Value) : CheckedBuiltin where
  builtin := ⟨name, inspectsErrors, fun _ args => liftFirst f args⟩
  needed := 1
  body _ := liftFirst? f
  agrees _ _ h := liftFirst?_eq_some f h
  fails _ _ h := by rw [eq_nil_of_length_lt_one h]; rfl

/-- A question about the first element. -/
def question (name : String) (test : Value → Bool) : CheckedBuiltin :=
  ofElement name true fun v => .boolean (test v)

/-- A function of the text of the first element. -/
def ofText (name : String) (f : String → Value) : CheckedBuiltin :=
  ofElement name false fun v => valueOrError f v.toText

/-- A function that takes a part from a side of a text: the first argument with a count, and then
both elements, cell by cell. -/
def ofSide (name : String) (cut : Nat → String → String) : CheckedBuiltin where
  builtin := plainBuiltin name (side cut)
  needed := 1
  body _ args := do
    let text ← args[0]?
    broadcast? [text, (optionalArgument args 1).getD (.number 1.0)] fun elements => do
      let t ← elements[0]?
      let n ← elements[1]?
      return valueOrError .text (partOf cut t n)
  agrees _ args hneeded := by
    cases args with
    | nil => exact absurd hneeded (Nat.not_succ_le_zero 0)
    | cons text others =>
      change broadcast? [text, _] _ = some (side cut (text :: others))
      rw [side]
      refine broadcast?_eq_some fun elements hlength => ?_
      obtain ⟨t, n, rfl⟩ := List.length_eq_two.mp hlength
      rfl
  fails _ _ h := by rw [eq_nil_of_length_lt_one h]; rfl

/-- A function of its first argument alone, if the second one is not given: it takes a slice. -/
def ofSlice (name : String) (one two : List Value → Value) : CheckedBuiltin where
  builtin := plainBuiltin name fun args =>
    if (optionalArgument args 1).isNone then one (args.take 1) else two args
  needed := 1
  body _ args :=
    if (optionalArgument args 1).isNone then
      if 1 ≤ args.length then some (one (args.take 1)) else none
    else some (two args)
  agrees _ args hneeded := by
    rw [if_pos hneeded]
    exact (apply_ite some _ _ _).symm
  fails _ _ h := by rw [eq_nil_of_length_lt_one h]; rfl

/-- A function that rounds. -/
def ofRounding (name : String) (mode : Rounding) : CheckedBuiltin :=
  ofSlice name (liftNumber fun x => .ok (mode.toPlaces x 0.0))
    (liftNumber2 fun x places => .ok (mode.toPlaces x places))

/-- A function that looks at its first argument only. -/
def ofFirst (name : String) (f : Place → List Value → Value)
    (h : ∀ place v others, f place (v :: others) = f place [v]) : CheckedBuiltin where
  builtin := placedBuiltin name f
  needed := 1
  body place args := do
    let v ← args[0]?
    return f place [v]
  agrees place args hneeded := by
    cases args with
    | nil => exact absurd hneeded (Nat.not_succ_le_zero 0)
    | cons v others => exact congrArg some (h place v others).symm
  fails _ _ h := by rw [eq_nil_of_length_lt_one h]; rfl

/-- `MMULT` takes two arguments. -/
def product : CheckedBuiltin where
  builtin := placedBuiltin "MMULT" multiplied
  needed := 2
  body place args := do
    let l ← args[0]?
    let r ← args[1]?
    return multiplied place [l, r]
  agrees place args hneeded := by
    match args with
    | [] => exact absurd hneeded (Nat.not_succ_le_zero 1)
    | [_] => exact absurd hneeded (Nat.not_succ_le_self 1)
    | l :: r :: others => rfl
  fails _ args h := by
    match args with
    | [] | [_] => rfl
    | l :: r :: others => exact absurd h (by simp)

/-- `IF` takes the condition, and of the elements in a cell the condition and the branch that is
picked. -/
def choice : CheckedBuiltin where
  builtin := inspectingBuiltin "IF" conditional
  needed := 1
  body _ args := do
    let condition ← args[0]?
    let yes := branchValue args[1]?
    let no := otherwiseValue args
    match condition with
    | .area _ => broadcast? [condition, yes, no] fun elements => do
      let c ← elements[0]?
      match c.toBool with
      | .ok true => elements[1]?
      | .ok false => elements[2]?
      | .error kind => some (.error kind)
    | _ => return pickBranch condition yes no
  agrees _ args hneeded := by
    cases args with
    | nil => exact absurd hneeded (Nat.not_succ_le_zero 0)
    | cons condition others =>
      cases condition with
      | area block =>
        change broadcast? [.area block, _, _] _ = some (broadcast [.area block, _, _] _)
        refine broadcast?_eq_some fun elements hlength => ?_
        obtain ⟨c, y, n, rfl⟩ := List.length_eq_three.mp hlength
        change _ = some (valueOrError _ c.toBool)
        cases htruth : c.toBool with
        | ok b => cases b <;> simp [htruth, valueOrError]
        | error kind => simp [htruth, valueOrError]
      | _ => rfl
  fails _ _ h := by rw [eq_nil_of_length_lt_one h]; rfl

/-- `CHOOSE` takes its selector apart from its choices by cases, and in a cell the one element. -/
def selection : CheckedBuiltin where
  builtin := overflowingBuiltin "CHOOSE" choose
  needed := 0
  body _ args :=
    match args with
    | [] => some (.error .value)
    | selector :: choices => liftFirst? (fun v => (pickFor choices v).wrapped) [selector]
  agrees _ args _ := by
    cases args with
    | nil => rfl
    | cons selector choices => exact liftFirst?_eq_some _ (Nat.le_refl 1)
  fails _ _ h := absurd h (Nat.not_lt_zero _)

end CheckedBuiltin

/-- The built-in functions, in the order of their names. -/
def checkedBuiltins : List CheckedBuiltin :=
  [.free (plainBuiltin "ABS" absolute), .free (plainBuiltin "AND" allTrue),
   .free (plainBuiltin "AVERAGE" average), .selection,
   .ofFirst "COLUMNS" columnCount fun _ v _ => by cases v <;> rfl,
   .free (plainBuiltin "CONCATENATE" concatenated), .free (plainBuiltin "COS" cosine),
   .free (inspectingBuiltin "COUNT" countNumbers), .free (inspectingBuiltin "COUNTA" countValues),
   .free (plainBuiltin "EXP" exponential), .free (plainBuiltin "FALSE" constantFalse),
   .choice, .free (plainBuiltin "INT" roundedDown),
   .question "ISBLANK" fun | .blank => true | _ => false,
   .question "ISERR" fun | .error kind => kind != .na | _ => false,
   .question "ISERROR" Value.isError,
   .question "ISLOGICAL" fun | .boolean _ => true | _ => false,
   .question "ISNA" fun | .error kind => kind == .na | _ => false,
   .question "ISNUMBER" fun | .number _ => true | _ => false,
   .question "ISTEXT" fun | .text _ => true | _ => false,
   .ofSide "LEFT" Text.firstChars,
   .ofText "LEN" fun s => .number (Number.ofCount (Text.charCount s)),
   .free (plainBuiltin "LN" naturalLog), .ofSlice "LOG" log10 (liftNumber2 logTo),
   .free (plainBuiltin "LOG10" log10), .ofText "LOWER" fun s => .text (Text.smallForm s),
   .free (plainBuiltin "MAX" maximum), .ofFirst "MDETERM" determinant fun _ _ _ => rfl,
   .free (plainBuiltin "MID" middle), .free (plainBuiltin "MIN" minimum),
   .ofFirst "MINVERSE" inverted fun _ _ _ => rfl, .product, .free (plainBuiltin "MOD" modulo),
   .free (plainBuiltin "NA" notAvailable),
   .ofElement "NOT" false fun v => valueOrError (fun b => .boolean (!b)) v.toBool,
   .free (plainBuiltin "OR" anyTrue), .free (plainBuiltin "PI" pi),
   .free (plainBuiltin "POWER" raised), .free (plainBuiltin "PRODUCT" product),
   .ofSide "RIGHT" Text.lastChars, .ofRounding "ROUND" .nearest,
   .ofRounding "ROUNDDOWN" .towardsZero, .ofRounding "ROUNDUP" .awayFromZero,
   .ofFirst "ROWS" rowCount fun _ v _ => by cases v <;> rfl, .free (plainBuiltin "SIGN" sign),
   .free (plainBuiltin "SIN" sine), .free (plainBuiltin "SQRT" squareRoot),
   .free (plainBuiltin "SUM" sum), .free (plainBuiltin "TAN" tangent),
   .ofFirst "TRANSPOSE" transposed fun _ _ _ => rfl,
   .ofText "TRIM" fun s => .text (Text.singleSpaced s), .free (plainBuiltin "TRUE" constantTrue),
   .ofRounding "TRUNC" .towardsZero, .ofText "UPPER" fun s => .text (Text.capitalForm s)]

theorem map_builtin_checkedBuiltins : checkedBuiltins.map CheckedBuiltin.builtin = builtins := rfl

theorem mem_checkedBuiltins_of_mem {b : Builtin} (h : b ∈ builtins) :
    ∃ c ∈ checkedBuiltins, c.builtin = b := by
  rw [← map_builtin_checkedBuiltins] at h
  exact List.mem_map.mp h

theorem index?_mem_zip {cs : List CheckedBuiltin} {c : CheckedBuiltin} (h : c ∈ cs) :
    (c.builtin.index?, c.needed)
      ∈ ((cs.map CheckedBuiltin.builtin).map Builtin.index?).zip
        (cs.map CheckedBuiltin.needed) := by
  rw [List.map_map, List.zip_map', Function.comp_def]
  exact List.mem_map_of_mem h

/-- The entry with this index asks for so many operands, if there is one. -/
def asksFor (index? : Option UInt16) (needed : Nat) : Bool :=
  (index?.bind functionAt?).all fun info => decide (needed ≤ info.minArguments)

/-- **The catalogue asks for as many operands as a function needs arguments**, or for more. -/
theorem needed_le_minArguments {c : CheckedBuiltin} (hc : c ∈ checkedBuiltins) {info : FunctionInfo}
    (hindex : c.builtin.index? = some info.index) (hinfo : functionAt? info.index = some info) :
    c.needed ≤ info.minArguments := by
  have hmem := index?_mem_zip hc
  rw [map_builtin_checkedBuiltins, hindex] at hmem
  have hall : ((builtins.map Builtin.index?).zip (checkedBuiltins.map CheckedBuiltin.needed)).all
      (fun entry => asksFor entry.1 entry.2) = true := by
    rw [map_index?_builtins]
    decide +kernel
  have henough : asksFor (some info.index) c.needed = true := List.all_eq_true.mp hall _ hmem
  rw [asksFor, Option.bind_some, hinfo] at henough
  exact of_decide_eq_true henough

end Worksheet

/-! ### Evaluations -/

namespace Machine

open Worksheet (FunctionInfo Implementation FunctionTable CheckedBuiltin checkedBuiltins)

variable {m : Machine} {f : Formula} {info : FunctionInfo} {operands : List Operand}
  {imp : Implementation} {args : List Value}

/-- What an implementation is called on are at least as many arguments as the catalogue asks for. -/
theorem minArguments_le_length (hreached : m.Reaches f info operands)
    (hinvoked : m.Invokes info operands imp args) : info.minArguments ≤ args.length := by
  have haccepted := hinvoked.accepted
  rw [FunctionInfo.accepts, Bool.and_eq_true, decide_eq_true_eq] at haccepted
  calc info.minArguments ≤ operands.length := haccepted.1
    _ ≤ operands.length + (operands.flatMap Operand.furtherRanges).length := Nat.le_add_right _ _
    _ = args.length := (suppliesAll_of_invokes hreached hinvoked).length_eq.symm

/-- **Built-in functions get the arguments that they access.** No entry of the stack is without
ranges, after any tokens of any formula. So whatever is called, is called on at least as many
arguments as the catalogue asks for; and if the built-in function with that index is called on them,
then no access of it to an argument or an element fails. -/
theorem no_access_fails (m : Machine) (f : Formula) :
    (∀ before after stack, f = before ++ after → m.run 0 .empty before = .ok stack →
      ∀ rs, .ranges rs ∈ stack.entries → rs ≠ []) ∧
    ∀ info operands imp args, m.Reaches f info operands → m.Invokes info operands imp args →
      info.minArguments ≤ args.length ∧
      (m.functions = .builtin → ∃ c ∈ checkedBuiltins, c.builtin.index? = some info.index ∧
        c.builtin.implementation = imp) ∧
      ∀ c ∈ checkedBuiltins, c.builtin.index? = some info.index →
        c.body m.place args = some (c.builtin.body m.place args) := by
  constructor
  · intro before after stack _ hrun rs hrs
    exact present_of_run hrun (.ranges rs) hrs
  · intro info operands imp args hreached hinvoked
    have hlength := minArguments_le_length hreached hinvoked
    refine ⟨hlength, ?_, ?_⟩
    · intro hfunctions
      have hbound := hinvoked.bound
      rw [hfunctions] at hbound
      obtain ⟨b, hb, hindex, himp⟩ := Worksheet.exists_builtin_of_find? hbound
      obtain ⟨c, hc, rfl⟩ := Worksheet.mem_checkedBuiltins_of_mem hb
      exact ⟨c, hc, hindex, himp⟩
    · intro c hc hindex
      obtain ⟨before, t, after, -, haction, -⟩ := hreached
      have hneeded :=
        Worksheet.needed_le_minArguments hc hindex (Token.functionAt?_of_action haction)
      exact c.agrees m.place args (Nat.le_trans hneeded hlength)

/-- `ROWS((A1,B1))`: the function takes one argument, and it is called on two. -/
theorem no_access_fails_rows :
    let m : Machine := .over (.ofCells fun _ _ _ => .text "cell")
    let cell (col : UInt16) : Token := .reference (.cell (.relative 0 col)) .reference
    let f : Formula := [cell 0, cell 1, .operator .union, .call (.fixed 76) .value]
    let info : FunctionInfo := ⟨76, "ROWS", 1, 1, .value, [.reference], false⟩
    let operands : List Operand := [.ranges [.single .current 0 0, .single .current 0 1]]
    ∃ imp args, m.Reaches f info operands ∧ m.Invokes info operands imp args ∧ args.length = 2 ∧
      ∃ c ∈ checkedBuiltins, c.builtin.implementation = imp ∧
        c.body m.place args = some (c.builtin.body m.place args) := by
  intro m cell f info operands
  have hreached : m.Reaches f info operands :=
    ⟨[cell 0, cell 1, .operator .union], .call (.fixed 76) .value, [], rfl, rfl, .empty, rfl⟩
  have hinvoked : m.Invokes info operands
      (Worksheet.placedBuiltin "ROWS" Worksheet.rowCount).implementation
      [m.readWhole (.single .current 0 0), m.readWhole (.single .current 0 1)] :=
    ⟨rfl, by decide,
      Worksheet.find?_builtin (List.mem_of_getElem? (i := 43) rfl) (by decide +kernel), rfl,
      fun _ => rfl⟩
  obtain ⟨-, hbuiltin, haccess⟩ := (no_access_fails m f).2 _ _ _ _ hreached hinvoked
  obtain ⟨c, hc, hindex, himp⟩ := hbuiltin rfl
  exact ⟨_, _, hreached, hinvoked, rfl, c, hc, himp, haccess c hc hindex⟩

end Machine

end CellFormula
