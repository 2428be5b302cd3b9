import CellFormula.Worksheet.Lifting

/-!
# Choices and questions about values

`IF` and `CHOOSE` pick one of their arguments; a picked argument that was left out counts as zero.
The questions (`ISNUMBER` and the like) ask for the kind of a value and never fail.

## Main definitions

* `conditional`, `choose` — the two choices
* `negate`, `constantTrue`, `constantFalse`, `notAvailable`
* `asks` — a question as a worksheet function, and the questions
-/

namespace CellFormula.Worksheet

/-- The value of a branch. One that is absent or was left out is zero. -/
def branchValue : Option Value → Value
  | none | some .missing => .number 0.0
  | some v => v

/-- The value when a condition fails. Without a third argument that is the truth value itself. -/
def otherwiseValue (args : List Value) : Value :=
  match args[2]? with
  | none => .boolean false
  | some v => branchValue (some v)

/-- The branch that a condition picks. -/
def pickBranch (condition yes no : Value) : Value :=
  valueOrError (fun b => if b then yes else no) condition.toBool

/-- `IF`. An area of conditions picks cell by cell from both branches. -/
def conditional (args : List Value) : Value :=
  match args with
  | [] => .error .value
  | condition :: _ =>
    let yes := branchValue args[1]?
    let no := otherwiseValue args
    match condition with
    | .area _ =>
      broadcast [condition, yes, no] fun
        | [c, y, n] => pickBranch c y n
        | _ => .error .value
    | _ => pickBranch condition yes no

/-- The number of choices as a double. Counts are 64-bit words. -/
def choiceCount (choices : List Value) : Float :=
  Number.ofCount (min choices.length Matrix.countLimit)

/-- The choice with this number, counted from one. A number outside the choices is a value error. A
NaN is not outside, because it is not comparable, and the place before its word overflows. -/
def pickChoice (choices : List Value) (index : Float) : Overflowing Value := do
  if index < 1.0 ∨ choiceCount choices < index then return .error .value
  let place ← .sub index.toUInt64 1
  return branchValue choices[place.toNat]?

theorem pickChoice_eq (choices : List Value) (index : Float) :
    pickChoice choices index
      = if index < 1.0 ∨ choiceCount choices < index then (Value.error .value : Overflowing Value)
        else ⟨branchValue choices[(index.toUInt64 - 1).toNat]?, index.toUInt64 < 1⟩ := by
  rw [pickChoice]
  split
  · rfl
  · simp only [Overflowing.sub, bind, pure, Bool.or_false]

/-- The choice that a selector picks. -/
def pickFor (choices : List Value) (selector : Value) : Overflowing Value :=
  match selector.toNumber with
  | .ok x => pickChoice choices (Number.truncate x)
  | .error kind => Value.error kind

/-- `CHOOSE`. An area of selectors picks cell by cell. -/
def choose (args : List Value) : Overflowing Value :=
  match args with
  | [] => Value.error .value
  | selector :: choices => liftOverflowing (pickFor choices) selector

/-- `NOT` -/
def negate : List Value → Value :=
  liftFirst fun v => valueOrError (fun b => .boolean (!b)) v.toBool

/-- `TRUE` -/
def constantTrue (_ : List Value) : Value := .boolean true

/-- `FALSE` -/
def constantFalse (_ : List Value) : Value := .boolean false

/-- `NA` -/
def notAvailable (_ : List Value) : Value := .error .na

/-! ### Questions -/

/-- A question about a value as a worksheet function. -/
def asks (test : Value → Bool) : List Value → Value := liftFirst fun v => .boolean (test v)

/-- `ISERROR` -/
def asksError : List Value → Value := asks Value.isError

/-- `ISERR`: an error other than that no value is available. -/
def asksOtherError : List Value → Value := asks fun
  | .error kind => kind != .na
  | _ => false

/-- `ISNA` -/
def asksNotAvailable : List Value → Value := asks fun
  | .error kind => kind == .na
  | _ => false

/-- `ISNUMBER` -/
def asksNumber : List Value → Value := asks fun
  | .number _ => true
  | _ => false

/-- `ISTEXT` -/
def asksText : List Value → Value := asks fun
  | .text _ => true
  | _ => false

/-- `ISBLANK` -/
def asksBlank : List Value → Value := asks fun
  | .blank => true
  | _ => false

/-- `ISLOGICAL` -/
def asksTruth : List Value → Value := asks fun
  | .boolean _ => true
  | _ => false

end CellFormula.Worksheet
