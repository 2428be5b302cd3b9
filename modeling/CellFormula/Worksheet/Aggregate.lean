import CellFormula.Value.Coercion

/-!
# Functions that sum up their arguments

Sums, means, extremes and counts look at all arguments together. Inside an area only the cells of
the right kind count, and the first error cell decides; an argument of its own is coerced, and one
that was left out counts as zero.

## Order of addition

Numbers are added from left to right, areas row by row, starting from negative zero: that is the
number that changes no sum, and the sum of nothing shows it. A product starts from one.

## Main definitions

* `numbersOf` — the numbers that an aggregate sees
* `sum`, `average`, `minimum`, `maximum`, `product`
* `countNumbers`, `countValues` — how many numbers, and how many values, there are
* `allTrue`, `anyTrue` — the truth values taken together
-/

namespace CellFormula.Worksheet

/-- What a cell of an area contributes to the numbers: itself, nothing, or its error. -/
def cellNumber : Value → Except ErrorKind (Option Float)
  | .number x => .ok (some x)
  | .error kind => .error kind
  | _ => .ok none

/-- The numbers that one argument contributes. -/
def numbersOfArgument : Value → Except ErrorKind (List Float)
  | .area block => block.values.filterMapM cellNumber
  | v => return [← v.toNumber]

/-- The numbers that the arguments contribute, or the first error. -/
def numbersOf (args : List Value) : Except ErrorKind (List Float) := do
  return (← args.mapM numbersOfArgument).flatten

/-- A value computed from the numbers of the arguments. -/
def aggregate (f : List Float → Except ErrorKind Float) (args : List Value) : Value :=
  .ofResult (numbersOf args >>= f)

/-- The numbers added up from left to right, from negative zero on. -/
def sumOf (xs : List Float) : Float := xs.foldl (· + ·) (-0.0)

/-- The numbers multiplied from left to right, from one on. -/
def productOf (xs : List Float) : Float := xs.foldl (· * ·) 1.0

/-- The best of the numbers, or zero if there are none. -/
def bestOf (better : Float → Float → Float) : List Float → Float
  | [] => 0.0
  | x :: xs => xs.foldl better x

/-- `SUM` -/
def sum : List Value → Value := aggregate fun xs => .ok (sumOf xs)

/-- `AVERAGE` -/
def average : List Value → Value := aggregate fun xs =>
  if xs.isEmpty then .error .div0 else .ok (sumOf xs / Number.ofCount xs.length)

/-- `MIN` -/
def minimum : List Value → Value := aggregate fun xs => .ok (bestOf Number.lesser xs)

/-- `MAX` -/
def maximum : List Value → Value := aggregate fun xs => .ok (bestOf Number.greater xs)

/-- `PRODUCT` -/
def product : List Value → Value := aggregate fun xs =>
  .ok (if xs.isEmpty then 0.0 else productOf xs)

/-! ### Counts -/

/-- The value is a number. -/
def isNumber : Value → Bool
  | .number _ => true
  | _ => false

/-- How many numbers an argument holds. Texts count when they spell a number. -/
def numbersIn : Value → Nat
  | .area block => block.values.countP isNumber
  | .number _ | .boolean _ => 1
  | .text s => if (Number.numberOfText? s).isSome then 1 else 0
  | .blank | .missing | .error _ => 0

/-- The value is an empty cell. -/
def isBlank : Value → Bool
  | .blank => true
  | _ => false

/-- How many values an argument holds. An empty cell holds none inside an area, and an argument of
its own holds one unless it was left out. -/
def valuesIn : Value → Nat
  | .area block => block.values.countP fun v => !isBlank v
  | .missing => 0
  | _ => 1

/-- A count over all arguments. -/
def countOf (count : Value → Nat) (args : List Value) : Value :=
  .number (Number.ofCount ((args.map count).foldr (· + ·) 0))

/-- `COUNT` -/
def countNumbers : List Value → Value := countOf numbersIn

/-- `COUNTA` -/
def countValues : List Value → Value := countOf valuesIn

/-! ### Truth values together -/

/-- What a cell of an area contributes to the truth values: itself, nothing, or its error. -/
def cellTruth : Value → Except ErrorKind (Option Bool)
  | .boolean b => .ok (some b)
  | .number x => .ok (some (x != 0.0))
  | .error kind => .error kind
  | _ => .ok none

/-- The truth values that one argument contributes. -/
def truthsOfArgument : Value → Except ErrorKind (List Bool)
  | .area block => block.values.filterMapM cellTruth
  | .blank | .missing => .ok []
  | v => return [← v.toBool]

/-- The truth values that the arguments contribute, or the first error. -/
def truthsOf (args : List Value) : Except ErrorKind (List Bool) := do
  return (← args.mapM truthsOfArgument).flatten

/-- A truth value computed from those of the arguments. Without any there is nothing to say. -/
def aggregateTruths (f : List Bool → Bool) (args : List Value) : Value :=
  match truthsOf args with
  | .ok [] => .error .value
  | .ok bs => .boolean (f bs)
  | .error kind => .error kind

/-- `AND` -/
def allTrue : List Value → Value := aggregateTruths fun bs => bs.all id

/-- `OR` -/
def anyTrue : List Value → Value := aggregateTruths fun bs => bs.any id

end CellFormula.Worksheet
