import CellFormula.Evaluation.Broadcast
import CellFormula.Number.Overflowing
import CellFormula.Value.Coercion

/-!
# Functions of numbers and texts as worksheet functions

Most worksheet functions are functions of one or two numbers, or of one text, that are applied cell
by cell and fail with the error of the first argument that cannot be coerced. The lifts here make
such worksheet functions; a lifted function that is given another number of arguments answers with
a value error in every cell.

## Main definitions

* `liftNumber`, `liftNumber2`, `liftText`, `liftFirst`
* `liftOverflowing` — the lift of a function in which a difference may overflow
* `optionalArgument` — an argument that may be absent or left out
-/

namespace CellFormula.Worksheet

/-- A function of one number, cell by cell. -/
def liftNumber (f : Float → Except ErrorKind Float) (args : List Value) : Value :=
  broadcast args fun
    | [v] => .ofResult (v.toNumber >>= f)
    | _ => .error .value

/-- A function of two numbers, cell by cell. -/
def liftNumber2 (f : Float → Float → Except ErrorKind Float) (args : List Value) : Value :=
  broadcast args fun
    | [a, b] => .ofResult do
      let x ← a.toNumber
      let y ← b.toNumber
      f x y
    | _ => .error .value

/-- A function of the first argument, cell by cell. Further arguments count for the shape only. -/
def liftFirst (f : Value → Value) (args : List Value) : Value :=
  broadcast args fun
    | v :: _ => f v
    | [] => .error .value

/-- A function of one value in which a difference may overflow, cell by cell. One cell is enough for
the whole to overflow. -/
def liftOverflowing (f : Value → Overflowing Value) (v : Value) : Overflowing Value where
  wrapped := liftFirst (fun e => (f e).wrapped) [v]
  overflows :=
    match v with
    | .area block => block.values.any fun e => (f e).overflows
    | e => (f e).overflows

theorem wrapped_liftOverflowing (f : Value → Overflowing Value) (v : Value) :
    (liftOverflowing f v).wrapped = liftFirst (fun e => (f e).wrapped) [v] := rfl

/-- The outcome of a computation of a value. -/
def valueOrError {α : Type} (f : α → Value) : Except ErrorKind α → Value
  | .ok a => f a
  | .error kind => .error kind

/-- A function of the text of the first argument, cell by cell. -/
def liftText (f : String → Value) : List Value → Value :=
  liftFirst fun v => valueOrError f v.toText

/-- The argument at a position, if it is there and was not left out. -/
def optionalArgument (args : List Value) (position : Nat) : Option Value :=
  match args[position]? with
  | none => none
  | some .missing => none
  | some v => some v

end CellFormula.Worksheet
