import CellFormula.Value.Basic

/-!
# Functions of values, cell by cell

A function of plain values is applied to areas cell by cell. The result is as tall as the tallest
area and as wide as the widest; a plain value, and an area with one row or one column along that
axis, is repeated. Where some area has no cell, the result is a not-available error.

## Main definitions

* `broadcast` — a function of plain values applied to values with areas among them
* `elementAt?` — what one argument contributes at a position
-/

namespace CellFormula

/-- The areas among the values. -/
def areasOf (args : List Value) : List Area :=
  args.filterMap fun
    | .area block => some block
    | _ => none

/-- The place along an axis at which a value of this extent is looked up. One of extent one is
repeated. -/
def repeatedIndex (extent place : Nat) : Nat := if extent = 1 then 0 else place

/-- What an argument contributes at a position of the result. -/
def elementAt? (row col : Nat) : Value → Option Value
  | .area block => block.get? (repeatedIndex block.rows row) (repeatedIndex block.cols col)
  | v => some v

/-- What all arguments contribute at a position, unless one of them has nothing there. -/
def elementsAt? (args : List Value) (row col : Nat) : Option (List Value) :=
  args.mapM (elementAt? row col)

/-- The value at a position of the result. -/
def broadcastCell (args : List Value) (f : List Value → Value) (row col : Nat) : Value :=
  match elementsAt? args row col with
  | some elements => f elements
  | none => .error .na

/-- `f` applied cell by cell if there is an area among the arguments, and once otherwise. The result
begins where the first area begins. -/
def broadcast (args : List Value) (f : List Value → Value) : Value :=
  match areasOf args with
  | [] => f args
  | anchor :: others =>
    let rows := others.foldl (fun n block => max n block.rows) anchor.rows
    let cols := others.foldl (fun n block => max n block.cols) anchor.cols
    match Matrix.generate rows cols (broadcastCell args f) with
    | .ok cells => .area ⟨anchor.firstRow, anchor.firstCol, cells⟩
    | .error e => .error e.kind

end CellFormula
