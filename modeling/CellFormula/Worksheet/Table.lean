import CellFormula.Evaluation.Place
import CellFormula.Worksheet.Aggregate
import CellFormula.Worksheet.Arrays
import CellFormula.Worksheet.Catalogue
import CellFormula.Worksheet.Logical
import CellFormula.Worksheet.Numeric
import CellFormula.Worksheet.Textual

/-!
# The functions that can be computed

A `FunctionTable` binds indices to implementations. The catalogue says what may be called; the table
says what happens then, and a caller may bind an index anew. The built-in functions are listed by
name, and the catalogue gives the index of each.

## Implementation notes

A table is a list of bindings in the order of their indices, so it has one form for what it binds,
and the indices it shows are in order.

## Main definitions

* `Implementation` — what is called, and whether it wants to see errors
* `FunctionTable`, `FunctionTable.bind`, `FunctionTable.bindNamed?`, `FunctionTable.find?`
* `builtins`, `FunctionTable.builtin` — the built-in functions
-/

namespace CellFormula.Worksheet

/-- What an implementation sees besides its arguments. -/
structure CallContext where
  /-- The cell that the formula is evaluated for. -/
  place : Place
  /-- The function that is called. -/
  function : FunctionInfo

/-- Something that can be called. -/
structure Implementation where
  /-- Error arguments are passed on to it. Otherwise the first one is the value of the call. -/
  inspectsErrors : Bool
  /-- What comes of a call. -/
  outcome : CallContext → List Value → Overflowing Value

/-- The value of a call. Differences that overflow wrap around. -/
def Implementation.compute (f : Implementation) (context : CallContext) (args : List Value) :
    Value :=
  (f.outcome context args).wrapped

/-- Implementations by the index of their function, in the order of the indices. -/
structure FunctionTable where
  bindings : List (UInt16 × Implementation)

/-- The bindings with one more, in order; a binding of the same index goes. -/
def insertBinding (index : UInt16) (f : Implementation) :
    List (UInt16 × Implementation) → List (UInt16 × Implementation)
  | [] => [(index, f)]
  | (i, g) :: rest =>
    if index < i then (index, f) :: (i, g) :: rest
    else if index = i then (index, f) :: rest
    else (i, g) :: insertBinding index f rest

namespace FunctionTable

/-- The table without functions. -/
def empty : FunctionTable := ⟨[]⟩

/-- The implementation that is bound to an index. -/
def find? (t : FunctionTable) (index : UInt16) : Option Implementation := t.bindings.lookup index

/-- An implementation is bound to the index. -/
def contains (t : FunctionTable) (index : UInt16) : Bool := (t.find? index).isSome

/-- The table with an index bound anew. -/
def bind (t : FunctionTable) (index : UInt16) (f : Implementation) : FunctionTable :=
  ⟨insertBinding index f t.bindings⟩

/-- The table with the index of a name bound anew, and that index, if there is such a function. -/
def bindNamed? (t : FunctionTable) (name : String) (f : Implementation) :
    Option (UInt16 × FunctionTable) :=
  (functionNamed? name).map fun info => (info.index, t.bind info.index f)

/-- The number of functions. -/
def size (t : FunctionTable) : Nat := t.bindings.length

/-- The indices that are bound, in order. -/
def indices (t : FunctionTable) : List UInt16 := t.bindings.map (·.1)

/-- The table as text: its indices. -/
def describe (t : FunctionTable) : String :=
  "FunctionTable \x7b ids: [" ++ ", ".intercalate (t.indices.map fun i => toString i.toNat)
    ++ "] \x7d"

end FunctionTable

/-! ### The built-in functions -/

/-- A function that comes with the library. -/
structure Builtin where
  name : String
  inspectsErrors : Bool
  outcome : Place → List Value → Overflowing Value

/-- The value that the function gives. Differences that overflow wrap around. -/
def Builtin.body (b : Builtin) (place : Place) (args : List Value) : Value :=
  (b.outcome place args).wrapped

/-- A function that does not look at the formula's cell and does not want to see errors. -/
def plainBuiltin (name : String) (f : List Value → Value) : Builtin :=
  ⟨name, false, fun _ args => f args⟩

/-- A function that does not look at the formula's cell and is passed errors. -/
def inspectingBuiltin (name : String) (f : List Value → Value) : Builtin :=
  ⟨name, true, fun _ args => f args⟩

/-- A function that looks at the formula's cell. -/
def placedBuiltin (name : String) (f : Place → List Value → Value) : Builtin :=
  ⟨name, false, fun place args => f place args⟩

/-- A function that is passed errors, and in which a difference may overflow. -/
def overflowingBuiltin (name : String) (f : List Value → Overflowing Value) : Builtin :=
  ⟨name, true, fun _ => f⟩

/-- The built-in functions, in the order of their names. -/
def builtins : List Builtin :=
  [plainBuiltin "ABS" absolute, plainBuiltin "AND" allTrue, plainBuiltin "AVERAGE" average,
   overflowingBuiltin "CHOOSE" choose, placedBuiltin "COLUMNS" columnCount,
   plainBuiltin "CONCATENATE" concatenated, plainBuiltin "COS" cosine,
   inspectingBuiltin "COUNT" countNumbers, inspectingBuiltin "COUNTA" countValues,
   plainBuiltin "EXP" exponential, plainBuiltin "FALSE" constantFalse,
   inspectingBuiltin "IF" conditional, plainBuiltin "INT" roundedDown,
   inspectingBuiltin "ISBLANK" asksBlank, inspectingBuiltin "ISERR" asksOtherError,
   inspectingBuiltin "ISERROR" asksError, inspectingBuiltin "ISLOGICAL" asksTruth,
   inspectingBuiltin "ISNA" asksNotAvailable, inspectingBuiltin "ISNUMBER" asksNumber,
   inspectingBuiltin "ISTEXT" asksText, plainBuiltin "LEFT" left, plainBuiltin "LEN" length,
   plainBuiltin "LN" naturalLog, plainBuiltin "LOG" log, plainBuiltin "LOG10" log10,
   plainBuiltin "LOWER" lower, plainBuiltin "MAX" maximum, placedBuiltin "MDETERM" determinant,
   plainBuiltin "MID" middle, plainBuiltin "MIN" minimum, placedBuiltin "MINVERSE" inverted,
   placedBuiltin "MMULT" multiplied, plainBuiltin "MOD" modulo, plainBuiltin "NA" notAvailable,
   plainBuiltin "NOT" negate, plainBuiltin "OR" anyTrue, plainBuiltin "PI" pi,
   plainBuiltin "POWER" raised, plainBuiltin "PRODUCT" product, plainBuiltin "RIGHT" right,
   plainBuiltin "ROUND" round, plainBuiltin "ROUNDDOWN" roundDown, plainBuiltin "ROUNDUP" roundUp,
   placedBuiltin "ROWS" rowCount, plainBuiltin "SIGN" sign, plainBuiltin "SIN" sine,
   plainBuiltin "SQRT" squareRoot, plainBuiltin "SUM" sum, plainBuiltin "TAN" tangent,
   placedBuiltin "TRANSPOSE" transposed, plainBuiltin "TRIM" trimmed,
   plainBuiltin "TRUE" constantTrue, plainBuiltin "TRUNC" trunc, plainBuiltin "UPPER" upper]

namespace Builtin

/-- The function as an implementation. -/
def implementation (b : Builtin) : Implementation :=
  ⟨b.inspectsErrors, fun context => b.outcome context.place⟩

theorem compute_implementation (b : Builtin) (context : CallContext) (args : List Value) :
    b.implementation.compute context args = b.body context.place args := rfl

/-- The function as text. -/
def describe (b : Builtin) : String :=
  "BuiltinFunction \x7b name: \"" ++ b.name ++ "\", inspects_errors: "
    ++ (if b.inspectsErrors then "true" else "false") ++ " \x7d"

end Builtin

/-- The built-in function with this name. -/
def builtinNamed? (name : String) : Option Builtin := builtins.find? (·.name == name)

/-- The table with another built-in function, if the catalogue knows it. -/
def FunctionTable.withBuiltin (t : FunctionTable) (b : Builtin) : FunctionTable :=
  match t.bindNamed? b.name b.implementation with
  | some (_, t') => t'
  | none => t

/-- The table of all built-in functions. -/
def FunctionTable.builtin : FunctionTable := builtins.foldl FunctionTable.withBuiltin .empty

end CellFormula.Worksheet
