import CellFormula.Constant.Layout
import CellFormula.Token.OperandClass
import CellFormula.Token.Operator
import CellFormula.Token.Reference

/-!
# Tokens

A formula is a list of tokens in reverse Polish order. Most tokens put an operand on a stack or
combine operands that lie there; some only carry hints, such as parentheses that were typed or
jump distances.

## Two places for one token

A token has an opcode byte and fields behind it, all in the token stream. The literals of array
tokens and the area lists of memory tokens do not fit there: they stand behind the whole stream, and
a token of either kind may be without its literal until that part has been read.

## Main definitions

* `Token` — the tokens; `Attribute`, `MemToken`, `Call` and `Literal` for their kinds
* `Token.opcode`, `Token.baseOpcode`, `Token.operandClass`, `Token.withClass`
* `Token.streamSize`, `Token.trailingSize` — the sizes of its two parts
-/

namespace CellFormula

/-- A literal operand that stands in the token stream. -/
inductive Literal
  | int (n : UInt16)
  | number (x : Binary64)
  | text (s : String)
  | boolean (b : Bool)
  | error (kind : ErrorKind)
deriving DecidableEq, Repr, Inhabited

/-- A rectangle of an area list. -/
structure MemRange where
  firstRow : UInt16
  lastRow : UInt16
  firstCol : UInt16
  lastCol : UInt16
deriving DecidableEq, Repr, Inhabited

/-- A token in front of `size` bytes of tokens that compute a reference. It carries no value. -/
inductive MemToken
  /-- The reference was computed when the formula was stored; `areas` is its outcome. -/
  | area (size : UInt16) (areas : Option (List MemRange))
  | err (code : UInt8) (size : UInt16)
  | noMem (size : UInt16)
  | func (size : UInt16)
  | sharedArea (size : UInt16)
  | sharedNoMem (size : UInt16)
deriving DecidableEq, Repr, Inhabited

namespace MemToken

/-- The base of the opcode. -/
def baseOpcode : MemToken → UInt8
  | area .. => 0x26
  | err .. => 0x27
  | noMem _ => 0x28
  | func _ => 0x29
  | sharedArea _ => 0x2E
  | sharedNoMem _ => 0x2F

/-- The size of the fields behind the opcode. -/
def fieldSize : MemToken → Nat
  | area .. | err .. | noMem _ => 6
  | func _ | sharedArea _ | sharedNoMem _ => 2

end MemToken

/-- Hints on evaluation and layout. The option bits are kept as they were stored, combinations
included. -/
structure Attribute where
  options : UInt8
  data : UInt16
  /-- The jump distances of a choice: one more than `data` says. No other attribute has any. -/
  jumps : List UInt16
deriving DecidableEq, Repr, Inhabited

namespace Attribute

/-- The formula is to be computed again at every change. -/
def volatileBit : UInt8 := 0x01

/-- The attribute carries jump distances, one for each case of a choice. -/
def chooseBit : UInt8 := 0x04

/-- The attribute stands for a sum of one argument. -/
def sumBit : UInt8 := 0x10

/-- The attribute holds white space that was typed. -/
def spaceBit : UInt8 := 0x40

def isVolatile (a : Attribute) : Bool := a.options &&& volatileBit != 0

def isChoose (a : Attribute) : Bool := a.options &&& chooseBit != 0

def isSum (a : Attribute) : Bool := a.options &&& sumBit != 0

def isSpace (a : Attribute) : Bool := a.options &&& spaceBit != 0

/-- An attribute without jumps. -/
def plain (options : UInt8) (data : UInt16) : Attribute := ⟨options, data, []⟩

/-- The attribute of a volatile formula. -/
def markVolatile : Attribute := plain volatileBit 0

/-- The attribute that sums one argument. -/
def sum : Attribute := plain sumBit 0

/-- The attribute of a choice: a jump for each case and one for the end. -/
def choose (jumps : List UInt16) : Attribute :=
  ⟨chooseBit, (jumps.length - 1).toUInt16, jumps⟩

/-- The size of the fields behind the opcode. -/
def fieldSize (a : Attribute) : Nat := 3 + if a.isChoose then 2 * a.jumps.length else 0

end Attribute

/-- A call of a worksheet function by its index. -/
inductive Call
  /-- The number of arguments is the one that the function has. -/
  | fixed (index : UInt16)
  /-- The number of arguments stands in the token. -/
  | counted (index : UInt16) (count : UInt8) (prompt command : Bool)
deriving DecidableEq, Repr, Inhabited

namespace Call

/-- The index of the function. -/
def index : Call → UInt16
  | fixed index | counted index .. => index

/-- The base of the opcode. -/
def baseOpcode : Call → UInt8
  | fixed _ => 0x21
  | counted .. => 0x22

/-- The size of the fields behind the opcode. -/
def fieldSize : Call → Nat
  | fixed _ => 2
  | counted .. => 3

end Call

/-- An instruction of a formula. -/
inductive Token
  | operator (op : Operator)
  /-- The formula of this cell is the shared formula of another cell. -/
  | shared (row col : UInt16)
  /-- The cell belongs to the data table that begins at another cell. -/
  | table (row col : UInt16)
  /-- Parentheses that were typed. -/
  | paren
  /-- An argument that was left out. -/
  | missing
  | hint (a : Attribute)
  | literal (l : Literal)
  | reference (r : Reference) (cls : OperandClass)
  | name (n : NameRef) (cls : OperandClass)
  | mem (m : MemToken) (cls : OperandClass)
  /-- An array literal. Without its cells it has a value but no stored form. -/
  | array (cells : Option (Matrix Constant)) (cls : OperandClass)
  | call (c : Call) (cls : OperandClass)
deriving DecidableEq, Repr, Inhabited

/-- The size of an array literal behind the token stream: three bytes for the shape, and for each
cell a tag and a payload. -/
def arraySize (m : Matrix Constant) : Nat :=
  3 + (m.cells.toList.map fun c => 1 + c.payloadSize).foldr (· + ·) 0

namespace Token

/-- The opcode without the class. -/
def baseOpcode : Token → UInt8
  | operator op => op.opcode
  | shared .. => 0x01
  | table .. => 0x02
  | paren => 0x15
  | missing => 0x16
  | hint _ => 0x19
  | literal (.text _) => 0x17
  | literal (.error _) => 0x1C
  | literal (.boolean _) => 0x1D
  | literal (.int _) => 0x1E
  | literal (.number _) => 0x1F
  | array .. => 0x20
  | call c _ => c.baseOpcode
  | name (.defined _) _ => 0x23
  | name (.external ..) _ => 0x39
  | reference r _ => r.baseOpcode
  | mem m _ => m.baseOpcode

/-- The class of a token that has one. -/
def class? : Token → Option OperandClass
  | reference _ cls | name _ cls | mem _ cls | array _ cls | call _ cls => some cls
  | _ => none

/-- The class of the token; one without a class counts as a value. -/
def operandClass (t : Token) : OperandClass := t.class?.getD .value

/-- The token has a class. -/
def isClassed (t : Token) : Bool := t.class?.isSome

/-- The token with another class. One without a class stays as it is. -/
def withClass (t : Token) (cls : OperandClass) : Token :=
  match t with
  | reference r _ => reference r cls
  | name n _ => name n cls
  | mem m _ => mem m cls
  | array cells _ => array cells cls
  | call c _ => call c cls
  | other => other

/-- The byte that stands for the token. -/
def opcode (t : Token) : UInt8 :=
  match t.class? with
  | some cls => t.baseOpcode + cls.opcodeOffset
  | none => t.baseOpcode

/-- The size of the fields behind the opcode. -/
def fieldSize : Token → Nat
  | operator _ | paren | missing => 0
  | shared .. | table .. => 4
  | hint a => a.fieldSize
  | literal (.text s) => 2 + unitBytesSize (Text.units s)
  | literal (.error _) | literal (.boolean _) => 1
  | literal (.int _) => 2
  | literal (.number _) => 8
  | array .. => 7
  | call c _ => c.fieldSize
  | name (.defined _) _ => 4
  | name (.external ..) _ => 6
  | reference r _ => r.fieldSize
  | mem m _ => m.fieldSize

/-- The size of the token in the token stream, its opcode included. -/
def streamSize (t : Token) : Nat := 1 + t.fieldSize

/-- The size of what the token has behind the token stream. -/
def trailingSize : Token → Nat
  | array (some m) _ => arraySize m
  | mem (.area _ (some areas)) _ => 2 + 8 * areas.length
  | _ => 0

/-- The token has a part behind the token stream. -/
def hasTrailing : Token → Bool
  | array .. | mem (.area ..) _ => true
  | _ => false

end Token

end CellFormula
