import CellFormula.Formula.Reading

/-!
# Writing a formula

A formula is written in two passes: first the token stream, and, when that is not too long, the
literals behind it. Each pass stops at the first token that cannot be written, so a token that does
not fit into the stream is reported before any literal is looked at.

## Main definitions

* `WriteFault`, `EncodeError` — what can keep a token, and a formula, from being written
* `Token.fields`, `Token.literalBytes` — the two parts of a token
* `Encoded`, `Formula.encode` — the two segments of a stored formula
-/

namespace CellFormula

/-- What keeps a token from being written. -/
inductive WriteFault
  /-- An array token without its cells. -/
  | missingArray
  /-- A memory token without its area list. -/
  | missingAreas
  /-- A text with more units than its count can say. -/
  | textTooLong (length limit : Nat)
  /-- An array with more rows or columns than its shape can say. -/
  | arrayTooLarge (rows cols : Nat)
  /-- An area list that is longer than its count can say. -/
  | tooManyAreas (count : Nat)
  /-- No function has this index. -/
  | unknownFunction (index : UInt16)
  /-- The function cannot be called with so many arguments, or not without saying how many. -/
  | wrongArity (index : UInt16) (count least most : Nat)
  /-- A choice with another number of jumps than it declares. -/
  | wrongJumps (declared actual : Nat)
deriving DecidableEq, Repr

/-- Why a formula cannot be written. -/
inductive EncodeError
  /-- The token at this place in the formula cannot be written. -/
  | token (index : Nat) (fault : WriteFault)
  /-- The token stream is longer than its size can say. -/
  | streamTooLong (length : Nat)
deriving DecidableEq, Repr

/-- The largest size of a token stream. -/
def maxStreamSize : Nat := 0xFFFF

/-- The most units of a text literal. -/
def maxLiteralUnits : Nat := 0xFF

/-- The most rows of an array literal. -/
def maxArrayRows : Nat := 0x10000

/-- The most columns of an array literal. -/
def maxArrayCols : Nat := 0x100

/-- The most rectangles of an area list. -/
def maxAreas : Nat := 0xFFFF

/-- The largest count of arguments that fits beside the prompt flag. -/
def maxCount : Nat := 0x7F

namespace EncodeError

/-- A fault of the token at a place in words. -/
def faultMessage (index : Nat) : WriteFault → String
  | .missingArray => "array constant token #" ++ toString index ++ " has no payload"
  | .missingAreas => "mem-area token #" ++ toString index ++ " has no area list"
  | .textTooLong length limit =>
    "string of " ++ toString length ++ " UTF-16 units does not fit a " ++ toString limit
      ++ "-unit length prefix (token #" ++ toString index ++ ")"
  | .arrayTooLarge rows cols =>
    "array constant token #" ++ toString index ++ " is " ++ toString rows ++ "x" ++ toString cols
      ++ "; BIFF8 allows at most 65536x256"
  | .tooManyAreas count =>
    "mem-area token #" ++ toString index ++ " lists " ++ toString count
      ++ " areas; at most 65535 fit"
  | .unknownFunction function =>
    "unknown function id " ++ toString function.toNat ++ " (token #" ++ toString index ++ ")"
  | .wrongArity function count least most =>
    "function id " ++ toString function.toNat ++ " called with " ++ toString count
      ++ " args, expected " ++ toString least ++ "..=" ++ toString most
      ++ " (token #" ++ toString index ++ ")"
  | .wrongJumps declared actual =>
    "choose attribute (token #" ++ toString index ++ ") declares " ++ toString declared
      ++ " cases but carries " ++ toString actual ++ " jump offsets"

/-- The error in words. -/
def message : EncodeError → String
  | token index fault => faultMessage index fault
  | streamTooLong length =>
    "rgce is " ++ toString length ++ " bytes; the length prefix allows at most "
      ++ toString maxStreamSize

end EncodeError

/-! ### The fields of a token -/

/-- A cell as it is stored. -/
def CellRef.bytes (c : CellRef) : List UInt8 := wordBytes c.row ++ wordBytes c.columnField

/-- An area as it is stored. -/
def AreaRef.bytes (a : AreaRef) : List UInt8 :=
  wordBytes a.first.row ++ wordBytes a.last.row
    ++ wordBytes a.first.columnField ++ wordBytes a.last.columnField

/-- A reference as it is stored, behind its opcode. -/
def Reference.bytes : Reference → List UInt8
  | cell c | sharedCell c => c.bytes
  | area a | sharedArea a => a.bytes
  | cellGone => zeroBytes 4
  | areaGone => zeroBytes 8
  | sheetCell sheet c => wordBytes sheet ++ c.bytes
  | sheetArea sheet a => wordBytes sheet ++ a.bytes
  | sheetCellGone sheet => wordBytes sheet ++ zeroBytes 4
  | sheetAreaGone sheet => wordBytes sheet ++ zeroBytes 8

/-- A memory token as it is stored, behind its opcode. -/
def MemToken.bytes : MemToken → List UInt8
  | area size _ | noMem size => zeroBytes 4 ++ wordBytes size
  | err code size => code :: zeroBytes 3 ++ wordBytes size
  | func size | sharedArea size | sharedNoMem size => wordBytes size

/-- A literal as it is stored, behind its opcode. -/
def Literal.bytes : Literal → Except WriteFault (List UInt8)
  | int n => .ok (wordBytes n)
  | number x => .ok (quadBytes x.bits)
  | boolean b => .ok [b.toUInt8]
  | error kind => .ok [kind.byte]
  | text s =>
    let us := Text.units s
    if us.length ≤ maxLiteralUnits then .ok (us.length.toUInt8 :: textBody us)
    else .error (.textTooLong us.length maxLiteralUnits)

/-- A hint as it is stored, behind its opcode. -/
def Attribute.bytes (a : Attribute) : Except WriteFault (List UInt8) :=
  let head := a.options :: wordBytes a.data
  if a.isChoose then
    if a.jumps.length = a.data.toNat + 1 then .ok (head ++ a.jumps.flatMap wordBytes)
    else .error (.wrongJumps (a.data.toNat + 1) a.jumps.length)
  else .ok head

/-- A call as it is stored, behind its opcode, for the function that it calls. -/
def Call.bytesFor (c : Call) (info : Worksheet.FunctionInfo) : Except WriteFault (List UInt8) :=
  match c with
  | fixed index =>
    if info.hasFixedArity then .ok (wordBytes index)
    else .error (.wrongArity index info.minArguments info.minArguments info.maxArguments)
  | counted index count prompt command =>
    if count.toNat ≤ maxCount ∧ info.accepts count.toNat then
      .ok ((if prompt then count ||| promptFlag else count)
        :: wordBytes (if command then index ||| commandFlag else index))
    else .error (.wrongArity index count.toNat info.minArguments info.maxArguments)

/-- A call as it is stored, behind its opcode. -/
def Call.bytes (c : Call) : Except WriteFault (List UInt8) :=
  match Worksheet.functionAt? c.index with
  | some info => c.bytesFor info
  | none => .error (.unknownFunction c.index)

/-- The fields of a token behind its opcode. -/
def Token.fields : Token → Except WriteFault (List UInt8)
  | operator _ | paren | missing => .ok []
  | shared row col | table row col => .ok (wordBytes row ++ wordBytes col)
  | hint a => a.bytes
  | literal l => l.bytes
  | reference r _ => .ok r.bytes
  | name (.defined index) _ => .ok (wordBytes index ++ zeroBytes 2)
  | name (.external sheet index) _ => .ok (wordBytes sheet ++ wordBytes index ++ zeroBytes 2)
  | mem m _ => .ok m.bytes
  | array .. => .ok (zeroBytes 7)
  | call c _ => c.bytes

/-- The token in the token stream. -/
def Token.streamBytes (t : Token) : Except WriteFault (List UInt8) :=
  t.fields.map (t.opcode :: ·)

/-! ### The literals behind the stream -/

/-- A constant as it is stored. -/
def Constant.bytes (c : Constant) : Except WriteFault (List UInt8) :=
  match c.write with
  | ⟨bytes, none⟩ => .ok bytes
  | ⟨_, some failure⟩ => .error (.textTooLong failure.length failure.limit)

/-- An array literal as it is stored. -/
def arrayBytes (m : Matrix Constant) : Except WriteFault (List UInt8) := do
  if maxArrayRows < m.rows ∨ maxArrayCols < m.cols then throw (.arrayTooLarge m.rows m.cols)
  let cells ← m.cells.toList.mapM Constant.bytes
  return (m.cols - 1).toUInt8 :: wordBytes (m.rows - 1).toUInt16 ++ cells.flatten

/-- A rectangle of an area list as it is stored. -/
def MemRange.bytes (r : MemRange) : List UInt8 :=
  wordBytes r.firstRow ++ wordBytes r.lastRow ++ wordBytes r.firstCol ++ wordBytes r.lastCol

/-- An area list as it is stored. -/
def areaListBytes (areas : List MemRange) : Except WriteFault (List UInt8) :=
  if areas.length ≤ maxAreas then
    .ok (wordBytes areas.length.toUInt16 ++ areas.flatMap MemRange.bytes)
  else .error (.tooManyAreas areas.length)

/-- What the token has behind the stream. -/
def Token.literalBytes : Token → Except WriteFault (List UInt8)
  | array (some m) _ => arrayBytes m
  | array none _ => .error .missingArray
  | mem (.area _ (some areas)) _ => areaListBytes areas
  | mem (.area _ none) _ => .error .missingAreas
  | _ => .ok []

/-! ### Formulas -/

/-- The two segments of a stored formula. -/
structure Encoded where
  /-- The token stream. -/
  stream : List UInt8
  /-- The literals behind it. -/
  trailing : List UInt8
deriving DecidableEq, Repr

/-- The size of the token stream, which is declared in front of a stored formula. -/
def Encoded.declared (e : Encoded) : Nat := e.stream.length

/-- Both segments, one after the other. -/
def Encoded.bytes (e : Encoded) : List UInt8 := e.stream ++ e.trailing

/-- What `write` gives for each token from the place `index` on, after the pieces in `done`, whose
last piece comes first. -/
def writeEach (write : Token → Except WriteFault (List UInt8)) (index : Nat)
    (done : List (List UInt8)) : List Token → Except EncodeError (List UInt8)
  | [] => .ok done.reverse.flatten
  | t :: ts =>
    match write t with
    | .ok piece => writeEach write (index + 1) (piece :: done) ts
    | .error fault => .error (.token index fault)

namespace Formula

/-- The formula as it is stored. -/
def encode (f : Formula) : Except EncodeError Encoded := do
  let stream ← writeEach Token.streamBytes 0 [] f
  if maxStreamSize < stream.length then throw (.streamTooLong stream.length)
  let trailing ← writeEach Token.literalBytes 0 [] f
  return ⟨stream, trailing⟩

end Formula

end CellFormula
