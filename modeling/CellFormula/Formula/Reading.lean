import CellFormula.Bytes.Progress
import CellFormula.Formula.Basic

/-!
# Reading a stored formula

A stored formula is a token stream of a declared size, and behind it the literals that do not fit
into the stream: for every array token its shape and cells, and for every memory token with an area
list that list, in the order of the tokens.

## When the declared size is larger than the buffer

Then the bytes that are there are read as far as they go. A token that is malformed is reported as
such; a token that does not fit, or the end of the buffer itself, is reported as a declared size
that is too large. Only a text whose characters do not fit is still reported as a text cut short.

## Main definitions

* `TokenFault`, `DecodeError` — what can be wrong with one token, and with a stored formula
* `readToken` — the token with a given opcode
* `readStream` — all tokens of a stream
* `readLiterals` — the literals behind the stream, put where they belong
* `Formula.decode` — a stored formula, and `Formula.decodeCounting` with the count of bytes used
-/

namespace CellFormula

/-- What is wrong with a token. -/
inductive TokenFault
  /-- The token does not fit into the stream. -/
  | cutShort (short : ShortRead)
  /-- The characters of a text do not fit into the stream. -/
  | textCutShort (short : ShortRead)
  /-- No token has this opcode. -/
  | unsupported
  /-- No function has this index. -/
  | unknownFunction (index : UInt16)
  /-- The function cannot be called with so many arguments, or not without saying how many. -/
  | wrongArity (index : UInt16) (count least most : Nat)
  /-- No error has this byte. -/
  | invalidErrorCode (code : UInt8)
  /-- A truth value is neither 0 nor 1. -/
  | invalidBoolean (value : UInt8)
  /-- A surrogate stands alone in a text. -/
  | invalidText
deriving DecidableEq, Repr

/-- Why a stored formula could not be read. -/
inductive DecodeError
  /-- The declared size is larger than the buffer, and a token that begins at `offset` needs what is
  not there. -/
  | truncated (offset size available : Nat)
  /-- The token that begins at `offset` with this opcode is wrong. -/
  | token (offset : Nat) (opcode : UInt8) (fault : TokenFault)
  /-- The literal of a token with this opcode does not fit behind the stream. -/
  | literalCutShort (offset : Nat) (opcode : UInt8) (short : ShortRead)
  /-- A cell of the array literal of a token with this opcode is wrong. -/
  | invalidConstant (opcode : UInt8) (fault : ConstantFault)
deriving DecidableEq, Repr

namespace DecodeError

/-- The place in the buffer that the error points at. -/
def offset : DecodeError → Nat
  | truncated offset _ _ | token offset _ _ | literalCutShort offset _ _ => offset
  | invalidConstant _ fault => fault.offset

/-- The opcode of the token that the error belongs to. -/
def opcode? : DecodeError → Option UInt8
  | truncated .. => none
  | token _ opcode _ | literalCutShort _ opcode _ | invalidConstant opcode _ => some opcode

/-- An opcode as it is written in messages. -/
def opcodeText (opcode : UInt8) : String := "ptg=0x" ++ hexByte opcode

/-- The place of a token as it is written in messages. -/
def placeText (opcode : UInt8) (offset : Nat) : String :=
  opcodeText opcode ++ " at rgce offset " ++ toString offset

/-- How many bytes were missing, as it is written in messages. -/
def shortText (short : ShortRead) : String :=
  "(needed " ++ toString short.needed ++ " bytes, remaining " ++ toString short.remaining ++ ")"

/-- A fault of a token in words. -/
def tokenMessage (offset : Nat) (opcode : UInt8) : TokenFault → String
  | .cutShort short | .textCutShort short =>
    "unexpected eof decoding " ++ placeText opcode offset ++ " " ++ shortText short
  | .unsupported => "unsupported " ++ placeText opcode offset
  | .unknownFunction index =>
    "unknown function id " ++ toString index.toNat ++ " (" ++ placeText opcode offset ++ ")"
  | .wrongArity index count least most =>
    "function id " ++ toString index.toNat ++ " called with " ++ toString count
      ++ " args, expected " ++ toString least ++ "..=" ++ toString most
      ++ " (" ++ placeText opcode offset ++ ")"
  | .invalidErrorCode code =>
    "invalid error code 0x" ++ hexByte code ++ " (" ++ placeText opcode offset ++ ")"
  | .invalidBoolean value =>
    "invalid boolean 0x" ++ hexByte value ++ " (" ++ placeText opcode offset ++ ")"
  | .invalidText => "invalid UTF-16 string (" ++ placeText opcode offset ++ ")"

/-- The error in words. -/
def message : DecodeError → String
  | truncated offset size available =>
    "declared rgce length " ++ toString size ++ " exceeds the " ++ toString available
      ++ " bytes available (token at rgce offset " ++ toString offset ++ ")"
  | token offset opcode fault => tokenMessage offset opcode fault
  | literalCutShort offset opcode short =>
    "trailing payload for " ++ opcodeText opcode ++ " runs past the buffer at offset "
      ++ toString offset ++ " " ++ shortText short
  | invalidConstant opcode fault =>
    "invalid array constant for " ++ opcodeText opcode ++ " at offset " ++ toString fault.offset
      ++ ": " ++ fault.message

end DecodeError

/-! ### Fields -/

/-- A read of a field of a token. -/
def tokenField {α : Type} (step : Reads ShortRead α) : Reads TokenFault α :=
  EStateM.adaptExcept TokenFault.cutShort step

/-- Bytes of a token that carry nothing. -/
def reserved (count : Nat) : Reads TokenFault Unit := tokenField (Cursor.skip count)

/-- A byte of a token. -/
def byteField : Reads TokenFault UInt8 := tokenField Cursor.byte

/-- A word of a token. -/
def wordField : Reads TokenFault UInt16 := tokenField Cursor.word

/-- A cell: its row and the column with its flags. -/
def cellField : Reads TokenFault CellRef := do
  let row ← wordField
  let col ← wordField
  return .ofFields row col

/-- An area: both rows and then both columns. -/
def areaField : Reads TokenFault AreaRef := do
  let firstRow ← wordField
  let lastRow ← wordField
  let firstCol ← wordField
  let lastCol ← wordField
  return ⟨.ofFields firstRow firstCol, .ofFields lastRow lastCol⟩

/-- A text: a count of units, a flag byte and the units. -/
def textField : Reads TokenFault String := do
  let count ← byteField
  let flags ← byteField
  let bytes ← EStateM.adaptExcept TokenFault.textCutShort (readUnitBytes count.toNat flags)
  match textOfUnitBytes? flags bytes with
  | some s => return s
  | none => throw .invalidText

/-- A hint: option bits, a word, and for a choice one jump more than the word says. -/
def attributeField : Reads TokenFault Attribute := do
  let options ← byteField
  let data ← wordField
  if (Attribute.plain options data).isChoose then
    return ⟨options, data, ← Reads.times (data.toNat + 1) wordField⟩
  else
    return .plain options data

/-- An error literal. -/
def errorField : Reads TokenFault ErrorKind := do
  let code ← byteField
  match ErrorKind.ofByte? code with
  | some kind => return kind
  | none => throw (.invalidErrorCode code)

/-- A truth value literal. -/
def booleanField : Reads TokenFault Bool := do
  let value ← byteField
  if value = 0 then return false
  else if value = 1 then return true
  else throw (.invalidBoolean value)

/-- The entry of the catalogue that a call needs. -/
def calledFunction (index : UInt16) : Reads TokenFault Worksheet.FunctionInfo :=
  match Worksheet.functionAt? index with
  | some info => return info
  | none => throw (.unknownFunction index)

/-- A call that does not say how many arguments there are, of a function for which that is clear. -/
def fixedCall : Reads TokenFault Call := do
  let index ← wordField
  let info ← calledFunction index
  if info.hasFixedArity then return .fixed index
  else throw (.wrongArity index info.minArguments info.minArguments info.maxArguments)

/-- The bits of a count byte that hold the count. The highest one asks for a prompt. -/
def countMask : UInt8 := 0x7F

/-- The flag of a count byte for a prompt. -/
def promptFlag : UInt8 := 0x80

/-- The bits of an index word that hold the index. The highest one marks a command. -/
def indexMask : UInt16 := 0x7FFF

/-- The flag of an index word for a command. -/
def commandFlag : UInt16 := 0x8000

/-- A call that says how many arguments there are. -/
def countedCall : Reads TokenFault Call := do
  let countByte ← byteField
  let indexWord ← wordField
  let count := countByte &&& countMask
  let index := indexWord &&& indexMask
  let info ← calledFunction index
  if info.accepts count.toNat then
    return .counted index count (countByte &&& promptFlag != 0) (indexWord &&& commandFlag != 0)
  else
    throw (.wrongArity index count.toNat info.minArguments info.maxArguments)

/-! ### Tokens -/

/-- The token of a class, by the base of its opcode. Arrays and area lists are still without their
literals. -/
def readClassed (base : UInt8) (cls : OperandClass) : Reads TokenFault Token :=
  if base = 0x20 then do
    reserved 7
    return .array none cls
  else if base = 0x21 then return .call (← fixedCall) cls
  else if base = 0x22 then return .call (← countedCall) cls
  else if base = 0x23 then do
    let index ← wordField
    reserved 2
    return .name (.defined index) cls
  else if base = 0x24 then return .reference (.cell (← cellField)) cls
  else if base = 0x25 then return .reference (.area (← areaField)) cls
  else if base = 0x26 then do
    reserved 4
    return .mem (.area (← wordField) none) cls
  else if base = 0x27 then do
    let code ← byteField
    reserved 3
    return .mem (.err code (← wordField)) cls
  else if base = 0x28 then do
    reserved 4
    return .mem (.noMem (← wordField)) cls
  else if base = 0x29 then return .mem (.func (← wordField)) cls
  else if base = 0x2A then do
    reserved 4
    return .reference .cellGone cls
  else if base = 0x2B then do
    reserved 8
    return .reference .areaGone cls
  else if base = 0x2C then return .reference (.sharedCell (← cellField)) cls
  else if base = 0x2D then return .reference (.sharedArea (← areaField)) cls
  else if base = 0x2E then return .mem (.sharedArea (← wordField)) cls
  else if base = 0x2F then return .mem (.sharedNoMem (← wordField)) cls
  else if base = 0x39 then do
    let sheet ← wordField
    let index ← wordField
    reserved 2
    return .name (.external sheet index) cls
  else if base = 0x3A then do
    let sheet ← wordField
    return .reference (.sheetCell sheet (← cellField)) cls
  else if base = 0x3B then do
    let sheet ← wordField
    return .reference (.sheetArea sheet (← areaField)) cls
  else if base = 0x3C then do
    let sheet ← wordField
    reserved 4
    return .reference (.sheetCellGone sheet) cls
  else if base = 0x3D then do
    let sheet ← wordField
    reserved 8
    return .reference (.sheetAreaGone sheet) cls
  else throw .unsupported

/-- The token without a class that an opcode stands for, operators aside. -/
def readUnclassed (opcode : UInt8) : Reads TokenFault Token :=
  if opcode = 0x01 then do
    let row ← wordField
    return .shared row (← wordField)
  else if opcode = 0x02 then do
    let row ← wordField
    return .table row (← wordField)
  else if opcode = 0x15 then return .paren
  else if opcode = 0x16 then return .missing
  else if opcode = 0x17 then return .literal (.text (← textField))
  else if opcode = 0x19 then return .hint (← attributeField)
  else if opcode = 0x1C then return .literal (.error (← errorField))
  else if opcode = 0x1D then return .literal (.boolean (← booleanField))
  else if opcode = 0x1E then return .literal (.int (← wordField))
  else if opcode = 0x1F then return .literal (.number ⟨← tokenField Cursor.quad⟩)
  else throw .unsupported

/-- The token with this opcode, from the bytes behind it. -/
def readToken (opcode : UInt8) : Reads TokenFault Token :=
  match Operator.ofOpcode? opcode with
  | some op => return .operator op
  | none =>
    match OperandClass.split? opcode with
    | some (base, cls) => readClassed base cls
    | none => readUnclassed opcode

/-! ### Reading a token goes forward -/

theorem forward_byteField : Reads.Forward byteField := .adapt _ Cursor.forward_byte

theorem forward_wordField : Reads.Forward wordField := .adapt _ Cursor.forward_word

theorem forward_reserved (count : Nat) : Reads.Forward (reserved count) :=
  .adapt _ (Cursor.forward_skip count)

theorem forward_cellField : Reads.Forward cellField :=
  .bind forward_wordField fun _ => .bind forward_wordField fun _ => .pure _

theorem forward_areaField : Reads.Forward areaField :=
  .bind forward_wordField fun _ => .bind forward_wordField fun _ =>
    .bind forward_wordField fun _ => .bind forward_wordField fun _ => .pure _

theorem forward_textField : Reads.Forward textField := by
  refine .bind forward_byteField fun _ => .bind forward_byteField fun _ =>
    .bind (.adapt _ (Cursor.forward_take _)) fun _ => ?_
  split
  · exact .pure _
  · exact .throw _

theorem forward_attributeField : Reads.Forward attributeField := by
  refine .bind forward_byteField fun _ => .bind forward_wordField fun _ => ?_
  split
  · exact .bind (.times forward_wordField _) fun _ => .pure _
  · exact .pure _

theorem forward_errorField : Reads.Forward errorField := by
  refine .bind forward_byteField fun _ => ?_
  split
  · exact .pure _
  · exact .throw _

theorem forward_booleanField : Reads.Forward booleanField := by
  refine .bind forward_byteField fun _ => ?_
  split
  · exact .pure _
  · split
    · exact .pure _
    · exact .throw _

theorem forward_calledFunction (index : UInt16) : Reads.Forward (calledFunction index) := by
  unfold calledFunction
  split
  · exact .pure _
  · exact .throw _

theorem forward_fixedCall : Reads.Forward fixedCall := by
  refine .bind forward_wordField fun index => .bind (forward_calledFunction index) fun _ => ?_
  split
  · exact .pure _
  · exact .throw _

theorem forward_countedCall : Reads.Forward countedCall := by
  refine .bind forward_byteField fun _ => .bind forward_wordField fun _ =>
    .bind (forward_calledFunction _) fun _ => ?_
  split
  · exact .pure _
  · exact .throw _

theorem forward_readClassed (base : UInt8) (cls : OperandClass) :
    Reads.Forward (readClassed base cls) := by
  have word := forward_wordField
  have pass := forward_reserved
  unfold readClassed
  exact
    .ite (.bind (pass _) fun _ => .pure _) <|
    .ite (.bind forward_fixedCall fun _ => .pure _) <|
    .ite (.bind forward_countedCall fun _ => .pure _) <|
    .ite (.bind word fun _ => .bind (pass _) fun _ => .pure _) <|
    .ite (.bind forward_cellField fun _ => .pure _) <|
    .ite (.bind forward_areaField fun _ => .pure _) <|
    .ite (.bind (pass _) fun _ => .bind word fun _ => .pure _) <|
    .ite (.bind forward_byteField fun _ => .bind (pass _) fun _ => .bind word fun _ => .pure _) <|
    .ite (.bind (pass _) fun _ => .bind word fun _ => .pure _) <|
    .ite (.bind word fun _ => .pure _) <|
    .ite (.bind (pass _) fun _ => .pure _) <|
    .ite (.bind (pass _) fun _ => .pure _) <|
    .ite (.bind forward_cellField fun _ => .pure _) <|
    .ite (.bind forward_areaField fun _ => .pure _) <|
    .ite (.bind word fun _ => .pure _) <|
    .ite (.bind word fun _ => .pure _) <|
    .ite (.bind word fun _ => .bind word fun _ => .bind (pass _) fun _ => .pure _) <|
    .ite (.bind word fun _ => .bind forward_cellField fun _ => .pure _) <|
    .ite (.bind word fun _ => .bind forward_areaField fun _ => .pure _) <|
    .ite (.bind word fun _ => .bind (pass _) fun _ => .pure _) <|
    .ite (.bind word fun _ => .bind (pass _) fun _ => .pure _) <|
    .throw _

theorem forward_readUnclassed (opcode : UInt8) : Reads.Forward (readUnclassed opcode) := by
  have word := forward_wordField
  unfold readUnclassed
  exact
    .ite (.bind word fun _ => .bind word fun _ => .pure _) <|
    .ite (.bind word fun _ => .bind word fun _ => .pure _) <|
    .ite (.pure _) <|
    .ite (.pure _) <|
    .ite (.bind forward_textField fun _ => .pure _) <|
    .ite (.bind forward_attributeField fun _ => .pure _) <|
    .ite (.bind forward_errorField fun _ => .pure _) <|
    .ite (.bind forward_booleanField fun _ => .pure _) <|
    .ite (.bind word fun _ => .pure _) <|
    .ite (.bind (.adapt _ Cursor.forward_quad) fun _ => .pure _) <|
    .throw _

theorem forward_readToken (opcode : UInt8) : Reads.Forward (readToken opcode) := by
  unfold readToken
  split
  · exact .pure _
  · split
    · exact forward_readClassed _ _
    · exact forward_readUnclassed _

/-! ### The token stream -/

/-- The error for a faulty token. Under a declared size that is larger than the buffer, a token that
does not fit is the fault of that size. -/
def tokenError (declared available offset : Nat) (opcode : UInt8) (fault : TokenFault) :
    DecodeError :=
  match fault with
  | .cutShort _ =>
    if available < declared then .truncated offset declared available
    else .token offset opcode fault
  | _ => .token offset opcode fault

/-- All tokens from the cursor to its end, after those in `done`, whose last token comes first. -/
def readStream (declared available : Nat) (c : Cursor) (done : List Token) :
    Except DecodeError (List Token) :=
  match c with
  | ⟨_, []⟩ => .ok done.reverse
  | ⟨position, opcode :: rest⟩ =>
    match _ : readToken opcode ⟨position + 1, rest⟩ with
    | .ok t next => readStream declared available next (t :: done)
    | .error fault _ => .error (tokenError declared available position opcode fault)
termination_by c.rest.length
decreasing_by
  have shorter := ((forward_readToken opcode).ok ‹_›).length_le
  exact Nat.lt_succ_of_le shorter

/-! ### Literals behind the stream -/

/-- A read of the literal that begins at `offset`, for a token with this opcode. -/
def literalField {α : Type} (offset : Nat) (opcode : UInt8) (step : Reads ShortRead α) :
    Reads DecodeError α :=
  EStateM.adaptExcept (DecodeError.literalCutShort offset opcode) step

/-- The error for a faulty cell of an array literal. -/
def cellError (opcode : UInt8) : ConstantFault → DecodeError
  | .cutShort offset short => .literalCutShort offset opcode short
  | fault => .invalidConstant opcode fault

/-- An array literal: its columns and rows, each less one, and its cells row by row. -/
def readArray (opcode : UInt8) : Reads DecodeError (Matrix Constant) := do
  let offset := (← get).position
  let cols := (← literalField offset opcode Cursor.byte).toNat + 1
  let rows := (← literalField offset opcode Cursor.word).toNat + 1
  let cells ← Reads.times (rows * cols) (EStateM.adaptExcept (cellError opcode) Constant.read)
  return ⟨rows, cols, cells.toArray⟩

/-- A rectangle of an area list: both rows and then both columns. -/
def readMemRange : Reads ShortRead MemRange := do
  let firstRow ← Cursor.word
  let lastRow ← Cursor.word
  let firstCol ← Cursor.word
  let lastCol ← Cursor.word
  return ⟨firstRow, lastRow, firstCol, lastCol⟩

/-- An area list: its length and its rectangles. -/
def readAreaList (opcode : UInt8) : Reads DecodeError (List MemRange) := do
  let offset := (← get).position
  let count ← literalField offset opcode Cursor.word
  Reads.times count.toNat (literalField offset opcode readMemRange)

/-- The token with its literal, which is read if it has one. -/
def readLiteral (t : Token) : Reads DecodeError Token :=
  match t with
  | .array _ cls => return .array (some (← readArray t.opcode)) cls
  | .mem (.area size _) cls => return .mem (.area size (some (← readAreaList t.opcode))) cls
  | other => return other

/-- The tokens with their literals, after those in `done`, whose last token comes first. -/
def readLiterals (done : List Token) : List Token → Reads DecodeError (List Token)
  | [] => return done.reverse
  | t :: ts => do
    let t' ← readLiteral t
    readLiterals (t' :: done) ts

/-! ### Stored formulas -/

namespace Formula

/-- The formula stored at the start of a buffer with a token stream of the declared size, and how
many bytes it takes up. -/
def decodeCounting (bytes : List UInt8) (declared : Nat) : Except DecodeError (Formula × Nat) := do
  let available := bytes.length
  let tokens ← readStream declared available (Cursor.opened (bytes.take declared) 0) []
  if available < declared then throw (.truncated available declared available)
  match readLiterals [] tokens (Cursor.opened bytes declared) with
  | .ok f c => return (f, c.position)
  | .error e _ => throw e

/-- The formula stored at the start of a buffer with a token stream of the declared size. What lies
behind it is not looked at. -/
def decode (bytes : List UInt8) (declared : Nat) : Except DecodeError Formula :=
  (decodeCounting bytes declared).map (·.1)

end Formula

end CellFormula
