import CellFormula.Bytes.Cursor
import CellFormula.Constant.Basic
import CellFormula.Text.Units

/-!
# Constants as bytes

A stored constant is a tag byte and a payload:

```
empty      00   8 reserved bytes
number     01   8 bytes, a double
text       02   a count of UTF-16 units (2 bytes), a flag byte, the units
boolean    04   1 byte, 0 or 1, and 7 reserved bytes
error      10   a code (2 bytes) and 6 reserved bytes
```

A text whose units are all below `0x100` is written with one byte for each unit, any other text with
two, and the lowest bit of the flag byte says which. Reserved bytes are written as zero and read as
anything; so are the other bits of the flag byte.

## What a failed write leaves behind

The tag is written before the length of a text is looked at. A text that is too long therefore
fails with its tag already appended, and `Written` is the whole answer of a write: the bytes that
were appended, with the failure beside them if there was one.

## Main definitions

* `Constant.read` — the next constant of a buffer
* `Constant.write` — what a write appends and whether it fails
* `Constant.payloadSize` — the size of a payload
-/

namespace CellFormula

/-- Why a stored constant could not be read. Every cause names the place where the constant
begins. -/
inductive ConstantFault
  /-- The buffer ends inside the constant. -/
  | cutShort (offset : Nat) (short : ShortRead)
  /-- No constant has this tag. -/
  | unknownTag (offset : Nat) (tag : UInt8)
  /-- A truth value is neither 0 nor 1. -/
  | invalidBoolean (offset : Nat) (value : UInt8)
  /-- A surrogate stands alone. -/
  | invalidText (offset : Nat)
deriving DecidableEq, Repr

/-- A byte as two capital hexadecimal digits. -/
def hexByte (b : UInt8) : String :=
  String.ofList ([b.toNat / 16, b.toNat % 16].map fun digit => (Nat.digitChar digit).toUpper)

namespace ConstantFault

/-- The place where the constant begins. -/
def offset : ConstantFault → Nat
  | cutShort offset _ | unknownTag offset _ | invalidBoolean offset _ | invalidText offset => offset

/-- The cause in words. -/
def message : ConstantFault → String
  | cutShort offset ⟨needed, remaining⟩ =>
    s!"unexpected eof reading constant at offset {offset} "
      ++ s!"(needed {needed} bytes, remaining {remaining})"
  | unknownTag offset tag => "unknown constant tag 0x" ++ hexByte tag ++ s!" at offset {offset}"
  | invalidBoolean offset value =>
    "invalid boolean constant 0x" ++ hexByte value ++ s!" at offset {offset}"
  | invalidText offset => s!"invalid UTF-16 text constant at offset {offset}"

end ConstantFault

/-! ### Texts -/

/-- The flag bit of a text that is written with two bytes for each unit. -/
def wideFlag : UInt8 := 0x01

/-- The units of a text, one or two bytes each. -/
def unitBytes (us : List UInt16) : List UInt8 :=
  if Text.isNarrow us then us.map UInt16.toUInt8 else us.flatMap wordBytes

/-- The flag byte of a text and its units. -/
def textBody (us : List UInt16) : List UInt8 :=
  (if Text.isNarrow us then 0 else wideFlag) :: unitBytes us

/-- The size of the units of a text. -/
def unitBytesSize (us : List UInt16) : Nat := if Text.isNarrow us then us.length else 2 * us.length

/-- The units of a text, `count` of them, as bytes. -/
def readUnitBytes (count : Nat) (flags : UInt8) : Reads ShortRead (List UInt8) :=
  Cursor.take (if flags &&& wideFlag = 0 then count else 2 * count)

/-- The text with these bytes, if there is one. One byte for each unit always gives a text. -/
def textOfUnitBytes? (flags : UInt8) (bytes : List UInt8) : Option String :=
  if flags &&& wideFlag = 0 then some (Text.ofBytes bytes)
  else Text.ofUnits? (Text.unitsOfBytes bytes)

namespace Constant

/-- The most units of a text that a constant can count. -/
def maxTextUnits : Nat := 0xFFFF

/-- The size of a payload that is no text. -/
def fixedPayload : Nat := 8

/-- The size of the payload, the tag not counted. -/
def payloadSize : Constant → Nat
  | text s => 3 + unitBytesSize (Text.units s)
  | _ => fixedPayload

/-! ### Reading -/

/-- A read that says where the constant begins when it does not fit. -/
def fitting {α : Type} (offset : Nat) (step : Reads ShortRead α) : Reads ConstantFault α :=
  EStateM.adaptExcept (ConstantFault.cutShort offset) step

/-- The payload of a constant that begins at `offset` with the tag `tag`. -/
def readPayload (offset : Nat) (tag : UInt8) : Reads ConstantFault Constant :=
  if tag = emptyTag then do
    fitting offset (Cursor.skip fixedPayload)
    return empty
  else if tag = numberTag then do
    return number ⟨← fitting offset Cursor.quad⟩
  else if tag = textTag then do
    let count ← fitting offset Cursor.word
    let flags ← fitting offset Cursor.byte
    let bytes ← fitting offset (readUnitBytes count.toNat flags)
    match textOfUnitBytes? flags bytes with
    | some s => return text s
    | none => throw (.invalidText offset)
  else if tag = booleanTag then do
    let value ← fitting offset Cursor.byte
    fitting offset (Cursor.skip (fixedPayload - 1))
    if value = 0 then return boolean false
    else if value = 1 then return boolean true
    else throw (.invalidBoolean offset value)
  else if tag = errorTag then do
    let value ← fitting offset Cursor.word
    fitting offset (Cursor.skip (fixedPayload - 2))
    return code value
  else throw (.unknownTag offset tag)

/-- The next constant. -/
def read : Reads ConstantFault Constant := do
  let offset := (← get).position
  let tag ← fitting offset Cursor.byte
  readPayload offset tag

/-! ### Writing -/

/-- A text has more units than its count can say. -/
structure TextTooLong where
  /-- The number of units of the text. -/
  length : Nat
  /-- The largest number that fits. -/
  limit : Nat
deriving DecidableEq, Repr

/-- The payload of a constant. -/
def payload : Constant → Except TextTooLong (List UInt8)
  | empty => .ok (zeroBytes fixedPayload)
  | number x => .ok (quadBytes x.bits)
  | text s =>
    let us := Text.units s
    if us.length ≤ maxTextUnits then .ok (wordBytes us.length.toUInt16 ++ textBody us)
    else .error ⟨us.length, maxTextUnits⟩
  | boolean b => .ok (b.toUInt8 :: zeroBytes (fixedPayload - 1))
  | code c => .ok (wordBytes c ++ zeroBytes (fixedPayload - 2))

/-- What a write appends to a buffer, and its failure if it fails. -/
structure Written where
  /-- The bytes that were appended. -/
  bytes : List UInt8
  /-- Why the constant is not complete. -/
  failure : Option TextTooLong
deriving DecidableEq, Repr

/-- Write a constant: its tag, and then its payload if that fits. -/
def write (c : Constant) : Written :=
  match c.payload with
  | .ok bytes => ⟨c.tag :: bytes, none⟩
  | .error failure => ⟨[c.tag], some failure⟩

end Constant

end CellFormula
