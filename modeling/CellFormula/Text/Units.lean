import CellFormula.Bytes.LittleEndian

/-!
# UTF-16 code units of a text

Stored texts are counted, cut and written in UTF-16 code units. `units` gives the units of a text
and `ofUnits?` reads a list of units back; a surrogate that stands alone belongs to no text.

## Implementation notes

`ofUnits?` is a single pass that either takes one unit or a surrogate pair, so a list has at most
one reading. Units of the narrow form, in which every unit is a byte, are exactly the texts whose
characters lie below `0x100`: `isNarrow` looks at the units, which is where the two stored forms
differ.
-/

namespace CellFormula.Text

/-- The UTF-16 units of a character: one below `0x10000`, a surrogate pair from there on. -/
def charUnits (c : Char) : List UInt16 :=
  if c.toNat < 0x10000 then
    [c.toNat.toUInt16]
  else
    let offset := c.toNat - 0x10000
    [(0xD800 + offset / 0x400).toUInt16, (0xDC00 + offset % 0x400).toUInt16]

/-- The UTF-16 units of a text. -/
def units (s : String) : List UInt16 := s.toList.flatMap charUnits

/-- The unit opens a surrogate pair. -/
def isHighSurrogate (u : UInt16) : Bool := 0xD800 ≤ u && u ≤ 0xDBFF

/-- The unit closes a surrogate pair. -/
def isLowSurrogate (u : UInt16) : Bool := 0xDC00 ≤ u && u ≤ 0xDFFF

/-- The character that a surrogate pair stands for. -/
def pairChar (high low : UInt16) : Char :=
  Char.ofNat (0x10000 + (high.toNat - 0xD800) * 0x400 + (low.toNat - 0xDC00))

/-- The characters of a list of units, after those in `done` (the last of them first), or nothing
when a surrogate stands alone. -/
def charsOfUnits? : List Char → List UInt16 → Option (List Char)
  | done, [] => some done.reverse
  | done, [u] =>
    if isHighSurrogate u || isLowSurrogate u then none
    else some (Char.ofNat u.toNat :: done).reverse
  | done, u :: v :: rest =>
    if isLowSurrogate u then none
    else if isHighSurrogate u then
      if isLowSurrogate v then charsOfUnits? (pairChar u v :: done) rest else none
    else charsOfUnits? (Char.ofNat u.toNat :: done) (v :: rest)

/-- The text with these units, or nothing when a surrogate stands alone. -/
def ofUnits? (us : List UInt16) : Option String := (charsOfUnits? [] us).map String.ofList

/-- Every unit is a byte, so the text can be stored with one byte for each unit. -/
def isNarrow (us : List UInt16) : Bool := us.all (· ≤ 0xFF)

/-- The text whose characters have these bytes as code points. -/
def ofBytes (bytes : List UInt8) : String := String.ofList (bytes.map fun b => Char.ofNat b.toNat)

/-- Consecutive bytes in pairs, the low byte first; an odd byte at the end is dropped. -/
def unitsOfBytes (bytes : List UInt8) : List UInt16 :=
  go [] bytes
where
  /-- The units of the bytes that follow those of `done`, whose last unit comes first. -/
  go : List UInt16 → List UInt8 → List UInt16
    | done, low :: high :: rest => go (wordOf low high :: done) rest
    | done, _ => done.reverse

end CellFormula.Text
