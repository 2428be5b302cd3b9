/-!
# Numbers as bytes, the low byte first

Every field of a stored formula that is wider than a byte is written with its low byte first. The
two directions stand here side by side, so that a layout is written with one and read with the
other; both are arithmetic on `Nat` in base 256, and a word only says how many digits there are.

## Main definitions

* `littleEndian`, `leBytes` — the number that a list of bytes spells, and its first `count` bytes
* `wordBytes`, `wordOf` — a 16-bit word as two bytes, and back
* `quadBytes`, `quadOf` — a 64-bit word as eight bytes, and back
-/

namespace CellFormula

/-- The number that the bytes spell in base 256, the lowest digit first. -/
def littleEndian (bytes : List UInt8) : Nat :=
  bytes.foldr (fun b high => b.toNat + 256 * high) 0

/-- The lowest `count` digits of a number in base 256, the lowest first. -/
def leBytes : Nat → Nat → List UInt8
  | 0, _ => []
  | count + 1, n => n.toUInt8 :: leBytes count (n / 256)

/-- A 16-bit word as bytes, the low byte first. -/
def wordBytes (n : UInt16) : List UInt8 := leBytes 2 n.toNat

/-- The 16-bit word with these two bytes. -/
def wordOf (low high : UInt8) : UInt16 := (littleEndian [low, high]).toUInt16

/-- A 64-bit word as bytes, the low byte first. -/
def quadBytes (n : UInt64) : List UInt8 := leBytes 8 n.toNat

/-- The 64-bit word that the bytes spell, the low byte first. -/
def quadOf (bytes : List UInt8) : UInt64 := (littleEndian bytes).toUInt64

/-- Some zero bytes, as reserved fields are written. -/
def zeroBytes (count : Nat) : List UInt8 := List.replicate count 0

@[simp] theorem length_wordBytes (n : UInt16) : (wordBytes n).length = 2 := rfl

@[simp] theorem length_quadBytes (n : UInt64) : (quadBytes n).length = 8 := rfl

@[simp] theorem length_zeroBytes (count : Nat) : (zeroBytes count).length = count := by
  simp [zeroBytes]

end CellFormula
