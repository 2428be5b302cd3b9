import CellFormula.Text.CodeRange

/-!
# White space at the ends of a text

Function names and the texts of numbers and truth values are read with the white space around them
ignored. White space is the Unicode property of that name, so the no-break space and the
ideographic space belong to it and the zero-width space does not.

## Main definitions

* `blankRanges`, `isBlank` — the property
* `trimStart`, `trimEnd`, `trim` — a text without the white space at its ends
-/

namespace CellFormula.Text

/-- The ranges of white space, both ends included. -/
def blankRanges : List (Nat × Nat) :=
  [(0x9, 0xD), (0x20, 0x20), (0x85, 0x85), (0xA0, 0xA0), (0x1680, 0x1680), (0x2000, 0x200A),
   (0x2028, 0x2029), (0x202F, 0x202F), (0x205F, 0x205F), (0x3000, 0x3000)]

/-- The character is white space. -/
def isBlank (c : Char) : Bool := inRanges blankRanges c.toNat

/-- The characters after the white space at the start. -/
def trimStart (cs : List Char) : List Char := cs.dropWhile isBlank

/-- The characters before the white space at the end. -/
def trimEnd (cs : List Char) : List Char := (cs.reverse.dropWhile isBlank).reverse

/-- The characters without the white space at both ends. -/
def trim (cs : List Char) : List Char := trimEnd (trimStart cs)

end CellFormula.Text
