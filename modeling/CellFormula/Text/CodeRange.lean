/-!
# Sets of characters as ranges of code points

A character property is data: a list of ranges of code points, both ends included. `inRanges` is
membership, and it is the only reading of such a list in this library.
-/

namespace CellFormula.Text

/-- Some range, both ends included, holds the code point. -/
def inRanges (ranges : List (Nat × Nat)) (code : Nat) : Bool :=
  ranges.any fun (first, last) => first ≤ code && code ≤ last

end CellFormula.Text
