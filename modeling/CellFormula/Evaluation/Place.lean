/-!
# The cell that a formula is evaluated for

Offsets of shared references count from this cell, ranges are cut down to its row or column where a
single value is wanted, and results without a place of their own are put there.
-/

namespace CellFormula

/-- The cell that a formula is evaluated for. -/
structure Place where
  row : Nat
  col : Nat
  /-- The formula is an array formula: ranges are read whole where a single value is wanted. -/
  inArrayFormula : Bool
deriving DecidableEq, Repr, Inhabited

namespace Place

/-- The first cell of the sheet, outside an array formula. -/
def origin : Place := ⟨0, 0, false⟩

end Place

end CellFormula
