/-!
# Column labels

Columns are labelled with letters: `A` to `Z`, then `AA` to `ZZ`, and so on. A label is a numeral in
base 26 whose digits run from one to 26 and not from zero to 25, so every positive number has
exactly one, and no label has a leading zero to drop.

## Main definitions

* `labelLetters` — the numeral of a number, empty for zero
* `columnLabel` — the label of a column, columns being counted from zero
-/

namespace CellFormula.Text

/-- The number of letters. -/
def letterCount : Nat := 26

/-- The letter that stands for a digit, the digit `A` being zero. -/
def labelLetter (digit : Nat) : Char := Char.ofNat ('A'.toNat + digit)

/-- The numeral of a number with the letters as its digits. -/
def labelLetters (n : Nat) : List Char :=
  if n = 0 then []
  else labelLetters ((n - 1) / letterCount) ++ [labelLetter ((n - 1) % letterCount)]
termination_by n
decreasing_by
  simp only [letterCount]
  omega

/-- The label of a column. -/
def columnLabel (col : Nat) : String := String.ofList (labelLetters (col + 1))

end CellFormula.Text
