import CellFormula.Text.Alphanumeric

/-!
# Quoted texts and sheet labels

A quoted text stands between two quotation marks, and a mark inside it is written twice. The form
ends at the first mark that is not doubled, so it can stand inside a longer formula text. Text
literals use the double mark and sheet labels the single one; a label that is plainly a name is
written bare.

## Main definitions

* `enclosed` — a text between marks, with the marks inside it doubled
* `textLiteral` — a text as formulas write it
* `isPlainLabel`, `sheetLabel` — a sheet label as formulas write it
-/

namespace CellFormula.Text

/-- The characters with every `mark` written twice. -/
def doubled (mark : Char) (cs : List Char) : List Char :=
  cs.flatMap fun c => if c = mark then [mark, mark] else [c]

/-- The text between two marks, every mark inside it written twice. -/
def enclosed (mark : Char) (s : String) : String :=
  String.ofList (mark :: (doubled mark s.toList ++ [mark]))

/-- The text as a literal in a formula. -/
def textLiteral (s : String) : String := enclosed '"' s

/-- A label that needs no marks: letters, digits, points and low lines, an ASCII digit not first. -/
def isPlainLabel (s : String) : Bool :=
  match s.toList with
  | [] => false
  | c :: cs => !c.isDigit && (c :: cs).all fun d => isAlphanumeric d || d == '_' || d == '.'

/-- A label that needs no marks has letters, digits, points and low lines only. -/
theorem all_of_isPlainLabel {s : String} (h : isPlainLabel s = true) :
    ∀ c ∈ s.toList, (isAlphanumeric c || c == '_' || c == '.') = true := by
  rw [isPlainLabel] at h
  split at h
  · cases h
  · next c cs hchars =>
    rw [hchars]
    exact List.all_eq_true.mp (Bool.and_eq_true_iff.mp h).2

/-- The label of a sheet as a formula writes it in front of a reference. -/
def sheetLabel (s : String) : String := if isPlainLabel s then s else enclosed '\'' s

end CellFormula.Text
