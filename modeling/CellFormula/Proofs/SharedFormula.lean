import CellFormula.Evaluation.Machine
import CellFormula.Formula.Text

/-!
# Shared formulas

A shared formula is stored once and read for many cells. An evaluation can resolve its offsets as it
meets them, or `Formula.placed` can replace them by addresses before the evaluation begins. Both
give the same answer, be it a value or an error, for every formula and every machine. The same holds
of writing the formula out, where the labels say for which cell it is written.

## Why the two could have differed

An evaluation keeps the address of a shared reference as a pair of numbers of any size, and so does
a text. A placed reference keeps it as two words, and a deleted reference stands for an address off
the grid. So the two agree because whatever `CellRef.place?` answers fits into words, and because an
area with one corner off the grid is deleted as a whole on both ways. The marks of a text need the
flags of the reference besides its address, and placing leaves those alone.

## Main results

* `CellRef.place?_bounds` — placed addresses lie on the grid
* `Machine.referenceOperand_placed`, `Labels.referenceText_placed` — a reference stands for the same
  operand, and has the same text
* `walk_placed` — a walk through a placed formula ends alike if each of its steps does
* `Machine.evaluate_placed` — a formula has the same value
* `Formula.text_placed` — and the same text
-/

namespace CellFormula

open Worksheet (FunctionInfo)

/-! ### Placed addresses -/

namespace CellRef

theorem onGrid_iff {row col : Int} :
    onGrid row col = true ↔ 0 ≤ row ∧ row ≤ lastGridRow ∧ 0 ≤ col ∧ col ≤ lastGridCol := by
  simp only [onGrid, Bool.and_eq_true, decide_eq_true_eq, and_assoc]

/-- An address is given if it lies on the grid, and it is the one that the offsets mean. -/
theorem place?_eq_some {c : CellRef} {baseRow baseCol row col : Nat}
    (h : c.place? baseRow baseCol = some (row, col)) :
    (row : Int) = c.placedRow baseRow ∧ (col : Int) = c.placedCol baseCol ∧
      onGrid row col = true := by
  rw [place?] at h
  by_cases hgrid : onGrid (c.placedRow baseRow) (c.placedCol baseCol) = true
  · rw [if_pos hgrid] at h
    obtain ⟨rfl, rfl⟩ := Prod.mk.inj (Option.some.inj h)
    obtain ⟨hrow, -, hcol, -⟩ := onGrid_iff.mp hgrid
    rw [Int.toNat_of_nonneg hrow, Int.toNat_of_nonneg hcol]
    exact ⟨rfl, rfl, hgrid⟩
  · rw [if_neg hgrid] at h
    cases h

/-- **A placed address lies on the grid**, whatever the cell is that it is placed for. -/
theorem place?_bounds {c : CellRef} {baseRow baseCol row col : Nat}
    (h : c.place? baseRow baseCol = some (row, col)) : row ≤ lastGridRow ∧ col ≤ lastGridCol := by
  obtain ⟨-, -, hgrid⟩ := place?_eq_some h
  obtain ⟨-, hrow, -, hcol⟩ := onGrid_iff.mp hgrid
  exact ⟨Int.ofNat_le.mp hrow, Int.ofNat_le.mp hcol⟩

/-- So it fits into the words of a reference. -/
theorem place?_words {c : CellRef} {baseRow baseCol row col : Nat}
    (h : c.place? baseRow baseCol = some (row, col)) :
    row.toUInt16.toNat = row ∧ col.toUInt16.toNat = col := by
  obtain ⟨hrow, hcol⟩ := place?_bounds h
  have hrowLt : row < UInt16.size := Nat.lt_succ_of_le hrow
  have hcolLt : col < UInt16.size := Nat.lt_of_le_of_lt hcol (by decide)
  exact ⟨UInt16.toNat_ofNat_of_lt' hrowLt, UInt16.toNat_ofNat_of_lt' hcolLt⟩

end CellRef

/-! ### Placed formulas -/

/-- **A walk through a placed formula** goes as a walk through the formula if each token does. -/
theorem walk_placed {ε σ : Type} {step step' : Nat → Token → σ → Except ε σ} {row col : Nat}
    (h : ∀ index t state, step index (t.placed row col) state = step' index t state)
    (index : Nat) (state : σ) (f : Formula) :
    walk step index state (f.placed row col) = walk step' index state f := by
  induction f generalizing index state with
  | nil => rfl
  | cons t f ih =>
    rw [Formula.placed, List.map_cons, walk, walk, h]
    cases step' index t state with
    | error e => rfl
    | ok next => exact ih (index + 1) next

namespace Machine

/-! ### Operands of placed references -/

variable (m : Machine)

theorem referenceOperand_placed_cell (c : CellRef) :
    m.referenceOperand ((Reference.sharedCell c).placed m.place.row m.place.col)
      = m.referenceOperand (.sharedCell c) := by
  have hplaced : m.placed? c = c.place? m.place.row m.place.col := rfl
  rw [Reference.placed, referenceOperand, hplaced]
  cases hcell : c.place? m.place.row m.place.col with
  | none => rfl
  | some address =>
    obtain ⟨row, col⟩ := address
    obtain ⟨hrow, hcol⟩ := CellRef.place?_words hcell
    simp only [referenceOperand, hrow, hcol]

/-- An area is deleted as soon as one of its corners is off the grid. -/
theorem referenceOperand_placed_area (a : AreaRef) :
    m.referenceOperand ((Reference.sharedArea a).placed m.place.row m.place.col)
      = m.referenceOperand (.sharedArea a) := by
  have hplaced (c : CellRef) : m.placed? c = c.place? m.place.row m.place.col := rfl
  rw [Reference.placed, referenceOperand, hplaced, hplaced]
  cases hfirst : a.first.place? m.place.row m.place.col with
  | none => rfl
  | some first =>
    cases hlast : a.last.place? m.place.row m.place.col with
    | none => rfl
    | some last =>
      obtain ⟨row, col⟩ := first
      obtain ⟨row', col'⟩ := last
      obtain ⟨hrow, hcol⟩ := CellRef.place?_words hfirst
      obtain ⟨hrow', hcol'⟩ := CellRef.place?_words hlast
      simp only [referenceOperand, rangeOf, hrow, hcol, hrow', hcol']

/-- **A placed reference stands for the same operand.** -/
theorem referenceOperand_placed (r : Reference) :
    m.referenceOperand (r.placed m.place.row m.place.col) = m.referenceOperand r := by
  cases r with
  | sharedCell c => exact m.referenceOperand_placed_cell c
  | sharedArea a => exact m.referenceOperand_placed_area a
  | _ => rfl

/-! ### Values of placed formulas -/

/-- **A placed token does the same to the stack.** Only references differ, and a reference takes
nothing off the stack, so no error can name the opcode that it had before. -/
theorem step_placed (index : Nat) (t : Token) (stack : Stack Operand) :
    m.step index (t.placed m.place.row m.place.col) stack = m.step index t stack := by
  cases t with
  | reference r cls =>
    have hput (r' : Reference) : m.step index (.reference r' cls) stack
        = m.pushed index stack (m.referenceOperand r') := rfl
    rw [Token.placed, hput, hput, referenceOperand_placed]
  | _ => rfl

/-- **A placed formula does the same to the stack.** -/
theorem run_placed (index : Nat) (stack : Stack Operand) (f : Formula) :
    m.run index stack (f.placed m.place.row m.place.col) = m.run index stack f :=
  walk_placed m.step_placed index stack f

/-- **Placing a shared formula and then evaluating it is evaluating it in place.** The answers are
equal, errors included, for every source, cell, limit and table of functions. -/
theorem evaluate_placed (f : Formula) :
    m.evaluate (f.placed m.place.row m.place.col) = m.evaluate f := by
  rw [evaluate, evaluate, run_placed]

end Machine

namespace Labels

/-! ### Texts of placed references -/

/-- The labels as they are for the formula of another cell. -/
def writtenFor (labels : Labels) (row col : Nat) : Labels := { labels with row := row, col := col }

variable (labels : Labels) (row col : Nat)

theorem sharedText?_writtenFor (c : CellRef) :
    (labels.writtenFor row col).sharedText? c = (c.place? row col).map fun address =>
      addressText address.1 address.2 (!c.rowRelative) (!c.colRelative) := rfl

theorem referenceText_placed_cell (c : CellRef) :
    labels.referenceText ((Reference.sharedCell c).placed row col)
      = (labels.writtenFor row col).referenceText (.sharedCell c) := by
  have htext : (labels.writtenFor row col).referenceText (.sharedCell c)
      = ((labels.writtenFor row col).sharedText? c).getD goneText := rfl
  rw [htext, sharedText?_writtenFor, Reference.placed]
  cases hcell : c.place? row col with
  | none => rfl
  | some address =>
    obtain ⟨hrow, hcol⟩ := CellRef.place?_words hcell
    simp only [referenceText, CellRef.text, hrow, hcol]
    rfl

/-- An area with one corner off the grid shows nothing of the other corner. -/
theorem referenceText_placed_area (a : AreaRef) :
    labels.referenceText ((Reference.sharedArea a).placed row col)
      = (labels.writtenFor row col).referenceText (.sharedArea a) := by
  have htext : (labels.writtenFor row col).referenceText (.sharedArea a)
      = ((labels.writtenFor row col).sharedAreaText? a).getD goneText := rfl
  rw [htext, sharedAreaText?, sharedText?_writtenFor, sharedText?_writtenFor, Reference.placed]
  cases hfirst : a.first.place? row col with
  | none => rfl
  | some first =>
    cases hlast : a.last.place? row col with
    | none => rfl
    | some last =>
      obtain ⟨hrow, hcol⟩ := CellRef.place?_words hfirst
      obtain ⟨hrow', hcol'⟩ := CellRef.place?_words hlast
      simp only [referenceText, AreaRef.text, CellRef.text, hrow, hcol, hrow', hcol']
      rfl

/-- **A placed reference has the same text**, for whatever cell its labels are. -/
theorem referenceText_placed (r : Reference) :
    labels.referenceText (r.placed row col) = (labels.writtenFor row col).referenceText r := by
  cases r with
  | sharedCell c => exact labels.referenceText_placed_cell row col c
  | sharedArea a => exact labels.referenceText_placed_area row col a
  | _ => rfl

/-! ### Texts of placed formulas -/

/-- What a call does to the text has nothing to do with labels. -/
theorem step_of_ofCall {labels labels' : Labels} {t : Token} {called : UInt16}
    {count : FunctionInfo → Nat} (h : t.action = .ofCall called count) (index : Nat)
    (stack : Stack Phrase) : labels.step index t stack = labels'.step index t stack := by
  rw [step, step, h, Action.ofCall]
  cases Worksheet.functionAt? called <;> rfl

/-- **A placed token does the same to the text.** -/
theorem step_placed (index : Nat) (t : Token) (stack : Stack Phrase) :
    labels.step index (t.placed row col) stack
      = (labels.writtenFor row col).step index t stack := by
  cases t with
  | reference r cls =>
    have hput (labels : Labels) (r' : Reference) : labels.step index (.reference r' cls) stack
        = .ok (stack.push (.atom (labels.referenceText r'))) := rfl
    rw [Token.placed, hput, hput, referenceText_placed]
  | array cells cls => cases cells <;> rfl
  | call c cls => exact step_of_ofCall rfl index stack
  | hint a =>
    by_cases hsum : a.isSum = true
    · exact step_of_ofCall (t := .hint a) (if_pos hsum) index stack
    · have hpass : (Token.hint a).action = .pass := if_neg hsum
      show labels.step index (.hint a) stack
        = (labels.writtenFor row col).step index (.hint a) stack
      rw [step, step, hpass]
  | _ => rfl

end Labels

namespace Formula

/-- The text of a placed formula, with labels for any cell. -/
theorem text_placed_writtenFor (f : Formula) (row col : Nat) (labels : Labels) :
    (f.placed row col).text labels = f.text (labels.writtenFor row col) := by
  rw [text, text, walk_placed (labels.step_placed row col)]

/-- **Placing a shared formula and then writing it out is writing it out in place.** The texts are
equal, and so are the faults where there is no text. Once the formula is placed, its text is the
same for every cell. -/
theorem text_placed (f : Formula) (labels : Labels) :
    (f.placed labels.row labels.col).text labels = f.text labels ∧
      ∀ row col, (f.placed labels.row labels.col).text (labels.writtenFor row col)
        = f.text labels :=
  ⟨f.text_placed_writtenFor labels.row labels.col labels, fun row col =>
    f.text_placed_writtenFor labels.row labels.col (labels.writtenFor row col)⟩

/-- The cell above, in a column that stays: for a cell of the second row, and for one of the
first. -/
example :
    let above : Formula := [.reference (.sharedCell ⟨0xFFFF, 1, true, false⟩) .value]
    (above.text (Labels.numbered.writtenFor 1 5), above.text (Labels.numbered.writtenFor 0 5))
      = (.ok "$B1", .ok "#REF!") := by cbv

end Formula

end CellFormula
