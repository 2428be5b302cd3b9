import CellFormula.Formula.Text
import Mathlib.Data.List.Basic

/-!
# Addresses read back

The text of a cell address is a column label and a row number, each with a mark in front if it
stays. Labels are letters and numbers are digits, so the four parts are told apart by their
characters, and each part can be read back: a label is a numeral in base 26 without a zero, a number
has one decimal spelling.

## Main definitions

* `Text.labelValue` — the number that a label spells
* `Text.isAddressChar` — the characters of addresses

## Main results

* `Text.labelValue_labelLetters` — the numeral of a number spells that number
* `addressText_inj` — different addresses have different texts
-/

namespace CellFormula

/-- What stands before the place where a property stops. -/
theorem takeWhile_append_of_stops {α : Type} {p : α → Bool} {xs rest : List α}
    (hxs : ∀ a ∈ xs, p a = true) (hrest : ∀ a ∈ rest.head?, p a = false) :
    (xs ++ rest).takeWhile p = xs := by
  rw [List.takeWhile_append_of_pos hxs]
  cases rest with
  | nil => exact List.append_nil xs
  | cons a rest => rw [List.takeWhile_cons_of_neg (by simp [hrest a rfl]), List.append_nil]

theorem dropWhile_append_of_stops {α : Type} {p : α → Bool} {xs rest : List α}
    (hxs : ∀ a ∈ xs, p a = true) (hrest : ∀ a ∈ rest.head?, p a = false) :
    (xs ++ rest).dropWhile p = rest := by
  have hsplit := List.takeWhile_append_dropWhile (p := p) (l := xs ++ rest)
  rw [takeWhile_append_of_stops hxs hrest] at hsplit
  exact List.append_cancel_left hsplit

/-- Two lists are parted at the same place if a property holds of what stands before it and stops
there. -/
theorem append_inj_of_stops {α : Type} (p : α → Bool) {xs ys rest rest' : List α}
    (hxs : ∀ a ∈ xs, p a = true) (hys : ∀ a ∈ ys, p a = true)
    (hrest : ∀ a ∈ rest.head?, p a = false) (hrest' : ∀ a ∈ rest'.head?, p a = false)
    (h : xs ++ rest = ys ++ rest') : xs = ys ∧ rest = rest' := by
  have hparts : xs = ys := by
    rw [← takeWhile_append_of_stops hxs hrest, h, takeWhile_append_of_stops hys hrest']
  exact ⟨hparts, List.append_cancel_left (hparts ▸ h)⟩

/-! ### Column labels -/

namespace Text

/-- The number that a label spells, its letters being the digits one to 26. -/
def labelValue (cs : List Char) : Nat :=
  cs.foldl (fun n c => n * letterCount + (c.toNat - 'A'.toNat + 1)) 0

/-- A digit is read back from its letter. -/
theorem labelLetter_spec {digit : Nat} (h : digit < letterCount) :
    (labelLetter digit).isUpper = true ∧ (labelLetter digit).toNat - 'A'.toNat = digit := by
  have hall : ∀ d : Fin letterCount,
      (labelLetter d).isUpper = true ∧ (labelLetter d).toNat - 'A'.toNat = d := by decide
  exact hall ⟨digit, h⟩

/-- **A label is read back.** -/
theorem labelValue_labelLetters (n : Nat) : labelValue (labelLetters n) = n := by
  induction n using labelLetters.induct with
  | case1 => rw [labelLetters]; rfl
  | case2 n hpos ih =>
    have hlow : (n - 1) % letterCount < letterCount := Nat.mod_lt _ (by decide)
    have hsplit := Nat.div_add_mod' (n - 1) letterCount
    rw [labelLetters, if_neg hpos, labelValue, List.foldl_append, ← labelValue, ih, List.foldl_cons,
      List.foldl_nil, (labelLetter_spec hlow).2]
    omega

theorem labelLetters_injective {n n' : Nat} (h : labelLetters n = labelLetters n') : n = n' := by
  rw [← labelValue_labelLetters n, h, labelValue_labelLetters]

/-- Labels are written with the letters from `A` to `Z`. -/
theorem isUpper_of_mem_labelLetters {n : Nat} {c : Char} (h : c ∈ labelLetters n) :
    c.isUpper = true := by
  induction n using labelLetters.induct with
  | case1 => rw [labelLetters] at h; cases h
  | case2 n hpos ih =>
    rw [labelLetters, if_neg hpos] at h
    rcases List.mem_append.mp h with hhigh | hlow
    · exact ih hhigh
    · rw [List.mem_singleton.mp hlow]
      exact (labelLetter_spec (Nat.mod_lt _ (by decide))).1

theorem labelLetters_succ_ne_nil (n : Nat) : labelLetters (n + 1) ≠ [] := by
  rw [labelLetters, if_neg (Nat.succ_ne_zero n)]
  exact List.append_ne_nil_of_right_ne_nil _ (List.cons_ne_nil _ _)

/-! ### Addresses -/

/-- The characters of addresses. -/
def isAddressChar (c : Char) : Bool := c == '$' || c.isUpper || c.isDigit

end Text

/-- The mark in front of a part that stays. -/
def fixedMark (fixed : Bool) : List Char := if fixed then ['$'] else []

theorem eq_of_mem_fixedMark {fixed : Bool} {c : Char} (h : c ∈ fixedMark fixed) : c = '$' := by
  cases fixed with
  | false => cases h
  | true => exact List.mem_singleton.mp h

theorem fixedMark_injective {fixed fixed' : Bool} (h : fixedMark fixed = fixedMark fixed') :
    fixed = fixed' := by
  revert h
  cases fixed <;> cases fixed' <;> decide

/-- The four parts of an address. -/
theorem toList_addressText (row col : Nat) (rowFixed colFixed : Bool) :
    (addressText row col rowFixed colFixed).toList = fixedMark colFixed ++
      (Text.labelLetters (col + 1) ++ (fixedMark rowFixed ++ Nat.toDigits 10 (row + 1))) := by
  have hmark (fixed : Bool) : (if fixed then "$" else "").toList = fixedMark fixed := by
    cases fixed <;> rfl
  simp only [addressText, Text.columnLabel, String.toList_append, String.toList_ofList, hmark,
    Nat.toString_eq_repr, Nat.toList_repr, List.append_assoc]

theorem isAddressChar_of_mem_addressText {row col : Nat} {rowFixed colFixed : Bool} {c : Char}
    (h : c ∈ (addressText row col rowFixed colFixed).toList) : Text.isAddressChar c = true := by
  have hmark {fixed : Bool} (hc : c ∈ fixedMark fixed) : Text.isAddressChar c = true := by
    rw [eq_of_mem_fixedMark hc]
    rfl
  rw [toList_addressText] at h
  simp only [List.mem_append] at h
  obtain hc | hc | hc | hc := h
  · exact hmark hc
  · simp [Text.isAddressChar, Text.isUpper_of_mem_labelLetters hc]
  · exact hmark hc
  · simp [Text.isAddressChar, Nat.isDigit_of_mem_toDigits (by decide) (by decide) hc]

theorem addressText_ne_nil (row col : Nat) (rowFixed colFixed : Bool) :
    (addressText row col rowFixed colFixed).toList ≠ [] := by
  rw [toList_addressText]
  exact List.append_ne_nil_of_right_ne_nil _
    (List.append_ne_nil_of_left_ne_nil (Text.labelLetters_succ_ne_nil col) _)

/-- The mark of the column ends where its label begins. -/
theorem ne_mark_of_mem_head?_label {col : Nat} {rest : List Char} :
    ∀ c ∈ (Text.labelLetters (col + 1) ++ rest).head?, (c == '$') = false := by
  intro c hc
  rw [List.head?_append_of_ne_nil _ (Text.labelLetters_succ_ne_nil col)] at hc
  have hupper := Text.isUpper_of_mem_labelLetters (List.mem_of_mem_head? hc)
  rw [beq_eq_false_iff_ne]
  rintro rfl
  exact absurd hupper (by decide)

/-- The mark of the row ends where its number begins. -/
theorem ne_mark_of_mem_head?_number {n : Nat} :
    ∀ c ∈ (Nat.toDigits 10 n).head?, (c == '$') = false := by
  intro c hc
  have hdigit := Nat.isDigit_of_mem_toDigits (by decide) (by decide) (List.mem_of_mem_head? hc)
  rw [beq_eq_false_iff_ne]
  rintro rfl
  exact absurd hdigit (by decide)

/-- A digit is not a capital letter. -/
theorem not_isUpper_of_isDigit {c : Char} (h : c.isDigit = true) : c.isUpper = false := by
  have hlow : c.val < 'A'.val := by
    simp only [Char.isDigit, Bool.and_eq_true, decide_eq_true_eq] at h
    exact UInt32.lt_of_le_of_lt h.2 (by decide)
  have hrange : ¬('A'.val ≤ c.val ∧ c.val ≤ 'Z'.val) := fun h => UInt32.not_le.mpr hlow h.1
  exact decide_eq_false hrange

/-- The label of the column ends where the row begins, with its mark or without. -/
theorem not_isUpper_of_mem_head?_row {fixed : Bool} {n : Nat} :
    ∀ c ∈ (fixedMark fixed ++ Nat.toDigits 10 n).head?, c.isUpper = false := by
  intro c hc
  cases fixed with
  | false =>
    exact not_isUpper_of_isDigit
      (Nat.isDigit_of_mem_toDigits (by decide) (by decide) (List.mem_of_mem_head? hc))
  | true => cases hc; rfl

/-- **Different addresses have different texts.** -/
theorem addressText_inj {row col row' col' : Nat} {rowFixed colFixed rowFixed' colFixed' : Bool}
    (h : addressText row col rowFixed colFixed = addressText row' col' rowFixed' colFixed') :
    row = row' ∧ col = col' ∧ rowFixed = rowFixed' ∧ colFixed = colFixed' := by
  have hmark {fixed : Bool} : ∀ c ∈ fixedMark fixed, (c == '$') = true := fun c hc => by
    rw [eq_of_mem_fixedMark hc]
    rfl
  have hlabel {n : Nat} : ∀ c ∈ Text.labelLetters n, c.isUpper = true := fun _ =>
    Text.isUpper_of_mem_labelLetters
  have htexts := congrArg String.toList h
  rw [toList_addressText, toList_addressText] at htexts
  obtain ⟨hcolFixed, htexts⟩ := append_inj_of_stops _ hmark hmark
    ne_mark_of_mem_head?_label ne_mark_of_mem_head?_label htexts
  obtain ⟨hcol, htexts⟩ := append_inj_of_stops _ hlabel hlabel
    not_isUpper_of_mem_head?_row not_isUpper_of_mem_head?_row htexts
  obtain ⟨hrowFixed, hrow⟩ := append_inj_of_stops _ hmark hmark
    ne_mark_of_mem_head?_number ne_mark_of_mem_head?_number htexts
  have hnumber := congrArg (fun cs => Nat.ofDigitChars 10 cs 0) hrow
  simp only [Nat.ofDigitChars_ten_toDigits] at hnumber
  exact ⟨Nat.succ_inj.mp hnumber, Nat.succ_inj.mp (Text.labelLetters_injective hcol),
    fixedMark_injective hrowFixed, fixedMark_injective hcolFixed⟩

/-- **The text of a cell tells the cell**, its markers included. -/
theorem CellRef.text_injective {c c' : CellRef} (h : c.text = c'.text) : c = c' := by
  obtain ⟨hrow, hcol, hrowFixed, hcolFixed⟩ := addressText_inj h
  obtain ⟨row, col, rowRelative, colRelative⟩ := c
  obtain ⟨row', col', rowRelative', colRelative'⟩ := c'
  cases UInt16.toNat_inj.mp hrow
  cases UInt16.toNat_inj.mp hcol
  cases Bool.not_inj hrowFixed
  cases Bool.not_inj hcolFixed
  rfl

end CellFormula
