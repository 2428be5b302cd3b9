import CellFormula.Proofs.AddressText
import Mathlib.Data.List.Induction
import Mathlib.Data.List.Shortlex

/-!
# Labels number the columns

A label is the numeral of its column, with the letters as the digits one to 26. No digit is zero, so
nothing is lost in front, and every word of capital letters is the numeral of one number. A longer
numeral is that of a larger number, and of two equally long ones the first letter in which they
differ decides: labels are in the order of their columns if they are put in order as words are, the
shorter ones first.

## The buffer

The last digit is found first. So a label is written backwards into a buffer, which has room for
eight letters, and is copied from there. Here that is written a second time, with a buffer that can
be full (`LabelBuffer.push?`) and with columns that are words: `appendLabel?` has no value if a
letter does not fit. It has one for every column that has a successor among the words, since seven
digits are enough for all of them. The last column is left out because its number is no word.

## Main definitions

* `LabelBuffer`, `appendLabel?` — writing a label by way of a buffer

## Main results

* `shortlex_labelLetters_iff` — the order of labels
* `labelLetters_labelValue` — every word of capital letters is a label
* `appendLabel?_eq_some` — the buffer is large enough
* `labels_number_columns` — labels are a numbering
-/

namespace CellFormula.Text

variable {m n : Nat}

theorem labelLetters_of_pos (h : 0 < n) : labelLetters n
    = labelLetters ((n - 1) / letterCount) ++ [labelLetter ((n - 1) % letterCount)] := by
  rw [labelLetters, if_neg h.ne']

theorem labelLetters_succ (n : Nat) : labelLetters (n + 1)
    = labelLetters (n / letterCount) ++ [labelLetter (n % letterCount)] :=
  labelLetters_of_pos n.succ_pos

theorem labelLetters_zero : labelLetters 0 = [] := by
  rw [labelLetters, if_pos rfl]

/-! ### The order of labels -/

section

variable {α : Type} {r : α → α → Prop} {s t : List α}

/-- What follows two equally long lists does not matter if they differ. -/
theorem lex_append_of_length_eq (h : List.Lex r s t) (hlength : s.length = t.length)
    (u v : List α) : List.Lex r (s ++ u) (t ++ v) := by
  induction h with
  | nil => cases hlength
  | rel h => exact .rel h
  | cons _ ih => exact .cons (ih (Nat.succ.inj hlength))

theorem shortlex_concat (h : List.Shortlex r s t) (a b : α) :
    List.Shortlex r (s ++ [a]) (t ++ [b]) := by
  obtain hlength | ⟨hlength, hlex⟩ := List.shortlex_def.mp h
  · exact .of_length_lt (by simpa using hlength)
  · exact .of_lex (by simpa using hlength) (lex_append_of_length_eq hlex hlength [a] [b])

end

theorem labelLetter_lt_labelLetter {d e : Nat} (hlt : d < e) (he : e < letterCount) :
    labelLetter d < labelLetter e := by
  have hall : ∀ e : Fin letterCount, ∀ d : Fin letterCount,
      d < e → labelLetter d < labelLetter e := by decide
  exact hall ⟨e, he⟩ ⟨d, hlt.trans he⟩ hlt

/-- **A larger number has a later label.** -/
theorem shortlex_labelLetters (h : m < n) :
    List.Shortlex (· < ·) (labelLetters m) (labelLetters n) := by
  induction n using Nat.strongRecOn generalizing m with
  | _ n ih =>
    obtain ⟨n, rfl⟩ := Nat.exists_eq_add_one_of_ne_zero (Nat.ne_zero_of_lt h)
    cases m with
    | zero =>
      rw [labelLetters_zero]
      exact .of_length_lt (List.length_pos_iff.mpr (labelLetters_succ_ne_nil n))
    | succ m =>
      have hle : m / letterCount ≤ n / letterCount :=
        Nat.div_le_div_right (Nat.lt_of_succ_lt_succ h).le
      rw [labelLetters_succ, labelLetters_succ]
      obtain hlt | heq := hle.lt_or_eq
      · have hsmaller : n / letterCount < n + 1 := Nat.lt_succ_of_le (Nat.div_le_self n _)
        exact shortlex_concat (ih _ hsmaller hlt) _ _
      · -- The numbers differ in the last digit only.
        have hdigit : m % letterCount < n % letterCount := by
          have hm := Nat.div_add_mod m letterCount
          have hn := Nat.div_add_mod n letterCount
          rw [heq] at hm
          omega
        rw [heq]
        refine List.Shortlex.append_left ?_ _
        exact (List.shortlex_singleton_iff _ _).mpr
          (labelLetter_lt_labelLetter hdigit (Nat.mod_lt n (by decide)))

/-- **Labels are in the order of their numbers.** -/
theorem shortlex_labelLetters_iff :
    List.Shortlex (· < ·) (labelLetters m) (labelLetters n) ↔ m < n := by
  refine ⟨fun h => ?_, shortlex_labelLetters⟩
  obtain hlt | rfl | hgt := Nat.lt_trichotomy m n
  · exact hlt
  · exact absurd h (Std.Asymm.asymm _ _ h)
  · exact absurd h (Std.Asymm.asymm _ _ (shortlex_labelLetters hgt))

/-! ### Words of letters -/

theorem isUpper_iff {c : Char} : c.isUpper = true ↔ 'A' ≤ c ∧ c ≤ 'Z' :=
  decide_eq_true_iff

/-- A letter is the one that stands for its digit. -/
theorem labelLetter_of_isUpper {c : Char} (h : c.isUpper = true) :
    c.toNat - 'A'.toNat < letterCount ∧ labelLetter (c.toNat - 'A'.toNat) = c := by
  obtain ⟨hlow, hhigh⟩ : 'A'.toNat ≤ c.toNat ∧ c.toNat ≤ 'Z'.toNat := isUpper_iff.mp h
  constructor
  · have hlast : 'Z'.toNat - 'A'.toNat < letterCount := by decide
    omega
  · rw [labelLetter, Nat.add_sub_cancel' hlow, Char.ofNat_toNat]

/-- **Every word of capital letters is the numeral of its number.** -/
theorem labelLetters_labelValue {cs : List Char} (h : ∀ c ∈ cs, c.isUpper = true) :
    labelLetters (labelValue cs) = cs := by
  induction cs using List.reverseRecOn with
  | nil => exact labelLetters_zero
  | append_singleton cs c ih =>
    obtain ⟨hdigit, hletter⟩ := labelLetter_of_isUpper (h c (by simp))
    have hvalue : labelValue (cs ++ [c])
        = labelValue cs * letterCount + (c.toNat - 'A'.toNat) + 1 := by
      rw [labelValue, List.foldl_append, ← labelValue, List.foldl_cons, List.foldl_nil,
        Nat.add_assoc]
    have hhigh : (labelValue cs * letterCount + (c.toNat - 'A'.toNat)) / letterCount
        = labelValue cs := by
      rw [Nat.add_comm, Nat.add_mul_div_right _ _ (by decide), Nat.div_eq_of_lt hdigit,
        Nat.zero_add]
    have hlow : (labelValue cs * letterCount + (c.toNat - 'A'.toNat)) % letterCount
        = c.toNat - 'A'.toNat := by
      rw [Nat.add_comm, Nat.add_mul_mod_self_right, Nat.mod_eq_of_lt hdigit]
    rw [hvalue, labelLetters_succ, hhigh, hlow, hletter, ih fun d hd => h d (by simp [hd])]

/-- A number below a power of 26 has no more digits than the exponent says. -/
theorem length_labelLetters_le {k : Nat} (h : n < letterCount ^ k) :
    (labelLetters n).length ≤ k := by
  induction k generalizing n with
  | zero =>
    rw [Nat.lt_one_iff.mp h, labelLetters_zero]
    exact Nat.le_refl 0
  | succ k ih =>
    cases n with
    | zero => rw [labelLetters_zero]; exact Nat.zero_le _
    | succ n =>
      have hhigh : n / letterCount < letterCount ^ k := by
        refine Nat.div_lt_of_lt_mul ?_
        rw [← pow_succ']
        omega
      rw [labelLetters_succ, List.length_append, List.length_singleton]
      exact Nat.succ_le_succ (ih hhigh)

/-! ### Writing by way of a buffer -/

/-- The number of letters that the buffer has room for. -/
def labelRoom : Nat := 8

/-- A buffer for the letters of a label, the last letter first. -/
structure LabelBuffer where
  /-- The letters, as bytes. -/
  places : Vector UInt8 labelRoom
  /-- The number of places that are taken. -/
  used : Nat

namespace LabelBuffer

/-- The buffer of which no place is taken. -/
def empty : LabelBuffer := ⟨Vector.replicate labelRoom 0, 0⟩

/-- The letters in the buffer. -/
def letters (b : LabelBuffer) : List UInt8 := b.places.toList.take b.used

/-- The buffer with one more letter, if there is a place for it. -/
def push? (b : LabelBuffer) (letter : UInt8) : Option LabelBuffer :=
  if h : b.used < labelRoom then some ⟨b.places.set b.used letter, b.used + 1⟩ else none

/-- A letter fits as long as not all places are taken. -/
theorem push?_eq_some {b : LabelBuffer} (h : b.used < labelRoom) (letter : UInt8) :
    ∃ b', b.push? letter = some b' ∧ b'.used = b.used + 1 ∧ b'.letters = b.letters ++ [letter] := by
  refine ⟨_, dif_pos h, rfl, ?_⟩
  have hlength : b.used < b.places.toList.length := by rwa [Vector.length_toList]
  rw [letters, letters, Vector.toList_set, List.take_add_one, List.getElem?_set_self hlength,
    List.take_set_of_le (Nat.le_refl _)]
  rfl

theorem toNat_sub_one {n : UInt32} (h : n ≠ 0) : (n - 1).toNat = n.toNat - 1 :=
  UInt32.toNat_sub_of_le _ _ (UInt32.le_iff_toNat_le.mpr
    (Nat.one_le_iff_ne_zero.mpr fun hzero => h (UInt32.toNat_inj.mp hzero)))

/-- What is left of a number without its last digit is smaller. -/
theorem toNat_rest_lt {n : UInt32} (h : n ≠ 0) : ((n - 1) / 26).toNat < n.toNat := by
  have hpos : n.toNat ≠ 0 := fun hzero => h (UInt32.toNat_inj.mp hzero)
  rw [UInt32.toNat_div, toNat_sub_one h]
  exact (Nat.div_le_self _ _).trans_lt (Nat.sub_one_lt hpos)

/-- The buffer with the digits of a number behind those that it has, the last digit first. -/
def fill? (b : LabelBuffer) (n : UInt32) : Option LabelBuffer :=
  if _ : n = 0 then some b
  else do
    let b' ← b.push? ('A'.toUInt8 + ((n - 1) % 26).toUInt8)
    b'.fill? ((n - 1) / 26)
termination_by n.toNat
decreasing_by
  exact toNat_rest_lt ‹_›

/-- A digit as a byte is its letter. -/
theorem ofUInt8_digit {digit : UInt32} (h : digit.toNat < letterCount) :
    Char.ofUInt8 ('A'.toUInt8 + digit.toUInt8) = labelLetter digit.toNat := by
  have hall : ∀ d : Fin letterCount,
      Char.ofUInt8 ('A'.toUInt8 + (UInt32.ofNat d).toUInt8) = labelLetter d := by decide
  have hdigit := hall ⟨digit.toNat, h⟩
  rwa [UInt32.ofNat_toNat] at hdigit

/-- **The digits fit** if there are as many places as digits, and their letters are those of the
numeral, the last one first. -/
theorem fill?_eq_some {b : LabelBuffer} {n : UInt32}
    (hroom : b.used + (labelLetters n.toNat).length ≤ labelRoom) :
    ∃ b', b.fill? n = some b' ∧ b'.letters.map Char.ofUInt8
      = b.letters.map Char.ofUInt8 ++ (labelLetters n.toNat).reverse := by
  induction b, n using fill?.induct with
  | case1 b =>
    refine ⟨b, by rw [fill?, dif_pos rfl], ?_⟩
    rw [UInt32.toNat_zero, labelLetters_zero, List.reverse_nil, List.append_nil]
  | case2 b n hpos ih =>
    have hdigits : labelLetters n.toNat = labelLetters ((n - 1) / 26).toNat
        ++ [Char.ofUInt8 ('A'.toUInt8 + ((n - 1) % 26).toUInt8)] := by
      have hdigit : ((n - 1) % 26).toNat < letterCount := by
        rw [UInt32.toNat_mod]
        exact Nat.mod_lt _ (by decide)
      rw [ofUInt8_digit hdigit, UInt32.toNat_mod, UInt32.toNat_div, toNat_sub_one hpos]
      exact labelLetters_of_pos (Nat.zero_lt_of_lt (toNat_rest_lt hpos))
    rw [hdigits, List.length_append, List.length_singleton] at hroom
    obtain ⟨b', hpush, hused, hletters⟩ :=
      b.push?_eq_some (by omega) ('A'.toUInt8 + ((n - 1) % 26).toUInt8)
    obtain ⟨b'', hfill, hall⟩ := ih b' (by omega)
    refine ⟨b'', ?_, ?_⟩
    · rw [fill?, dif_neg hpos, hpush]
      exact hfill
    · rw [hall, hletters, hdigits, List.reverse_concat, List.map_append, List.append_assoc]
      rfl

end LabelBuffer

/-- The text with the label of a column behind it. -/
def appendLabel? (col : UInt32) (out : String) : Option String := do
  let b ← LabelBuffer.empty.fill? (col + 1)
  return b.letters.reverse.foldl (fun text letter => text.push (Char.ofUInt8 letter)) out

/-- Letters that are appended one after the other. -/
theorem toList_foldl_push (letters : List UInt8) (out : String) :
    (letters.foldl (fun text letter => text.push (Char.ofUInt8 letter)) out).toList
      = out.toList ++ letters.map Char.ofUInt8 := by
  induction letters generalizing out with
  | nil => simp
  | cons letter letters ih => simp [ih]

/-- **The buffer is large enough** for every column that has a successor among the words. -/
theorem appendLabel?_eq_some {col : UInt32} (h : col.toNat < 2 ^ 32 - 1) (out : String) :
    appendLabel? col out = some (out ++ columnLabel col.toNat) := by
  have hnumber : (col + 1).toNat = col.toNat + 1 := by
    rw [UInt32.toNat_add, UInt32.toNat_one, Nat.mod_eq_of_lt (by omega)]
  have hlength : (labelLetters (col + 1).toNat).length ≤ 7 := by
    refine length_labelLetters_le ?_
    have hall : (2 : Nat) ^ 32 ≤ letterCount ^ 7 := by decide
    omega
  obtain ⟨b, hfill, hletters⟩ := LabelBuffer.empty.fill?_eq_some (n := col + 1)
    ((Nat.zero_add _).trans_le (hlength.trans (by decide)))
  have hempty : LabelBuffer.empty.letters = [] := rfl
  rw [hempty, List.map_nil, List.nil_append, hnumber] at hletters
  rw [appendLabel?, hfill]
  refine congrArg some (String.toList_injective ?_)
  rw [toList_foldl_push, List.map_reverse, hletters, List.reverse_reverse, String.toList_append,
    columnLabel, String.toList_ofList]

/-! ### The numbering -/

/-- **Labels number the columns.** Writing the label of a column behind a text succeeds, and it is a
word of capital letters that is not empty and spells the number of the column, counted from one. No
two columns have the same label, labels are in the order of the columns, and every word of capital
letters is the label of a column. -/
theorem labels_number_columns :
    (∀ col : UInt32, col.toNat < 2 ^ 32 - 1 →
      (∀ out, appendLabel? col out = some (out ++ columnLabel col.toNat)) ∧
      columnLabel col.toNat ≠ "" ∧
      (∀ c ∈ (columnLabel col.toNat).toList, 'A' ≤ c ∧ c ≤ 'Z') ∧
      labelValue (columnLabel col.toNat).toList = col.toNat + 1) ∧
    Function.Injective columnLabel ∧
    (∀ col col', List.Shortlex (· < ·) (columnLabel col).toList (columnLabel col').toList ↔
      col < col') ∧
    ∀ word : String, word ≠ "" → (∀ c ∈ word.toList, 'A' ≤ c ∧ c ≤ 'Z') →
      ∃ col, columnLabel col = word := by
  refine ⟨fun col hcol => ⟨appendLabel?_eq_some hcol, ?_, ?_, ?_⟩, ?_, ?_, ?_⟩
  · intro hempty
    have hnil := congrArg String.toList hempty
    rw [columnLabel, String.toList_ofList] at hnil
    exact labelLetters_succ_ne_nil col.toNat hnil
  · rw [columnLabel, String.toList_ofList]
    exact fun c hc => isUpper_iff.mp (isUpper_of_mem_labelLetters hc)
  · rw [columnLabel, String.toList_ofList, labelValue_labelLetters]
  · intro col col' h
    exact Nat.succ.inj (labelLetters_injective (String.ofList_injective h))
  · intro col col'
    rw [columnLabel, columnLabel, String.toList_ofList, String.toList_ofList,
      shortlex_labelLetters_iff, Nat.add_lt_add_iff_right]
  · intro word hword hletters
    have hlabel : labelLetters (labelValue word.toList) = word.toList :=
      labelLetters_labelValue fun c hc => isUpper_iff.mpr (hletters c hc)
    have hnumber : labelValue word.toList ≠ 0 := by
      intro hzero
      rw [hzero, labelLetters_zero] at hlabel
      exact hword (String.toList_injective hlabel.symm)
    obtain ⟨col, hcol⟩ := Nat.exists_eq_add_one_of_ne_zero hnumber
    rw [hcol] at hlabel
    exact ⟨col, by rw [columnLabel, hlabel, String.ofList_toList]⟩

/-- The labels around the first change from two letters to three, and the last one. -/
theorem labels_number_columns_three :
    (701 : UInt32).toNat < 2 ^ 32 - 1 ∧ appendLabel? 701 "$" = some ("$" ++ columnLabel 701) ∧
      List.Shortlex (· < ·) (columnLabel 701).toList (columnLabel 702).toList ∧
      (4294967294 : UInt32).toNat < 2 ^ 32 - 1 ∧
      labelValue (columnLabel 4294967294).toList = 4294967295 ∧
      ∃ col, columnLabel col = "AAA" := by
  obtain ⟨hwritten, -, horder, hwords⟩ := labels_number_columns
  have hlast : (4294967294 : UInt32).toNat < 2 ^ 32 - 1 := by decide
  exact ⟨by decide, (hwritten 701 (by decide)).1 "$", (horder 701 702).mpr (by decide), hlast,
    (hwritten 4294967294 hlast).2.2.2, hwords "AAA" (by decide) (by simp)⟩

example : (columnLabel 701, columnLabel 702) = ("ZZ", "AAA") := by cbv

end CellFormula.Text
