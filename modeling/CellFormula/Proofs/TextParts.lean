import CellFormula.Evaluation.Operation
import CellFormula.Proofs.ChosenChoice

/-!
# Parts of a text

A text is cut by three functions. One takes characters from the start and one from the end, and the
third begins at a place that is counted from one. What each of them gives is said here by characters
(`IsFirst`, `IsLast`, `IsFrom`), and the laws that tie them together are said with the operator that
puts texts together.

## Counts and places

A count is what `characterCount` makes of an operand, so it is no larger than the largest 32-bit
word. A count that is not given, or was left out, is one character (`givenCount`). The third
function has no such default, and a count that was left out is zero there. A place is the whole
number that its operand is cut to. It is looked up as a 64-bit word, and a larger one is the largest
word: that makes a difference only in a text of as many characters, and no memory holds one.

## Main definitions

* `Text.IsFirst`, `Text.IsLast`, `Text.IsFrom` — parts of a text
* `Worksheet.CountedBy`, `Worksheet.BeginsAt` — counts and places

## Main results

* `Text.firstChars_append_lastChars`, `Text.firstChars_append_charsFrom` — parts that make up a text
* `Worksheet.side_eq`, `Worksheet.middle_eq` — what the functions give
* `Worksheet.parts_make_up_text` — how they fit together
-/

namespace CellFormula

namespace Text

variable {s p : String} {k m n : Nat}

/-! ### Parts -/

/-- What the text begins with, of so many characters, or all of it if there are fewer. -/
structure IsFirst (n : Nat) (s p : String) : Prop where
  begins : p.toList <+: s.toList
  size : charCount p = min n (charCount s)

/-- What the text ends with, of so many characters, or all of it if there are fewer. -/
structure IsLast (n : Nat) (s p : String) : Prop where
  ends : p.toList <:+ s.toList
  size : charCount p = min n (charCount s)

/-- The characters behind the first `k`, `n` of them, or fewer if the text ends before. -/
def IsFrom (k n : Nat) (s p : String) : Prop :=
  ∀ i, p.toList[i]? = if i < n then s.toList[k + i]? else none

theorem isFirst_firstChars (n : Nat) (s : String) : IsFirst n s (firstChars n s) where
  begins := by
    rw [firstChars, String.toList_ofList]
    exact List.take_prefix n s.toList
  size := by rw [firstChars, charCount, String.toList_ofList, List.length_take, charCount]

theorem isLast_lastChars (n : Nat) (s : String) : IsLast n s (lastChars n s) where
  ends := by
    rw [lastChars, String.toList_ofList]
    exact List.drop_suffix _ s.toList
  size := by
    rw [lastChars, charCount, String.toList_ofList, List.length_drop, charCount]
    omega

theorem isFrom_charsFrom (k n : Nat) (s : String) : IsFrom k n s (charsFrom k n s) := by
  intro i
  rw [charsFrom, String.toList_ofList, List.getElem?_take]
  simp only [List.getElem?_drop]

/-- **A text is its first characters and its last ones**, if these are as many as it has. -/
theorem firstChars_append_lastChars (h : n + m = charCount s) :
    firstChars n s ++ lastChars m s = s := by
  refine String.toList_injective ?_
  rw [String.toList_append, firstChars, lastChars, String.toList_ofList, String.toList_ofList, ← h,
    Nat.add_sub_cancel]
  exact List.take_append_drop n s.toList

/-- **A text is its first characters and what comes behind them**, up to its end. -/
theorem firstChars_append_charsFrom (h : charCount s ≤ n + m) :
    firstChars n s ++ charsFrom n m s = s := by
  have hall : (s.toList.drop n).length ≤ m := by
    rw [List.length_drop]
    exact Nat.sub_le_iff_le_add'.mpr h
  refine String.toList_injective ?_
  rw [String.toList_append, firstChars, charsFrom, String.toList_ofList, String.toList_ofList,
    List.take_of_length_le hall]
  exact List.take_append_drop n s.toList

theorem charsFrom_zero (n : Nat) (s : String) : charsFrom 0 n s = firstChars n s := rfl

/-- Behind the end of a text there is nothing. -/
theorem charsFrom_of_le (h : charCount s ≤ k) (n : Nat) : charsFrom k n s = "" := by
  rw [charsFrom, List.drop_eq_nil_of_le h, List.take_nil]

end Text

namespace Number

theorem unpack_maxCount : Worksheet.maxCount.toModel.unpack
    = .finite .positive (4294967295 * 2 ^ 21) (-21) (by decide) := rfl

theorem rational?_maxCount : rational? Worksheet.maxCount = some 4294967295 := by
  rw [rational?, unpack_maxCount, rationalOf?, signed]
  norm_num

/-- No count is larger than the largest one. -/
theorem toNat_toUInt64_lesser_le (x : Float) :
    (lesser x Worksheet.maxCount).toUInt64.toNat ≤ 4294967295 := by
  have hmost : Worksheet.maxCount.toUInt64.toNat ≤ 4294967295 := by decide
  rw [lesser]
  split
  · exact hmost
  · next hnan =>
    split
    · exact hmost
    · next hle =>
      cases hq : rational? x with
      | some q =>
        rw [lt_iff_of_rational rational?_maxCount hq, not_lt] at hle
        rw [toNat_toUInt64_of_rational hq]
        exact (Nat.min_le_left _ _).trans (Nat.floor_le_of_le hle)
      | none =>
        obtain hnan' | ⟨-, sign, hinfinite⟩ := cases_of_rational_eq_none hq
        · exact absurd hnan' hnan
        · cases sign with
          | negative =>
            have hword : x.toUInt64 = x.toModel.unpack.toUInt64 := rfl
            rw [hword, hinfinite]
            decide
          | positive =>
            refine absurd ?_ hle
            rw [lt_iff_compare, unpack_maxCount, hinfinite]
            rfl

end Number

namespace Worksheet

open Number Text

variable {t : Value} {s : String} {counts : List Value} {k n : Nat}

/-! ### Counts and places -/

/-- The operand that a part is counted with. It is one if none is given, or if it was left out. -/
def givenCount (counts : List Value) : Value := (optionalArgument counts 0).getD (.number 1.0)

/-- The operands behind the text give this count. -/
def CountedBy (counts : List Value) (n : Nat) : Prop := characterCount (givenCount counts) = .ok n

/-- The operand gives this place. -/
def BeginsAt (start : Value) (place : Nat) : Prop :=
  ∃ x, start.toNumber = .ok x ∧ TruncatesTo x place

/-- **No count is larger than the largest 32-bit word.** -/
theorem le_of_characterCount {v : Value} (h : characterCount v = .ok n) : n ≤ 4294967295 := by
  rw [characterCount] at h
  cases hx : v.toNumber with
  | error kind =>
    rw [hx] at h
    cases h
  | ok x =>
    rw [hx] at h
    change (if truncate x < 0.0 then _ else _) = _ at h
    split at h
    · cases h
    · cases h
      exact toNat_toUInt64_lesser_le _

theorem not_isArea_of_toText (h : t.toText = .ok s) : ¬ t.IsArea := by
  cases t with
  | area block => cases h
  | _ => exact id

theorem not_isArea_of_toNumber {v : Value} {x : Float} (h : v.toNumber = .ok x) : ¬ v.IsArea := by
  cases v with
  | area block => cases h
  | _ => exact id

theorem exists_toNumber_of_characterCount {v : Value} (h : characterCount v = .ok n) :
    ∃ x, v.toNumber = .ok x := by
  cases hx : v.toNumber with
  | ok x => exact ⟨x, rfl⟩
  | error kind =>
    rw [characterCount, hx] at h
    cases h

/-! ### What the functions give -/

/-- **A part from a side of a text.** -/
theorem side_eq (cut : Nat → String → String) (ht : t.toText = .ok s) (hn : CountedBy counts n) :
    side cut (t :: counts) = .text (cut n s) := by
  obtain ⟨x, hx⟩ := exists_toNumber_of_characterCount hn
  have hplain : ∀ v ∈ [t, givenCount counts], ¬ v.IsArea :=
    List.forall_mem_cons.mpr
      ⟨not_isArea_of_toText ht, List.forall_mem_singleton.mpr (not_isArea_of_toNumber hx)⟩
  have hpart : partOf cut t (givenCount counts) = .ok (cut n s) := by
    rw [partOf, ht]
    exact congrArg (Except.map fun n => cut n s) hn
  have hcount : (optionalArgument (t :: counts) 1).getD (.number 1.0) = givenCount counts := rfl
  simp only [side, hcount]
  rw [broadcast_of_not_isArea hplain]
  exact congrArg (valueOrError .text) hpart

/-- A place, as a word that is looked up, is the place if it fits. -/
theorem toNat_toUInt64_of_truncatesTo {x : Float} {place : Nat} (h : TruncatesTo x place) :
    (truncate x).toUInt64.toNat = min place (UInt64.size - 1) := by
  obtain ⟨q, hq, -⟩ := id h
  obtain ⟨t, ht, -, hfloor⟩ := exists_rational?_truncate hq
  rw [toNat_toUInt64_of_rational ht, hfloor, h.eq_floor hq]

/-- A place that is not zero is not refused. -/
theorem one_le_truncate {x : Float} (h : TruncatesTo x (k + 1)) : 1.0 ≤ truncate x := by
  obtain ⟨q, hq, hlow, -⟩ := h
  obtain ⟨t, ht, hone, -⟩ := exists_rational?_truncate hq
  rw [le_iff_of_rational rational?_one ht, ← not_lt, hone, not_lt]
  calc (1 : ℚ) ≤ (k + 1 : Nat) := by exact_mod_cast Nat.succ_le_succ (Nat.zero_le k)
    _ ≤ q := hlow

/-- **A part from a place on**, if the place or the text is not larger than a word. -/
theorem middle_eq {start count : Value} (ht : t.toText = .ok s) (hstart : BeginsAt start (k + 1))
    (hn : characterCount count = .ok n)
    (hfits : k + 1 < UInt64.size ∨ charCount s + 1 < UInt64.size) :
    middle [t, start, count] = .text (charsFrom k n s) := by
  obtain ⟨x, hx, hplace⟩ := hstart
  obtain ⟨y, hy⟩ := exists_toNumber_of_characterCount hn
  have hplain : ∀ v ∈ [t, start, count], ¬ v.IsArea :=
    List.forall_mem_cons.mpr ⟨not_isArea_of_toText ht, List.forall_mem_cons.mpr
      ⟨not_isArea_of_toNumber hx, List.forall_mem_singleton.mpr (not_isArea_of_toNumber hy)⟩⟩
  have hsame : charsFrom ((truncate x).toUInt64.toNat - 1) n s = charsFrom k n s := by
    rw [toNat_toUInt64_of_truncatesTo hplace]
    by_cases hword : k + 1 < UInt64.size
    · congr 1
      omega
    · rw [charsFrom_of_le (by omega), charsFrom_of_le (by omega)]
  have hpart : middleOf t start count = .ok (charsFrom k n s) := by
    have hkept : ¬ (!decide (truncate x ≥ 1.0)) = true := by
      simpa using one_le_truncate hplace
    rw [middleOf, ht, hx, hn, ← hsame]
    exact if_neg hkept
  rw [middle, broadcast_of_not_isArea hplain]
  exact congrArg (valueOrError .text) hpart

/-! ### How they fit together -/

theorem length_eq (ht : t.toText = .ok s) :
    length [t] = .number (Number.ofCount (charCount s)) := by
  rw [length, liftText, liftFirst_of_not_isArea (not_isArea_of_toText ht), ht]
  rfl

/-- Texts that are put together by the operator. -/
theorem compute_concat (a b : String) :
    Operator.compute .concat [.text a, .text b] = .text (a ++ b) := rfl

/-- **The parts make up the text.** What is taken from the start and from the end are the first and
the last characters, as many as the count says or all that there are, and what is taken from a place
on are the characters from that place, as many as the count says or up to the end. So a text is its
start and its end, if their counts add up to its length; the part from the first place is the start;
and a text is its start and what comes from the place behind it, if the counts reach its end. -/
theorem parts_make_up_text (ht : t.toText = .ok s) :
    length [t] = .number (Number.ofCount (charCount s)) ∧
    (∀ counts n, CountedBy counts n →
      (∃ p, left (t :: counts) = .text p ∧ IsFirst n s p) ∧
      ∃ p, right (t :: counts) = .text p ∧ IsLast n s p) ∧
    (∀ start count k n, BeginsAt start (k + 1) → characterCount count = .ok n →
      k + 1 < UInt64.size ∨ charCount s + 1 < UInt64.size →
        ∃ p, middle [t, start, count] = .text p ∧ IsFrom k n s p) ∧
    (∀ counts counts' n m, CountedBy counts n → CountedBy counts' m → n + m = charCount s →
      Operator.compute .concat [left (t :: counts), right (t :: counts')] = .text s) ∧
    (∀ start count counts n, BeginsAt start 1 → characterCount count = .ok n →
      CountedBy counts n → middle [t, start, count] = left (t :: counts)) ∧
    ∀ start count counts n m, CountedBy counts n → BeginsAt start (n + 1) →
      characterCount count = .ok m → charCount s ≤ n + m →
        Operator.compute .concat [left (t :: counts), middle [t, start, count]] = .text s := by
  refine ⟨length_eq ht, fun counts n hn => ⟨?_, ?_⟩, fun start count k n hstart hn hfits => ?_,
    fun counts counts' n m hn hm hsum => ?_, fun start count counts n hstart hn hn' => ?_,
    fun start count counts n m hn hstart hm hsum => ?_⟩
  · exact ⟨_, side_eq firstChars ht hn, isFirst_firstChars n s⟩
  · exact ⟨_, side_eq lastChars ht hn, isLast_lastChars n s⟩
  · exact ⟨_, middle_eq ht hstart hn hfits, isFrom_charsFrom k n s⟩
  · rw [left, right, side_eq firstChars ht hn, side_eq lastChars ht hm, compute_concat,
      firstChars_append_lastChars hsum]
  · rw [left, side_eq firstChars ht hn', middle_eq ht hstart hn (.inl (by decide)), charsFrom_zero]
  · -- The place behind a count is looked up as it is, since no count is a larger word.
    have hfits : n + 1 < UInt64.size :=
      (Nat.succ_le_succ (le_of_characterCount hn)).trans_lt (by decide)
    rw [left, side_eq firstChars ht hn, middle_eq ht hstart hm (.inl hfits), compute_concat,
      firstChars_append_charsFrom hsum]

/-- One character by default, three by a count that is cut, the rest from a place that is cut. -/
theorem parts_make_up_text_accents :
    let t : Value := .text "añ€z"
    t.toText = .ok "añ€z" ∧ CountedBy [] 1 ∧ CountedBy [.number 3.75] 3 ∧
      BeginsAt (.number 2.75) 2 ∧ characterCount (.number 9.0) = .ok 9 ∧
      (∃ p, right [t, .number 3.75] = .text p ∧ IsLast 3 "añ€z" p) ∧
      (∃ p, middle [t, .number 2.75, .number 9.0] = .text p ∧ IsFrom 1 9 "añ€z" p) ∧
      Operator.compute .concat [left [t], right [t, .number 3.75]] = .text "añ€z" ∧
      Operator.compute .concat [left [t], middle [t, .number 2.75, .number 9.0]]
        = .text "añ€z" := by
  intro t
  have ht : t.toText = .ok "añ€z" := rfl
  have hone : CountedBy [] 1 := rfl
  have hthree : CountedBy [.number 3.75] 3 := rfl
  have hnine : characterCount (.number 9.0) = .ok 9 := rfl
  have hplace : BeginsAt (.number 2.75) 2 := by
    have hunpack : (2.75 : Float).toModel.unpack
        = .finite .positive (11 * 2 ^ 49) (-51) (by decide) := rfl
    have hrational : rational? 2.75 = some (11 / 4) := by
      rw [rational?, hunpack, rationalOf?, signed]
      norm_num
    exact ⟨2.75, rfl, 11 / 4, hrational, by norm_num, by norm_num⟩
  obtain ⟨-, hsides, hmiddle, hboth, -, hrest⟩ := parts_make_up_text ht
  exact ⟨ht, hone, hthree, hplace, hnine, (hsides _ 3 hthree).2,
    hmiddle _ _ 1 9 hplace hnine (.inl (by decide)), hboth _ _ 1 3 hone hthree (by decide),
    hrest _ _ _ 1 9 hone hplace hnine (by decide)⟩

end Worksheet

end CellFormula
