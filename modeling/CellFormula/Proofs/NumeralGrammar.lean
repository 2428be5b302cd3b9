import CellFormula.Proofs.AddressText
import CellFormula.Proofs.TextBytes
import CellFormula.Value.Coercion
import Mathlib.Data.List.TakeWhile

/-!
# Texts that spell a number

A text counts as a number if it spells one by the grammar of this module: white space, a numeral, a
percent sign with white space before it or none, and white space again. The grammar is written down
without a word about how a text is read, and the main theorem says that reading accepts what the
grammar derives and nothing else, with the number that belongs to the derivation.

No single step of reading is the grammar. White space and the percent sign are taken off first, then
a filter looks at bytes, and then a reader takes numerals and also names. The filter alone lets more
through than numerals, and the reader alone takes more than numerals. What both agree on is
numerals, because every name begins with a letter that the filter stops.

## The grammar

A numeral is a sign or none, then digits with at most one point among them, then an exponent or
none. An exponent is the letter e in either case, a sign or none, and digits. Digits may be missing
on one side of the point and nowhere else.

## Main definitions

* `SignText`, `MantissaText`, `ExponentText` — the parts of a numeral
* `Numeral.Spelled` — the characters that spell a numeral
* `NamedNumber` — the characters that name a number
* `NumberText` — the texts that spell a number

## Main results

* `Numeral.ofChars?_eq_some_iff` — a numeral is read from the characters that spell it
* `floatOfChars?_eq_some_iff` — the reader takes numerals and names
* `passesFilter_and_floatOfChars?_iff` — the filter leaves it the numerals
* `numberOfText?_eq_some_iff` — a number is read from the texts that spell it
* `toNumber_text_accepts` — reading accepts the grammar
-/

namespace CellFormula

namespace Number

/-! ### The grammar -/

/-- No character but digits. -/
def AllDigits (cs : List Char) : Prop := ∀ c ∈ cs, c.isDigit = true

/-- No character but white space. -/
def AllBlank (cs : List Char) : Prop := ∀ c ∈ cs, Text.isBlank c = true

/-- A sign or none, and whether it is a minus. -/
inductive SignText : Bool → List Char → Prop
  | absent : SignText false []
  | plus : SignText false ['+']
  | minus : SignText true ['-']

/-- The digits of a numeral: those of the whole part, those behind the point, and all characters. -/
inductive MantissaText : List Char → List Char → List Char → Prop
  | whole {digits : List Char} (hdigits : AllDigits digits) (hsome : digits ≠ []) :
    MantissaText digits [] digits
  | point {digits places : List Char} (hdigits : AllDigits digits) (hplaces : AllDigits places)
    (hsome : digits ++ places ≠ []) : MantissaText digits places (digits ++ '.' :: places)

/-- An exponent or none, and its number. -/
inductive ExponentText : Int → List Char → Prop
  | absent : ExponentText 0 []
  | present {letter : Char} {negative : Bool} {sign digits : List Char}
    (hletter : letter = 'e' ∨ letter = 'E') (hsign : SignText negative sign)
    (hdigits : AllDigits digits) (hsome : digits ≠ []) :
    ExponentText (if negative then -(digitsValue digits : Int) else digitsValue digits)
      (letter :: (sign ++ digits))

/-- The characters spell the numeral. -/
inductive Numeral.Spelled : Numeral → List Char → Prop
  | parts {negative : Bool} {sign whole places mantissa tail : List Char} {exponent : Int}
    (hsign : SignText negative sign) (hmantissa : MantissaText whole places mantissa)
    (hexponent : ExponentText exponent tail) :
    Spelled ⟨negative, ⟨digitsValue (whole ++ places), exponent - places.length⟩⟩
      (sign ++ (mantissa ++ tail))

/-- The text spells the number that a numeral gives with a percent sign behind it or without one. -/
inductive NumberText : Numeral → Bool → List Char → Prop
  | plain {n : Numeral} {before body after : List Char} (hbefore : AllBlank before)
    (hbody : n.Spelled body) (hafter : AllBlank after) :
    NumberText n false (before ++ (body ++ after))
  | percent {n : Numeral} {before body between after : List Char} (hbefore : AllBlank before)
    (hbody : n.Spelled body) (hbetween : AllBlank between) (hafter : AllBlank after) :
    NumberText n true (before ++ (body ++ (between ++ '%' :: after)))

/-! ### Numerals -/

/-- Whether a character can stand in a numeral. -/
def isNumeralChar (c : Char) : Bool := c.isDigit || c ∈ ['.', 'e', 'E', '+', '-']

theorem SignText.isNumeralChar {negative : Bool} {sign : List Char} (h : SignText negative sign) :
    ∀ c ∈ sign, isNumeralChar c = true := by
  cases h <;> simp [Number.isNumeralChar]

theorem AllDigits.isNumeralChar {digits : List Char} (h : AllDigits digits) :
    ∀ c ∈ digits, isNumeralChar c = true := fun c hc => by
  simp [Number.isNumeralChar, h c hc]

theorem MantissaText.isNumeralChar {whole places mantissa : List Char}
    (h : MantissaText whole places mantissa) : ∀ c ∈ mantissa, isNumeralChar c = true := by
  cases h with
  | whole hdigits => exact hdigits.isNumeralChar
  | point hdigits hplaces =>
    exact List.forall_mem_append.mpr
      ⟨hdigits.isNumeralChar, List.forall_mem_cons.mpr ⟨rfl, hplaces.isNumeralChar⟩⟩

theorem ExponentText.isNumeralChar {exponent : Int} {tail : List Char}
    (h : ExponentText exponent tail) : ∀ c ∈ tail, isNumeralChar c = true := by
  cases h with
  | absent => nofun
  | present hletter hsign hdigits =>
    refine List.forall_mem_cons.mpr
      ⟨?_, List.forall_mem_append.mpr ⟨hsign.isNumeralChar, hdigits.isNumeralChar⟩⟩
    rcases hletter with rfl | rfl <;> rfl

theorem Numeral.Spelled.isNumeralChar {n : Numeral} {cs : List Char} (h : n.Spelled cs) :
    ∀ c ∈ cs, isNumeralChar c = true := by
  obtain ⟨hsign, hmantissa, hexponent⟩ := h
  exact List.forall_mem_append.mpr ⟨hsign.isNumeralChar,
    List.forall_mem_append.mpr ⟨hmantissa.isNumeralChar, hexponent.isNumeralChar⟩⟩

/-! ### Reading a numeral -/

theorem ne_sign_of_isDigit {c : Char} (h : c.isDigit = true) : c ≠ '-' ∧ c ≠ '+' := by
  constructor <;> rintro rfl <;> cases h

theorem exists_signText (cs : List Char) :
    ∃ sign, SignText (takeSign cs).1 sign ∧ cs = sign ++ (takeSign cs).2 := by
  unfold takeSign
  split
  · exact ⟨_, .minus, rfl⟩
  · exact ⟨_, .plus, rfl⟩
  · exact ⟨_, .absent, rfl⟩

/-- A sign is read off if what follows it is no sign. -/
theorem SignText.takeSign_append {negative : Bool} {sign rest : List Char}
    (h : SignText negative sign) (hrest : ∀ c ∈ rest.head?, c ≠ '-' ∧ c ≠ '+') :
    takeSign (sign ++ rest) = (negative, rest) := by
  cases h with
  | plus | minus => rfl
  | absent =>
    rw [List.nil_append]
    unfold takeSign
    split
    · exact absurd rfl (hrest '-' rfl).1
    · exact absurd rfl (hrest '+' rfl).2
    · rfl

theorem exponentOf?_eq_some_iff {exponent : Int} {tail : List Char} :
    exponentOf? tail = some exponent ↔ ExponentText exponent tail := by
  constructor
  · intro h
    cases tail with
    | nil =>
      cases h
      exact .absent
    | cons letter cs =>
      rw [exponentOf?] at h
      split at h
      · next hletter =>
        obtain ⟨sign, hsign, hcs⟩ := exists_signText cs
        dsimp only at h
        split at h
        · cases h
        · next hdigits =>
          simp only [Bool.or_eq_true, List.isEmpty_iff, Bool.not_eq_true', not_or,
            Bool.not_eq_false, List.all_eq_true] at hdigits
          rw [← apply_ite some, Option.some.injEq] at h
          rw [hcs, ← h]
          exact .present hletter hsign hdigits.2 hdigits.1
      · cases h
  · intro h
    cases h with
    | absent => rfl
    | @present letter negative sign digits hletter hsign hdigits hsome =>
      have hhead : ∀ c ∈ digits.head?, c ≠ '-' ∧ c ≠ '+' := fun c hc =>
        ne_sign_of_isDigit (hdigits c (List.mem_of_mem_head? hc))
      rw [exponentOf?, if_pos hletter, hsign.takeSign_append hhead]
      simp only
      rw [if_neg, ← apply_ite some]
      simp [hsome, List.all_eq_true.mpr hdigits]

/-- The digits behind a point are read off if no digit follows them. -/
theorem MantissaText.takePlaces_append {whole places mantissa tail : List Char}
    (h : MantissaText whole places mantissa)
    (htail : ∀ c ∈ tail.head?, c ≠ '.' ∧ c.isDigit = false) :
    (mantissa ++ tail).takeWhile Char.isDigit = whole ∧
      takePlaces ((mantissa ++ tail).dropWhile Char.isDigit) = (places, tail) := by
  have hstops : ∀ c ∈ tail.head?, c.isDigit = false := fun c hc => (htail c hc).2
  cases h with
  | whole hdigits =>
    rw [takeWhile_append_of_stops hdigits hstops, dropWhile_append_of_stops hdigits hstops]
    refine ⟨rfl, ?_⟩
    unfold takePlaces
    split
    · exact absurd rfl (htail '.' rfl).1
    · rfl
  | point hdigits hplaces =>
    have hpoint : ∀ c ∈ ('.' :: (places ++ tail)).head?, c.isDigit = false := by
      rintro c ⟨⟩
      rfl
    rw [List.append_assoc, List.cons_append, takeWhile_append_of_stops hdigits hpoint,
      dropWhile_append_of_stops hdigits hpoint, takePlaces,
      takeWhile_append_of_stops hplaces hstops, dropWhile_append_of_stops hplaces hstops]
    exact ⟨rfl, rfl⟩

theorem exists_mantissaText (cs : List Char)
    (hsome : cs.takeWhile Char.isDigit ++ (takePlaces (cs.dropWhile Char.isDigit)).1 ≠ []) :
    ∃ mantissa, MantissaText (cs.takeWhile Char.isDigit) (takePlaces (cs.dropWhile Char.isDigit)).1
        mantissa ∧ cs = mantissa ++ (takePlaces (cs.dropWhile Char.isDigit)).2 := by
  have hdigits : AllDigits (cs.takeWhile Char.isDigit) := fun c hc => List.mem_takeWhile_imp hc
  have hsplit := List.takeWhile_append_dropWhile (p := Char.isDigit) (l := cs)
  unfold takePlaces at hsome ⊢
  split at hsome
  · next places hpoint =>
    rw [hpoint] at hsplit
    refine ⟨_, .point hdigits (fun c hc => List.mem_takeWhile_imp hc) hsome, ?_⟩
    rw [List.append_assoc, List.cons_append, List.takeWhile_append_dropWhile, hsplit]
  · rw [List.append_nil] at hsome
    exact ⟨_, .whole hdigits hsome, hsplit.symm⟩

theorem MantissaText.digits_ne_nil {whole places mantissa : List Char}
    (h : MantissaText whole places mantissa) : whole ++ places ≠ [] := by
  cases h with
  | whole _ hsome => rwa [List.append_nil]
  | point _ _ hsome => exact hsome

/-- No mantissa begins with a sign. -/
theorem MantissaText.head_append {whole places mantissa : List Char}
    (h : MantissaText whole places mantissa) (tail : List Char) :
    ∀ c ∈ (mantissa ++ tail).head?, c ≠ '-' ∧ c ≠ '+' := by
  cases h with
  | whole hdigits hsome =>
    obtain ⟨d, digits, rfl⟩ := List.exists_cons_of_ne_nil hsome
    rintro c ⟨⟩
    exact ne_sign_of_isDigit (hdigits _ (List.mem_cons_self ..))
  | point hdigits =>
    cases whole with
    | nil =>
      rintro c ⟨⟩
      decide
    | cons d digits =>
      rintro c ⟨⟩
      exact ne_sign_of_isDigit (hdigits _ (List.mem_cons_self ..))

theorem ExponentText.head {exponent : Int} {tail : List Char} (h : ExponentText exponent tail) :
    ∀ c ∈ tail.head?, c ≠ '.' ∧ c.isDigit = false := by
  cases h with
  | absent => nofun
  | present hletter =>
    rintro c ⟨⟩
    rcases hletter with rfl | rfl <;> decide

/-- **A numeral is read from the characters that spell it**, and from no others. -/
theorem Numeral.ofChars?_eq_some_iff {n : Numeral} {cs : List Char} :
    Numeral.ofChars? cs = some n ↔ n.Spelled cs := by
  constructor
  · intro h
    obtain ⟨sign, hsign, hcs⟩ := exists_signText cs
    rw [ofChars?] at h
    dsimp only at h
    split at h
    · cases h
    · next hsome =>
      obtain ⟨exponent, hexponent, rfl⟩ := Option.map_eq_some_iff.mp h
      have hdigits : (takeSign cs).2.takeWhile Char.isDigit
          ++ (takePlaces ((takeSign cs).2.dropWhile Char.isDigit)).1 ≠ [] := by
        simpa [-List.takeWhile_eq_nil_iff] using hsome
      obtain ⟨mantissa, hmantissa, hunsigned⟩ := exists_mantissaText _ hdigits
      have hspelled := Spelled.parts hsign hmantissa (exponentOf?_eq_some_iff.mp hexponent)
      rwa [← hunsigned, ← hcs] at hspelled
  · rintro ⟨hsign, hmantissa, hexponent⟩
    obtain ⟨hwhole, hplaces⟩ := hmantissa.takePlaces_append hexponent.head
    rw [ofChars?, hsign.takeSign_append (hmantissa.head_append _)]
    dsimp only
    rw [hwhole, hplaces]
    dsimp only
    rw [exponentOf?_eq_some_iff.mpr hexponent, Option.map_some, if_neg]
    simpa using hmantissa.digits_ne_nil

/-! ### Numbers that have a name -/

/-- The characters are the name of a number, in capital letters or small ones, with a sign in front
or without one. -/
inductive NamedNumber : Float → List Char → Prop
  | parts {negative : Bool} {sign name : List Char} {x : Float} (hsign : SignText negative sign)
    (hname : (String.ofList (Text.asciiCapital name), x) ∈ numberNames) :
    NamedNumber (if negative then -x else x) (sign ++ name)

theorem seesAscii_isDigitByte : Text.SeesAscii isDigitByte Char.isDigit where
  ascii := by decide
  byte b hb := by
    have hlow := UInt8.le_iff_toNat_le.mp hb
    refine Bool.and_eq_false_iff.mpr (.inr (decide_eq_false fun hdigit => ?_))
    exact absurd (Nat.le_trans hlow (UInt8.le_iff_toNat_le.mp hdigit)) (by decide)
  char c hc := by
    refine Bool.and_eq_false_iff.mpr (.inr (decide_eq_false fun hdigit => ?_))
    exact absurd (Nat.le_trans hc (UInt32.le_iff_toNat_le.mp hdigit)) (by decide)

theorem seesAscii_isNumeralByte : Text.SeesAscii isNumeralByte isNumeralChar where
  ascii := by decide
  byte b hb := by
    have hmarks : ['.'.toUInt8, 'e'.toUInt8, 'E'.toUInt8, '+'.toUInt8, '-'.toUInt8].all
        (fun d => d.toNat < 0x80) = true := rfl
    refine Bool.or_eq_false_iff.mpr
      ⟨seesAscii_isDigitByte.byte b hb, decide_eq_false fun hmem => ?_⟩
    have hmark : b.toNat < 0x80 := of_decide_eq_true (List.all_eq_true.mp hmarks b hmem)
    exact absurd hmark (Nat.not_lt.mpr (UInt8.le_iff_toNat_le.mp hb))
  char c hc := by
    have hmarks : ['.', 'e', 'E', '+', '-'].all (fun d => d.toNat < 0x80) = true := rfl
    refine Bool.or_eq_false_iff.mpr
      ⟨seesAscii_isDigitByte.char c hc, decide_eq_false fun hmem => ?_⟩
    have hmark : c.toNat < 0x80 := of_decide_eq_true (List.all_eq_true.mp hmarks c hmem)
    exact absurd hmark (Nat.not_lt.mpr hc)

/-- The first letters of the names stand in no numeral. -/
theorem isNumeralChar_eq_false {c : Char} (h : c.toUpper = 'I' ∨ c.toUpper = 'N') :
    isNumeralChar c = false := by
  have hall : ∀ code : Fin 0x80, (Char.ofNat code).toUpper = 'I' ∨ (Char.ofNat code).toUpper = 'N' →
      isNumeralChar (Char.ofNat code) = false := by decide
  by_cases hc : c.toNat < 0x80
  · have hcode := hall ⟨c.toNat, hc⟩
    simp only [Char.ofNat_toNat] at hcode
    exact hcode h
  · exact seesAscii_isNumeralByte.char c (Nat.not_lt.mp hc)

/-- A name begins with one of these letters. -/
theorem exists_cons_of_mem_numberNames {name : List Char} {x : Float}
    (h : (String.ofList (Text.asciiCapital name), x) ∈ numberNames) :
    ∃ c cs, name = c :: cs ∧ isNumeralChar c = false := by
  have hfirst : ∀ entry ∈ numberNames, entry.1.toList.head? = some 'I' ∨
      entry.1.toList.head? = some 'N' := by decide
  have hname := hfirst _ h
  rw [String.toList_ofList] at hname
  cases name with
  | nil => rcases hname with hname | hname <;> cases hname
  | cons c cs =>
    refine ⟨c, cs, rfl, isNumeralChar_eq_false ?_⟩
    exact hname.imp Option.some.inj Option.some.inj

theorem NamedNumber.exists_not_isNumeralChar {x : Float} {cs : List Char} (h : NamedNumber x cs) :
    ∃ c ∈ cs, isNumeralChar c = false := by
  obtain ⟨-, hname⟩ := h
  obtain ⟨c, cs, rfl, hc⟩ := exists_cons_of_mem_numberNames hname
  exact ⟨c, by simp, hc⟩

/-- No name is a numeral. -/
theorem NamedNumber.not_spelled {x : Float} {cs : List Char} (h : NamedNumber x cs) (n : Numeral) :
    ¬ n.Spelled cs := by
  intro hspelled
  obtain ⟨c, hc, hletter⟩ := h.exists_not_isNumeralChar
  exact Bool.false_ne_true (hletter.symm.trans (hspelled.isNumeralChar c hc))

theorem namedNumber?_eq_some_iff {name : List Char} {x : Float} :
    namedNumber? name = some x ↔
      (String.ofList (Text.asciiCapital name), x) ∈ numberNames := by
  constructor
  · intro h
    obtain ⟨before, after, hnames, -⟩ := List.lookup_eq_some_iff.mp h
    rw [hnames]
    exact List.mem_append_right _ List.mem_cons_self
  · intro h
    rw [namedNumber?]
    simp only [numberNames, List.mem_cons, List.not_mem_nil, or_false, Prod.mk.injEq] at h
    rcases h with ⟨hname, rfl⟩ | ⟨hname, rfl⟩ | ⟨hname, rfl⟩ <;> rw [hname] <;> rfl

/-- **The reader takes numerals and names**, and nothing else. -/
theorem floatOfChars?_eq_some_iff {cs : List Char} {x : Float} :
    floatOfChars? cs = some x ↔
      (∃ n : Numeral, n.Spelled cs ∧ n.toFloat = x) ∨ NamedNumber x cs := by
  rw [floatOfChars?]
  split
  · next n hn =>
    have hspelled := Numeral.ofChars?_eq_some_iff.mp hn
    constructor
    · rintro ⟨⟩
      exact .inl ⟨n, hspelled, rfl⟩
    · rintro (⟨n', hspelled', rfl⟩ | hnamed)
      · rw [← Numeral.ofChars?_eq_some_iff, hn, Option.some.injEq] at hspelled'
        rw [hspelled']
      · exact absurd hspelled (hnamed.not_spelled n)
  · next hnone =>
    have hnot (n : Numeral) : ¬ n.Spelled cs := fun hspelled => by
      rw [← Numeral.ofChars?_eq_some_iff, hnone] at hspelled
      cases hspelled
    simp only [hnot, false_and, exists_false, false_or, Option.map_eq_some_iff,
      namedNumber?_eq_some_iff]
    constructor
    · rintro ⟨y, hname, rfl⟩
      obtain ⟨sign, hsign, hcs⟩ := exists_signText cs
      have hnamed := NamedNumber.parts hsign hname
      rwa [← hcs] at hnamed
    · rintro ⟨hsign, hname⟩
      obtain ⟨c, rest, rfl, hc⟩ := exists_cons_of_mem_numberNames hname
      have hhead : ∀ d ∈ (c :: rest).head?, d ≠ '-' ∧ d ≠ '+' := by
        rintro d ⟨⟩
        constructor <;> rintro rfl <;> cases hc
      rw [hsign.takeSign_append hhead]
      exact ⟨_, hname, rfl⟩

/-! ### The filter -/

theorem MantissaText.exists_isDigit {whole places mantissa : List Char}
    (h : MantissaText whole places mantissa) : ∃ c ∈ mantissa, c.isDigit = true := by
  cases h with
  | whole hdigits hsome =>
    obtain ⟨c, hc⟩ := List.exists_mem_of_ne_nil _ hsome
    exact ⟨c, hc, hdigits c hc⟩
  | point hdigits hplaces hsome =>
    obtain ⟨c, hc⟩ := List.exists_mem_of_ne_nil _ hsome
    obtain hc | hc := List.mem_append.mp hc
    · exact ⟨c, List.mem_append_left _ hc, hdigits c hc⟩
    · exact ⟨c, List.mem_append_right _ (List.mem_cons_of_mem _ hc), hplaces c hc⟩

theorem Numeral.Spelled.exists_isDigit {n : Numeral} {cs : List Char} (h : n.Spelled cs) :
    ∃ c ∈ cs, c.isDigit = true := by
  obtain ⟨-, hmantissa, -⟩ := h
  obtain ⟨c, hc, hdigit⟩ := hmantissa.exists_isDigit
  exact ⟨c, List.mem_append_right _ (List.mem_append_left _ hc), hdigit⟩

/-- A text passes the filter if its characters may stand in a numeral and one is a digit. -/
theorem passesFilter_iff {cs : List Char} :
    passesFilter (cs.flatMap String.utf8EncodeChar) = true ↔
      (∀ c ∈ cs, isNumeralChar c = true) ∧ ∃ c ∈ cs, c.isDigit = true := by
  rw [passesFilter, seesAscii_isNumeralByte.all_encoded_eq, seesAscii_isDigitByte.any_encoded_eq,
    Bool.and_eq_true, Bool.and_eq_true, List.all_eq_true, List.any_eq_true, and_assoc]
  refine and_iff_right_of_imp fun ⟨_, c, hc, _⟩ => ?_
  -- A text with a digit has bytes.
  rw [Bool.not_eq_true', List.isEmpty_eq_false_iff]
  exact fun hnil => String.utf8EncodeChar_ne_nil (List.flatMap_eq_nil_iff.mp hnil c hc)

/-- **The filter and the reader** together take numerals and nothing else: the filter lets every
numeral through and no name. -/
theorem passesFilter_and_floatOfChars?_iff {cs : List Char} {x : Float} :
    passesFilter (cs.flatMap String.utf8EncodeChar) = true ∧ floatOfChars? cs = some x ↔
      ∃ n : Numeral, n.Spelled cs ∧ n.toFloat = x := by
  rw [passesFilter_iff, floatOfChars?_eq_some_iff]
  constructor
  · rintro ⟨⟨hchars, -⟩, hspelled | hnamed⟩
    · exact hspelled
    · obtain ⟨c, hc, hletter⟩ := hnamed.exists_not_isNumeralChar
      exact absurd (hletter.symm.trans (hchars c hc)) Bool.false_ne_true
  · rintro ⟨n, hspelled, hx⟩
    exact ⟨⟨hspelled.isNumeralChar, hspelled.exists_isDigit⟩, .inl ⟨n, hspelled, hx⟩⟩

/-! ### White space and the percent sign -/

theorem isBlank_of_isNumeralChar {c : Char} (h : isNumeralChar c = true) :
    Text.isBlank c = false := by
  rw [isNumeralChar, Bool.or_eq_true, decide_eq_true_eq] at h
  obtain hdigit | hmark := h
  · have hdigits : ∀ code < 58, 48 ≤ code → Text.inRanges Text.blankRanges code = false := by
      decide
    simp only [Char.isDigit, Bool.and_eq_true, decide_eq_true_eq] at hdigit
    exact hdigits c.toNat (Nat.lt_succ_of_le (UInt32.le_iff_toNat_le.mp hdigit.2))
      (UInt32.le_iff_toNat_le.mp hdigit.1)
  · simp only [List.mem_cons, List.not_mem_nil, or_false] at hmark
    rcases hmark with rfl | rfl | rfl | rfl | rfl <;> rfl

theorem exists_trimStart (cs : List Char) :
    ∃ before, AllBlank before ∧ cs = before ++ Text.trimStart cs :=
  ⟨cs.takeWhile Text.isBlank, fun _ hc => List.mem_takeWhile_imp hc,
    List.takeWhile_append_dropWhile.symm⟩

theorem exists_trimEnd (cs : List Char) :
    ∃ after, AllBlank after ∧ cs = Text.trimEnd cs ++ after := by
  obtain ⟨blanks, hblanks, hcs⟩ := exists_trimStart cs.reverse
  refine ⟨blanks.reverse, fun c hc => hblanks c (List.mem_reverse.mp hc), ?_⟩
  calc cs = (blanks ++ Text.trimStart cs.reverse).reverse := by rw [← hcs, List.reverse_reverse]
    _ = Text.trimEnd cs ++ blanks.reverse := List.reverse_append

theorem trimEnd_append {cs after : List Char} (hafter : AllBlank after)
    (hlast : ∀ c ∈ cs.getLast?, Text.isBlank c = false) : Text.trimEnd (cs ++ after) = cs := by
  have hblanks : AllBlank after.reverse := fun c hc => hafter c (List.mem_reverse.mp hc)
  rw [Text.trimEnd, List.reverse_append, dropWhile_append_of_stops hblanks, List.reverse_reverse]
  rwa [List.head?_reverse]

/-- White space around what neither begins nor ends with white space is cut off. -/
theorem trim_append {before cs after : List Char} (hbefore : AllBlank before)
    (hafter : AllBlank after) (hsome : cs ≠ []) (hfirst : ∀ c ∈ cs.head?, Text.isBlank c = false)
    (hlast : ∀ c ∈ cs.getLast?, Text.isBlank c = false) :
    Text.trim (before ++ (cs ++ after)) = cs := by
  rw [Text.trim, Text.trimStart, dropWhile_append_of_stops hbefore, trimEnd_append hafter hlast]
  rwa [List.head?_append_of_ne_nil _ hsome]

/-- What a percent sign behind a numeral multiplies it with, and one without the sign. -/
def percentFactor (percent : Bool) : Float := if percent then 0.01 else 1.0

theorem takePercent_cases (cs : List Char) :
    (∃ before, cs = before ++ ['%'] ∧
        takePercent cs = (Text.trimEnd before, percentFactor true)) ∨
      takePercent cs = (cs, percentFactor false) := by
  unfold takePercent
  split
  · next before hcs =>
    refine .inl ⟨before.reverse, ?_, rfl⟩
    rw [← List.reverse_reverse cs, hcs, List.reverse_cons]
  · exact .inr rfl

theorem takePercent_concat (cs : List Char) :
    takePercent (cs ++ ['%']) = (Text.trimEnd cs, percentFactor true) := by
  rw [takePercent, List.reverse_append]
  simp [percentFactor]

theorem takePercent_of_ne {cs : List Char} (hlast : ∀ c ∈ cs.getLast?, c ≠ '%') :
    takePercent cs = (cs, percentFactor false) := by
  obtain ⟨before, rfl, -⟩ | hcs := takePercent_cases cs
  · exact absurd rfl (hlast '%' (by simp))
  · exact hcs

/-! ### Texts -/

theorem Numeral.Spelled.ne_nil {n : Numeral} {cs : List Char} (h : n.Spelled cs) : cs ≠ [] := by
  obtain ⟨hsign, hmantissa, hexponent⟩ := h
  cases hmantissa with
  | whole hdigits hsome => simp [hsome]
  | point => simp

theorem Numeral.Spelled.isBlank_eq_false {n : Numeral} {cs : List Char} (h : n.Spelled cs)
    {c : Char} (hc : c ∈ cs) : Text.isBlank c = false :=
  isBlank_of_isNumeralChar (h.isNumeralChar c hc)

/-- What is left when white space and a percent sign are taken off is the numeral. -/
theorem NumberText.exists_taken {n : Numeral} {percent : Bool} {cs : List Char}
    (h : NumberText n percent cs) :
    ∃ body, n.Spelled body ∧ takePercent (Text.trim cs) = (body, percentFactor percent) := by
  cases h with
  | @plain before body after hbefore hbody hafter =>
    refine ⟨body, hbody, ?_⟩
    rw [trim_append hbefore hafter hbody.ne_nil
      (fun c hc => hbody.isBlank_eq_false (List.mem_of_mem_head? hc))
      (fun c hc => hbody.isBlank_eq_false (List.mem_of_mem_getLast? hc))]
    refine takePercent_of_ne fun c hc => ?_
    rintro rfl
    cases hbody.isNumeralChar '%' (List.mem_of_mem_getLast? hc)
  | @percent before body between after hbefore hbody hbetween hafter =>
    refine ⟨body, hbody, ?_⟩
    have hmarked : body ++ (between ++ '%' :: after) = (body ++ between) ++ ['%'] ++ after := by
      simp
    rw [hmarked, trim_append hbefore hafter (by simp), takePercent_concat,
      trimEnd_append hbetween fun c hc => hbody.isBlank_eq_false (List.mem_of_mem_getLast? hc)]
    · intro c hc
      rw [List.append_assoc, List.head?_append_of_ne_nil _ hbody.ne_nil] at hc
      exact hbody.isBlank_eq_false (List.mem_of_mem_head? hc)
    · intro c hc
      rw [List.getLast?_concat] at hc
      cases hc
      decide

/-- Taking off white space and a percent sign leaves nothing behind that is not in the grammar. -/
theorem exists_numberText {n : Numeral} {cs : List Char}
    (h : n.Spelled (takePercent (Text.trim cs)).1) :
    ∃ percent, NumberText n percent cs ∧
      (takePercent (Text.trim cs)).2 = percentFactor percent := by
  obtain ⟨before, hbefore, hstart⟩ := exists_trimStart cs
  obtain ⟨after, hafter, hend⟩ := exists_trimEnd (Text.trimStart cs)
  have htext : cs = before ++ (Text.trim cs ++ after) := by
    rw [hend] at hstart
    exact hstart
  obtain ⟨marked, hmarked, htaken⟩ | htaken := takePercent_cases (Text.trim cs)
  · obtain ⟨between, hbetween, hbody⟩ := exists_trimEnd marked
    rw [htaken] at h ⊢
    refine ⟨true, ?_, rfl⟩
    have hpieces : Text.trim cs ++ after = Text.trimEnd marked ++ (between ++ '%' :: after) := by
      calc Text.trim cs ++ after = Text.trimEnd marked ++ between ++ ['%'] ++ after := by
            rw [← hbody, hmarked]
        _ = Text.trimEnd marked ++ (between ++ '%' :: after) := by simp
    rw [htext, hpieces]
    exact .percent hbefore h hbetween hafter
  · rw [htaken] at h ⊢
    refine ⟨false, ?_, rfl⟩
    rw [htext]
    exact .plain hbefore h hafter

/-- **A number is read from the texts that spell it**, and from no others. -/
theorem numberOfText?_eq_some_iff {s : String} {x : Float} :
    numberOfText? s = some x ↔
      ∃ n percent, NumberText n percent s.toList ∧ n.toFloat * percentFactor percent = x := by
  have hread : numberOfText? s = some x ↔
      ∃ n : Numeral, n.Spelled (takePercent (Text.trim s.toList)).1 ∧
        n.toFloat * (takePercent (Text.trim s.toList)).2 = x := by
    rw [numberOfText?, Option.ite_none_right_eq_some, Option.map_eq_some_iff]
    constructor
    · rintro ⟨hpasses, y, hy, rfl⟩
      obtain ⟨n, hspelled, rfl⟩ := passesFilter_and_floatOfChars?_iff.mp ⟨hpasses, hy⟩
      exact ⟨n, hspelled, rfl⟩
    · rintro ⟨n, hspelled, rfl⟩
      obtain ⟨hpasses, hy⟩ := passesFilter_and_floatOfChars?_iff.mpr ⟨n, hspelled, rfl⟩
      exact ⟨hpasses, n.toFloat, hy, rfl⟩
  rw [hread]
  constructor
  · rintro ⟨n, hn, rfl⟩
    obtain ⟨percent, htext, hfactor⟩ := exists_numberText hn
    exact ⟨n, percent, htext, by rw [hfactor]⟩
  · rintro ⟨n, percent, htext, rfl⟩
    obtain ⟨body, hbody, htaken⟩ := htext.exists_taken
    rw [htaken]
    exact ⟨n, hbody, rfl⟩

/-! ### What the grammar rules out -/

/-- A place in two lists one after the other lies in the first or in the second. -/
theorem append_cons_cases {α : Type} {us vs xs ys : List α} {a : α}
    (h : us ++ a :: vs = xs ++ ys) :
    (∃ ws, xs = us ++ a :: ws ∧ vs = ws ++ ys) ∨ ∃ ws, us = xs ++ ws ∧ ys = ws ++ a :: vs := by
  obtain ⟨ws, hxs, hvs⟩ | ⟨ws, hus, hys⟩ := List.append_eq_append_iff.mp h
  · cases ws with
    | nil => exact .inr ⟨[], by simp_all, by simpa using hvs.symm⟩
    | cons b ws =>
      obtain ⟨rfl, rfl⟩ := List.cons.inj hvs
      exact .inl ⟨ws, hxs, rfl⟩
  · exact .inr ⟨ws, hus, hys⟩

/-- What may follow a numeral: white space, and a percent sign in it or none. -/
def IsEnding (cs : List Char) : Prop :=
  AllBlank cs ∨ ∃ between after, cs = between ++ '%' :: after ∧ AllBlank between ∧ AllBlank after

/-- The characters of a text stand where they may in a number: none but those of numerals, the
percent sign and white space occurs, there is at most one percent sign, white space stands in front
or in what may follow a numeral, and signs stand in front or right behind the letter e. -/
structure WellPlaced (cs : List Char) : Prop where
  chars : ∀ c ∈ cs, isNumeralChar c = true ∨ c = '%' ∨ Text.isBlank c = true
  percents : cs.count '%' ≤ 1
  blanks : ∀ us c vs, cs = us ++ c :: vs → Text.isBlank c = true → AllBlank us ∨ IsEnding vs
  signs : ∀ us c vs, cs = us ++ c :: vs → c = '+' ∨ c = '-' →
    AllBlank us ∨ ∃ ws e, us = ws ++ [e] ∧ (e = 'e' ∨ e = 'E')

/-- Nothing stands in front of the sign where a sign may stand. -/
theorem SignText.eq_nil_of_append {negative : Bool} {us vs : List Char} {c : Char}
    (h : SignText negative (us ++ c :: vs)) : us = [] := by
  generalize hcs : us ++ c :: vs = cs at h
  cases us with
  | nil => rfl
  | cons d us => cases h <;> simp at hcs

theorem MantissaText.not_sign {whole places mantissa : List Char}
    (h : MantissaText whole places mantissa) : ∀ c ∈ mantissa, c ≠ '-' ∧ c ≠ '+' := by
  cases h with
  | whole hdigits => exact fun c hc => ne_sign_of_isDigit (hdigits c hc)
  | point hdigits hplaces =>
    exact List.forall_mem_append.mpr ⟨fun c hc => ne_sign_of_isDigit (hdigits c hc),
      List.forall_mem_cons.mpr ⟨by decide, fun c hc => ne_sign_of_isDigit (hplaces c hc)⟩⟩

theorem ExponentText.sign_cases {exponent : Int} {us vs : List Char} {c : Char}
    (h : ExponentText exponent (us ++ c :: vs)) (hc : c = '+' ∨ c = '-') :
    ∃ e, us = [e] ∧ (e = 'e' ∨ e = 'E') := by
  generalize hcs : us ++ c :: vs = cs at h
  cases h with
  | absent => simp at hcs
  | @present letter negative sign digits hletter hsign hdigits =>
    cases us with
    | nil =>
      obtain ⟨rfl, -⟩ := List.cons.inj hcs
      rcases hc with rfl | rfl <;> exact absurd hletter (by decide)
    | cons e us =>
      obtain ⟨rfl, hrest⟩ := List.cons.inj hcs
      obtain ⟨ws, rfl, -⟩ | ⟨ws, rfl, rfl⟩ := append_cons_cases hrest
      · exact ⟨e, by rw [hsign.eq_nil_of_append], hletter⟩
      · obtain ⟨hminus, hplus⟩ := ne_sign_of_isDigit (hdigits c (by simp))
        exact (hc.elim hplus hminus).elim

/-- A sign in a numeral stands in front or right behind the letter e. -/
theorem Numeral.Spelled.sign_cases {n : Numeral} {us vs : List Char} {c : Char}
    (h : n.Spelled (us ++ c :: vs)) (hc : c = '+' ∨ c = '-') :
    us = [] ∨ ∃ ws e, us = ws ++ [e] ∧ (e = 'e' ∨ e = 'E') := by
  generalize hcs : us ++ c :: vs = cs at h
  obtain ⟨hsign, hmantissa, hexponent⟩ := h
  obtain ⟨ws, rfl, -⟩ | ⟨ws, rfl, hrest⟩ := append_cons_cases hcs
  · exact .inl hsign.eq_nil_of_append
  · obtain ⟨ws', rfl, -⟩ | ⟨ws', rfl, rfl⟩ := append_cons_cases hrest.symm
    · obtain ⟨hminus, hplus⟩ := hmantissa.not_sign c (by simp)
      exact (hc.elim hplus hminus).elim
    · obtain ⟨e, rfl, he⟩ := hexponent.sign_cases hc
      exact .inr ⟨_, e, (List.append_assoc ..).symm, he⟩

theorem AllBlank.count_percent {cs : List Char} (h : AllBlank cs) : cs.count '%' = 0 := by
  refine List.count_eq_zero.mpr fun hmem => ?_
  cases h '%' hmem

theorem IsEnding.chars {cs : List Char} (h : IsEnding cs) :
    ∀ c ∈ cs, c = '%' ∨ Text.isBlank c = true := by
  obtain hblank | ⟨between, after, rfl, hbetween, hafter⟩ := h
  · exact fun c hc => .inr (hblank c hc)
  · exact List.forall_mem_append.mpr ⟨fun c hc => .inr (hbetween c hc),
      List.forall_mem_cons.mpr ⟨.inl rfl, fun c hc => .inr (hafter c hc)⟩⟩

theorem IsEnding.percents {cs : List Char} (h : IsEnding cs) : cs.count '%' ≤ 1 := by
  obtain hblank | ⟨between, after, rfl, hbetween, hafter⟩ := h
  · rw [hblank.count_percent]
    exact Nat.zero_le 1
  · rw [List.count_append, List.count_cons_self, hbetween.count_percent, hafter.count_percent]

/-- What follows white space in an ending is an ending. -/
theorem IsEnding.of_append_cons {us vs : List Char} {c : Char} (h : IsEnding (us ++ c :: vs))
    (hc : Text.isBlank c = true) : IsEnding vs := by
  obtain hblank | ⟨between, after, hcs, hbetween, hafter⟩ := h
  · exact .inl fun d hd => hblank d (by simp [hd])
  · obtain ⟨ws, rfl, rfl⟩ | ⟨ws, rfl, hrest⟩ := append_cons_cases hcs
    · exact .inr ⟨ws, after, rfl, fun d hd => hbetween d (by simp [hd]), hafter⟩
    · cases ws with
      | nil =>
        obtain ⟨rfl, -⟩ := List.cons.inj hrest
        cases hc
      | cons d ws =>
        obtain ⟨-, rfl⟩ := List.cons.inj hrest
        exact .inl fun d hd => hafter d (by simp [hd])

/-- A number is white space, a numeral and an ending. -/
theorem NumberText.exists_parts {n : Numeral} {percent : Bool} {cs : List Char}
    (h : NumberText n percent cs) :
    ∃ before body ending, cs = before ++ (body ++ ending) ∧ AllBlank before ∧ n.Spelled body ∧
      IsEnding ending := by
  cases h with
  | plain hbefore hbody hafter => exact ⟨_, _, _, rfl, hbefore, hbody, .inl hafter⟩
  | percent hbefore hbody hbetween hafter =>
    exact ⟨_, _, _, rfl, hbefore, hbody, .inr ⟨_, _, rfl, hbetween, hafter⟩⟩

/-- **The characters of a number are well placed.** -/
theorem NumberText.wellPlaced {n : Numeral} {percent : Bool} {cs : List Char}
    (h : NumberText n percent cs) : WellPlaced cs := by
  obtain ⟨before, body, ending, rfl, hbefore, hbody, hending⟩ := h.exists_parts
  have hsign {c : Char} (hc : c = '+' ∨ c = '-') : ¬ (c = '%' ∨ Text.isBlank c = true) := by
    rcases hc with rfl | rfl <;> decide
  constructor
  case chars =>
    refine List.forall_mem_append.mpr ⟨fun c hc => .inr (.inr (hbefore c hc)), ?_⟩
    exact List.forall_mem_append.mpr
      ⟨fun c hc => .inl (hbody.isNumeralChar c hc), fun c hc => .inr (hending.chars c hc)⟩
  case percents =>
    have hnone : body.count '%' = 0 := by
      refine List.count_eq_zero.mpr fun hmem => ?_
      cases hbody.isNumeralChar '%' hmem
    rw [List.count_append, List.count_append, hbefore.count_percent, hnone, Nat.zero_add,
      Nat.zero_add]
    exact hending.percents
  case blanks =>
    intro us c vs hcs hc
    obtain ⟨ws, rfl, -⟩ | ⟨ws, rfl, hrest⟩ := append_cons_cases hcs.symm
    · exact .inl fun d hd => hbefore d (by simp [hd])
    · obtain ⟨ws', rfl, -⟩ | ⟨ws', rfl, rfl⟩ := append_cons_cases hrest.symm
      · rw [hbody.isBlank_eq_false (by simp)] at hc
        cases hc
      · exact .inr (hending.of_append_cons hc)
  case signs =>
    intro us c vs hcs hc
    obtain ⟨ws, rfl, -⟩ | ⟨ws, rfl, hrest⟩ := append_cons_cases hcs.symm
    · exact absurd (.inr (hbefore c (by simp))) (hsign hc)
    · obtain ⟨ws', rfl, -⟩ | ⟨ws', rfl, rfl⟩ := append_cons_cases hrest.symm
      · obtain rfl | ⟨ws, e, rfl, he⟩ := hbody.sign_cases hc
        · exact .inl (by rwa [List.append_nil])
        · exact .inr ⟨_, e, (List.append_assoc ..).symm, he⟩
      · exact absurd (hending.chars c (by simp)) (hsign hc)

end Number

/-! ### Texts as values -/

open Number

theorem Value.toNumber_text (s : String) :
    (Value.text s).toNumber = match numberOfText? s with
      | some x => .ok x
      | none => .error .value := rfl

theorem Value.toNumber_text_eq_ok {s : String} {x : Float} :
    (Value.text s).toNumber = .ok x ↔ numberOfText? s = some x := by
  rw [toNumber_text]
  cases numberOfText? s <;> simp

/-- **Texts are numbers by the grammar.** A text is read as a number if it is white space, a
numeral, one percent sign with white space before it or none, and white space; the number is the one
that the numeral spells, with the factor of the percent sign. Every other text is a value error: one
with other characters in it, with two percent signs, with white space inside, or with a sign in
another place. So is the name of a number, which the reader of doubles would take. -/
theorem Value.toNumber_text_accepts (s : String) :
    (∀ x, (Value.text s).toNumber = .ok x ↔
        ∃ n percent, NumberText n percent s.toList ∧ n.toFloat * percentFactor percent = x) ∧
      ((∃ x, (Value.text s).toNumber = .ok x) ↔ ∃ n percent, NumberText n percent s.toList) ∧
      ((∀ n percent, ¬ NumberText n percent s.toList) → (Value.text s).toNumber = .error .value) ∧
      (¬ WellPlaced s.toList → (Value.text s).toNumber = .error .value) ∧
      ∀ x, NamedNumber x (takePercent (Text.trim s.toList)).1 →
        floatOfChars? (takePercent (Text.trim s.toList)).1 = some x ∧
          (Value.text s).toNumber = .error .value := by
  have hok (x : Float) : (Value.text s).toNumber = .ok x ↔
      ∃ n percent, NumberText n percent s.toList ∧ n.toFloat * percentFactor percent = x := by
    rw [toNumber_text_eq_ok, numberOfText?_eq_some_iff]
  have hreject (h : ∀ n percent, ¬ NumberText n percent s.toList) :
      (Value.text s).toNumber = .error .value := by
    rw [toNumber_text]
    cases hx : numberOfText? s with
    | none => rfl
    | some x =>
      obtain ⟨n, percent, htext, -⟩ := numberOfText?_eq_some_iff.mp hx
      exact absurd htext (h n percent)
  refine ⟨hok, ⟨fun ⟨x, hx⟩ => ?_, fun ⟨n, percent, htext⟩ => ?_⟩, hreject, fun hplaced => ?_,
    fun x hnamed =>
      ⟨floatOfChars?_eq_some_iff.mpr (.inr hnamed), hreject fun n percent htext => ?_⟩⟩
  · obtain ⟨n, percent, htext, -⟩ := (hok x).mp hx
    exact ⟨n, percent, htext⟩
  · exact ⟨_, (hok _).mpr ⟨n, percent, htext, rfl⟩⟩
  · exact hreject fun n percent htext => hplaced htext.wellPlaced
  · obtain ⟨body, hbody, htaken⟩ := htext.exists_taken
    rw [htaken] at hnamed
    exact hnamed.not_spelled n hbody

/-- A number with everything that the grammar allows, one with a percent sign too many, and a
name. -/
theorem Value.toNumber_text_accepts_percent :
    NumberText ⟨false, ⟨1, -3⟩⟩ true " +1.e-3 % ".toList ∧
      (∃ x, (Value.text " +1.e-3 % ").toNumber = .ok x) ∧
      ¬ WellPlaced "1%%".toList ∧ (Value.text "1%%").toNumber = .error .value ∧
      NamedNumber (-(1.0 / 0.0)) (takePercent (Text.trim " -Inf%".toList)).1 ∧
      (Value.text " -Inf%").toNumber = .error .value := by
  have hmantissa : MantissaText ['1'] [] ['1', '.'] :=
    @MantissaText.point ['1'] [] (fun c hc => by simp_all) nofun (by decide)
  have hexponent : ExponentText (-3) ['e', '-', '3'] :=
    @ExponentText.present 'e' true ['-'] ['3'] (.inl rfl) .minus (fun c hc => by simp_all)
      (by decide)
  have hblank : AllBlank [' '] := List.forall_mem_singleton.mpr (by decide)
  have htext : NumberText ⟨false, ⟨1, -3⟩⟩ true " +1.e-3 % ".toList :=
    .percent hblank (.parts .plus hmantissa hexponent) hblank hblank
  have hplaced : ¬ WellPlaced "1%%".toList := fun h => absurd h.percents (by decide)
  have hnamed : NamedNumber (-(1.0 / 0.0)) (takePercent (Text.trim " -Inf%".toList)).1 :=
    @NamedNumber.parts true ['-'] ['I', 'n', 'f'] (1.0 / 0.0) .minus List.mem_cons_self
  exact ⟨htext, (toNumber_text_accepts _).2.1.mpr ⟨_, _, htext⟩, hplaced,
    (toNumber_text_accepts _).2.2.2.1 hplaced, hnamed,
    ((toNumber_text_accepts _).2.2.2.2 _ hnamed).2⟩

end CellFormula
