import CellFormula.Text.Units
import CellFormula.Constant.Layout
import CellFormula.Proofs.Accepts
import Mathlib

/-!
# Texts and their UTF-16 units

`Text.ofUnits?` reads units in one pass and `Text.units` writes them character by character. The two
are inverse to each other in the strong sense: a list of units is read as a text exactly when it is
the list of units of that text. A surrogate that stands alone is in no such list.

A stored text has one byte for each unit or two, as a flag says. `Text.StoredAs` is that form, said
with the units of the text only, and `textOfUnitBytes?_eq_some_iff` is the reading of it.

## Main definitions

* `Text.StoredAs` — the bytes behind the flag byte of a stored text

## Main results

* `Text.ofUnits?_eq_some_iff`
* `textOfUnitBytes?_eq_some_iff`
-/

namespace CellFormula.Text

/-! ### The units of one character -/

theorem isHighSurrogate_iff {u : UInt16} :
    isHighSurrogate u = true ↔ 0xD800 ≤ u.toNat ∧ u.toNat ≤ 0xDBFF := by
  simp [isHighSurrogate, UInt16.le_iff_toNat_le]

theorem isLowSurrogate_iff {u : UInt16} :
    isLowSurrogate u = true ↔ 0xDC00 ≤ u.toNat ∧ u.toNat ≤ 0xDFFF := by
  simp [isLowSurrogate, UInt16.le_iff_toNat_le]

/-- A code point below `0x10000` is one unit. -/
theorem charUnits_of_lt {c : Char} (h : c.toNat < 0x10000) :
    charUnits c = [c.toNat.toUInt16] := if_pos h

theorem charUnits_of_le {c : Char} (h : 0x10000 ≤ c.toNat) :
    charUnits c = [(0xD800 + (c.toNat - 0x10000) / 0x400).toUInt16,
      (0xDC00 + (c.toNat - 0x10000) % 0x400).toUInt16] := if_neg (Nat.not_lt.mpr h)

theorem toNat_toUInt16 {n : Nat} (h : n < 0x10000) : n.toUInt16.toNat = n := by
  rw [Nat.toUInt16, UInt16.toNat_ofNat', Nat.mod_eq_of_lt h]

/-- A unit that is no surrogate is the unit of its own character. -/
theorem charUnits_ofNat {u : UInt16} (hhigh : ¬ isHighSurrogate u = true)
    (hlow : ¬ isLowSurrogate u = true) : charUnits (Char.ofNat u.toNat) = [u] := by
  have hlt : u.toNat < 0x10000 := u.toNat_lt
  have hvalid : u.toNat.isValidChar := by
    rw [isHighSurrogate_iff] at hhigh
    rw [isLowSurrogate_iff] at hlow
    change u.toNat < 0xD800 ∨ 0xDFFF < u.toNat ∧ u.toNat < 0x110000
    omega
  have hchar : (Char.ofNat u.toNat).toNat = u.toNat := by rw [Char.toNat_ofNat, if_pos hvalid]
  rw [charUnits_of_lt (by rw [hchar]; exact hlt), hchar]
  simp

/-- A surrogate pair is the units of its character. -/
theorem charUnits_pairChar {u v : UInt16} (hhigh : isHighSurrogate u = true)
    (hlow : isLowSurrogate v = true) : charUnits (pairChar u v) = [u, v] := by
  rw [isHighSurrogate_iff] at hhigh
  rw [isLowSurrogate_iff] at hlow
  have hvalid : (0x10000 + (u.toNat - 0xD800) * 0x400 + (v.toNat - 0xDC00)).isValidChar := by
    right
    omega
  have hchar : (pairChar u v).toNat
      = 0x10000 + (u.toNat - 0xD800) * 0x400 + (v.toNat - 0xDC00) := by
    rw [pairChar, Char.toNat_ofNat, if_pos hvalid]
  rw [charUnits_of_le (by omega), hchar]
  have hfirst :
      0xD800 + (0x10000 + (u.toNat - 0xD800) * 0x400 + (v.toNat - 0xDC00) - 0x10000) / 0x400
      = u.toNat := by omega
  have hsecond :
      0xDC00 + (0x10000 + (u.toNat - 0xD800) * 0x400 + (v.toNat - 0xDC00) - 0x10000) % 0x400
      = v.toNat := by omega
  rw [hfirst, hsecond]
  simp

/-- Every character is one unit that is no surrogate, or a surrogate pair. -/
theorem charUnits_cases (c : Char) :
    (∃ u, charUnits c = [u] ∧ ¬ isHighSurrogate u = true ∧ ¬ isLowSurrogate u = true ∧
        Char.ofNat u.toNat = c) ∨
      ∃ u v, charUnits c = [u, v] ∧ isHighSurrogate u = true ∧ isLowSurrogate v = true ∧
        pairChar u v = c := by
  have hvalid : c.toNat < 0xD800 ∨ 0xDFFF < c.toNat ∧ c.toNat < 0x110000 := c.valid
  rcases Nat.lt_or_ge c.toNat 0x10000 with h | h
  · left
    have hnat := toNat_toUInt16 h
    refine ⟨c.toNat.toUInt16, charUnits_of_lt h, ?_, ?_, ?_⟩
    · rw [isHighSurrogate_iff, hnat]
      omega
    · rw [isLowSurrogate_iff, hnat]
      omega
    · rw [hnat, Char.ofNat_toNat]
  · right
    have hhigh := toNat_toUInt16 (n := 0xD800 + (c.toNat - 0x10000) / 0x400) (by omega)
    have hlow := toNat_toUInt16 (n := 0xDC00 + (c.toNat - 0x10000) % 0x400) (by omega)
    refine ⟨_, _, charUnits_of_le h, ?_, ?_, ?_⟩
    · rw [isHighSurrogate_iff, hhigh]
      omega
    · rw [isLowSurrogate_iff, hlow]
      omega
    · rw [pairChar, hhigh, hlow]
      have hcode : 0x10000 + (0xD800 + (c.toNat - 0x10000) / 0x400 - 0xD800) * 0x400
          + (0xDC00 + (c.toNat - 0x10000) % 0x400 - 0xDC00) = c.toNat := by omega
      rw [hcode, Char.ofNat_toNat]

/-! ### Reading units -/

/-- Reading the units of a character gives the character. -/
theorem charsOfUnits?_charUnits_append (done : List Char) (c : Char) (us : List UInt16) :
    charsOfUnits? done (charUnits c ++ us) = charsOfUnits? (c :: done) us := by
  rcases charUnits_cases c with ⟨u, hunits, hhigh, hlow, rfl⟩ | ⟨u, v, hunits, hhigh, hlow, rfl⟩
  · rw [hunits]
    cases us with
    | nil => simp [charsOfUnits?, hhigh, hlow]
    | cons v us => simp [charsOfUnits?, hhigh, hlow]
  · have hnot : ¬ isLowSurrogate u = true := by
      rw [isHighSurrogate_iff] at hhigh
      rw [isLowSurrogate_iff]
      omega
    rw [hunits]
    simp [charsOfUnits?, hhigh, hlow, hnot]

theorem charsOfUnits?_flatMap (done cs : List Char) :
    charsOfUnits? done (cs.flatMap charUnits) = some (done.reverse ++ cs) := by
  induction cs generalizing done with
  | nil => simp [charsOfUnits?]
  | cons c cs ih =>
    rw [List.flatMap_cons, charsOfUnits?_charUnits_append, ih]
    simp

/-- What was read are characters with these units. -/
theorem flatMap_charUnits_of_charsOfUnits? {done cs : List Char} {us : List UInt16}
    (h : charsOfUnits? done us = some cs) :
    ∃ rest, cs = done.reverse ++ rest ∧ rest.flatMap charUnits = us := by
  fun_induction charsOfUnits? done us with
  | case1 done =>
    cases h
    exact ⟨[], by simp, rfl⟩
  | case2 done u hsurrogate => cases h
  | case3 done u hsurrogate =>
    cases h
    simp only [Bool.or_eq_true, not_or] at hsurrogate
    exact ⟨[Char.ofNat u.toNat], by simp, by simp [charUnits_ofNat hsurrogate.1 hsurrogate.2]⟩
  | case4 done u v us hlow => cases h
  | case5 done u v us hlow hhigh hlow' ih =>
    obtain ⟨rest, rfl, rfl⟩ := ih h
    exact ⟨pairChar u v :: rest, by simp, by simp [charUnits_pairChar hhigh hlow']⟩
  | case6 done u v us hlow hhigh hlow' => cases h
  | case7 done u v us hlow hhigh ih =>
    obtain ⟨rest, rfl, hrest⟩ := ih h
    exact ⟨Char.ofNat u.toNat :: rest, by simp, by simp [charUnits_ofNat hhigh hlow, hrest]⟩

/-- **Units are read as a text exactly when they are the units of that text.** -/
theorem ofUnits?_eq_some_iff {us : List UInt16} {s : String} :
    ofUnits? us = some s ↔ units s = us := by
  rw [ofUnits?, Option.map_eq_some_iff]
  constructor
  · rintro ⟨cs, hcs, rfl⟩
    obtain ⟨rest, rfl, rfl⟩ := flatMap_charUnits_of_charsOfUnits? hcs
    simp [units]
  · rintro rfl
    exact ⟨s.toList, by rw [units, charsOfUnits?_flatMap]; rfl, String.ofList_toList⟩

/-! ### Units as bytes -/

/-- The bytes behind the flag byte of a stored text: the units of the text, one byte each when the
flag says so and two otherwise. The other bits of the flag byte say nothing. -/
def StoredAs (s : String) (flags : UInt8) (bytes : List UInt8) : Prop :=
  if flags &&& wideFlag = 0 then units s = bytes.map UInt8.toUInt16
  else bytes = (units s).flatMap wordBytes

/-- The number of bytes that so many units take up. -/
def storedSize (count : Nat) (flags : UInt8) : Nat :=
  if flags &&& wideFlag = 0 then count else 2 * count

theorem length_flatMap_wordBytes (us : List UInt16) :
    (us.flatMap wordBytes).length = 2 * us.length := by
  induction us with
  | nil => rfl
  | cons u us ih =>
    rw [List.flatMap_cons, List.length_append, length_wordBytes, ih, List.length_cons]
    omega

theorem unitsOfBytes_go (done us : List UInt16) :
    unitsOfBytes.go done (us.flatMap wordBytes) = done.reverse ++ us := by
  induction us generalizing done with
  | nil => simp [unitsOfBytes.go]
  | cons u us ih =>
    have hbytes : wordBytes u = [u.toNat.toUInt8, (u.toNat / 256).toUInt8] := rfl
    rw [List.flatMap_cons, hbytes, List.cons_append, List.cons_append, List.nil_append,
      unitsOfBytes.go, wordOf_wordBytes, ih]
    simp

theorem unitsOfBytes_flatMap (us : List UInt16) : unitsOfBytes (us.flatMap wordBytes) = us :=
  unitsOfBytes_go [] us

/-- Bytes in pairs are the bytes of so many units. -/
theorem exists_flatMap_wordBytes {count : Nat} {bytes : List UInt8} (h : bytes.length = 2 * count) :
    ∃ us : List UInt16, us.length = count ∧ us.flatMap wordBytes = bytes := by
  induction count generalizing bytes with
  | zero => exact ⟨[], rfl, (List.length_eq_zero_iff.mp h).symm⟩
  | succ count ih =>
    match bytes, h with
    | low :: high :: rest, h =>
      have hrest : rest.length = 2 * count := by simpa [Nat.mul_add] using h
      obtain ⟨us, hus, rfl⟩ := ih hrest
      refine ⟨wordOf low high :: us, by rw [List.length_cons, hus], ?_⟩
      rw [List.flatMap_cons, wordBytes_wordOf]
      rfl

/-- A character below `0x100` is the unit of its byte. -/
theorem charUnits_ofNat_byte (b : UInt8) : charUnits (Char.ofNat b.toNat) = [b.toUInt16] := by
  have hb : b.toNat < 256 := b.toNat_lt
  have hnat : b.toUInt16.toNat = b.toNat := UInt8.toNat_toUInt16 b
  rw [← hnat]
  refine charUnits_ofNat ?_ ?_
  · rw [isHighSurrogate_iff, hnat]
    omega
  · rw [isLowSurrogate_iff, hnat]
    omega

theorem units_ofBytes (bytes : List UInt8) : units (ofBytes bytes) = bytes.map UInt8.toUInt16 := by
  rw [units, ofBytes, String.toList_ofList, List.flatMap_map]
  induction bytes with
  | nil => rfl
  | cons b bytes ih => rw [List.flatMap_cons, charUnits_ofNat_byte, ih]; rfl

theorem units_injective : Function.Injective units := by
  intro s t h
  have hs := ofUnits?_eq_some_iff.mpr (rfl : units s = units s)
  rw [h, ofUnits?_eq_some_iff.mpr rfl] at hs
  exact (Option.some.inj hs).symm

end CellFormula.Text

namespace CellFormula

open Text

/-- **Bytes are read as a text exactly when they are a stored form of it,** given that there are as
many as the count of its units asks for. -/
theorem textOfUnitBytes?_eq_some_iff {flags : UInt8} {bytes : List UInt8} {s : String}
    {count : Nat} :
    (textOfUnitBytes? flags bytes = some s ∧ bytes.length = storedSize count flags) ↔
      StoredAs s flags bytes ∧ (units s).length = count := by
  rw [textOfUnitBytes?, StoredAs, storedSize]
  split
  · constructor
    · rintro ⟨hs, hlength⟩
      obtain rfl := Option.some.inj hs
      rw [units_ofBytes, List.length_map]
      exact ⟨rfl, hlength⟩
    · rintro ⟨hs, hcount⟩
      rw [← units_ofBytes] at hs
      rw [units_injective hs, ← hcount, hs, units_ofBytes, List.length_map]
      exact ⟨rfl, rfl⟩
  · constructor
    · rintro ⟨hs, hlength⟩
      obtain ⟨us, hus, rfl⟩ := exists_flatMap_wordBytes hlength
      rw [unitsOfBytes_flatMap, ofUnits?_eq_some_iff] at hs
      rw [hs]
      exact ⟨rfl, hus⟩
    · rintro ⟨rfl, rfl⟩
      rw [unitsOfBytes_flatMap, ofUnits?_eq_some_iff, length_flatMap_wordBytes]
      exact ⟨rfl, rfl⟩

/-- The reading of a stored text, once its count and its flag byte are read. -/
theorem accepts_text {ε α : Type} (f : ShortRead → ε) (count : Nat) (flags : UInt8)
    (wrap : String → α) (e : ε) :
    Reads.Accepts (do
      let bytes ← EStateM.adaptExcept f (readUnitBytes count flags)
      match textOfUnitBytes? flags bytes with
      | some s => return wrap s
      | none => throw e)
      fun a bytes => ∃ s, StoredAs s flags bytes ∧ (units s).length = count ∧ wrap s = a := by
  have htake : Reads.Accepts (EStateM.adaptExcept f (readUnitBytes count flags)) _ :=
    (Cursor.accepts_take (storedSize count flags)).adapt f
  refine (htake.bind fun bytes => .lookup (textOfUnitBytes? flags bytes) wrap e
    (fun s hs => by rw [hs]) (fun hs => by rw [hs])).congr fun a bytes => ?_
  constructor
  · rintro ⟨taken, xs, ys, ⟨rfl, hlength⟩, ⟨⟨s, hs, rfl⟩, rfl⟩, rfl⟩
    obtain ⟨hstored, hcount⟩ := textOfUnitBytes?_eq_some_iff.mp ⟨hs, hlength⟩
    exact ⟨s, by simpa using hstored, hcount, rfl⟩
  · rintro ⟨s, hstored, hcount, rfl⟩
    obtain ⟨hs, hlength⟩ := textOfUnitBytes?_eq_some_iff.mpr ⟨hstored, hcount⟩
    exact ⟨bytes, bytes, [], ⟨rfl, hlength⟩, ⟨⟨s, hs, rfl⟩, rfl⟩, by simp⟩

/-! ### Writing a text -/

/-- The flag byte that a text is written with. -/
def writtenFlag (us : List UInt16) : UInt8 := if isNarrow us then 0 else wideFlag

theorem isNarrow_map_toUInt16 (bytes : List UInt8) :
    isNarrow (bytes.map UInt8.toUInt16) = true := by
  rw [isNarrow, List.all_eq_true]
  intro u hu
  obtain ⟨b, -, rfl⟩ := List.mem_map.mp hu
  have hb : b.toNat < 256 := b.toNat_lt
  rw [decide_eq_true_eq, UInt16.le_iff_toNat_le, UInt8.toNat_toUInt16]
  exact Nat.le_of_lt_succ hb

/-- Units that are bytes are found again in their bytes. -/
theorem map_toUInt16_map_toUInt8 {us : List UInt16} (h : isNarrow us = true) :
    (us.map UInt16.toUInt8).map UInt8.toUInt16 = us := by
  rw [isNarrow, List.all_eq_true] at h
  rw [List.map_map, List.map_congr_left (g := id), List.map_id]
  intro u hu
  have hle : u.toNat ≤ 0xFF := UInt16.le_iff_toNat_le.mp (decide_eq_true_eq.mp (h u hu))
  apply UInt16.toNat_inj.mp
  rw [Function.comp_apply, UInt8.toNat_toUInt16, UInt16.toNat_toUInt8, id_eq]
  omega

/-- **What is written is a stored form.** -/
theorem storedAs_unitBytes (s : String) :
    StoredAs s (writtenFlag (units s)) (unitBytes (units s)) := by
  rw [StoredAs, writtenFlag, unitBytes]
  by_cases hnarrow : isNarrow (units s) = true
  · rw [if_pos hnarrow, if_pos hnarrow, if_pos (by decide), map_toUInt16_map_toUInt8 hnarrow]
  · rw [if_neg hnarrow, if_neg hnarrow, if_neg (by decide)]

theorem length_unitBytes_le_two_mul (us : List UInt16) :
    (unitBytes us).length ≤ 2 * us.length := by
  rw [unitBytes]
  split
  · rw [List.length_map]
    omega
  · rw [length_flatMap_wordBytes]

/-- A text is not written any longer than it was stored. -/
theorem Text.StoredAs.length_unitBytes_le {s : String} {flags : UInt8} {bytes : List UInt8}
    (h : StoredAs s flags bytes) : (unitBytes (units s)).length ≤ bytes.length := by
  rw [StoredAs] at h
  split at h
  · have hnarrow : isNarrow (units s) = true := by
      rw [h]
      exact isNarrow_map_toUInt16 bytes
    rw [unitBytes, if_pos hnarrow, List.length_map, h, List.length_map]
  · rw [h, length_flatMap_wordBytes]
    exact length_unitBytes_le_two_mul (units s)

end CellFormula
