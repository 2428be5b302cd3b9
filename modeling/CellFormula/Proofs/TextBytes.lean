import Mathlib.Tactic.SplitIfs

/-!
# The bytes of a text

In UTF-8 a byte below `0x80` is a character of its own and never a part of another one. So a test of
bytes that no byte from `0x80` on passes sees the characters of ASCII and nothing else: it is passed
by all bytes of a text, or by some, just if the characters pass the test that belongs to it.

## Main results

* `Text.le_of_mem_utf8EncodeChar` — the bytes of a character that is not one of ASCII
* `Text.all_encoded_eq`, `Text.any_encoded_eq` — tests of bytes are tests of characters
-/

namespace CellFormula

namespace Text

theorem le_ofNat {n : Nat} (hlow : 0x80 ≤ n) (hhigh : n < 0x100) : 0x80 ≤ UInt8.ofNat n := by
  rw [UInt8.le_iff_toNat_le, UInt8.toNat_ofNat_of_lt' hhigh]
  exact hlow

/-- A character that is not one of ASCII has no byte that is one. -/
theorem le_of_mem_utf8EncodeChar {c : Char} (h : 0x80 ≤ c.toNat) :
    ∀ b ∈ String.utf8EncodeChar c, 0x80 ≤ b := by
  intro b hb
  rw [String.utf8EncodeChar] at hb
  split at hb
  · next hascii => exact absurd hascii (Nat.not_le.mpr h)
  · -- Every byte is a few bits of the character and a head that is at least 0x80.
    split_ifs at hb <;> simp only [List.mem_cons, List.not_mem_nil, or_false] at hb
    all_goals
      rcases hb with rfl | rfl | rfl | rfl
      all_goals exact le_ofNat (by omega) (by omega)

/-- Bytes that encode a text are read as that text. -/
theorem fromUTF8?_encoded (cs : List Char) :
    String.fromUTF8? (cs.flatMap String.utf8EncodeChar).toByteArray = some (String.ofList cs) := by
  rw [String.fromUTF8?, dif_pos ⟨cs, rfl⟩]
  refine congrArg some (String.toByteArray_inj.mp ?_)
  rw [String.toByteArray_ofList]
  rfl

theorem bytes_ofList (cs : List Char) :
    (String.ofList cs).toByteArray.data.toList = cs.flatMap String.utf8EncodeChar := by
  rw [String.toByteArray_ofList, List.utf8Encode, List.toList_data_toByteArray]

/-! ### Tests of bytes -/

section

variable {p : UInt8 → Bool} {q : Char → Bool}

/-- The bytes that pass the first test are the characters of ASCII that pass the second one, and no
other characters pass it. -/
structure SeesAscii (p : UInt8 → Bool) (q : Char → Bool) : Prop where
  ascii : ∀ code : Fin 0x80, p (UInt8.ofNat code) = q (Char.ofNat code)
  byte : ∀ b, 0x80 ≤ b → p b = false
  char : ∀ c : Char, 0x80 ≤ c.toNat → q c = false

namespace SeesAscii

/-- A character is one byte, or it has some bytes that all fail the test. -/
theorem cases_char (h : SeesAscii p q) (c : Char) :
    (∃ b, String.utf8EncodeChar c = [b] ∧ p b = q c) ∨
      String.utf8EncodeChar c ≠ [] ∧ (∀ b ∈ String.utf8EncodeChar c, p b = false) ∧
        q c = false := by
  by_cases hc : c.toNat < 0x80
  · have hbyte : ∀ code : Fin 0x80,
        String.utf8EncodeChar (Char.ofNat code) = [UInt8.ofNat code] := by decide
    have hcode := hbyte ⟨c.toNat, hc⟩
    have htest := h.ascii ⟨c.toNat, hc⟩
    simp only [Char.ofNat_toNat] at hcode htest
    exact .inl ⟨_, hcode, htest⟩
  · rw [Nat.not_lt] at hc
    exact .inr ⟨String.utf8EncodeChar_ne_nil,
      fun b hb => h.byte b (le_of_mem_utf8EncodeChar hc b hb), h.char c hc⟩

/-- All bytes of a text pass the test if its characters do. -/
theorem all_encoded_eq (h : SeesAscii p q) (cs : List Char) :
    (cs.flatMap String.utf8EncodeChar).all p = cs.all q := by
  have hchar (c : Char) : (String.utf8EncodeChar c).all p = q c := by
    obtain ⟨b, hbytes, hb⟩ | ⟨hsome, hfails, hc⟩ := h.cases_char c
    · rw [hbytes, List.all_cons, List.all_nil, Bool.and_true, hb]
    · obtain ⟨b, hb⟩ := List.exists_mem_of_ne_nil _ hsome
      rw [hc]
      exact List.all_eq_false.mpr ⟨b, hb, by rw [hfails b hb]; exact Bool.false_ne_true⟩
  rw [List.all_flatMap]
  exact congrArg cs.all (funext hchar)

/-- Some byte of a text passes the test if a character does. -/
theorem any_encoded_eq (h : SeesAscii p q) (cs : List Char) :
    (cs.flatMap String.utf8EncodeChar).any p = cs.any q := by
  have hchar (c : Char) : (String.utf8EncodeChar c).any p = q c := by
    obtain ⟨b, hbytes, hb⟩ | ⟨-, hfails, hc⟩ := h.cases_char c
    · rw [hbytes, List.any_cons, List.any_nil, Bool.or_false, hb]
    · rw [hc]
      exact List.any_eq_false.mpr fun b hb => by rw [hfails b hb]; exact Bool.false_ne_true
  rw [List.any_flatMap]
  exact congrArg cs.any (funext hchar)

end SeesAscii

end

end Text

end CellFormula
