import CellFormula.Bytes.LittleEndian
import Mathlib.Algebra.Group.Nat.Defs

/-!
# Digits in base 256

A number and the list of its bytes, the low one first, are two spellings of the same digits. So
words are read back from their bytes, and bytes are written back from the word that they spell.

## Main results

* `littleEndian_leBytes` — `count` bytes keep a number modulo `256 ^ count`
* `leBytes_littleEndian` — bytes are the digits of the number that they spell
* `wordOf_wordBytes`, `quadOf_quadBytes` — a word is read back from its bytes
* `wordBytes_wordOf`, `quadBytes_quadOf` — bytes are written back from their word
-/

namespace CellFormula

/-- The digits give the number back, up to the digits that were cut off. -/
theorem littleEndian_leBytes (count n : Nat) :
    littleEndian (leBytes count n) = n % 256 ^ count := by
  induction count generalizing n with
  | zero => simp [littleEndian, leBytes, Nat.mod_one]
  | succ count ih =>
    have hd : n.toUInt8.toNat = n % 256 := by simp
    have step : littleEndian (leBytes (count + 1) n) =
        n % 256 + 256 * littleEndian (leBytes count (n / 256)) := by
      simp [littleEndian, leBytes]
    rw [step, ih, Nat.pow_succ, Nat.mul_comm (256 ^ count), Nat.mod_mul]

theorem wordOf_wordBytes (n : UInt16) :
    wordOf n.toNat.toUInt8 (n.toNat / 256).toUInt8 = n := by
  have h := littleEndian_leBytes 2 n.toNat
  rw [Nat.mod_eq_of_lt (by simpa using n.toNat_lt)] at h
  simp only [leBytes] at h
  rw [wordOf, h]
  simp

theorem quadOf_quadBytes (n : UInt64) : quadOf (quadBytes n) = n := by
  have h := littleEndian_leBytes 8 n.toNat
  rw [Nat.mod_eq_of_lt (by simpa using n.toNat_lt)] at h
  rw [quadOf, quadBytes, h]
  simp

/-- Words and bytes are two spellings of the same digits. -/
theorem leBytes_littleEndian (bytes : List UInt8) :
    leBytes bytes.length (littleEndian bytes) = bytes := by
  induction bytes with
  | nil => rfl
  | cons b bytes ih =>
    have hcons : littleEndian (b :: bytes) = b.toNat + 256 * littleEndian bytes := rfl
    have hb : b.toNat < 256 := b.toNat_lt
    have hlow : (b.toNat + 256 * littleEndian bytes).toUInt8 = b := by
      apply UInt8.toNat_inj.mp
      rw [Nat.toUInt8, UInt8.toNat_ofNat']
      omega
    have hhigh : (b.toNat + 256 * littleEndian bytes) / 256 = littleEndian bytes := by omega
    rw [hcons, List.length_cons, leBytes, hlow, hhigh, ih]

theorem littleEndian_lt (bytes : List UInt8) : littleEndian bytes < 256 ^ bytes.length := by
  induction bytes with
  | nil => simp [littleEndian]
  | cons b bytes ih =>
    have hb : b.toNat < 256 := b.toNat_lt
    calc littleEndian (b :: bytes) = b.toNat + 256 * littleEndian bytes := rfl
      _ < 256 * (littleEndian bytes + 1) := by omega
      _ ≤ 256 * 256 ^ bytes.length := Nat.mul_le_mul_left _ ih
      _ = 256 ^ (b :: bytes).length := by rw [List.length_cons, Nat.pow_succ, Nat.mul_comm]

theorem wordBytes_wordOf (low high : UInt8) : wordBytes (wordOf low high) = [low, high] := by
  have hlt : littleEndian [low, high] < 2 ^ 16 := by simpa using littleEndian_lt [low, high]
  have hnat : (littleEndian [low, high]).toUInt16.toNat = littleEndian [low, high] := by
    rw [Nat.toUInt16, UInt16.toNat_ofNat', Nat.mod_eq_of_lt hlt]
  rw [wordBytes, wordOf, hnat]
  exact leBytes_littleEndian [low, high]

theorem quadBytes_quadOf {bytes : List UInt8} (h : bytes.length = 8) :
    quadBytes (quadOf bytes) = bytes := by
  have hlt : littleEndian bytes < 2 ^ 64 := by simpa [h] using littleEndian_lt bytes
  have hnat : (littleEndian bytes).toUInt64.toNat = littleEndian bytes := by
    rw [Nat.toUInt64, UInt64.toNat_ofNat', Nat.mod_eq_of_lt hlt]
  rw [quadBytes, quadOf, hnat, ← h]
  exact leBytes_littleEndian bytes

end CellFormula
