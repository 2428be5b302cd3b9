import CellFormula.Constant.Layout
import CellFormula.Proofs.StoredText

/-!
# Stored constants

`Constant.Stored` says which bytes are a stored form of a constant: its tag and a payload, in which
reserved bytes are arbitrary. Reading accepts exactly these. Writing gives one of them, and it is
never longer than the one that was read, since a text may be stored wider than it has to be.

## Main definitions

* `Constant.StoredPayload`, `Constant.Stored`

## Main results

* `Constant.accepts_read`
* `Constant.storedPayload_of_payload`, `Constant.StoredPayload.exists_payload`
-/

namespace CellFormula

/-- A truth value is stored as 0 or 1, and no other byte is one. -/
theorem accepts_truth {ε α : Type} (wrap : Bool → α) (value : UInt8) (e : ε) :
    Reads.Accepts (if value = 0 then (return wrap false)
      else if value = 1 then (return wrap true)
      else throw e : Reads ε α) fun a bytes =>
        (∃ b : Bool, b.toUInt8 = value ∧ wrap b = a) ∧ bytes = [] := by
  have hfalse : false.toUInt8 = 0 := rfl
  have htrue : true.toUInt8 = 1 := rfl
  by_cases h0 : value = 0
  · subst h0
    refine (Reads.Accepts.pure (wrap false)).congr fun a bytes => and_congr_left fun _ => ?_
    simp [hfalse, htrue, eq_comm]
  · by_cases h1 : value = 1
    · subst h1
      refine (Reads.Accepts.pure (wrap true)).congr fun a bytes => and_congr_left fun _ => ?_
      simp [hfalse, htrue, eq_comm]
    · rw [if_neg h0, if_neg h1]
      refine (Reads.Accepts.throw e).congr fun a bytes => ?_
      simp [hfalse, htrue, Ne.symm h0, Ne.symm h1]

namespace Constant

open Text

/-- The payload behind the tag. -/
def StoredPayload : Layout Constant
  | empty, bytes => bytes.length = 8
  | number x, bytes => bytes = quadBytes x.bits
  | text s, bytes => ∃ count flags raw, StoredAs s flags raw ∧ (units s).length = count.toNat ∧
      bytes = wordBytes count ++ flags :: raw
  | boolean b, bytes => ∃ reserved : List UInt8, reserved.length = 7 ∧
      bytes = b.toUInt8 :: reserved
  | code c, bytes => ∃ reserved : List UInt8, reserved.length = 6 ∧ bytes = wordBytes c ++ reserved

/-- **The stored forms of a constant.** -/
def Stored : Layout Constant := fun c bytes => ∃ payload, StoredPayload c payload ∧
  bytes = c.tag :: payload

/-! ### Reading -/

section

variable (offset : Nat)

theorem accepts_emptyPayload :
    Reads.Accepts (do fitting offset (Cursor.skip fixedPayload); return empty) fun c bytes =>
      bytes.length = 8 ∧ empty = c := by
  refine (((Cursor.accepts_skip fixedPayload).adapt _).map fun _ => empty).congr fun c bytes => ?_
  exact ⟨fun ⟨_, h⟩ => h, fun h => ⟨(), h⟩⟩

theorem accepts_numberPayload :
    Reads.Accepts (do return number ⟨← fitting offset Cursor.quad⟩) fun c bytes =>
      ∃ q, bytes = quadBytes q ∧ number ⟨q⟩ = c :=
  (Cursor.accepts_quad.adapt _).map fun q => number ⟨q⟩

theorem accepts_textPayload :
    Reads.Accepts (do
      let count ← fitting offset Cursor.word
      let flags ← fitting offset Cursor.byte
      let bytes ← fitting offset (readUnitBytes count.toNat flags)
      match textOfUnitBytes? flags bytes with
      | some s => return text s
      | none => throw (.invalidText offset)) fun c bytes =>
        ∃ s, StoredPayload (text s) bytes ∧ text s = c := by
  have hword : Reads.Accepts (fitting offset Cursor.word) _ := Cursor.accepts_word.adapt _
  have hbyte : Reads.Accepts (fitting offset Cursor.byte) _ := Cursor.accepts_byte.adapt _
  refine (hword.bind fun count => hbyte.bind fun flags =>
    accepts_text _ count.toNat flags text _).congr fun c bytes => ?_
  constructor
  · rintro ⟨count, _, _, rfl, ⟨flags, _, raw, rfl, ⟨s, hraw, hcount, rfl⟩, rfl⟩, rfl⟩
    exact ⟨s, ⟨count, flags, raw, hraw, hcount, rfl⟩, rfl⟩
  · rintro ⟨s, ⟨count, flags, raw, hraw, hcount, rfl⟩, rfl⟩
    exact ⟨count, _, _, rfl, ⟨flags, _, raw, rfl, ⟨s, hraw, hcount, rfl⟩, rfl⟩, rfl⟩

theorem accepts_booleanPayload :
    Reads.Accepts (do
      let value ← fitting offset Cursor.byte
      fitting offset (Cursor.skip (fixedPayload - 1))
      if value = 0 then return boolean false
      else if value = 1 then return boolean true
      else throw (.invalidBoolean offset value)) fun c bytes =>
        ∃ b, StoredPayload (boolean b) bytes ∧ boolean b = c := by
  have hbyte : Reads.Accepts (fitting offset Cursor.byte) _ := Cursor.accepts_byte.adapt _
  have hskip : Reads.Accepts (fitting offset (Cursor.skip (fixedPayload - 1))) _ :=
    (Cursor.accepts_skip 7).adapt _
  refine (hbyte.bind fun value => hskip.bind fun _ =>
    accepts_truth boolean value _).congr fun c bytes => ?_
  constructor
  · rintro ⟨_, _, _, rfl, ⟨-, reserved, _, hreserved, ⟨⟨b, rfl, rfl⟩, rfl⟩, rfl⟩, rfl⟩
    exact ⟨b, ⟨reserved, hreserved, by simp⟩, rfl⟩
  · rintro ⟨b, ⟨reserved, hreserved, rfl⟩, rfl⟩
    exact ⟨b.toUInt8, _, reserved, rfl, ⟨(), reserved, [], hreserved, ⟨⟨b, rfl, rfl⟩, rfl⟩,
      by simp⟩, rfl⟩

theorem accepts_errorPayload :
    Reads.Accepts (do
      let value ← fitting offset Cursor.word
      fitting offset (Cursor.skip (fixedPayload - 2))
      return code value) fun c bytes =>
        ∃ n, StoredPayload (code n) bytes ∧ code n = c := by
  have hword : Reads.Accepts (fitting offset Cursor.word) _ := Cursor.accepts_word.adapt _
  have hskip : Reads.Accepts (fitting offset (Cursor.skip (fixedPayload - 2))) _ :=
    (Cursor.accepts_skip 6).adapt _
  refine (hword.bind fun value => hskip.map fun _ => code value).congr fun c bytes => ?_
  constructor
  · rintro ⟨value, _, reserved, rfl, ⟨-, hreserved, rfl⟩, rfl⟩
    exact ⟨value, ⟨reserved, hreserved, rfl⟩, rfl⟩
  · rintro ⟨value, ⟨reserved, hreserved, rfl⟩, rfl⟩
    exact ⟨value, _, reserved, rfl, ⟨(), hreserved, rfl⟩, rfl⟩

theorem accepts_readPayload (tag : UInt8) :
    Reads.Accepts (readPayload offset tag) fun c bytes => c.tag = tag ∧ StoredPayload c bytes := by
  refine .of_sound ?_ ?_
  · -- Kind by kind, as the tags are tried.
    rw [readPayload]
    refine .ite (fun h => ?_) fun _ => .ite (fun h => ?_) fun _ => .ite (fun h => ?_) fun _ =>
      .ite (fun h => ?_) fun _ => .ite (fun h => ?_) fun _ => .throw _ _
    all_goals subst h
    · refine (accepts_emptyPayload offset).mono ?_
      rintro c bytes ⟨hbytes, rfl⟩
      exact ⟨rfl, hbytes⟩
    · refine (accepts_numberPayload offset).mono ?_
      rintro c bytes ⟨q, rfl, rfl⟩
      exact ⟨rfl, rfl⟩
    · refine (accepts_textPayload offset).mono ?_
      rintro c bytes ⟨s, hbytes, rfl⟩
      exact ⟨rfl, hbytes⟩
    · refine (accepts_booleanPayload offset).mono ?_
      rintro c bytes ⟨b, hbytes, rfl⟩
      exact ⟨rfl, hbytes⟩
    · refine (accepts_errorPayload offset).mono ?_
      rintro c bytes ⟨n, hbytes, rfl⟩
      exact ⟨rfl, hbytes⟩
  · rintro c bytes k k' ⟨rfl, hbytes⟩ hk
    cases c with
    | empty => exact (accepts_emptyPayload offset).complete ⟨hbytes, rfl⟩ hk
    | number x => exact (accepts_numberPayload offset).complete ⟨x.bits, hbytes, rfl⟩ hk
    | text s => exact (accepts_textPayload offset).complete ⟨s, hbytes, rfl⟩ hk
    | boolean b => exact (accepts_booleanPayload offset).complete ⟨b, hbytes, rfl⟩ hk
    | code n => exact (accepts_errorPayload offset).complete ⟨n, hbytes, rfl⟩ hk

end

/-- **Reading a constant accepts exactly its stored forms.** -/
theorem accepts_read : Reads.Accepts read Stored := by
  have hbyte (offset : Nat) : Reads.Accepts (fitting offset Cursor.byte) _ :=
    Cursor.accepts_byte.adapt _
  refine .located fun offset => ((hbyte offset).bind fun tag =>
    accepts_readPayload offset tag).congr fun c bytes => ?_
  constructor
  · rintro ⟨_, _, payload, rfl, ⟨rfl, hpayload⟩, rfl⟩
    exact ⟨payload, hpayload, rfl⟩
  · rintro ⟨payload, hpayload, rfl⟩
    exact ⟨c.tag, _, payload, rfl, ⟨rfl, hpayload⟩, rfl⟩

/-! ### Writing -/

theorem toNat_toUInt16_length {us : List UInt16} (h : us.length ≤ maxTextUnits) :
    us.length.toUInt16.toNat = us.length :=
  toNat_toUInt16 (Nat.lt_succ_of_le h)

/-- **What is written is a stored form.** -/
theorem storedPayload_of_payload {c : Constant} {bytes : List UInt8} (h : c.payload = .ok bytes) :
    StoredPayload c bytes := by
  cases c with
  | empty =>
    cases h
    exact length_zeroBytes fixedPayload
  | number x =>
    cases h
    rfl
  | text s =>
    simp only [payload] at h
    split at h
    · next hlength =>
      cases h
      exact ⟨(units s).length.toUInt16, writtenFlag (units s), unitBytes (units s),
        storedAs_unitBytes s, (toNat_toUInt16_length hlength).symm, rfl⟩
    · cases h
  | boolean b =>
    cases h
    exact ⟨zeroBytes 7, length_zeroBytes 7, rfl⟩
  | code n =>
    cases h
    exact ⟨zeroBytes 6, length_zeroBytes 6, rfl⟩

/-- What was read can be written, and not any longer. -/
theorem StoredPayload.exists_payload {c : Constant} {bytes : List UInt8}
    (h : StoredPayload c bytes) :
    ∃ bytes', c.payload = .ok bytes' ∧ bytes'.length ≤ bytes.length := by
  cases c with
  | empty => exact ⟨_, rfl, by rw [length_zeroBytes, show bytes.length = 8 from h]; rfl⟩
  | number x =>
    obtain rfl : bytes = quadBytes x.bits := h
    exact ⟨_, rfl, Nat.le_refl _⟩
  | text s =>
    obtain ⟨count, flags, raw, hraw, hcount, rfl⟩ := h
    have hlength : (units s).length ≤ maxTextUnits := by
      rw [hcount]
      exact Nat.le_of_lt_succ count.toNat_lt
    refine ⟨_, if_pos hlength, ?_⟩
    have hle := hraw.length_unitBytes_le
    simp only [textBody, List.length_append, length_wordBytes, List.length_cons]
    omega
  | boolean b =>
    obtain ⟨reserved, hreserved, rfl⟩ := h
    refine ⟨_, rfl, ?_⟩
    rw [List.length_cons, List.length_cons, length_zeroBytes, hreserved]
    rfl
  | code n =>
    obtain ⟨reserved, hreserved, rfl⟩ := h
    refine ⟨_, rfl, ?_⟩
    rw [List.length_append, List.length_append, length_zeroBytes, hreserved]
    rfl

end Constant

end CellFormula
