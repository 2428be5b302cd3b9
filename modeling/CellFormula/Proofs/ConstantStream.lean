import CellFormula.Proofs.WriteFaults

/-!
# Constants one after the other

Constants are appended to a buffer one by one and read from it one by one, and nothing stands
between two of them. So each has to end where the next one begins: what is appended is exactly as
long as `Constant.payloadSize` says, and a read stops right behind it. Any number of constants is
then read back, whatever the buffer held before and whatever follows.

## Why the buffer outlives a failure

A text that is too long fails when its tag is already in the buffer. `Constant.append` is a step in
a state monad that keeps its state on failure, like a read, so the tag stays. A write that fails is
therefore not undone: whoever goes on with the buffer has one byte in it that begins no constant
(`Constant.tag_of_long_text`). Nothing else is left behind, and a length is the only thing that a
write can fail of.

## Main definitions

* `Constant.append` — a constant at the end of a buffer

## Main results

* `Constant.length_of_payload` — the size of what is written
* `Constant.exists_append` — a constant that can be written grows the buffer by that size
* `Constant.append_verdict` — when a constant is appended, and what is left when it is not
* `Constant.times_read_appended` — constants that were appended are read back
-/

namespace CellFormula.Constant

open Text (units)

/-- Append a constant to a buffer. After a failure the buffer ends with what was written up to
it. -/
def append (c : Constant) : EStateM TextTooLong (List UInt8) Unit := fun buffer =>
  match c.write with
  | ⟨bytes, none⟩ => .ok () (buffer ++ bytes)
  | ⟨bytes, some failure⟩ => .error failure (buffer ++ bytes)

/-! ### One constant -/

/-- **A payload has the size that the constant says.** -/
theorem length_of_payload {c : Constant} {bytes : List UInt8} (h : c.payload = .ok bytes) :
    bytes.length = c.payloadSize := by
  cases c with
  | text s =>
    simp only [payload] at h
    split at h
    · cases h
      rw [List.length_append, length_wordBytes, length_textBody, payloadSize]
      omega
    · cases h
  | _ => cases h; rfl

/-- **A constant that can be written is appended as a stored form of it**, of the size that the
constant says, behind whatever the buffer holds. -/
theorem exists_append {c : Constant} (h : c.Fits) :
    ∃ stored, c.Stored stored ∧ stored.length = 1 + c.payloadSize ∧
      ∀ buffer, c.append buffer = .ok () (buffer ++ stored) := by
  obtain ⟨stored, hstored⟩ := bytes_of_fits h
  obtain ⟨payload, hpayload, rfl⟩ := bytes_eq_ok.mp hstored
  refine ⟨c.tag :: payload, stored_of_bytes hstored, ?_, fun buffer => ?_⟩
  · rw [List.length_cons, length_of_payload hpayload, Nat.add_comm]
  · rw [append, write, hpayload]

/-- **A text that is too long leaves its tag** and nothing else. -/
theorem append_of_long {s : String} (h : maxTextUnits < (units s).length) (buffer : List UInt8) :
    (text s).append buffer
      = .error ⟨(units s).length, maxTextUnits⟩ (buffer ++ [textTag]) := by
  rw [append, write, payload, if_neg (Nat.not_le.mpr h)]
  rfl

/-- **When a constant is appended, and what is left when it is not.** A constant that can be written
grows the buffer by a tag and the size of the constant. Only a text fails, when it has more units
than can be counted. The failure says how many it has, and the buffer has then grown by the tag of a
text, whatever was in it before. -/
theorem append_verdict (c : Constant) (buffer : List UInt8) :
    ((∃ grown, c.append buffer = .ok () grown) ↔ c.Fits) ∧
      (∀ grown, c.append buffer = .ok () grown →
        ∃ piece, grown = buffer ++ piece ∧ piece.length = 1 + c.payloadSize) ∧
      ∀ failure grown, c.append buffer = .error failure grown ↔
        ∃ s, c = text s ∧ maxTextUnits < (units s).length ∧
          failure = ⟨(units s).length, maxTextUnits⟩ ∧ grown = buffer ++ [textTag] := by
  by_cases hfits : c.Fits
  · obtain ⟨piece, -, hlength, happend⟩ := exists_append hfits
    rw [happend]
    refine ⟨iff_of_true ⟨_, rfl⟩ hfits, fun grown h => ?_, fun failure grown => ?_⟩
    · cases h
      exact ⟨piece, rfl, hlength⟩
    · refine iff_of_false nofun ?_
      rintro ⟨s, rfl, hlong, -⟩
      exact Nat.not_le.mpr hlong hfits
  · obtain ⟨s, rfl, hlong⟩ := exists_long_of_not_fits hfits
    rw [append_of_long hlong]
    refine ⟨iff_of_false nofun hfits, nofun, fun failure grown => ?_⟩
    constructor
    · intro h
      cases h
      exact ⟨s, rfl, hlong, rfl, rfl⟩
    · rintro ⟨_, hs, -, rfl, rfl⟩
      cases hs
      rfl

theorem length_units_letters (count : Nat) :
    (units (String.ofList (List.replicate count 'a'))).length = count := by
  have hone : (Text.charUnits 'a').length = 1 := by decide
  rw [units, String.toList_ofList, List.length_flatMap, List.map_replicate, hone,
    List.sum_replicate_nat, Nat.mul_one]

/-- **A write that fails is not undone.** One letter more than can be counted, and the empty buffer
has a tag in it. -/
theorem tag_of_long_text :
    let letters := text (String.ofList (List.replicate 0x10000 'a'))
    letters.append [] = .error ⟨0x10000, 0xFFFF⟩ [0x02] ∧
      ¬ ∀ (c : Constant) (buffer : List UInt8),
        (∃ piece, c.append buffer = .ok () (buffer ++ piece) ∧
          piece.length = 1 + c.payloadSize) ∨
        ∃ failure, c.append buffer = .error failure buffer := by
  intro letters
  have hlength := length_units_letters 0x10000
  have hfails : letters.append [] = .error ⟨0x10000, 0xFFFF⟩ [0x02] := by
    have happend := append_of_long (s := String.ofList (List.replicate 0x10000 'a'))
      (by rw [hlength]; decide) []
    rwa [hlength] at happend
  refine ⟨hfails, fun hall => ?_⟩
  obtain ⟨piece, hok, -⟩ | ⟨failure, herror⟩ := hall letters []
  · rw [hfails] at hok
    cases hok
  · rw [hfails] at herror
    cases herror

/-! ### Many constants -/

/-- The piece that each constant adds to a buffer, and all pieces at its end. -/
theorem exists_pieces {cs : List Constant} (h : ∀ c ∈ cs, c.Fits) :
    ∃ pieces, List.Forall₂ Stored cs pieces ∧
      ∀ buffer, cs.forM append buffer = .ok () (buffer ++ pieces.flatten) := by
  induction cs with
  | nil => exact ⟨[], .nil, fun buffer => by rw [List.flatten_nil, List.append_nil]; rfl⟩
  | cons c cs ih =>
    obtain ⟨hc, hcs⟩ := List.forall_mem_cons.mp h
    obtain ⟨stored, hstored, -, happend⟩ := exists_append hc
    obtain ⟨pieces, hpieces, hrest⟩ := ih hcs
    refine ⟨stored :: pieces, .cons hstored hpieces, fun buffer => ?_⟩
    change EStateM.bind c.append (fun _ => cs.forM append) buffer = _
    rw [EStateM.bind, happend]
    change cs.forM append (buffer ++ stored) = _
    rw [hrest, List.flatten_cons, List.append_assoc]

/-- **Constants that were appended are read back.** Append constants, whose texts are not too long,
to a buffer. No write fails, and each of them grows the buffer by a tag and the size of its
constant. A cursor behind what the buffer held before reads as many constants, exactly these, and
stops right before whatever follows. -/
theorem times_read_appended {cs : List Constant} (h : ∀ c ∈ cs, c.Fits)
    (lead suffix : List UInt8) :
    ∃ buffer, cs.forM append lead = .ok () buffer ∧
      (∀ before c after, cs = before ++ c :: after →
        ∃ grown piece, before.forM append lead = .ok () grown ∧
          c.append grown = .ok () (grown ++ piece) ∧ piece.length = 1 + c.payloadSize) ∧
      Reads.times cs.length read (Cursor.opened (buffer ++ suffix) lead.length)
        = .ok cs ⟨buffer.length, suffix⟩ := by
  obtain ⟨pieces, hpieces, happend⟩ := exists_pieces h
  refine ⟨lead ++ pieces.flatten, happend lead, ?_, ?_⟩
  · rintro before c after rfl
    obtain ⟨hbefore, hrest⟩ := List.forall_mem_append.mp h
    obtain ⟨done, -, hdone⟩ := exists_pieces hbefore
    obtain ⟨piece, -, hlength, hpiece⟩ := exists_append (hrest c (List.mem_cons_self ..))
    exact ⟨_, piece, hdone lead, hpiece _, hlength⟩
  · refine (accepts_read.times cs.length).complete ⟨rfl, pieces, hpieces, rfl⟩ ?_
    rw [Cursor.opened, List.append_assoc, List.drop_left, List.length_append,
      Nat.min_eq_left (Nat.le_add_right _ _), List.length_append]
    exact Cursor.passes_mk _ _ _

/-- A text with a zero in it and one with a surrogate pair, behind a text tag that announces nothing
and before another one. -/
theorem times_read_appended_texts :
    let cs : List Constant := [.text "a\x00", .text "€𝄞", .boolean true]
    let lead : List UInt8 := [0x02, 0xFF]
    let buffer : List UInt8 := [0x02, 0xFF, 0x02, 2, 0, 0x00, 0x61, 0x00, 0x02, 3, 0, 0x01, 0xAC,
      0x20, 0x34, 0xD8, 0x1E, 0xDD, 0x04, 1, 0, 0, 0, 0, 0, 0, 0]
    (∀ c ∈ cs, c.Fits) ∧ cs.forM append lead = .ok () buffer ∧
      Reads.times 3 read (Cursor.opened (buffer ++ [0x02]) 2) = .ok cs ⟨27, [0x02]⟩ := by
  intro cs lead buffer
  have hfits : ∀ c ∈ cs, c.Fits := by
    have hnul : (units "a\x00").length ≤ maxTextUnits := by decide
    have hpair : (units "€𝄞").length ≤ maxTextUnits := by decide
    exact List.forall_mem_cons.mpr ⟨hnul, List.forall_mem_cons.mpr ⟨hpair,
      List.forall_mem_singleton.mpr trivial⟩⟩
  have hbuffer : cs.forM append lead = .ok () buffer := by cbv
  obtain ⟨_, hwritten, -, hread⟩ := times_read_appended hfits lead [0x02]
  cases hbuffer.symm.trans hwritten
  exact ⟨hfits, hbuffer, hread⟩

end CellFormula.Constant
