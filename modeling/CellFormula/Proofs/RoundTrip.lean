import CellFormula.Proofs.WrittenToken

/-!
# Writing and reading formulas

Writing a formula and reading it back gives the same formula, and whatever could be read can be
written again. Both go through `Formula.Split`: what is written is a split of itself, and a split
says of each token and of each literal that it has a stored form.

## Why the second statement is not a consequence of the first

A buffer that was read may hold reserved bytes that are not zero and texts that are stored wider
than they have to be. So it is not what would be written for its formula, and may be longer. What
has to be shown is that none of the checks of writing fails, which are checks on arities, on numbers
of jumps, on lengths of texts and lists, on shapes, and on the size of the stream.

## Main results

* `Formula.split_of_encode`, `Formula.Split.exists_encode`
* `Formula.decode_encode` — what is written is read back
* `Formula.exists_encode_of_decode` — what was read is written again, and not any longer
-/

namespace CellFormula

/-- The pieces are what is written for the tokens, one by one. -/
theorem writeEach_eq_ok_iff {write : Token → Except WriteFault (List UInt8)} {index : Nat}
    {done : List (List UInt8)} {f : List Token} {bytes : List UInt8} :
    writeEach write index done f = .ok bytes ↔
      ∃ pieces, List.Forall₂ (fun t piece => write t = .ok piece) f pieces ∧
        bytes = (done.reverse ++ pieces).flatten := by
  induction f generalizing index done with
  | nil =>
    constructor
    · intro h
      cases h
      exact ⟨[], .nil, by rw [List.append_nil]⟩
    · rintro ⟨pieces, hpieces, rfl⟩
      rw [List.forall₂_nil_left_iff.mp hpieces, List.append_nil]
      rfl
  | cons t f ih =>
    rw [writeEach]
    cases ht : write t with
    | error fault =>
      constructor
      · intro h
        cases h
      · rintro ⟨pieces, hpieces, -⟩
        obtain ⟨piece, _, hpiece, -⟩ := List.forall₂_cons_left_iff.mp hpieces
        rw [ht] at hpiece
        cases hpiece
    | ok piece =>
      rw [ih]
      constructor
      · rintro ⟨pieces, hpieces, rfl⟩
        exact ⟨piece :: pieces, .cons ht hpieces, by simp⟩
      · rintro ⟨pieces, hpieces, rfl⟩
        obtain ⟨piece', pieces', hpiece, hpieces', rfl⟩ := List.forall₂_cons_left_iff.mp hpieces
        rw [ht] at hpiece
        cases hpiece
        exact ⟨pieces', hpieces', by simp⟩

/-- So what a pass writes is a stored form of the list, if what it writes for a token is one. -/
theorem writeEach_eq_ok_iff_each {write : Token → Except WriteFault (List UInt8)} {f : List Token}
    {bytes : List UInt8} :
    writeEach write 0 [] f = .ok bytes ↔
      Layout.each (fun t piece => write t = .ok piece) f bytes := by
  rw [writeEach_eq_ok_iff, Layout.each]
  exact exists_congr fun pieces => and_congr_right fun _ => eq_comm

namespace Formula

/-- Both passes succeed, and the size of the stream can be declared. -/
theorem encode_eq_ok_iff {f : Formula} {e : Encoded} :
    encode f = .ok e ↔ writeEach Token.streamBytes 0 [] f = .ok e.stream ∧
      e.stream.length ≤ maxStreamSize ∧ writeEach Token.literalBytes 0 [] f = .ok e.trailing := by
  rw [encode]
  constructor
  · intro h
    obtain ⟨stream, hstream, h⟩ := except_bind_eq_ok.mp h
    by_cases hlong : maxStreamSize < stream.length
    · rw [if_pos hlong] at h
      cases h
    · rw [if_neg hlong] at h
      obtain ⟨trailing, htrailing, h⟩ := except_bind_eq_ok.mp h
      cases h
      exact ⟨hstream, Nat.not_lt.mp hlong, htrailing⟩
  · rintro ⟨hstream, hsize, htrailing⟩
    refine except_bind_eq_ok.mpr ⟨e.stream, hstream, ?_⟩
    rw [if_neg (Nat.not_lt.mpr hsize)]
    exact except_bind_eq_ok.mpr ⟨e.trailing, htrailing, rfl⟩

/-- **What is written is a split of itself**, with anything behind it. -/
theorem split_of_encode {f : Formula} {e : Encoded} (hs : ∀ t ∈ f, t.Storable)
    (h : encode f = .ok e) (extra : List UInt8) :
    ∃ pieces payloads, f.Split (e.bytes ++ extra) e.declared pieces payloads := by
  obtain ⟨hstream, -, htrailing⟩ := encode_eq_ok_iff.mp h
  obtain ⟨pieces, hpieces, hflat⟩ := writeEach_eq_ok_iff.mp hstream
  obtain ⟨payloads, hpayloads, hflat'⟩ := writeEach_eq_ok_iff.mp htrailing
  have hbytes : e.bytes ++ extra = e.stream ++ (e.trailing ++ extra) := by
    rw [Encoded.bytes, List.append_assoc]
  refine ⟨pieces, payloads, ?_, ?_, ?_, ?_, ?_⟩
  · rw [hbytes, List.length_append]
    exact Nat.le_add_right _ _
  · refine ((List.forall₂_and_left _ _).mpr ⟨hs, hpieces⟩).imp ?_
    rintro t piece ⟨ht, hpiece⟩
    exact Token.stored_of_streamBytes ht hpiece
  · rw [hbytes, Encoded.declared, List.take_left]
    exact hflat.symm
  · refine ((List.forall₂_and_left _ _).mpr ⟨hs, hpayloads⟩).imp ?_
    rintro t payload ⟨ht, hpayload⟩
    exact Token.storedLiteral_of_literalBytes ht hpayload
  · rw [hbytes, Encoded.declared, List.drop_left, hflat']
    exact List.prefix_append _ _

/-- Every token of a stored formula keeps the promises of its type. -/
theorem Split.storable {bytes : List UInt8} {declared : Nat} {f : Formula}
    {pieces payloads : List (List UInt8)} (h : f.Split bytes declared pieces payloads) :
    ∀ t ∈ f, t.Storable := by
  intro t ht
  obtain ⟨piece, hpiece⟩ := exists_of_forall₂ h.tokens t ht
  obtain ⟨payload, hpayload⟩ := exists_of_forall₂ h.literals t ht
  exact Token.storable_of_stored hpiece hpayload

/-- **A stored formula can be written**, and neither of its two parts gets longer. -/
theorem Split.exists_encode {bytes : List UInt8} {declared : Nat} {f : Formula}
    {pieces payloads : List (List UInt8)} (h : f.Split bytes declared pieces payloads)
    (hsize : declared ≤ maxStreamSize) :
    ∃ e, encode f = .ok e ∧ e.declared ≤ declared ∧
      e.trailing.length ≤ payloads.flatten.length := by
  obtain ⟨pieces', hpieces', hstream⟩ := Layout.exists_shorter h.tokens
    fun t piece ht => Token.Stored.exists_streamBytes ht
  obtain ⟨payloads', hpayloads', htrailing⟩ := Layout.exists_shorter h.literals
    fun t payload ht => Token.StoredLiteral.exists_literalBytes ht
  have hdeclared : pieces'.flatten.length ≤ declared := by
    calc pieces'.flatten.length ≤ pieces.flatten.length := hstream
      _ = (bytes.take declared).length := by rw [h.stream]
      _ ≤ declared := List.length_take_le _ _
  refine ⟨⟨pieces'.flatten, payloads'.flatten⟩, ?_, hdeclared, htrailing⟩
  exact encode_eq_ok_iff.mpr ⟨writeEach_eq_ok_iff.mpr ⟨pieces', hpieces', rfl⟩,
    Nat.le_trans hdeclared hsize, writeEach_eq_ok_iff.mpr ⟨payloads', hpayloads', rfl⟩⟩

/-- **What is written is read back**, whatever lies behind it. -/
theorem decode_encode {f : Formula} {e : Encoded} (hs : ∀ t ∈ f, t.Storable)
    (h : encode f = .ok e) (extra : List UInt8) :
    decode (e.bytes ++ extra) e.declared = .ok f := by
  obtain ⟨pieces, payloads, hsplit⟩ := split_of_encode hs h extra
  exact hsplit.decode_eq

/-- A text that needs wide units, an array, an offset of a shared formula, and a flagged call. -/
theorem decode_encode_mixed :
    let f : Formula := [.literal (.text "né€"),
      .array (some ⟨1, 2, #[.text "é", .number ⟨0x7FF8000000000001⟩]⟩) .array,
      .reference (.sharedCell ⟨0xFFFF, 0x3FFF, true, false⟩) .value,
      .call (.counted 4 3 false true) .value]
    (∀ t ∈ f, t.Storable) ∧
      ∃ e, encode f = .ok e ∧ ∀ extra, decode (e.bytes ++ extra) e.declared = .ok f := by
  intro f
  have hs : ∀ t ∈ f, t.Storable := by
    intro t ht
    simp only [f, List.mem_cons, List.not_mem_nil, or_false] at ht
    rcases ht with rfl | rfl | rfl | rfl
    · exact ⟨nofun, nofun, nofun⟩
    · refine ⟨nofun, nofun, ?_⟩
      rintro m cls ⟨⟩
      decide
    · refine ⟨?_, nofun, nofun⟩
      rintro r cls ⟨⟩
      decide
    · exact ⟨nofun, nofun, nofun⟩
  have hencode : ∃ e, encode f = .ok e := ⟨_, by cbv⟩
  obtain ⟨e, he⟩ := hencode
  exact ⟨hs, e, he, fun extra => decode_encode hs he extra⟩

/-- **What was read is written again**, and read back once more. Neither the stream nor what lies
behind it gets longer. -/
theorem exists_encode_of_decode {bytes : List UInt8} {declared : Nat} {f : Formula}
    (h : decode bytes declared = .ok f) (hsize : declared ≤ maxStreamSize) :
    ∃ e n, encode f = .ok e ∧ decodeCounting bytes declared = .ok (f, n) ∧
      e.declared ≤ declared ∧ declared + e.trailing.length ≤ n ∧
      decode e.bytes e.declared = .ok f := by
  obtain ⟨n, hn⟩ := decode_eq_ok_iff.mp h
  obtain ⟨pieces, payloads, hsplit, hcount⟩ := decodeCounting_eq_ok_iff_split.mp hn
  obtain ⟨e, hencode, hdeclared, htrailing⟩ := hsplit.exists_encode hsize
  obtain ⟨_, _, hsplit'⟩ := split_of_encode hsplit.storable hencode []
  rw [List.append_nil] at hsplit'
  refine ⟨e, n, hencode, hn, hdeclared, ?_, hsplit'.decode_eq⟩
  rw [hcount]
  exact Nat.add_le_add_left htrailing declared

/-- Reserved bytes that are not zero, and texts that are stored wider than they have to be. -/
theorem exists_encode_of_decode_wide :
    let bytes : List UInt8 := [0x17, 1, 0xFF, 0x61, 0, 0x60, 9, 9, 9, 9, 9, 9, 9,
      0, 0, 0, 0x02, 1, 0, 0x81, 0xE9, 0, 77]
    let f : Formula := [.literal (.text "a"), .array (some ⟨1, 1, #[.text "é"]⟩) .array]
    decode bytes 13 = .ok f ∧ 13 ≤ maxStreamSize ∧
      ∃ e n, encode f = .ok e ∧ decodeCounting bytes 13 = .ok (f, n) ∧ e.declared ≤ 13 ∧
        13 + e.trailing.length ≤ n ∧ decode e.bytes e.declared = .ok f := by
  intro bytes f
  have hdecode : decode bytes 13 = .ok f := by cbv
  have hsize : 13 ≤ maxStreamSize := by decide
  exact ⟨hdecode, hsize, exists_encode_of_decode hdecode hsize⟩

end Formula

end CellFormula
