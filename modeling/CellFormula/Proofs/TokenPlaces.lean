import CellFormula.Proofs.ConstantStream

/-!
# Where the parts of a formula stand

A token says how many bytes it has in the stream and how many behind it, and says so without being
written. A record declares the size of the stream, and memory tokens and jumps count in bytes of
tokens; all of that is computed from what the tokens say. Here it is what was written: the token
with a given index begins where the sizes of the tokens before it end, and so does its literal among
the literals.

## Joined formulas

Nothing but these places depends on what else is in a formula. So two formulas that are joined are
stored as both streams and then both runs of literals. For writing, this is an equivalence: only the
declared size can fail to fit when both formulas do. For reading, it holds of every stored form and
not only of the one that writing gives, provided that no bytes are left over between the two.

## Main definitions

* `StandsAt` — a piece at a place of a buffer
* `Formula.tokenPlace`, `Formula.literalPlace` — the sizes of the parts before a token
* `Encoded.ReadsAs`, `Encoded.append`

## Main results

* `Token.length_of_literalBytes` — the size of a literal
* `Layout.each.standsAt` — a piece stands behind the sizes of the pieces before it
* `Formula.places_of_encode` — sizes and places of what is written
* `Formula.encode_and_decode_append` — joined formulas are stored joined
-/

namespace CellFormula

/-! ### Sizes of literals -/

theorem Constant.length_of_bytes {c : Constant} {stored : List UInt8} (h : c.bytes = .ok stored) :
    stored.length = 1 + c.payloadSize := by
  obtain ⟨payload, hpayload, rfl⟩ := bytes_eq_ok.mp h
  rw [List.length_cons, length_of_payload hpayload, Nat.add_comm]

theorem length_of_arrayBytes {m : Matrix Constant} {bytes : List UInt8}
    (h : arrayBytes m = .ok bytes) : bytes.length = arraySize m := by
  obtain ⟨-, -, cells, hcells, rfl⟩ := arrayBytes_eq_ok.mp h
  have hsum : cells.flatten.length = (m.cells.toList.map fun c => 1 + c.payloadSize).sum :=
    Layout.length_of_each ⟨cells, hcells, rfl⟩ fun _ _ => Constant.length_of_bytes
  rw [List.length_append, List.length_cons, length_wordBytes, hsum]
  rfl

theorem length_of_areaListBytes {areas : List MemRange} {bytes : List UInt8}
    (h : areaListBytes areas = .ok bytes) : bytes.length = 2 + 8 * areas.length := by
  rw [areaListBytes] at h
  split at h
  · cases h
    have hrange (r : MemRange) : r.bytes.length = 8 := rfl
    simp only [List.length_append, length_wordBytes, List.length_flatMap, hrange, List.map_const',
      List.sum_replicate_nat]
    omega
  · cases h

namespace Token

/-- **What a token has behind the stream has the size that the token says it has.** -/
theorem length_of_literalBytes {t : Token} {payload : List UInt8}
    (h : t.literalBytes = .ok payload) : payload.length = t.trailingSize := by
  cases t with
  | array cells cls =>
    cases cells with
    | none => cases h
    | some m => exact length_of_arrayBytes h
  | mem m cls =>
    cases m with
    | area size areas =>
      cases areas with
      | none => cases h
      | some areas => exact length_of_areaListBytes h
    | _ => cases h; rfl
  | _ => cases h; rfl

/-- A literal that is written has bytes: a shape or a count at the least. -/
theorem trailingSize_eq_zero_iff {t : Token} {payload : List UInt8}
    (h : t.literalBytes = .ok payload) : t.trailingSize = 0 ↔ t.hasTrailing = false := by
  cases t with
  | array cells cls =>
    cases cells with
    | none => cases h
    | some m => simp [trailingSize, hasTrailing, arraySize]
  | mem m cls =>
    cases m with
    | area size areas =>
      cases areas with
      | none => cases h
      | some areas => simp [trailingSize, hasTrailing]
    | _ => exact iff_of_true rfl rfl
  | _ => exact iff_of_true rfl rfl

end Token

/-! ### Places -/

/-- The piece stands in the buffer, with so many bytes before it. -/
def StandsAt (bytes : List UInt8) (place : Nat) (piece : List UInt8) : Prop :=
  ∃ before after, bytes = before ++ piece ++ after ∧ before.length = place

theorem StandsAt.head {bytes piece : List UInt8} {place : Nat} {b : UInt8}
    (h : StandsAt bytes place (b :: piece)) : bytes[place]? = some b := by
  obtain ⟨before, after, rfl, rfl⟩ := h
  simp

/-- An element of a list, with those before and those behind it. -/
theorem eq_take_append_of_getElem? {α : Type} {as : List α} {index : Nat} {a : α}
    (h : as[index]? = some a) : as = as.take index ++ a :: as.drop (index + 1) := by
  obtain ⟨hlt, rfl⟩ := List.getElem?_eq_some_iff.mp h
  rw [List.getElem_cons_drop, List.take_append_drop]

/-- **A piece stands behind the sizes of the pieces before it.** -/
theorem Layout.each.standsAt {α : Type} {layout : Layout α} {size : α → Nat} {as : List α}
    {bytes : List UInt8} (h : layout.each as bytes)
    (hsize : ∀ a piece, layout a piece → piece.length = size a) {index : Nat} {a : α}
    (ha : as[index]? = some a) :
    ∃ piece, layout a piece ∧ StandsAt bytes ((as.take index).map size).sum piece := by
  rw [eq_take_append_of_getElem? ha, each_append] at h
  obtain ⟨before, _, hbefore, hrest, rfl⟩ := h
  obtain ⟨piece, after, hpiece, -, rfl⟩ := each_cons.mp hrest
  refine ⟨piece, hpiece, before, after, (List.append_assoc ..).symm, ?_⟩
  exact length_of_each hbefore hsize

namespace Formula

/-- Where the token with this index begins in the stream. -/
def tokenPlace (f : Formula) (index : Nat) : Nat := ((f.take index).map Token.streamSize).sum

/-- Where the literal of the token with this index begins behind the stream. -/
def literalPlace (f : Formula) (index : Nat) : Nat :=
  ((f.take index).map Token.trailingSize).sum

/-- **Predicted sizes are written sizes.** When a formula is written, both segments have the sizes
that the tokens say they have. Each token has its opcode, and its fields behind it, where the sizes
of the tokens before it end, and so has its literal among the literals. Nothing is behind the stream
exactly when no token has a literal. -/
theorem places_of_encode {f : Formula} {e : Encoded} (h : encode f = .ok e) :
    e.declared = f.streamSize ∧ f.streamSize = (f.map Token.streamSize).sum ∧
      e.trailing.length = (f.map Token.trailingSize).sum ∧
      (∀ index t, f[index]? = some t → e.stream[f.tokenPlace index]? = some t.opcode ∧
        (∃ piece, t.streamBytes = .ok piece ∧ piece.length = t.streamSize ∧
          StandsAt e.stream (f.tokenPlace index) piece) ∧
        ∃ payload, t.literalBytes = .ok payload ∧ payload.length = t.trailingSize ∧
          StandsAt e.trailing (f.literalPlace index) payload) ∧
      (e.trailing = [] ↔ ∀ t ∈ f, t.hasTrailing = false) := by
  obtain ⟨hstream, -, htrailing⟩ := encode_eq_ok_iff.mp h
  have hlength := length_of_writeEach hstream
  rw [writeEach_eq_ok_iff_each] at hstream htrailing
  have htotal : e.trailing.length = (f.map Token.trailingSize).sum :=
    Layout.length_of_each htrailing fun _ _ => Token.length_of_literalBytes
  refine ⟨hlength, rfl, htotal, fun index t ht => ?_, ?_⟩
  · obtain ⟨piece, hpiece, hplace⟩ := hstream.standsAt (fun _ _ => Token.length_of_streamBytes) ht
    obtain ⟨payload, hpayload, hplace'⟩ :=
      htrailing.standsAt (fun _ _ => Token.length_of_literalBytes) ht
    refine ⟨?_, ⟨piece, hpiece, Token.length_of_streamBytes hpiece, hplace⟩,
      payload, hpayload, Token.length_of_literalBytes hpayload, hplace'⟩
    obtain ⟨fields, -, rfl⟩ := Token.streamBytes_eq_ok.mp hpiece
    exact hplace.head
  · obtain ⟨payloads, hpayloads, -⟩ := htrailing
    have hzero (t : Token) (ht : t ∈ f) : t.trailingSize = 0 ↔ t.hasTrailing = false := by
      obtain ⟨payload, hpayload⟩ := exists_of_forall₂ hpayloads t ht
      exact Token.trailingSize_eq_zero_iff hpayload
    rw [← List.length_eq_zero_iff, htotal, List.sum_eq_zero_iff, List.forall_mem_map]
    exact forall_congr' fun t => forall_congr' (hzero t)

/-- A wide text, an array, a choice and an area list: the choice begins thirteen bytes into the
stream, and the area list eight bytes behind it. -/
theorem places_of_encode_choice :
    let f : Formula := [.literal (.text "€"), .array (some ⟨1, 1, #[.text "é"]⟩) .array,
      .hint (.choose [4, 8]), .mem (.area 3 (some [⟨0, 3, 1, 1⟩])) .reference]
    ∃ e, encode f = .ok e ∧ e.declared = 28 ∧ e.trailing.length = 18 ∧
      e.stream[13]? = some 0x19 ∧ StandsAt e.trailing 8 [1, 0, 0, 0, 3, 0, 1, 0, 1, 0] := by
  intro f
  obtain ⟨e, he⟩ : ∃ e, encode f = .ok e := ⟨_, by cbv⟩
  obtain ⟨hdeclared, -, htrailing, hplaces, -⟩ := places_of_encode he
  obtain ⟨hchoice, -, -⟩ := hplaces 2 _ rfl
  obtain ⟨-, -, payload, hpayload, -, hareas⟩ := hplaces 3 _ rfl
  cases hpayload
  exact ⟨e, he, hdeclared, htrailing, hchoice, hareas⟩

end Formula

/-! ### Joined formulas -/

namespace Encoded

/-- The two segments of one formula, each followed by that of another one. -/
def append (e e' : Encoded) : Encoded := ⟨e.stream ++ e'.stream, e.trailing ++ e'.trailing⟩

/-- The two segments are read as the formula, to their last byte. -/
def ReadsAs (e : Encoded) (f : Formula) : Prop :=
  Formula.decodeCounting e.bytes e.declared = .ok (f, e.bytes.length)

/-- What is read to the last byte is a stored form of each part and nothing else. -/
theorem readsAs_iff {e : Encoded} {f : Formula} :
    e.ReadsAs f ↔ Layout.each Token.Stored f e.stream ∧
      Layout.each Token.StoredLiteral f e.trailing := by
  rw [ReadsAs, Formula.decodeCounting_eq_ok_iff, bytes, declared, List.take_left, List.drop_left,
    List.length_append]
  constructor
  · rintro ⟨-, hstream, payload, hpayload, hprefix, hlength⟩
    obtain rfl := hprefix.eq_of_length (Nat.add_left_cancel hlength).symm
    exact ⟨hstream, hpayload⟩
  · rintro ⟨hstream, htrailing⟩
    exact ⟨Nat.le_add_right _ _, hstream, e.trailing, htrailing, List.prefix_rfl, rfl⟩

theorem ReadsAs.decode_eq {e : Encoded} {f : Formula} (h : e.ReadsAs f) :
    Formula.decode e.bytes e.declared = .ok f :=
  Formula.decode_eq_ok_iff.mpr ⟨_, h⟩

/-- **Stored forms can be joined**, whatever their reserved bytes are. -/
theorem ReadsAs.append {e e' : Encoded} {f f' : Formula} (h : e.ReadsAs f) (h' : e'.ReadsAs f') :
    (e.append e').ReadsAs (f ++ f') := by
  obtain ⟨hstream, htrailing⟩ := readsAs_iff.mp h
  obtain ⟨hstream', htrailing'⟩ := readsAs_iff.mp h'
  exact readsAs_iff.mpr ⟨Layout.each_append.mpr ⟨_, _, hstream, hstream', rfl⟩,
    Layout.each_append.mpr ⟨_, _, htrailing, htrailing', rfl⟩⟩

end Encoded

namespace Formula

/-- A joined formula is written when both parts are and both streams together are not too long. -/
theorem encode_append_iff {f f' : Formula} {joined : Encoded} :
    encode (f ++ f') = .ok joined ↔ ∃ e e', encode f = .ok e ∧ encode f' = .ok e' ∧
      e.declared + e'.declared ≤ maxStreamSize ∧ joined = e.append e' := by
  simp only [encode_eq_ok_iff, writeEach_eq_ok_iff_each, Layout.each_append]
  constructor
  · rintro ⟨⟨xs, xs', hxs, hxs', hstream⟩, hsize, us, us', hus, hus', htrailing⟩
    rw [← hstream, List.length_append] at hsize
    -- Each part alone would have been written: it is not longer than both.
    have hle : xs.length ≤ maxStreamSize := Nat.le_trans (Nat.le_add_right _ _) hsize
    have hle' : xs'.length ≤ maxStreamSize := Nat.le_trans (Nat.le_add_left _ _) hsize
    refine ⟨⟨xs, us⟩, ⟨xs', us'⟩, ⟨hxs, hle, hus⟩, ⟨hxs', hle', hus'⟩, hsize, ?_⟩
    rw [Encoded.append, hstream, htrailing]
  · rintro ⟨e, e', ⟨hstream, -, htrailing⟩, ⟨hstream', -, htrailing'⟩, hsize, rfl⟩
    refine ⟨⟨_, _, hstream, hstream', rfl⟩, ?_, _, _, htrailing, htrailing', rfl⟩
    rwa [Encoded.append, List.length_append]

/-- **Joined formulas are stored joined.** Two formulas, one after the other, are written as both
streams and then both runs of literals, and only if each of them is written and the size of both
streams together can be declared. And any stored forms of two formulas that are read to their last
bytes can be put together in this way: what they make is read as both formulas, one after the other,
again to the last byte. -/
theorem encode_and_decode_append (f f' : Formula) :
    (∀ joined, encode (f ++ f') = .ok joined ↔ ∃ e e', encode f = .ok e ∧ encode f' = .ok e' ∧
      e.declared + e'.declared ≤ maxStreamSize ∧
      joined = ⟨e.stream ++ e'.stream, e.trailing ++ e'.trailing⟩) ∧
    ∀ stream stream' trailing trailing' : List UInt8,
      decodeCounting (stream ++ trailing) stream.length
          = .ok (f, (stream ++ trailing).length) →
      decodeCounting (stream' ++ trailing') stream'.length
          = .ok (f', (stream' ++ trailing').length) →
      let bytes := stream ++ stream' ++ (trailing ++ trailing')
      let declared := stream.length + stream'.length
      decodeCounting bytes declared = .ok (f ++ f', bytes.length) ∧
        decode bytes declared = .ok (f ++ f') := by
  refine ⟨fun joined => encode_append_iff, fun stream stream' trailing trailing' h h' => ?_⟩
  have hjoined : (Encoded.append ⟨stream, trailing⟩ ⟨stream', trailing'⟩).ReadsAs (f ++ f') :=
    Encoded.ReadsAs.append h h'
  intro bytes declared
  have hdeclared : declared = (stream ++ stream').length := List.length_append.symm
  rw [hdeclared]
  exact ⟨hjoined, hjoined.decode_eq⟩

/-- Two arrays with reserved bytes that are not zero, one of them behind a text that is stored wider
than it has to be: both arrays are read in their order, and written with zeros. -/
theorem encode_and_decode_append_arrays :
    let f : Formula := [.array (some ⟨1, 1, #[.boolean true]⟩) .array]
    let f' : Formula := [.literal (.text "a"), .array (some ⟨1, 1, #[.text "é"]⟩) .value]
    let stream : List UInt8 := [0x60, 9, 9, 9, 9, 9, 9, 9]
    let stream' : List UInt8 := [0x17, 1, 0xFF, 0x61, 0, 0x40, 9, 9, 9, 9, 9, 9, 9]
    let trailing : List UInt8 := [0, 0, 0, 0x04, 1, 9, 9, 9, 9, 9, 9, 9]
    let trailing' : List UInt8 := [0, 0, 0, 0x02, 1, 0, 0x80, 0xE9]
    decodeCounting (stream ++ trailing) 8 = .ok (f, 20) ∧
      decodeCounting (stream' ++ trailing') 13 = .ok (f', 21) ∧
      decode (stream ++ stream' ++ (trailing ++ trailing')) 21 = .ok (f ++ f') ∧
      ∃ joined, encode (f ++ f') = .ok joined ∧ joined.declared = 20 := by
  intro f f' stream stream' trailing trailing'
  have hread : decodeCounting (stream ++ trailing) 8 = .ok (f, 20) := by cbv
  have hread' : decodeCounting (stream' ++ trailing') 13 = .ok (f', 21) := by cbv
  obtain ⟨hencode, hdecode⟩ := encode_and_decode_append f f'
  obtain ⟨-, hjoined⟩ := hdecode stream stream' trailing trailing' hread hread'
  obtain ⟨e, he, hsize⟩ : ∃ e, encode f = .ok e ∧ e.declared = 8 := ⟨_, by cbv, rfl⟩
  obtain ⟨e', he', hsize'⟩ : ∃ e', encode f' = .ok e' ∧ e'.declared = 12 := ⟨_, by cbv, rfl⟩
  have hfits : e.declared + e'.declared ≤ maxStreamSize := by
    rw [hsize, hsize']
    decide
  refine ⟨hread, hread', hjoined, _, (hencode _).mpr ⟨e, e', he, he', hfits, rfl⟩, ?_⟩
  rw [Encoded.declared, List.length_append]
  exact congrArg₂ (· + ·) hsize hsize'

end Formula

end CellFormula
