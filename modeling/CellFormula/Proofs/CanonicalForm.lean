import CellFormula.Proofs.RoundTrip

/-!
# Formulas in canonical form

Reading passes over some bytes without looking at them: the reserved bytes of tokens and constants,
and all bits but one of the flag byte of a text. It also takes a text with two bytes for each unit
when one would do. Writing sets reserved bytes to zero and gives each text the narrower form that it
has. So a buffer that was read is written again as it was exactly when it is *canonical*: its
reserved bytes are zero, and each flag byte is the one that the text calls for.

## Where a change could hide

A wide text that is written narrow makes everything behind it move, and two different buffers of
one size could still agree where they are compared. That they cannot is `Formula.Split.unique`: what
is written is a split of the same buffer, hence the split that reading found, and the comparison
falls apart into one for each token and each constant.

## Main definitions

* `Text.properFlag` — the flag byte that a text calls for
* `Token.reserved`, `Constant.reserved` — the reserved bytes of a stored form
* `Token.Canonical`, `Constant.Canonical`, `Token.CanonicalLiteral`

## Main results

* `Token.Stored.streamBytes_eq_iff`, `Token.StoredLiteral.literalBytes_eq_iff`
* `Formula.Split.encode_eq_iff` — the comparison of buffers falls apart
* `Formula.encode_eq_iff_canonical` — a buffer survives reading and writing exactly when it is
  canonical
-/

namespace CellFormula

open Text

/-! ### Canonical stored forms -/

/-- The flag byte that a text calls for: 1 when some unit does not fit into a byte. -/
def Text.properFlag (s : String) : UInt8 := if ∃ u ∈ units s, 0xFF < u then 1 else 0

/-- The text of a constant that is one. -/
def Constant.text? : Constant → Option String
  | text s => some s
  | _ => none

/-- The reserved bytes of a constant, among the bytes behind its tag. -/
def Constant.reserved : Constant → List UInt8 → List UInt8
  | empty, payload => payload
  | boolean _, payload => payload.drop 1
  | code _, payload => payload.drop 2
  | number _, _ | text _, _ => []

/-- The stored form of a constant is the one that writing gives. -/
structure Constant.Canonical (c : Constant) (stored : List UInt8) : Prop where
  /-- Reserved bytes are zero. -/
  reserved : ∀ b ∈ c.reserved stored.tail, b = 0
  /-- The flag byte of a text stands behind the count, which is a word. -/
  flag : ∀ s ∈ c.text?, stored.tail[2]? = some (properFlag s)

/-- The reserved bytes of a reference: all but the link to its sheet when it was deleted. -/
def Reference.reserved : Reference → List UInt8 → List UInt8
  | cellGone, fields | areaGone, fields => fields
  | sheetCellGone _, fields | sheetAreaGone _, fields => fields.drop 2
  | cell _, _ | area _, _ | sharedCell _, _ | sharedArea _, _ | sheetCell .., _ | sheetArea .., _ =>
    []

/-- The reserved bytes of a name: those behind its indices. -/
def NameRef.reserved : NameRef → List UInt8 → List UInt8
  | defined _, fields => fields.drop 2
  | external .., fields => fields.drop 4

/-- The reserved bytes of a memory token: those in front of its size. -/
def MemToken.reserved : MemToken → List UInt8 → List UInt8
  | area .., fields | noMem _, fields => fields.take 4
  | err .., fields => (fields.drop 1).take 3
  | func _, _ | sharedArea _, _ | sharedNoMem _, _ => []

/-- The text of a literal that is one. -/
def Literal.text? : Literal → Option String
  | text s => some s
  | _ => none

/-- The text of a token that is one. -/
def Token.text? : Token → Option String
  | literal l => l.text?
  | _ => none

/-- The reserved bytes of a token, among the fields behind its opcode. -/
def Token.reserved : Token → List UInt8 → List UInt8
  | reference r _, fields => r.reserved fields
  | name n _, fields => n.reserved fields
  | mem m _, fields => m.reserved fields
  | array .., fields => fields
  | _, _ => []

/-- The stored form of a token is the one that writing gives. -/
structure Token.Canonical (t : Token) (piece : List UInt8) : Prop where
  /-- Reserved bytes are zero. -/
  reserved : ∀ b ∈ t.reserved piece.tail, b = 0
  /-- The flag byte of a text stands behind the count, which is a byte. -/
  flag : ∀ s ∈ t.text?, piece.tail[1]? = some (properFlag s)

/-- The stored literal of a token is the one that writing gives. Of literals only arrays have any
choice: their constants, which stand behind three bytes of shape, are canonical one by one. -/
def Token.CanonicalLiteral : Token → List UInt8 → Prop
  | array (some m) _, payload => ∃ cells,
      List.Forall₂ (fun c stored => c.Stored stored ∧ c.Canonical stored) m.cells.toList cells ∧
        payload.drop 3 = cells.flatten
  | _, _ => True

/-! ### Reserved bytes and flags -/

/-- Nothing is asked of the flag byte where there is no text. -/
theorem forall_mem_of_eq_none {text? : Option String} (h : text? = none) (p : String → Prop) :
    ∀ s ∈ text?, p s := by
  intro s hs
  rw [h] at hs
  exact absurd hs (Option.not_mem_none s)

/-- Reserved bytes are written as they were read when they are zero. -/
theorem zeroBytes_eq_iff {count : Nat} {reserved : List UInt8} (h : reserved.length = count) :
    zeroBytes count = reserved ↔ ∀ b ∈ reserved, b = 0 := by
  rw [eq_comm, zeroBytes, List.eq_replicate_iff, and_iff_right h]

theorem Text.properFlag_eq (s : String) : properFlag s = writtenFlag (units s) := by
  rw [properFlag, writtenFlag, isNarrow]
  by_cases h : ∃ u ∈ units s, 0xFF < u
  · obtain ⟨u, hu, hwide⟩ := h
    rw [if_pos ⟨u, hu, hwide⟩, if_neg]
    · rfl
    · intro hall
      have hnarrow : u ≤ 0xFF := decide_eq_true_eq.mp (List.all_eq_true.mp hall u hu)
      exact absurd hwide (UInt16.not_lt.mpr hnarrow)
  · rw [if_neg h, if_pos]
    rw [List.all_eq_true]
    intro u hu
    exact decide_eq_true (UInt16.not_lt.mp fun hwide => h ⟨u, hu, hwide⟩)

/-- The units of a text are stored in one way for each flag byte. -/
theorem Text.StoredAs.unique {s : String} {flags : UInt8} {raw raw' : List UInt8}
    (h : StoredAs s flags raw) (h' : StoredAs s flags raw') : raw = raw' := by
  rw [StoredAs] at h h'
  split at h
  · next hnarrow =>
    rw [if_pos hnarrow, h] at h'
    have hinjective : Function.Injective UInt8.toUInt16 := fun a b hab => by
      rw [← UInt8.toNat_inj, ← UInt8.toNat_toUInt16, hab, UInt8.toNat_toUInt16]
    exact List.map_injective_iff.mpr hinjective h'
  · next hwide =>
    rw [if_neg hwide] at h'
    rw [h, h']

/-- **A text is written as it was read when its flag byte is the one that it calls for.** -/
theorem textBody_eq_iff {s : String} {flags : UInt8} {raw : List UInt8}
    (h : StoredAs s flags raw) : textBody (units s) = flags :: raw ↔ flags = properFlag s := by
  rw [properFlag_eq]
  constructor
  · intro heq
    exact (List.cons.inj heq).1.symm
  · rintro rfl
    exact congrArg _ ((storedAs_unitBytes s).unique h)

/-! ### Constants -/

namespace Constant

/-- **A constant is written as it was read when its stored form is canonical.** -/
theorem StoredPayload.payload_eq_iff {c : Constant} {bytes : List UInt8}
    (h : StoredPayload c bytes) :
    c.payload = .ok bytes ↔ c.Canonical (c.tag :: bytes) := by
  -- Constants with reserved bytes are no texts.
  have hreserved (hnone : c.text? = none) (hiff : c.payload = .ok bytes ↔
      ∀ b ∈ c.reserved bytes, b = 0) : c.payload = .ok bytes ↔ c.Canonical (c.tag :: bytes) :=
    hiff.trans ⟨fun hzero => ⟨hzero, forall_mem_of_eq_none hnone _⟩, fun hc => hc.reserved⟩
  cases c with
  | empty =>
    refine hreserved rfl ?_
    rw [payload, Except.ok.injEq]
    exact zeroBytes_eq_iff h
  | number x =>
    obtain rfl : bytes = quadBytes x.bits := h
    exact hreserved rfl (iff_of_true rfl (List.forall_mem_nil _))
  | text s =>
    obtain ⟨count, flags, raw, hraw, hcount, rfl⟩ := h
    have hlength : (units s).length ≤ maxTextUnits := by
      rw [hcount]
      exact Nat.le_of_lt_succ count.toNat_lt
    have hword : (units s).length.toUInt16 = count := by
      rw [hcount]
      exact UInt16.ofNat_toNat
    simp only [payload, if_pos hlength, hword, Except.ok.injEq, List.append_cancel_left_eq]
    rw [textBody_eq_iff hraw]
    constructor
    · intro hflag
      refine ⟨List.forall_mem_nil _, ?_⟩
      rintro _ ⟨⟩
      exact congrArg some hflag
    · intro hc
      exact Option.some.inj (hc.flag s rfl)
  | boolean b =>
    refine hreserved rfl ?_
    obtain ⟨reserved, hlength, rfl⟩ := h
    rw [payload, Except.ok.injEq, List.cons.injEq, and_iff_right rfl]
    exact zeroBytes_eq_iff hlength
  | code n =>
    refine hreserved rfl ?_
    obtain ⟨reserved, hlength, rfl⟩ := h
    rw [payload, Except.ok.injEq, List.append_cancel_left_eq]
    exact zeroBytes_eq_iff hlength

theorem Stored.bytes_eq_iff {c : Constant} {stored : List UInt8} (h : c.Stored stored) :
    c.bytes = .ok stored ↔ c.Canonical stored := by
  obtain ⟨payload, hpayload, rfl⟩ := h
  rw [← hpayload.payload_eq_iff, bytes_eq_ok]
  constructor
  · rintro ⟨_, hwritten, heq⟩
    rw [(List.cons.inj heq).2]
    exact hwritten
  · intro hwritten
    exact ⟨payload, hwritten, rfl⟩

end Constant

/-! ### Tokens -/

/-- **A reference is written as it was read when its reserved bytes are zero.** -/
theorem Reference.Stored.bytes_eq_iff {r : Reference} {fields : List UInt8} (h : r.Stored fields) :
    r.bytes = fields ↔ ∀ b ∈ r.reserved fields, b = 0 := by
  cases r with
  | cell c => exact iff_of_true (CellRef.Stored.bytes_eq h) (List.forall_mem_nil _)
  | area a => exact iff_of_true (AreaRef.Stored.bytes_eq h) (List.forall_mem_nil _)
  | cellGone => exact zeroBytes_eq_iff h
  | areaGone => exact zeroBytes_eq_iff h
  | sharedCell c => exact iff_of_true (CellRef.Stored.bytes_eq h) (List.forall_mem_nil _)
  | sharedArea a => exact iff_of_true (AreaRef.Stored.bytes_eq h) (List.forall_mem_nil _)
  | sheetCell sheet c =>
    obtain ⟨rest, hrest, rfl⟩ := h
    rw [bytes, CellRef.Stored.bytes_eq hrest]
    exact iff_of_true rfl (List.forall_mem_nil _)
  | sheetArea sheet a =>
    obtain ⟨rest, hrest, rfl⟩ := h
    rw [bytes, AreaRef.Stored.bytes_eq hrest]
    exact iff_of_true rfl (List.forall_mem_nil _)
  | sheetCellGone sheet =>
    obtain ⟨reserved, hreserved, rfl⟩ := h
    rw [bytes, List.append_cancel_left_eq]
    exact zeroBytes_eq_iff hreserved
  | sheetAreaGone sheet =>
    obtain ⟨reserved, hreserved, rfl⟩ := h
    rw [bytes, List.append_cancel_left_eq]
    exact zeroBytes_eq_iff hreserved

/-- **A memory token is written as it was read when its reserved bytes are zero.** -/
theorem MemToken.Stored.bytes_eq_iff {m : MemToken} {fields : List UInt8} (h : m.Stored fields) :
    m.bytes = fields ↔ ∀ b ∈ m.reserved fields, b = 0 := by
  cases m with
  | area size areas =>
    obtain ⟨reserved, hreserved, rfl⟩ := h
    rw [bytes, List.append_cancel_right_eq, MemToken.reserved, List.take_left' hreserved]
    exact zeroBytes_eq_iff hreserved
  | err code size =>
    obtain ⟨reserved, hreserved, rfl⟩ := h
    rw [bytes, List.cons_append, List.cons.injEq, and_iff_right rfl, List.append_cancel_right_eq,
      MemToken.reserved, List.drop_one, List.tail_cons, List.take_left' hreserved]
    exact zeroBytes_eq_iff hreserved
  | noMem size =>
    obtain ⟨reserved, hreserved, rfl⟩ := h
    rw [bytes, List.append_cancel_right_eq, MemToken.reserved, List.take_left' hreserved]
    exact zeroBytes_eq_iff hreserved
  | func size => exact iff_of_true (Eq.symm h) (List.forall_mem_nil _)
  | sharedArea size => exact iff_of_true (Eq.symm h) (List.forall_mem_nil _)
  | sharedNoMem size => exact iff_of_true (Eq.symm h) (List.forall_mem_nil _)

/-- A text is written as it was read when its flag byte is the one that it calls for. -/
theorem Literal.Stored.bytes_eq_iff {l : Literal} {fields : List UInt8} (h : l.Stored fields) :
    l.bytes = .ok fields ↔ ∀ s ∈ l.text?, fields[1]? = some (properFlag s) := by
  cases l with
  | int n => exact iff_of_true (congrArg Except.ok (Eq.symm h)) (forall_mem_of_eq_none rfl _)
  | number x => exact iff_of_true (congrArg Except.ok (Eq.symm h)) (forall_mem_of_eq_none rfl _)
  | boolean b => exact iff_of_true (congrArg Except.ok (Eq.symm h)) (forall_mem_of_eq_none rfl _)
  | error kind => exact iff_of_true (congrArg Except.ok (Eq.symm h)) (forall_mem_of_eq_none rfl _)
  | text s =>
    obtain ⟨count, flags, raw, hraw, hcount, rfl⟩ := h
    have hlength : (units s).length ≤ maxLiteralUnits := by
      rw [hcount]
      exact Nat.le_of_lt_succ count.toNat_lt
    have hbyte : (units s).length.toUInt8 = count := by
      rw [hcount]
      exact UInt8.ofNat_toNat
    simp only [bytes, if_pos hlength, hbyte, Except.ok.injEq, List.cons.injEq, true_and]
    rw [textBody_eq_iff hraw]
    constructor
    · rintro hflag _ ⟨⟩
      exact congrArg some hflag
    · intro hc
      exact Option.some.inj (hc s rfl)

namespace Token

/-- **The fields of a token are written as they were read when its stored form is canonical.** -/
theorem StoredFields.fields_eq_iff {t : Token} {fields : List UInt8} (h : t.StoredFields fields) :
    t.fields = .ok fields ↔ t.Canonical (t.opcode :: fields) := by
  -- Only texts have a flag byte.
  have hzero (hnone : t.text? = none) (hiff : t.fields = .ok fields ↔
      ∀ b ∈ t.reserved fields, b = 0) : t.fields = .ok fields ↔ t.Canonical (t.opcode :: fields) :=
    hiff.trans ⟨fun hzero => ⟨hzero, forall_mem_of_eq_none hnone _⟩, fun hc => hc.reserved⟩
  have hplain (hnone : t.text? = none) (hall : t.reserved fields = [])
      (hfields : t.fields = .ok fields) :
      t.fields = .ok fields ↔ t.Canonical (t.opcode :: fields) := by
    refine hzero hnone (iff_of_true hfields ?_)
    rw [hall]
    exact List.forall_mem_nil _
  cases t with
  | operator op => exact hplain rfl rfl (congrArg Except.ok (Eq.symm h))
  | shared row col => exact hplain rfl rfl (congrArg Except.ok (Eq.symm h))
  | table row col => exact hplain rfl rfl (congrArg Except.ok (Eq.symm h))
  | paren => exact hplain rfl rfl (congrArg Except.ok (Eq.symm h))
  | missing => exact hplain rfl rfl (congrArg Except.ok (Eq.symm h))
  | hint a => exact hplain rfl rfl (Attribute.Stored.bytes_eq h)
  | literal l =>
    refine (Literal.Stored.bytes_eq_iff h).trans ⟨fun hflag => ⟨List.forall_mem_nil _, hflag⟩, ?_⟩
    exact fun hc => hc.flag
  | reference r cls =>
    refine hzero rfl ?_
    rw [Token.fields, Except.ok.injEq]
    exact Reference.Stored.bytes_eq_iff h
  | name n cls =>
    refine hzero rfl ?_
    cases n with
    | defined index =>
      obtain ⟨reserved, hreserved, rfl⟩ := h
      rw [Token.fields, Except.ok.injEq, List.append_cancel_left_eq]
      exact zeroBytes_eq_iff hreserved
    | external sheet index =>
      obtain ⟨reserved, hreserved, rfl⟩ := h
      rw [Token.fields, Except.ok.injEq, List.append_cancel_left_eq]
      exact zeroBytes_eq_iff hreserved
  | mem m cls =>
    refine hzero rfl ?_
    rw [Token.fields, Except.ok.injEq]
    exact MemToken.Stored.bytes_eq_iff h
  | array cells cls =>
    refine hzero rfl ?_
    rw [Token.fields, Except.ok.injEq]
    exact zeroBytes_eq_iff h
  | call c cls => exact hplain rfl rfl (Call.Stored.bytes_eq h)

/-- **A token is written as it was read when its stored form is canonical.** -/
theorem Stored.streamBytes_eq_iff {t : Token} {piece : List UInt8} (h : t.Stored piece) :
    t.streamBytes = .ok piece ↔ t.Canonical piece := by
  obtain ⟨fields, hfields, rfl⟩ := h
  rw [← hfields.fields_eq_iff, streamBytes_eq_ok]
  constructor
  · rintro ⟨_, hwritten, heq⟩
    rw [(List.cons.inj heq).2]
    exact hwritten
  · intro hwritten
    exact ⟨fields, hwritten, rfl⟩

end Token

/-! ### Literals -/

/-- What is written for an array begins with the shape that was read. -/
theorem StoredArray.shape_eq {m : Matrix Constant} {payload : List UInt8}
    (h : StoredArray m payload) :
    payload = (m.cols - 1).toUInt8 :: wordBytes (m.rows - 1).toUInt16 ++ payload.drop 3 := by
  obtain ⟨lastCol, lastRow, cells, hcols, hrows, -, -, rfl⟩ := h
  have hlastCol : (m.cols - 1).toUInt8 = lastCol := by
    rw [hcols, Nat.add_sub_cancel]
    exact UInt8.ofNat_toNat
  have hlastRow : (m.rows - 1).toUInt16 = lastRow := by
    rw [hrows, Nat.add_sub_cancel]
    exact UInt16.ofNat_toNat
  rw [hlastCol, hlastRow]
  rfl

/-- **A literal is written as it was read when its stored form is canonical.** -/
theorem Token.StoredLiteral.literalBytes_eq_iff {t : Token} {payload : List UInt8}
    (h : t.StoredLiteral payload) : t.literalBytes = .ok payload ↔ t.CanonicalLiteral payload := by
  cases t with
  | array cells cls =>
    cases cells with
    | none => exact h.elim
    | some m =>
      obtain ⟨hrows, hcols⟩ := StoredArray.fits h
      refine arrayBytes_eq_ok.trans ?_
      constructor
      · rintro ⟨-, -, cells, hcells, rfl⟩
        refine ⟨cells, hcells.imp fun c stored hc => ?_, rfl⟩
        have hstored : c.Stored stored := Constant.stored_of_bytes hc
        exact ⟨hstored, hstored.bytes_eq_iff.mp hc⟩
      · rintro ⟨cells, hcells, hdrop⟩
        refine ⟨hrows, hcols, cells, hcells.imp ?_, ?_⟩
        · rintro c stored ⟨hstored, hcanonical⟩
          exact hstored.bytes_eq_iff.mpr hcanonical
        · rw [← hdrop]
          exact StoredArray.shape_eq h
  | mem m cls =>
    cases m with
    | area size areas =>
      cases areas with
      | none => exact h.elim
      | some areas => exact iff_of_true (StoredAreaList.bytes_eq h) trivial
    | _ => exact iff_of_true (congrArg Except.ok (Eq.symm h)) trivial
  | _ => exact iff_of_true (congrArg Except.ok (Eq.symm h)) trivial

/-! ### Formulas -/

theorem forall₂_congr {α β : Type} {R P Q : α → β → Prop} {as : List α} {bs : List β}
    (h : List.Forall₂ R as bs) (hiff : ∀ a b, R a b → (P a b ↔ Q a b)) :
    List.Forall₂ P as bs ↔ List.Forall₂ Q as bs := by
  induction h with
  | nil => exact iff_of_true .nil .nil
  | cons hab _ ih => rw [List.forall₂_cons, List.forall₂_cons, hiff _ _ hab, ih]

namespace Formula

/-- **Writing gives the buffer again when it gives every piece of it again.** -/
theorem Split.encode_eq_iff {bytes : List UInt8} {declared : Nat} {f : Formula}
    {pieces payloads : List (List UInt8)} (h : f.Split bytes declared pieces payloads)
    (hsize : declared ≤ maxStreamSize) :
    encode f = .ok ⟨bytes.take declared, payloads.flatten⟩ ↔
      List.Forall₂ (fun t piece => t.streamBytes = .ok piece) f pieces ∧
        List.Forall₂ (fun t payload => t.literalBytes = .ok payload) f payloads := by
  rw [encode_eq_ok_iff, writeEach_eq_ok_iff, writeEach_eq_ok_iff]
  constructor
  · rintro ⟨⟨pieces', hpieces, hstream⟩, -, ⟨payloads', hpayloads, hbehind⟩⟩
    have hsplit : f.Split bytes declared pieces' payloads' := by
      refine ⟨h.fits, ?_, hstream.symm, ?_, ?_⟩
      · refine ((List.forall₂_and_left _ _).mpr ⟨h.storable, hpieces⟩).imp ?_
        rintro t piece ⟨ht, hpiece⟩
        exact Token.stored_of_streamBytes ht hpiece
      · refine ((List.forall₂_and_left _ _).mpr ⟨h.storable, hpayloads⟩).imp ?_
        rintro t payload ⟨ht, hpayload⟩
        exact Token.storedLiteral_of_literalBytes ht hpayload
      · have hflat : payloads'.flatten = payloads.flatten := hbehind.symm
        rw [hflat]
        exact h.behind
    obtain ⟨-, rfl, rfl⟩ := h.unique hsplit
    exact ⟨hpieces, hpayloads⟩
  · rintro ⟨hpieces, hpayloads⟩
    refine ⟨⟨pieces, hpieces, h.stream.symm⟩, ?_, ⟨payloads, hpayloads, rfl⟩⟩
    exact Nat.le_trans (List.length_take_le _ _) hsize

/-- The bytes behind the stream that were read are the stored literals. -/
theorem Split.take_drop {bytes : List UInt8} {declared : Nat} {f : Formula}
    {pieces payloads : List (List UInt8)} (h : f.Split bytes declared pieces payloads) :
    (bytes.take (declared + payloads.flatten.length)).drop declared = payloads.flatten := by
  rw [List.drop_take, Nat.add_sub_cancel_left]
  exact (List.prefix_iff_eq_take.mp h.behind).symm

/-- **A buffer survives reading and writing exactly when it is canonical.** Of a formula that was
read to the place `n` there is one split; both segments are written as they were read if and only if
its pieces and its literals are canonical, each of them. -/
theorem encode_eq_iff_canonical {bytes : List UInt8} {declared n : Nat} {f : Formula}
    (h : decodeCounting bytes declared = .ok (f, n)) (hsize : declared ≤ maxStreamSize) :
    ∃ pieces payloads, f.Split bytes declared pieces payloads ∧
      (∀ (f' : Formula) (pieces' payloads' : List (List UInt8)),
        f'.Split bytes declared pieces' payloads' →
          f' = f ∧ pieces' = pieces ∧ payloads' = payloads) ∧
      (encode f = .ok ⟨bytes.take declared, (bytes.take n).drop declared⟩ ↔
        List.Forall₂ Token.Canonical f pieces ∧
          List.Forall₂ Token.CanonicalLiteral f payloads) := by
  obtain ⟨pieces, payloads, hsplit, rfl⟩ := decodeCounting_eq_ok_iff_split.mp h
  refine ⟨pieces, payloads, hsplit, fun f' pieces' payloads' hsplit' => hsplit'.unique hsplit, ?_⟩
  rw [hsplit.take_drop, hsplit.encode_eq_iff hsize]
  exact and_congr
    (forall₂_congr hsplit.tokens fun t piece ht => ht.streamBytes_eq_iff)
    (forall₂_congr hsplit.literals fun t payload ht => ht.literalBytes_eq_iff)

/-- A wide text, and an array with a narrow one and a truth value. One byte lies behind the
formula. -/
theorem canonical_of_encode_array :
    let bytes : List UInt8 := [0x17, 1, 1, 0xAC, 0x20, 0x60, 0, 0, 0, 0, 0, 0, 0,
      1, 0, 0, 0x02, 1, 0, 0, 0xE9, 0x04, 1, 0, 0, 0, 0, 0, 0, 0, 77]
    let f : Formula :=
      [.literal (.text "€"), .array (some ⟨1, 2, #[.text "é", .boolean true]⟩) .array]
    decodeCounting bytes 13 = .ok (f, 30) ∧ 13 ≤ maxStreamSize ∧
      ∃ pieces payloads, f.Split bytes 13 pieces payloads ∧
        List.Forall₂ Token.Canonical f pieces ∧ List.Forall₂ Token.CanonicalLiteral f payloads := by
  intro bytes f
  have hdecode : decodeCounting bytes 13 = .ok (f, 30) := by cbv
  have hsize : 13 ≤ maxStreamSize := by decide
  have hencode : encode f = .ok ⟨bytes.take 13, (bytes.take 30).drop 13⟩ := by cbv
  obtain ⟨pieces, payloads, hsplit, -, hiff⟩ := encode_eq_iff_canonical hdecode hsize
  obtain ⟨htokens, hliterals⟩ := hiff.mp hencode
  exact ⟨hdecode, hsize, pieces, payloads, hsplit, htokens, hliterals⟩

end Formula

end CellFormula
