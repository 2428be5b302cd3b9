import CellFormula.Proofs.TokenOpcode

/-!
# Stored formulas

A stored formula is a token stream of a declared size, and behind it the literals of the array and
memory tokens in the order of the tokens. `Formula.Split` says so in terms of pieces: one piece of
the stream for each token, and one literal behind it, which is empty for most tokens.

## The reader is not mentioned

`Formula.Split` does not speak of cursors, of the order in which opcodes are tried, or of what is
reported when. That the reader succeeds exactly when there is a split is the theorem, and that no
buffer has two splits follows from it, because each single read accepts its layout and no more.

## The second pass

The stream is read to its end before the first literal is. So the first pass gives bare tokens, and
the second one puts the literals where they belong. A split does not know of the two passes: a token
and its bare form have the same stored forms, `Token.stored_bare`.

## Main definitions

* `StoredArray`, `MemRange.Stored`, `StoredAreaList`, `Token.StoredLiteral`
* `Formula.Split`

## Main results

* `accepts_readLiteral`, `readStream_eq_ok_iff`, `accepts_readLiterals`
* `Formula.decodeCounting_eq_ok_iff`
* `Formula.decode_eq_ok_iff_split` — the reader accepts exactly the formulas that have a split
-/

namespace CellFormula

/-! ### Literals behind the stream -/

/-- An array literal: its columns and rows, each less one, and its cells row by row. -/
def StoredArray : Layout (Matrix Constant) := fun m bytes =>
  ∃ (lastCol : UInt8) (lastRow : UInt16) (cells : List UInt8),
    m.cols = lastCol.toNat + 1 ∧ m.rows = lastRow.toNat + 1 ∧
      m.cells.toList.length = m.rows * m.cols ∧ Layout.each Constant.Stored m.cells.toList cells ∧
      bytes = lastCol :: (wordBytes lastRow ++ cells)

/-- A rectangle of an area list: both rows and then both columns. -/
def MemRange.Stored : Layout MemRange := fun r bytes =>
  bytes = wordBytes r.firstRow ++ wordBytes r.lastRow ++ wordBytes r.firstCol ++ wordBytes r.lastCol

/-- An area list: its length and its rectangles. -/
def StoredAreaList : Layout (List MemRange) := fun areas bytes =>
  ∃ (count : UInt16) (ranges : List UInt8), areas.length = count.toNat ∧
    Layout.each MemRange.Stored areas ranges ∧ bytes = wordBytes count ++ ranges

/-- **The stored forms of the literal of a token.** A token without a literal has nothing behind the
stream, and one whose literal is not there has no stored form. -/
def Token.StoredLiteral : Layout Token
  | array (some m) _, bytes => StoredArray m bytes
  | array none _, _ => False
  | mem (.area _ (some areas)) _, bytes => StoredAreaList areas bytes
  | mem (.area _ none) _, _ => False
  | _, bytes => bytes = []

theorem accepts_readArray (opcode : UInt8) : Reads.Accepts (readArray opcode) StoredArray := by
  have hbyte (offset : Nat) : Reads.Accepts (literalField offset opcode Cursor.byte) _ :=
    Cursor.accepts_byte.adapt _
  have hword (offset : Nat) : Reads.Accepts (literalField offset opcode Cursor.word) _ :=
    Cursor.accepts_word.adapt _
  have hcell : Reads.Accepts (EStateM.adaptExcept (cellError opcode) Constant.read) _ :=
    Constant.accepts_read.adapt _
  refine .located fun offset => ((hbyte offset).bind fun lastCol => (hword offset).bind
    fun lastRow => (hcell.times ((lastRow.toNat + 1) * (lastCol.toNat + 1))).map fun cells =>
      Matrix.mk (lastRow.toNat + 1) (lastCol.toNat + 1) cells.toArray).congr fun m bytes => ?_
  constructor
  · rintro ⟨lastCol, _, _, rfl, ⟨lastRow, _, _, rfl, ⟨cells, ⟨hlength, hcells⟩, rfl⟩, rfl⟩, rfl⟩
    exact ⟨lastCol, lastRow, _, rfl, rfl, by simpa using hlength, by simpa using hcells, rfl⟩
  · obtain ⟨rows, cols, cells⟩ := m
    rintro ⟨lastCol, lastRow, stored, rfl, rfl, hlength, hcells, rfl⟩
    exact ⟨lastCol, _, _, rfl, ⟨lastRow, _, _, rfl, ⟨cells.toList, ⟨hlength, hcells⟩, rfl⟩, rfl⟩,
      rfl⟩

theorem accepts_readMemRange : Reads.Accepts readMemRange MemRange.Stored := by
  refine (Cursor.accepts_word.bind fun firstRow => Cursor.accepts_word.bind fun lastRow =>
    Cursor.accepts_word.bind fun firstCol => Cursor.accepts_word.map fun lastCol =>
      MemRange.mk firstRow lastRow firstCol lastCol).congr fun r bytes => ?_
  constructor
  · rintro ⟨_, _, _, rfl, ⟨_, _, _, rfl, ⟨_, _, _, rfl, ⟨_, rfl, rfl⟩, rfl⟩, rfl⟩, rfl⟩
    simp [MemRange.Stored]
  · rintro rfl
    exact ⟨_, _, _, rfl, ⟨_, _, _, rfl, ⟨_, _, _, rfl, ⟨_, rfl, rfl⟩, rfl⟩, rfl⟩, by simp⟩

theorem accepts_readAreaList (opcode : UInt8) :
    Reads.Accepts (readAreaList opcode) StoredAreaList := by
  have hword (offset : Nat) : Reads.Accepts (literalField offset opcode Cursor.word) _ :=
    Cursor.accepts_word.adapt _
  have hrange (offset : Nat) : Reads.Accepts (literalField offset opcode readMemRange) _ :=
    accepts_readMemRange.adapt _
  refine .located fun offset => ((hword offset).bind fun count =>
    (hrange offset).times count.toNat).congr fun areas bytes => ?_
  constructor
  · rintro ⟨count, _, ranges, rfl, ⟨hlength, hranges⟩, rfl⟩
    exact ⟨count, ranges, hlength, hranges, rfl⟩
  · rintro ⟨count, ranges, hlength, hranges, rfl⟩
    exact ⟨count, _, ranges, rfl, ⟨hlength, hranges⟩, rfl⟩

namespace Token

theorem bare_of_not_hasTrailing {t : Token} (h : t.hasTrailing = false) : t.bare = t := by
  cases t with
  | array cells cls => cases h
  | mem m cls =>
    cases m with
    | area size areas => cases h
    | _ => rfl
  | _ => rfl

theorem hasTrailing_bare (t : Token) : t.bare.hasTrailing = t.hasTrailing := by
  cases t with
  | mem m cls => cases m <;> rfl
  | _ => rfl

theorem eq_of_bare_eq {t t' : Token} (h : t.hasTrailing = false) (hbare : t'.bare = t.bare) :
    t' = t := by
  have h' : t'.hasTrailing = false := by rw [← hasTrailing_bare, hbare, hasTrailing_bare, h]
  rw [← bare_of_not_hasTrailing h', hbare, bare_of_not_hasTrailing h]

theorem bare_eq_array_iff {t : Token} {cls : OperandClass} :
    t.bare = array none cls ↔ ∃ cells, t = array cells cls := by
  constructor
  · intro h
    cases t with
    | array cells cls' =>
      cases h
      exact ⟨cells, rfl⟩
    | mem m cls' => cases m <;> cases h
    | _ => cases h
  · rintro ⟨cells, rfl⟩
    rfl

theorem bare_eq_area_iff {t : Token} {size : UInt16} {cls : OperandClass} :
    t.bare = mem (.area size none) cls ↔ ∃ areas, t = mem (.area size areas) cls := by
  constructor
  · intro h
    cases t with
    | mem m cls' =>
      cases m with
      | area size' areas =>
        cases h
        exact ⟨areas, rfl⟩
      | _ => cases h
    | _ => cases h
  · rintro ⟨areas, rfl⟩
    rfl

theorem storedLiteral_of_not_hasTrailing {t : Token} (h : t.hasTrailing = false)
    {bytes : List UInt8} : t.StoredLiteral bytes ↔ bytes = [] := by
  cases t with
  | array cells cls => cases h
  | mem m cls =>
    cases m with
    | area size areas => cases h
    | _ => rfl
  | _ => rfl

end Token

theorem readLiteral_of_not_hasTrailing {t : Token} (h : t.hasTrailing = false) :
    readLiteral t = pure t := by
  cases t with
  | array cells cls => cases h
  | mem m cls =>
    cases m with
    | area size areas => cases h
    | _ => rfl
  | _ => rfl

/-- **A token is given its literal.** The answer is the same token but for the literal. -/
theorem accepts_readLiteral (t : Token) :
    Reads.Accepts (readLiteral t) fun t' bytes => t'.bare = t.bare ∧ t'.StoredLiteral bytes := by
  by_cases htrailing : t.hasTrailing = false
  · rw [readLiteral_of_not_hasTrailing htrailing]
    refine (Reads.Accepts.pure t).congr fun t' bytes => ?_
    constructor
    · rintro ⟨rfl, rfl⟩
      exact ⟨rfl, (Token.storedLiteral_of_not_hasTrailing htrailing).mpr rfl⟩
    · rintro ⟨hbare, hbytes⟩
      obtain rfl := Token.eq_of_bare_eq htrailing hbare
      exact ⟨rfl, (Token.storedLiteral_of_not_hasTrailing htrailing).mp hbytes⟩
  · cases t with
    | array cells cls =>
      refine ((accepts_readArray _).map fun m => Token.array (some m) cls).congr fun t' bytes => ?_
      constructor
      · rintro ⟨m, hbytes, rfl⟩
        exact ⟨rfl, hbytes⟩
      · rintro ⟨hbare, hbytes⟩
        obtain ⟨_ | m, rfl⟩ := Token.bare_eq_array_iff.mp hbare
        · exact hbytes.elim
        · exact ⟨m, hbytes, rfl⟩
    | mem m cls =>
      cases m with
      | area size areas =>
        refine ((accepts_readAreaList _).map fun areas =>
          Token.mem (.area size (some areas)) cls).congr fun t' bytes => ?_
        constructor
        · rintro ⟨areas, hbytes, rfl⟩
          exact ⟨rfl, hbytes⟩
        · rintro ⟨hbare, hbytes⟩
          obtain ⟨_ | areas, rfl⟩ := Token.bare_eq_area_iff.mp hbare
          · exact hbytes.elim
          · exact ⟨areas, hbytes, rfl⟩
      | _ => exact absurd rfl htrailing
    | _ => exact absurd rfl htrailing

/-- **The second pass.** Every token gets its literal, in the order of the tokens. -/
theorem accepts_readLiterals (ts done : List Token) :
    Reads.Accepts (readLiterals done ts) fun f bytes => ∃ rest, f = done.reverse ++ rest ∧
      rest.map Token.bare = ts.map Token.bare ∧ Layout.each Token.StoredLiteral rest bytes := by
  induction ts generalizing done with
  | nil =>
    refine (Reads.Accepts.pure done.reverse).congr fun f bytes => ?_
    constructor
    · rintro ⟨rfl, rfl⟩
      exact ⟨[], (List.append_nil _).symm, rfl, Layout.each_nil.mpr rfl⟩
    · rintro ⟨rest, rfl, hbare, hbytes⟩
      obtain rfl := List.map_eq_nil_iff.mp hbare
      exact ⟨List.append_nil _, Layout.each_nil.mp hbytes⟩
  | cons t ts ih =>
    refine ((accepts_readLiteral t).bind fun t' => ih (t' :: done)).congr fun f bytes => ?_
    constructor
    · rintro ⟨t', xs, ys, ⟨hbare, hxs⟩, ⟨rest, rfl, hrest, hys⟩, rfl⟩
      refine ⟨t' :: rest, by simp, ?_, Layout.each_cons.mpr ⟨xs, ys, hxs, hys, rfl⟩⟩
      rw [List.map_cons, List.map_cons, hbare, hrest]
    · rintro ⟨rest, rfl, hbare, hbytes⟩
      obtain ⟨t', rest, rfl, ht, hrest⟩ := List.map_eq_cons_iff.mp hbare
      obtain ⟨xs, ys, hxs, hys, rfl⟩ := Layout.each_cons.mp hbytes
      exact ⟨t', xs, ys, ⟨ht, hxs⟩, ⟨rest, by simp, hrest, hys⟩, rfl⟩

/-! ### The token stream -/

/-- The stored forms of bare tokens, which are all that the stream can hold. -/
def Token.BareStored : Layout Token := fun t bytes => t.bare = t ∧ t.Stored bytes

theorem each_bareStored_nil {ts : List Token} :
    Layout.each Token.BareStored ts [] ↔ ts = [] := by
  constructor
  · intro h
    cases ts with
    | nil => rfl
    | cons t ts' =>
      obtain ⟨xs, ys, ⟨-, fields, -, rfl⟩, -, heq⟩ := Layout.each_cons.mp h
      cases heq
  · rintro rfl
    exact Layout.each_nil.mpr rfl

/-- What a stream that is not empty begins with is decided by its first byte. -/
theorem each_bareStored_cons {position : Nat} {opcode : UInt8} {rest : List UInt8}
    {ts : List Token} :
    Layout.each Token.BareStored ts (opcode :: rest) ↔
      ∃ t next ts', readToken opcode ⟨position, rest⟩ = .ok t next ∧
        Layout.each Token.BareStored ts' next.rest ∧ ts = t :: ts' := by
  constructor
  · intro h
    cases ts with
    | nil => cases Layout.each_nil.mp h
    | cons t ts' =>
      obtain ⟨xs, ys, ⟨hbare, fields, hfields, rfl⟩, hys, heq⟩ := Layout.each_cons.mp h
      obtain ⟨rfl, rfl⟩ := List.cons.inj heq
      have hread := (accepts_readToken t.opcode).complete ⟨rfl, hbare, hfields⟩
        (Cursor.passes_mk position fields ys)
      exact ⟨t, _, ts', hread, hys, rfl⟩
  · rintro ⟨t, next, ts', hread, hts', rfl⟩
    obtain ⟨fields, ⟨rfl, hbare, hfields⟩, hrest, -⟩ := (accepts_readToken opcode).sound hread
    have hstored : t.BareStored (t.opcode :: fields) := ⟨hbare, fields, hfields, rfl⟩
    exact Layout.each_cons.mpr ⟨_, next.rest, hstored, hts', congrArg _ hrest.symm⟩

/-- **The first pass.** It succeeds exactly when the stream is made of bare tokens to its end. -/
theorem readStream_eq_ok_iff {declared available : Nat} {c : Cursor} {done f : List Token} :
    readStream declared available c done = .ok f ↔
      ∃ ts, Layout.each Token.BareStored ts c.rest ∧ f = done.reverse ++ ts := by
  fun_induction readStream declared available c done with
  | case1 done position =>
    constructor
    · intro h
      cases h
      exact ⟨[], Layout.each_nil.mpr rfl, (List.append_nil _).symm⟩
    · rintro ⟨ts, hts, rfl⟩
      obtain rfl := each_bareStored_nil.mp hts
      rw [List.append_nil]
  | case2 done position opcode rest t next hread ih =>
    rw [ih]
    constructor
    · rintro ⟨ts, hts, rfl⟩
      exact ⟨t :: ts, each_bareStored_cons.mpr ⟨t, next, ts, hread, hts, rfl⟩, by simp⟩
    · rintro ⟨ts, hts, rfl⟩
      obtain ⟨t', next', ts', hread', hts', rfl⟩ := each_bareStored_cons.mp hts
      rw [hread] at hread'
      cases hread'
      exact ⟨ts', hts', by simp⟩
  | case3 done position opcode rest fault c' hread =>
    constructor
    · intro h
      cases h
    · rintro ⟨ts, hts, rfl⟩
      obtain ⟨t', next', ts', hread', -⟩ := each_bareStored_cons.mp hts
      rw [hread] at hread'
      cases hread'

theorem map_bare_of_bareStored {ts : List Token} {bytes : List UInt8}
    (h : Layout.each Token.BareStored ts bytes) : ts.map Token.bare = ts := by
  obtain ⟨pieces, hpieces, -⟩ := h
  induction hpieces with
  | nil => rfl
  | cons ht _ ih => rw [List.map_cons, ht.1, ih]

/-- Tokens are stored in the stream as their bare forms are. -/
theorem each_bareStored_map {f : List Token} {bytes : List UInt8} :
    Layout.each Token.BareStored (f.map Token.bare) bytes ↔ Layout.each Token.Stored f bytes := by
  have hiff (t : Token) (piece : List UInt8) : t.bare.BareStored piece ↔ t.Stored piece := by
    rw [Token.BareStored, Token.bare_bare, Token.stored_bare, and_iff_right rfl]
  simp only [Layout.each, List.forall₂_map_left_iff, hiff]

/-! ### Stored formulas -/

theorem exists_of_forall₂ {α β : Type} {R : α → β → Prop} {as : List α} {bs : List β}
    (h : List.Forall₂ R as bs) : ∀ a ∈ as, ∃ b, R a b := by
  induction h with
  | nil => exact fun a ha => absurd ha List.not_mem_nil
  | cons hab _ ih =>
    intro a ha
    rcases List.mem_cons.mp ha with rfl | ha
    · exact ⟨_, hab⟩
    · exact ih a ha

namespace Formula

theorem opened_position {bytes : List UInt8} {offset : Nat} (h : offset ≤ bytes.length) :
    (Cursor.opened bytes offset).position = offset :=
  Nat.min_eq_left h

/-- Both passes succeed, the second one behind the declared size. -/
theorem decodeCounting_eq_ok {bytes : List UInt8} {declared : Nat} {f : Formula} {n : Nat} :
    decodeCounting bytes declared = .ok (f, n) ↔
      ∃ tokens c, readStream declared bytes.length (Cursor.opened (bytes.take declared) 0) []
          = .ok tokens ∧
        declared ≤ bytes.length ∧
        readLiterals [] tokens (Cursor.opened bytes declared) = .ok f c ∧ c.position = n := by
  rw [decodeCounting]
  constructor
  · intro h
    obtain ⟨tokens, hstream, h⟩ := except_bind_eq_ok.mp h
    by_cases hshort : bytes.length < declared
    · rw [if_pos hshort] at h
      cases h
    · rw [if_neg hshort] at h
      split at h
      · next f' c hliterals =>
        cases h
        exact ⟨tokens, c, hstream, Nat.not_lt.mp hshort, hliterals, rfl⟩
      · cases h
  · rintro ⟨tokens, c, hstream, hfits, hliterals, rfl⟩
    refine except_bind_eq_ok.mpr ⟨tokens, hstream, ?_⟩
    rw [if_neg (Nat.not_lt.mpr hfits), hliterals]
    rfl

/-- **What is read, and how far.** The tokens are stored in the stream, and their literals are what
the rest of the buffer begins with. -/
theorem decodeCounting_eq_ok_iff {bytes : List UInt8} {declared : Nat} {f : Formula} {n : Nat} :
    decodeCounting bytes declared = .ok (f, n) ↔
      declared ≤ bytes.length ∧ Layout.each Token.Stored f (bytes.take declared) ∧
        ∃ payload, Layout.each Token.StoredLiteral f payload ∧ payload <+: bytes.drop declared ∧
          n = declared + payload.length := by
  rw [decodeCounting_eq_ok]
  constructor
  · rintro ⟨tokens, c, hstream, hfits, hliterals, rfl⟩
    obtain ⟨ts, hts, htokens⟩ := readStream_eq_ok_iff.mp hstream
    obtain rfl : tokens = ts := htokens
    obtain ⟨payload, ⟨rest, hrest, hbare, hpayload⟩, hpasses⟩ :=
      (accepts_readLiterals _ _).sound hliterals
    obtain rfl : f = rest := hrest
    have hstored : Layout.each Token.Stored f (bytes.take declared) := by
      rw [← each_bareStored_map, hbare, map_bare_of_bareStored hts]
      exact hts
    refine ⟨hfits, hstored, payload, hpayload, ⟨c.rest, hpasses.1.symm⟩, ?_⟩
    rw [hpasses.2, opened_position hfits]
  · rintro ⟨hfits, hstored, payload, hpayload, ⟨rest, hrest⟩, rfl⟩
    refine ⟨f.map Token.bare, ⟨declared + payload.length, rest⟩, ?_, hfits, ?_, rfl⟩
    · exact readStream_eq_ok_iff.mpr ⟨_, each_bareStored_map.mpr hstored, rfl⟩
    · refine (accepts_readLiterals _ _).complete ⟨f, rfl, ?_, hpayload⟩ ⟨hrest.symm, ?_⟩
      · simp
      · rw [opened_position hfits]

/-- **A formula stored at the start of a buffer.** The stream is made of one piece for each token,
and what lies behind it begins with their literals. -/
structure Split (f : Formula) (bytes : List UInt8) (declared : Nat)
    (pieces payloads : List (List UInt8)) : Prop where
  /-- The stream fits into the buffer. -/
  fits : declared ≤ bytes.length
  /-- Each piece is a stored form of its token. -/
  tokens : List.Forall₂ Token.Stored f pieces
  /-- The pieces are the stream, one after the other. -/
  stream : pieces.flatten = bytes.take declared
  /-- Each payload is a stored form of the literal of its token. -/
  literals : List.Forall₂ Token.StoredLiteral f payloads
  /-- The payloads stand behind the stream, one after the other. -/
  behind : payloads.flatten <+: bytes.drop declared

theorem decodeCounting_eq_ok_iff_split {bytes : List UInt8} {declared : Nat} {f : Formula}
    {n : Nat} : decodeCounting bytes declared = .ok (f, n) ↔ ∃ pieces payloads,
      f.Split bytes declared pieces payloads ∧ n = declared + payloads.flatten.length := by
  rw [decodeCounting_eq_ok_iff]
  constructor
  · rintro ⟨hfits, ⟨pieces, htokens, hstream⟩, _, ⟨payloads, hliterals, rfl⟩, hbehind, hn⟩
    exact ⟨pieces, payloads, ⟨hfits, htokens, hstream, hliterals, hbehind⟩, hn⟩
  · rintro ⟨pieces, payloads, ⟨hfits, htokens, hstream, hliterals, hbehind⟩, hn⟩
    exact ⟨hfits, ⟨pieces, htokens, hstream⟩, _, ⟨payloads, hliterals, rfl⟩, hbehind, hn⟩

theorem decode_eq_ok_iff {bytes : List UInt8} {declared : Nat} {f : Formula} :
    decode bytes declared = .ok f ↔ ∃ n, decodeCounting bytes declared = .ok (f, n) := by
  rw [decode]
  cases decodeCounting bytes declared with
  | error e => simp [Except.map]
  | ok found =>
    obtain ⟨f', n⟩ := found
    simp [Except.map]

theorem Split.decode_eq {bytes : List UInt8} {declared : Nat} {f : Formula}
    {pieces payloads : List (List UInt8)} (h : f.Split bytes declared pieces payloads) :
    decode bytes declared = .ok f :=
  decode_eq_ok_iff.mpr ⟨_, decodeCounting_eq_ok_iff_split.mpr ⟨pieces, payloads, h, rfl⟩⟩

theorem exists_split_of_decode {bytes : List UInt8} {declared : Nat} {f : Formula}
    (h : decode bytes declared = .ok f) :
    ∃ pieces payloads, f.Split bytes declared pieces payloads := by
  obtain ⟨n, hn⟩ := decode_eq_ok_iff.mp h
  obtain ⟨pieces, payloads, hsplit, -⟩ := decodeCounting_eq_ok_iff_split.mp hn
  exact ⟨pieces, payloads, hsplit⟩

/-- No two stored forms of tokens begin one buffer. -/
theorem stored_unique {t t' : Token} {xs ys xs' ys' : List UInt8} (hx : t.Stored xs)
    (hy : t'.Stored ys) (heq : xs ++ xs' = ys ++ ys') : xs = ys := by
  obtain ⟨fields, hfields, rfl⟩ := hx
  obtain ⟨fields', hfields', rfl⟩ := hy
  have hbare {u : Token} {bytes : List UInt8} (h : u.StoredFields bytes) :
      Token.OpcodeFields u.opcode u.bare bytes :=
    ⟨u.opcode_bare, u.bare_bare, Token.storedFields_bare.mpr h⟩
  obtain ⟨hopcode, hrest⟩ := List.cons.inj heq
  have hfirst := hbare hfields
  rw [hopcode] at hfirst ⊢
  obtain ⟨-, rfl, -⟩ := (accepts_readToken t'.opcode).unique hfirst (hbare hfields') hrest
  rfl

/-- No two stored forms of the literal of a token begin one buffer. -/
theorem storedLiteral_unique {t : Token} {xs ys xs' ys' : List UInt8} (hx : t.StoredLiteral xs)
    (hy : t.StoredLiteral ys) (heq : xs ++ xs' = ys ++ ys') : xs = ys := by
  obtain ⟨-, hxy, -⟩ := (accepts_readLiteral t).unique ⟨rfl, hx⟩ ⟨rfl, hy⟩ heq
  exact hxy

theorem Split.unique {bytes : List UInt8} {declared : Nat} {f f' : Formula}
    {pieces payloads pieces' payloads' : List (List UInt8)}
    (h : f.Split bytes declared pieces payloads) (h' : f'.Split bytes declared pieces' payloads') :
    f = f' ∧ pieces = pieces' ∧ payloads = payloads' := by
  obtain rfl : f = f' := Except.ok.inj (h.decode_eq.symm.trans h'.decode_eq)
  obtain ⟨rest, hrest⟩ := h.behind
  obtain ⟨rest', hrest'⟩ := h'.behind
  have hstream : pieces.flatten ++ [] = pieces'.flatten ++ [] := by rw [h.stream, h'.stream]
  exact ⟨rfl, Layout.pieces_unique h.tokens h'.tokens hstream stored_unique,
    Layout.pieces_unique h.literals h'.literals (hrest.trans hrest'.symm) storedLiteral_unique⟩

/-- **The reader accepts exactly its grammar.** A buffer is read as a formula if and only if it
splits into pieces for the tokens of that formula and their literals, and there is at most one way
to split it. -/
theorem decode_eq_ok_iff_split (bytes : List UInt8) (declared : Nat) :
    (∀ f : Formula, decode bytes declared = .ok f ↔
      ∃ pieces payloads, f.Split bytes declared pieces payloads) ∧
    ∀ (f f' : Formula) (pieces payloads pieces' payloads' : List (List UInt8)),
      f.Split bytes declared pieces payloads → f'.Split bytes declared pieces' payloads' →
      f = f' ∧ pieces = pieces' ∧ payloads = payloads' := by
  constructor
  · intro f
    constructor
    · exact exists_split_of_decode
    · rintro ⟨pieces, payloads, h⟩
      exact h.decode_eq
  · intro f f' pieces payloads pieces' payloads' h h'
    exact h.unique h'

/-- A number, an array with a text that is stored byte by byte, and a call. The reserved bytes are
not zero, and one byte lies behind the formula. -/
theorem existsUnique_split_array :
    let bytes : List UInt8 := [0x1E, 5, 0, 0x60, 9, 9, 9, 9, 9, 9, 9, 0x42, 2, 4, 0x80,
      0, 0, 0, 0x02, 1, 0, 0x80, 0xE9, 77]
    let f : Formula := [.literal (.int 5), .array (some ⟨1, 1, #[.text "é"]⟩) .array,
      .call (.counted 4 2 false true) .value]
    ∃ pieces payloads, f.Split bytes 15 pieces payloads ∧
      ∀ (f' : Formula) (pieces' payloads' : List (List UInt8)),
        f'.Split bytes 15 pieces' payloads' → f = f' ∧ pieces = pieces' ∧ payloads = payloads' := by
  intro bytes f
  obtain ⟨haccepts, hunique⟩ := decode_eq_ok_iff_split bytes 15
  have hdecode : decode bytes 15 = .ok f := by cbv
  obtain ⟨pieces, payloads, hsplit⟩ := (haccepts f).mp hdecode
  refine ⟨pieces, payloads, hsplit, ?_⟩
  intro f' pieces' payloads' hsplit'
  exact hunique f f' pieces payloads pieces' payloads' hsplit hsplit'

end Formula

end CellFormula
