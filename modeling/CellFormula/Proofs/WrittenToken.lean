import CellFormula.Formula.Writing
import CellFormula.Proofs.FirstFailure
import CellFormula.Proofs.StoredFormula

/-!
# Written tokens

Writing gives one stored form of a token, the one whose reserved bytes are zero and whose texts are
stored as narrow as they can be. That is said in two directions. What is written is a stored form,
provided that the token keeps the promises of its type. And a token that has any stored form at all
keeps them, and is written, and not any longer than that form.

## Which tokens can be read back

A cell may hold a column that its word has no room for, and a hint that is no choice may hold jumps
that are never written. `Token.Storable` excludes these, and array literals whose cells do not fill
their shape. Reading never gives such a token, so it is a promise only for tokens that were made by
hand.

## Main definitions

* `Reference.cells`, `Token.Storable`

## Main results

* `CellRef.storedColumn_columnField`, `flagged_promptField`, `flagged_commandField`
* `AreaRef.Stored.bytes_eq`, `Attribute.Stored.bytes_eq`, `Call.Stored.bytes_eq` — fields that have
  one stored form only
* `Token.stored_of_streamBytes`, `Token.Stored.exists_streamBytes`
* `Token.storedLiteral_of_literalBytes`, `Token.StoredLiteral.exists_literalBytes`
-/

namespace CellFormula

open Text

/-! ### Tokens that keep the promises of their types -/

/-- The cells that a reference names. -/
def Reference.cells : Reference → List CellRef
  | cell c | sharedCell c | sheetCell _ c => [c]
  | area a | sharedArea a | sheetArea _ a => [a.first, a.last]
  | cellGone | areaGone | sheetCellGone _ | sheetAreaGone _ => []

/-- The token holds nothing that its stored form has no room for. -/
structure Token.Storable (t : Token) : Prop where
  /-- Columns have fourteen bits. -/
  columns : ∀ r cls, t = reference r cls → ∀ c ∈ r.cells, c.col ≤ columnMask
  /-- Only choices have jumps. -/
  jumps : ∀ a, t = hint a → a.isChoose = false → a.jumps = []
  /-- The cells of an array literal fill its shape. -/
  cells : ∀ m cls, t = array (some m) cls → m.WellFormed

/-! ### Flags -/

theorem col_lt_of_le {c : CellRef} (h : c.col ≤ columnMask) : c.col.toNat < 2 ^ 14 := by
  have hnat : c.col.toNat ≤ 0x3FFF := h
  omega

/-- Bits above the low ones are set by adding them. -/
theorem or_highBits {bits low : ℕ} (h : low < 2 ^ bits) (high : ℕ) :
    low ||| 2 ^ bits * high = low + 2 ^ bits * high := by
  rw [Nat.or_comm, ← Nat.two_pow_add_eq_or_of_lt h, Nat.add_comm]

/-- **Writing puts the column word together.** -/
theorem CellRef.storedColumn_columnField {c : CellRef} (h : c.col ≤ columnMask) :
    c.StoredColumn c.columnField := by
  have hlt : c.col.toNat < 2 ^ 14 := col_lt_of_le h
  have hcol : (c.col &&& columnMask).toNat = c.col.toNat := by
    rw [toNat_and_columnMask, Nat.mod_eq_of_lt hlt]
  have hflags (row col : Bool) : (if row then rowFlag else 0).toNat
      ||| (if col then columnFlag else 0).toNat = 2 ^ 14 * (2 * row.toNat + col.toNat) := by
    cases row <;> cases col <;> decide
  refine ⟨hlt, ?_⟩
  rw [columnField, UInt16.toNat_or, UInt16.toNat_or, hcol, Nat.or_assoc, hflags,
    or_highBits hlt]
  cases c.rowRelative <;> cases c.colRelative <;>
    simp only [Bool.toNat_true, Bool.toNat_false, if_true, if_false, Bool.false_eq_true] <;> omega

/-- The cell says which column word it is. -/
theorem CellRef.StoredColumn.unique {c : CellRef} {field field' : UInt16}
    (h : c.StoredColumn field) (h' : c.StoredColumn field') : field = field' :=
  UInt16.toNat_inj.mp (h.2.trans h'.2.symm)

/-- **Writing puts the count byte together.** -/
theorem flagged_promptField {count : UInt8} (prompt : Bool) (h : count.toNat ≤ maxCount) :
    Flagged 7 count.toNat prompt (if prompt then count ||| promptFlag else count).toNat := by
  have hlt : count.toNat < 2 ^ 7 := Nat.lt_succ_of_le h
  refine ⟨hlt, ?_⟩
  cases prompt
  · rfl
  · exact or_highBits hlt 1

/-- **Writing puts the index word together.** -/
theorem flagged_commandField {index : UInt16} (command : Bool) (h : index.toNat < 2 ^ 15) :
    Flagged 15 index.toNat command (if command then index ||| commandFlag else index).toNat := by
  refine ⟨h, ?_⟩
  cases command
  · rfl
  · exact or_highBits h 1

/-- The indices of the catalogue leave room for the flag. -/
theorem index_lt_of_functionAt? {index : UInt16} {info : Worksheet.FunctionInfo}
    (h : Worksheet.functionAt? index = some info) : index.toNat < 2 ^ 15 := by
  have hall : ∀ entry ∈ Worksheet.catalogue, entry.index.toNat < 2 ^ 15 := by decide +kernel
  rw [← Worksheet.index_of_functionAt? h]
  exact hall info (Worksheet.mem_of_functionAt? h)

/-- Flags and low bits say which number it is. -/
theorem Flagged.unique {bits low field field' : ℕ} {flag : Bool} (h : Flagged bits low flag field)
    (h' : Flagged bits low flag field') : field = field' :=
  h.2.trans h'.2.symm

/-! ### What is written is stored -/

theorem CellRef.stored_bytes {c : CellRef} (h : c.col ≤ columnMask) : c.Stored c.bytes :=
  ⟨c.columnField, storedColumn_columnField h, rfl⟩

theorem AreaRef.stored_bytes {a : AreaRef} (hfirst : a.first.col ≤ columnMask)
    (hlast : a.last.col ≤ columnMask) : a.Stored a.bytes :=
  ⟨a.first.columnField, a.last.columnField, CellRef.storedColumn_columnField hfirst,
    CellRef.storedColumn_columnField hlast, rfl⟩

theorem Reference.stored_bytes {r : Reference} (h : ∀ c ∈ r.cells, c.col ≤ columnMask) :
    r.Stored r.bytes := by
  have hcell {c : CellRef} (hc : c ∈ r.cells) : c.Stored c.bytes := CellRef.stored_bytes (h c hc)
  have harea {a : AreaRef} (hfirst : a.first ∈ r.cells) (hlast : a.last ∈ r.cells) :
      a.Stored a.bytes := AreaRef.stored_bytes (h _ hfirst) (h _ hlast)
  cases r with
  | cell c => exact hcell (by simp [cells])
  | area a => exact harea (by simp [cells]) (by simp [cells])
  | cellGone => exact length_zeroBytes 4
  | areaGone => exact length_zeroBytes 8
  | sharedCell c => exact hcell (by simp [cells])
  | sharedArea a => exact harea (by simp [cells]) (by simp [cells])
  | sheetCell sheet c => exact ⟨c.bytes, hcell (by simp [cells]), rfl⟩
  | sheetArea sheet a => exact ⟨a.bytes, harea (by simp [cells]) (by simp [cells]), rfl⟩
  | sheetCellGone sheet => exact ⟨zeroBytes 4, length_zeroBytes 4, rfl⟩
  | sheetAreaGone sheet => exact ⟨zeroBytes 8, length_zeroBytes 8, rfl⟩

theorem MemToken.stored_bytes (m : MemToken) : m.Stored m.bytes := by
  cases m with
  | area size areas => exact ⟨zeroBytes 4, length_zeroBytes 4, rfl⟩
  | err code size => exact ⟨zeroBytes 3, length_zeroBytes 3, rfl⟩
  | noMem size => exact ⟨zeroBytes 4, length_zeroBytes 4, rfl⟩
  | func size => rfl
  | sharedArea size => rfl
  | sharedNoMem size => rfl

theorem Literal.stored_of_bytes {l : Literal} {bytes : List UInt8} (h : l.bytes = .ok bytes) :
    l.Stored bytes := by
  cases l with
  | int n =>
    cases h
    rfl
  | number x =>
    cases h
    rfl
  | boolean b =>
    cases h
    rfl
  | error kind =>
    cases h
    rfl
  | text s =>
    simp only [Literal.bytes] at h
    split at h
    · next hlength =>
      cases h
      have hcount : (units s).length.toUInt8.toNat = (units s).length :=
        Nat.mod_eq_of_lt (Nat.lt_succ_of_le hlength)
      exact ⟨_, writtenFlag (units s), unitBytes (units s), storedAs_unitBytes s, hcount.symm, rfl⟩
    · cases h

theorem Attribute.stored_of_bytes {a : Attribute} {bytes : List UInt8}
    (hjumps : a.isChoose = false → a.jumps = []) (h : a.bytes = .ok bytes) : a.Stored bytes := by
  rw [Attribute.bytes] at h
  by_cases hchoose : a.isChoose = true
  · rw [if_pos hchoose] at h
    split at h
    · next hlength =>
      cases h
      refine ⟨?_, rfl⟩
      rw [if_pos hchoose, hlength]
    · cases h
  · rw [if_neg hchoose] at h
    cases h
    have hnone : a.jumps = [] := hjumps (Bool.eq_false_of_not_eq_true hchoose)
    refine ⟨?_, ?_⟩
    · rw [if_neg hchoose, hnone, List.length_nil]
    · rw [hnone, List.flatMap_nil, List.append_nil]

theorem Call.stored_of_bytes {c : Call} {bytes : List UInt8} (h : c.bytes = .ok bytes) :
    c.Stored bytes := by
  rw [Call.bytes] at h
  split at h
  · next info hinfo =>
    cases c with
    | fixed index =>
      simp only [bytesFor] at h
      split at h
      · next hfixed =>
        cases h
        exact ⟨⟨info, hinfo, hfixed⟩, rfl⟩
      · cases h
    | counted index count prompt command =>
      simp only [bytesFor] at h
      split at h
      · next haccepts =>
        cases h
        exact ⟨⟨info, hinfo, haccepts.2⟩, _, _, flagged_promptField prompt haccepts.1,
          flagged_commandField command (index_lt_of_functionAt? hinfo), rfl⟩
      · cases h
  · cases h

namespace Token

theorem storedFields_of_fields {t : Token} {bytes : List UInt8} (hs : t.Storable)
    (h : t.fields = .ok bytes) : t.StoredFields bytes := by
  cases t with
  | operator op =>
    cases h
    rfl
  | shared row col =>
    cases h
    rfl
  | table row col =>
    cases h
    rfl
  | paren =>
    cases h
    rfl
  | missing =>
    cases h
    rfl
  | hint a => exact Attribute.stored_of_bytes (hs.jumps a rfl) h
  | literal l => exact Literal.stored_of_bytes h
  | reference r cls =>
    cases h
    exact Reference.stored_bytes (hs.columns r cls rfl)
  | name n cls =>
    cases n with
    | defined index =>
      cases h
      exact ⟨zeroBytes 2, length_zeroBytes 2, rfl⟩
    | external sheet index =>
      cases h
      exact ⟨zeroBytes 2, length_zeroBytes 2, rfl⟩
  | mem m cls =>
    cases h
    exact m.stored_bytes
  | array cells cls =>
    cases h
    exact length_zeroBytes 7
  | call c cls => exact Call.stored_of_bytes h

theorem streamBytes_eq_ok {t : Token} {piece : List UInt8} :
    t.streamBytes = .ok piece ↔ ∃ fields, t.fields = .ok fields ∧ piece = t.opcode :: fields := by
  rw [streamBytes]
  cases t.fields with
  | error fault => simp [Except.map]
  | ok fields => simp [Except.map, eq_comm]

/-- **What is written of a token into the stream is a stored form of it.** -/
theorem stored_of_streamBytes {t : Token} {piece : List UInt8} (hs : t.Storable)
    (h : t.streamBytes = .ok piece) : t.Stored piece := by
  obtain ⟨fields, hfields, rfl⟩ := streamBytes_eq_ok.mp h
  exact ⟨fields, storedFields_of_fields hs hfields, rfl⟩

end Token

/-! ### Written literals are stored -/

namespace Constant

theorem bytes_eq_ok {c : Constant} {stored : List UInt8} :
    c.bytes = .ok stored ↔ ∃ payload, c.payload = .ok payload ∧ stored = c.tag :: payload := by
  rw [bytes, write]
  cases c.payload with
  | error failure => simp
  | ok payload => simp [eq_comm]

theorem stored_of_bytes {c : Constant} {stored : List UInt8} (h : c.bytes = .ok stored) :
    c.Stored stored := by
  obtain ⟨payload, hpayload, rfl⟩ := bytes_eq_ok.mp h
  exact ⟨payload, storedPayload_of_payload hpayload, rfl⟩

end Constant

theorem arrayBytes_eq_ok {m : Matrix Constant} {bytes : List UInt8} :
    arrayBytes m = .ok bytes ↔ m.rows ≤ maxArrayRows ∧ m.cols ≤ maxArrayCols ∧
      ∃ cells, List.Forall₂ (fun c stored => c.bytes = .ok stored) m.cells.toList cells ∧
        bytes = (m.cols - 1).toUInt8 :: wordBytes (m.rows - 1).toUInt16 ++ cells.flatten := by
  rw [arrayBytes]
  by_cases hlarge : maxArrayRows < m.rows ∨ maxArrayCols < m.cols
  · rw [if_pos hlarge]
    constructor
    · intro h
      cases h
    · rintro ⟨hrows, hcols, -⟩
      omega
  · rw [if_neg hlarge]
    obtain ⟨hrows, hcols⟩ := not_or.mp hlarge
    rw [and_iff_right (Nat.not_lt.mp hrows), and_iff_right (Nat.not_lt.mp hcols)]
    constructor
    · intro h
      obtain ⟨cells, hcells, h⟩ := except_bind_eq_ok.mp h
      cases h
      exact ⟨cells, mapM_eq_ok.mp hcells, rfl⟩
    · rintro ⟨cells, hcells, rfl⟩
      exact except_bind_eq_ok.mpr ⟨cells, mapM_eq_ok.mpr hcells, rfl⟩

theorem storedArray_of_arrayBytes {m : Matrix Constant} {bytes : List UInt8} (hm : m.WellFormed)
    (h : arrayBytes m = .ok bytes) : StoredArray m bytes := by
  obtain ⟨hrows, hcols, cells, hcells, rfl⟩ := arrayBytes_eq_ok.mp h
  obtain ⟨hrowsPos, hcolsPos, hsize⟩ := hm
  have hlastCol : (m.cols - 1).toUInt8.toNat = m.cols - 1 :=
    Nat.mod_eq_of_lt (Nat.lt_of_lt_of_le (Nat.sub_lt hcolsPos Nat.one_pos) hcols)
  have hlastRow : (m.rows - 1).toUInt16.toNat = m.rows - 1 :=
    toNat_toUInt16 (Nat.lt_of_lt_of_le (Nat.sub_lt hrowsPos Nat.one_pos) hrows)
  have hstored : List.Forall₂ Constant.Stored m.cells.toList cells :=
    hcells.imp fun c stored hc => Constant.stored_of_bytes hc
  refine ⟨_, _, cells.flatten, ?_, ?_, hsize, ⟨cells, hstored, rfl⟩, rfl⟩
  · rw [hlastCol, Nat.sub_add_cancel hcolsPos]
  · rw [hlastRow, Nat.sub_add_cancel hrowsPos]

theorem each_memRange_iff {areas : List MemRange} {bytes : List UInt8} :
    Layout.each MemRange.Stored areas bytes ↔ bytes = areas.flatMap MemRange.bytes :=
  Layout.each_iff_flatMap fun _ _ => Iff.rfl

theorem storedAreaList_of_bytes {areas : List MemRange} {bytes : List UInt8}
    (h : areaListBytes areas = .ok bytes) : StoredAreaList areas bytes := by
  rw [areaListBytes] at h
  split at h
  · next hlength =>
    cases h
    have hcount : areas.length.toUInt16.toNat = areas.length :=
      toNat_toUInt16 (Nat.lt_succ_of_le hlength)
    exact ⟨_, _, hcount.symm, each_memRange_iff.mpr rfl, rfl⟩
  · cases h

/-- **What is written of a token behind the stream is a stored form of its literal.** -/
theorem Token.storedLiteral_of_literalBytes {t : Token} {payload : List UInt8} (hs : t.Storable)
    (h : t.literalBytes = .ok payload) : t.StoredLiteral payload := by
  cases t with
  | array cells cls =>
    cases cells with
    | none => cases h
    | some m => exact storedArray_of_arrayBytes (hs.cells m cls rfl) h
  | mem m cls =>
    cases m with
    | area size areas =>
      cases areas with
      | none => cases h
      | some areas => exact storedAreaList_of_bytes h
    | _ =>
      cases h
      rfl
  | _ =>
    cases h
    rfl

/-! ### What is stored can be written, and not any longer -/

theorem CellRef.StoredColumn.col_le {c : CellRef} {field : UInt16} (h : c.StoredColumn field) :
    c.col ≤ columnMask :=
  Nat.le_of_lt_succ h.1

theorem CellRef.Stored.col_le {c : CellRef} {bytes : List UInt8} (h : c.Stored bytes) :
    c.col ≤ columnMask := by
  obtain ⟨field, hfield, -⟩ := h
  exact hfield.col_le

/-- Cells have one stored form only. -/
theorem CellRef.Stored.bytes_eq {c : CellRef} {bytes : List UInt8} (h : c.Stored bytes) :
    c.bytes = bytes := by
  obtain ⟨field, hfield, rfl⟩ := h
  rw [CellRef.bytes, (storedColumn_columnField hfield.col_le).unique hfield]

theorem AreaRef.Stored.col_le {a : AreaRef} {bytes : List UInt8} (h : a.Stored bytes) :
    ∀ c ∈ [a.first, a.last], c.col ≤ columnMask := by
  obtain ⟨firstField, lastField, hfirst, hlast, -⟩ := h
  intro c hc
  rcases List.mem_pair.mp hc with rfl | rfl
  · exact hfirst.col_le
  · exact hlast.col_le

/-- Areas have one stored form only. -/
theorem AreaRef.Stored.bytes_eq {a : AreaRef} {bytes : List UInt8} (h : a.Stored bytes) :
    a.bytes = bytes := by
  obtain ⟨firstField, lastField, hfirst, hlast, rfl⟩ := h
  rw [AreaRef.bytes, (CellRef.storedColumn_columnField hfirst.col_le).unique hfirst,
    (CellRef.storedColumn_columnField hlast.col_le).unique hlast]

theorem Reference.Stored.col_le {r : Reference} {bytes : List UInt8} (h : r.Stored bytes) :
    ∀ c ∈ r.cells, c.col ≤ columnMask := by
  have hcell {c : CellRef} {stored : List UInt8} (hc : c.Stored stored) :
      ∀ c' ∈ [c], c'.col ≤ columnMask := by
    intro c' hc'
    rw [List.mem_singleton.mp hc']
    exact hc.col_le
  cases r with
  | cell c => exact hcell h
  | area a => exact AreaRef.Stored.col_le h
  | cellGone => exact fun c hc => absurd hc List.not_mem_nil
  | areaGone => exact fun c hc => absurd hc List.not_mem_nil
  | sharedCell c => exact hcell h
  | sharedArea a => exact AreaRef.Stored.col_le h
  | sheetCell sheet c =>
    obtain ⟨rest, hrest, -⟩ := h
    exact hcell hrest
  | sheetArea sheet a =>
    obtain ⟨rest, hrest, -⟩ := h
    exact AreaRef.Stored.col_le hrest
  | sheetCellGone sheet => exact fun c hc => absurd hc List.not_mem_nil
  | sheetAreaGone sheet => exact fun c hc => absurd hc List.not_mem_nil

/-- References have stored forms of one length only. -/
theorem Reference.Stored.length_bytes {r : Reference} {bytes : List UInt8} (h : r.Stored bytes) :
    r.bytes.length = bytes.length := by
  have hcell {c : CellRef} {stored : List UInt8} (hc : c.Stored stored) : stored.length = 4 := by
    obtain ⟨field, -, rfl⟩ := hc
    rfl
  have harea {a : AreaRef} {stored : List UInt8} (ha : a.Stored stored) : stored.length = 8 := by
    obtain ⟨firstField, lastField, -, -, rfl⟩ := ha
    rfl
  cases r with
  | cell c => rw [hcell h]; rfl
  | area a => rw [harea h]; rfl
  | cellGone => rw [show bytes.length = 4 from h]; rfl
  | areaGone => rw [show bytes.length = 8 from h]; rfl
  | sharedCell c => rw [hcell h]; rfl
  | sharedArea a => rw [harea h]; rfl
  | sheetCell sheet c =>
    obtain ⟨rest, hrest, rfl⟩ := h
    rw [List.length_append, hcell hrest]
    rfl
  | sheetArea sheet a =>
    obtain ⟨rest, hrest, rfl⟩ := h
    rw [List.length_append, harea hrest]
    rfl
  | sheetCellGone sheet =>
    obtain ⟨reserved, hreserved, rfl⟩ := h
    rw [List.length_append, hreserved]
    rfl
  | sheetAreaGone sheet =>
    obtain ⟨reserved, hreserved, rfl⟩ := h
    rw [List.length_append, hreserved]
    rfl

theorem MemToken.Stored.length_bytes {m : MemToken} {bytes : List UInt8} (h : m.Stored bytes) :
    m.bytes.length = bytes.length := by
  cases m with
  | area size areas =>
    obtain ⟨reserved, hreserved, rfl⟩ := h
    rw [List.length_append, hreserved]
    rfl
  | err code size =>
    obtain ⟨reserved, hreserved, rfl⟩ := h
    rw [List.length_cons, List.length_append, hreserved]
    rfl
  | noMem size =>
    obtain ⟨reserved, hreserved, rfl⟩ := h
    rw [List.length_append, hreserved]
    rfl
  | func size => rw [show bytes = wordBytes size from h]; rfl
  | sharedArea size => rw [show bytes = wordBytes size from h]; rfl
  | sharedNoMem size => rw [show bytes = wordBytes size from h]; rfl

theorem Literal.Stored.exists_bytes {l : Literal} {bytes : List UInt8} (h : l.Stored bytes) :
    ∃ bytes', l.bytes = .ok bytes' ∧ bytes'.length ≤ bytes.length := by
  cases l with
  | int n => exact ⟨bytes, congrArg Except.ok (Eq.symm h), Nat.le_refl _⟩
  | number x => exact ⟨bytes, congrArg Except.ok (Eq.symm h), Nat.le_refl _⟩
  | boolean b => exact ⟨bytes, congrArg Except.ok (Eq.symm h), Nat.le_refl _⟩
  | error kind => exact ⟨bytes, congrArg Except.ok (Eq.symm h), Nat.le_refl _⟩
  | text s =>
    obtain ⟨count, flags, raw, hraw, hcount, rfl⟩ := h
    have hlength : (units s).length ≤ maxLiteralUnits := by
      rw [hcount]
      exact Nat.le_of_lt_succ count.toNat_lt
    have hle := hraw.length_unitBytes_le
    refine ⟨_, if_pos hlength, ?_⟩
    simp only [textBody, List.length_cons]
    omega

theorem Attribute.Stored.bytes_eq {a : Attribute} {bytes : List UInt8} (h : a.Stored bytes) :
    a.bytes = .ok bytes := by
  obtain ⟨hlength, rfl⟩ := h
  rw [Attribute.bytes]
  by_cases hchoose : a.isChoose = true
  · rw [if_pos hchoose] at hlength
    rw [if_pos hchoose, if_pos hlength]
    rfl
  · rw [if_neg hchoose] at hlength
    rw [if_neg hchoose, List.length_eq_zero_iff.mp hlength, List.flatMap_nil, List.append_nil]

/-- Calls have one stored form only. -/
theorem Call.Stored.bytes_eq {c : Call} {bytes : List UInt8} (h : c.Stored bytes) :
    c.bytes = .ok bytes := by
  cases c with
  | fixed index =>
    obtain ⟨⟨info, hinfo, hfixed⟩, rfl⟩ := h
    simp only [Call.bytes, Call.index, hinfo, bytesFor, hfixed, if_true]
  | counted index count prompt command =>
    obtain ⟨⟨info, hinfo, haccepts⟩, countField, indexField, hcount, hindex, rfl⟩ := h
    have hmax : count.toNat ≤ maxCount := Nat.le_of_lt_succ hcount.1
    have hcountField : (if prompt then count ||| promptFlag else count) = countField :=
      UInt8.toNat_inj.mp ((flagged_promptField prompt hmax).unique hcount)
    have hindexField : (if command then index ||| commandFlag else index) = indexField :=
      UInt16.toNat_inj.mp ((flagged_commandField command hindex.1).unique hindex)
    simp only [Call.bytes, Call.index, hinfo, bytesFor]
    rw [if_pos ⟨hmax, haccepts⟩, hcountField, hindexField]

theorem Constant.Stored.exists_bytes {c : Constant} {stored : List UInt8} (h : c.Stored stored) :
    ∃ stored', c.bytes = .ok stored' ∧ stored'.length ≤ stored.length := by
  obtain ⟨payload, hpayload, rfl⟩ := h
  obtain ⟨payload', hpayload', hlength⟩ := hpayload.exists_payload
  exact ⟨c.tag :: payload', Constant.bytes_eq_ok.mpr ⟨payload', hpayload', rfl⟩,
    Nat.succ_le_succ hlength⟩

theorem StoredArray.wellFormed {m : Matrix Constant} {bytes : List UInt8}
    (h : StoredArray m bytes) : m.WellFormed := by
  obtain ⟨lastCol, lastRow, cells, hcols, hrows, hlength, -, -⟩ := h
  exact ⟨by omega, by omega, hlength⟩

/-- A shape that was read is one that can be written. -/
theorem StoredArray.fits {m : Matrix Constant} {bytes : List UInt8} (h : StoredArray m bytes) :
    m.rows ≤ maxArrayRows ∧ m.cols ≤ maxArrayCols := by
  obtain ⟨lastCol, lastRow, cells, hcols, hrows, -, -, -⟩ := h
  rw [hrows, hcols]
  exact ⟨lastRow.toNat_lt, lastCol.toNat_lt⟩

theorem StoredArray.exists_bytes {m : Matrix Constant} {bytes : List UInt8}
    (h : StoredArray m bytes) :
    ∃ bytes', arrayBytes m = .ok bytes' ∧ bytes'.length ≤ bytes.length := by
  obtain ⟨hrowsMax, hcolsMax⟩ := h.fits
  obtain ⟨lastCol, lastRow, _, hcols, hrows, hlength, ⟨cells, hcells, rfl⟩, rfl⟩ := h
  obtain ⟨cells', hcells', hle⟩ := Layout.exists_shorter hcells fun c stored hc =>
    Constant.Stored.exists_bytes hc
  refine ⟨_, arrayBytes_eq_ok.mpr ⟨hrowsMax, hcolsMax, cells', hcells', rfl⟩, ?_⟩
  simp only [List.cons_append, List.length_cons, List.length_append, length_wordBytes]
  omega

theorem StoredAreaList.bytes_eq {areas : List MemRange} {bytes : List UInt8}
    (h : StoredAreaList areas bytes) : areaListBytes areas = .ok bytes := by
  obtain ⟨count, ranges, hlength, hranges, rfl⟩ := h
  have hmax : areas.length ≤ maxAreas := by
    rw [hlength]
    exact Nat.le_of_lt_succ count.toNat_lt
  have hcount : areas.length.toUInt16 = count := by
    rw [hlength]
    exact UInt16.ofNat_toNat
  rw [areaListBytes, if_pos hmax, hcount, each_memRange_iff.mp hranges]

namespace Token

theorem StoredFields.exists_fields {t : Token} {bytes : List UInt8} (h : t.StoredFields bytes) :
    ∃ fields, t.fields = .ok fields ∧ fields.length ≤ bytes.length := by
  cases t with
  | operator op => exact ⟨[], rfl, Nat.zero_le _⟩
  | shared row col => exact ⟨bytes, congrArg Except.ok (Eq.symm h), Nat.le_refl _⟩
  | table row col => exact ⟨bytes, congrArg Except.ok (Eq.symm h), Nat.le_refl _⟩
  | paren => exact ⟨[], rfl, Nat.zero_le _⟩
  | missing => exact ⟨[], rfl, Nat.zero_le _⟩
  | hint a => exact ⟨bytes, Attribute.Stored.bytes_eq h, Nat.le_refl _⟩
  | literal l => exact Literal.Stored.exists_bytes h
  | reference r cls => exact ⟨r.bytes, rfl, Nat.le_of_eq (Reference.Stored.length_bytes h)⟩
  | name n cls =>
    cases n with
    | defined index =>
      obtain ⟨reserved, hreserved, rfl⟩ := h
      refine ⟨_, rfl, Nat.le_of_eq ?_⟩
      rw [List.length_append, List.length_append, length_zeroBytes, hreserved]
    | external sheet index =>
      obtain ⟨reserved, hreserved, rfl⟩ := h
      refine ⟨_, rfl, Nat.le_of_eq ?_⟩
      simp only [List.length_append, length_zeroBytes, hreserved]
  | mem m cls => exact ⟨m.bytes, rfl, Nat.le_of_eq (MemToken.Stored.length_bytes h)⟩
  | array cells cls => exact ⟨zeroBytes 7, rfl, Nat.le_of_eq (Eq.symm h)⟩
  | call c cls => exact ⟨bytes, Call.Stored.bytes_eq h, Nat.le_refl _⟩

/-- **A token that is stored in a stream is written, and not any longer.** -/
theorem Stored.exists_streamBytes {t : Token} {piece : List UInt8} (h : t.Stored piece) :
    ∃ piece', t.streamBytes = .ok piece' ∧ piece'.length ≤ piece.length := by
  obtain ⟨bytes, hbytes, rfl⟩ := h
  obtain ⟨fields, hfields, hlength⟩ := hbytes.exists_fields
  exact ⟨t.opcode :: fields, streamBytes_eq_ok.mpr ⟨fields, hfields, rfl⟩,
    Nat.succ_le_succ hlength⟩

/-- **A literal that is stored is written, and not any longer.** -/
theorem StoredLiteral.exists_literalBytes {t : Token} {payload : List UInt8}
    (h : t.StoredLiteral payload) :
    ∃ payload', t.literalBytes = .ok payload' ∧ payload'.length ≤ payload.length := by
  cases t with
  | array cells cls =>
    cases cells with
    | none => exact h.elim
    | some m => exact StoredArray.exists_bytes h
  | mem m cls =>
    cases m with
    | area size areas =>
      cases areas with
      | none => exact h.elim
      | some areas => exact ⟨payload, StoredAreaList.bytes_eq h, Nat.le_refl _⟩
    | _ => exact ⟨[], rfl, Nat.zero_le _⟩
  | _ => exact ⟨[], rfl, Nat.zero_le _⟩

/-- **A token that is stored keeps the promises of its type.** -/
theorem storable_of_stored {t : Token} {piece payload : List UInt8} (h : t.Stored piece)
    (h' : t.StoredLiteral payload) : t.Storable := by
  obtain ⟨fields, hfields, -⟩ := h
  constructor
  · rintro r cls rfl
    exact Reference.Stored.col_le hfields
  · rintro a rfl hchoose
    obtain ⟨hlength, -⟩ := hfields
    rw [hchoose] at hlength
    exact List.length_eq_zero_iff.mp hlength
  · rintro m cls rfl
    exact StoredArray.wellFormed h'

end Token

end CellFormula
