import CellFormula.Formula.Reading
import CellFormula.Proofs.StoredConstant
import Mathlib.Data.Nat.Bitwise
import Mathlib.Tactic.IntervalCases

/-!
# Stored tokens

`Token.Stored` says which bytes of a token stream are a stored form of a token: its opcode and the
fields behind it. It goes by the kind of the token and speaks of words, bytes and reserved bytes
only; reading goes by the opcode, so nothing here is shared with it but the opcode itself.

## Flags inside words

A column shares its word with two flags, a count of arguments its byte with one, and the index of a
function its word with another. The forms below say what number the word is, as a sum. That the bit
operations of reading take that sum apart, and those of writing put it together, is arithmetic.

## Literals are elsewhere

The array of an array token and the list of a memory token stand behind the stream, and their token
is the same there whatever they are. So `Token.Stored` does not look at them, and reading gives the
*bare* token, `Token.bare`.

## Main definitions

* `CellRef.StoredColumn`, `Flagged` — words with flags in them
* `CellRef.Stored`, `AreaRef.Stored`, `Reference.Stored`, `MemToken.Stored`, `Literal.Stored`,
  `Attribute.Stored`, `Call.Stored` — the kinds of fields
* `Token.StoredFields`, `Token.Stored` — the stored forms of a token
* `Token.bare` — the token without its literal

## Main results

* `CellRef.ofFields_eq_iff`, `count_eq_iff`, `index_eq_iff` — words with flags are taken apart
* `accepts_cellField`, `accepts_areaField`, `accepts_textField`, `accepts_attributeField`,
  `accepts_errorField`, `accepts_booleanField`, `accepts_fixedCall`, `accepts_countedCall`
-/

namespace CellFormula

open Text

/-! ### Flags inside words -/

/-- The word is the column of the cell with its two flags above it. -/
def CellRef.StoredColumn (c : CellRef) (field : UInt16) : Prop :=
  c.col.toNat < 2 ^ 14 ∧ field.toNat = c.col.toNat + (if c.colRelative then 2 ^ 14 else 0)
    + (if c.rowRelative then 2 ^ 15 else 0)

/-- The number is made of another one in its lowest bits and a flag in the bit above. -/
def Flagged (bits low : ℕ) (flag : Bool) (field : ℕ) : Prop :=
  low < 2 ^ bits ∧ field = low + (if flag then 2 ^ bits else 0)

theorem flagged_iff {bits low field : ℕ} {flag : Bool} (h : field < 2 ^ (bits + 1)) :
    Flagged bits low flag field ↔ field % 2 ^ bits = low ∧ field.testBit bits = flag := by
  have hpos : 0 < 2 ^ bits := Nat.two_pow_pos bits
  rw [pow_succ] at h
  constructor
  · rintro ⟨hlow, rfl⟩
    rw [Nat.testBit_eq_decide_div_mod_eq]
    cases flag
    · simp [Nat.mod_eq_of_lt hlow, Nat.div_eq_of_lt hlow]
    · simp [Nat.mod_eq_of_lt hlow, Nat.div_eq_of_lt hlow, Nat.add_div_right _ hpos]
  · rintro ⟨rfl, rfl⟩
    refine ⟨Nat.mod_lt _ hpos, ?_⟩
    have hdiv : field / 2 ^ bits < 2 := Nat.div_lt_of_lt_mul h
    have hsplit := Nat.mod_add_div field (2 ^ bits)
    rw [Nat.testBit_eq_decide_div_mod_eq]
    generalize field / 2 ^ bits = high at hdiv hsplit ⊢
    interval_cases high
    · simpa using hsplit.symm
    · simpa using hsplit.symm

theorem word_flag_eq (w : UInt16) (i : ℕ) (hi : i < 16) :
    (w &&& UInt16.ofNat (2 ^ i) != 0) = w.toNat.testBit i := by
  have hpow : 2 ^ i < UInt16.size := Nat.pow_lt_pow_right (by norm_num) hi
  have hnat : (w &&& UInt16.ofNat (2 ^ i)).toNat = (w.toNat.testBit i).toNat * 2 ^ i := by
    rw [UInt16.toNat_and, UInt16.toNat_ofNat_of_lt' hpow, Nat.and_two_pow]
  rw [bne, Bool.eq_iff_iff, Bool.not_eq_true', beq_eq_false_iff_ne, ne_eq, ← UInt16.toNat_inj, hnat]
  cases w.toNat.testBit i <;> simp

theorem byte_flag_eq (b : UInt8) (i : ℕ) (hi : i < 8) :
    (b &&& UInt8.ofNat (2 ^ i) != 0) = b.toNat.testBit i := by
  have hpow : 2 ^ i < UInt8.size := Nat.pow_lt_pow_right (by norm_num) hi
  have hnat : (b &&& UInt8.ofNat (2 ^ i)).toNat = (b.toNat.testBit i).toNat * 2 ^ i := by
    rw [UInt8.toNat_and, UInt8.toNat_ofNat_of_lt' hpow, Nat.and_two_pow]
  rw [bne, Bool.eq_iff_iff, Bool.not_eq_true', beq_eq_false_iff_ne, ne_eq, ← UInt8.toNat_inj, hnat]
  cases b.toNat.testBit i <;> simp

theorem toNat_and_columnMask (w : UInt16) : (w &&& columnMask).toNat = w.toNat % 2 ^ 14 := by
  rw [UInt16.toNat_and]
  exact Nat.and_two_pow_sub_one_eq_mod w.toNat 14

theorem toNat_and_indexMask (w : UInt16) : (w &&& indexMask).toNat = w.toNat % 2 ^ 15 := by
  rw [UInt16.toNat_and]
  exact Nat.and_two_pow_sub_one_eq_mod w.toNat 15

theorem toNat_and_countMask (b : UInt8) : (b &&& countMask).toNat = b.toNat % 2 ^ 7 := by
  rw [UInt8.toNat_and]
  exact Nat.and_two_pow_sub_one_eq_mod b.toNat 7

/-- **A column word is taken apart by reading.** -/
theorem CellRef.ofFields_eq_iff {row field : UInt16} {c : CellRef} :
    ofFields row field = c ↔ c.row = row ∧ c.StoredColumn field := by
  have hfield : field.toNat < 2 ^ 16 := field.toNat_lt
  have hrow : (field &&& rowFlag != 0) = decide (field.toNat / 2 ^ 15 % 2 = 1) := by
    rw [← Nat.testBit_eq_decide_div_mod_eq]
    exact word_flag_eq field 15 (by norm_num)
  have hcol : (field &&& columnFlag != 0) = decide (field.toNat / 2 ^ 14 % 2 = 1) := by
    rw [← Nat.testBit_eq_decide_div_mod_eq]
    exact word_flag_eq field 14 (by norm_num)
  obtain ⟨r, col, rowRelative, colRelative⟩ := c
  simp only [ofFields, StoredColumn, mk.injEq, hrow, hcol,
    ← UInt16.toNat_inj (a := field &&& columnMask), toNat_and_columnMask]
  constructor
  · rintro ⟨rfl, hc, rfl, rfl⟩
    refine ⟨rfl, by omega, ?_⟩
    simp only [decide_eq_true_eq]
    split <;> split <;> omega
  · rintro ⟨rfl, hlt, hsum⟩
    refine ⟨rfl, ?_, ?_, ?_⟩
    · split at hsum <;> split at hsum <;> omega
    · cases rowRelative <;> cases colRelative <;> simp at hsum ⊢ <;> omega
    · cases rowRelative <;> cases colRelative <;> simp at hsum ⊢ <;> omega

/-- **A count byte is taken apart by reading.** -/
theorem count_eq_iff {field count : UInt8} {prompt : Bool} :
    (field &&& countMask = count ∧ (field &&& promptFlag != 0) = prompt) ↔
      Flagged 7 count.toNat prompt field.toNat := by
  have hflag : (field &&& promptFlag != 0) = field.toNat.testBit 7 :=
    byte_flag_eq field 7 (by norm_num)
  rw [flagged_iff field.toNat_lt, ← UInt8.toNat_inj, toNat_and_countMask, hflag]

/-- **An index word is taken apart by reading.** -/
theorem index_eq_iff {field index : UInt16} {command : Bool} :
    (field &&& indexMask = index ∧ (field &&& commandFlag != 0) = command) ↔
      Flagged 15 index.toNat command field.toNat := by
  have hflag : (field &&& commandFlag != 0) = field.toNat.testBit 15 :=
    word_flag_eq field 15 (by norm_num)
  rw [flagged_iff field.toNat_lt, ← UInt16.toNat_inj, toNat_and_indexMask, hflag]

/-! ### The kinds of fields -/

/-- A cell: its row, and its column with the flags. -/
def CellRef.Stored : Layout CellRef := fun c bytes =>
  ∃ field, c.StoredColumn field ∧ bytes = wordBytes c.row ++ wordBytes field

/-- An area: both rows and then both columns with their flags. -/
def AreaRef.Stored : Layout AreaRef := fun a bytes =>
  ∃ firstField lastField, a.first.StoredColumn firstField ∧ a.last.StoredColumn lastField ∧
    bytes = wordBytes a.first.row ++ wordBytes a.last.row
      ++ wordBytes firstField ++ wordBytes lastField

/-- A reference. A deleted one is reserved bytes, and one to another sheet begins with its link. -/
def Reference.Stored : Layout Reference
  | cell c, bytes | sharedCell c, bytes => c.Stored bytes
  | area a, bytes | sharedArea a, bytes => a.Stored bytes
  | cellGone, bytes => bytes.length = 4
  | areaGone, bytes => bytes.length = 8
  | sheetCell sheet c, bytes => ∃ rest, c.Stored rest ∧ bytes = wordBytes sheet ++ rest
  | sheetArea sheet a, bytes => ∃ rest, a.Stored rest ∧ bytes = wordBytes sheet ++ rest
  | sheetCellGone sheet, bytes => ∃ reserved : List UInt8, reserved.length = 4 ∧
      bytes = wordBytes sheet ++ reserved
  | sheetAreaGone sheet, bytes => ∃ reserved : List UInt8, reserved.length = 8 ∧
      bytes = wordBytes sheet ++ reserved

/-- A name. -/
def NameRef.Stored : Layout NameRef
  | defined index, bytes => ∃ reserved : List UInt8, reserved.length = 2 ∧
      bytes = wordBytes index ++ reserved
  | external sheet index, bytes => ∃ reserved : List UInt8, reserved.length = 2 ∧
      bytes = wordBytes sheet ++ wordBytes index ++ reserved

/-- A memory token. Its area list, if it has one, is not here. -/
def MemToken.Stored : Layout MemToken
  | area size _, bytes | noMem size, bytes => ∃ reserved : List UInt8, reserved.length = 4 ∧
      bytes = reserved ++ wordBytes size
  | err code size, bytes => ∃ reserved : List UInt8, reserved.length = 3 ∧
      bytes = code :: (reserved ++ wordBytes size)
  | func size, bytes | sharedArea size, bytes | sharedNoMem size, bytes => bytes = wordBytes size

/-- A literal. -/
def Literal.Stored : Layout Literal
  | int n, bytes => bytes = wordBytes n
  | number x, bytes => bytes = quadBytes x.bits
  | boolean b, bytes => bytes = [b.toUInt8]
  | error kind, bytes => bytes = [kind.byte]
  | text s, bytes => ∃ count flags raw, StoredAs s flags raw ∧ (units s).length = count.toNat ∧
      bytes = count :: flags :: raw

/-- A hint. A choice has one jump more than its word says, and no other hint has any. -/
def Attribute.Stored : Layout Attribute := fun a bytes =>
  a.jumps.length = (if a.isChoose then a.data.toNat + 1 else 0) ∧
    bytes = a.options :: (wordBytes a.data ++ a.jumps.flatMap wordBytes)

/-- A call of a function of the catalogue. One without a count is stored for functions that always
take the same number of arguments, and a count has to be one that the function takes. -/
def Call.Stored : Layout Call
  | fixed index, bytes =>
    (∃ info, Worksheet.functionAt? index = some info ∧ info.hasFixedArity = true) ∧
      bytes = wordBytes index
  | counted index count prompt command, bytes =>
    (∃ info, Worksheet.functionAt? index = some info ∧ info.accepts count.toNat = true) ∧
      ∃ countField indexField, Flagged 7 count.toNat prompt countField.toNat ∧
        Flagged 15 index.toNat command indexField.toNat ∧
        bytes = countField :: wordBytes indexField

namespace Token

/-- The fields behind the opcode. -/
def StoredFields : Layout Token
  | operator _, bytes | paren, bytes | missing, bytes => bytes = []
  | shared row col, bytes | table row col, bytes => bytes = wordBytes row ++ wordBytes col
  | hint a, bytes => a.Stored bytes
  | literal l, bytes => l.Stored bytes
  | reference r _, bytes => r.Stored bytes
  | name n _, bytes => n.Stored bytes
  | mem m _, bytes => m.Stored bytes
  | array _ _, bytes => bytes.length = 7
  | call c _, bytes => c.Stored bytes

/-- **The stored forms of a token in the token stream.** -/
def Stored : Layout Token := fun t bytes => ∃ fields, t.StoredFields fields ∧
  bytes = t.opcode :: fields

/-- The token without the literal that it has behind the stream. -/
def bare : Token → Token
  | array _ cls => array none cls
  | mem (.area size _) cls => mem (.area size none) cls
  | other => other

@[simp] theorem opcode_bare (t : Token) : t.bare.opcode = t.opcode := by
  cases t with
  | mem m cls => cases m <;> rfl
  | _ => rfl

@[simp] theorem bare_bare (t : Token) : t.bare.bare = t.bare := by
  cases t with
  | mem m cls => cases m <;> rfl
  | _ => rfl

/-- A token has the same stored forms whatever its literal is. -/
theorem storedFields_bare {t : Token} {bytes : List UInt8} :
    t.bare.StoredFields bytes ↔ t.StoredFields bytes := by
  cases t with
  | mem m cls => cases m <;> exact Iff.rfl
  | _ => exact Iff.rfl

theorem stored_bare {t : Token} {bytes : List UInt8} : t.bare.Stored bytes ↔ t.Stored bytes := by
  simp only [Stored, storedFields_bare, opcode_bare]

end Token

/-! ### Reading the kinds of fields -/

theorem accepts_byteField : Reads.Accepts byteField fun b bytes => bytes = [b] :=
  Cursor.accepts_byte.adapt _

theorem accepts_wordField : Reads.Accepts wordField fun w bytes => bytes = wordBytes w :=
  Cursor.accepts_word.adapt _

theorem accepts_reserved (count : ℕ) :
    Reads.Accepts (reserved count) fun _ bytes => bytes.length = count :=
  (Cursor.accepts_skip count).adapt _

theorem accepts_cellField : Reads.Accepts cellField CellRef.Stored := by
  refine (accepts_wordField.bind fun row => accepts_wordField.map fun field =>
    CellRef.ofFields row field).congr fun c bytes => ?_
  constructor
  · rintro ⟨row, _, _, rfl, ⟨field, rfl, hc⟩, rfl⟩
    obtain ⟨rfl, hfield⟩ := CellRef.ofFields_eq_iff.mp hc
    exact ⟨field, hfield, rfl⟩
  · rintro ⟨field, hfield, rfl⟩
    exact ⟨c.row, _, _, rfl, ⟨field, rfl, CellRef.ofFields_eq_iff.mpr ⟨rfl, hfield⟩⟩, rfl⟩

theorem accepts_areaField : Reads.Accepts areaField AreaRef.Stored := by
  refine (accepts_wordField.bind fun firstRow => accepts_wordField.bind fun lastRow =>
    accepts_wordField.bind fun firstField => accepts_wordField.map fun lastField =>
      AreaRef.mk (.ofFields firstRow firstField) (.ofFields lastRow lastField)).congr
    fun a bytes => ?_
  obtain ⟨first, last⟩ := a
  constructor
  · rintro ⟨r, _, _, rfl, ⟨r', _, _, rfl, ⟨field, _, _, rfl, ⟨field', rfl, ha⟩, rfl⟩, rfl⟩, rfl⟩
    obtain ⟨hfirst, hlast⟩ := AreaRef.mk.inj ha
    obtain ⟨rfl, hfield⟩ := CellRef.ofFields_eq_iff.mp hfirst
    obtain ⟨rfl, hfield'⟩ := CellRef.ofFields_eq_iff.mp hlast
    exact ⟨field, field', hfield, hfield', by simp⟩
  · rintro ⟨field, field', hfield, hfield', rfl⟩
    have hfirst := CellRef.ofFields_eq_iff.mpr ⟨rfl, hfield⟩
    have hlast := CellRef.ofFields_eq_iff.mpr ⟨rfl, hfield'⟩
    exact ⟨first.row, _, _, rfl, ⟨last.row, _, _, rfl, ⟨field, _, _, rfl,
      ⟨field', rfl, by rw [hfirst, hlast]⟩, rfl⟩, rfl⟩, by simp⟩

theorem accepts_textField :
    Reads.Accepts textField fun s bytes => Literal.Stored (.text s) bytes := by
  refine (accepts_byteField.bind fun count => accepts_byteField.bind fun flags =>
    accepts_text TokenFault.textCutShort count.toNat flags id _).congr fun s bytes => ?_
  constructor
  · rintro ⟨count, _, _, rfl, ⟨flags, _, raw, rfl, ⟨s', hraw, hcount, rfl⟩, rfl⟩, rfl⟩
    exact ⟨count, flags, raw, hraw, hcount, rfl⟩
  · rintro ⟨count, flags, raw, hraw, hcount, rfl⟩
    exact ⟨count, _, _, rfl, ⟨flags, _, raw, rfl, ⟨s, hraw, hcount, rfl⟩, rfl⟩, rfl⟩

/-- The jumps of a choice, and no jumps otherwise. -/
theorem accepts_jumps (options : UInt8) (data : UInt16) :
    Reads.Accepts (if (Attribute.plain options data).isChoose then do
        return (⟨options, data, ← Reads.times (data.toNat + 1) wordField⟩ : Attribute)
      else return Attribute.plain options data) fun a bytes =>
        a.options = options ∧ a.data = data ∧
          a.jumps.length = (if a.isChoose then a.data.toNat + 1 else 0) ∧
          bytes = a.jumps.flatMap wordBytes := by
  have hsame (jumps : List UInt16) : Attribute.isChoose ⟨options, data, jumps⟩
      = (Attribute.plain options data).isChoose := rfl
  by_cases hchoose : (Attribute.plain options data).isChoose = true
  · rw [if_pos hchoose]
    refine ((accepts_wordField.times (data.toNat + 1)).map fun jumps =>
      Attribute.mk options data jumps).congr fun a bytes => ?_
    constructor
    · rintro ⟨jumps, ⟨hlength, hjumps⟩, rfl⟩
      rw [hsame, if_pos hchoose]
      exact ⟨rfl, rfl, hlength, (Layout.each_iff_flatMap fun _ _ => Iff.rfl).mp hjumps⟩
    · obtain ⟨o, d, jumps⟩ := a
      rintro ⟨rfl, rfl, hlength, hjumps⟩
      rw [hsame, if_pos hchoose] at hlength
      exact ⟨jumps, ⟨hlength, (Layout.each_iff_flatMap fun _ _ => Iff.rfl).mpr hjumps⟩, rfl⟩
  · rw [if_neg hchoose]
    refine (Reads.Accepts.pure (Attribute.plain options data)).congr fun a bytes => ?_
    constructor
    · rintro ⟨rfl, rfl⟩
      rw [if_neg hchoose]
      exact ⟨rfl, rfl, rfl, rfl⟩
    · obtain ⟨o, d, jumps⟩ := a
      rintro ⟨rfl, rfl, hlength, rfl⟩
      rw [hsame, if_neg hchoose] at hlength
      obtain rfl := List.length_eq_zero_iff.mp hlength
      exact ⟨rfl, rfl⟩

theorem accepts_attributeField : Reads.Accepts attributeField Attribute.Stored := by
  refine (accepts_byteField.bind fun options => accepts_wordField.bind fun data =>
    accepts_jumps options data).congr fun a bytes => ?_
  constructor
  · rintro ⟨options, _, _, rfl, ⟨data, _, _, rfl, ⟨rfl, rfl, hlength, rfl⟩, rfl⟩, rfl⟩
    exact ⟨hlength, rfl⟩
  · rintro ⟨hlength, rfl⟩
    exact ⟨a.options, _, _, rfl, ⟨a.data, _, _, rfl, ⟨rfl, rfl, hlength, rfl⟩, rfl⟩, rfl⟩

/-- Each error has a byte, and each byte at most one error. -/
theorem ofByte?_eq_some_iff {b : UInt8} {kind : ErrorKind} :
    ErrorKind.ofByte? b = some kind ↔ kind.byte = b := by
  constructor
  · intro h
    have hfound := List.find?_some h
    exact beq_iff_eq.mp hfound
  · rintro rfl
    exact ErrorKind.ofByte?_byte kind

theorem accepts_errorField :
    Reads.Accepts errorField fun kind bytes => bytes = [kind.byte] := by
  refine (accepts_byteField.bind fun code => .lookup (ErrorKind.ofByte? code) id _
    (fun kind hkind => by rw [hkind]; rfl) (fun hnone => by rw [hnone])).congr fun kind bytes => ?_
  constructor
  · rintro ⟨code, _, _, rfl, ⟨⟨kind', hkind, rfl⟩, rfl⟩, rfl⟩
    rw [← ofByte?_eq_some_iff.mp hkind]
    rfl
  · rintro rfl
    exact ⟨kind.byte, _, _, rfl, ⟨⟨kind, ErrorKind.ofByte?_byte kind, rfl⟩, rfl⟩, rfl⟩

theorem accepts_booleanField :
    Reads.Accepts booleanField fun b bytes => bytes = [b.toUInt8] := by
  refine (accepts_byteField.bind fun value => accepts_truth id value _).congr fun b bytes => ?_
  constructor
  · rintro ⟨_, _, _, rfl, ⟨⟨b', rfl, rfl⟩, rfl⟩, rfl⟩
    rfl
  · rintro rfl
    exact ⟨b.toUInt8, _, _, rfl, ⟨⟨b, rfl, rfl⟩, rfl⟩, rfl⟩

theorem accepts_calledFunction (index : UInt16) :
    Reads.Accepts (calledFunction index) fun info bytes =>
      Worksheet.functionAt? index = some info ∧ bytes = [] := by
  rw [calledFunction]
  refine (Reads.Accepts.lookup (Worksheet.functionAt? index) id _
    (fun info hinfo => by rw [hinfo]; rfl) (fun hnone => by rw [hnone])).congr fun info bytes => ?_
  simp

theorem accepts_fixedCall :
    Reads.Accepts fixedCall fun c bytes =>
      ∃ index, Call.Stored (.fixed index) bytes ∧ .fixed index = c := by
  refine (accepts_wordField.bind fun index => (accepts_calledFunction index).bind fun info =>
    .check (Call.fixed index) _).congr fun c bytes => ?_
  constructor
  · rintro ⟨index, _, _, rfl, ⟨info, _, _, ⟨hinfo, rfl⟩, ⟨hfixed, rfl, rfl⟩, rfl⟩, rfl⟩
    exact ⟨index, ⟨⟨info, hinfo, hfixed⟩, by simp⟩, rfl⟩
  · rintro ⟨index, ⟨⟨info, hinfo, hfixed⟩, rfl⟩, rfl⟩
    exact ⟨index, _, [], rfl, ⟨info, [], [], ⟨hinfo, rfl⟩, ⟨hfixed, rfl, rfl⟩, rfl⟩, by simp⟩

theorem accepts_countedCall :
    Reads.Accepts countedCall fun c bytes => ∃ index count prompt command,
      Call.Stored (.counted index count prompt command) bytes ∧
        .counted index count prompt command = c := by
  refine (accepts_byteField.bind fun countByte => accepts_wordField.bind fun indexWord =>
    (accepts_calledFunction (indexWord &&& indexMask)).bind fun info =>
      .check (Call.counted (indexWord &&& indexMask) (countByte &&& countMask)
        (countByte &&& promptFlag != 0) (indexWord &&& commandFlag != 0)) _).congr
    fun c bytes => ?_
  constructor
  · rintro ⟨countByte, _, _, rfl, ⟨indexWord, _, _, rfl,
      ⟨info, _, _, ⟨hinfo, rfl⟩, ⟨haccepts, rfl, rfl⟩, rfl⟩, rfl⟩, rfl⟩
    exact ⟨_, _, _, _, ⟨⟨info, hinfo, haccepts⟩, countByte, indexWord,
      count_eq_iff.mp ⟨rfl, rfl⟩, index_eq_iff.mp ⟨rfl, rfl⟩, by simp⟩, rfl⟩
  · rintro ⟨index, count, prompt, command,
      ⟨⟨info, hinfo, haccepts⟩, countByte, indexWord, hcount, hindex, rfl⟩, rfl⟩
    obtain ⟨rfl, rfl⟩ := count_eq_iff.mpr hcount
    obtain ⟨rfl, rfl⟩ := index_eq_iff.mpr hindex
    exact ⟨countByte, _, _, rfl, ⟨indexWord, _, [], rfl,
      ⟨info, [], [], ⟨hinfo, rfl⟩, ⟨haccepts, rfl, rfl⟩, rfl⟩, rfl⟩, by simp⟩

end CellFormula
