import CellFormula.Proofs.ReadingStops
import CellFormula.Proofs.RoundTrip

/-!
# What keeps a formula from being written

Writing goes through the tokens twice, once for the stream and once for the literals behind it, and
looks at the size of the stream in between. So a formula is written exactly when each token fits
into the stream, the stream is not too long, and each literal fits behind it. Otherwise the error is
that of the first token that does not fit into the stream; if all do, the size of the stream; and if
that can be declared, the error of the first literal that does not fit. Whatever is wrong with a
literal is not seen as long as anything is wrong with the stream.

## Limits and counts

Counts, shapes and indices are cut to bytes and words when they are written. None of that loses
anything: whatever does not fit is a fault, and the size of the stream is the sum of the sizes that
the tokens say they have (`Token.length_of_streamBytes`).

## Main definitions

* `Token.FitsStream`, `Token.FitsTrailing` — tokens that can be written
* `Token.StreamFault`, `Token.TrailingFault` — what keeps a token from being written
* `Formula.FirstFault` — the error of the first token that has a fault

## Main results

* `writeEach_eq_error_iff` — a pass stops at the first token that has a fault
* `Formula.encode_verdict` — when a formula is written, and the error otherwise
-/

namespace CellFormula

open Text (units)
open Worksheet (FunctionInfo functionAt?)

/-! ### Tokens that can be written -/

/-- The call can be written for the function that it calls. -/
def Call.Fits (c : Call) (info : FunctionInfo) : Prop :=
  match c with
  | fixed _ => info.hasFixedArity = true
  | counted _ count _ _ => count.toNat ≤ maxCount ∧ info.accepts count.toNat = true

/-- The constant can be written. -/
def Constant.Fits : Constant → Prop
  | text s => (units s).length ≤ maxTextUnits
  | _ => True

/-- The shape can be written in front of the cells of an array literal. -/
def Matrix.ShapeFits (m : Matrix Constant) : Prop := m.rows ≤ maxArrayRows ∧ m.cols ≤ maxArrayCols

namespace Token

/-- The token can be written into the stream. -/
def FitsStream : Token → Prop
  | literal (.text s) => (units s).length ≤ maxLiteralUnits
  | hint a => a.isChoose = true → a.jumps.length = a.data.toNat + 1
  | call c _ => ∃ info, functionAt? c.index = some info ∧ c.Fits info
  | _ => True

/-- The literal of the token is there, and it can be written behind the stream. -/
def FitsTrailing : Token → Prop
  | array cells _ => ∃ m, cells = some m ∧ m.ShapeFits ∧ ∀ c ∈ m.cells.toList, c.Fits
  | mem (.area _ areas) _ => ∃ rs, areas = some rs ∧ rs.length ≤ maxAreas
  | _ => True

/-- What keeps the token from being written into the stream. -/
inductive StreamFault : Token → WriteFault → Prop
  | text {s : String} (long : maxLiteralUnits < (units s).length) :
    StreamFault (literal (.text s)) (.textTooLong (units s).length maxLiteralUnits)
  | jumps {a : Attribute} (isChoose : a.isChoose = true)
    (other : a.jumps.length ≠ a.data.toNat + 1) :
    StreamFault (hint a) (.wrongJumps (a.data.toNat + 1) a.jumps.length)
  | unknown {c : Call} {cls : OperandClass} (unknown : functionAt? c.index = none) :
    StreamFault (call c cls) (.unknownFunction c.index)
  | arity {c : Call} {cls : OperandClass} {info : FunctionInfo}
    (known : functionAt? c.index = some info) (other : ¬ c.Fits info) :
    StreamFault (call c cls)
      (.wrongArity c.index (c.argumentCount info) info.minArguments info.maxArguments)

/-- What keeps the literal of the token from being written behind the stream. -/
inductive TrailingFault : Token → WriteFault → Prop
  | noCells {cls : OperandClass} : TrailingFault (array none cls) .missingArray
  | shape {m : Matrix Constant} {cls : OperandClass} (large : ¬ m.ShapeFits) :
    TrailingFault (array (some m) cls) (.arrayTooLarge m.rows m.cols)
  /-- The first text that is too long counts. -/
  | text {m : Matrix Constant} {cls : OperandClass} {before after : List Constant} {s : String}
    (shape : m.ShapeFits) (cells : m.cells.toList = before ++ .text s :: after)
    (fit : ∀ c ∈ before, c.Fits) (long : Constant.maxTextUnits < (units s).length) :
    TrailingFault (array (some m) cls) (.textTooLong (units s).length Constant.maxTextUnits)
  | noAreas {size : UInt16} {cls : OperandClass} :
    TrailingFault (mem (.area size none) cls) .missingAreas
  | count {size : UInt16} {areas : List MemRange} {cls : OperandClass}
    (long : maxAreas < areas.length) :
    TrailingFault (mem (.area size (some areas)) cls) (.tooManyAreas areas.length)

end Token

/-- The error is that of the first token that has a fault, at the place of that token. -/
def Formula.FirstFault (faults : Token → WriteFault → Prop) (f : Formula) (e : EncodeError) :
    Prop :=
  ∃ before t after fault, f = before ++ t :: after ∧ (∀ u ∈ before, ∀ fault, ¬ faults u fault) ∧
    faults t fault ∧ e = .token before.length fault

/-! ### Tokens -/

theorem Call.bytesFor_of_fits {c : Call} {info : FunctionInfo} (h : c.Fits info) :
    ∃ bytes, c.bytesFor info = .ok bytes ∧ bytes.length = c.fieldSize := by
  cases c with
  | fixed index => exact ⟨_, if_pos h, rfl⟩
  | counted index count prompt command => exact ⟨_, if_pos h, rfl⟩

theorem Call.bytesFor_of_not_fits {c : Call} {info : FunctionInfo} (h : ¬ c.Fits info) :
    c.bytesFor info = .error
      (.wrongArity c.index (c.argumentCount info) info.minArguments info.maxArguments) := by
  cases c with
  | fixed index => exact if_neg h
  | counted index count prompt command => exact if_neg h

theorem length_textBody (us : List UInt16) : (textBody us).length = 1 + unitBytesSize us := by
  rw [textBody, List.length_cons, unitBytes, unitBytesSize, Nat.add_comm]
  split
  · rw [List.length_map]
  · rw [Text.length_flatMap_wordBytes]

namespace Token

/-- **A token that fits into the stream is written**, and it has the size there that it says. -/
theorem fields_of_fitsStream {t : Token} (h : t.FitsStream) :
    ∃ fields, t.fields = .ok fields ∧ fields.length = t.fieldSize := by
  cases t with
  | hint a =>
    rw [fields, fieldSize, Attribute.bytes, Attribute.fieldSize]
    by_cases hchoose : a.isChoose = true
    · rw [if_pos hchoose, if_pos (h hchoose), if_pos hchoose]
      refine ⟨_, rfl, ?_⟩
      rw [List.length_append, Text.length_flatMap_wordBytes, List.length_cons, length_wordBytes]
    · rw [if_neg hchoose, if_neg hchoose]
      exact ⟨_, rfl, rfl⟩
  | literal l =>
    cases l with
    | text s =>
      refine ⟨_, if_pos h, ?_⟩
      rw [List.length_cons, length_textBody, fieldSize]
      omega
    | _ => exact ⟨_, rfl, rfl⟩
  | call c cls =>
    obtain ⟨info, hinfo, hfits⟩ := h
    obtain ⟨bytes, hbytes, hlength⟩ := Call.bytesFor_of_fits hfits
    exact ⟨bytes, by simp only [fields, Call.bytes, hinfo, hbytes], hlength⟩
  | name n cls => cases n <;> exact ⟨_, rfl, rfl⟩
  | mem m cls => cases m <;> exact ⟨_, rfl, rfl⟩
  | reference r cls => cases r <;> exact ⟨_, rfl, rfl⟩
  | _ => exact ⟨_, rfl, rfl⟩

theorem fields_of_streamFault {t : Token} {fault : WriteFault} (h : t.StreamFault fault) :
    t.fields = .error fault := by
  cases h with
  | text long => exact if_neg (Nat.not_le.mpr long)
  | jumps isChoose other => rw [fields, Attribute.bytes, if_pos isChoose, if_neg other]
  | unknown unknown => rw [fields, Call.bytes, unknown]
  | arity known other => rw [fields, Call.bytes, known]; exact Call.bytesFor_of_not_fits other

theorem fitsStream_or_fault (t : Token) : t.FitsStream ∨ ∃ fault, t.StreamFault fault := by
  cases t with
  | hint a =>
    by_cases hchoose : a.isChoose = true
    · by_cases hlength : a.jumps.length = a.data.toNat + 1
      · exact .inl fun _ => hlength
      · exact .inr ⟨_, .jumps hchoose hlength⟩
    · exact .inl fun h => absurd h hchoose
  | literal l =>
    cases l with
    | text s => exact (Nat.lt_or_ge maxLiteralUnits _).symm.imp_right fun long => ⟨_, .text long⟩
    | _ => exact .inl trivial
  | call c cls =>
    cases hinfo : functionAt? c.index with
    | none => exact .inr ⟨_, .unknown hinfo⟩
    | some info =>
      by_cases hfits : c.Fits info
      · exact .inl ⟨info, hinfo, hfits⟩
      · exact .inr ⟨_, .arity hinfo hfits⟩
  | _ => exact .inl trivial

end Token

/-! ### Literals -/

namespace Constant

theorem bytes_of_fits {c : Constant} (h : c.Fits) : ∃ bytes, c.bytes = .ok bytes := by
  cases c with
  | text s => exact ⟨_, bytes_eq_ok.mpr ⟨_, if_pos h, rfl⟩⟩
  | _ => exact ⟨_, rfl⟩

theorem bytes_of_long {s : String} (h : maxTextUnits < (units s).length) :
    (text s).bytes = .error (.textTooLong (units s).length maxTextUnits) := by
  rw [bytes, write, payload, if_neg (Nat.not_le.mpr h)]

theorem exists_long_of_not_fits {c : Constant} (h : ¬ c.Fits) :
    ∃ s, c = text s ∧ maxTextUnits < (units s).length := by
  cases c with
  | text s => exact ⟨s, rfl, Nat.not_le.mp h⟩
  | _ => exact absurd trivial h

end Constant

namespace Token

theorem literalBytes_of_fitsTrailing {t : Token} (h : t.FitsTrailing) :
    ∃ bytes, t.literalBytes = .ok bytes := by
  cases t with
  | array cells cls =>
    obtain ⟨m, rfl, ⟨hrows, hcols⟩, hcells⟩ := h
    obtain ⟨bytes, hbytes⟩ := exists_mapM_eq_ok fun c hc => Constant.bytes_of_fits (hcells c hc)
    exact ⟨_, arrayBytes_eq_ok.mpr ⟨hrows, hcols, bytes, mapM_eq_ok.mp hbytes, rfl⟩⟩
  | mem m cls =>
    cases m with
    | area size areas =>
      obtain ⟨rs, rfl, hcount⟩ := h
      exact ⟨_, if_pos hcount⟩
    | _ => exact ⟨_, rfl⟩
  | _ => exact ⟨_, rfl⟩

theorem literalBytes_of_trailingFault {t : Token} {fault : WriteFault} (h : t.TrailingFault fault) :
    t.literalBytes = .error fault := by
  cases h with
  | noCells => rfl
  | @shape m cls large =>
    rw [Matrix.ShapeFits, not_and_or, Nat.not_le, Nat.not_le] at large
    rw [literalBytes, arrayBytes, if_pos large]
    rfl
  | @text m cls before after s shape cells fit long =>
    have hlarge : ¬ (maxArrayRows < m.rows ∨ maxArrayCols < m.cols) := by
      rw [not_or, Nat.not_lt, Nat.not_lt]
      exact shape
    rw [literalBytes, arrayBytes, if_neg hlarge, cells,
      mapM_eq_error (fun c hc => Constant.bytes_of_fits (fit c hc)) (Constant.bytes_of_long long)]
    rfl
  | noAreas => rfl
  | count long => exact if_neg (Nat.not_le.mpr long)

theorem fitsTrailing_or_fault (t : Token) : t.FitsTrailing ∨ ∃ fault, t.TrailingFault fault := by
  cases t with
  | array cells cls =>
    cases cells with
    | none => exact .inr ⟨_, .noCells⟩
    | some m =>
      by_cases hshape : m.ShapeFits
      · obtain hcells | ⟨before, c, after, hcells, hbefore, hc⟩ :=
          forall_mem_or_exists_first Constant.Fits m.cells.toList
        · exact .inl ⟨m, rfl, hshape, hcells⟩
        · obtain ⟨s, rfl, hlong⟩ := Constant.exists_long_of_not_fits hc
          exact .inr ⟨_, .text hshape hcells hbefore hlong⟩
      · exact .inr ⟨_, .shape hshape⟩
  | mem m cls =>
    cases m with
    | area size areas =>
      cases areas with
      | none => exact .inr ⟨_, .noAreas⟩
      | some rs =>
        exact (Nat.lt_or_ge maxAreas rs.length).symm.imp (fun h => ⟨rs, rfl, h⟩)
          fun long => ⟨_, .count long⟩
    | _ => exact .inl trivial
  | _ => exact .inl trivial

end Token

/-! ### Passes -/

/-- What is written fits, what is faulty is not written, and every token is one or the other. -/
structure Judges (write : Token → Except WriteFault (List UInt8)) (fits : Token → Prop)
    (faults : Token → WriteFault → Prop) : Prop where
  ok : ∀ {t}, fits t → ∃ bytes, write t = .ok bytes
  error : ∀ {t fault}, faults t fault → write t = .error fault
  total : ∀ t, fits t ∨ ∃ fault, faults t fault

theorem Token.judges_streamBytes : Judges streamBytes FitsStream StreamFault where
  ok h := by
    obtain ⟨fields, hfields, -⟩ := fields_of_fitsStream h
    exact ⟨_, streamBytes_eq_ok.mpr ⟨fields, hfields, rfl⟩⟩
  error h := by rw [streamBytes, fields_of_streamFault h]; rfl
  total := fitsStream_or_fault

theorem Token.judges_literalBytes : Judges literalBytes FitsTrailing TrailingFault :=
  ⟨literalBytes_of_fitsTrailing, literalBytes_of_trailingFault, fitsTrailing_or_fault⟩

namespace Judges

variable {write : Token → Except WriteFault (List UInt8)} {fits : Token → Prop}
  {faults : Token → WriteFault → Prop}

theorem fits_iff (h : Judges write fits faults) {t : Token} :
    fits t ↔ ∀ fault, ¬ faults t fault := by
  constructor
  · intro hfits fault hfault
    obtain ⟨bytes, hbytes⟩ := h.ok hfits
    rw [h.error hfault] at hbytes
    cases hbytes
  · intro hnone
    exact (h.total t).resolve_right fun ⟨fault, hfault⟩ => hnone fault hfault

theorem exists_writeEach (h : Judges write fits faults) {f : Formula} (hf : ∀ t ∈ f, fits t)
    (index : Nat) (done : List (List UInt8)) :
    ∃ bytes, writeEach write index done f = .ok bytes := by
  obtain ⟨pieces, hpieces⟩ := exists_mapM_eq_ok fun t ht => h.ok (hf t ht)
  exact ⟨_, writeEach_eq_ok_iff.mpr ⟨pieces, mapM_eq_ok.mp hpieces, rfl⟩⟩

/-- A pass stops at the first token that has a fault. -/
theorem writeEach_of_fault (h : Judges write fits faults) {before after : Formula} {t : Token}
    {fault : WriteFault} (hbefore : ∀ u ∈ before, fits u) (ht : faults t fault) (index : Nat)
    (done : List (List UInt8)) :
    writeEach write index done (before ++ t :: after)
      = .error (.token (index + before.length) fault) := by
  induction before generalizing index done with
  | nil =>
    rw [List.nil_append, writeEach, h.error ht]
    rfl
  | cons u before ih =>
    obtain ⟨hu, hrest⟩ := List.forall_mem_cons.mp hbefore
    obtain ⟨piece, hpiece⟩ := h.ok hu
    rw [List.cons_append, writeEach, hpiece]
    refine (ih hrest (index + 1) (piece :: done)).trans ?_
    rw [List.length_cons, Nat.add_assoc, Nat.add_comm 1]

/-- A pass succeeds, or it fails with the error of the first token that has a fault. -/
theorem writeEach_cases (h : Judges write fits faults) (f : Formula) :
    ((∀ t ∈ f, fits t) ∧ ∃ bytes, writeEach write 0 [] f = .ok bytes) ∨
      ∃ e, f.FirstFault faults e ∧ writeEach write 0 [] f = .error e := by
  obtain hall | ⟨before, t, after, rfl, hbefore, ht⟩ := forall_mem_or_exists_first fits f
  · exact .inl ⟨hall, h.exists_writeEach hall 0 []⟩
  · obtain ⟨fault, hfault⟩ := (h.total t).resolve_left ht
    refine .inr ⟨.token before.length fault, ?_, ?_⟩
    · exact ⟨before, t, after, fault, rfl, fun u hu => h.fits_iff.mp (hbefore u hu), hfault, rfl⟩
    · rw [h.writeEach_of_fault hbefore hfault, Nat.zero_add]

/-- **A pass fails with the error of the first token that has a fault.** -/
theorem writeEach_eq_error_iff (h : Judges write fits faults) {f : Formula} {e : EncodeError} :
    writeEach write 0 [] f = .error e ↔ f.FirstFault faults e := by
  constructor
  · intro hfails
    obtain ⟨-, bytes, hbytes⟩ | ⟨e', hfirst, he'⟩ := h.writeEach_cases f
    · rw [hfails] at hbytes
      cases hbytes
    · rw [hfails] at he'
      cases he'
      exact hfirst
  · rintro ⟨before, t, after, fault, rfl, hbefore, hfault, rfl⟩
    have hfits : ∀ u ∈ before, fits u := fun u hu => h.fits_iff.mpr (hbefore u hu)
    rw [h.writeEach_of_fault hfits hfault, Nat.zero_add]

/-- **A pass succeeds exactly when every token fits.** -/
theorem exists_writeEach_iff (h : Judges write fits faults) {f : Formula} :
    (∃ bytes, writeEach write 0 [] f = .ok bytes) ↔ ∀ t ∈ f, fits t := by
  refine ⟨fun ⟨bytes, hbytes⟩ => ?_, fun hf => h.exists_writeEach hf 0 []⟩
  obtain ⟨hall, -⟩ | ⟨e, -, he⟩ := h.writeEach_cases f
  · exact hall
  · rw [hbytes] at he
    cases he

end Judges

/-- **What is written of a token has the size that the token says it has.** -/
theorem Token.length_of_streamBytes {t : Token} {piece : List UInt8}
    (h : t.streamBytes = .ok piece) : piece.length = t.streamSize := by
  obtain ⟨fields, hfields, rfl⟩ := streamBytes_eq_ok.mp h
  have hfits : t.FitsStream := judges_streamBytes.fits_iff.mpr fun fault hfault => by
    rw [fields_of_streamFault hfault] at hfields
    cases hfields
  obtain ⟨fields', hfields', hlength⟩ := fields_of_fitsStream hfits
  cases hfields.symm.trans hfields'
  rw [List.length_cons, hlength, streamSize, Nat.add_comm]

namespace Formula

/-- The stream has the size that the formula says it has. -/
theorem length_of_writeEach {f : Formula} {stream : List UInt8}
    (h : writeEach Token.streamBytes 0 [] f = .ok stream) : stream.length = f.streamSize :=
  Layout.length_of_each (writeEach_eq_ok_iff_each.mp h) fun _ _ => Token.length_of_streamBytes

/-- A formula is not written for one of three reasons, each of which is only looked for when those
before it do not hold. -/
theorem encode_eq_error_iff {f : Formula} {e : EncodeError} :
    encode f = .error e ↔ writeEach Token.streamBytes 0 [] f = .error e ∨
      ∃ stream, writeEach Token.streamBytes 0 [] f = .ok stream ∧
        (maxStreamSize < stream.length ∧ e = .streamTooLong stream.length ∨
          stream.length ≤ maxStreamSize ∧ writeEach Token.literalBytes 0 [] f = .error e) := by
  rw [encode, except_bind_eq_error]
  refine or_congr_right (exists_congr fun stream => and_congr_right fun _ => ?_)
  by_cases hlong : maxStreamSize < stream.length
  · rw [if_pos hlong, and_iff_right hlong, or_iff_left fun h => absurd h.1 (Nat.not_le.mpr hlong)]
    exact ⟨fun h => (Except.error.inj h).symm, fun h => congrArg Except.error h.symm⟩
  · rw [if_neg hlong, and_iff_right (Nat.not_lt.mp hlong), or_iff_right fun h => absurd h.1 hlong]
    refine except_bind_eq_error.trans (or_iff_left ?_)
    rintro ⟨trailing, -, h⟩
    cases h

/-- **When a formula is written, and why it is not otherwise.** It is written exactly when every
token and every literal fits and the size of the stream can be declared. If it is not, the error is
that of the first token that does not fit into the stream, or else the size of the stream, or else
the error of the first literal that does not fit behind it, and it names the place of its token. -/
theorem encode_verdict (f : Formula) :
    ((∃ e, f.encode = .ok e) ↔
      (∀ t ∈ f, t.FitsStream ∧ t.FitsTrailing) ∧ f.streamSize ≤ maxStreamSize) ∧
    ∀ e, f.encode = .error e ↔
      f.FirstFault Token.StreamFault e ∨
      (∀ t ∈ f, t.FitsStream) ∧ maxStreamSize < f.streamSize ∧ e = .streamTooLong f.streamSize ∨
      (∀ t ∈ f, t.FitsStream) ∧ f.streamSize ≤ maxStreamSize ∧
        f.FirstFault Token.TrailingFault e := by
  have hstream : (∃ stream, writeEach Token.streamBytes 0 [] f = .ok stream) ↔
      ∀ t ∈ f, t.FitsStream := Token.judges_streamBytes.exists_writeEach_iff
  have htrailing : (∃ trailing, writeEach Token.literalBytes 0 [] f = .ok trailing) ↔
      ∀ t ∈ f, t.FitsTrailing := Token.judges_literalBytes.exists_writeEach_iff
  constructor
  · constructor
    · rintro ⟨e, he⟩
      obtain ⟨hfirst, hsize, hsecond⟩ := encode_eq_ok_iff.mp he
      rw [length_of_writeEach hfirst] at hsize
      have hfits := hstream.mp ⟨_, hfirst⟩
      have hfits' := htrailing.mp ⟨_, hsecond⟩
      exact ⟨fun t ht => ⟨hfits t ht, hfits' t ht⟩, hsize⟩
    · rintro ⟨hfits, hsize⟩
      obtain ⟨stream, hfirst⟩ := hstream.mpr fun t ht => (hfits t ht).1
      obtain ⟨trailing, hsecond⟩ := htrailing.mpr fun t ht => (hfits t ht).2
      rw [← length_of_writeEach hfirst] at hsize
      exact ⟨⟨stream, trailing⟩, encode_eq_ok_iff.mpr ⟨hfirst, hsize, hsecond⟩⟩
  · intro e
    rw [encode_eq_error_iff, Token.judges_streamBytes.writeEach_eq_error_iff,
      Token.judges_literalBytes.writeEach_eq_error_iff]
    refine or_congr_right ?_
    constructor
    · rintro ⟨stream, hfirst, hreason⟩
      have hfits := hstream.mp ⟨_, hfirst⟩
      rw [length_of_writeEach hfirst] at hreason
      exact hreason.imp (fun h => ⟨hfits, h⟩) fun h => ⟨hfits, h⟩
    · intro hreason
      obtain ⟨stream, hfirst⟩ := hstream.mpr (hreason.elim And.left And.left)
      refine ⟨stream, hfirst, ?_⟩
      rw [length_of_writeEach hfirst]
      exact hreason.imp And.right And.right

/-- A literal that is not there is not missed before every token is in the stream. -/
example : encode [.array none .array, .call (.fixed 0x0FFF) .value]
    = .error (.token 1 (.unknownFunction 0x0FFF)) := by
  rfl

end Formula

end CellFormula
