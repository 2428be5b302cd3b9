import CellFormula.Proofs.ReadingStops

/-!
# Literals that are cut short

A formula whose stream is complete can still miss bytes behind the stream. Then its reading fails,
wherever the buffer is cut, with the opcode of the first token whose literal is not all there; and
what lies behind the last literal is of no consequence.

## Reads that are steady

The literals are lists of lists of fields, and a cut can fall into any of them. None of that is
looked at. A read is *steady* when more bytes at the end of the buffer change nothing for it unless
it has failed for lack of bytes, and reads that are made of steady reads are steady. A steady read
of a stored form that is cut short cannot succeed, since it would take the same bytes from the whole
form and leave some, and it cannot fail for another reason, since it would fail on the whole form.

## Main definitions

* `Cursor.extend`, `Reads.Steady`
* `Formula.FirstCut` — the first token whose literal does not fit

## Main results

* `Reads.Steady.short_of_cut` — a stored form that is cut short is missed for lack of bytes
* `steady_readLiteral`, `readLiterals_of_cut`
* `Formula.decode_append_and_take`
-/

namespace CellFormula

/-- The cursor in a buffer with more bytes at its end. -/
def Cursor.extend (c : Cursor) (extra : List UInt8) : Cursor := ⟨c.position, c.rest ++ extra⟩

namespace Cursor

@[simp] theorem position_extend (c : Cursor) (extra : List UInt8) :
    (c.extend extra).position = c.position := rfl

@[simp] theorem rest_extend (c : Cursor) (extra : List UInt8) :
    (c.extend extra).rest = c.rest ++ extra := rfl

theorem Passes.extend {c c' : Cursor} {bytes : List UInt8} (h : c.Passes bytes c')
    (extra : List UInt8) : (c.extend extra).Passes bytes (c'.extend extra) := by
  obtain ⟨hrest, hposition⟩ := h
  refine ⟨?_, hposition⟩
  rw [rest_extend, rest_extend, hrest, List.append_assoc]

end Cursor

/-! ### Steady reads -/

namespace Reads

variable {ε ε' α β : Type}

/-- More bytes at the end of the buffer change nothing for the read, unless it has failed for lack
of bytes. -/
structure Steady (step : Reads ε α) (short : ε → Prop) : Prop where
  ok : ∀ {c a c'}, step c = .ok a c' → ∀ extra, step (c.extend extra) = .ok a (c'.extend extra)
  error : ∀ {c e c'}, step c = .error e c' → ¬ short e →
    ∀ extra, step (c.extend extra) = .error e (c'.extend extra)

namespace Steady

variable {step : Reads ε α} {short : ε → Prop}

/-- A read that fails for nothing but lack of bytes is steady. -/
theorem of_throws {layout : Layout α} (ha : Accepts step layout)
    (h : Throws step fun _ => short) : Steady step short where
  ok hs extra := by
    obtain ⟨bytes, hbytes, hpasses⟩ := ha.sound hs
    exact ha.complete hbytes (hpasses.extend extra)
  error hs hlong := absurd (h _ _ _ hs) hlong

theorem pure (a : α) : Steady (Pure.pure a : Reads ε α) short where
  ok hs extra := by
    cases hs
    rfl
  error hs := by cases hs

theorem throw (e : ε) : Steady (MonadExcept.throw e : Reads ε α) short where
  ok hs := by cases hs
  error hs _ extra := by
    cases hs
    rfl

theorem ite {p : Prop} [Decidable p] {yes no : Reads ε α} (hyes : Steady yes short)
    (hno : Steady no short) : Steady (if p then yes else no) short := by
  split
  · exact hyes
  · exact hno

theorem bind {next : α → Reads ε β} (h : Steady step short)
    (hnext : ∀ a, Steady (next a) short) : Steady (step >>= next) short where
  ok hs extra := by
    obtain ⟨a, c', hstep, hrest⟩ := bind_eq_ok.mp hs
    exact bind_eq_ok.mpr ⟨a, c'.extend extra, h.ok hstep extra, (hnext a).ok hrest extra⟩
  error hs hlong extra := by
    rcases bind_eq_error.mp hs with hstep | ⟨a, c', hstep, hrest⟩
    · exact bind_eq_error.mpr (.inl (h.error hstep hlong extra))
    · exact bind_eq_error.mpr
        (.inr ⟨a, c'.extend extra, h.ok hstep extra, (hnext a).error hrest hlong extra⟩)

theorem adapt {short' : ε' → Prop} {f : ε → ε'} (h : Steady step short)
    (hf : ∀ e, short e → short' (f e)) : Steady (EStateM.adaptExcept f step) short' where
  ok hs extra := adaptExcept_eq_ok.mpr (h.ok (adaptExcept_eq_ok.mp hs) extra)
  error hs hlong extra := by
    obtain ⟨e, he, rfl⟩ := adaptExcept_eq_error.mp hs
    exact adaptExcept_eq_error.mpr ⟨e, h.error he (fun hshort => hlong (hf e hshort)) extra, rfl⟩

/-- A read may look up where it begins, since that stays the same. -/
theorem located {step : Nat → Reads ε α} (h : ∀ offset, Steady (step offset) short) :
    Steady (do step (← get).position) short where
  ok {c _ _} hs extra := (h c.position).ok hs extra
  error {c _ _} hs hlong extra := (h c.position).error hs hlong extra

theorem times (h : Steady step short) (count : Nat) : Steady (Reads.times count step) short := by
  suffices hgo : ∀ (count : Nat) (done : List α), Steady (times.go step count done) short from
    hgo count []
  intro count
  induction count with
  | zero => exact fun done => .pure done.reverse
  | succ count ih => exact fun done => h.bind fun a => ih (a :: done)

/-- **A stored form that is cut short is missed for lack of bytes**, wherever it is cut. -/
theorem short_of_cut {layout : Layout α} (h : Steady step short) (ha : Accepts step layout)
    {c : Cursor} {a : α} {bytes : List UInt8} (hbytes : layout a bytes)
    (hbegins : c.rest <+: bytes) (hlt : c.rest.length < bytes.length) :
    ∃ e c', step c = .error e c' ∧ short e := by
  obtain ⟨extra, hextra⟩ := hbegins
  have hwhole : step (c.extend extra) = .ok a ⟨c.position + bytes.length, []⟩ := by
    refine ha.complete hbytes ⟨?_, rfl⟩
    rw [Cursor.rest_extend, hextra, List.append_nil]
  cases hs : step c with
  | ok a' c' =>
    have hsame := h.ok hs extra
    rw [hwhole] at hsame
    have hnil : [] = c'.rest ++ extra := congrArg Cursor.rest (EStateM.Result.ok.inj hsame).2
    rw [(List.append_eq_nil_iff.mp hnil.symm).2, List.append_nil] at hextra
    rw [hextra] at hlt
    exact absurd hlt (Nat.lt_irrefl _)
  | error e c' =>
    refine ⟨e, c', rfl, ?_⟩
    by_contra hlong
    have hsame := h.error hs hlong extra
    rw [hwhole] at hsame
    cases hsame

end Steady

end Reads

/-! ### Literals are read steadily -/

namespace Constant

/-- The buffer ends inside the constant. -/
def IsShort (fault : ConstantFault) : Prop := ∃ offset short, fault = .cutShort offset short

theorem steady_fitting {α : Type} {step : Reads ShortRead α} {layout : Layout α}
    (ha : Reads.Accepts step layout) (offset : Nat) :
    Reads.Steady (fitting offset step) IsShort := by
  refine .of_throws (ha.adapt _) ?_
  intro c fault c' h
  obtain ⟨short, -, rfl⟩ := Reads.adaptExcept_eq_error.mp h
  exact ⟨offset, short, rfl⟩

theorem steady_readPayload (offset : Nat) (tag : UInt8) :
    Reads.Steady (readPayload offset tag) IsShort := by
  have hbyte := steady_fitting Cursor.accepts_byte offset
  have hword := steady_fitting Cursor.accepts_word offset
  have hskip (count : Nat) := steady_fitting (Cursor.accepts_skip count) offset
  unfold readPayload
  refine .ite ?_ (.ite ?_ (.ite ?_ (.ite ?_ (.ite ?_ (.throw _)))))
  · exact (hskip _).bind fun _ => .pure _
  · exact (steady_fitting Cursor.accepts_quad offset).bind fun _ => .pure _
  · refine hword.bind fun count => hbyte.bind fun flags =>
      (steady_fitting (Cursor.accepts_take _) offset).bind fun bytes => ?_
    split
    · exact .pure _
    · exact .throw _
  · exact hbyte.bind fun _ => (hskip _).bind fun _ => .ite (.pure _) (.ite (.pure _) (.throw _))
  · exact hword.bind fun _ => (hskip _).bind fun _ => .pure _

theorem steady_read : Reads.Steady read IsShort :=
  .located fun offset => (steady_fitting Cursor.accepts_byte offset).bind fun tag =>
    steady_readPayload offset tag

end Constant

/-- A literal of a token with this opcode does not fit behind the stream. -/
def DecodeError.IsShort (opcode : UInt8) (e : DecodeError) : Prop :=
  ∃ place short, e = .literalCutShort place opcode short

theorem steady_literalField {α : Type} {step : Reads ShortRead α} {layout : Layout α}
    (ha : Reads.Accepts step layout) (place : Nat) (opcode : UInt8) :
    Reads.Steady (literalField place opcode step) (DecodeError.IsShort opcode) := by
  refine .of_throws (ha.adapt _) ?_
  intro c e c' h
  obtain ⟨short, rfl⟩ := throws_literalField _ _ _ _ _ _ h
  exact ⟨place, short, rfl⟩

theorem steady_readArray (opcode : UInt8) :
    Reads.Steady (readArray opcode) (DecodeError.IsShort opcode) := by
  have hcell : Reads.Steady (EStateM.adaptExcept (cellError opcode) Constant.read)
      (DecodeError.IsShort opcode) := by
    refine Constant.steady_read.adapt ?_
    rintro _ ⟨place, short, rfl⟩
    exact ⟨place, short, rfl⟩
  exact .located fun place => (steady_literalField Cursor.accepts_byte place opcode).bind
    fun lastCol => (steady_literalField Cursor.accepts_word place opcode).bind fun lastRow =>
      (hcell.times ((lastRow.toNat + 1) * (lastCol.toNat + 1))).bind fun cells =>
        .pure (Matrix.mk (lastRow.toNat + 1) (lastCol.toNat + 1) cells.toArray)

theorem steady_readAreaList (opcode : UInt8) :
    Reads.Steady (readAreaList opcode) (DecodeError.IsShort opcode) :=
  .located fun place => (steady_literalField Cursor.accepts_word place opcode).bind fun count =>
    (steady_literalField accepts_readMemRange place opcode).times count.toNat

/-- **Literals are read steadily**, and what is short names its own token. -/
theorem steady_readLiteral (t : Token) :
    Reads.Steady (readLiteral t) (DecodeError.IsShort t.opcode) := by
  by_cases htrailing : t.hasTrailing = true
  · cases t with
    | array cells cls => exact (steady_readArray _).bind fun _ => .pure _
    | mem m cls =>
      cases m with
      | area size areas => exact (steady_readAreaList _).bind fun _ => .pure _
      | _ => cases htrailing
    | _ => cases htrailing
  · rw [readLiteral_of_not_hasTrailing (Bool.eq_false_of_not_eq_true htrailing)]
    exact .pure t

/-! ### The first literal that does not fit -/

/-- `t` is the first token of the formula whose literal is not among the first `room` bytes of what
stands behind the stream. -/
structure Formula.FirstCut (f : Formula) (behind : List UInt8) (room : Nat) (t : Token) : Prop where
  /-- The token has a literal. -/
  trailing : t.hasTrailing = true
  /-- The literals before it fit, and together with that of the token they do not. -/
  cut : ∃ before after xs ys, f = before ++ t :: after ∧
    Layout.each Token.StoredLiteral before xs ∧ t.StoredLiteral ys ∧ xs ++ ys <+: behind ∧
    xs.length ≤ room ∧ room < xs.length + ys.length

/-- **The second pass stops at the first literal that does not fit.** -/
theorem readLiterals_of_cut {f : List Token} {payload : List UInt8} (done : List Token)
    (c : Cursor) (hf : Layout.each Token.StoredLiteral f payload) (hbegins : c.rest <+: payload)
    (hlt : c.rest.length < payload.length) :
    ∃ t e c', Formula.FirstCut f payload c.rest.length t ∧ e.IsShort t.opcode ∧
      readLiterals done (f.map Token.bare) c = .error e c' := by
  induction f generalizing done c payload with
  | nil =>
    rw [Layout.each_nil.mp hf] at hlt
    exact absurd hlt (Nat.not_lt_zero _)
  | cons t f ih =>
    obtain ⟨ys, payload', hys, hf', rfl⟩ := Layout.each_cons.mp hf
    have haccepts := accepts_readLiteral t.bare
    rw [List.map_cons]
    by_cases hcut : c.rest.length < ys.length
    · -- The literal of the first token is cut.
      have hbegins' : c.rest <+: ys :=
        List.prefix_of_prefix_length_le hbegins (List.prefix_append _ _) hcut.le
      obtain ⟨e, c', hs, hshort⟩ := (steady_readLiteral t.bare).short_of_cut haccepts
        ⟨t.bare_bare.symm, hys⟩ hbegins' hcut
      rw [Token.opcode_bare] at hshort
      have htrailing : t.hasTrailing = true := by
        rw [← Token.hasTrailing_bare]
        exact (readLiteral_eq_error hs).1
      refine ⟨t, e, c', ⟨htrailing, [], f, [], ys, rfl, Layout.each_nil.mpr rfl, hys,
        List.prefix_append _ _, Nat.zero_le _, ?_⟩, hshort, ?_⟩
      · rw [List.length_nil, Nat.zero_add]
        exact hcut
      · exact Reads.bind_eq_error.mpr (.inl hs)
    · -- It is there, and the cut falls behind it.
      obtain ⟨rest, hrest⟩ : ys <+: c.rest :=
        List.prefix_of_prefix_length_le (List.prefix_append _ _) hbegins (Nat.not_lt.mp hcut)
      let next : Cursor := ⟨c.position + ys.length, rest⟩
      have hread : readLiteral t.bare c = .ok t next :=
        haccepts.complete ⟨t.bare_bare.symm, hys⟩ ⟨hrest.symm, rfl⟩
      rw [← hrest] at hbegins hlt
      rw [List.length_append, List.length_append] at hlt
      obtain ⟨u, e, c', hfirst, hshort, hfails⟩ := ih (t :: done) next hf'
        ((List.prefix_append_right_inj ys).mp hbegins) (Nat.lt_of_add_lt_add_left hlt)
      obtain ⟨htrailing, before, after, xs, zs, rfl, hxs, hzs, hbehind, hle, hroom⟩ := hfirst
      change xs.length ≤ rest.length at hle
      change rest.length < xs.length + zs.length at hroom
      refine ⟨u, e, c', ⟨htrailing, t :: before, after, ys ++ xs, zs, rfl,
        Layout.each_cons.mpr ⟨ys, xs, hys, hxs, rfl⟩, hzs, ?_, ?_, ?_⟩, hshort,
        Reads.bind_eq_error.mpr (.inr ⟨t, next, hread, hfails⟩)⟩
      · rw [List.append_assoc]
        exact (List.prefix_append_right_inj ys).mpr hbehind
      · rw [← hrest, List.length_append, List.length_append]
        omega
      · rw [← hrest, List.length_append, List.length_append]
        omega

namespace Formula

/-- What lies behind the bytes that were used does not matter. -/
theorem decodeCounting_append {bytes : List UInt8} {declared : Nat} {f : Formula} {n : Nat}
    (h : decodeCounting bytes declared = .ok (f, n)) (extra : List UInt8) :
    decodeCounting (bytes ++ extra) declared = .ok (f, n) := by
  obtain ⟨hfits, hstored, payload, hpayload, hbegins, hn⟩ := decodeCounting_eq_ok_iff.mp h
  refine decodeCounting_eq_ok_iff.mpr ⟨?_, ?_, payload, hpayload, ?_, hn⟩
  · rw [List.length_append]
    exact Nat.le_add_right_of_le hfits
  · rw [List.take_append_of_le_length hfits]
    exact hstored
  · rw [List.drop_append_of_le_length hfits]
    exact hbegins.trans (List.prefix_append _ _)

/-- A failure of the second pass is the failure of the reading. -/
theorem decode_of_readLiterals {bytes : List UInt8} {declared : Nat} {f : Formula}
    {e : DecodeError} {c : Cursor} (hfits : declared ≤ bytes.length)
    (hstored : Layout.each Token.Stored f (bytes.take declared))
    (h : readLiterals [] (f.map Token.bare) (Cursor.opened bytes declared) = .error e c) :
    decode bytes declared = .error e := by
  have hstream : readStream declared bytes.length (Cursor.opened (bytes.take declared) 0) []
      = .ok (f.map Token.bare) :=
    readStream_eq_ok_iff.mpr ⟨_, each_bareStored_map.mpr hstored, rfl⟩
  have hcounting : decodeCounting bytes declared = .error e := by
    refine except_bind_eq_error.mpr (.inr ⟨_, hstream, ?_⟩)
    rw [if_neg (Nat.not_lt.mpr hfits), h]
    rfl
  rw [decode, hcounting]
  rfl

/-- **Nothing behind the last literal is looked at, and no literal is read that is not all there.**
If the buffer is cut anywhere in the literals, the first token whose literal no longer fits is
named. -/
theorem decode_append_and_take {bytes : List UInt8} {declared : Nat} {f : Formula} {n : Nat}
    (h : decodeCounting bytes declared = .ok (f, n)) :
    (∀ extra, decode (bytes ++ extra) declared = .ok f) ∧
    ∀ m, declared ≤ m → m < n → ∃ t place short,
      f.FirstCut (bytes.drop declared) (m - declared) t ∧
        decode (bytes.take m) declared = .error (.literalCutShort place t.opcode short) := by
  refine ⟨fun extra => decode_eq_ok_iff.mpr ⟨n, decodeCounting_append h extra⟩, ?_⟩
  intro m hdeclared hm
  obtain ⟨hfits, hstored, payload, hpayload, hbegins, rfl⟩ := decodeCounting_eq_ok_iff.mp h
  obtain ⟨rest, hrest⟩ := hbegins
  have hlength : declared + payload.length ≤ bytes.length := by
    have hdrop := congrArg List.length hrest
    rw [List.length_append, List.length_drop] at hdrop
    omega
  have hroom : m - declared < payload.length := by omega
  have hbehind : (bytes.take m).drop declared = payload.take (m - declared) := by
    rw [List.drop_take, ← hrest, List.take_append_of_le_length hroom.le]
  have hsize : (payload.take (m - declared)).length = m - declared :=
    List.length_take_of_le hroom.le
  have hcursor : (Cursor.opened (bytes.take m) declared).rest = payload.take (m - declared) :=
    hbehind
  obtain ⟨t, e, c', ⟨htrailing, before, after, xs, ys, hf, hxs, hys, hxy, hle, hlt⟩,
      ⟨place, short, rfl⟩, hfails⟩ :=
    readLiterals_of_cut [] (Cursor.opened (bytes.take m) declared) hpayload
      (by rw [hcursor]; exact List.take_prefix _ _) (by rw [hcursor, hsize]; exact hroom)
  rw [hcursor, hsize] at hle hlt
  refine ⟨t, place, short, ⟨htrailing, before, after, xs, ys, hf, hxs, hys, ?_, hle, hlt⟩, ?_⟩
  · rw [← hrest]
    exact hxy.trans (List.prefix_append _ _)
  · refine decode_of_readLiterals ?_ ?_ hfails
    · rw [List.length_take_of_le (by omega)]
      exact hdeclared
    · rw [List.take_take, Nat.min_eq_left hdeclared]
      exact hstored

/-- An array literal and an area list, cut in the middle of the only rectangle of the list. -/
theorem decode_take_areaList :
    let bytes : List UInt8 := [0x60, 9, 9, 9, 9, 9, 9, 9, 0x46, 0, 0, 0, 0, 5, 0,
      0, 0, 0, 0x02, 1, 0, 0, 0x61, 1, 0, 0, 0, 3, 0, 1, 0, 1, 0, 77]
    let f : Formula := [.array (some ⟨1, 1, #[.text "a"]⟩) .array,
      .mem (.area 5 (some [⟨0, 3, 1, 1⟩])) .value]
    decodeCounting bytes 15 = .ok (f, 33) ∧ 15 ≤ 28 ∧ 28 < 33 ∧ ∃ t place short,
      f.FirstCut (bytes.drop 15) (28 - 15) t ∧
        decode (bytes.take 28) 15 = .error (.literalCutShort place t.opcode short) := by
  intro bytes f
  have hdecode : decodeCounting bytes 15 = .ok (f, 33) := by cbv
  have hdeclared : 15 ≤ 28 := by decide
  have hcut : 28 < 33 := by decide
  exact ⟨hdecode, hdeclared, hcut, (decode_append_and_take hdecode).2 28 hdeclared hcut⟩

end Formula

end CellFormula
