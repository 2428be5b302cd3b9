import CellFormula.Proofs.ReadingStops
import CellFormula.Proofs.WrittenToken

/-!
# Declared sizes that are too large

A stream can be declared larger than the buffer that holds it. Then the reading fails in any case,
and what it says depends on why it has stopped: for lack of bytes, which is the fault of the
declared size and is reported as that, or at a token that is malformed, which would be wrong under
any size.

## What lack of bytes is

The opcode of a token says how many bytes its fields take up; of texts and hints the first fields
do. `fieldsSize?` is that table, and bytes are lacking when fewer are there than it asks for. A
token with an opcode that is not in the table lacks nothing, and neither does one whose fields are
all there, whatever is wrong with them.

## Texts are different

Characters of a text that do not fit are reported as a token that crosses the end of the stream,
even when the declared size is to blame. No other field is. The results below set that case apart,
`RunsOutInText`, and `Formula.decode_text_cut_short` is an instance of it.

## Main definitions

* `fieldsSize?` — the number of bytes that the fields of a token take up
* `RunsOut`, `RunsOutInText` — what is left of a stream ends inside a token
* `Reads.Takes`, `Reads.Sized` — reads of fields with a known size

## Main results

* `Token.StoredFields.fieldsSize?_eq` — the table is that of the stored tokens
* `throws_readToken` — the fault of a token tells whether bytes are lacking
* `Formula.decode_of_length_lt`
-/

namespace CellFormula

open Text

/-! ### The sizes of fields -/

/-- The size of the fields of a classed token, by the base of its opcode. -/
def classedSize? : UInt8 → Option Nat
  | 0x21 | 0x29 | 0x2E | 0x2F => some 2
  | 0x22 => some 3
  | 0x23 | 0x24 | 0x2A | 0x2C => some 4
  | 0x26 | 0x27 | 0x28 | 0x39 | 0x3A | 0x3C => some 6
  | 0x20 => some 7
  | 0x25 | 0x2B | 0x2D => some 8
  | 0x3B | 0x3D => some 10
  | _ => none

/-- The size of the fields of a text: a count and a flag byte, and the characters that they say. -/
def textSize : List UInt8 → Nat
  | count :: flags :: _ => 2 + storedSize count.toNat flags
  | _ => 2

/-- The size of the fields of a hint: options and a word, and for a choice the jumps that the word
says. -/
def hintSize : List UInt8 → Nat
  | options :: low :: high :: _ =>
    3 + if (Attribute.plain options (wordOf low high)).isChoose then
      2 * ((wordOf low high).toNat + 1) else 0
  | _ => 3

/-- The size of the fields of a token without a class, operators aside. -/
def unclassedSize? (opcode : UInt8) (fields : List UInt8) : Option Nat :=
  match opcode with
  | 0x15 | 0x16 => some 0
  | 0x1C | 0x1D => some 1
  | 0x1E => some 2
  | 0x01 | 0x02 => some 4
  | 0x1F => some 8
  | 0x17 => some (textSize fields)
  | 0x19 => some (hintSize fields)
  | _ => none

/-- How many bytes the fields of a token with this opcode take up, as far as the fields that are
there say so. No token has an opcode for which there is no size. -/
def fieldsSize? (opcode : UInt8) (fields : List UInt8) : Option Nat :=
  match Operator.ofOpcode? opcode, OperandClass.split? opcode with
  | some _, _ => some 0
  | none, some (base, _) => classedSize? base
  | none, none => unclassedSize? opcode fields

/-- Fields of this size are not all there. -/
def Lacks : Option Nat → List UInt8 → Prop
  | some size, fields => fields.length < size
  | none, _ => False

/-- What is left of a stream ends inside the next token, or has ended already. -/
def RunsOut : List UInt8 → Prop
  | [] => True
  | opcode :: fields => Lacks (fieldsSize? opcode fields) fields

/-- What is left of a stream ends among the characters of a text. -/
def RunsOutInText : List UInt8 → Prop
  | opcode :: count :: flags :: raw =>
    opcode = 0x17 ∧ raw.length < storedSize count.toNat flags
  | _ => False

/-! ### The sizes of stored fields -/

theorem Literal.Stored.fieldsSize?_eq {l : Literal} {fields : List UInt8} (h : l.Stored fields) :
    fieldsSize? (Token.literal l).opcode fields = some fields.length := by
  cases l with
  | int n =>
    obtain rfl : fields = wordBytes n := h
    rfl
  | number x =>
    obtain rfl : fields = quadBytes x.bits := h
    rfl
  | boolean b =>
    obtain rfl : fields = [b.toUInt8] := h
    rfl
  | error kind =>
    obtain rfl : fields = [kind.byte] := h
    rfl
  | text s =>
    obtain ⟨count, flags, raw, hraw, hcount, rfl⟩ := h
    obtain ⟨-, hlength⟩ := textOfUnitBytes?_eq_some_iff.mpr ⟨hraw, hcount⟩
    change some (2 + storedSize count.toNat flags) = some (raw.length + 1 + 1)
    rw [hlength, Nat.add_comm]

theorem Attribute.Stored.hintSize_eq {a : Attribute} {fields : List UInt8} (h : a.Stored fields) :
    hintSize fields = fields.length := by
  obtain ⟨options, data, jumps⟩ := a
  obtain ⟨hlength, rfl⟩ := h
  have hbytes : wordBytes data = [data.toNat.toUInt8, (data.toNat / 256).toUInt8] := rfl
  simp only [hbytes, List.cons_append, List.nil_append, hintSize, wordOf_wordBytes,
    List.length_cons, length_flatMap_wordBytes]
  rw [show (Attribute.plain options data).isChoose = Attribute.isChoose ⟨options, data, jumps⟩
    from rfl]
  dsimp only at hlength
  split
  · next hchoose =>
    rw [if_pos hchoose] at hlength
    omega
  · next hchoose =>
    rw [if_neg hchoose] at hlength
    omega

theorem fieldsSize?_of_class? {t : Token} {cls : OperandClass} (h : t.class? = some cls)
    (fields : List UInt8) : fieldsSize? t.opcode fields = classedSize? t.baseOpcode := by
  obtain ⟨hnone, hsplit⟩ := split?_opcode h
  rw [fieldsSize?, hnone, hsplit]

/-- **The table is that of the stored tokens.** Every stored token has the size that the table
says. -/
theorem Token.StoredFields.fieldsSize?_eq {t : Token} {fields : List UInt8}
    (h : t.StoredFields fields) : fieldsSize? t.opcode fields = some fields.length := by
  cases t with
  | operator op =>
    obtain rfl : fields = [] := h
    cases op <;> rfl
  | shared row col =>
    obtain rfl : fields = wordBytes row ++ wordBytes col := h
    rfl
  | table row col =>
    obtain rfl : fields = wordBytes row ++ wordBytes col := h
    rfl
  | paren =>
    obtain rfl : fields = [] := h
    rfl
  | missing =>
    obtain rfl : fields = [] := h
    rfl
  | hint a => exact congrArg some (Attribute.Stored.hintSize_eq h)
  | literal l => exact Literal.Stored.fieldsSize?_eq h
  | reference r cls =>
    rw [fieldsSize?_of_class? rfl, ← Reference.Stored.length_bytes h]
    cases r <;> rfl
  | name n cls =>
    cases n with
    | defined index =>
      obtain ⟨reserved, hreserved, rfl⟩ := h
      rw [fieldsSize?_of_class? rfl, List.length_append, hreserved]
      rfl
    | external sheet index =>
      obtain ⟨reserved, hreserved, rfl⟩ := h
      rw [fieldsSize?_of_class? rfl, List.length_append, hreserved]
      rfl
  | mem m cls =>
    rw [fieldsSize?_of_class? rfl, ← MemToken.Stored.length_bytes h]
    cases m <;> rfl
  | array cells cls =>
    rw [fieldsSize?_of_class? rfl, show fields.length = 7 from h]
    rfl
  | call c cls =>
    cases c with
    | fixed index =>
      obtain ⟨-, rfl⟩ := h
      rw [fieldsSize?_of_class? rfl]
      rfl
    | counted index count prompt command =>
      obtain ⟨-, countField, indexField, -, -, rfl⟩ := h
      rw [fieldsSize?_of_class? rfl]
      rfl

/-! ### Faults that tell whether bytes are lacking -/

namespace TokenFault

/-- The token is wrong whatever stands behind it. -/
def IsMalformed : TokenFault → Prop
  | cutShort _ | textCutShort _ => False
  | _ => True

/-- The token is reported as cut short when bytes are lacking, and else as malformed. -/
structure Tells (fault : TokenFault) (lacking : Prop) : Prop where
  short : lacking → ∃ short, fault = cutShort short
  malformed : ¬ lacking → fault.IsMalformed

end TokenFault

namespace Reads

variable {α β : Type} {step : Reads TokenFault α} {next : α → Reads TokenFault β} {size more : Nat}

/-- A read of so many bytes, which hold anything. -/
structure Takes (step : Reads TokenFault α) (size : Nat) : Prop where
  ok : ∀ {c a c'}, step c = .ok a c' → c.rest.length = size + c'.rest.length
  error : ∀ {c fault c'}, step c = .error fault c' →
    c.rest.length < size ∧ ∃ short, fault = .cutShort short

/-- A read of fields of this size. Its faults tell whether they are all there. -/
def Sized (step : Reads TokenFault α) (size? : Option Nat) : Prop :=
  Throws step fun c fault => fault.Tells (Lacks size? c.rest)

namespace Takes

theorem pure (a : α) : Takes (Pure.pure a : Reads TokenFault α) 0 where
  ok hs := by
    cases hs
    exact (Nat.zero_add _).symm
  error hs := by cases hs

/-- A field whose stored forms have one length, and that is missed only where it does not fit. -/
theorem field {read : Reads ShortRead α} {layout : Layout α} (ha : Accepts read layout)
    (hlength : ∀ a bytes, layout a bytes → bytes.length = size)
    (hshort : Throws read fun c _ => c.rest.length < size) : Takes (tokenField read) size where
  ok hs := by
    obtain ⟨bytes, hbytes, hrest, -⟩ := ha.sound (adaptExcept_eq_ok.mp hs)
    rw [hrest, List.length_append, hlength _ _ hbytes]
  error hs := by
    obtain ⟨short, hread, rfl⟩ := adaptExcept_eq_error.mp hs
    exact ⟨hshort _ _ _ hread, short, rfl⟩

theorem bind (h : Takes step size) (hnext : ∀ a, Takes (next a) more) :
    Takes (step >>= next) (size + more) where
  ok hs := by
    obtain ⟨a, c', hstep, hrest⟩ := bind_eq_ok.mp hs
    rw [h.ok hstep, (hnext a).ok hrest, Nat.add_assoc]
  error hs := by
    rcases bind_eq_error.mp hs with hstep | ⟨a, c', hstep, hrest⟩
    · obtain ⟨hlt, hshort⟩ := h.error hstep
      exact ⟨Nat.lt_add_right more hlt, hshort⟩
    · obtain ⟨hlt, hshort⟩ := (hnext a).error hrest
      rw [h.ok hstep]
      exact ⟨Nat.add_lt_add_left hlt size, hshort⟩

theorem times (h : Takes step size) (count : Nat) :
    Takes (Reads.times count step) (size * count) := by
  suffices hgo : ∀ (count : Nat) (done : List α),
      Takes (times.go step count done) (size * count) from hgo count []
  intro count
  induction count with
  | zero => exact fun done => .pure done.reverse
  | succ count ih =>
    intro done
    have hsize : size * (count + 1) = size + size * count := by
      rw [Nat.mul_succ, Nat.add_comm]
    rw [hsize]
    exact h.bind fun a => ih (a :: done)

theorem sized (h : Takes step size) : Sized step (some size) := by
  intro c fault c' hs
  obtain ⟨hlt, hshort⟩ := h.error hs
  exact ⟨fun _ => hshort, fun hfits => absurd hlt hfits⟩

/-- Fields that hold anything, and then fields that may be malformed. -/
theorem bind_sized (h : Takes step size) (hnext : ∀ a, Sized (next a) (some more)) :
    Sized (step >>= next) (some (size + more)) := by
  intro c fault c'' hs
  rcases bind_eq_error.mp hs with hstep | ⟨a, c', hstep, hrest⟩
  · obtain ⟨hlt, hshort⟩ := h.error hstep
    exact ⟨fun _ => hshort, fun hfits => absurd (Nat.lt_add_right more hlt) hfits⟩
  · obtain ⟨hshort, hmalformed⟩ := hnext a c' fault c'' hrest
    have hlength := h.ok hstep
    constructor
    · intro hlacks
      refine hshort ?_
      simp only [Lacks] at hlacks ⊢
      omega
    · intro hfits
      refine hmalformed ?_
      simp only [Lacks] at hfits ⊢
      omega

end Takes

namespace Sized

/-- A check of what was read takes up nothing. -/
theorem of_malformed (h : Throws step fun _ => TokenFault.IsMalformed) : Sized step (some 0) := by
  intro c fault c' hs
  exact ⟨fun hlacks => absurd hlacks (Nat.not_lt_zero _), fun _ => h c fault c' hs⟩

theorem map {size? : Option Nat} (h : Sized step size?) (f : α → β) :
    Sized (do return f (← step)) size? := by
  intro c fault c'' hs
  rcases bind_eq_error.mp hs with hstep | ⟨a, c', -, hrest⟩
  · exact h c fault c'' hstep
  · cases hrest

end Sized

end Reads

/-! ### Fields that hold anything -/

namespace Cursor

theorem throws_take (count : Nat) :
    Reads.Throws (take count) fun c _ => c.rest.length < count := by
  intro c e c' hs
  unfold take at hs
  split at hs
  · cases hs
  · next hfits => exact Nat.lt_of_not_le fun hle => hfits (hasAtLeast_iff.mpr hle)

theorem throws_skip (count : Nat) :
    Reads.Throws (skip count) fun c _ => c.rest.length < count := by
  intro c e c' hs
  rcases Reads.bind_eq_error.mp hs with hs | ⟨taken, c₁, -, hs⟩
  · exact throws_take count c e c' hs
  · cases hs

theorem throws_byte : Reads.Throws byte fun c _ => c.rest.length < 1 := by
  rintro ⟨position, _ | ⟨b, rest⟩⟩ e c' hs
  · exact Nat.one_pos
  · cases hs

theorem throws_word : Reads.Throws word fun c _ => c.rest.length < 2 := by
  rintro ⟨position, _ | ⟨low, _ | ⟨high, rest⟩⟩⟩ e c' hs
  · exact Nat.two_pos
  · exact Nat.one_lt_two
  · cases hs

theorem throws_quad : Reads.Throws quad fun c _ => c.rest.length < 8 := by
  intro c e c' hs
  rcases Reads.bind_eq_error.mp hs with hs | ⟨taken, c₁, -, hs⟩
  · exact throws_take 8 c e c' hs
  · cases hs

end Cursor

theorem takes_byteField : Reads.Takes byteField 1 := by
  refine .field Cursor.accepts_byte ?_ Cursor.throws_byte
  rintro b bytes rfl
  rfl

theorem takes_wordField : Reads.Takes wordField 2 := by
  refine .field Cursor.accepts_word ?_ Cursor.throws_word
  rintro w bytes rfl
  rfl

theorem takes_numberField : Reads.Takes (tokenField Cursor.quad) 8 := by
  refine .field Cursor.accepts_quad ?_ Cursor.throws_quad
  rintro q bytes rfl
  rfl

theorem takes_reserved (count : Nat) : Reads.Takes (reserved count) count :=
  .field (Cursor.accepts_skip count) (fun _ _ h => h) (Cursor.throws_skip count)

theorem takes_cellField : Reads.Takes cellField 4 :=
  takes_wordField.bind fun _ => takes_wordField.bind fun _ => .pure _

theorem takes_areaField : Reads.Takes areaField 8 :=
  takes_wordField.bind fun _ => takes_wordField.bind fun _ =>
    takes_wordField.bind fun _ => takes_wordField.bind fun _ => .pure _

/-! ### Fields that may be malformed -/

theorem sized_errorField : Reads.Sized errorField (some 1) := by
  refine takes_byteField.bind_sized fun code => .of_malformed ?_
  split
  · exact .pure _
  · exact .throw fun _ => trivial

theorem sized_booleanField : Reads.Sized booleanField (some 1) := by
  refine takes_byteField.bind_sized fun value => .of_malformed ?_
  exact .ite (fun _ => .pure _) fun _ => .ite (fun _ => .pure _) fun _ => .throw fun _ => trivial

theorem throws_calledFunction (index : UInt16) :
    Reads.Throws (calledFunction index) fun _ => TokenFault.IsMalformed := by
  unfold calledFunction
  split
  · exact .pure _
  · exact .throw fun _ => trivial

theorem sized_fixedCall : Reads.Sized fixedCall (some 2) := by
  refine takes_wordField.bind_sized fun index => .of_malformed ?_
  refine (throws_calledFunction index).bind_const fun info => .ite (fun _ => .pure _) fun _ => ?_
  exact .throw fun _ => trivial

theorem sized_countedCall : Reads.Sized countedCall (some 3) := by
  refine takes_byteField.bind_sized fun count => takes_wordField.bind_sized fun index =>
    .of_malformed ?_
  refine (throws_calledFunction _).bind_const fun info => .ite (fun _ => .pure _) fun _ => ?_
  exact .throw fun _ => trivial

/-- A hint says its size itself, in its first three bytes. Where these are not all there, they are
what is missed. -/
theorem throws_attributeField : Reads.Throws attributeField fun c fault =>
    fault.Tells (Lacks (some (hintSize c.rest)) c.rest) := by
  rintro ⟨position, _ | ⟨options, _ | ⟨low, _ | ⟨high, rest⟩⟩⟩⟩ fault c' hs
  · cases hs
    exact ⟨fun _ => ⟨_, rfl⟩, fun hfits => absurd (Nat.succ_pos 2) hfits⟩
  · cases hs
    exact ⟨fun _ => ⟨_, rfl⟩, fun hfits => absurd (Nat.one_lt_succ_succ 1) hfits⟩
  · cases hs
    exact ⟨fun _ => ⟨_, rfl⟩, fun hfits => absurd (Nat.lt_succ_self 2) hfits⟩
  · -- All of the jumps take up so many bytes, and there is nothing else to fail.
    have hjumps (a : Attribute) : Reads.Takes (if a.isChoose then do
        return ⟨options, wordOf low high, ← Reads.times ((wordOf low high).toNat + 1) wordField⟩
      else return a) (if a.isChoose then 2 * ((wordOf low high).toNat + 1) else 0) := by
      split
      · exact (takes_wordField.times _).bind fun _ => .pure _
      · exact .pure _
    obtain ⟨hlt, hshort⟩ := (hjumps (.plain options (wordOf low high))).error hs
    refine ⟨fun _ => hshort, fun hfits => absurd ?_ hfits⟩
    simp only [Lacks, hintSize, List.length_cons]
    dsimp only at hlt
    omega

/-! ### Tokens -/

theorem sized_readClassed (base : UInt8) (cls : OperandClass) :
    Reads.Sized (readClassed base cls) (classedSize? base) := by
  have word := takes_wordField
  have pass := takes_reserved
  unfold readClassed
  -- Base by base, as they are tried; the base of no token is in no row of the table either.
  refine .ite (fun h => ?_) fun _ => .ite (fun h => ?_) fun _ => .ite (fun h => ?_) fun _ =>
    .ite (fun h => ?_) fun _ => .ite (fun h => ?_) fun _ => .ite (fun h => ?_) fun _ =>
    .ite (fun h => ?_) fun _ => .ite (fun h => ?_) fun _ => .ite (fun h => ?_) fun _ =>
    .ite (fun h => ?_) fun _ => .ite (fun h => ?_) fun _ => .ite (fun h => ?_) fun _ =>
    .ite (fun h => ?_) fun _ => .ite (fun h => ?_) fun _ => .ite (fun h => ?_) fun _ =>
    .ite (fun h => ?_) fun _ => .ite (fun h => ?_) fun _ => .ite (fun h => ?_) fun _ =>
    .ite (fun h => ?_) fun _ => .ite (fun h => ?_) fun _ => .ite (fun h => ?_) fun _ =>
    .throw fun _ => ?_
  case' refine_22 =>
    have hnone : classedSize? base = none := by
      unfold classedSize?
      split <;> first | rfl | contradiction
    rw [hnone]
    exact ⟨False.elim, fun _ => trivial⟩
  all_goals subst h
  · exact ((pass 7).bind fun _ => .pure _).sized
  · exact sized_fixedCall.map fun call => Token.call call cls
  · exact sized_countedCall.map fun call => Token.call call cls
  · exact (word.bind fun _ => (pass 2).bind fun _ => .pure _).sized
  · exact (takes_cellField.bind fun _ => .pure _).sized
  · exact (takes_areaField.bind fun _ => .pure _).sized
  · exact ((pass 4).bind fun _ => word.bind fun _ => .pure _).sized
  · exact (takes_byteField.bind fun _ => (pass 3).bind fun _ => word.bind fun _ => .pure _).sized
  · exact ((pass 4).bind fun _ => word.bind fun _ => .pure _).sized
  · exact (word.bind fun _ => .pure _).sized
  · exact ((pass 4).bind fun _ => .pure _).sized
  · exact ((pass 8).bind fun _ => .pure _).sized
  · exact (takes_cellField.bind fun _ => .pure _).sized
  · exact (takes_areaField.bind fun _ => .pure _).sized
  · exact (word.bind fun _ => .pure _).sized
  · exact (word.bind fun _ => .pure _).sized
  · exact (word.bind fun _ => word.bind fun _ => (pass 2).bind fun _ => .pure _).sized
  · exact (word.bind fun _ => takes_cellField.bind fun _ => .pure _).sized
  · exact (word.bind fun _ => takes_areaField.bind fun _ => .pure _).sized
  · exact (word.bind fun _ => (pass 4).bind fun _ => .pure _).sized
  · exact (word.bind fun _ => (pass 8).bind fun _ => .pure _).sized

theorem sized_readUnclassed {opcode : UInt8} (htext : opcode ≠ 0x17) :
    Reads.Throws (readUnclassed opcode) fun c fault =>
      fault.Tells (Lacks (unclassedSize? opcode c.rest) c.rest) := by
  have word := takes_wordField
  unfold readUnclassed
  -- Opcode by opcode, as they are tried, but for texts.
  refine .ite (fun h => ?_) fun _ => .ite (fun h => ?_) fun _ => .ite (fun h => ?_) fun _ =>
    .ite (fun h => ?_) fun _ => .ite (fun h => absurd h htext) fun _ => .ite (fun h => ?_) fun _ =>
    .ite (fun h => ?_) fun _ => .ite (fun h => ?_) fun _ => .ite (fun h => ?_) fun _ =>
    .ite (fun h => ?_) fun _ => .throw fun c => ?_
  case' refine_10 =>
    have hnone : unclassedSize? opcode c.rest = none := by
      unfold unclassedSize?
      split <;> first | rfl | contradiction
    rw [hnone]
    exact ⟨False.elim, fun _ => trivial⟩
  all_goals subst h
  · exact (word.bind fun _ => word.bind fun _ => .pure _).sized
  · exact (word.bind fun _ => word.bind fun _ => .pure _).sized
  · exact .pure _
  · exact .pure _
  · intro c fault c' hs
    rcases Reads.bind_eq_error.mp hs with hs | ⟨a, c₁, -, hs⟩
    · exact throws_attributeField c fault c' hs
    · cases hs
  · exact sized_errorField.map fun kind => Token.literal (.error kind)
  · exact sized_booleanField.map fun value => Token.literal (.boolean value)
  · exact (word.bind fun _ => .pure _).sized
  · exact (takes_numberField.bind fun _ => .pure _).sized

/-! ### What the fault of a token tells -/

/-- A token that runs out among the characters of a text is reported as such a text, and of all
others the fault tells whether bytes are lacking. -/
structure TokenFault.Answers (fault : TokenFault) (rest : List UInt8) : Prop where
  inText : RunsOutInText rest → ∃ short, fault = .textCutShort short
  elsewhere : ¬ RunsOutInText rest → fault.Tells (RunsOut rest)

theorem not_runsOutInText {opcode : UInt8} (h : opcode ≠ 0x17) (fields : List UInt8) :
    ¬ RunsOutInText (opcode :: fields) := by
  match fields with
  | [] => exact id
  | [_] => exact id
  | count :: flags :: raw => exact fun hruns => h hruns.1

theorem TokenFault.Tells.answers {fault : TokenFault} {opcode : UInt8} {fields : List UInt8}
    (h : opcode ≠ 0x17) (htells : fault.Tells (Lacks (fieldsSize? opcode fields) fields)) :
    fault.Answers (opcode :: fields) where
  inText hruns := absurd hruns (not_runsOutInText h fields)
  elsewhere _ := htells

/-- Characters that do not fit are reported in a way of their own. -/
theorem throws_characters (count : Nat) (flags : UInt8) :
    Reads.Throws (do
      let bytes ← EStateM.adaptExcept TokenFault.textCutShort (readUnitBytes count flags)
      match textOfUnitBytes? flags bytes with
      | some s => return s
      | none => throw .invalidText) fun c fault =>
        (c.rest.length < storedSize count flags ∧ ∃ short, fault = .textCutShort short) ∨
          storedSize count flags ≤ c.rest.length ∧ fault.IsMalformed := by
  intro c fault c' hs
  rcases Reads.bind_eq_error.mp hs with hs | ⟨taken, c₁, hs, hrest⟩
  · obtain ⟨short, hshort, rfl⟩ := Reads.adaptExcept_eq_error.mp hs
    exact .inl ⟨Cursor.throws_take _ _ _ _ hshort, short, rfl⟩
  · obtain ⟨hraw, hlength, -⟩ := Cursor.take_ok (Reads.adaptExcept_eq_ok.mp hs)
    have hle : storedSize count flags ≤ c.rest.length := by
      rw [hraw, List.length_append]
      exact Nat.le_trans (Nat.le_of_eq hlength.symm) (Nat.le_add_right _ _)
    have hchars : Reads.Throws (match textOfUnitBytes? flags taken with
        | some s => return s
        | none => throw .invalidText : Reads TokenFault String)
        fun _ => TokenFault.IsMalformed := by
      split
      · exact .pure _
      · exact .throw fun _ => trivial
    exact .inr ⟨hle, hchars c₁ fault c' hrest⟩

/-- Of a text the count and the flag byte are fields like others, and its characters are not. -/
theorem throws_textField :
    Reads.Throws textField fun c fault => fault.Answers (0x17 :: c.rest) := by
  rintro ⟨position, _ | ⟨count, _ | ⟨flags, raw⟩⟩⟩ fault c' hs
  · cases hs
    exact ⟨False.elim, fun _ => ⟨fun _ => ⟨_, rfl⟩, fun hfits => absurd Nat.two_pos hfits⟩⟩
  · cases hs
    exact ⟨False.elim, fun _ => ⟨fun _ => ⟨_, rfl⟩, fun hfits => absurd Nat.one_lt_two hfits⟩⟩
  · rcases throws_characters _ _ _ _ _ hs with ⟨hlt, hshort⟩ | ⟨hle, hmalformed⟩
    · exact ⟨fun _ => hshort, fun hfits => absurd ⟨rfl, hlt⟩ hfits⟩
    · refine ⟨fun hruns => absurd hle (Nat.not_le.mpr hruns.2), fun _ => ⟨?_, fun _ => hmalformed⟩⟩
      intro hruns
      have hlt : raw.length + 1 + 1 < 2 + storedSize count.toNat flags := hruns
      dsimp only at hle
      omega

theorem throws_readText :
    Reads.Throws (readUnclassed 0x17) fun c fault => fault.Answers (0x17 :: c.rest) := by
  intro c fault c' hs
  change (do return Token.literal (.text (← textField))) c = .error fault c' at hs
  rcases Reads.bind_eq_error.mp hs with hs | ⟨s, c₁, -, hs⟩
  · exact throws_textField c fault c' hs
  · cases hs

/-- **The fault of a token tells whether bytes are lacking.** -/
theorem throws_readToken (opcode : UInt8) :
    Reads.Throws (readToken opcode) fun c fault => fault.Answers (opcode :: c.rest) := by
  intro c fault c' hs
  unfold readToken at hs
  cases hop : Operator.ofOpcode? opcode with
  | some op =>
    rw [hop] at hs
    cases hs
  | none =>
    rw [hop] at hs
    cases hsplit : OperandClass.split? opcode with
    | some found =>
      obtain ⟨base, cls⟩ := found
      rw [hsplit] at hs
      have htext : opcode ≠ 0x17 := by
        rintro rfl
        cases hsplit
      refine TokenFault.Tells.answers htext ?_
      rw [fieldsSize?, hop, hsplit]
      exact sized_readClassed base cls c fault c' hs
    | none =>
      rw [hsplit] at hs
      by_cases htext : opcode = 0x17
      · subst htext
        exact throws_readText c fault c' hs
      · refine TokenFault.Tells.answers htext ?_
        rw [fieldsSize?, hop, hsplit]
        exact sized_readUnclassed htext c fault c' hs

/-! ### Formulas -/

/-- The failure says that a token crosses the end of the stream. -/
def DecodeError.IsUnexpectedEnd : DecodeError → Prop
  | token _ _ (.cutShort _) | token _ _ (.textCutShort _) => True
  | _ => False

/-- Under a declared size that is too large, the failure says of a token whether the stream runs out
there or the token is malformed. -/
theorem TokenFault.Tells.tokenError {fault : TokenFault} {lacking : Prop}
    (htells : fault.Tells lacking) {declared available : Nat} (h : available < declared)
    {place : Nat} {opcode : UInt8} :
    let e := CellFormula.tokenError declared available place opcode fault
    ¬ e.IsUnexpectedEnd ∧ (lacking → e = .truncated place declared available) ∧
      (¬ lacking → ∃ opcode fault, fault.IsMalformed ∧ e = .token place opcode fault) := by
  intro e
  by_cases hlacking : lacking
  · obtain ⟨short, rfl⟩ := htells.short hlacking
    have he : e = .truncated place declared available := if_pos h
    rw [he]
    exact ⟨id, fun _ => rfl, fun hnot => absurd hlacking hnot⟩
  · have hfault : fault.IsMalformed := htells.malformed hlacking
    have he : e = .token place opcode fault ∧ ¬ e.IsUnexpectedEnd := by
      cases fault with
      | cutShort short => exact hfault.elim
      | textCutShort short => exact hfault.elim
      | _ => exact ⟨rfl, id⟩
    exact ⟨he.2, fun hlacks => absurd hlacks hlacking, fun _ => ⟨opcode, fault, hfault, he.1⟩⟩

namespace Formula

/-- A stream that the buffer does not hold cannot be read. -/
theorem exists_error_of_length_lt {bytes : List UInt8} {declared : Nat}
    (h : bytes.length < declared) : ∃ e, decode bytes declared = .error e := by
  cases hd : decode bytes declared with
  | error e => exact ⟨e, rfl⟩
  | ok f =>
    obtain ⟨_, _, hsplit⟩ := exists_split_of_decode hd
    exact absurd hsplit.fits (Nat.not_le.mpr h)

/-- **A declared size that is too large is reported as such.** The reading fails, and it has stopped
at the only place where the stream stops. When the stream runs out there, the failure names that
place and both sizes; when it does not, the token there is malformed. Only a stream that runs out
among the characters of a text is reported as a token that crosses the end. -/
theorem decode_of_length_lt {bytes : List UInt8} {declared : Nat} (h : bytes.length < declared) :
    ∃ place, StreamStop bytes place ∧ (∀ other, StreamStop bytes other → other = place) ∧
      ∃ e, decode bytes declared = .error e ∧
        (¬ RunsOutInText (bytes.drop place) → ¬ e.IsUnexpectedEnd ∧
          (RunsOut (bytes.drop place) → e = .truncated place declared bytes.length) ∧
          (¬ RunsOut (bytes.drop place) →
            ∃ opcode fault, fault.IsMalformed ∧ e = .token place opcode fault)) ∧
        (RunsOutInText (bytes.drop place) →
          ∃ short, e = .token place 0x17 (.textCutShort short)) := by
  have htake : bytes.take declared = bytes := List.take_of_length_le h.le
  obtain ⟨e, he⟩ := exists_error_of_length_lt h
  rcases decode_eq_error he with hstream | ⟨tokens, htokens, ⟨-, rfl⟩ | ⟨hfits, -⟩⟩
  · obtain ⟨place, opcode, fields, fault, c', hstop, hdrop, hread, rfl⟩ :=
      streamStop_of_readStream hstream
    rw [htake] at hstop hdrop
    obtain ⟨hinText, helsewhere⟩ := throws_readToken opcode _ _ _ hread
    refine ⟨place, hstop, fun other hother => hother.unique hstop, _, he, ?_, ?_⟩
    · rw [hdrop]
      intro hnot
      exact (helsewhere hnot).tokenError h
    · rw [hdrop]
      intro hruns
      obtain ⟨short, rfl⟩ := hinText hruns
      obtain rfl : opcode = 0x17 := by_contra fun hne => not_runsOutInText hne fields hruns
      exact ⟨short, rfl⟩
  · have hstop : StreamStop bytes bytes.length := by
      rw [htake, ← map_bare_of_bareStored htokens, each_bareStored_map] at htokens
      exact streamStop_length htokens
    refine ⟨bytes.length, hstop, fun other hother => hother.unique hstop, _, he, ?_⟩
    rw [List.drop_length]
    exact ⟨fun _ => ⟨id, fun _ => rfl, fun hnot => absurd trivial hnot⟩, False.elim⟩
  · exact absurd hfits (Nat.not_le.mpr h)

/-- A number of which three bytes are there. -/
theorem decode_number_of_length_lt :
    let bytes : List UInt8 := [0x1E, 5, 0, 0x1F, 1, 2, 3]
    bytes.length < 12 ∧ StreamStop bytes 3 ∧ RunsOut (bytes.drop 3) ∧
      decode bytes 12 = .error (.truncated 3 12 7) := by
  intro bytes
  have hlt : bytes.length < 12 := by decide
  have hint : Token.Stored (.literal (.int 5)) (bytes.take 3) := ⟨_, rfl, rfl⟩
  have hstop : StreamStop bytes 3 := by
    refine ⟨by decide, ⟨[.literal (.int 5)], bytes.take 3 :: [], .cons hint .nil, rfl⟩, ?_⟩
    intro t piece hpiece
    have hread : readToken 0x1F ⟨4, [1, 2, 3]⟩ = .error (.cutShort ⟨8, 3⟩) ⟨4, [1, 2, 3]⟩ := by cbv
    exact not_prefix_of_readToken_eq_error hread hpiece
  have hruns : RunsOut (bytes.drop 3) := (by decide : 3 < 8)
  obtain ⟨place, -, hunique, e, he, helsewhere, -⟩ := decode_of_length_lt hlt
  obtain rfl : 3 = place := hunique 3 hstop
  obtain ⟨-, htruncated, -⟩ := helsewhere (not_runsOutInText (by decide) _)
  exact ⟨hlt, hstop, hruns, he.trans (congrArg _ (htruncated hruns))⟩

/-- A text of five characters of which one is there. The declared size is to blame, and the failure
does not say so. -/
theorem decode_text_cut_short :
    let bytes : List UInt8 := [0x17, 5, 0, 0x61]
    bytes.length < 10 ∧ StreamStop bytes 0 ∧ RunsOut bytes ∧
      decode bytes 10 = .error (.token 0 0x17 (.textCutShort ⟨5, 1⟩)) ∧
      decode bytes 10 ≠ .error (.truncated 0 10 4) := by
  intro bytes
  have hdecode : decode bytes 10 = .error (.token 0 0x17 (.textCutShort ⟨5, 1⟩)) := by cbv
  have hstop : StreamStop bytes 0 := by
    refine ⟨by decide, ⟨[], Layout.each_nil.mpr rfl⟩, ?_⟩
    intro t piece hpiece
    have hread : readToken 0x17 ⟨1, [5, 0, 0x61]⟩
        = .error (.textCutShort ⟨5, 1⟩) ⟨3, [0x61]⟩ := by cbv
    exact not_prefix_of_readToken_eq_error hread hpiece
  refine ⟨by decide, hstop, (by decide : 3 < 7), hdecode, ?_⟩
  rw [hdecode]
  intro heq
  cases heq

end Formula

end CellFormula
