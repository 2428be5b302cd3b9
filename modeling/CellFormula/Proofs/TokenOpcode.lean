import CellFormula.Proofs.StoredToken

/-!
# Reading a token by its opcode

Reading tries the operators, then the bases of classed opcodes, then the opcodes without a class.
The layouts of tokens go by the kind of the token. Here the two meet: whichever branch an opcode
selects, the tokens it gives have that opcode, and every bare token is given by the branch that its
own opcode selects.

## Soundness and completeness need different case splits

What is read is treated opcode by opcode, and what is stored kind by kind. So each family of opcodes
has a `sound_` lemma, which follows the tests of the reader, and an `accepts_` lemma, which adds the
other half by the kinds of tokens.

## Main definitions

* `Token.ClassedFields`, `Token.UnclassedFields`, `Token.OpcodeFields`

## Main results

* `split?_eq_some_iff`, `split?_opcode` — a classed opcode is its base and its class
* `accepts_readToken`
-/

namespace CellFormula

/-! ### Reading the fields of a token -/

section

variable {α : Type} (f : UInt16 → α)

/-- Reserved bytes and nothing else. -/
theorem accepts_reservedOnly (count : ℕ) (a : α) :
    Reads.Accepts (do reserved count; return a) fun b bytes => bytes.length = count ∧ a = b := by
  refine ((accepts_reserved count).map fun _ => a).congr fun b bytes => ?_
  exact ⟨fun ⟨_, h⟩ => h, fun h => ⟨(), h⟩⟩

/-- A word behind reserved bytes. -/
theorem accepts_reservedWord (count : ℕ) :
    Reads.Accepts (do reserved count; return f (← wordField)) fun a bytes =>
      ∃ w, (∃ reserved : List UInt8, reserved.length = count ∧ bytes = reserved ++ wordBytes w) ∧
        f w = a := by
  refine ((accepts_reserved count).bind fun _ => accepts_wordField.map f).congr fun a bytes => ?_
  constructor
  · rintro ⟨-, reserved, _, hreserved, ⟨w, rfl, rfl⟩, rfl⟩
    exact ⟨w, ⟨reserved, hreserved, rfl⟩, rfl⟩
  · rintro ⟨w, ⟨reserved, hreserved, rfl⟩, rfl⟩
    exact ⟨(), reserved, _, hreserved, ⟨w, rfl, rfl⟩, rfl⟩

/-- A word before reserved bytes. -/
theorem accepts_wordReserved (count : ℕ) :
    Reads.Accepts (do let w ← wordField; reserved count; return f w) fun a bytes =>
      ∃ w, (∃ reserved : List UInt8, reserved.length = count ∧ bytes = wordBytes w ++ reserved) ∧
        f w = a := by
  refine (accepts_wordField.bind fun w => accepts_reservedOnly count (f w)).congr fun a bytes => ?_
  constructor
  · rintro ⟨w, _, reserved, rfl, ⟨hreserved, rfl⟩, rfl⟩
    exact ⟨w, ⟨reserved, hreserved, rfl⟩, rfl⟩
  · rintro ⟨w, ⟨reserved, hreserved, rfl⟩, rfl⟩
    exact ⟨w, _, reserved, rfl, ⟨hreserved, rfl⟩, rfl⟩

/-- A word before fields of another kind. -/
theorem accepts_wordThen {β : Type} {step : Reads TokenFault β} {layout : Layout β}
    (h : step.Accepts layout) (g : UInt16 → β → α) :
    Reads.Accepts (do let w ← wordField; return g w (← step)) fun a bytes =>
      ∃ w b, (∃ rest, layout b rest ∧ bytes = wordBytes w ++ rest) ∧ g w b = a := by
  refine (accepts_wordField.bind fun w => h.map (g w)).congr fun a bytes => ?_
  constructor
  · rintro ⟨w, _, rest, rfl, ⟨b, hrest, rfl⟩, rfl⟩
    exact ⟨w, b, ⟨rest, hrest, rfl⟩, rfl⟩
  · rintro ⟨w, b, ⟨rest, hrest, rfl⟩, rfl⟩
    exact ⟨w, _, rest, rfl, ⟨b, hrest, rfl⟩, rfl⟩

end

/-- What the fields behind a classed opcode are: those of a bare token with its base and class. -/
def Token.ClassedFields (base : UInt8) (cls : OperandClass) : Layout Token := fun t bytes =>
  t.class? = some cls ∧ t.baseOpcode = base ∧ t.bare = t ∧ t.StoredFields bytes

theorem accepts_memErr (cls : OperandClass) :
    Reads.Accepts (do
      let code ← byteField
      reserved 3
      return Token.mem (.err code (← wordField)) cls) fun t bytes => ∃ code size,
        MemToken.Stored (.err code size) bytes ∧ Token.mem (.err code size) cls = t := by
  refine (accepts_byteField.bind fun code => accepts_reservedWord
    (fun size => Token.mem (.err code size) cls) 3).congr fun t bytes => ?_
  constructor
  · rintro ⟨code, _, _, rfl, ⟨size, ⟨reserved, hreserved, rfl⟩, rfl⟩, rfl⟩
    exact ⟨code, size, ⟨reserved, hreserved, rfl⟩, rfl⟩
  · rintro ⟨code, size, ⟨reserved, hreserved, rfl⟩, rfl⟩
    exact ⟨code, _, _, rfl, ⟨size, ⟨reserved, hreserved, rfl⟩, rfl⟩, rfl⟩

theorem accepts_externalName (cls : OperandClass) :
    Reads.Accepts (do
      let sheet ← wordField
      let index ← wordField
      reserved 2
      return Token.name (.external sheet index) cls) fun t bytes => ∃ sheet index,
        NameRef.Stored (.external sheet index) bytes ∧
          Token.name (.external sheet index) cls = t := by
  refine (accepts_wordField.bind fun sheet => accepts_wordReserved
    (fun index => Token.name (.external sheet index) cls) 2).congr fun t bytes => ?_
  constructor
  · rintro ⟨sheet, _, _, rfl, ⟨index, ⟨reserved, hreserved, rfl⟩, rfl⟩, rfl⟩
    exact ⟨sheet, index, ⟨reserved, hreserved, by simp⟩, rfl⟩
  · rintro ⟨sheet, index, ⟨reserved, hreserved, rfl⟩, rfl⟩
    exact ⟨sheet, _, _, rfl, ⟨index, ⟨reserved, hreserved, rfl⟩, rfl⟩, by simp⟩

/-- The bases are tried one after the other, and each gives tokens that have it. -/
theorem sound_readClassed (base : UInt8) (cls : OperandClass) :
    Reads.Sound (readClassed base cls) (Token.ClassedFields base cls) := by
  rw [readClassed]
  refine .ite (fun h => ?_) fun _ => .ite (fun h => ?_) fun _ => .ite (fun h => ?_) fun _ =>
    .ite (fun h => ?_) fun _ => .ite (fun h => ?_) fun _ => .ite (fun h => ?_) fun _ =>
    .ite (fun h => ?_) fun _ => .ite (fun h => ?_) fun _ => .ite (fun h => ?_) fun _ =>
    .ite (fun h => ?_) fun _ => .ite (fun h => ?_) fun _ => .ite (fun h => ?_) fun _ =>
    .ite (fun h => ?_) fun _ => .ite (fun h => ?_) fun _ => .ite (fun h => ?_) fun _ =>
    .ite (fun h => ?_) fun _ => .ite (fun h => ?_) fun _ => .ite (fun h => ?_) fun _ =>
    .ite (fun h => ?_) fun _ => .ite (fun h => ?_) fun _ => .ite (fun h => ?_) fun _ => .throw _ _
  all_goals subst h
  · refine (accepts_reservedOnly 7 (Token.array none cls)).mono ?_
    rintro t bytes ⟨hbytes, rfl⟩
    exact ⟨rfl, rfl, rfl, hbytes⟩
  · refine (accepts_fixedCall.map fun c => Token.call c cls).mono ?_
    rintro t bytes ⟨_, ⟨index, hbytes, rfl⟩, rfl⟩
    exact ⟨rfl, rfl, rfl, hbytes⟩
  · refine (accepts_countedCall.map fun c => Token.call c cls).mono ?_
    rintro t bytes ⟨_, ⟨index, count, prompt, command, hbytes, rfl⟩, rfl⟩
    exact ⟨rfl, rfl, rfl, hbytes⟩
  · refine (accepts_wordReserved (fun index => Token.name (.defined index) cls) 2).mono ?_
    rintro t bytes ⟨index, hbytes, rfl⟩
    exact ⟨rfl, rfl, rfl, hbytes⟩
  · refine (accepts_cellField.map fun c => Token.reference (.cell c) cls).mono ?_
    rintro t bytes ⟨c, hbytes, rfl⟩
    exact ⟨rfl, rfl, rfl, hbytes⟩
  · refine (accepts_areaField.map fun a => Token.reference (.area a) cls).mono ?_
    rintro t bytes ⟨a, hbytes, rfl⟩
    exact ⟨rfl, rfl, rfl, hbytes⟩
  · refine (accepts_reservedWord (fun size => Token.mem (.area size none) cls) 4).mono ?_
    rintro t bytes ⟨size, hbytes, rfl⟩
    exact ⟨rfl, rfl, rfl, hbytes⟩
  · refine (accepts_memErr cls).mono ?_
    rintro t bytes ⟨code, size, hbytes, rfl⟩
    exact ⟨rfl, rfl, rfl, hbytes⟩
  · refine (accepts_reservedWord (fun size => Token.mem (.noMem size) cls) 4).mono ?_
    rintro t bytes ⟨size, hbytes, rfl⟩
    exact ⟨rfl, rfl, rfl, hbytes⟩
  · refine (accepts_wordField.map fun size => Token.mem (.func size) cls).mono ?_
    rintro t bytes ⟨size, hbytes, rfl⟩
    exact ⟨rfl, rfl, rfl, hbytes⟩
  · refine (accepts_reservedOnly 4 (Token.reference .cellGone cls)).mono ?_
    rintro t bytes ⟨hbytes, rfl⟩
    exact ⟨rfl, rfl, rfl, hbytes⟩
  · refine (accepts_reservedOnly 8 (Token.reference .areaGone cls)).mono ?_
    rintro t bytes ⟨hbytes, rfl⟩
    exact ⟨rfl, rfl, rfl, hbytes⟩
  · refine (accepts_cellField.map fun c => Token.reference (.sharedCell c) cls).mono ?_
    rintro t bytes ⟨c, hbytes, rfl⟩
    exact ⟨rfl, rfl, rfl, hbytes⟩
  · refine (accepts_areaField.map fun a => Token.reference (.sharedArea a) cls).mono ?_
    rintro t bytes ⟨a, hbytes, rfl⟩
    exact ⟨rfl, rfl, rfl, hbytes⟩
  · refine (accepts_wordField.map fun size => Token.mem (.sharedArea size) cls).mono ?_
    rintro t bytes ⟨size, hbytes, rfl⟩
    exact ⟨rfl, rfl, rfl, hbytes⟩
  · refine (accepts_wordField.map fun size => Token.mem (.sharedNoMem size) cls).mono ?_
    rintro t bytes ⟨size, hbytes, rfl⟩
    exact ⟨rfl, rfl, rfl, hbytes⟩
  · refine (accepts_externalName cls).mono ?_
    rintro t bytes ⟨sheet, index, hbytes, rfl⟩
    exact ⟨rfl, rfl, rfl, hbytes⟩
  · refine (accepts_wordThen accepts_cellField fun sheet c =>
      Token.reference (.sheetCell sheet c) cls).mono ?_
    rintro t bytes ⟨sheet, c, hbytes, rfl⟩
    exact ⟨rfl, rfl, rfl, hbytes⟩
  · refine (accepts_wordThen accepts_areaField fun sheet a =>
      Token.reference (.sheetArea sheet a) cls).mono ?_
    rintro t bytes ⟨sheet, a, hbytes, rfl⟩
    exact ⟨rfl, rfl, rfl, hbytes⟩
  · refine (accepts_wordReserved (fun sheet =>
      Token.reference (.sheetCellGone sheet) cls) 4).mono ?_
    rintro t bytes ⟨sheet, hbytes, rfl⟩
    exact ⟨rfl, rfl, rfl, hbytes⟩
  · refine (accepts_wordReserved (fun sheet =>
      Token.reference (.sheetAreaGone sheet) cls) 8).mono ?_
    rintro t bytes ⟨sheet, hbytes, rfl⟩
    exact ⟨rfl, rfl, rfl, hbytes⟩

/-- Every bare token with a class is read back by its base. -/
theorem accepts_readClassed (base : UInt8) (cls : OperandClass) :
    Reads.Accepts (readClassed base cls) (Token.ClassedFields base cls) := by
  refine .of_sound (sound_readClassed base cls) ?_
  rintro t bytes k k' ⟨hcls, rfl, hbare, hbytes⟩ hk
  cases t with
  | operator op => cases hcls
  | shared row col => cases hcls
  | table row col => cases hcls
  | paren => cases hcls
  | missing => cases hcls
  | hint a => cases hcls
  | literal l => cases hcls
  | reference r cls' =>
    obtain rfl := Option.some.inj hcls
    cases r with
    | cell c => exact (accepts_cellField.map _).complete ⟨c, hbytes, rfl⟩ hk
    | area a => exact (accepts_areaField.map _).complete ⟨a, hbytes, rfl⟩ hk
    | cellGone => exact (accepts_reservedOnly 4 _).complete ⟨hbytes, rfl⟩ hk
    | areaGone => exact (accepts_reservedOnly 8 _).complete ⟨hbytes, rfl⟩ hk
    | sharedCell c => exact (accepts_cellField.map _).complete ⟨c, hbytes, rfl⟩ hk
    | sharedArea a => exact (accepts_areaField.map _).complete ⟨a, hbytes, rfl⟩ hk
    | sheetCell sheet c =>
      exact (accepts_wordThen accepts_cellField _).complete ⟨sheet, c, hbytes, rfl⟩ hk
    | sheetArea sheet a =>
      exact (accepts_wordThen accepts_areaField _).complete ⟨sheet, a, hbytes, rfl⟩ hk
    | sheetCellGone sheet => exact (accepts_wordReserved _ 4).complete ⟨sheet, hbytes, rfl⟩ hk
    | sheetAreaGone sheet => exact (accepts_wordReserved _ 8).complete ⟨sheet, hbytes, rfl⟩ hk
  | name n cls' =>
    obtain rfl := Option.some.inj hcls
    cases n with
    | defined index => exact (accepts_wordReserved _ 2).complete ⟨index, hbytes, rfl⟩ hk
    | external sheet index =>
      exact (accepts_externalName cls').complete ⟨sheet, index, hbytes, rfl⟩ hk
  | mem m cls' =>
    obtain rfl := Option.some.inj hcls
    cases m with
    | area size areas =>
      cases hbare
      exact (accepts_reservedWord _ 4).complete ⟨size, hbytes, rfl⟩ hk
    | err code size => exact (accepts_memErr cls').complete ⟨code, size, hbytes, rfl⟩ hk
    | noMem size => exact (accepts_reservedWord _ 4).complete ⟨size, hbytes, rfl⟩ hk
    | func size => exact (accepts_wordField.map _).complete ⟨size, hbytes, rfl⟩ hk
    | sharedArea size => exact (accepts_wordField.map _).complete ⟨size, hbytes, rfl⟩ hk
    | sharedNoMem size => exact (accepts_wordField.map _).complete ⟨size, hbytes, rfl⟩ hk
  | array cells cls' =>
    obtain rfl := Option.some.inj hcls
    cases hbare
    exact (accepts_reservedOnly 7 _).complete ⟨hbytes, rfl⟩ hk
  | call c cls' =>
    obtain rfl := Option.some.inj hcls
    cases c with
    | fixed index => exact (accepts_fixedCall.map _).complete ⟨_, ⟨index, hbytes, rfl⟩, rfl⟩ hk
    | counted index count prompt command =>
      exact (accepts_countedCall.map _).complete
        ⟨_, ⟨index, count, prompt, command, hbytes, rfl⟩, rfl⟩ hk

/-- What the fields behind an opcode without a class are, operators aside. -/
def Token.UnclassedFields (opcode : UInt8) : Layout Token := fun t bytes =>
  t.class? = none ∧ (∀ op, t ≠ .operator op) ∧ t.baseOpcode = opcode ∧ t.StoredFields bytes

theorem accepts_twoWords {α : Type} (f : UInt16 → UInt16 → α) :
    Reads.Accepts (do let row ← wordField; return f row (← wordField)) fun a bytes =>
      ∃ row col, bytes = wordBytes row ++ wordBytes col ∧ f row col = a := by
  refine (accepts_wordThen accepts_wordField f).congr fun a bytes => ?_
  constructor
  · rintro ⟨row, col, ⟨_, rfl, rfl⟩, ha⟩
    exact ⟨row, col, rfl, ha⟩
  · rintro ⟨row, col, rfl, ha⟩
    exact ⟨row, col, ⟨_, rfl, rfl⟩, ha⟩

theorem accepts_numberField :
    Reads.Accepts (do return Token.literal (.number ⟨← tokenField Cursor.quad⟩)) fun t bytes =>
      ∃ bits, bytes = quadBytes bits ∧ Token.literal (.number ⟨bits⟩) = t :=
  (Cursor.accepts_quad.adapt _).map fun bits => Token.literal (.number ⟨bits⟩)

theorem sound_readUnclassed (opcode : UInt8) :
    Reads.Sound (readUnclassed opcode) (Token.UnclassedFields opcode) := by
  rw [readUnclassed]
  refine .ite (fun h => ?_) fun _ => .ite (fun h => ?_) fun _ => .ite (fun h => ?_) fun _ =>
    .ite (fun h => ?_) fun _ => .ite (fun h => ?_) fun _ => .ite (fun h => ?_) fun _ =>
    .ite (fun h => ?_) fun _ => .ite (fun h => ?_) fun _ => .ite (fun h => ?_) fun _ =>
    .ite (fun h => ?_) fun _ => .throw _ _
  all_goals subst h
  · refine (accepts_twoWords Token.shared).mono ?_
    rintro t bytes ⟨row, col, hbytes, rfl⟩
    exact ⟨rfl, nofun, rfl, hbytes⟩
  · refine (accepts_twoWords Token.table).mono ?_
    rintro t bytes ⟨row, col, hbytes, rfl⟩
    exact ⟨rfl, nofun, rfl, hbytes⟩
  · refine (Reads.Accepts.pure Token.paren).mono ?_
    rintro t bytes ⟨rfl, hbytes⟩
    exact ⟨rfl, nofun, rfl, hbytes⟩
  · refine (Reads.Accepts.pure Token.missing).mono ?_
    rintro t bytes ⟨rfl, hbytes⟩
    exact ⟨rfl, nofun, rfl, hbytes⟩
  · refine (accepts_textField.map fun s => Token.literal (.text s)).mono ?_
    rintro t bytes ⟨s, hbytes, rfl⟩
    exact ⟨rfl, nofun, rfl, hbytes⟩
  · refine (accepts_attributeField.map Token.hint).mono ?_
    rintro t bytes ⟨a, hbytes, rfl⟩
    exact ⟨rfl, nofun, rfl, hbytes⟩
  · refine (accepts_errorField.map fun kind => Token.literal (.error kind)).mono ?_
    rintro t bytes ⟨kind, hbytes, rfl⟩
    exact ⟨rfl, nofun, rfl, hbytes⟩
  · refine (accepts_booleanField.map fun b => Token.literal (.boolean b)).mono ?_
    rintro t bytes ⟨b, hbytes, rfl⟩
    exact ⟨rfl, nofun, rfl, hbytes⟩
  · refine (accepts_wordField.map fun n => Token.literal (.int n)).mono ?_
    rintro t bytes ⟨n, hbytes, rfl⟩
    exact ⟨rfl, nofun, rfl, hbytes⟩
  · refine accepts_numberField.mono ?_
    rintro t bytes ⟨bits, hbytes, rfl⟩
    exact ⟨rfl, nofun, rfl, hbytes⟩

/-- Every token without a class, operators aside, is read back by its opcode. -/
theorem accepts_readUnclassed (opcode : UInt8) :
    Reads.Accepts (readUnclassed opcode) (Token.UnclassedFields opcode) := by
  refine .of_sound (sound_readUnclassed opcode) ?_
  rintro t bytes k k' ⟨hcls, hop, rfl, hbytes⟩ hk
  cases t with
  | operator op => exact absurd rfl (hop op)
  | shared row col => exact (accepts_twoWords _).complete ⟨row, col, hbytes, rfl⟩ hk
  | table row col => exact (accepts_twoWords _).complete ⟨row, col, hbytes, rfl⟩ hk
  | paren => exact (Reads.Accepts.pure _).complete ⟨rfl, hbytes⟩ hk
  | missing => exact (Reads.Accepts.pure _).complete ⟨rfl, hbytes⟩ hk
  | hint a => exact (accepts_attributeField.map _).complete ⟨a, hbytes, rfl⟩ hk
  | literal l =>
    cases l with
    | int n => exact (accepts_wordField.map _).complete ⟨n, hbytes, rfl⟩ hk
    | number x => exact accepts_numberField.complete ⟨x.bits, hbytes, rfl⟩ hk
    | text s => exact (accepts_textField.map _).complete ⟨s, hbytes, rfl⟩ hk
    | boolean b => exact (accepts_booleanField.map _).complete ⟨b, hbytes, rfl⟩ hk
    | error kind => exact (accepts_errorField.map _).complete ⟨kind, hbytes, rfl⟩ hk
  | reference r cls => cases hcls
  | name n cls => cases hcls
  | mem m cls => cases hcls
  | array cells cls => cases hcls
  | call c cls => cases hcls

/-! ### Reading a token by its opcode -/

theorem ofOpcode?_eq_some {b : UInt8} {op : Operator} (h : Operator.ofOpcode? b = some op) :
    op.opcode = b := by
  have hfound := List.find?_some h
  exact beq_iff_eq.mp hfound

/-- Operators have the smallest opcodes. -/
theorem ofOpcode?_eq_none {b : UInt8} (h : Operator.percent.opcode < b) :
    Operator.ofOpcode? b = none := by
  refine List.find?_eq_none.mpr fun op _ hop => ?_
  obtain rfl := beq_iff_eq.mp hop
  cases op <;> exact absurd h (by decide)

/-- The base of a classed opcode is its low five bits above `0x20`. -/
theorem toNat_splitBase (opcode : UInt8) :
    (0x20 ||| (opcode &&& 0x1F) : UInt8).toNat = 2 ^ 5 + opcode.toNat % 2 ^ 5 := by
  have hlow : (opcode &&& 0x1F).toNat = opcode.toNat % 2 ^ 5 := by
    rw [UInt8.toNat_and]
    exact Nat.and_two_pow_sub_one_eq_mod opcode.toNat 5
  have hlt : opcode.toNat % 2 ^ 5 < 2 ^ 5 := Nat.mod_lt _ (by norm_num)
  rw [UInt8.toNat_or, hlow]
  exact (Nat.two_pow_add_eq_or_of_lt hlt 1).symm

/-- **A classed opcode is taken apart into its base and its class.** -/
theorem split?_eq_some_iff {opcode base : UInt8} {cls : OperandClass} :
    OperandClass.split? opcode = some (base, cls) ↔
      0x20 ≤ base ∧ base < 0x40 ∧ opcode = base + cls.opcodeOffset := by
  have hlow := toNat_splitBase opcode
  have hopcode : opcode.toNat < 256 := opcode.toNat_lt
  have hoffset : cls.opcodeOffset.toNat = 0 ∧ cls = .reference ∨
      cls.opcodeOffset.toNat = 32 ∧ cls = .value ∨ cls.opcodeOffset.toNat = 64 ∧ cls = .array := by
    cases cls <;> simp [OperandClass.opcodeOffset]
  rw [OperandClass.split?]
  generalize (0x20 ||| (opcode &&& 0x1F) : UInt8) = low at hlow ⊢
  simp only [UInt8.lt_iff_toNat_lt, UInt8.le_iff_toNat_le, ← UInt8.toNat_inj (a := opcode),
    UInt8.toNat_add, UInt8.reduceToNat]
  constructor
  · intro h
    split at h
    · cases h
    split at h
    · cases h
      simp only [OperandClass.opcodeOffset, UInt8.reduceToNat]
      omega
    split at h
    · cases h
      simp only [OperandClass.opcodeOffset, UInt8.reduceToNat]
      omega
    split at h
    · cases h
      simp only [OperandClass.opcodeOffset, UInt8.reduceToNat]
      omega
    · cases h
  · rintro ⟨hleast, hmost, hsum⟩
    have hbase : low = base := UInt8.toNat_inj.mp (by omega)
    rw [hbase]
    obtain ⟨hoffset, rfl⟩ | ⟨hoffset, rfl⟩ | ⟨hoffset, rfl⟩ := hoffset
    · rw [if_neg (by omega), if_pos (by omega)]
    · rw [if_neg (by omega), if_neg (by omega), if_pos (by omega)]
    · rw [if_neg (by omega), if_neg (by omega), if_neg (by omega), if_pos (by omega)]

theorem opcode_of_class? {t : Token} {cls : OperandClass} (h : t.class? = some cls) :
    t.opcode = t.baseOpcode + cls.opcodeOffset := by
  rw [Token.opcode, h]

theorem opcode_of_unclassed {t : Token} (h : t.class? = none) : t.opcode = t.baseOpcode := by
  rw [Token.opcode, h]

/-- Only tokens with a class have literals behind the stream. -/
theorem bare_of_unclassed {t : Token} (h : t.class? = none) : t.bare = t := by
  cases t with
  | reference r cls => cases h
  | name n cls => cases h
  | mem m cls => cases h
  | array cells cls => cases h
  | call c cls => cases h
  | _ => rfl

/-- Every base of a token with a class lies where the classes are told apart. -/
theorem baseOpcode_bounds {t : Token} {cls : OperandClass} (h : t.class? = some cls) :
    0x20 ≤ t.baseOpcode ∧ t.baseOpcode < 0x40 := by
  cases t with
  | operator op => cases h
  | shared row col => cases h
  | table row col => cases h
  | paren => cases h
  | missing => cases h
  | hint a => cases h
  | literal l => cases h
  | reference r _ => cases r <;> simp [Token.baseOpcode, Reference.baseOpcode]
  | name n _ => cases n <;> simp [Token.baseOpcode]
  | mem m _ => cases m <;> simp [Token.baseOpcode, MemToken.baseOpcode]
  | array cells _ => simp [Token.baseOpcode]
  | call c _ => cases c <;> simp [Token.baseOpcode, Call.baseOpcode]

/-- The opcodes of the tokens without a class, operators aside. -/
def unclassedOpcodes : List UInt8 := [0x01, 0x02, 0x15, 0x16, 0x17, 0x19, 0x1C, 0x1D, 0x1E, 0x1F]

theorem baseOpcode_mem_unclassed {t : Token} (h : t.class? = none)
    (hop : ∀ op, t ≠ .operator op) : t.baseOpcode ∈ unclassedOpcodes := by
  cases t with
  | operator op => exact absurd rfl (hop op)
  | reference r cls => cases h
  | name n cls => cases h
  | mem m cls => cases h
  | array cells cls => cases h
  | call c cls => cases h
  | literal l => cases l <;> simp [Token.baseOpcode, unclassedOpcodes]
  | _ => simp [Token.baseOpcode, unclassedOpcodes]

theorem unclassedOpcodes_spec : ∀ opcode ∈ unclassedOpcodes,
    Operator.ofOpcode? opcode = none ∧ OperandClass.split? opcode = none := by
  decide +kernel

theorem le_of_split? {opcode : UInt8} {found : UInt8 × OperandClass}
    (h : OperandClass.split? opcode = some found) : 0x20 ≤ opcode := by
  by_contra hlt
  rw [OperandClass.split?, if_pos (UInt8.not_le.mp hlt)] at h
  cases h

/-- The opcode of a token with a class is no operator, and is taken apart into its base and its
class. -/
theorem split?_opcode {t : Token} {cls : OperandClass} (h : t.class? = some cls) :
    Operator.ofOpcode? t.opcode = none ∧
      OperandClass.split? t.opcode = some (t.baseOpcode, cls) := by
  obtain ⟨hleast, hmost⟩ := baseOpcode_bounds h
  have hsplit := split?_eq_some_iff.mpr ⟨hleast, hmost, opcode_of_class? h⟩
  have hlarge : Operator.percent.opcode < t.opcode :=
    UInt8.lt_of_lt_of_le (by decide) (le_of_split? hsplit)
  exact ⟨ofOpcode?_eq_none hlarge, hsplit⟩

/-- What the fields behind an opcode are: those of a bare token with that opcode. -/
def Token.OpcodeFields (opcode : UInt8) : Layout Token := fun t bytes =>
  t.opcode = opcode ∧ t.bare = t ∧ t.StoredFields bytes

theorem sound_readToken (opcode : UInt8) :
    Reads.Sound (readToken opcode) (Token.OpcodeFields opcode) := by
  rw [readToken]
  split
  · next op hop =>
    refine (Reads.Accepts.pure (Token.operator op)).mono ?_
    rintro t bytes ⟨rfl, hbytes⟩
    exact ⟨ofOpcode?_eq_some hop, rfl, hbytes⟩
  · split
    · next base cls hsplit =>
      refine (accepts_readClassed base cls).mono ?_
      rintro t bytes ⟨hcls, rfl, hbare, hbytes⟩
      obtain ⟨-, -, hopcode⟩ := split?_eq_some_iff.mp hsplit
      exact ⟨(opcode_of_class? hcls).trans hopcode.symm, hbare, hbytes⟩
    · refine (accepts_readUnclassed opcode).mono ?_
      rintro t bytes ⟨hcls, -, hopcode, hbytes⟩
      exact ⟨(opcode_of_unclassed hcls).trans hopcode, bare_of_unclassed hcls, hbytes⟩

/-- **Every bare token is read back by its opcode, and nothing else is.** -/
theorem accepts_readToken (opcode : UInt8) :
    Reads.Accepts (readToken opcode) (Token.OpcodeFields opcode) := by
  refine .of_sound (sound_readToken opcode) ?_
  rintro t bytes c c' ⟨rfl, hbare, hbytes⟩ hc
  rw [readToken]
  cases hcls : t.class? with
  | some cls =>
    obtain ⟨hnone, hsplit⟩ := split?_opcode hcls
    simp only [hnone, hsplit]
    exact (accepts_readClassed _ _).complete ⟨hcls, rfl, hbare, hbytes⟩ hc
  | none =>
    rw [opcode_of_unclassed hcls]
    by_cases hop : ∀ op, t ≠ .operator op
    · obtain ⟨hnone, hsplit⟩ := unclassedOpcodes_spec _ (baseOpcode_mem_unclassed hcls hop)
      simp only [hnone, hsplit]
      exact (accepts_readUnclassed _).complete ⟨hcls, hop, rfl, hbytes⟩ hc
    · obtain ⟨op, hop⟩ := not_forall_not.mp hop
      subst hop
      simp only [Token.baseOpcode, Operator.ofOpcode?_opcode]
      exact (Reads.Accepts.pure _).complete ⟨rfl, hbytes⟩ hc

end CellFormula
