import CellFormula.Proofs.StoredFormula

/-!
# Where the reading of a formula stops

A reading that fails names a place in the buffer, and in most cases the opcode of a token. Here is
what those are worth: up to the place everything is in order, and the token that is named is the
first one that is not.

## Two passes and three kinds of places

A failure of the token stream names the place where a token begins. A failure behind the stream
names the place where a literal begins, or a cell of an array literal, and the opcode of the token
that the literal belongs to, which stands in the stream and not at that place. So there are two
descriptions, `StreamStop` and `LiteralStop`, and the kind of the failure says which one applies.

## The reader is not mentioned

Both descriptions speak of stored forms only. That no stored form of a token begins at a place
determines the place, `StreamStop.unique`, so it does not matter in which order a reader looks at
the fields of a token.

## Main definitions

* `StreamStop` — where a token stream stops being made of tokens
* `LiteralStop` — the first literal behind a stream that is not there
* `DecodeError.PointsAt` — what a failure says about the buffer

## Main results

* `StreamStop.unique`
* `readStream_eq_error`, `readLiterals_eq_error` — which token a pass fails at
* `Formula.pointsAt_of_decode_eq_error`
-/

namespace CellFormula

/-! ### Failures of composed reads -/

theorem except_bind_eq_error {ε α β : Type} {x : Except ε α} {next : α → Except ε β} {e : ε} :
    x >>= next = .error e ↔ x = .error e ∨ ∃ a, x = .ok a ∧ next a = .error e := by
  cases x with
  | error e' =>
    constructor
    · intro h
      cases h
      exact .inl rfl
    · rintro (h | ⟨a, h, -⟩)
      · cases h
        rfl
      · cases h
  | ok a =>
    constructor
    · intro h
      exact .inr ⟨a, rfl, h⟩
    · rintro (h | ⟨a', h, hnext⟩)
      · cases h
      · cases h
        exact hnext

namespace Reads

variable {ε ε' α β : Type}

/-- Two reads one after the other fail where the first one fails, or else where the second one does
from the place that the first one has come to. -/
theorem bind_eq_error {step : Reads ε α} {next : α → Reads ε β} {c c'' : Cursor} {e : ε} :
    (step >>= next) c = .error e c'' ↔
      step c = .error e c'' ∨ ∃ a c', step c = .ok a c' ∧ next a c' = .error e c'' := by
  change EStateM.bind step next c = .error e c'' ↔ _
  rw [EStateM.bind]
  cases hs : step c with
  | ok a c' =>
    constructor
    · intro h
      exact .inr ⟨a, c', rfl, h⟩
    · rintro (h | ⟨a', d, h, hn⟩)
      · cases h
      · cases h
        exact hn
  | error e' c' =>
    constructor
    · intro h
      cases h
      exact .inl rfl
    · rintro (h | ⟨a', d, h, -⟩)
      · cases h
        rfl
      · cases h

theorem adaptExcept_eq_error {step : Reads ε α} {f : ε → ε'} {c c' : Cursor} {e' : ε'} :
    EStateM.adaptExcept f step c = .error e' c' ↔ ∃ e, step c = .error e c' ∧ f e = e' := by
  rw [EStateM.adaptExcept]
  cases step c with
  | ok a d => simp
  | error e d => simp [and_comm]

/-- Whatever the read fails with is of this kind, which may depend on where it began. -/
def Throws (step : Reads ε α) (kind : Cursor → ε → Prop) : Prop :=
  ∀ c e c', step c = .error e c' → kind c e

namespace Throws

variable {step : Reads ε α} {kind : Cursor → ε → Prop}

theorem pure (a : α) : Throws (Pure.pure a : Reads ε α) kind := by
  intro c e c' h
  cases h

theorem throw {e : ε} (h : ∀ c, kind c e) : Throws (MonadExcept.throw e : Reads ε α) kind := by
  intro c e' c' hs
  cases hs
  exact h c

theorem ite {p : Prop} [Decidable p] {yes no : Reads ε α} (hyes : p → Throws yes kind)
    (hno : ¬ p → Throws no kind) : Throws (if p then yes else no) kind := by
  split
  · next h => exact hyes h
  · next h => exact hno h

theorem adapt {kind' : Cursor → ε' → Prop} {f : ε → ε'} (h : Throws step kind)
    (hf : ∀ c e, kind c e → kind' c (f e)) : Throws (EStateM.adaptExcept f step) kind' := by
  intro c e' c' hs
  obtain ⟨e, he, rfl⟩ := adaptExcept_eq_error.mp hs
  exact hf c e (h c e c' he)

/-- A failure of the second read has to be of the kind that belongs to the beginning of the first
one, hence the condition `hback`. -/
theorem bind {next : α → Reads ε β} (h : Throws step kind) (hnext : ∀ a, Throws (next a) kind)
    (hback : ∀ c a c' e, step c = .ok a c' → kind c' e → kind c e) :
    Throws (step >>= next) kind := by
  intro c e c'' hs
  rcases bind_eq_error.mp hs with hstep | ⟨a, c', hstep, hrest⟩
  · exact h c e c'' hstep
  · exact hback c a c' e hstep (hnext a c' e c'' hrest)

/-- Where the kind does not depend on the cursor, the condition is no condition. -/
theorem bind_const {bad : ε → Prop} {next : α → Reads ε β} (h : Throws step fun _ => bad)
    (hnext : ∀ a, Throws (next a) fun _ => bad) : Throws (step >>= next) fun _ => bad :=
  h.bind hnext fun _ _ _ _ _ hbad => hbad

theorem times (h : Throws step kind)
    (hback : ∀ c a c' e, step c = .ok a c' → kind c' e → kind c e) (count : Nat) :
    Throws (Reads.times count step) kind := by
  suffices hgo : ∀ (count : Nat) (done : List α), Throws (times.go step count done) kind from
    hgo count []
  intro count
  induction count with
  | zero => exact fun done => .pure done.reverse
  | succ count ih => exact fun done => h.bind (fun a => ih (a :: done)) hback

end Throws

end Reads

/-! ### Failures of the token stream -/

/-- **Where a token stream stops being made of tokens.** It is made of tokens up to the place, and
none begins there; a stream that is made of tokens to its end stops at its end. -/
structure StreamStop (stream : List UInt8) (place : Nat) : Prop where
  within : place ≤ stream.length
  /-- Everything before the place is made of tokens. -/
  tokens : ∃ f : Formula, Layout.each Token.Stored f (stream.take place)
  /-- No token begins at the place. -/
  stuck : ∀ (t : Token) (piece : List UInt8), t.Stored piece → ¬ piece <+: stream.drop place

theorem Token.Stored.ne_nil {t : Token} {piece : List UInt8} (h : t.Stored piece) : piece ≠ [] := by
  obtain ⟨fields, -, rfl⟩ := h
  exact List.cons_ne_nil _ _

/-- Of two runs of tokens that one buffer begins with, the longer one goes on with tokens where the
shorter one ends. -/
theorem each_stored_continues {f f' : Formula} {xs ys xs' ys' : List UInt8}
    (hx : Layout.each Token.Stored f xs) (hy : Layout.each Token.Stored f' ys)
    (heq : xs ++ xs' = ys ++ ys') (hle : xs.length ≤ ys.length) :
    ∃ (more : Formula) (zs : List UInt8), Layout.each Token.Stored more zs ∧ ys = xs ++ zs := by
  induction f generalizing f' xs ys with
  | nil =>
    obtain rfl := Layout.each_nil.mp hx
    exact ⟨f', ys, hy, rfl⟩
  | cons t f ih =>
    obtain ⟨piece, others, hpiece, hothers, rfl⟩ := Layout.each_cons.mp hx
    cases f' with
    | nil =>
      obtain rfl := Layout.each_nil.mp hy
      have hnil : piece = [] := by
        rw [List.length_append, List.length_nil] at hle
        exact List.length_eq_zero_iff.mp (by omega)
      exact absurd hnil hpiece.ne_nil
    | cons t' f' =>
      obtain ⟨piece', others', hpiece', hothers', rfl⟩ := Layout.each_cons.mp hy
      rw [List.append_assoc, List.append_assoc] at heq
      obtain rfl := Formula.stored_unique hpiece hpiece' heq
      rw [List.length_append, List.length_append] at hle
      obtain ⟨more, zs, hmore, rfl⟩ := ih hothers hothers' (List.append_cancel_left heq) (by omega)
      exact ⟨more, zs, hmore, (List.append_assoc _ _ _).symm⟩

/-- **A stream stops at one place only.** -/
theorem StreamStop.unique {stream : List UInt8} {place place' : Nat} (h : StreamStop stream place)
    (h' : StreamStop stream place') : place = place' := by
  wlog hle : place ≤ place' generalizing place place'
  · exact (this h' h (Nat.le_of_not_le hle)).symm
  obtain ⟨f, hf⟩ := h.tokens
  obtain ⟨f', hf'⟩ := h'.tokens
  have hlength := List.length_take_of_le h.within
  have hlength' := List.length_take_of_le h'.within
  have heq : stream.take place ++ stream.drop place = stream.take place' ++ stream.drop place' := by
    rw [List.take_append_drop, List.take_append_drop]
  have hshorter : (stream.take place).length ≤ (stream.take place').length := by
    rw [hlength, hlength']
    exact hle
  obtain ⟨more, zs, hmore, hzs⟩ := each_stored_continues hf hf' heq hshorter
  cases more with
  | nil =>
    obtain rfl := Layout.each_nil.mp hmore
    rw [← hlength, ← hlength', hzs, List.append_nil]
  | cons t more =>
    obtain ⟨piece, others, hpiece, -, rfl⟩ := Layout.each_cons.mp hmore
    refine absurd ⟨others ++ stream.drop place', ?_⟩ (h.stuck t piece hpiece)
    rw [hzs, List.append_assoc] at heq
    rw [List.append_cancel_left heq, List.append_assoc]

/-- Where the reading of a token fails, no token begins. -/
theorem not_prefix_of_readToken_eq_error {opcode : UInt8} {position : Nat} {fields : List UInt8}
    {fault : TokenFault} {c' : Cursor} (h : readToken opcode ⟨position, fields⟩ = .error fault c')
    {t : Token} {piece : List UInt8} (ht : t.Stored piece) : ¬ piece <+: opcode :: fields := by
  rintro ⟨rest, hrest⟩
  obtain ⟨stored, hstored, rfl⟩ := ht
  rw [List.cons_append] at hrest
  obtain ⟨rfl, rfl⟩ := List.cons.inj hrest
  have hread := (accepts_readToken t.opcode).complete
    ⟨t.opcode_bare, t.bare_bare, Token.storedFields_bare.mpr hstored⟩
    (Cursor.passes_mk position stored rest)
  rw [h] at hread
  cases hread

/-- **The first pass fails at the first token that is not there.** -/
theorem readStream_eq_error {declared available : Nat} {c : Cursor} {done : List Token}
    {e : DecodeError} (h : readStream declared available c done = .error e) :
    ∃ ts xs opcode fields fault c', Layout.each Token.BareStored ts xs ∧
      c.rest = xs ++ opcode :: fields ∧
      readToken opcode ⟨c.position + xs.length + 1, fields⟩ = .error fault c' ∧
      e = tokenError declared available (c.position + xs.length) opcode fault := by
  fun_induction readStream declared available c done with
  | case1 done position => cases h
  | case2 done position opcode rest t next hread ih =>
    obtain ⟨ts, xs, opcode', fields, fault, c', hts, hrest, hfault, rfl⟩ := ih h
    obtain ⟨stored, ⟨rfl, hbare, hstored⟩, hpasses, hposition⟩ :=
      (accepts_readToken opcode).sound hread
    have hplace : next.position + xs.length = position + (t.opcode :: (stored ++ xs)).length := by
      rw [hposition, List.length_cons, List.length_append]
      dsimp only
      omega
    rw [hplace] at hfault ⊢
    refine ⟨t :: ts, t.opcode :: (stored ++ xs), opcode', fields, fault, c', ?_, ?_, hfault, rfl⟩
    · exact Layout.each_cons.mpr
        ⟨t.opcode :: stored, xs, ⟨hbare, stored, hstored, rfl⟩, hts, rfl⟩
    · have hrest' : rest = stored ++ next.rest := hpasses
      rw [hrest', hrest, List.cons_append, List.append_assoc]
  | case3 done position opcode rest fault c' hread =>
    cases h
    exact ⟨[], [], opcode, rest, fault, c', Layout.each_nil.mpr rfl, rfl, hread, rfl⟩

/-! ### Failures behind the stream -/

/-- The place is one that the cursor has still to pass, or the end of the buffer. -/
def Cursor.Covers (c : Cursor) (place : Nat) : Prop :=
  c.position ≤ place ∧ place ≤ c.position + c.rest.length

theorem Cursor.Passes.covers {c c' : Cursor} {bytes : List UInt8} {place : Nat}
    (h : c.Passes bytes c') (hc : c'.Covers place) : c.Covers place := by
  obtain ⟨hrest, hposition⟩ := h
  obtain ⟨hleast, hmost⟩ := hc
  have hlength : c.rest.length = bytes.length + c'.rest.length := by
    rw [hrest, List.length_append]
  exact ⟨by omega, by omega⟩

theorem Cursor.covers_position (c : Cursor) : c.Covers c.position :=
  ⟨Nat.le_refl _, Nat.le_add_right _ _⟩

namespace Constant

theorem throws_fitting {α : Type} (offset : Nat) (step : Reads ShortRead α) :
    Reads.Throws (fitting offset step) fun _ fault => fault.offset = offset := by
  intro c fault c' h
  obtain ⟨short, -, rfl⟩ := Reads.adaptExcept_eq_error.mp h
  rfl

theorem throws_readPayload (offset : Nat) (tag : UInt8) :
    Reads.Throws (readPayload offset tag) fun _ fault => fault.offset = offset := by
  unfold readPayload
  refine .ite (fun _ => ?_) fun _ => .ite (fun _ => ?_) fun _ => .ite (fun _ => ?_) fun _ =>
    .ite (fun _ => ?_) fun _ => .ite (fun _ => ?_) fun _ => .throw fun _ => rfl
  · exact (throws_fitting _ _).bind_const fun _ => .pure _
  · exact (throws_fitting _ _).bind_const fun _ => .pure _
  · refine (throws_fitting _ _).bind_const fun _ => (throws_fitting _ _).bind_const fun _ =>
      (throws_fitting _ _).bind_const fun _ => ?_
    split
    · exact .pure _
    · exact .throw fun _ => rfl
  · exact (throws_fitting _ _).bind_const fun _ => (throws_fitting _ _).bind_const fun _ =>
      .ite (fun _ => .pure _) fun _ => .ite (fun _ => .pure _) fun _ => .throw fun _ => rfl
  · exact (throws_fitting _ _).bind_const fun _ => (throws_fitting _ _).bind_const fun _ => .pure _

/-- **A faulty constant is reported where it begins.** -/
theorem throws_read : Reads.Throws read fun c fault => fault.offset = c.position := by
  intro c
  exact (throws_fitting c.position Cursor.byte).bind_const (throws_readPayload c.position) c

end Constant

/-- The failure is one of a literal of a token with this opcode, and names a place that the cursor
covers. -/
def DecodeError.InLiteral (opcode : UInt8) (c : Cursor) : DecodeError → Prop
  | literalCutShort place owner _ => owner = opcode ∧ c.Covers place
  | invalidConstant owner fault => owner = opcode ∧ c.Covers fault.offset
  | truncated .. | token .. => False

theorem DecodeError.InLiteral.back {opcode : UInt8} {c c' : Cursor} {bytes : List UInt8}
    {e : DecodeError} (h : c.Passes bytes c') (he : e.InLiteral opcode c') :
    e.InLiteral opcode c := by
  cases e with
  | literalCutShort place owner short => exact ⟨he.1, h.covers he.2⟩
  | invalidConstant owner fault => exact ⟨he.1, h.covers he.2⟩
  | truncated => exact he.elim
  | token => exact he.elim

theorem throws_literalField {α : Type} (place : Nat) (opcode : UInt8) (step : Reads ShortRead α) :
    Reads.Throws (literalField place opcode step) fun _ e =>
      ∃ short, e = .literalCutShort place opcode short := by
  intro c e c' h
  obtain ⟨short, -, rfl⟩ := Reads.adaptExcept_eq_error.mp h
  exact ⟨short, rfl⟩

/-- A faulty cell is reported where it begins. -/
theorem throws_cell (opcode : UInt8) :
    Reads.Throws (EStateM.adaptExcept (cellError opcode) Constant.read)
      fun c e => e.InLiteral opcode c := by
  refine Constant.throws_read.adapt fun c fault hfault => ?_
  cases fault with
  | cutShort place short =>
    obtain rfl : place = c.position := hfault
    exact ⟨rfl, c.covers_position⟩
  | unknownTag place tag => exact ⟨rfl, hfault ▸ c.covers_position⟩
  | invalidBoolean place value => exact ⟨rfl, hfault ▸ c.covers_position⟩
  | invalidText place => exact ⟨rfl, hfault ▸ c.covers_position⟩

/-- The head of an array literal is reported where the literal begins, and a cell where the cell
begins. -/
theorem throws_readArray (opcode : UInt8) :
    Reads.Throws (readArray opcode) fun c e => e.InLiteral opcode c := by
  have hbyte (place : Nat) : Reads.Accepts (literalField place opcode Cursor.byte) _ :=
    Cursor.accepts_byte.adapt _
  have hword (place : Nat) : Reads.Accepts (literalField place opcode Cursor.word) _ :=
    Cursor.accepts_word.adapt _
  have hcell : Reads.Accepts (EStateM.adaptExcept (cellError opcode) Constant.read) _ :=
    Constant.accepts_read.adapt _
  intro c e c' h
  have hhead {α : Type} {step : Reads ShortRead α} {c₁ c₂ : Cursor}
      (hfails : literalField c.position opcode step c₁ = .error e c₂) : e.InLiteral opcode c := by
    obtain ⟨short, rfl⟩ := throws_literalField _ _ _ _ _ _ hfails
    exact ⟨rfl, c.covers_position⟩
  change (literalField c.position opcode Cursor.byte >>= _) c = _ at h
  rcases Reads.bind_eq_error.mp h with hcol | ⟨lastCol, c₁, hcol, h⟩
  · exact hhead hcol
  rcases Reads.bind_eq_error.mp h with hrow | ⟨lastRow, c₂, hrow, h⟩
  · exact hhead hrow
  rcases Reads.bind_eq_error.mp h with hcells | ⟨cells, c₃, -, h⟩
  · obtain ⟨_, -, hc₁⟩ := (hbyte _).sound hcol
    obtain ⟨_, -, hc₂⟩ := (hword _).sound hrow
    have hin := (throws_cell opcode).times (fun _ _ _ _ hs he => by
      obtain ⟨_, -, hpasses⟩ := hcell.sound hs
      exact he.back hpasses) _ c₂ e c' hcells
    exact (hin.back hc₂).back hc₁
  · cases h

/-- An area list is always reported where it begins. -/
theorem throws_readAreaList (opcode : UInt8) :
    Reads.Throws (readAreaList opcode) fun c e => e.InLiteral opcode c := by
  intro c e c' h
  have hparts : Reads.Throws (do
      let count ← literalField c.position opcode Cursor.word
      Reads.times count.toNat (literalField c.position opcode readMemRange)) _ :=
    (throws_literalField c.position opcode _).bind_const fun count =>
      (throws_literalField c.position opcode _).times (fun _ _ _ _ _ he => he) count.toNat
  obtain ⟨short, rfl⟩ := hparts c e c' h
  exact ⟨rfl, c.covers_position⟩

/-- **A literal that fails belongs to the token that is named**, and to one that has a literal. -/
theorem readLiteral_eq_error {t : Token} {c c' : Cursor} {e : DecodeError}
    (h : readLiteral t c = .error e c') : t.hasTrailing = true ∧ e.InLiteral t.opcode c := by
  by_cases htrailing : t.hasTrailing = true
  · refine ⟨htrailing, ?_⟩
    cases t with
    | array cells cls =>
      rcases Reads.bind_eq_error.mp h with h | ⟨m, c₁, -, h⟩
      · exact throws_readArray _ c e c' h
      · cases h
    | mem m cls =>
      cases m with
      | area size areas =>
        rcases Reads.bind_eq_error.mp h with h | ⟨found, c₁, -, h⟩
        · exact throws_readAreaList _ c e c' h
        · cases h
      | _ => cases htrailing
    | _ => cases htrailing
  · rw [readLiteral_of_not_hasTrailing (Bool.eq_false_of_not_eq_true htrailing)] at h
    cases h

/-- **The second pass fails at the first literal that is not there.** -/
theorem readLiterals_eq_error {ts done : List Token} {c c' : Cursor} {e : DecodeError}
    (h : readLiterals done ts c = .error e c') :
    ∃ before t after payload c₁, (before ++ t :: after).map Token.bare = ts.map Token.bare ∧
      Layout.each Token.StoredLiteral before payload ∧ c.Passes payload c₁ ∧
      readLiteral t c₁ = .error e c' := by
  induction ts generalizing done c with
  | nil => cases h
  | cons t ts ih =>
    rcases Reads.bind_eq_error.mp h with hfails | ⟨t', c₁, hread, h⟩
    · exact ⟨[], t, ts, [], c, rfl, Layout.each_nil.mpr rfl, Cursor.passes_nil.mpr rfl, hfails⟩
    · obtain ⟨xs, ⟨hbare, hxs⟩, hpasses⟩ := (accepts_readLiteral t).sound hread
      obtain ⟨before, u, after, ys, c₂, hts, hys, hpasses', hfails⟩ := ih h
      refine ⟨t' :: before, u, after, xs ++ ys, c₂, ?_, ?_, ?_, hfails⟩
      · rw [List.cons_append, List.map_cons, List.map_cons, hbare, hts]
      · exact Layout.each_cons.mpr ⟨xs, ys, hxs, hys, rfl⟩
      · exact Cursor.passes_append.mpr ⟨c₁, hpasses, hpasses'⟩

/-- **The first literal behind a stream that is not there.** The stream holds `before`, the token
`t` and `after`. The literals of the first ones are all there, and then the literal of `t` should
follow and does not. The place lies behind those that are there. -/
structure LiteralStop (bytes : List UInt8) (declared : Nat) (before : Formula) (t : Token)
    (after : Formula) (place : Nat) : Prop where
  /-- The stream fits into the buffer. -/
  fits : declared ≤ bytes.length
  /-- The stream is made of tokens to its end. -/
  tokens : Layout.each Token.Stored (before ++ t :: after) (bytes.take declared)
  /-- The token has a literal. -/
  trailing : t.hasTrailing = true
  /-- The literals of the tokens before it are there, and behind them that of the token is not. -/
  literals : ∃ payload, Layout.each Token.StoredLiteral before payload ∧
    payload <+: bytes.drop declared ∧ declared + payload.length ≤ place ∧
    ∀ (t' : Token) (literal : List UInt8), t'.bare = t.bare → t'.StoredLiteral literal →
      ¬ payload ++ literal <+: bytes.drop declared
  /-- The place is in the buffer. -/
  within : place ≤ bytes.length

/-! ### What a failure says -/

/-- **What a failure says about the buffer.** A failure of the stream names the place where the
stream stops, and the opcode that stands there. A failure behind the stream names the opcode of the
first token whose literal is not there. -/
def DecodeError.PointsAt (bytes : List UInt8) (declared : Nat) : DecodeError → Prop
  | truncated place _ _ => StreamStop (bytes.take declared) place
  | token place opcode _ =>
    StreamStop (bytes.take declared) place ∧ (bytes.take declared)[place]? = some opcode
  | literalCutShort place opcode _ =>
    ∃ before t after, LiteralStop bytes declared before t after place ∧ t.opcode = opcode
  | invalidConstant opcode fault =>
    ∃ before t after, LiteralStop bytes declared before t after fault.offset ∧ t.opcode = opcode

namespace Formula

/-- The first pass fails, or the buffer ends where it has succeeded, or the second pass fails. -/
theorem decode_eq_error {bytes : List UInt8} {declared : Nat} {e : DecodeError}
    (h : decode bytes declared = .error e) :
    readStream declared bytes.length (Cursor.opened (bytes.take declared) 0) [] = .error e ∨
    ∃ tokens, Layout.each Token.BareStored tokens (bytes.take declared) ∧
      (bytes.length < declared ∧ e = .truncated bytes.length declared bytes.length ∨
        declared ≤ bytes.length ∧
          ∃ c, readLiterals [] tokens (Cursor.opened bytes declared) = .error e c) := by
  have hcounting : decodeCounting bytes declared = .error e := by
    rw [decode] at h
    cases hc : decodeCounting bytes declared with
    | error e' => rw [hc] at h; cases h; rfl
    | ok found => rw [hc] at h; cases h
  rw [decodeCounting] at hcounting
  rcases except_bind_eq_error.mp hcounting with hstream | ⟨tokens, hstream, hrest⟩
  · exact .inl hstream
  · obtain ⟨ts, hts, htokens⟩ := readStream_eq_ok_iff.mp hstream
    obtain rfl : tokens = ts := htokens
    refine .inr ⟨tokens, hts, ?_⟩
    by_cases hshort : bytes.length < declared
    · rw [if_pos hshort] at hrest
      cases hrest
      exact .inl ⟨hshort, rfl⟩
    · rw [if_neg hshort] at hrest
      refine .inr ⟨Nat.not_lt.mp hshort, ?_⟩
      split at hrest
      · cases hrest
      · next e' c hliterals =>
        cases hrest
        exact ⟨c, hliterals⟩

/-- A stream that is made of tokens to its end stops at its end. -/
theorem streamStop_length {f : Formula} {stream : List UInt8}
    (h : Layout.each Token.Stored f stream) : StreamStop stream stream.length where
  within := Nat.le_refl _
  tokens := ⟨f, by rwa [List.take_length]⟩
  stuck t piece hpiece hbegins := by
    rw [List.drop_length] at hbegins
    exact hpiece.ne_nil (List.prefix_nil.mp hbegins)

/-- A token that fails is reported as one that fails, or as a declared size that is too large. -/
theorem tokenError_cases (declared available place : Nat) (opcode : UInt8) (fault : TokenFault) :
    tokenError declared available place opcode fault = .truncated place declared available ∨
      tokenError declared available place opcode fault = .token place opcode fault := by
  unfold tokenError
  split
  · split
    · exact .inl rfl
    · exact .inr rfl
  · exact .inr rfl

/-- A stream whose reading fails stops where the faulty token begins. -/
theorem streamStop_of_readStream {declared available : Nat} {stream : List UInt8} {e : DecodeError}
    (h : readStream declared available (Cursor.opened stream 0) [] = .error e) :
    ∃ place opcode fields fault c', StreamStop stream place ∧
      stream.drop place = opcode :: fields ∧
      readToken opcode ⟨place + 1, fields⟩ = .error fault c' ∧
      e = tokenError declared available place opcode fault := by
  obtain ⟨ts, xs, opcode, fields, fault, c', hts, hrest, hfault, rfl⟩ := readStream_eq_error h
  have hposition : (Cursor.opened stream 0).position = 0 := Nat.zero_min _
  have hstream : stream = xs ++ opcode :: fields := hrest
  rw [hposition, Nat.zero_add] at hfault ⊢
  have hdrop : stream.drop xs.length = opcode :: fields := by rw [hstream, List.drop_left]
  refine ⟨xs.length, opcode, fields, fault, c', ?_, hdrop, hfault, rfl⟩
  refine ⟨?_, ⟨ts, ?_⟩, ?_⟩
  · rw [hstream, List.length_append]
    exact Nat.le_add_right _ _
  · rw [hstream, List.take_left, ← each_bareStored_map, map_bare_of_bareStored hts]
    exact hts
  · intro t piece hpiece
    rw [hdrop]
    exact not_prefix_of_readToken_eq_error hfault hpiece

/-- What the second pass fails at is the first literal that is not there. -/
theorem literalStop_of_readLiterals {bytes : List UInt8} {declared : Nat} {tokens : List Token}
    {e : DecodeError} {c' : Cursor} (hfits : declared ≤ bytes.length)
    (htokens : Layout.each Token.BareStored tokens (bytes.take declared))
    (h : readLiterals [] tokens (Cursor.opened bytes declared) = .error e c') :
    e.PointsAt bytes declared := by
  obtain ⟨before, t, after, payload, c, hbare, hpayload, ⟨hrest, hposition⟩, hfails⟩ :=
    readLiterals_eq_error h
  rw [opened_position hfits] at hposition
  change bytes.drop declared = payload ++ c.rest at hrest
  obtain ⟨htrailing, hin⟩ := readLiteral_eq_error hfails
  have hlength : declared + payload.length + c.rest.length = bytes.length := by
    have hdrop := congrArg List.length hrest
    rw [List.length_drop, List.length_append] at hdrop
    omega
  have hstop {place : Nat} (hplace : c.Covers place) :
      LiteralStop bytes declared before t after place := by
    obtain ⟨hleast, hmost⟩ := hplace
    refine ⟨hfits, ?_, htrailing, ⟨payload, hpayload, ⟨c.rest, hrest.symm⟩, by omega, ?_⟩, by omega⟩
    · rw [← each_bareStored_map, hbare, map_bare_of_bareStored htokens]
      exact htokens
    · rintro t' literal hbare' hliteral ⟨rest, heq⟩
      rw [hrest, List.append_assoc] at heq
      have hpasses : c.Passes literal ⟨c.position + literal.length, rest⟩ :=
        ⟨(List.append_cancel_left heq).symm, rfl⟩
      have hread := (accepts_readLiteral t).complete ⟨hbare', hliteral⟩ hpasses
      rw [hfails] at hread
      cases hread
  cases e with
  | literalCutShort place opcode short => exact ⟨before, t, after, hstop hin.2, hin.1.symm⟩
  | invalidConstant opcode fault => exact ⟨before, t, after, hstop hin.2, hin.1.symm⟩
  | truncated => exact hin.elim
  | token => exact hin.elim

/-- **A failure points at the right token.** Whatever a reading fails with, what it says about the
buffer is true. -/
theorem pointsAt_of_decode_eq_error {bytes : List UInt8} {declared : Nat} {e : DecodeError}
    (h : decode bytes declared = .error e) : e.PointsAt bytes declared := by
  rcases decode_eq_error h with hstream | ⟨tokens, htokens, ⟨hshort, rfl⟩ | ⟨hfits, c, hliterals⟩⟩
  · obtain ⟨place, opcode, fields, fault, c', hstop, hdrop, -, rfl⟩ :=
      streamStop_of_readStream hstream
    have hopcode : (bytes.take declared)[place]? = some opcode := by
      rw [← List.head?_drop, hdrop]
      rfl
    rcases tokenError_cases declared bytes.length place opcode fault with he | he
    · rw [he]
      exact hstop
    · rw [he]
      exact ⟨hstop, hopcode⟩
  · have hstored : Layout.each Token.Stored tokens bytes := by
      rw [← each_bareStored_map, map_bare_of_bareStored htokens]
      rwa [List.take_of_length_le hshort.le] at htokens
    change StreamStop (bytes.take declared) bytes.length
    rw [List.take_of_length_le hshort.le]
    exact streamStop_length hstored
  · exact literalStop_of_readLiterals hfits htokens hliterals

/-- The second of two array literals has a truth value that is neither 0 nor 1. The failure names
the cell, which begins behind a first literal that is complete, and the opcode of the second
token. -/
theorem pointsAt_second_array :
    let bytes : List UInt8 := [0x60, 0, 0, 0, 0, 0, 0, 0, 0x40, 0, 0, 0, 0, 0, 0, 0,
      0, 0, 0, 0x10, 0x2A, 0, 0, 0, 0, 0, 0, 0,
      0, 0, 0, 0x04, 2, 0, 0, 0, 0, 0, 0, 0]
    let e : DecodeError := .invalidConstant 0x40 (.invalidBoolean 31 2)
    decode bytes 16 = .error e ∧ e.PointsAt bytes 16 := by
  intro bytes e
  have hdecode : decode bytes 16 = .error e := by cbv
  exact ⟨hdecode, pointsAt_of_decode_eq_error hdecode⟩

end Formula

end CellFormula
