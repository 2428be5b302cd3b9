import CellFormula.Proofs.ClassIndependence
import CellFormula.Proofs.SharedFormula
import CellFormula.Proofs.TokenPlaces

/-!
# Formulas with other tokens in the same places

Memory tokens and jumps count bytes of tokens, and a record declares the size of its stream. So a
change to the tokens of a stored formula has to leave every size alone, or all of that has to be
computed again. Here are two changes that do: placing a shared formula for a cell, and giving the
tokens other operand classes. Both leave the literals behind the stream as they are, and of the
stream they alter as little as can be expected: placing only references with offsets, and classes
only opcodes, whose low five bits stay.

## Failures are compared too

A pass over the tokens stops at the first token that cannot be written. So it is not enough that two
tokens in the same place are written with equal sizes: where one of them cannot be written, the
other one has to fail with the same fault. `SameOutcome` says both, of tokens, of passes and of
formulas.

## Main definitions

* `SameOutcome` — two computations that end alike
* `DifferOnlyBy` — two buffers that agree except for some alterations
* `Formula.InToken` — an alteration of a token, at its place in the stream
* `Token.PlacedAs` — what placing does to a token

## Main results

* `Formula.encode_alike` — formulas whose tokens are written alike are written alike
* `Formula.placed_keeps_frame` — placing a shared formula alters nothing else
* `Formula.reclassed_written_alike` — a class stands in the opcode of its token and nowhere else
-/

namespace CellFormula

/-! ### The same outcome -/

/-- Two computations end alike: with results that belong together, or with the same error. -/
inductive SameOutcome {ε α β : Type} (related : α → β → Prop) : Except ε α → Except ε β → Prop
  | ok {a : α} {b : β} (h : related a b) : SameOutcome related (.ok a) (.ok b)
  | error (e : ε) : SameOutcome related (.error e) (.error e)

namespace SameOutcome

variable {ε α β γ δ : Type} {related related' : α → β → Prop} {x : Except ε α} {y : Except ε β}

theorem refl {related : α → α → Prop} (h : ∀ a, related a a) (x : Except ε α) :
    SameOutcome related x x := by
  cases x with
  | error e => exact .error e
  | ok a => exact .ok (h a)

theorem imp (h : SameOutcome related x y)
    (himp : ∀ a b, x = .ok a → y = .ok b → related a b → related' a b) :
    SameOutcome related' x y := by
  cases h with
  | error e => exact .error e
  | ok hab => exact .ok (himp _ _ rfl rfl hab)

theorem bind {next : α → Except ε γ} {next' : β → Except ε δ} {after : γ → δ → Prop}
    (h : SameOutcome related x y)
    (hnext : ∀ a b, related a b → SameOutcome after (next a) (next' b)) :
    SameOutcome after (x >>= next) (y >>= next') := by
  cases h with
  | error e => exact .error e
  | ok hab => exact hnext _ _ hab

theorem map {φ : α → γ} {ψ : β → δ} {after : γ → δ → Prop} (h : SameOutcome related x y)
    (hmap : ∀ a b, related a b → after (φ a) (ψ b)) :
    SameOutcome after (x.map φ) (y.map ψ) := by
  cases h with
  | error e => exact .error e
  | ok hab => exact .ok (hmap _ _ hab)

end SameOutcome

/-! ### Altered bytes -/

/-- The buffers have one length, and where two bytes differ they are altered like this. -/
structure DifferOnlyBy (altered : Nat → UInt8 → UInt8 → Prop) (xs ys : List UInt8) : Prop where
  length_eq : ys.length = xs.length
  altered_of_ne : ∀ place b b', xs[place]? = some b → ys[place]? = some b' → b ≠ b' →
    altered place b b'

namespace DifferOnlyBy

variable {altered altered' : Nat → UInt8 → UInt8 → Prop} {xs ys xs' ys' : List UInt8}

theorem refl (xs : List UInt8) : DifferOnlyBy altered xs xs where
  length_eq := rfl
  altered_of_ne _ _ _ hb hb' hne := absurd (Option.some.inj (hb.symm.trans hb')) hne

/-- Nothing is known of an alteration but that it is inside. -/
theorem of_length_eq (h : ys.length = xs.length) :
    DifferOnlyBy (fun place _ _ => place < xs.length) xs ys where
  length_eq := h
  altered_of_ne _ _ _ hb _ _ := (List.getElem?_eq_some_iff.mp hb).1

/-- Only the first byte is altered. -/
theorem cons (b b' : UInt8) (xs : List UInt8) :
    DifferOnlyBy (fun place c c' => place = 0 ∧ c = b ∧ c' = b') (b :: xs) (b' :: xs) where
  length_eq := rfl
  altered_of_ne place c c' hc hc' hne := by
    cases place with
    | zero => exact ⟨rfl, (Option.some.inj hc).symm, (Option.some.inj hc').symm⟩
    | succ place => exact absurd (Option.some.inj (hc.symm.trans hc')) hne

theorem mono (h : DifferOnlyBy altered xs ys)
    (himp : ∀ place b b', altered place b b' → altered' place b b') :
    DifferOnlyBy altered' xs ys :=
  ⟨h.length_eq, fun place b b' hb hb' hne => himp _ _ _ (h.altered_of_ne place b b' hb hb' hne)⟩

/-- Alterations of the second part are further along by the length of the first. -/
theorem append (h : DifferOnlyBy altered xs ys) (h' : DifferOnlyBy altered' xs' ys') :
    DifferOnlyBy (fun place b b' => altered place b b' ∨
      ∃ inner, place = xs.length + inner ∧ altered' inner b b') (xs ++ xs') (ys ++ ys') where
  length_eq := by rw [List.length_append, List.length_append, h.length_eq, h'.length_eq]
  altered_of_ne place b b' hb hb' hne := by
    rw [List.getElem?_append] at hb hb'
    rw [h.length_eq] at hb'
    by_cases hplace : place < xs.length
    · rw [if_pos hplace] at hb hb'
      exact .inl (h.altered_of_ne place b b' hb hb' hne)
    · rw [if_neg hplace] at hb hb'
      refine .inr ⟨place - xs.length, by omega, ?_⟩
      exact h'.altered_of_ne _ b b' hb hb' hne

end DifferOnlyBy

/-! ### Tokens that are written alike -/

namespace Formula

/-- The byte belongs to a token of `f`, so many bytes behind its first one, and for that token and
the one of `g` in its place it is altered like this. -/
def InToken (altered : Token → Token → Nat → UInt8 → UInt8 → Prop) (f g : Formula) (place : Nat)
    (b b' : UInt8) : Prop :=
  ∃ index t u inner, f[index]? = some t ∧ g[index]? = some u ∧
    place = f.tokenPlace index + inner ∧ altered t u inner b b'

variable {altered : Token → Token → Nat → UInt8 → UInt8 → Prop} {f g : Formula} {t u : Token}
  {place inner : Nat} {b b' : UInt8}

theorem InToken.head (h : altered t u inner b b') :
    InToken altered (t :: f) (u :: g) inner b b' :=
  ⟨0, t, u, inner, rfl, rfl, (Nat.zero_add inner).symm, h⟩

theorem tokenPlace_cons_succ (t : Token) (f : Formula) (index : Nat) :
    tokenPlace (t :: f) (index + 1) = t.streamSize + f.tokenPlace index := rfl

theorem InToken.tail (h : InToken altered f g place b b') :
    InToken altered (t :: f) (u :: g) (t.streamSize + place) b b' := by
  obtain ⟨index, t', u', inner, ht', hu', rfl, haltered⟩ := h
  refine ⟨index + 1, t', u', inner, ht', hu', ?_, haltered⟩
  rw [tokenPlace_cons_succ, Nat.add_assoc]

/-- **A pass over tokens that are written alike** ends alike, and an alteration of a token is found
where the token stands. -/
theorem writeEach_streamBytes_alike
    (h : List.Forall₂ (fun t u => SameOutcome (DifferOnlyBy (altered t u)) t.streamBytes
      u.streamBytes) f g) (index : Nat) (done done' : List (List UInt8)) :
    SameOutcome (fun bytes bytes' => ∃ rest rest', bytes = done.reverse.flatten ++ rest ∧
        bytes' = done'.reverse.flatten ++ rest' ∧ DifferOnlyBy (InToken altered f g) rest rest')
      (writeEach Token.streamBytes index done f) (writeEach Token.streamBytes index done' g) := by
  -- The pieces that are done differ already, so only what is written behind them is compared.
  induction h generalizing index done done' with
  | nil => exact .ok ⟨[], [], (List.append_nil _).symm, (List.append_nil _).symm, .refl []⟩
  | @cons t u f g htu _ ih =>
    rw [writeEach, writeEach]
    generalize ht : t.streamBytes = x at htu
    generalize u.streamBytes = y at htu
    cases htu with
    | error fault => exact .error _
    | @ok piece piece' hpiece =>
      refine (ih (index + 1) (piece :: done) (piece' :: done')).imp ?_
      rintro _ _ - - ⟨rest, rest', rfl, rfl, hrest⟩
      refine ⟨piece ++ rest, piece' ++ rest', by simp, by simp, (hpiece.append hrest).mono ?_⟩
      rintro place b b' (haltered | ⟨inner, rfl, haltered⟩)
      · exact .head haltered
      · rw [Token.length_of_streamBytes ht]
        exact haltered.tail

/-- A pass does not look at anything but what it writes. -/
theorem writeEach_congr {write : Token → Except WriteFault (List UInt8)}
    (h : List.Forall₂ (fun t u => write u = write t) f g) (index : Nat)
    (done : List (List UInt8)) : writeEach write index done g = writeEach write index done f := by
  induction h generalizing index done with
  | nil => rfl
  | @cons t u f g htu _ ih =>
    rw [writeEach, writeEach, htu]
    cases write t with
    | error fault => rfl
    | ok piece => exact ih (index + 1) (piece :: done)

/-- **Formulas whose tokens are written alike are written alike**, if their literals are the same:
both are written, or both fail with the same error. -/
theorem encode_alike
    (hstream : List.Forall₂ (fun t u => SameOutcome (DifferOnlyBy (altered t u)) t.streamBytes
      u.streamBytes) f g)
    (hliterals : List.Forall₂ (fun t u => u.literalBytes = t.literalBytes) f g) :
    SameOutcome (fun e e' => e'.trailing = e.trailing ∧
      DifferOnlyBy (InToken altered f g) e.stream e'.stream) (encode f) (encode g) := by
  have hpass : SameOutcome Eq (writeEach Token.literalBytes 0 [] f)
      (writeEach Token.literalBytes 0 [] g) := by
    rw [writeEach_congr hliterals]
    exact .refl (fun _ => rfl) _
  rw [encode, encode]
  refine (writeEach_streamBytes_alike hstream 0 [] []).bind ?_
  rintro stream stream' ⟨_, _, rfl, rfl, h⟩
  rw [h.length_eq]
  by_cases hlong : maxStreamSize < stream.length
  · rw [if_pos hlong, if_pos hlong]
    exact .error _
  · rw [if_neg hlong, if_neg hlong]
    refine hpass.bind ?_
    rintro trailing _ rfl
    exact .ok ⟨rfl, h⟩

end Formula

/-! ### Placed tokens -/

/-- The reference means other cells for every cell that its formula is read for. -/
def Reference.hasOffsets : Reference → Bool
  | sharedCell _ | sharedArea _ => true
  | _ => false

/-- The token is a reference with offsets. -/
def Token.hasOffsets : Token → Bool
  | reference r _ => r.hasOffsets
  | _ => false

/-- The address is the one that the offsets mean for the cell, it lies on the grid, and the flags
are left alone. -/
structure CellRef.PlacedAs (row col : Nat) (c c' : CellRef) : Prop where
  row_eq : (c'.row.toNat : Int) = c.placedRow row
  col_eq : (c'.col.toNat : Int) = c.placedCol col
  row_le : c'.row.toNat ≤ lastGridRow
  col_le : c'.col.toNat ≤ lastGridCol
  rowRelative_eq : c'.rowRelative = c.rowRelative
  colRelative_eq : c'.colRelative = c.colRelative

theorem CellRef.placedAs_of_place? {c : CellRef} {row col row' col' : Nat}
    (h : c.place? row col = some (row', col')) :
    CellRef.PlacedAs row col c { c with row := row'.toUInt16, col := col'.toUInt16 } := by
  obtain ⟨hrow, hcol, -⟩ := place?_eq_some h
  obtain ⟨hrowLe, hcolLe⟩ := place?_bounds h
  obtain ⟨hrowWord, hcolWord⟩ := place?_words h
  constructor
  case row_eq => rw [hrowWord, hrow]
  case col_eq => rw [hcolWord, hcol]
  case row_le => rwa [hrowWord]
  case col_le => rwa [hcolWord]
  case rowRelative_eq => rfl
  case colRelative_eq => rfl

namespace Reference

variable {r : Reference}

theorem placed_of_not_hasOffsets (h : r.hasOffsets = false) (row col : Nat) :
    r.placed row col = r := by
  cases r with
  | sharedCell c => cases h
  | sharedArea a => cases h
  | _ => rfl

/-- Once it is placed, a reference means the same cells for every cell. -/
theorem hasOffsets_placed (r : Reference) (row col : Nat) :
    (r.placed row col).hasOffsets = false := by
  cases r with
  | sharedCell c => rw [placed]; split <;> rfl
  | sharedArea a => rw [placed]; split <;> rfl
  | _ => rfl

/-- A deleted reference is as long as the one that it takes the place of. -/
theorem fieldSize_placed (r : Reference) (row col : Nat) :
    (r.placed row col).fieldSize = r.fieldSize := by
  cases r with
  | sharedCell c => rw [placed]; split <;> rfl
  | sharedArea a => rw [placed]; split <;> rfl
  | _ => rfl

/-- **Offsets become the addresses that they mean**, all of them, or one of them falls off the grid
and the reference is deleted. -/
theorem cells_placed (h : r.hasOffsets = true) (row col : Nat) :
    List.Forall₂ (CellRef.PlacedAs row col) r.cells (r.placed row col).cells ∨
      (r.placed row col).isGone = true ∧ ∃ c ∈ r.cells, c.place? row col = none := by
  cases r with
  | sharedCell c =>
    rw [placed]
    cases hc : c.place? row col with
    | none => exact .inr ⟨rfl, c, List.mem_singleton_self c, hc⟩
    | some address => exact .inl (.cons (CellRef.placedAs_of_place? hc) .nil)
  | sharedArea a =>
    rw [placed]
    cases hfirst : a.first.place? row col with
    | none => exact .inr ⟨rfl, a.first, List.mem_cons_self .., hfirst⟩
    | some first =>
      cases hlast : a.last.place? row col with
      | none => exact .inr ⟨rfl, a.last, List.mem_cons_of_mem _ (List.mem_singleton_self _), hlast⟩
      | some last =>
        exact .inl (.cons (CellRef.placedAs_of_place? hfirst)
          (.cons (CellRef.placedAs_of_place? hlast) .nil))
  | _ => cases h

end Reference

/-- What placing does to a token: it alters nothing but addresses. -/
structure Token.PlacedAs (row col : Nat) (t u : Token) : Prop where
  /-- A token without offsets stays as it is. -/
  same : t.hasOffsets = false → u = t
  /-- A reference with offsets becomes a reference without, of the same class. -/
  cells : ∀ r cls, t = reference r cls → r.hasOffsets = true → ∃ r', u = reference r' cls ∧
    (List.Forall₂ (CellRef.PlacedAs row col) r.cells r'.cells ∨
      r'.isGone = true ∧ ∃ c ∈ r.cells, c.place? row col = none)
  class?_eq : u.class? = t.class?
  streamSize_eq : u.streamSize = t.streamSize
  trailingSize_eq : u.trailingSize = t.trailingSize
  literalBytes_eq : u.literalBytes = t.literalBytes
  isVolatile_eq : u.isVolatile = t.isVolatile

namespace Token

variable {t : Token}

theorem exists_reference_of_hasOffsets (h : t.hasOffsets = true) :
    ∃ r cls, t = reference r cls ∧ r.hasOffsets = true := by
  cases t with
  | reference r cls => exact ⟨r, cls, rfl, h⟩
  | _ => cases h

theorem placed_of_not_hasOffsets (h : t.hasOffsets = false) (row col : Nat) :
    t.placed row col = t := by
  cases t with
  | reference r cls => rw [placed, Reference.placed_of_not_hasOffsets h]
  | _ => rfl

theorem hasOffsets_placed (t : Token) (row col : Nat) :
    (t.placed row col).hasOffsets = false := by
  cases t with
  | reference r cls => exact r.hasOffsets_placed row col
  | _ => rfl

/-- **Placing alters nothing of a token but addresses.** -/
theorem placedAs_placed (t : Token) (row col : Nat) : PlacedAs row col t (t.placed row col) := by
  cases hoffsets : t.hasOffsets with
  | false =>
    rw [placed_of_not_hasOffsets hoffsets]
    refine ⟨fun _ => rfl, ?_, rfl, rfl, rfl, rfl, rfl⟩
    rintro r cls rfl hr
    exact nomatch hoffsets.symm.trans hr
  | true =>
    obtain ⟨r, cls, rfl, hr⟩ := exists_reference_of_hasOffsets hoffsets
    have hnot : r.hasOffsets ≠ false := fun h => nomatch hr.symm.trans h
    refine ⟨fun h => absurd h hnot, ?_, rfl, ?_, rfl, rfl, rfl⟩
    · rintro r cls ⟨⟩ hr
      exact ⟨_, rfl, Reference.cells_placed hr row col⟩
    · exact congrArg (1 + ·) (r.fieldSize_placed row col)

/-- **A placed token is written alike**, and altered only if it had offsets. -/
theorem streamBytes_placed (t : Token) (row col : Nat) :
    SameOutcome (DifferOnlyBy fun inner _ _ => t.hasOffsets = true ∧ inner < t.streamSize)
      t.streamBytes (t.placed row col).streamBytes := by
  cases hoffsets : t.hasOffsets with
  | false =>
    rw [placed_of_not_hasOffsets hoffsets]
    exact .refl .refl _
  | true =>
    have hsize := (t.placedAs_placed row col).streamSize_eq
    obtain ⟨r, cls, rfl, hr⟩ := exists_reference_of_hasOffsets hoffsets
    obtain ⟨piece, hpiece⟩ : ∃ piece, (reference r cls).streamBytes = .ok piece := ⟨_, rfl⟩
    obtain ⟨piece', hpiece'⟩ :
        ∃ piece, ((reference r cls).placed row col).streamBytes = .ok piece := ⟨_, rfl⟩
    have hlength := length_of_streamBytes hpiece
    have hlength' : piece'.length = piece.length := by
      rw [length_of_streamBytes hpiece', hsize, hlength]
    rw [hpiece, hpiece']
    refine .ok ((DifferOnlyBy.of_length_eq hlength').mono fun inner _ _ hinner => ⟨rfl, ?_⟩)
    rwa [← hlength]

end Token

/-! ### Placed formulas -/

namespace Formula

variable (f : Formula) (row col : Nat)

theorem forall₂_placed {related : Token → Token → Prop}
    (h : ∀ t : Token, related t (t.placed row col)) :
    List.Forall₂ related f (f.placed row col) := by
  rw [placed, List.forall₂_map_right_iff, List.forall₂_same]
  exact fun t _ => h t

/-- What placing leaves of each token, it leaves of the formula. -/
theorem map_placed {α : Type} {part : Token → α}
    (h : ∀ t : Token, part (t.placed row col) = part t) :
    (f.placed row col).map part = f.map part := by
  rw [placed, List.map_map]
  exact List.map_congr_left fun t _ => h t

/-- **Placing a shared formula disturbs nothing else.** No offsets are left, so that placing the
outcome once more, for whatever cell, changes nothing. Tokens without offsets stay as they are, and
those with offsets keep their class, their size and what they have behind the stream. So every token
and every literal stands where it stood, and the formula is as volatile as it was. The placed
formula can be written exactly when the formula can; then the literals are the same, and the streams
differ only inside of what were references with offsets. All addresses that these become lie on the
grid. -/
theorem placed_keeps_frame (f : Formula) (row col : Nat) :
    let g := f.placed row col
    (∀ t ∈ g, t.hasOffsets = false) ∧
      (∀ row' col', g.placed row' col' = g) ∧
      List.Forall₂ (Token.PlacedAs row col) f g ∧
      (∀ index, g.tokenPlace index = f.tokenPlace index ∧
        g.literalPlace index = f.literalPlace index) ∧
      g.isVolatile = f.isVolatile ∧
      SameOutcome (fun e e' => e'.trailing = e.trailing ∧
        DifferOnlyBy
          (InToken (fun t _ inner _ _ => t.hasOffsets = true ∧ inner < t.streamSize) f g)
          e.stream e'.stream) (encode f) (encode g) := by
  intro g
  have hplaced (t : Token) : Token.PlacedAs row col t (t.placed row col) :=
    t.placedAs_placed row col
  have hoffsets : ∀ t ∈ g, t.hasOffsets = false :=
    List.forall_mem_map.mpr fun t _ => t.hasOffsets_placed row col
  refine ⟨hoffsets, fun row' col' => ?_, forall₂_placed f row col hplaced, fun index => ⟨?_, ?_⟩,
    ?_, ?_⟩
  · refine (List.map_congr_left fun t ht => ?_).trans (List.map_id' g)
    exact Token.placed_of_not_hasOffsets (hoffsets t ht) row' col'
  · have hsizes := map_placed f row col fun t => (hplaced t).streamSize_eq
    rw [tokenPlace, tokenPlace, List.map_take, List.map_take, hsizes]
  · have hsizes := map_placed f row col fun t => (hplaced t).trailingSize_eq
    rw [literalPlace, literalPlace, List.map_take, List.map_take, hsizes]
  · have hvolatile := map_placed f row col fun t => (hplaced t).isVolatile_eq
    simpa only [isVolatile, List.any_map, Function.id_comp] using congrArg (List.any · id) hvolatile
  · exact encode_alike (forall₂_placed f row col fun t => t.streamBytes_placed row col)
      (forall₂_placed f row col fun t => (hplaced t).literalBytes_eq)

/-- The cell above, and an area whose last corner is a column to the left: for a cell of the first
column and of the second row. -/
example :
    let f : Formula := [.reference (.sharedCell ⟨0xFFFF, 1, true, false⟩) .value,
      .reference (.sharedArea ⟨⟨0, 0, false, false⟩, ⟨0, 0xFF, true, true⟩⟩) .array]
    (encode f, encode (f.placed 1 0))
      = (.ok ⟨[0x4C, 0xFF, 0xFF, 1, 0x80, 0x6D, 0, 0, 0, 0, 0, 0, 0xFF, 0xC0], []⟩,
        .ok ⟨[0x44, 0, 0, 1, 0x80, 0x6B, 0, 0, 0, 0, 0, 0, 0, 0], []⟩) := by cbv

end Formula

/-! ### Tokens of another class -/

/-- A class is added above the low five bits. -/
theorem OperandClass.low_add_opcodeOffset (b : UInt8) (cls : OperandClass) :
    (b + cls.opcodeOffset) &&& 0x1F = b &&& 0x1F := by
  have hlow (n : UInt8) : (n &&& 0x1F).toNat = n.toNat % 2 ^ 5 := by
    rw [UInt8.toNat_and]
    exact Nat.and_two_pow_sub_one_eq_mod n.toNat 5
  apply UInt8.toNat_inj.mp
  rw [hlow, hlow, UInt8.toNat_add]
  cases cls <;> simp only [opcodeOffset, UInt8.reduceToNat] <;> omega

/-- What another class alters of a token: the opcode, and of that not the low five bits. -/
structure Token.OpcodeAltered (t u : Token) (inner : Nat) (b b' : UInt8) : Prop where
  isClassed_eq : t.isClassed = true
  inner_eq : inner = 0
  before_eq : b = t.opcode
  after_eq : b' = u.opcode
  low_eq : b' &&& 0x1F = b &&& 0x1F

namespace Token

variable (t : Token) (cls : OperandClass)

theorem withClass_of_unclassed {t : Token} (h : t.class? = none) (cls : OperandClass) :
    t.withClass cls = t := by
  cases t with
  | reference | name | mem | array | call => cases h
  | _ => rfl

theorem class?_withClass {t : Token} {old : OperandClass} (h : t.class? = some old)
    (cls : OperandClass) : (t.withClass cls).class? = some cls := by
  cases t with
  | reference | name | mem | array | call => rfl
  | _ => cases h

theorem baseOpcode_withClass : (t.withClass cls).baseOpcode = t.baseOpcode := by
  cases t with
  | name n old => cases n <;> rfl
  | _ => rfl

theorem fields_withClass : (t.withClass cls).fields = t.fields := by
  cases t with
  | name n old => cases n <;> rfl
  | _ => rfl

theorem literalBytes_withClass : (t.withClass cls).literalBytes = t.literalBytes := by
  cases t with
  | array cells old => cases cells <;> rfl
  | mem m old =>
    cases m with
    | area size areas => cases areas <;> rfl
    | _ => rfl
  | _ => rfl

theorem Storable.withClass {t : Token} (h : t.Storable) (cls : OperandClass) :
    (t.withClass cls).Storable := by
  cases t with
  | reference r old =>
    refine ⟨?_, nofun, nofun⟩
    rintro r cls ⟨⟩
    exact h.columns r old rfl
  | array cells old =>
    refine ⟨nofun, nofun, ?_⟩
    rintro m cls ⟨⟩
    exact h.cells m old rfl
  | name | mem | call => exact ⟨nofun, nofun, nofun⟩
  | _ => exact h

theorem low_opcode_withClass : (t.withClass cls).opcode &&& 0x1F = t.opcode &&& 0x1F := by
  cases h : t.class? with
  | none => rw [withClass_of_unclassed h]
  | some old =>
    rw [opcode_of_class? h, opcode_of_class? (class?_withClass h cls), baseOpcode_withClass,
      OperandClass.low_add_opcodeOffset, OperandClass.low_add_opcodeOffset]

/-- **A token of another class is written alike**, and altered only in its opcode. -/
theorem streamBytes_withClass :
    SameOutcome (DifferOnlyBy (OpcodeAltered t (t.withClass cls))) t.streamBytes
      (t.withClass cls).streamBytes := by
  cases h : t.class? with
  | none =>
    rw [withClass_of_unclassed h]
    exact .refl .refl _
  | some old =>
    have hfields : SameOutcome Eq t.fields (t.withClass cls).fields := by
      rw [fields_withClass]
      exact .refl (fun _ => rfl) _
    refine hfields.map ?_
    rintro fields _ rfl
    refine (DifferOnlyBy.cons _ _ fields).mono ?_
    rintro inner b b' ⟨rfl, rfl, rfl⟩
    exact ⟨Option.isSome_of_eq_some h, rfl, rfl, rfl, t.low_opcode_withClass cls⟩

end Token

/-! ### Formulas with other classes -/

namespace Formula

variable (f : Formula) (classes : Nat → OperandClass)

theorem storable_reclassed {f : Formula} (h : ∀ t ∈ f, t.Storable)
    (classes : Nat → OperandClass) : ∀ u ∈ f.reclassed classes, u.Storable := by
  intro u hu
  obtain ⟨index, hindex, rfl⟩ := List.mem_mapIdx.mp hu
  exact (h _ (List.getElem_mem hindex)).withClass _

/-- **A class stands in the opcode of its token and nowhere else.** Give the tokens any classes: the
formula can be written exactly when it could before, and fails with the same error otherwise. The
literals are the same, and the streams have one length and differ only in opcodes of tokens that
have a class, whose low five bits are the same. What is written for the new classes is read as the
formula with the new classes, if the tokens are such that their stored form has room for them. -/
theorem reclassed_written_alike (f : Formula) (classes : Nat → OperandClass) :
    let g := f.reclassed classes
    SameOutcome (fun e e' => e'.trailing = e.trailing ∧
      DifferOnlyBy (InToken Token.OpcodeAltered f g) e.stream e'.stream ∧
      ((∀ t ∈ f, t.Storable) → ∀ extra, decode (e'.bytes ++ extra) e'.declared = .ok g))
      (encode f) (encode g) := by
  intro g
  have halike := encode_alike (f.forall₂_reclassed classes Token.streamBytes_withClass)
    (f.forall₂_reclassed classes Token.literalBytes_withClass)
  refine halike.imp fun e e' _ he' ⟨htrailing, hstream⟩ => ⟨htrailing, hstream, fun hs extra => ?_⟩
  obtain ⟨pieces, payloads, hsplit⟩ := split_of_encode (storable_reclassed hs classes) he' extra
  exact hsplit.decode_eq

/-- A reference, a number and a sum: two of the five bytes that could be opcodes are altered. -/
theorem reclassed_written_alike_sum :
    let f : Formula := [.reference (.cell ⟨4, 1, true, false⟩) .reference, .literal (.int 0x2424),
      .call (.counted 4 2 false false) .value]
    let g := f.reclassed fun index => if index = 0 then .array else .reference
    ∃ e e', encode f = .ok e ∧ encode g = .ok e' ∧
      e.stream = [0x24, 4, 0, 1, 0x80, 0x1E, 0x24, 0x24, 0x42, 2, 4, 0] ∧
      e'.stream = [0x64, 4, 0, 1, 0x80, 0x1E, 0x24, 0x24, 0x22, 2, 4, 0] ∧
      decode e'.bytes e'.declared = .ok g := by
  intro f g
  have hs : ∀ t ∈ f, t.Storable := by
    refine List.forall_mem_cons.mpr ⟨⟨?_, nofun, nofun⟩, List.forall_mem_cons.mpr
      ⟨⟨nofun, nofun, nofun⟩, List.forall_mem_singleton.mpr ⟨nofun, nofun, nofun⟩⟩⟩
    rintro r cls ⟨⟩
    decide
  obtain ⟨e, he, hstream⟩ : ∃ e, encode f = .ok e ∧
      e.stream = [0x24, 4, 0, 1, 0x80, 0x1E, 0x24, 0x24, 0x42, 2, 4, 0] := ⟨_, by cbv, rfl⟩
  obtain ⟨e', he', hstream'⟩ : ∃ e', encode g = .ok e' ∧
      e'.stream = [0x64, 4, 0, 1, 0x80, 0x1E, 0x24, 0x24, 0x22, 2, 4, 0] := ⟨_, by cbv, rfl⟩
  have halike : SameOutcome _ (encode f) (encode g) := reclassed_written_alike f _
  rw [he, he'] at halike
  cases halike with
  | ok h =>
    obtain ⟨-, -, hread⟩ := h
    have hdecode := hread hs []
    rw [List.append_nil] at hdecode
    exact ⟨e, e', he, he', hstream, hstream', hdecode⟩

end Formula

end CellFormula
