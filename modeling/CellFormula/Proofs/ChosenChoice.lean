import CellFormula.Proofs.CellRules
import CellFormula.Proofs.ConditionalCells
import CellFormula.Proofs.Selection

/-!
# What CHOOSE chooses

`CHOOSE` takes its first argument for the number of one of the others. The number is cut to a whole
number, and if that is the number of a choice, the choice is picked. Everything else is an error,
the one of the selector if that is no number, and a value error if there is no such choice.

## Why the test of the range is enough

The test is made on doubles and the look-up on a word. Between the two stands the conversion of a
double to a word, which cuts what is too large to the largest word and what is negative to zero. So
the look-up could go wrong at both ends: a double that is not less than one is a word that is not
zero, and no list of arguments is as long as the largest word.

## Where it is not

A NaN is not less than one, and not above the number of choices either, and its word is zero. So the
place before that word overflows, and with checks nothing is chosen, in no cell if the NaN is in one
cell of an area of selectors. No other selector does this. `choose_of_notANumber` is such a choice
from two texts.

The number of choices is rounded when it becomes a double, so among more than `2 ^ 53` choices a
number that is a little too large may pass the test. It picks nothing, which counts as zero.

## Main definitions

* `Number.TruncatesTo` — the whole number that a double is cut to
* `Value.IsNaN` — values that are coerced to a NaN
* `Worksheet.Chosen` — what a selector chooses

## Main results

* `Worksheet.checked?_pickFor_eq_some_iff`, `Worksheet.overflows_pickFor_iff` — one selector
* `Worksheet.choose_in_range_or_fails` — selectors and areas of selectors
-/

namespace CellFormula

namespace Number

open Float.Model

/-- The double is cut to this whole number. Above zero that is rounding down. -/
def TruncatesTo (x : Float) (k : Nat) : Prop :=
  ∃ q, rational? x = some q ∧ (k : ℚ) ≤ q ∧ q < k + 1

theorem TruncatesTo.eq_floor {x : Float} {k : Nat} {q : ℚ} (h : TruncatesTo x k)
    (hq : rational? x = some q) : k = ⌊q⌋₊ := by
  obtain ⟨q', hq', hlow, hhigh⟩ := h
  obtain rfl : q' = q := Option.some.inj (hq'.symm.trans hq)
  exact ((Nat.floor_eq_iff ((Nat.cast_nonneg k).trans hlow)).mpr ⟨hlow, hhigh⟩).symm

theorem truncatesTo_floor {x : Float} {q : ℚ} (hq : rational? x = some q) (hpos : 0 ≤ q) :
    TruncatesTo x ⌊q⌋₊ :=
  ⟨q, hq, Nat.floor_le hpos, Nat.lt_floor_add_one q⟩

theorem TruncatesTo.unique {x : Float} {k k' : Nat} (h : TruncatesTo x k) (h' : TruncatesTo x k') :
    k = k' := by
  obtain ⟨q, hq, -⟩ := id h
  rw [h.eq_floor hq, h'.eq_floor hq]

/-- The whole number that a double is cut to is what is left of it. -/
theorem TruncatesTo.rational?_truncate {x : Float} {k : Nat} (h : TruncatesTo x k) :
    rational? (truncate x) = some (k : ℚ) := by
  obtain ⟨q, hq, hlow, -⟩ := id h
  obtain rfl := h.eq_floor hq
  obtain ⟨sign, hx, rfl⟩ | ⟨sign, mantissa, exponent, hpos, hx, rfl⟩ := cases_of_rational hq
  · rw [rational?_truncate_zero hx, Nat.floor_zero, Nat.cast_zero]
  · cases sign with
    | positive => exact Number.rational?_truncate hx
    | negative =>
      have hneg : signed .negative ((mantissa : ℚ) * 2 ^ exponent) < 0 :=
        neg_neg_of_pos (mul_pos (Nat.cast_pos.mpr hpos) (zpow_pos two_pos exponent))
      exact absurd hneg (not_lt_of_ge ((Nat.cast_nonneg _).trans hlow))

theorem TruncatesTo.isNaN_eq_false {x : Float} {k : Nat} (h : TruncatesTo x k) :
    x.isNaN = false := by
  obtain ⟨q, hq, -⟩ := h
  exact isNaN_of_rational hq

/-- What is cut to a whole number above zero is not less than one. -/
theorem TruncatesTo.not_truncate_lt_one {x : Float} {k : Nat} (h : TruncatesTo x (k + 1)) :
    ¬ truncate x < 1.0 := by
  rw [lt_iff_of_rational h.rational?_truncate rational?_one, not_lt]
  exact_mod_cast Nat.succ_pos k

theorem not_truncatesTo_of_rational_eq_none {x : Float} (h : rational? x = none) (k : Nat) :
    ¬ TruncatesTo x k := by
  rintro ⟨q, hq, -⟩
  cases h.symm.trans hq

end Number

open Number

/-- The value is coerced to a NaN. -/
def Value.IsNaN (v : Value) : Prop := ∃ x, v.toNumber = .ok x ∧ x.isNaN = true

namespace Worksheet

variable {choices : List Value} {x : Float}

/-- The number is past the choices, but not past the double that their number is rounded to. -/
def PassesRounded (choices : List Value) (x : Float) : Prop :=
  ∃ k, choices.length ≤ k ∧ TruncatesTo x (k + 1) ∧ ¬ choiceCount choices < truncate x

/-- What a number picks: the choice with that number, or else an error. -/
inductive Picked (choices : List Value) (x : Float) : Value → Prop
  | choice {k : Nat} {c : Value} (hk : TruncatesTo x (k + 1)) (hc : choices[k]? = some c) :
    Picked choices x (branchValue (some c))
  | outside (hnan : x.isNaN = false) (hout : ∀ k < choices.length, ¬ TruncatesTo x (k + 1))
    (hpast : ¬ PassesRounded choices x) : Picked choices x (.error .value)
  | rounded (hpast : PassesRounded choices x) : Picked choices x (.number 0.0)

/-- What a selector chooses: its own error, or what its number picks. -/
def Chosen (choices : List Value) (selector result : Value) : Prop :=
  match selector.toNumber with
  | .ok x => Picked choices x result
  | .error kind => result = .error kind

/-- **The number of choices is not rounded** if there are at most `2 ^ 53`. -/
theorem not_passesRounded (hcount : choices.length ≤ 2 ^ 53) (x : Float) :
    ¬ PassesRounded choices x := by
  rintro ⟨k, hk, htruncates, hpast⟩
  have hshort : min choices.length Matrix.countLimit = choices.length :=
    Nat.min_eq_left (hcount.trans (by decide))
  rw [choiceCount, hshort,
    lt_iff_of_rational (rational?_ofCount hcount) htruncates.rational?_truncate] at hpast
  exact hpast (by exact_mod_cast Nat.lt_succ_of_le hk)

/-- A number that is picked with is no NaN. -/
theorem Picked.isNaN_eq_false {v : Value} (h : Picked choices x v) : x.isNaN = false := by
  cases h with
  | choice hk => exact hk.isNaN_eq_false
  | outside hnan => exact hnan
  | rounded hpast =>
    obtain ⟨k, -, hk, -⟩ := hpast
    exact hk.isNaN_eq_false

/-- **A number picks one value.** -/
theorem Picked.unique {a b : Value} (ha : Picked choices x a) (hb : Picked choices x b) :
    a = b := by
  have hinside {k : Nat} {c : Value} (hk : TruncatesTo x (k + 1)) (hc : choices[k]? = some c)
      (hout : ∀ k < choices.length, ¬ TruncatesTo x (k + 1)) : False :=
    hout k (List.getElem?_eq_some_iff.mp hc).1 hk
  have hrounded {k : Nat} {c : Value} (hk : TruncatesTo x (k + 1)) (hc : choices[k]? = some c)
      (hpast : PassesRounded choices x) : False := by
    obtain ⟨k', hlength, hk', -⟩ := hpast
    obtain rfl := Nat.succ.inj (hk.unique hk')
    exact hlength.not_gt (List.getElem?_eq_some_iff.mp hc).1
  cases ha with
  | choice hk hc =>
    cases hb with
    | choice hk' hc' =>
      obtain rfl := Nat.succ.inj (hk.unique hk')
      rw [Option.some.inj (hc.symm.trans hc')]
    | outside _ hout => exact (hinside hk hc hout).elim
    | rounded hpast => exact (hrounded hk hc hpast).elim
  | outside _ hout hpast =>
    cases hb with
    | choice hk hc => exact (hinside hk hc hout).elim
    | outside => rfl
    | rounded hpast' => exact absurd hpast' hpast
  | rounded hpast =>
    cases hb with
    | choice hk hc => exact (hrounded hk hc hpast).elim
    | outside _ _ hpast' => exact absurd hpast hpast'
    | rounded => rfl

/-- **A selector chooses one value.** -/
theorem Chosen.unique {selector a b : Value} (ha : Chosen choices selector a)
    (hb : Chosen choices selector b) : a = b := by
  rw [Chosen] at ha hb
  cases hx : selector.toNumber with
  | error kind =>
    rw [hx] at ha hb
    exact ha.trans hb.symm
  | ok x =>
    rw [hx] at ha hb
    exact ha.unique hb

/-! ### Numbers that pick -/

/-- An infinite number is less than one, or above the number of choices and the largest word. -/
theorem cases_of_infinity (choices : List Value) {sign : Float.Model.UnpackedFloat.Sign}
    (hx : x.toModel.unpack = .infinity sign) :
    x < 1.0 ∨ choiceCount choices < x ∧ x.toUInt64.toNat = UInt64.size - 1 := by
  have hone : (1.0 : Float).toModel.unpack = .finite .positive (2 ^ 52) (-52) (by decide) := rfl
  have hword : x.toUInt64 = x.toModel.unpack.toUInt64 := rfl
  cases sign with
  | negative =>
    left
    rw [lt_iff_compare, hx, hone]
    rfl
  | positive =>
    right
    rw [lt_iff_compare, hword, hx]
    refine ⟨?_, rfl⟩
    have hfinite : (choiceCount choices).toModel.unpack.isFinite = true := isFinite_ofCount _
    cases hcount : (choiceCount choices).toModel.unpack with
    | zero sign' | finite sign' => rfl
    | infinity sign' | notANumber =>
      rw [hcount] at hfinite
      cases hfinite

/-- A number that is refused is a value error. -/
theorem pickChoice_of_refused (h : x < 1.0 ∨ choiceCount choices < x) :
    pickChoice choices x = Value.error .value := by
  rw [pickChoice_eq, if_pos h]

/-- A number that is refused, and numbers no choice, picks a value error. -/
theorem exists_picked_of_refused (hnan : x.isNaN = false)
    (hrefused : truncate x < 1.0 ∨ choiceCount choices < truncate x)
    (hout : ∀ k < choices.length, ¬ TruncatesTo x (k + 1)) :
    ∃ v : Value, pickChoice choices (truncate x) = v ∧ Picked choices x v := by
  refine ⟨_, pickChoice_of_refused hrefused, .outside hnan hout ?_⟩
  rintro ⟨k, -, hk, hpast⟩
  exact hrefused.elim hk.not_truncate_lt_one hpast

/-- A number past the choices that is not refused picks nothing. -/
theorem pickChoice_of_passesRounded (hcount : choices.length + 1 < UInt64.size)
    (h : PassesRounded choices x) : pickChoice choices (truncate x) = Value.number 0.0 := by
  obtain ⟨k, hk, htruncates, hpast⟩ := h
  have hword : (truncate x).toUInt64.toNat = min (k + 1) (UInt64.size - 1) := by
    rw [toNat_toUInt64_of_rational htruncates.rational?_truncate, Nat.floor_natCast]
  have hfits : ¬ (truncate x).toUInt64 < 1 := by
    rw [UInt64.lt_iff_toNat_lt, hword]
    exact Nat.not_lt_of_le (Nat.le_min.mpr ⟨Nat.succ_pos k, by decide⟩)
  have hplace : choices.length ≤ ((truncate x).toUInt64 - 1).toNat := by
    rw [UInt64.toNat_sub_of_le _ _ (UInt64.not_lt.mp hfits), hword]
    show choices.length ≤ min (k + 1) (UInt64.size - 1) - 1
    omega
  rw [pickChoice_eq, if_neg (not_or.mpr ⟨htruncates.not_truncate_lt_one, hpast⟩),
    List.getElem?_eq_none hplace, decide_eq_false hfits]
  rfl

/-- **A number picks** what it is cut to the number of, if it is no NaN. -/
theorem exists_picked (hcount : choices.length + 1 < UInt64.size) (hnan : x.isNaN = false) :
    ∃ v : Value, pickChoice choices (truncate x) = v ∧ Picked choices x v := by
  cases hq : rational? x with
  | some q =>
    obtain hlow | hhigh := lt_or_ge q 1
    · -- The number is less than one, before and after it is cut.
      obtain ⟨t, ht, hone, -⟩ := exists_rational?_truncate hq
      have hless : truncate x < 1.0 := (lt_iff_of_rational ht rational?_one).mpr (hone.mpr hlow)
      exact exists_picked_of_refused hnan (.inl hless) fun k _ hk => hk.not_truncate_lt_one hless
    · have hpos : 0 < ⌊q⌋₊ := Nat.floor_pos.mpr hhigh
      obtain ⟨k, hk⟩ := Nat.exists_eq_add_one_of_ne_zero hpos.ne'
      have htruncates : TruncatesTo x (k + 1) := hk ▸ truncatesTo_floor hq (one_pos.le.trans hhigh)
      obtain hinside | hbeyond := Nat.lt_or_ge k choices.length
      · have hlength : k < min choices.length Matrix.countLimit :=
          Nat.lt_min.mpr ⟨hinside, by rw [Matrix.countLimit]; omega⟩
        have hc := List.getElem?_eq_getElem hinside
        exact ⟨_, hc ▸ pickChoice_of_lt htruncates.rational?_truncate hlength,
          .choice htruncates hc⟩
      · by_cases hpast : choiceCount choices < truncate x
        · refine exists_picked_of_refused hnan (.inr hpast) fun k' hk' h => ?_
          obtain rfl := Nat.succ.inj (htruncates.unique h)
          exact hbeyond.not_gt hk'
        · have hrounded : PassesRounded choices x := ⟨k, hbeyond, htruncates, hpast⟩
          exact ⟨_, pickChoice_of_passesRounded hcount hrounded, .rounded hrounded⟩
  | none =>
    have hnone := not_truncatesTo_of_rational_eq_none hq
    obtain hnan' | ⟨-, sign, hinfinite⟩ := cases_of_rational_eq_none hq
    · exact absurd (hnan.symm.trans hnan') Bool.false_ne_true
    · refine exists_picked_of_refused hnan ?_ fun k _ => hnone (k + 1)
      rw [truncate_of_rational_eq_none hq]
      exact (cases_of_infinity choices hinfinite).imp_right (·.1)

/-- **The word of a selector is not zero** if its number is not less than one when it is cut. -/
theorem one_le_toUInt64_truncate {x : Float} (hnan : x.isNaN = false) (hone : ¬ truncate x < 1.0) :
    1 ≤ (truncate x).toUInt64.toNat := by
  cases hq : rational? x with
  | some q =>
    obtain ⟨t, ht, -⟩ := exists_rational?_truncate hq
    rw [lt_iff_of_rational ht rational?_one, not_lt] at hone
    have hfloor : 1 ≤ ⌊t⌋₊ := Nat.floor_pos.mpr hone
    rw [toNat_toUInt64_of_rational ht]
    exact Nat.le_min.mpr ⟨hfloor, by decide⟩
  | none =>
    rw [truncate_of_rational_eq_none hq] at hone ⊢
    obtain hnan' | ⟨-, sign, hinfinite⟩ := cases_of_rational_eq_none hq
    · exact absurd (hnan.symm.trans hnan') Bool.false_ne_true
    · rw [((cases_of_infinity [] hinfinite).resolve_left hone).2]
      decide

/-- **A NaN is not refused**, and its word is zero. -/
theorem accepts_notANumber (choices : List Value) (hnan : x.isNaN = true) :
    ¬ (x < 1.0 ∨ choiceCount choices < x) ∧ x.toUInt64 = 0 := by
  have hunpack : x.toModel.unpack = .notANumber := by
    have hmodel : x.toModel.unpack.isNaN = true := hnan
    cases hx : x.toModel.unpack with
    | notANumber => rfl
    | _ => rw [hx] at hmodel; cases hmodel
  have hcompare (y : Float) : y.toModel.unpack.compare .notANumber = none := by
    cases y.toModel.unpack <;> rfl
  constructor
  · rw [lt_iff_compare, lt_iff_compare, hunpack, hcompare]
    rintro (h | h) <;> cases h
  · show x.toModel.unpack.toUInt64 = 0
    rw [hunpack]
    rfl

/-- **The place of a number overflows** exactly for a NaN. -/
theorem overflows_pickChoice_iff :
    (pickChoice choices (truncate x)).overflows = true ↔ x.isNaN = true := by
  cases hnan : x.isNaN with
  | true =>
    have hnone : rational? x = none := by
      by_contra hsome
      obtain ⟨q, hq⟩ := Option.ne_none_iff_exists'.mp hsome
      exact Bool.false_ne_true ((isNaN_of_rational hq).symm.trans hnan)
    obtain ⟨haccepted, hword⟩ := accepts_notANumber choices hnan
    rw [truncate_of_rational_eq_none hnone, pickChoice_eq, if_neg haccepted, hword]
    exact iff_of_true rfl rfl
  | false =>
    refine iff_of_false (fun hoverflows => ?_) Bool.false_ne_true
    by_cases hrefused : truncate x < 1.0 ∨ choiceCount choices < truncate x
    · rw [pickChoice_of_refused hrefused] at hoverflows
      cases hoverflows
    · have hword := one_le_toUInt64_truncate hnan fun hless => hrefused (.inl hless)
      rw [pickChoice_eq, if_neg hrefused, decide_eq_true_eq, UInt64.lt_iff_toNat_lt] at hoverflows
      exact hword.not_gt hoverflows

/-! ### Selectors -/

/-- **The place of a selector overflows** exactly if it is coerced to a NaN. -/
theorem overflows_pickFor_iff {selector : Value} :
    (pickFor choices selector).overflows = true ↔ selector.IsNaN := by
  rw [Value.IsNaN, pickFor]
  cases selector.toNumber with
  | error kind =>
    refine iff_of_false Bool.false_ne_true ?_
    rintro ⟨x, hx, -⟩
    cases hx
  | ok x =>
    refine overflows_pickChoice_iff.trans ⟨fun hnan => ⟨x, rfl, hnan⟩, ?_⟩
    rintro ⟨y, hy, hnan⟩
    cases hy
    exact hnan

/-- **What a selector chooses** is what the function picks for it with checks. -/
theorem checked?_pickFor_eq_some_iff (hcount : choices.length + 1 < UInt64.size)
    {selector result : Value} :
    (pickFor choices selector).checked? = some result ↔ Chosen choices selector result := by
  rw [Chosen, pickFor]
  cases selector.toNumber with
  | error kind => exact Option.some_inj.trans eq_comm
  | ok x =>
    show (pickChoice choices (truncate x)).checked? = some result ↔ Picked choices x result
    cases hnan : x.isNaN with
    | false =>
      obtain ⟨v, hv, hpicked⟩ := exists_picked hcount hnan
      rw [hv]
      refine Option.some_inj.trans ⟨fun h => h ▸ hpicked, hpicked.unique⟩
    | true =>
      rw [Overflowing.checked?_eq_none_iff.mpr (overflows_pickChoice_iff.mpr hnan)]
      refine iff_of_false (Option.some_ne_none result).symm fun hpicked => ?_
      exact Bool.false_ne_true (hpicked.isNaN_eq_false.symm.trans hnan)

/-! ### Areas of selectors -/

/-- A function of one area, cell by cell, gives an area in the same place and of the same shape. -/
theorem exists_liftFirst_area {block : Area} (hblock : block.cells.WellFormed) (f : Value → Value) :
    ∃ cells, liftFirst f [.area block] = .area ⟨block.firstRow, block.firstCol, cells⟩ ∧
      cells.rows = block.rows ∧ cells.cols = block.cols ∧
      ∀ row col cell, block.get? row col = some cell → cells.get? row col = some (f cell) := by
  obtain ⟨hrows, hcols, -⟩ := hblock
  have hareas : areasOf [.area block] = [block] := rfl
  have hgenerate (g : Nat → Nat → Value) :
      Matrix.generate block.rows block.cols g = .ok (Matrix.tabulate block.rows block.cols g) :=
    if_neg (by rintro (h | h); exacts [hrows.ne' h, hcols.ne' h])
  rw [liftFirst, broadcast, hareas]
  simp only [List.foldl_nil, hgenerate]
  refine ⟨_, rfl, rfl, rfl, fun row col cell hcell => ?_⟩
  obtain ⟨hrow, hcol⟩ := Matrix.lt_of_get?_eq_some hcell
  have helement : elementsAt? [.area block] row col = some [cell] :=
    elementsAt?_eq_some_iff.mpr (.cons ((elementAt?_area hrow hcol).trans hcell) .nil)
  refine (Matrix.get?_tabulate _ hrow hcol).trans ?_
  rw [broadcastCell, helement]

theorem choose_of_not_isArea {selector : Value} (h : ¬ selector.IsArea) (choices : List Value) :
    choose (selector :: choices) = pickFor choices selector := by
  cases selector with
  | area block => exact absurd trivial h
  | _ => rfl

/-- One cell of an area of selectors is enough for the whole to overflow. -/
theorem overflows_choose_area_iff {block : Area} (hblock : block.cells.WellFormed) :
    (choose (.area block :: choices)).overflows = true ↔
      ∃ row col selector, block.get? row col = some selector ∧ selector.IsNaN := by
  have hany : (choose (.area block :: choices)).overflows
      = block.values.any fun selector => (pickFor choices selector).overflows := rfl
  simp only [hany, List.any_eq_true, overflows_pickFor_iff]
  constructor
  · rintro ⟨selector, hmem, hnan⟩
    obtain ⟨row, col, hget⟩ := Matrix.exists_get?_of_mem hblock hmem
    exact ⟨row, col, selector, hget, hnan⟩
  · rintro ⟨row, col, selector, hget, hnan⟩
    exact ⟨selector, Matrix.mem_of_get? hget, hnan⟩

/-- **CHOOSE chooses in range or fails.** -/
theorem choose_in_range_or_fails (hcount : choices.length + 1 < UInt64.size) :
    (∀ selector : Value, ¬ selector.IsArea →
        (∀ result, (choose (selector :: choices)).checked? = some result ↔
          Chosen choices selector result) ∧
        ((choose (selector :: choices)).checked? = none ↔ selector.IsNaN)) ∧
      (∀ block : Area, block.cells.WellFormed →
        ((choose (.area block :: choices)).checked? = none ↔
          ∃ row col selector, block.get? row col = some selector ∧ selector.IsNaN) ∧
        ((∀ row col selector, block.get? row col = some selector → ¬ selector.IsNaN) → ∃ cells,
          (choose (.area block :: choices)).checked?
              = some (.area ⟨block.firstRow, block.firstCol, cells⟩) ∧
            cells.rows = block.rows ∧ cells.cols = block.cols ∧
            ∀ row col selector, block.get? row col = some selector → ∀ shown,
              cells.get? row col = some shown ↔ Chosen choices selector shown)) ∧
      (∀ x : Float, x.isNaN = false → ¬ truncate x < 1.0 → 1 ≤ (truncate x).toUInt64.toNat) ∧
      (choices.length ≤ 2 ^ 53 → ∀ x, ¬ PassesRounded choices x) := by
  refine ⟨fun selector hselector => ?_, fun block hblock => ?_,
    fun x => one_le_toUInt64_truncate, not_passesRounded⟩
  · rw [choose_of_not_isArea hselector]
    exact ⟨fun result => checked?_pickFor_eq_some_iff hcount,
      Overflowing.checked?_eq_none_iff.trans overflows_pickFor_iff⟩
  · have harea : (choose (.area block :: choices)).checked? = none ↔
        ∃ row col selector, block.get? row col = some selector ∧ selector.IsNaN :=
      Overflowing.checked?_eq_none_iff.trans (overflows_choose_area_iff hblock)
    refine ⟨harea, fun hnan => ?_⟩
    obtain ⟨cells, hcells, hrows, hcols, hget⟩ :=
      exists_liftFirst_area hblock fun selector => (pickFor choices selector).wrapped
    have hfits : (choose (.area block :: choices)).overflows = false := by
      rw [← Bool.not_eq_true, overflows_choose_area_iff hblock]
      rintro ⟨row, col, selector, hselector, hselectorNaN⟩
      exact hnan row col selector hselector hselectorNaN
    refine ⟨cells, Overflowing.checked?_eq_some_iff.mpr ⟨hfits, hcells⟩, hrows, hcols,
      fun row col selector hselector shown => ?_⟩
    have hpicks : (pickFor choices selector).overflows = false := by
      rw [← Bool.not_eq_true, overflows_pickFor_iff]
      exact hnan row col selector hselector
    rw [hget row col selector hselector, Option.some_inj, ← checked?_pickFor_eq_some_iff hcount,
      Overflowing.checked?_eq_some_iff, and_iff_right hpicks]

/-- Two and a half is the number of a choice that was left out, and an area has a selector that is
none. -/
theorem choose_in_range_or_fails_omitted :
    let choices : List Value := [.text "a", .missing, .text "c"]
    let block : Area := ⟨4, 2, ⟨1, 2, #[.number 2.5, .text "b"]⟩⟩
    choices.length + 1 < UInt64.size ∧ ¬ (Value.number 2.5).IsArea ∧
      (choose (.number 2.5 :: choices)).checked? = some (.number 0.0) ∧
      block.cells.WellFormed ∧
      (∀ row col selector, block.get? row col = some selector → ¬ selector.IsNaN) ∧
      (∃ cells, (choose (.area block :: choices)).checked? = some (.area ⟨4, 2, cells⟩) ∧
        cells.get? 0 0 = some (.number 0.0) ∧ cells.get? 0 1 = some (.error .value)) ∧
      (2.5 : Float).isNaN = false ∧ ¬ truncate 2.5 < 1.0 ∧ 1 ≤ (truncate 2.5).toUInt64.toNat ∧
      choices.length ≤ 2 ^ 53 ∧ ¬ PassesRounded choices 4.0 := by
  intro choices block
  have hcount : choices.length + 1 < UInt64.size := by decide
  have hselector : ¬ (Value.number 2.5).IsArea := id
  have hblock : block.cells.WellFormed := by decide
  obtain ⟨hscalar, hareas, hword, hrounded⟩ := choose_in_range_or_fails hcount
  have hrational : rational? 2.5 = some (5 / 2) := by
    have hunpack : (2.5 : Float).toModel.unpack
        = .finite .positive (5 * 2 ^ 50) (-51) (by decide) := rfl
    rw [rational?, hunpack, rationalOf?, signed]
    norm_num
  have hnumber : Chosen choices (.number 2.5) (.number 0.0) :=
    Picked.choice (k := 1) (c := .missing) ⟨5 / 2, hrational, by norm_num, by norm_num⟩ rfl
  have htext : Chosen choices (.text "b") (.error .value) := rfl
  have hnan : (2.5 : Float).isNaN = false := by decide
  have hnone : ∀ row col selector, block.get? row col = some selector → ¬ selector.IsNaN := by
    intro row col selector hget
    have hmem : selector ∈ [Value.number 2.5, .text "b"] := Matrix.mem_of_get? hget
    rw [List.mem_pair] at hmem
    obtain rfl | rfl := hmem
    · rintro ⟨x, hx, hnan'⟩
      cases hx
      exact Bool.false_ne_true (hnan.symm.trans hnan')
    · rintro ⟨x, hx, -⟩
      cases hx
  obtain ⟨cells, hcells, -, -, hget⟩ := (hareas block hblock).2 hnone
  have hone : ¬ truncate 2.5 < 1.0 := by decide
  have hfew : choices.length ≤ 2 ^ 53 := by decide
  exact ⟨hcount, hselector, ((hscalar _ hselector).1 _).mpr hnumber, hblock, hnone,
    ⟨cells, hcells, (hget 0 0 _ rfl _).mpr hnumber, (hget 0 1 _ rfl _).mpr htext⟩, hnan, hone,
    hword 2.5 hnan hone, hfew, hrounded hfew 4.0⟩

/-- **A selector that is no number** is refused by no test, although its word is zero and no choice
has that number. With checks nothing is chosen, and no value error either. -/
theorem choose_of_notANumber :
    let x : Float := 0.0 / 0.0
    let choices : List Value := [.text "a", .text "b"]
    x.isNaN = true ∧ ¬ truncate x < 1.0 ∧ ¬ choiceCount choices < truncate x ∧
      (truncate x).toUInt64 = 0 ∧ (choose (.number x :: choices)).checked? = none ∧
      (choose (.number x :: choices)).checked? ≠ some (.error .value) := by
  intro x choices
  have hnone : (choose (.number x :: choices)).checked? = none := by
    rw [choose_of_not_isArea id]
    exact Overflowing.checked?_eq_none_iff.mpr (overflows_pickChoice_iff.mpr (by decide))
  refine ⟨by decide, by decide, by decide, by decide, hnone, ?_⟩
  rw [hnone]
  exact (Option.some_ne_none _).symm

end Worksheet

end CellFormula
