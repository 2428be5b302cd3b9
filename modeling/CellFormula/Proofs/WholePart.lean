import CellFormula.Proofs.OverflowBound
import CellFormula.Proofs.ValueOrder

/-!
# Whole parts of doubles

A finite double stands for a rational, and three things that are done with doubles are things done
with the rationals: a comparison of two, the conversion to a 64-bit word, and cutting off what is
behind the point. The word is the whole part as far as it fits, and zero for negative numbers.

## Why cutting is exact

A double is cut by way of a word: its magnitude is converted there and back. The digits that are
left are no more than a double holds, so nothing is rounded on the way back. A magnitude that does
not fit into a word is not converted at all, and it is whole already, since its exponent is not
negative.

## Main definitions

* `rational?` — the rational that a double stands for

## Main results

* `compare_eq_lt_iff`, `lt_iff_of_rational` — comparisons
* `toNat_toUInt64_of_rational` — words
* `rational?_truncate`, `exists_rational?_truncate` — cutting
* `cases_of_rational_eq_none` — doubles that stand for no rational
-/

namespace CellFormula.Number

open Float.Model

/-- A magnitude with a sign. -/
def signed : UnpackedFloat.Sign → ℚ → ℚ
  | .positive, q => q
  | .negative, q => -q

/-- The rational that a number stands for, if it is finite. -/
def rationalOf? : UnpackedFloat → Option ℚ
  | .zero _ => some 0
  | .finite sign mantissa exponent _ => some (signed sign (mantissa * 2 ^ exponent))
  | .infinity _ | .notANumber => none

/-- The rational that a double stands for, if it is finite. -/
def rational? (x : Float) : Option ℚ := rationalOf? x.toModel.unpack

/-- A double that stands for a rational is a zero or a finite number. -/
theorem cases_of_rational {x : Float} {q : ℚ} (h : rational? x = some q) :
    (∃ sign, x.toModel.unpack = .zero sign ∧ q = 0) ∨
      ∃ sign mantissa exponent hpos, x.toModel.unpack = .finite sign mantissa exponent hpos ∧
        q = signed sign (mantissa * 2 ^ exponent) := by
  rw [rational?] at h
  cases hx : x.toModel.unpack with
  | infinity | notANumber =>
    rw [hx] at h
    cases h
  | zero sign =>
    rw [hx] at h
    cases h
    exact .inl ⟨sign, rfl, rfl⟩
  | finite sign mantissa exponent hpos =>
    rw [hx] at h
    cases h
    exact .inr ⟨sign, mantissa, exponent, hpos, rfl, rfl⟩

/-- A double that stands for no rational is a NaN or infinite. -/
theorem cases_of_rational_eq_none {x : Float} (h : rational? x = none) :
    x.isNaN = true ∨ x.isNaN = false ∧ ∃ sign, x.toModel.unpack = .infinity sign := by
  have hnan : x.isNaN = x.toModel.unpack.isNaN := rfl
  rw [rational?] at h
  cases hx : x.toModel.unpack with
  | zero | finite =>
    rw [hx] at h
    cases h
  | notANumber =>
    rw [hnan, hx]
    exact .inl rfl
  | infinity sign =>
    rw [hnan, hx]
    exact .inr ⟨rfl, sign, rfl⟩

theorem isNaN_of_rational {x : Float} {q : ℚ} (h : rational? x = some q) : x.isNaN = false := by
  show x.toModel.unpack.isNaN = false
  obtain ⟨sign, hx, -⟩ | ⟨sign, mantissa, exponent, hpos, hx, -⟩ := cases_of_rational h
  · rw [hx]
    rfl
  · rw [hx]
    rfl

/-! ### Comparisons -/

section

variable {m m' : Nat} {e e' : Int}

/-- The larger exponent decides: the mantissa that goes with it has all 53 digits. -/
theorem IsDouble.lt_of_exponent_lt (h : IsDouble m e) (h' : IsDouble m' e') (hlt : e < e') :
    (m : ℚ) * 2 ^ e < m' * 2 ^ e' := by
  have hleast := h.least
  have hfull : 2 ^ 52 ≤ m' := h'.full.resolve_right (by omega)
  calc (m : ℚ) * 2 ^ e < 2 ^ 53 * 2 ^ e := by
        refine mul_lt_mul_of_pos_right ?_ (zpow_pos two_pos e)
        exact_mod_cast h.lt
    _ = 2 ^ 52 * 2 ^ (1 + e) := by
        rw [zpow_one_add₀ two_ne_zero, pow_succ, mul_assoc]
    _ ≤ m' * 2 ^ e' := by
        refine mul_le_mul ?_ (zpow_le_zpow_right₀ one_le_two (by omega)) (zpow_nonneg zero_le_two _)
          (Nat.cast_nonneg _)
        exact_mod_cast hfull

/-- **Doubles are ordered by their exponents first** and by their mantissas then. -/
theorem IsDouble.lt_iff (h : IsDouble m e) (h' : IsDouble m' e') :
    (compare e e').then (compare m m') = .lt ↔ (m : ℚ) * 2 ^ e < m' * 2 ^ e' := by
  rw [Ordering.then_eq_lt, Int.compare_eq_lt, Int.compare_eq_eq, Nat.compare_eq_lt]
  rcases lt_trichotomy e e' with hlt | rfl | hgt
  · exact iff_of_true (.inl hlt) (h.lt_of_exponent_lt h' hlt)
  · rw [mul_lt_mul_iff_left₀ (zpow_pos two_pos e), Nat.cast_lt]
    omega
  · refine iff_of_false (by omega) (h'.lt_of_exponent_lt h hgt).not_gt

end

/-- **Doubles are compared as the rationals are** that they stand for. -/
theorem compare_eq_lt_iff {u v : UnpackedFloat} (hu : HasShape u) (hv : HasShape v) {a b : ℚ}
    (ha : rationalOf? u = some a) (hb : rationalOf? v = some b) :
    u.compare v = some .lt ↔ a < b := by
  have hpos {m : Nat} (hm : 0 < m) (e : Int) : (0 : ℚ) < m * 2 ^ e :=
    mul_pos (Nat.cast_pos.mpr hm) (zpow_pos two_pos e)
  cases u with
  | infinity | notANumber => cases ha
  | zero s =>
    cases ha
    cases v with
    | infinity | notANumber => cases hb
    | zero s' =>
      cases hb
      exact iff_of_false nofun (lt_irrefl 0)
    | finite s' m' e' h' =>
      cases hb
      cases s' with
      | positive => exact iff_of_true rfl (hpos h' e')
      | negative => exact iff_of_false nofun (neg_neg_of_pos (hpos h' e')).not_gt
  | finite s m e h =>
    cases ha
    cases v with
    | infinity | notANumber => cases hb
    | zero s' =>
      cases hb
      cases s with
      | positive => exact iff_of_false nofun (hpos h e).not_gt
      | negative => exact iff_of_true rfl (neg_neg_of_pos (hpos h e))
    | finite s' m' e' h' =>
      cases hb
      cases s <;> cases s'
      case positive.positive =>
        exact Option.some_inj.trans (IsDouble.lt_iff hu hv)
      case positive.negative =>
        exact iff_of_false nofun (neg_neg_of_pos (hpos h' e') |>.trans (hpos h e)).not_gt
      case negative.positive =>
        exact iff_of_true rfl ((neg_neg_of_pos (hpos h e)).trans (hpos h' e'))
      case negative.negative =>
        -- Of two negative numbers the one with the larger magnitude is less.
        rw [show signed .negative _ < signed .negative _ ↔ _ from neg_lt_neg_iff,
          ← IsDouble.lt_iff hv hu]
        show some ((compare e e').then (compare m m')).swap = some .lt ↔ _
        rw [Option.some_inj, Ordering.swap_then, ← Std.OrientedOrd.eq_swap,
          ← Std.OrientedOrd.eq_swap]

theorem lt_iff_of_rational {x y : Float} {a b : ℚ} (ha : rational? x = some a)
    (hb : rational? y = some b) : x < y ↔ a < b := by
  rw [lt_iff_compare]
  exact compare_eq_lt_iff (hasShape_unpack x.toModel) (hasShape_unpack y.toModel) ha hb

theorem ne_notANumber_of_rational {x : Float} {q : ℚ} (h : rational? x = some q) :
    x.toModel.unpack ≠ .notANumber := by
  intro hx
  rw [rational?, hx] at h
  cases h

theorem le_iff_compare (x y : Float) :
    x ≤ y ↔ (x.toModel.unpack.compare y.toModel.unpack).any (·.isLE) = true := by
  show decide (x.toModel.unpack.le y.toModel.unpack = true) = true ↔ _
  rw [decide_eq_true_eq, UnpackedFloat.le]

theorem le_iff_of_rational {x y : Float} {a b : ℚ} (ha : rational? x = some a)
    (hb : rational? y = some b) : x ≤ y ↔ a ≤ b := by
  rw [← not_lt, ← lt_iff_of_rational hb ha, lt_iff_compare, le_iff_compare,
    compare_swap x.toModel.unpack y.toModel.unpack,
    compare_eq_compare_place (ne_notANumber_of_rational ha) (ne_notANumber_of_rational hb)]
  cases compare (place x.toModel.unpack) (place y.toModel.unpack) <;> decide

/-! ### Whole parts as words -/

theorem floor_mul_two_pow (m n : Nat) : ⌊(m : ℚ) * 2 ^ (n : Int)⌋₊ = m * 2 ^ n := by
  rw [zpow_natCast]
  exact_mod_cast Nat.floor_natCast (m * 2 ^ n) (R := ℚ)

theorem floor_div_two_pow (m n : Nat) : ⌊(m : ℚ) * 2 ^ (-(n : Int))⌋₊ = m / 2 ^ n := by
  rw [zpow_neg, zpow_natCast, ← div_eq_mul_inv]
  exact_mod_cast Nat.floor_div_eq_div m (2 ^ n) (K := ℚ)

/-- What is too large for a word becomes the largest. -/
theorem toNat_ofNatClamp (n : Nat) :
    (UInt64.ofNatClamp n).toNat = min n (UInt64.size - 1) := by
  rw [UInt64.ofNatClamp]
  split <;>
    · rw [UInt64.toNat_ofNatLT]
      omega

/-- Towards zero a number is rounded to the whole part of its magnitude. -/
theorem roundToInt_eq (sign : UnpackedFloat.Sign) (mantissa : Nat) (exponent : Int) :
    UnpackedFloat.roundToInt sign mantissa exponent
      = sign.apply ⌊(mantissa : ℚ) * 2 ^ exponent⌋₊ := by
  have hround : UnpackedFloat.roundToInt sign mantissa exponent = sign.apply
      ((mantissa <<< (exponent - 0).toNat / 2 ^ (0 - (exponent - (exponent - 0).toNat)).toNat : Nat)
        : Int) := congrArg (fun n : Nat => sign.apply n) (mantissa_shiftRight _ _)
  rw [hround, Nat.shiftLeft_eq, Int.sub_zero]
  obtain ⟨count, rfl | rfl⟩ := exponent.eq_nat_or_neg
  · rw [Int.toNat_natCast, Int.sub_self, Int.sub_zero, Int.toNat_zero, Nat.pow_zero, Nat.div_one,
      floor_mul_two_pow]
  · have hnone : (-(count : Int)).toNat = 0 := by omega
    have hdropped : (0 - (-(count : Int) - (0 : Nat))).toNat = count := by omega
    rw [hnone, hdropped, Nat.pow_zero, Nat.mul_one, floor_div_two_pow]

/-- **A double as a word** is its whole part, cut to the range of words. -/
theorem toNat_toUInt64_of_rational {x : Float} {q : ℚ} (h : rational? x = some q) :
    x.toUInt64.toNat = min ⌊q⌋₊ (UInt64.size - 1) := by
  have hword : x.toUInt64 = UInt64.ofNatClamp
      (UnpackedFloat.toInt 0 (UInt64.size - 1) x.toModel.unpack).toNat := rfl
  rw [hword, toNat_ofNatClamp]
  congr 1
  obtain ⟨sign, hx, rfl⟩ | ⟨sign, mantissa, exponent, hpos, hx, rfl⟩ := cases_of_rational h
  · rw [hx, Nat.floor_zero]
    rfl
  · rw [hx, UnpackedFloat.toInt, roundToInt_eq]
    cases sign with
    | positive => exact Int.toNat_natCast _
    | negative =>
      have hvalue : (0 : ℚ) ≤ mantissa * 2 ^ exponent := by positivity
      have hfloor : ⌊-((mantissa : ℚ) * 2 ^ exponent)⌋₊ = 0 := Nat.floor_of_nonpos (by linarith)
      rw [signed, hfloor]
      show (-(_ : Int)).toNat = 0
      omega

/-! ### Signs -/

theorem sign_of_unpack {bits : BitVec Format.binary64.numBits} {sign : UnpackedFloat.Sign}
    {mantissa : Nat} {exponent : Int} {hpos : 0 < mantissa}
    (h : UnpackedFloat.unpack Format.binary64 bits = .finite sign mantissa exponent hpos) :
    UnpackedFloat.Sign.ofBitVec (UnpackedFloat.unpackSign bits) = sign := by
  rw [UnpackedFloat.unpack] at h
  dsimp only at h
  split at h
  · split at h <;> cases h
  · split at h
    · split at h
      · cases h
      · exact (UnpackedFloat.finite.inj h).1
    · exact (UnpackedFloat.finite.inj h).1

theorem toNat_eq_one_iff (b : BitVec 1) :
    b.toNat = 1 ↔ UnpackedFloat.Sign.ofBitVec b = .negative := by
  rw [UnpackedFloat.Sign.ofBitVec]
  split
  · next hzero =>
    rw [hzero]
    exact iff_of_false nofun nofun
  · next hone =>
    have hne : b.toNat ≠ 0 := fun h => hone (BitVec.eq_of_toNat_eq h)
    have hlt := b.isLt
    exact iff_of_true (by omega) rfl

/-- **The sign bit is set** in negative numbers. -/
theorem hasSignBit_iff {x : Float} {sign : UnpackedFloat.Sign} {mantissa : Nat} {exponent : Int}
    {hpos : 0 < mantissa} (h : x.toModel.unpack = .finite sign mantissa exponent hpos) :
    hasSignBit x = true ↔ sign = .negative := by
  have hsign := sign_of_unpack h
  have hword := x.toBits.toNat_lt
  have hbit : (@UnpackedFloat.unpackSign Format.binary64 x.toBits.toBitVec).toNat
      = x.toBits.toNat / 2 ^ 63 := by
    rw [UnpackedFloat.unpackSign, BitVec.toNat_cast, BitVec.extractLsb_toNat]
    show x.toBits.toNat >>> 63 % 2 = _
    rw [Nat.shiftRight_eq_div_pow]
    omega
  have hshift : (x.toBits >>> 63).toNat = x.toBits.toNat / 2 ^ 63 := by
    rw [UInt64.toNat_shiftRight, Nat.shiftRight_eq_div_pow]
    rfl
  rw [hasSignBit, beq_iff_eq, ← UInt64.toNat_inj, hshift, ← hbit, ← hsign]
  exact toNat_eq_one_iff _

/-! ### Cutting -/

theorem rational?_neg {x : Float} {q : ℚ} (h : rational? x = some q) :
    rational? (-x) = some (-q) := by
  rw [rational?, unpack_neg]
  obtain ⟨sign, hx, rfl⟩ | ⟨sign, mantissa, exponent, hpos, hx, rfl⟩ := cases_of_rational h
  · rw [hx, neg_zero]
    rfl
  · rw [hx]
    cases sign with
    | positive => rfl
    | negative => exact congrArg some (neg_neg _).symm

/-- A whole part that fits into a word is kept as a double. -/
theorem rational?_floor {mantissa : Nat} {exponent : Int} (h : IsDouble mantissa exponent)
    (hlt : ⌊(mantissa : ℚ) * 2 ^ exponent⌋₊ < 2 ^ 64) :
    rational? (⌊(mantissa : ℚ) * 2 ^ exponent⌋₊.toUInt64.toFloat)
      = some (⌊(mantissa : ℚ) * 2 ^ exponent⌋₊ : ℚ) := by
  obtain ⟨digits, zeros, hdigits, hzeros, hfloor⟩ : ∃ digits zeros : Nat, digits < 2 ^ 53 ∧
      zeros ≤ 971 ∧ ⌊(mantissa : ℚ) * 2 ^ exponent⌋₊ = digits * 2 ^ zeros := by
    obtain ⟨hmantissa, -, hgreatest, -⟩ := h
    obtain ⟨count, rfl | rfl⟩ := exponent.eq_nat_or_neg
    · exact ⟨mantissa, count, hmantissa, by omega, floor_mul_two_pow mantissa count⟩
    · refine ⟨mantissa / 2 ^ count, 0, (Nat.div_le_self ..).trans_lt hmantissa, by omega, ?_⟩
      rw [floor_div_two_pow, Nat.pow_zero, Nat.mul_one]
  rw [hfloor] at hlt ⊢
  have hmodel : (digits * 2 ^ zeros).toUInt64.toFloat.toModel
      = Float.Model.ofNat (digits * 2 ^ zeros) := by
    show Float.Model.ofNat (digits * 2 ^ zeros).toUInt64.toNat = _
    rw [toNat_toUInt64 hlt]
  rw [rational?, hmodel]
  rcases Nat.eq_zero_or_pos digits with rfl | hpos
  · rw [Nat.zero_mul, Nat.cast_zero]
    rfl
  · obtain ⟨m, e, hm, hunpack, -, -, -, hvalue⟩ := exists_unpack_ofNat hpos hdigits hzeros
    rw [hunpack, ← hvalue]
    rfl

theorem rational?_two_pow_63 : rational? 9223372036854775808.0 = some (2 ^ 63) := by
  have hunpack : (9223372036854775808.0 : Float).toModel.unpack
      = .finite .positive (2 ^ 52) 11 (by decide) := rfl
  rw [rational?, hunpack, rationalOf?, signed]
  norm_num

/-- A number that is too large to be cut is whole. -/
theorem IsDouble.exponent_nonneg {mantissa : Nat} {exponent : Int} (h : IsDouble mantissa exponent)
    (hlarge : ¬ (mantissa : ℚ) * 2 ^ exponent < 2 ^ 63) : 0 ≤ exponent := by
  by_contra hneg
  refine hlarge ?_
  calc (mantissa : ℚ) * 2 ^ exponent ≤ mantissa * 1 :=
        mul_le_mul_of_nonneg_left (zpow_le_one_of_nonpos₀ one_le_two (by omega))
          (Nat.cast_nonneg _)
    _ < 2 ^ 63 := by
        rw [mul_one]
        exact_mod_cast h.lt.trans (by decide)

/-- **A double is cut** to its whole part, and keeps its sign. -/
theorem rational?_truncate {x : Float} {sign : UnpackedFloat.Sign} {mantissa : Nat}
    {exponent : Int} {hpos : 0 < mantissa}
    (hx : x.toModel.unpack = .finite sign mantissa exponent hpos) :
    rational? (truncate x) = some (signed sign ⌊(mantissa : ℚ) * 2 ^ exponent⌋₊) := by
  have hdouble : IsDouble mantissa exponent := isDouble_of_unpack hx
  have habs : rational? x.abs = some ((mantissa : ℚ) * 2 ^ exponent) := by
    rw [rational?, unpack_abs, hx]
    rfl
  have hlt := lt_iff_of_rational habs rational?_two_pow_63
  rw [truncate]
  by_cases hsmall : (mantissa : ℚ) * 2 ^ exponent < 2 ^ 63
  · have hfloor : ⌊(mantissa : ℚ) * 2 ^ exponent⌋₊ < 2 ^ 63 := by
      rw [Nat.floor_lt (by positivity)]
      exact_mod_cast hsmall
    have hword : x.abs.toUInt64 = ⌊(mantissa : ℚ) * 2 ^ exponent⌋₊.toUInt64 := by
      have hsize : UInt64.size = 2 ^ 64 := rfl
      rw [← UInt64.toNat_inj, toNat_toUInt64_of_rational habs, toNat_toUInt64 (by omega)]
      omega
    have hwhole := rational?_floor hdouble (by omega)
    rw [if_pos (hlt.mpr hsmall), hword]
    dsimp only
    split
    · next hnegative =>
      rw [(hasSignBit_iff hx).mp hnegative, rational?_neg hwhole]
      rfl
    · next hpositive =>
      have hsign : sign = .positive := by
        cases sign with
        | positive => rfl
        | negative => exact absurd ((hasSignBit_iff hx).mpr rfl) hpositive
      rw [hsign, hwhole]
      rfl
  · rw [if_neg (mt hlt.mp hsmall)]
    obtain ⟨count, rfl⟩ := Int.eq_ofNat_of_zero_le (hdouble.exponent_nonneg hsmall)
    rw [rational?, hx, floor_mul_two_pow, rationalOf?, zpow_natCast]
    push_cast
    rfl

theorem rational?_truncate_zero {x : Float} {sign : UnpackedFloat.Sign}
    (hx : x.toModel.unpack = .zero sign) : rational? (truncate x) = some 0 := by
  have habs : rational? x.abs = some 0 := by
    rw [rational?, unpack_abs, hx]
    rfl
  have hword : x.abs.toUInt64 = 0 := by
    rw [← UInt64.toNat_inj, toNat_toUInt64_of_rational habs, Nat.floor_zero]
    rfl
  have hzero : rational? (0 : UInt64).toFloat = some 0 := rfl
  rw [truncate, if_pos ((lt_iff_of_rational habs rational?_two_pow_63).mpr (by norm_num)), hword]
  dsimp only
  split
  · rw [rational?_neg hzero, neg_zero]
  · exact hzero

/-- What is not finite is not cut. -/
theorem truncate_of_rational_eq_none {x : Float} (h : rational? x = none) : truncate x = x := by
  refine if_neg fun hlt => ?_
  rw [lt_iff_compare, unpack_abs] at hlt
  rw [rational?] at h
  cases hx : x.toModel.unpack with
  | zero | finite =>
    rw [hx] at h
    cases h
  | infinity sign | notANumber =>
    rw [hx] at hlt
    cases hlt

/-- **What is left of a rational** when a double is cut: the whole part, which is less than one only
if the rational is. -/
theorem exists_rational?_truncate {x : Float} {q : ℚ} (h : rational? x = some q) :
    ∃ t, rational? (truncate x) = some t ∧ (t < 1 ↔ q < 1) ∧ ⌊t⌋₊ = ⌊q⌋₊ := by
  obtain ⟨sign, hx, rfl⟩ | ⟨sign, mantissa, exponent, hpos, hx, rfl⟩ := cases_of_rational h
  · exact ⟨0, rational?_truncate_zero hx, Iff.rfl, rfl⟩
  · have hvalue : (0 : ℚ) ≤ mantissa * 2 ^ exponent := by positivity
    refine ⟨_, rational?_truncate hx, ?_⟩
    cases sign with
    | positive =>
      refine ⟨?_, Nat.floor_natCast _⟩
      show (⌊(mantissa : ℚ) * 2 ^ exponent⌋₊ : ℚ) < 1 ↔ (mantissa : ℚ) * 2 ^ exponent < 1
      rw [Nat.cast_lt_one, ← Nat.lt_one_iff, Nat.floor_lt hvalue, Nat.cast_one]
    | negative =>
      have hfloor : (0 : ℚ) ≤ ⌊(mantissa : ℚ) * 2 ^ exponent⌋₊ := Nat.cast_nonneg _
      refine ⟨iff_of_true ?_ ?_, ?_⟩
      · exact (neg_nonpos.mpr hfloor).trans_lt one_pos
      · exact (neg_nonpos.mpr hvalue).trans_lt one_pos
      · exact (Nat.floor_of_nonpos (neg_nonpos.mpr hfloor)).trans
          (Nat.floor_of_nonpos (neg_nonpos.mpr hvalue)).symm

theorem rational?_one : rational? 1.0 = some 1 := by
  have hunpack : (1.0 : Float).toModel.unpack = .finite .positive (2 ^ 52) (-52) (by decide) := rfl
  rw [rational?, hunpack, rationalOf?, signed]
  norm_num

end CellFormula.Number
