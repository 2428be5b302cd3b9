import CellFormula.Proofs.WordDouble

/-!
# The shape of doubles, and rounding in one step

A finite double is a whole number of at most 53 digits times a power of two. Most numbers can be
written so in several ways, and a double is written with as many digits as its exponent leaves room
for: 53, or fewer at the least exponent only. A number that is written that way is read back from
the bits it is stored in.

## Why rounding drops digits twice

Rounding drops digits until 53 are left, looks at what was dropped, and may add one to what is left.
Then it drops digits again. The second time there is nothing to do unless all 53 digits were ones
and the carry made them 54, in which case the digit that goes is a zero. `roundWithAccuracy_eq` says
rounding so, and everything after it counts dropped digits once.

## Whole numbers

A whole number of at most 53 digits, with any number of zeros behind them, is rounded to itself.
This is what makes a whole part a double again.

## Main definitions

* `IsDouble` — the mantissa and the exponent of a finite double
* `HasShape` — numbers that can be read from the bits of a double
* `dropped` — how many digits rounding drops

## Main results

* `hasShape_unpack`, `unpack_pack` — what is read has the shape, and what has the shape is kept
* `unpack_neg`, `unpack_abs` — signs change nothing else
* `roundWithAccuracy_eq` — rounding, with the digits dropped once
* `exists_unpack_ofNat` — a whole number of 53 digits is a double
-/

namespace CellFormula.Number

open Float.Model

/-! ### Doubles as they are stored -/

/-- The mantissa and the exponent of a finite double. The mantissa has all 53 digits unless the
exponent is the least. -/
structure IsDouble (mantissa : Nat) (exponent : Int) : Prop where
  lt : mantissa < 2 ^ 53
  least : -1074 ≤ exponent
  greatest : exponent ≤ 971
  full : 2 ^ 52 ≤ mantissa ∨ exponent = -1074

/-- A stored number is read as what was stored, its first digit included if that is not stored. -/
theorem unpack_packComponents (sign : UnpackedFloat.Sign)
    (exponent : BitVec Format.binary64.exponentBits)
    (mantissa : BitVec Format.binary64.mantissaBitsWithoutImplicit)
    (hfinite : exponent ≠ -1#_) (hpos : exponent = 0#_ → 0 < mantissa.toNat)
    (hfirst : 0 < 2 ^ 52 + mantissa.toNat) :
    UnpackedFloat.unpack Format.binary64
        (UnpackedFloat.packComponents Format.binary64 sign exponent mantissa)
      = if h : exponent = 0#_ then .finite sign mantissa.toNat (-1074) (hpos h)
        else .finite sign (2 ^ 52 + mantissa.toNat) (exponent.toNat - 1075) hfirst := by
  have hsign : UnpackedFloat.Sign.ofBitVec sign.toBitVec = sign := by cases sign <;> rfl
  have hdigits : (1#1 ++ mantissa).toNat = 2 ^ 52 + mantissa.toNat := by
    rw [BitVec.toNat_append, ← Nat.shiftLeft_add_eq_or_of_lt mantissa.isLt]
    rfl
  have hbias : ((Format.binary64.exponentBias : Nat) : Int)
      + (Format.binary64.mantissaBitsWithoutImplicit : Nat) = 1075 := by decide
  rw [UnpackedFloat.unpack]
  simp only [UnpackedFloat.unpackExponent_packComponents,
    UnpackedFloat.unpackMantissa_packComponents, UnpackedFloat.unpackSign_packComponents, hsign,
    hdigits, hbias, if_neg hfinite]
  split
  · next hzero =>
    have hsome : mantissa ≠ 0#_ := fun h => (hpos hzero).ne' (congrArg BitVec.toNat h)
    rw [dif_neg hsome]
    subst hzero
    rfl
  · rfl

/-- A number with all 53 digits is kept: the first digit is left out where it is stored. -/
theorem unpack_pack_normal {mantissa : Nat} {exponent : Int} (h : IsDouble mantissa exponent)
    (hfull : 2 ^ 52 ≤ mantissa) (sign : UnpackedFloat.Sign) (hpos : 0 < mantissa) :
    (Float.Model.pack (.finite sign mantissa exponent hpos)).unpack
      = .finite sign mantissa exponent hpos := by
  obtain ⟨hlt, hleast, hgreatest, -⟩ := h
  have hlog : mantissa.log2 + 1 = 53 :=
    congrArg (· + 1) ((Nat.log2_eq_iff hpos.ne').mpr ⟨hfull, hlt⟩)
  have hexponent : (BitVec.ofNat Format.binary64.exponentBits
      (exponent + 1023 + ((52 : Nat) : Int)).toNat).toNat = (exponent + 1075).toNat := by
    rw [BitVec.toNat_ofNat, Nat.mod_eq_of_lt]
    · omega
    · show _ < 2 ^ 11
      omega
  have hmantissa : (BitVec.ofNat Format.binary64.mantissaBitsWithoutImplicit mantissa).toNat
      = mantissa - 2 ^ 52 := by
    rw [BitVec.toNat_ofNat]
    show mantissa % 2 ^ 52 = _
    omega
  have hones : (-1#11 : BitVec 11).toNat = 2047 := by decide
  have hzero : (0#11 : BitVec 11).toNat = 0 := rfl
  have hnonzero (h : BitVec.ofNat Format.binary64.exponentBits
      (exponent + 1023 + ((52 : Nat) : Int)).toNat = 0#_) : False := by
    have := hexponent.symm.trans ((congrArg BitVec.toNat h).trans hzero)
    omega
  show UnpackedFloat.unpack Format.binary64 (UnpackedFloat.pack Format.binary64 _) = _
  rw [UnpackedFloat.pack]
  dsimp only
  rw [exponentBias_eq, mantissaBits_eq, if_neg (by omega), if_pos hlog, unpack_packComponents,
    dif_neg hnonzero]
  · simp only [UnpackedFloat.finite.injEq, hexponent, hmantissa]
    exact ⟨trivial, by omega, by omega⟩
  · intro h
    have := hexponent.symm.trans ((congrArg BitVec.toNat h).trans hones)
    omega
  · exact fun h => (hnonzero h).elim
  · omega

/-- A number with the least exponent and fewer digits is kept: all its digits are stored. -/
theorem unpack_pack_subnormal {mantissa : Nat} (hshort : mantissa < 2 ^ 52)
    (sign : UnpackedFloat.Sign) (hpos : 0 < mantissa) :
    (Float.Model.pack (.finite sign mantissa (-1074) hpos)).unpack
      = .finite sign mantissa (-1074) hpos := by
  have hlog : mantissa.log2 < 52 := (Nat.log2_lt hpos.ne').mpr hshort
  have hmantissa : (BitVec.ofNat Format.binary64.mantissaBitsWithoutImplicit mantissa).toNat
      = mantissa := by
    rw [BitVec.toNat_ofNat]
    exact Nat.mod_eq_of_lt hshort
  show UnpackedFloat.unpack Format.binary64 (UnpackedFloat.pack Format.binary64 _) = _
  rw [UnpackedFloat.pack]
  dsimp only
  rw [exponentBias_eq, mantissaBits_eq, if_neg (by omega), if_neg (by omega),
    unpack_packComponents _ _ _ (by decide) (fun _ => hmantissa.symm ▸ hpos) (by omega),
    dif_pos rfl, UnpackedFloat.finite.injEq]
  exact ⟨rfl, hmantissa, rfl⟩

theorem unpack_pack_zero (sign : UnpackedFloat.Sign) :
    (Float.Model.pack (.zero sign)).unpack = .zero sign := UnpackedFloat.unpack_packedZero

theorem unpack_pack_infinity (sign : UnpackedFloat.Sign) :
    (Float.Model.pack (.infinity sign)).unpack = .infinity sign := by
  show UnpackedFloat.unpack Format.binary64 (UnpackedFloat.packedInfinity Format.binary64 sign) = _
  rw [UnpackedFloat.packedInfinity, UnpackedFloat.unpack]
  simp only [UnpackedFloat.unpackExponent_packComponents,
    UnpackedFloat.unpackMantissa_packComponents, UnpackedFloat.unpackSign_packComponents]
  rw [if_pos trivial, if_pos]
  · cases sign <;> rfl
  · rfl

theorem unpack_pack_notANumber : (Float.Model.pack .notANumber).unpack = .notANumber :=
  UnpackedFloat.unpack_packedNaN

/-- **What is read from the bits of a double** has the shape of one. -/
theorem isDouble_of_unpack {bits : BitVec Format.binary64.numBits} {sign : UnpackedFloat.Sign}
    {mantissa : Nat} {exponent : Int} {hpos : 0 < mantissa}
    (h : UnpackedFloat.unpack Format.binary64 bits = .finite sign mantissa exponent hpos) :
    IsDouble mantissa exponent := by
  have hmantissa : (UnpackedFloat.unpackMantissa bits).toNat < 2 ^ 52 := BitVec.isLt _
  have hexponent : (UnpackedFloat.unpackExponent bits).toNat < 2 ^ 11 := BitVec.isLt _
  rw [UnpackedFloat.unpack] at h
  dsimp only at h
  rw [exponentBias_eq] at h
  split at h
  · split at h <;> cases h
  · next hfinite =>
    split at h
    · next hsubnormal =>
      -- The exponent of a subnormal number is the least.
      split at h
      · cases h
      · cases h
        rw [hsubnormal]
        exact ⟨by omega, by decide, by decide, .inr rfl⟩
    · next hnormal =>
      cases h
      have hfirst : (1#1 ++ UnpackedFloat.unpackMantissa bits).toNat
          = 2 ^ 52 + (UnpackedFloat.unpackMantissa bits).toNat := by
        rw [BitVec.toNat_append, ← Nat.shiftLeft_add_eq_or_of_lt hmantissa]
        rfl
      have hzero : (UnpackedFloat.unpackExponent bits).toNat ≠ 0 := fun h =>
        hnormal (BitVec.eq_of_toNat_eq h)
      have hones : (UnpackedFloat.unpackExponent bits).toNat ≠ 2047 := fun h =>
        hfinite (BitVec.eq_of_toNat_eq h)
      rw [hfirst]
      exact ⟨by omega, by omega, by omega, .inl (by omega)⟩

/-- The number can be the one that the bits of a double stand for. -/
def HasShape : UnpackedFloat → Prop
  | .finite _ mantissa exponent _ => IsDouble mantissa exponent
  | .zero _ | .infinity _ | .notANumber => True

theorem hasShape_unpack (x : Float.Model) : HasShape x.unpack := by
  cases h : x.unpack with
  | finite sign mantissa exponent => exact isDouble_of_unpack h
  | zero sign | infinity sign | notANumber => trivial

/-- **Packing keeps what has the shape of a double.** -/
theorem unpack_pack {u : UnpackedFloat} (h : HasShape u) : (Float.Model.pack u).unpack = u := by
  cases u with
  | finite sign mantissa exponent hpos =>
    rcases Nat.lt_or_ge mantissa (2 ^ 52) with hshort | hfull
    · obtain rfl : exponent = -1074 := h.full.resolve_left hshort.not_ge
      exact unpack_pack_subnormal hshort sign hpos
    · exact unpack_pack_normal h hfull sign hpos
  | zero sign => exact unpack_pack_zero sign
  | infinity sign => exact unpack_pack_infinity sign
  | notANumber => exact unpack_pack_notANumber

theorem HasShape.neg {u : UnpackedFloat} (h : HasShape u) : HasShape u.neg := by
  cases u <;> exact h

theorem HasShape.abs {u : UnpackedFloat} (h : HasShape u) : HasShape u.abs := by
  cases u <;> exact h

theorem unpack_neg (x : Float) : (-x).toModel.unpack = x.toModel.unpack.neg :=
  unpack_pack (hasShape_unpack x.toModel).neg

theorem unpack_abs (x : Float) : x.abs.toModel.unpack = x.toModel.unpack.abs :=
  unpack_pack (hasShape_unpack x.toModel).abs

theorem isFinite_neg (x : Float) : (-x).isFinite = x.isFinite := by
  show (-x).toModel.unpack.isFinite = x.toModel.unpack.isFinite
  rw [unpack_neg]
  cases x.toModel.unpack <;> rfl

theorem isNaN_neg (x : Float) : (-x).isNaN = x.isNaN := by
  show (-x).toModel.unpack.isNaN = x.toModel.unpack.isNaN
  rw [unpack_neg]
  cases x.toModel.unpack <;> rfl

/-! ### Dropping the digits that are too many -/

/-- How many digits are dropped. -/
def dropped (mantissa : Nat) (exponent : Int) : Nat :=
  (Format.binary64.targetExponent (totalExponent mantissa exponent) - exponent).toNat

theorem shiftToTargetExponent_eq (mantissa : Nat) (exponent : Int)
    (accuracy : UnpackedFloat.Accuracy) :
    UnpackedFloat.shiftToTargetExponent Format.binary64 mantissa exponent accuracy
      = (UnpackedFloat.ExtendedMantissa.ofMantissaAndAccuracy mantissa accuracy
          >>> dropped mantissa exponent,
        exponent + dropped mantissa exponent) := rfl

theorem dropped_eq (mantissa : Nat) (exponent : Int) :
    dropped mantissa exponent
      = max (mantissa.log2 - 52) (-1074 - exponent).toNat := by
  rw [dropped, targetExponent_eq, totalExponent]
  omega

theorem ofMantissaAndAccuracy_mantissa (mantissa : Nat) (accuracy : UnpackedFloat.Accuracy) :
    (UnpackedFloat.ExtendedMantissa.ofMantissaAndAccuracy mantissa accuracy).mantissa
      = mantissa := by
  cases accuracy with
  | exact => rfl
  | inexact order => cases order <;> rfl

section

variable {mantissa : Nat} {exponent : Int}

theorem mantissa_dropped (mantissa : Nat) (exponent : Int) (accuracy : UnpackedFloat.Accuracy) :
    (UnpackedFloat.shiftToTargetExponent Format.binary64 mantissa exponent accuracy).1.mantissa
      = mantissa / 2 ^ dropped mantissa exponent := by
  rw [shiftToTargetExponent_eq, mantissa_shiftRight, ofMantissaAndAccuracy_mantissa]

/-- At most 53 digits are left. -/
theorem div_dropped_lt (mantissa : Nat) (exponent : Int) :
    mantissa / 2 ^ dropped mantissa exponent < 2 ^ 53 := by
  refine Nat.div_lt_of_lt_mul ((Nat.lt_log2_self (n := mantissa)).trans_le ?_)
  rw [← Nat.pow_add]
  exact Nat.pow_le_pow_right Nat.two_pos (by rw [dropped_eq]; omega)

/-- Where more digits are dropped than the least exponent asks for, 53 are left. -/
theorem le_div_dropped (hexponent : -1074 < exponent + dropped mantissa exponent)
    (hdropped : 0 < dropped mantissa exponent) :
    2 ^ 52 ≤ mantissa / 2 ^ dropped mantissa exponent := by
  have hdigits : mantissa.log2 = 52 + dropped mantissa exponent := by
    rw [dropped_eq] at hexponent hdropped ⊢
    omega
  have hpos : mantissa ≠ 0 := by
    rintro rfl
    rw [Nat.log2_zero] at hdigits
    omega
  rw [Nat.le_div_iff_mul_le (Nat.two_pow_pos _), ← Nat.pow_add, ← hdigits]
  exact Nat.log2_self_le hpos

/-- Nothing is dropped from a mantissa that has no more than 53 digits. -/
theorem shiftToTargetExponent_of_lt (hmantissa : mantissa < 2 ^ 53) (hexponent : -1074 ≤ exponent) :
    UnpackedFloat.shiftToTargetExponent Format.binary64 mantissa exponent .exact
      = (⟨mantissa, false, false⟩, exponent) := by
  have hlog : mantissa.log2 ≤ 52 := by
    rcases Nat.eq_zero_or_pos mantissa with rfl | hpos
    · simp
    · exact Nat.le_of_lt_succ ((Nat.log2_lt hpos.ne').mpr hmantissa)
  have hdropped : dropped mantissa exponent = 0 := by
    rw [dropped_eq]
    omega
  rw [shiftToTargetExponent_eq, hdropped, Int.natCast_zero, Int.add_zero]
  rfl

/-- One digit is dropped after a carry. -/
theorem shiftToTargetExponent_carry (hexponent : -1074 ≤ exponent) :
    UnpackedFloat.shiftToTargetExponent Format.binary64 (2 ^ 53) exponent .exact
      = (⟨2 ^ 52, false, false⟩, exponent + 1) := by
  have hdropped : dropped (2 ^ 53) exponent = 1 := by
    rw [dropped_eq, Nat.log2_two_pow]
    omega
  rw [shiftToTargetExponent_eq, hdropped]
  rfl

/-- **Rounding**, with the second drop of digits spelled out: it takes place after a carry only. -/
theorem roundWithAccuracy_eq (sign : UnpackedFloat.Sign) (mantissa : Nat) (exponent : Int)
    (accuracy : UnpackedFloat.Accuracy) :
    let first := UnpackedFloat.shiftToTargetExponent Format.binary64 mantissa exponent accuracy
    let rounded := first.1.roundedMantissa
    UnpackedFloat.roundWithAccuracy Format.binary64 sign mantissa exponent accuracy
      = if h : rounded = 0 then .zero sign
        else if rounded < 2 ^ 53 then .finite sign rounded first.2 (Nat.pos_of_ne_zero h)
        else .finite sign (2 ^ 52) (first.2 + 1) (by decide) := by
  intro first rounded
  have hleast : -1074 ≤ first.2 := by
    show -1074 ≤ exponent + (dropped mantissa exponent : Int)
    rw [dropped_eq]
    omega
  have hfew : first.1.mantissa < 2 ^ 53 :=
    (mantissa_dropped mantissa exponent accuracy).trans_lt (div_dropped_lt mantissa exponent)
  have hround : UnpackedFloat.roundWithAccuracy Format.binary64 sign mantissa exponent accuracy
      = let last := UnpackedFloat.shiftToTargetExponent Format.binary64 rounded first.2 .exact
        if h : last.1.mantissa = 0 then .zero sign
        else .finite sign last.1.mantissa last.2 (Nat.pos_of_ne_zero h) := rfl
  rw [hround]
  by_cases hlt : rounded < 2 ^ 53
  · rw [shiftToTargetExponent_of_lt hlt hleast]
    simp only [if_pos hlt]
  · have hcarry : rounded = 2 ^ 53 := by
      have := roundedMantissa_le first.1
      omega
    rw [hcarry, shiftToTargetExponent_carry hleast]
    rfl

end

/-! ### Whole numbers -/

/-- Zeros are dropped and leave no trace. -/
theorem shiftRight_exact (mantissa count : Nat) :
    (⟨mantissa * 2 ^ count, false, false⟩ : UnpackedFloat.ExtendedMantissa) >>> count
      = ⟨mantissa, false, false⟩ := by
  induction count generalizing mantissa with
  | zero =>
    rw [Nat.pow_zero, Nat.mul_one]
    rfl
  | succ count ih =>
    have hsplit : mantissa * 2 ^ (count + 1) = 2 * mantissa * 2 ^ count := by ring
    show ((⟨mantissa * 2 ^ (count + 1), false, false⟩ : UnpackedFloat.ExtendedMantissa)
      >>> count).shiftRightOne = _
    rw [hsplit, ih]
    show (⟨2 * mantissa / 2, 2 * mantissa % 2 != 0, false⟩ : UnpackedFloat.ExtendedMantissa) = _
    rw [Nat.mul_div_cancel_left _ Nat.two_pos, Nat.mul_mod_right]
    rfl

theorem log2_mul_two_pow {mantissa : Nat} (hpos : 0 < mantissa) (count : Nat) :
    (mantissa * 2 ^ count).log2 = mantissa.log2 + count := by
  have hproduct : mantissa * 2 ^ count ≠ 0 := (Nat.mul_pos hpos (Nat.two_pow_pos count)).ne'
  rw [Nat.log2_eq_iff hproduct, Nat.pow_add, Nat.add_right_comm, Nat.pow_add]
  exact ⟨Nat.mul_le_mul_right _ (Nat.log2_self_le hpos.ne'),
    Nat.mul_lt_mul_of_pos_right Nat.lt_log2_self (Nat.two_pow_pos count)⟩

/-- **Nothing is rounded** if only zeros are dropped. -/
theorem roundWithAccuracy_exact {mantissa : Nat} {exponent : Int} (hfull : 2 ^ 52 ≤ mantissa)
    (hlt : mantissa < 2 ^ 53) (hexponent : -1074 ≤ exponent) (sign : UnpackedFloat.Sign)
    (count : Nat) :
    UnpackedFloat.roundWithAccuracy Format.binary64 sign (mantissa * 2 ^ count) (exponent - count)
        .exact
      = .finite sign mantissa exponent ((Nat.two_pow_pos 52).trans_le hfull) := by
  have hpos : 0 < mantissa := (Nat.two_pow_pos 52).trans_le hfull
  have hlog : mantissa.log2 = 52 := (Nat.log2_eq_iff hpos.ne').mpr ⟨hfull, hlt⟩
  have hdropped : dropped (mantissa * 2 ^ count) (exponent - count) = count := by
    rw [dropped_eq, log2_mul_two_pow hpos, hlog]
    omega
  have hfirst : UnpackedFloat.shiftToTargetExponent Format.binary64 (mantissa * 2 ^ count)
      (exponent - count) .exact = (⟨mantissa, false, false⟩, exponent) := by
    rw [shiftToTargetExponent_eq, hdropped, Int.sub_add_cancel]
    exact congrArg (·, exponent) (shiftRight_exact mantissa count)
  have hrounded : (⟨mantissa, false, false⟩ : UnpackedFloat.ExtendedMantissa).roundedMantissa
      = mantissa := rfl
  rw [roundWithAccuracy_eq, hfirst]
  dsimp only
  simp only [hrounded, dif_neg hpos.ne', if_pos hlt]

/-- **A whole number of at most 53 digits, with zeros behind them, is a double.** -/
theorem exists_round_eq {digits : Nat} (hpos : 0 < digits) (hlt : digits < 2 ^ 53) (zeros : Nat)
    (sign : UnpackedFloat.Sign) :
    ∃ mantissa exponent h, UnpackedFloat.round Format.binary64 sign (digits * 2 ^ zeros) 0
        = .finite sign mantissa exponent h ∧ 2 ^ 52 ≤ mantissa ∧ mantissa < 2 ^ 53 ∧
      -52 ≤ exponent ∧ exponent ≤ zeros ∧
      (mantissa : ℚ) * 2 ^ exponent = ((digits * 2 ^ zeros : Nat) : ℚ) := by
  have hlog : digits.log2 ≤ 52 := Nat.le_of_lt_succ ((Nat.log2_lt hpos.ne').mpr hlt)
  obtain ⟨missing, hmissing⟩ : ∃ missing, digits.log2 + missing = 52 := Nat.le.dest hlog
  have hfull : (digits * 2 ^ missing).log2 = 52 := by rw [log2_mul_two_pow hpos, hmissing]
  have hproduct : digits * 2 ^ missing ≠ 0 := (Nat.mul_pos hpos (Nat.two_pow_pos missing)).ne'
  obtain ⟨hlow, hhigh⟩ := (Nat.log2_eq_iff hproduct).mp hfull
  have hround : UnpackedFloat.round Format.binary64 sign (digits * 2 ^ zeros) 0
      = .finite sign (digits * 2 ^ missing) (zeros - missing : Int)
          (Nat.pos_of_ne_zero hproduct) := by
    -- Zeros are added until there are 53 digits, or dropped.
    rw [UnpackedFloat.round]
    dsimp only [UnpackedFloat.decreaseExponent]
    rw [targetExponent_eq, totalExponent, log2_mul_two_pow hpos]
    have hadded : ((0 : Int) - max (((digits.log2 + zeros : Nat) : Int) + 1 + 0 - 53)
        (-1074)).toNat = missing - zeros := by omega
    have hmantissa : digits * 2 ^ zeros * 2 ^ (missing - zeros)
        = digits * 2 ^ missing * 2 ^ (zeros - missing) := by
      rw [Nat.mul_assoc, Nat.mul_assoc, ← Nat.pow_add, ← Nat.pow_add]
      congr 2
      omega
    have hexponent : (0 : Int) - ((missing - zeros : Nat) : Int)
        = (zeros - missing : Int) - ((zeros - missing : Nat) : Int) := by omega
    rw [hadded, Nat.shiftLeft_eq, hmantissa, hexponent]
    exact roundWithAccuracy_exact hlow hhigh (by omega) sign _
  refine ⟨_, _, _, hround, hlow, hhigh, by omega, by omega, ?_⟩
  rw [zpow_sub₀ two_ne_zero, zpow_natCast, zpow_natCast]
  push_cast
  field_simp

/-- **A whole number of at most 53 digits, with zeros behind them, is kept** as a double. -/
theorem exists_unpack_ofNat {digits : Nat} (hpos : 0 < digits) (hlt : digits < 2 ^ 53)
    {zeros : Nat} (hzeros : zeros ≤ 971) :
    ∃ mantissa exponent h, (Float.Model.ofNat (digits * 2 ^ zeros)).unpack
        = .finite .positive mantissa exponent h ∧ IsDouble mantissa exponent ∧
      -52 ≤ exponent ∧ exponent ≤ zeros ∧
      (mantissa : ℚ) * 2 ^ exponent = ((digits * 2 ^ zeros : Nat) : ℚ) := by
  obtain ⟨mantissa, exponent, h, hround, hfull, hmantissa, hleast, hgreatest, hvalue⟩ :=
    exists_round_eq hpos hlt zeros .positive
  have hdouble : IsDouble mantissa exponent := ⟨hmantissa, by omega, by omega, .inl hfull⟩
  refine ⟨mantissa, exponent, h, ?_, hdouble, hleast, hgreatest, hvalue⟩
  rw [ofNat_eq_round (Nat.mul_pos hpos (Nat.two_pow_pos zeros)), hround]
  exact unpack_pack (u := .finite .positive mantissa exponent h) hdouble

end CellFormula.Number
