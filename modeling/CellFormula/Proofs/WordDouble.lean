import CellFormula.Number.Binary64
import Mathlib

/-!
# Words as doubles

The largest double is far above the largest 64-bit word and the least one far below one, so a count
that is turned into a double is finite, and it is zero only if nothing was counted. Those are facts
about rounding. A word has up to 64 digits; before it is rounded, zeros may be added behind it, and
rounding then drops digits and may carry one over. None of this brings the exponent near the one of
infinity or the one of zero, and the first digit is never dropped.

## Where the bounds come from

A double is finite if it is packed with an exponent of at most 971 (`isFinite_pack`). The bounds
below are coarse: they are off by more than a hundred, and nothing is gained by better ones.

## Main results

* `exponentAtMost_round`, `isSizable_round` — a rounded word
* `isFinite_toFloat`, `isFinite_ofCount` — words and counts are finite doubles
* `ofCount_ne_zero` — a count is zero only if it counts nothing
* `isFinite_div_eq_false` — a quotient of what is not finite is not finite
-/

namespace CellFormula.Number

open Float.Model

/-! ### The format -/

theorem exponentBias_eq : ((Format.binary64.exponentBias : Nat) : Int) = 1023 := by decide

theorem mantissaBits_eq : Format.binary64.mantissaBits = 53 := by decide

/-- Rounding leaves 53 digits, or fewer if the exponent would fall below the least one. -/
theorem targetExponent_eq (total : Int) :
    Format.binary64.targetExponent total = max (total - 53) (-1074) := by
  have hmin : Format.binary64.minExponent = -1074 := by decide
  rw [Format.targetExponent, mantissaBits_eq, hmin]
  rfl

/-! ### Finite doubles -/

/-- The number is zero, or it is finite with an exponent up to a bound. -/
def ExponentAtMost (bound : Int) : UnpackedFloat → Prop
  | .zero _ => True
  | .finite _ _ exponent _ => exponent ≤ bound
  | .infinity _ | .notANumber => False

theorem isFinite_unpack {bits : BitVec Format.binary64.numBits}
    (h : UnpackedFloat.unpackExponent bits ≠ -1#_) :
    (UnpackedFloat.unpack Format.binary64 bits).isFinite = true := by
  rw [UnpackedFloat.unpack]
  dsimp only
  rw [if_neg h]
  split
  · split <;> rfl
  · rfl

/-- A number that is not too large stays finite when it is packed into a double. -/
theorem isFinite_pack {u : UnpackedFloat} (h : ExponentAtMost 971 u) :
    (Float.Model.pack u).isFinite = true := by
  have hzero : (0#11 : BitVec 11) ≠ -1#11 := by decide
  refine isFinite_unpack ?_
  show UnpackedFloat.unpackExponent (UnpackedFloat.pack Format.binary64 u) ≠ -1#_
  cases u with
  | infinity sign | notANumber => exact absurd h id
  | zero sign =>
    rw [UnpackedFloat.pack, UnpackedFloat.packedZero, UnpackedFloat.unpackExponent_packComponents]
    exact hzero
  | finite sign mantissa exponent _ =>
    have hexponent : exponent ≤ 971 := h
    rw [UnpackedFloat.pack]
    dsimp only
    rw [exponentBias_eq]
    have hsmall : (exponent + 1023 + ((52 : Nat) : Int)).toNat + 1 < 2048 := by omega
    rw [if_neg (by omega)]
    split
    · rw [UnpackedFloat.unpackExponent_packComponents]
      intro hall
      have hones : (-1#11 : BitVec 11).toNat = 2047 := by decide
      have hnat := congrArg BitVec.toNat hall
      simp only [BitVec.toNat_ofNat] at hnat
      omega
    · rw [UnpackedFloat.unpackExponent_packComponents]
      exact hzero

/-- **A number is finite as a double** exactly if its exponent is not too large. -/
theorem isFinite_pack_iff {u : UnpackedFloat} :
    (Float.Model.pack u).isFinite = true ↔ ExponentAtMost 971 u := by
  refine ⟨fun h => ?_, isFinite_pack⟩
  by_contra hlarge
  have hexponent : UnpackedFloat.unpackExponent (UnpackedFloat.pack Format.binary64 u) = -1#_ := by
    cases u with
    | infinity sign | notANumber => exact UnpackedFloat.unpackExponent_packComponents
    | zero sign => exact absurd trivial hlarge
    | finite sign mantissa exponent =>
      have hover : ¬ exponent ≤ 971 := hlarge
      rw [UnpackedFloat.pack]
      dsimp only
      rw [exponentBias_eq, if_pos (by omega)]
      exact UnpackedFloat.unpackExponent_packComponents
  have hinfinite : (UnpackedFloat.unpack Format.binary64
      (UnpackedFloat.pack Format.binary64 u)).isFinite = false := by
    rw [UnpackedFloat.unpack]
    dsimp only
    rw [if_pos hexponent]
    split <;> rfl
  exact Bool.false_ne_true (hinfinite.symm.trans h)

/-! ### Rounding -/

theorem mantissa_shiftRight (em : UnpackedFloat.ExtendedMantissa) (count : Nat) :
    (em >>> count).mantissa = em.mantissa / 2 ^ count := by
  show (count.repeat UnpackedFloat.ExtendedMantissa.shiftRightOne em).mantissa = _
  induction count with
  | zero => exact (Nat.div_one _).symm
  | succ count ih =>
    rw [Nat.pow_succ, ← Nat.div_div_eq_div_mul, ← ih]
    rfl

theorem mantissa_shiftRight_le (em : UnpackedFloat.ExtendedMantissa) (count : Nat) :
    (em >>> count).mantissa ≤ em.mantissa :=
  mantissa_shiftRight em count ▸ Nat.div_le_self ..

theorem roundedMantissa_le (em : UnpackedFloat.ExtendedMantissa) :
    em.roundedMantissa ≤ em.mantissa + 1 := by
  obtain ⟨mantissa, round, sticky⟩ := em
  have hparity := Nat.mod_lt mantissa Nat.two_pos
  cases round <;> cases sticky <;>
    simp only [UnpackedFloat.ExtendedMantissa.roundedMantissa,
      UnpackedFloat.ExtendedMantissa.accuracy, UnpackedFloat.Accuracy.roundToNearestEven] <;>
    omega

theorem le_roundedMantissa (em : UnpackedFloat.ExtendedMantissa) :
    em.mantissa ≤ em.roundedMantissa := by
  obtain ⟨mantissa, round, sticky⟩ := em
  cases round <;> cases sticky <;>
    simp only [UnpackedFloat.ExtendedMantissa.roundedMantissa,
      UnpackedFloat.ExtendedMantissa.accuracy, UnpackedFloat.Accuracy.roundToNearestEven] <;>
    omega

variable {mantissa digits : Nat} {exponent bound : Int}

/-- The exponent that rounding aims at is above the one of the number by less than its digits. -/
theorem targetExponent_le (hmantissa : mantissa < 2 ^ digits) (hexponent : exponent ≤ bound)
    (hbound : 0 ≤ bound) :
    Format.binary64.targetExponent (totalExponent mantissa exponent) ≤ bound + digits := by
  have hlog : mantissa.log2 ≤ digits := by
    rcases Nat.eq_zero_or_pos mantissa with rfl | hpos
    · simp
    · exact ((Nat.log2_lt hpos.ne').mpr hmantissa).le
  rw [targetExponent_eq, totalExponent]
  omega

/-- Dropping digits makes the mantissa smaller and the exponent not much larger. -/
theorem shiftToTargetExponent_le (hmantissa : mantissa < 2 ^ digits) (hexponent : exponent ≤ bound)
    (hbound : 0 ≤ bound) :
    (UnpackedFloat.shiftToTargetExponent Format.binary64 mantissa exponent .exact).1.mantissa
        ≤ mantissa ∧
      (UnpackedFloat.shiftToTargetExponent Format.binary64 mantissa exponent .exact).2
        ≤ bound + digits := by
  have htarget := targetExponent_le hmantissa hexponent hbound
  rw [UnpackedFloat.shiftToTargetExponent, UnpackedFloat.shiftToExponent]
  refine ⟨mantissa_shiftRight_le _ _, ?_⟩
  dsimp only
  omega

/-- Digits are dropped twice, the second time because a carry may have added one. -/
theorem exponentAtMost_roundWithAccuracy (hmantissa : mantissa < 2 ^ digits)
    (hexponent : exponent ≤ bound) (hbound : 0 ≤ bound) (sign : UnpackedFloat.Sign) :
    ExponentAtMost (bound + digits + (digits + 1))
      (UnpackedFloat.roundWithAccuracy Format.binary64 sign mantissa exponent .exact) := by
  obtain ⟨hdropped, hraised⟩ := shiftToTargetExponent_le hmantissa hexponent hbound
  rw [UnpackedFloat.roundWithAccuracy]
  dsimp only
  set em := UnpackedFloat.shiftToTargetExponent Format.binary64 mantissa exponent .exact
  have hrounded : em.1.roundedMantissa < 2 ^ (digits + 1) := by
    have hcarry := roundedMantissa_le em.1
    have hdigit := Nat.pow_lt_pow_succ (n := digits) Nat.one_lt_two
    omega
  obtain ⟨-, hlast⟩ := shiftToTargetExponent_le hrounded hraised (by omega)
  split
  · trivial
  · exact_mod_cast hlast

/-- **A rounded word has a small exponent.** -/
theorem exponentAtMost_round {n : Nat} (h : n < 2 ^ 64) (sign : UnpackedFloat.Sign) :
    ExponentAtMost 971 (UnpackedFloat.round Format.binary64 sign n 0) := by
  rw [UnpackedFloat.round]
  dsimp only [UnpackedFloat.decreaseExponent]
  set shift := ((0 : Int) - Format.binary64.targetExponent (totalExponent n 0)).toNat with hshift
  have hfew : shift ≤ 52 := by
    rw [hshift, targetExponent_eq, totalExponent]
    omega
  have hmantissa : n <<< shift < 2 ^ (64 + 52) := by
    rw [Nat.shiftLeft_eq, Nat.pow_add]
    calc n * 2 ^ shift ≤ n * 2 ^ 52 :=
          Nat.mul_le_mul_left _ (Nat.pow_le_pow_right Nat.two_pos hfew)
      _ < 2 ^ 64 * 2 ^ 52 := Nat.mul_lt_mul_of_pos_right h (Nat.two_pow_pos _)
  have hexponent : (0 : Int) - (shift : Int) ≤ 0 := by omega
  have hround := exponentAtMost_roundWithAccuracy hmantissa hexponent le_rfl sign
  cases hcases : UnpackedFloat.roundWithAccuracy Format.binary64 sign (n <<< shift)
      (0 - (shift : Int)) .exact with
  | finite sign mantissa exponent hmantissa =>
    rw [hcases] at hround
    have hlast : exponent ≤ 0 + ((64 + 52 : Nat) : Int) + (((64 + 52 : Nat) : Int) + 1) := hround
    show exponent ≤ 971
    omega
  | _ => rw [hcases] at hround; exact hround

/-- A count that is not zero is rounded. -/
theorem ofNat_eq_round {n : Nat} (hpos : 0 < n) :
    Float.Model.ofNat n
      = Float.Model.pack (UnpackedFloat.round Format.binary64 .positive n 0) := by
  have hcompare : compare (n : Int) 0 = .gt := by
    rw [Int.compare_eq_gt]
    omega
  rw [Float.Model.ofNat, UnpackedFloat.ofNat, UnpackedFloat.ofInt, UnpackedFloat.normalize,
    hcompare]
  rfl

theorem isFinite_ofNat {n : Nat} (h : n < 2 ^ 64) : (Float.Model.ofNat n).isFinite = true := by
  rcases Nat.eq_zero_or_pos n with rfl | hpos
  · exact isFinite_pack trivial
  · rw [ofNat_eq_round hpos]
    exact isFinite_pack (exponentAtMost_round h _)

theorem toNat_toUInt64 {n : Nat} (h : n < UInt64.size) : n.toUInt64.toNat = n := by
  rw [Nat.toUInt64, UInt64.toNat_ofNat', Nat.mod_eq_of_lt h]

/-- **A 64-bit word is a finite double.** -/
theorem isFinite_toFloat (n : UInt64) : n.toFloat.isFinite = true := isFinite_ofNat n.toNat_lt

theorem isFinite_wordToFloat (n : UInt16) : n.toFloat.isFinite = true :=
  isFinite_ofNat (n.toNat_lt.trans (by decide))

/-- **A count is a finite double.** -/
theorem isFinite_ofCount (n : Nat) : (ofCount n).isFinite = true := isFinite_toFloat _

/-! ### Counts that are not zero -/

/-- Dropping the digits that are too many leaves some, and at most 53. -/
theorem div_two_pow_log2 {mantissa : Nat} (hpos : 0 < mantissa) :
    0 < mantissa / 2 ^ (mantissa.log2 - 52) ∧ mantissa / 2 ^ (mantissa.log2 - 52) < 2 ^ 53 := by
  have hlow : 2 ^ mantissa.log2 ≤ mantissa := Nat.log2_self_le hpos.ne'
  have hhigh : mantissa < 2 ^ (mantissa.log2 + 1) := Nat.lt_log2_self
  constructor
  · refine Nat.div_pos (Nat.le_trans ?_ hlow) (Nat.two_pow_pos _)
    exact Nat.pow_le_pow_right Nat.two_pos (Nat.sub_le ..)
  · refine Nat.div_lt_of_lt_mul (hhigh.trans_le ?_)
    rw [← Nat.pow_add]
    exact Nat.pow_le_pow_right Nat.two_pos (by omega)

theorem shiftToTargetExponent_bounds (hpos : 0 < mantissa) (hexponent : -1000 ≤ exponent) :
    let shifted := UnpackedFloat.shiftToTargetExponent Format.binary64 mantissa exponent .exact
    (0 < shifted.1.mantissa ∧ shifted.1.mantissa < 2 ^ 53) ∧ exponent ≤ shifted.2 := by
  intro shifted
  have hcount : (Format.binary64.targetExponent (totalExponent mantissa exponent)
      - exponent).toNat = mantissa.log2 - 52 := by
    rw [targetExponent_eq, totalExponent]
    omega
  have hmantissa : shifted.1.mantissa = mantissa / 2 ^ (mantissa.log2 - 52) := by
    rw [← hcount]
    exact mantissa_shiftRight _ _
  refine ⟨hmantissa ▸ div_two_pow_log2 hpos, ?_⟩
  show exponent ≤ exponent + _
  omega

/-- The number is not zero, its mantissa has at most 53 digits and its exponent is not the least. -/
def IsSizable : UnpackedFloat → Prop
  | .finite _ mantissa exponent _ => mantissa < 2 ^ 53 ∧ -1000 ≤ exponent
  | _ => False

theorem isSizable_roundWithAccuracy (hpos : 0 < mantissa) (hexponent : -1000 ≤ exponent)
    (sign : UnpackedFloat.Sign) :
    IsSizable (UnpackedFloat.roundWithAccuracy Format.binary64 sign mantissa exponent .exact) := by
  obtain ⟨⟨hfirst, -⟩, hraised⟩ := shiftToTargetExponent_bounds hpos hexponent
  rw [UnpackedFloat.roundWithAccuracy]
  dsimp only
  set em := UnpackedFloat.shiftToTargetExponent Format.binary64 mantissa exponent .exact
  have hrounded : 0 < em.1.roundedMantissa := hfirst.trans_le (le_roundedMantissa em.1)
  obtain ⟨⟨hlast, hfew⟩, hagain⟩ := shiftToTargetExponent_bounds hrounded (hexponent.trans hraised)
  rw [dif_neg hlast.ne']
  exact ⟨hfew, by omega⟩

/-- A rounded word is not zero. -/
theorem isSizable_round {n : Nat} (hpos : 0 < n) (sign : UnpackedFloat.Sign) :
    IsSizable (UnpackedFloat.round Format.binary64 sign n 0) := by
  rw [UnpackedFloat.round]
  dsimp only [UnpackedFloat.decreaseExponent]
  refine isSizable_roundWithAccuracy ?_ ?_ sign
  · rw [Nat.shiftLeft_eq]
    exact Nat.mul_pos hpos (Nat.two_pow_pos _)
  · rw [targetExponent_eq, totalExponent]
    omega

theorem unpack_ne_zero {bits : BitVec Format.binary64.numBits}
    (h : UnpackedFloat.unpackExponent bits ≠ 0#_ ∨ UnpackedFloat.unpackMantissa bits ≠ 0#_)
    (sign : UnpackedFloat.Sign) :
    UnpackedFloat.unpack Format.binary64 bits ≠ .zero sign := by
  rw [UnpackedFloat.unpack]
  dsimp only
  split
  · split <;> nofun
  · split
    · next hexponent =>
      rw [dif_neg (h.resolve_left (not_not_intro hexponent))]
      nofun
    · nofun

/-- A number that is not too small is not packed as zero. -/
theorem unpack_pack_ne_zero {u : UnpackedFloat} (h : IsSizable u) (sign : UnpackedFloat.Sign) :
    (Float.Model.pack u).unpack ≠ .zero sign := by
  refine unpack_ne_zero ?_ sign
  show UnpackedFloat.unpackExponent (UnpackedFloat.pack Format.binary64 u) ≠ 0#_ ∨
    UnpackedFloat.unpackMantissa (UnpackedFloat.pack Format.binary64 u) ≠ 0#_
  cases u with
  | infinity sign | notANumber | zero sign => exact absurd h id
  | finite sign mantissa exponent hpos =>
    obtain ⟨hfew, hexponent⟩ := h
    rw [UnpackedFloat.pack]
    dsimp only
    rw [exponentBias_eq]
    split
    · left
      rw [UnpackedFloat.packedInfinity, UnpackedFloat.unpackExponent_packComponents]
      decide
    · split
      · -- The exponent of a normal number is stored above zero.
        left
        rw [UnpackedFloat.unpackExponent_packComponents]
        intro hall
        have hnat := congrArg BitVec.toNat hall
        simp only [BitVec.toNat_ofNat] at hnat
        omega
      · -- The mantissa of a subnormal number is stored whole.
        next hsubnormal =>
        right
        have hlog : mantissa.log2 < 53 := (Nat.log2_lt hpos.ne').mpr hfew
        rw [mantissaBits_eq] at hsubnormal
        have hshort : mantissa < 2 ^ 52 := (Nat.log2_lt hpos.ne').mp (by omega)
        rw [UnpackedFloat.unpackMantissa_packComponents]
        intro hall
        have hnat := congrArg BitVec.toNat hall
        simp only [BitVec.toNat_ofNat] at hnat
        omega

/-- **A count that is not zero** is not zero as a double. -/
theorem ofCount_ne_zero {n : Nat} (hpos : 0 < n) (hn : n < UInt64.size) :
    (ofCount n == 0.0) = false := by
  have hunpack (sign : UnpackedFloat.Sign) : (ofCount n).toModel.unpack ≠ .zero sign := by
    have hround : (ofCount n).toModel
        = Float.Model.pack (UnpackedFloat.round Format.binary64 .positive n 0) := by
      show Float.Model.ofNat n.toUInt64.toNat = _
      rw [toNat_toUInt64 hn, ofNat_eq_round hpos]
    rw [hround]
    exact unpack_pack_ne_zero (isSizable_round hpos _) sign
  have hzero : (0.0 : Float).toModel.unpack = .zero .positive := rfl
  show UnpackedFloat.beq (ofCount n).toModel.unpack (0.0 : Float).toModel.unpack = false
  rw [hzero, UnpackedFloat.beq]
  cases hunpacked : (ofCount n).toModel.unpack with
  | zero sign => exact absurd hunpacked (hunpack sign)
  | notANumber => rfl
  | infinity sign | finite sign => cases sign <;> rfl

/-! ### Doubles that are not finite -/

theorem isFinite_pack_eq_false {u : UnpackedFloat} (h : u.isFinite = false) :
    (Float.Model.pack u).isFinite = false := by
  refine Bool.eq_false_iff.mpr fun hfinite => ?_
  have hsmall := isFinite_pack_iff.mp hfinite
  cases u with
  | infinity sign | notANumber => exact hsmall
  | zero sign | finite sign => cases h

/-- **What is not finite stays so** when it is divided. -/
theorem isFinite_div_eq_false {x : Float} (hx : x.isFinite = false) (y : Float) :
    (x / y).isFinite = false := by
  have hdiv (u v : UnpackedFloat) (hu : u.isFinite = false) :
      (UnpackedFloat.div Format.binary64 u v).isFinite = false := by
    cases u with
    | infinity sign | notANumber => cases v <;> rfl
    | zero sign | finite sign => cases hu
  exact isFinite_pack_eq_false (hdiv x.toModel.unpack y.toModel.unpack hx)

end CellFormula.Number
