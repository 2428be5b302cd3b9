import CellFormula.Proofs.DoubleShape
import CellFormula.Proofs.NumeralGrammar

/-!
# Numbers past the largest double

Some decimals are too large for a double and are rounded to infinity. Which ones is settled by the
largest double and the power of two above it: what is less than halfway between the two is rounded
down to the largest double, and anything else is infinite. `overflowBound` is that half.

## Where the half comes from

Rounding keeps 53 digits and looks at the next one. So the mantissa that is kept, together with the
first digit that is dropped, is the number counted in halves of its last digit (`halves`), and no
later digit matters: the largest mantissa is odd, so a number exactly halfway goes up as well. Hence
a number at the last exponent stays finite if and only if it has fewer than `2 ^ 54 - 1` halves.

## How a decimal is read

A decimal is not rounded once in all cases. With few digits and a small exponent it is a whole
number multiplied with a power of ten, or divided by one, and both are doubles. Otherwise it is a
product or a quotient of two whole numbers of any length, and that is rounded once. Exponents that
are out of proportion are caught before any power is formed. The bound is the same on each of these
paths (`Decimal.isFinite_toFloat_iff`).

## Main definitions

* `overflowBound` — the least magnitude that is infinite
* `Decimal.value` — the rational that a decimal stands for

## Main results

* `isFinite_roundWithAccuracy_iff` — a rounded quotient
* `isFinite_mul_iff`, `isFinite_div_iff` — products and quotients of doubles
* `Numeral.isFinite_toFloat_iff` — numerals
* `isFinite_mul_percentFactor` — percent signs do not matter
-/

namespace CellFormula.Number

open Float.Model

/-! ### Halves -/

/-- Twice the number that a shifted mantissa stands for, without what the sticky bit stands for. -/
def halves (em : UnpackedFloat.ExtendedMantissa) : Nat := 2 * em.mantissa + em.roundBit.toNat

theorem halves_shiftRightOne (em : UnpackedFloat.ExtendedMantissa) :
    halves em.shiftRightOne = halves em / 2 := by
  obtain ⟨mantissa, round, sticky⟩ := em
  show 2 * (mantissa / 2) + (mantissa % 2 != 0).toNat = (2 * mantissa + round.toNat) / 2
  have hround := Bool.toNat_le round
  rcases Nat.mod_two_eq_zero_or_one mantissa with h | h <;> simp [h] <;> omega

/-- No half is lost when digits are dropped. -/
theorem halves_shiftRight (em : UnpackedFloat.ExtendedMantissa) (count : Nat) :
    halves (em >>> count) = halves em / 2 ^ count := by
  show halves (count.repeat UnpackedFloat.ExtendedMantissa.shiftRightOne em) = _
  induction count with
  | zero => exact (Nat.div_one _).symm
  | succ count ih =>
    rw [Nat.pow_succ, ← Nat.div_div_eq_div_mul, ← ih]
    exact halves_shiftRightOne _

theorem mantissa_eq_halves (em : UnpackedFloat.ExtendedMantissa) : em.mantissa = halves em / 2 := by
  have hround := Bool.toNat_le em.roundBit
  rw [halves]
  omega

/-- The halves of a quotient whose fraction is known by its accuracy. -/
theorem halves_accuracyOfFraction (n : Nat) {d : Nat} (hd : 0 < d) :
    halves (.ofMantissaAndAccuracy (n / d) (UnpackedFloat.accuracyOfFraction (n % d) d))
      = 2 * n / d := by
  have hlt := Nat.mod_lt n hd
  have hsplit : 2 * n = 2 * (n % d) + d * (2 * (n / d)) := by
    have := Nat.mod_add_div n d
    linarith
  rw [hsplit, Nat.add_mul_div_left _ _ hd, UnpackedFloat.accuracyOfFraction]
  split
  · next hzero =>
    rw [hzero]
    simp [halves, UnpackedFloat.ExtendedMantissa.ofMantissaAndAccuracy]
  · cases hcompare : compare (2 * (n % d)) d with
    | lt =>
      rw [Nat.compare_eq_lt] at hcompare
      rw [Nat.div_eq_of_lt hcompare, Nat.zero_add]
      rfl
    | eq =>
      rw [Nat.compare_eq_eq] at hcompare
      rw [hcompare, Nat.div_self hd, Nat.add_comm]
      rfl
    | gt =>
      rw [Nat.compare_eq_gt] at hcompare
      have hone : 2 * (n % d) / d = 1 := Nat.div_eq_of_lt_le (by omega) (by omega)
      rw [hone, Nat.add_comm]
      rfl

/-- A mantissa of 53 digits is rounded to one more digit if no half is missing. -/
theorem roundedMantissa_lt_iff {em : UnpackedFloat.ExtendedMantissa} (h : em.mantissa < 2 ^ 53) :
    em.roundedMantissa < 2 ^ 53 ↔ halves em < 2 ^ 54 - 1 := by
  obtain ⟨mantissa, round, sticky⟩ := em
  change mantissa < 2 ^ 53 at h
  cases round <;> cases sticky <;>
    simp only [halves, UnpackedFloat.ExtendedMantissa.roundedMantissa,
      UnpackedFloat.ExtendedMantissa.accuracy, UnpackedFloat.Accuracy.roundToNearestEven,
      Bool.toNat_false, Bool.toNat_true] <;>
    omega

/-! ### Numbers past the largest double -/

/-- The least magnitude that is rounded past the largest double: halfway between the largest double
and the power of two above it. -/
def overflowBound : ℚ := 2 ^ 1024 - 2 ^ 970

theorem overflowBound_eq : overflowBound = (2 ^ 54 - 1) * 2 ^ (970 : Int) := by
  have hpow : (2 : ℚ) ^ 1024 = 2 ^ 54 * 2 ^ 970 := pow_add 2 54 970
  rw [overflowBound, hpow, sub_mul, one_mul]
  rfl

/-- A rounded mantissa with its exponent, a carry included, stays below the exponent of infinity. -/
theorem exponentAtMost_carried_iff {em : UnpackedFloat.ExtendedMantissa} {exponent : Int}
    (hmantissa : em.mantissa < 2 ^ 53) (hlarge : 971 < exponent → em.mantissa ≠ 0)
    (sign : UnpackedFloat.Sign) :
    ExponentAtMost 971
        (if h : em.roundedMantissa = 0 then .zero sign
          else if em.roundedMantissa < 2 ^ 53 then
            .finite sign em.roundedMantissa exponent (Nat.pos_of_ne_zero h)
          else .finite sign (2 ^ 52) (exponent + 1) (by decide)) ↔
      exponent < 971 ∨ exponent = 971 ∧ halves em < 2 ^ 54 - 1 := by
  have hle := le_roundedMantissa em
  rw [← roundedMantissa_lt_iff hmantissa]
  split
  · next hzero =>
    refine iff_of_true trivial ?_
    have := mt hlarge
    omega
  · split
    · show exponent ≤ 971 ↔ _
      omega
    · show exponent + 1 ≤ 971 ↔ _
      omega

section

variable {n d : Nat} {exponent : Int}

/-- A quotient, with the digits dropped that a double does not have. -/
def droppedQuotient (n d : Nat) (exponent : Int) : UnpackedFloat.ExtendedMantissa × Int :=
  UnpackedFloat.shiftToTargetExponent Format.binary64 (n / d) exponent
    (UnpackedFloat.accuracyOfFraction (n % d) d)

theorem droppedQuotient_exponent (n d : Nat) (exponent : Int) :
    (droppedQuotient n d exponent).2 = exponent + dropped (n / d) exponent := rfl

theorem mantissa_droppedQuotient (n d : Nat) (exponent : Int) :
    (droppedQuotient n d exponent).1.mantissa = n / d / 2 ^ dropped (n / d) exponent :=
  mantissa_dropped _ _ _

/-- The halves of the rounded quotient are those of the quotient, in units of the last digit. -/
theorem halves_droppedQuotient_lt_iff (n : Nat) (hd : 0 < d) (exponent : Int) (k : Nat) :
    halves (droppedQuotient n d exponent).1 < k ↔
      2 * ((n : ℚ) / d * 2 ^ exponent) < k * 2 ^ (droppedQuotient n d exponent).2 := by
  set count := dropped (n / d) exponent
  have hhalves : halves (droppedQuotient n d exponent).1 = 2 * n / (d * 2 ^ count) := by
    rw [droppedQuotient, shiftToTargetExponent_eq, halves_shiftRight,
      halves_accuracyOfFraction n hd, Nat.div_div_eq_div_mul]
  have hd' : (0 : ℚ) < d := Nat.cast_pos.mpr hd
  have hunit : (0 : ℚ) < 2 ^ exponent := zpow_pos two_pos _
  have hvalue : 2 * ((n : ℚ) / d * 2 ^ exponent) = 2 * n / d * 2 ^ exponent := by ring
  have hshifted : (k : ℚ) * 2 ^ (droppedQuotient n d exponent).2
      = k * 2 ^ count * 2 ^ exponent := by
    rw [droppedQuotient_exponent, zpow_add₀ two_ne_zero, zpow_natCast]
    ring
  have hcast : ((2 * n : Nat) : ℚ) < ((k * (d * 2 ^ count) : Nat) : ℚ)
      ↔ 2 * n < k * (d * 2 ^ count) := Nat.cast_lt
  rw [hhalves, hvalue, hshifted, mul_lt_mul_iff_left₀ hunit, div_lt_iff₀ hd',
    Nat.div_lt_iff_lt_mul (Nat.mul_pos hd (Nat.two_pow_pos _)), ← hcast]
  push_cast
  rw [mul_assoc (k : ℚ), mul_comm (d : ℚ)]

/-- Where the exponent is too large, the quotient had enough digits to drop some. -/
theorem le_mantissa_droppedQuotient (hexponent : exponent ≤ 971)
    (hlarge : 971 < (droppedQuotient n d exponent).2) :
    2 ^ 52 ≤ (droppedQuotient n d exponent).1.mantissa := by
  rw [droppedQuotient_exponent] at hlarge
  rw [mantissa_droppedQuotient]
  exact le_div_dropped (by omega) (by omega)

/-- **A rounded quotient is a finite double** exactly if the quotient is less than the bound. -/
theorem isFinite_roundWithAccuracy_iff (n : Nat) (hd : 0 < d) (hexponent : exponent ≤ 971)
    (sign : UnpackedFloat.Sign) :
    (Float.Model.pack (UnpackedFloat.roundWithAccuracy Format.binary64 sign (n / d) exponent
        (UnpackedFloat.accuracyOfFraction (n % d) d))).isFinite = true ↔
      (n : ℚ) / d * 2 ^ exponent < overflowBound := by
  have hhalves := halves_droppedQuotient_lt_iff n hd exponent
  have hlarge := le_mantissa_droppedQuotient (n := n) (d := d) hexponent
  have hmantissa : (droppedQuotient n d exponent).1.mantissa < 2 ^ 53 :=
    (mantissa_droppedQuotient n d exponent).trans_lt (div_dropped_lt _ _)
  have hround := exponentAtMost_carried_iff hmantissa
    (fun h => (Nat.two_pow_pos 52 |>.trans_le (hlarge h)).ne') sign
  rw [isFinite_pack_iff, roundWithAccuracy_eq, overflowBound_eq]
  refine hround.trans ?_
  generalize droppedQuotient n d exponent = first at hhalves hlarge hmantissa
  generalize (n : ℚ) / d * 2 ^ exponent = value at hhalves
  obtain ⟨unit, hunit⟩ : ∃ unit : ℚ, unit = 2 ^ (970 : Int) := ⟨_, rfl⟩
  have hpos : 0 < unit := hunit ▸ zpow_pos two_pos _
  rw [← hunit]
  rcases lt_trichotomy first.2 971 with hbelow | hat | habove
  · -- Below the last exponent there is room for any mantissa.
    have hvalue := (hhalves (2 ^ 54)).mp (by rw [mantissa_eq_halves] at hmantissa; omega)
    have hlast : (2 : ℚ) ^ first.2 ≤ unit := hunit ▸ zpow_le_zpow_right₀ one_le_two (by omega)
    refine iff_of_true (.inl hbelow) ?_
    push_cast at hvalue
    linarith only [hvalue, hlast, hpos]
  · -- At the last exponent a carry decides.
    have hlast : (2 : ℚ) ^ first.2 = 2 * unit := by
      rw [hat, hunit, ← zpow_one_add₀ two_ne_zero]
      rfl
    have hvalue := hhalves (2 ^ 54 - 1)
    rw [hlast] at hvalue
    push_cast at hvalue
    constructor
    · rintro (hlt | ⟨-, hlt⟩)
      · omega
      · linarith [hvalue.mp hlt]
    · intro hlt
      exact .inr ⟨hat, hvalue.mpr (by linarith)⟩
  · -- Above it the mantissa alone is too large.
    have hvalue : ¬ 2 * value < ((2 ^ 53 : Nat) : ℚ) * 2 ^ first.2 := by
      rw [← hhalves]
      have := hlarge habove
      rw [mantissa_eq_halves] at this
      omega
    have hlast : 2 ^ 2 * unit ≤ (2 : ℚ) ^ first.2 := by
      rw [hunit, ← zpow_natCast, ← zpow_add₀ two_ne_zero]
      exact zpow_le_zpow_right₀ one_le_two (by push_cast; omega)
    refine iff_of_false (by omega) fun hlt => hvalue ?_
    push_cast
    linarith only [hlt, hlast, hpos]

end

/-! ### Products and quotients -/

section

variable {s₁ s₂ : UnpackedFloat.Sign} {m₁ m₂ : Nat} {e₁ e₂ : Int} {h₁ : 0 < m₁} {h₂ : 0 < m₂}

/-- **A product is a finite double** exactly if it is less than the bound. -/
theorem isFinite_mul_iff (hexponent : e₁ + e₂ ≤ 971) :
    (Float.Model.pack (UnpackedFloat.mul Format.binary64 (.finite s₁ m₁ e₁ h₁)
        (.finite s₂ m₂ e₂ h₂))).isFinite = true ↔
      (m₁ : ℚ) * 2 ^ e₁ * (m₂ * 2 ^ e₂) < overflowBound := by
  have hround := isFinite_roundWithAccuracy_iff (m₁ * m₂) Nat.one_pos hexponent (s₁ * s₂)
  have hvalue : (m₁ : ℚ) * 2 ^ e₁ * (m₂ * 2 ^ e₂)
      = ((m₁ * m₂ : Nat) : ℚ) / ((1 : Nat) : ℚ) * 2 ^ (e₁ + e₂) := by
    rw [zpow_add₀ two_ne_zero]
    push_cast
    ring
  rw [hvalue, ← hround, Nat.mod_one, Nat.div_one]
  rfl

/-- **A quotient is a finite double** exactly if it is less than the bound. -/
theorem isFinite_div_iff (hexponent : e₁ - e₂ ≤ 971) :
    (Float.Model.pack (UnpackedFloat.div Format.binary64 (.finite s₁ m₁ e₁ h₁)
        (.finite s₂ m₂ e₂ h₂))).isFinite = true ↔
      (m₁ : ℚ) * 2 ^ e₁ / (m₂ * 2 ^ e₂) < overflowBound := by
  -- Digits are added to the dividend before it is divided, and the exponent is lowered by as many.
  obtain ⟨target, htarget, hdiv⟩ : ∃ target ≤ e₁ - e₂,
      UnpackedFloat.div Format.binary64 (.finite s₁ m₁ e₁ h₁) (.finite s₂ m₂ e₂ h₂)
        = UnpackedFloat.roundWithAccuracy Format.binary64 (s₁ / s₂)
          ((m₁ <<< (e₁ - e₂ - target).toNat) / m₂) target
          (UnpackedFloat.accuracyOfFraction ((m₁ <<< (e₁ - e₂ - target).toNat) % m₂) m₂) :=
    ⟨_, min_le_left _ _, rfl⟩
  obtain ⟨added, hadded⟩ := Int.eq_ofNat_of_zero_le (sub_nonneg.mpr htarget)
  have hround := isFinite_roundWithAccuracy_iff (m₁ <<< (e₁ - e₂ - target).toNat) h₂
    (htarget.trans hexponent) (s₁ / s₂)
  have hvalue : (m₁ : ℚ) * 2 ^ e₁ / (m₂ * 2 ^ e₂)
      = ((m₁ <<< (e₁ - e₂ - target).toNat : Nat) : ℚ) / m₂ * 2 ^ target := by
    have hexponents : e₁ = added + target + e₂ := by omega
    rw [hadded, Int.toNat_natCast, Nat.shiftLeft_eq, hexponents, zpow_add₀ two_ne_zero,
      zpow_add₀ two_ne_zero, zpow_natCast]
    push_cast
    field_simp
  rw [hdiv, hround, hvalue]

end

/-! ### Decimals -/

theorem two_pow_le_overflowBound {count : Int} (h : count ≤ 1023) :
    (2 : ℚ) ^ count ≤ overflowBound := by
  have hunit : (0 : ℚ) ≤ 2 ^ (970 : Int) := zpow_nonneg zero_le_two _
  calc (2 : ℚ) ^ count ≤ 2 ^ (53 + 970 : Int) := zpow_le_zpow_right₀ one_le_two h
    _ = 2 ^ 53 * 2 ^ (970 : Int) := zpow_add₀ two_ne_zero 53 970
    _ ≤ overflowBound := by
        rw [overflowBound_eq]
        exact mul_le_mul_of_nonneg_right (by norm_num) hunit

theorem overflowBound_le_two_pow {count : Nat} (h : 1024 ≤ count) : overflowBound ≤ 2 ^ count := by
  calc overflowBound ≤ 2 ^ 1024 := sub_le_self _ (pow_nonneg zero_le_two _)
    _ ≤ 2 ^ count := pow_le_pow_right₀ one_le_two h

/-- A decimal with so large an exponent is past the largest double, whatever its digits are. -/
theorem overflowBound_le_of_exponent {digits : Nat} (hpos : 0 < digits) {exponent : Int}
    (hlarge : 1024 ≤ exponent) : overflowBound ≤ (digits : ℚ) * 10 ^ exponent := by
  obtain ⟨count, rfl⟩ := Int.eq_ofNat_of_zero_le (by omega : 0 ≤ exponent)
  have hdigits : (1 : ℚ) ≤ digits := Nat.one_le_cast.mpr hpos
  calc overflowBound ≤ 2 ^ count := overflowBound_le_two_pow (by omega)
    _ ≤ 1 * 10 ^ count := by
        rw [one_mul]
        exact pow_le_pow_left₀ zero_le_two (by norm_num) count
    _ ≤ digits * 10 ^ (count : Int) := by
        rw [zpow_natCast]
        exact mul_le_mul_of_nonneg_right hdigits (pow_nonneg (by norm_num) count)

/-- A decimal whose exponent drops all of its digits is less than one. -/
theorem lt_overflowBound_of_exponent {digits : Nat} {exponent : Int}
    (hsmall : exponent < -(digits.log2 : Int)) : (digits : ℚ) * 10 ^ exponent < overflowBound := by
  obtain ⟨count, hcount⟩ := Int.eq_ofNat_of_zero_le (by omega : 0 ≤ -exponent)
  obtain rfl : exponent = -(count : Int) := by omega
  have hdigits : digits < 10 ^ count := by
    calc digits < 2 ^ (digits.log2 + 1) := Nat.lt_log2_self
      _ ≤ 2 ^ count := Nat.pow_le_pow_right Nat.two_pos (by omega)
      _ ≤ 10 ^ count := Nat.pow_le_pow_left (by decide) count
  calc (digits : ℚ) * 10 ^ (-(count : Int)) = digits / 10 ^ count := by
        rw [zpow_neg, zpow_natCast, div_eq_mul_inv]
    _ < 1 := by
        rw [div_lt_one (pow_pos (by norm_num) count)]
        exact_mod_cast hdigits
    _ = 2 ^ (0 : Int) := (zpow_zero 2).symm
    _ ≤ overflowBound := two_pow_le_overflowBound (by decide)

/-- **A decimal that is rounded at once is a finite double** exactly if it is less than the
bound. -/
theorem isFinite_ofScientific_iff (digits : Nat) (exponent : Int) :
    (Float.Model.ofScientific digits exponent).isFinite = true ↔
      (digits : ℚ) * 10 ^ exponent < overflowBound := by
  have hbits : (2 : Int) ^ Format.binary64.exponentBits = 2048 := by decide
  rw [Float.Model.ofScientific, UnpackedFloat.ofScientific, hbits]
  split
  · next hzero =>
    rw [hzero, Nat.cast_zero, zero_mul]
    exact iff_of_true (isFinite_pack trivial)
      ((zpow_pos two_pos 0).trans_le (two_pow_le_overflowBound (by decide)))
  · next hdigits =>
    split
    · next hlarge =>
      rw [isFinite_pack_iff]
      exact iff_of_false id
        (overflowBound_le_of_exponent (Nat.pos_of_ne_zero hdigits) (by omega)).not_gt
    · split
      · next hsmall =>
        exact iff_of_true (isFinite_pack trivial) (lt_overflowBound_of_exponent (by omega))
      · split
        · next hexponent =>
          obtain ⟨count, rfl⟩ := Int.eq_ofNat_of_zero_le hexponent
          refine (isFinite_mul_iff (by decide)).trans ?_
          show ((digits <<< 53 : Nat) : ℚ) * 2 ^ (-(53 : Nat) : Int)
            * ((10 ^ count : Nat) * 2 ^ (0 : Int)) < overflowBound ↔ _
          have hvalue : ((digits <<< 53 : Nat) : ℚ) * 2 ^ (-(53 : Nat) : Int)
              * ((10 ^ count : Nat) * 2 ^ (0 : Int)) = digits * 10 ^ (count : Int) := by
            rw [Nat.shiftLeft_eq, zpow_neg, zpow_zero, zpow_natCast, zpow_natCast]
            push_cast
            field_simp
            norm_num
          rw [hvalue]
        · next hexponent =>
          obtain ⟨count, hcount⟩ := Int.eq_ofNat_of_zero_le (by omega : 0 ≤ -exponent)
          obtain rfl : exponent = -(count : Int) := by omega
          refine (isFinite_div_iff (by decide)).trans ?_
          have hvalue : (digits : ℚ) * 2 ^ (0 : Int)
              / ((10 ^ (-(-(count : Int))).toNat : Nat) * 2 ^ (0 : Int))
                = digits * 10 ^ (-(count : Int)) := by
            rw [neg_neg, Int.toNat_natCast, zpow_zero, mul_one, mul_one, zpow_neg, zpow_natCast,
              div_eq_mul_inv]
            push_cast
            rfl
          rw [hvalue]

/-! ### Small decimals -/

/-- The number is finite and not zero, its mantissa has 53 digits, and its exponent is in a
range. -/
def IsModerate (least greatest : Int) : UnpackedFloat → Prop
  | .finite _ mantissa exponent _ => 2 ^ 52 ≤ mantissa ∧ least ≤ exponent ∧ exponent ≤ greatest
  | .zero _ | .infinity _ | .notANumber => False

instance (least greatest : Int) : DecidablePred (IsModerate least greatest)
  | .finite _ mantissa exponent _ =>
    inferInstanceAs (Decidable (2 ^ 52 ≤ mantissa ∧ least ≤ exponent ∧ exponent ≤ greatest))
  | .zero _ | .infinity _ | .notANumber => inferInstanceAs (Decidable False)

theorem isModerate_powerOfTen : ∀ e : Fin 23,
    IsModerate (-52) 21 (Float.exactlyRepresentablePowersOfTen[e]).toModel.unpack := by
  decide

/-- A number with 53 digits and a small exponent is at least one and not very large. -/
theorem IsModerate.bounds {mantissa : Nat} {exponent : Int} {sign : UnpackedFloat.Sign}
    {hpos : 0 < mantissa} (h : IsModerate (-52) 21 (.finite sign mantissa exponent hpos))
    (hmantissa : mantissa < 2 ^ 53) :
    1 ≤ (mantissa : ℚ) * 2 ^ exponent ∧ (mantissa : ℚ) * 2 ^ exponent < 2 ^ (74 : Int) := by
  obtain ⟨hfull, hleast, hgreatest⟩ := h
  constructor
  · calc (1 : ℚ) = 2 ^ 52 * 2 ^ (-52 : Int) := by norm_num
      _ ≤ mantissa * 2 ^ exponent := by
          refine mul_le_mul ?_ (zpow_le_zpow_right₀ one_le_two hleast) (by positivity)
            (by positivity)
          exact_mod_cast hfull
  · calc (mantissa : ℚ) * 2 ^ exponent < 2 ^ 53 * 2 ^ exponent := by
          refine mul_lt_mul_of_pos_right ?_ (zpow_pos two_pos _)
          exact_mod_cast hmantissa
      _ ≤ 2 ^ 53 * 2 ^ (21 : Int) :=
          mul_le_mul_of_nonneg_left (zpow_le_zpow_right₀ one_le_two hgreatest) (by positivity)
      _ = 2 ^ (74 : Int) := by norm_num

/-- The powers of ten that are doubles are neither small nor very large. -/
theorem exists_unpack_powerOfTen {e : Nat} (he : e < Float.exactlyRepresentablePowersOfTen.size) :
    ∃ sign mantissa exponent h, Float.exactlyRepresentablePowersOfTen[e].toModel.unpack
        = .finite sign mantissa exponent h ∧ -52 ≤ exponent ∧ exponent ≤ 21 ∧
      1 ≤ (mantissa : ℚ) * 2 ^ exponent ∧ (mantissa : ℚ) * 2 ^ exponent < 2 ^ (74 : Int) := by
  have hmoderate : IsModerate (-52) 21 Float.exactlyRepresentablePowersOfTen[e].toModel.unpack :=
    isModerate_powerOfTen ⟨e, he⟩
  have hshape := hasShape_unpack Float.exactlyRepresentablePowersOfTen[e].toModel
  cases hpower : Float.exactlyRepresentablePowersOfTen[e].toModel.unpack with
  | zero sign | infinity sign | notANumber =>
    rw [hpower] at hmoderate
    exact absurd hmoderate id
  | finite sign mantissa exponent hpos =>
    rw [hpower] at hmoderate hshape
    exact ⟨sign, mantissa, exponent, hpos, rfl, hmoderate.2.1, hmoderate.2.2,
      hmoderate.bounds hshape.lt⟩

/-- A whole number of at most 53 digits, multiplied with a small power of ten or divided by one, is
finite. -/
theorem isFinite_scaled {n e : Nat} (hn : n < 2 ^ 53) (he : e ≤ 22) (divides : Bool) :
    (Float.ofScientific n divides e).isFinite = true := by
  have hsmall : n < 2 ^ 53 ∧ e ≤ 22 := ⟨hn, he⟩
  have hindex : e < Float.exactlyRepresentablePowersOfTen.size := Nat.lt_succ_of_le he
  obtain ⟨sign, mantissa, exponent, _, hpower, hleast, hgreatest, hone, hfew⟩ :=
    exists_unpack_powerOfTen hindex
  rw [Float.ofScientific, dif_pos hsmall]
  dsimp only
  generalize Float.exactlyRepresentablePowersOfTen[e] = power at hpower
  have hmul : (n.toUInt64.toFloat * power).isFinite = (Float.Model.pack (UnpackedFloat.mul
      Format.binary64 n.toUInt64.toFloat.toModel.unpack power.toModel.unpack)).isFinite := rfl
  have hdiv : (n.toUInt64.toFloat / power).isFinite = (Float.Model.pack (UnpackedFloat.div
      Format.binary64 n.toUInt64.toFloat.toModel.unpack power.toModel.unpack)).isFinite := rfl
  rcases Nat.eq_zero_or_pos n with rfl | hpos
  · have hzero : (0 : Nat).toUInt64.toFloat.toModel.unpack = .zero .positive := rfl
    cases divides
    · rw [if_neg Bool.false_ne_true, hmul, hzero, hpower]
      exact isFinite_pack trivial
    · rw [if_pos rfl, hdiv, hzero, hpower]
      exact isFinite_pack trivial
  · obtain ⟨_, _, _, hunpack, -, hlow, hhigh, hvalue⟩ :=
      exists_unpack_ofNat hpos hn (Nat.zero_le 971)
    have hwhole : n.toUInt64.toFloat.toModel = Float.Model.ofNat n := by
      show Float.Model.ofNat n.toUInt64.toNat = _
      rw [toNat_toUInt64 (hn.trans (by decide))]
    rw [Nat.pow_zero, Nat.mul_one, ← hwhole] at hunpack
    rw [Nat.pow_zero, Nat.mul_one] at hvalue
    have hlt : (n : ℚ) < 2 ^ (53 : Int) := by exact_mod_cast hn
    cases divides
    · rw [if_neg Bool.false_ne_true, hmul, hunpack, hpower, isFinite_mul_iff (by omega), hvalue]
      calc (n : ℚ) * (mantissa * 2 ^ exponent) < 2 ^ (53 : Int) * 2 ^ (74 : Int) :=
            mul_lt_mul'' hlt hfew (Nat.cast_nonneg n) (by linarith only [hone])
        _ = 2 ^ (127 : Int) := (zpow_add₀ two_ne_zero 53 74).symm
        _ ≤ overflowBound := two_pow_le_overflowBound (by decide)
    · rw [if_pos rfl, hdiv, hunpack, hpower, isFinite_div_iff (by omega), hvalue]
      calc (n : ℚ) / (mantissa * 2 ^ exponent) ≤ n := div_le_self (Nat.cast_nonneg n) hone
        _ < 2 ^ (53 : Int) := hlt
        _ ≤ overflowBound := two_pow_le_overflowBound (by decide)

/-! ### Numerals -/

/-- The number that a decimal stands for. -/
def Decimal.value (d : Decimal) : ℚ := d.digits * 10 ^ d.exponent

theorem Decimal.value_lt_overflowBound {d : Decimal} (hdigits : d.digits < 2 ^ 53)
    (hexponent : d.exponent ≤ 22) : d.value < overflowBound := by
  have hlt : (d.digits : ℚ) < 2 ^ (53 : Int) := by exact_mod_cast hdigits
  have hpower : (10 : ℚ) ^ d.exponent < 2 ^ (74 : Int) :=
    (zpow_le_zpow_right₀ (by norm_num) hexponent).trans_lt (by norm_num)
  calc d.value < 2 ^ (53 : Int) * 2 ^ (74 : Int) :=
        mul_lt_mul'' hlt hpower (Nat.cast_nonneg _) (zpow_nonneg (by norm_num) _)
    _ = 2 ^ (127 : Int) := (zpow_add₀ two_ne_zero 53 74).symm
    _ ≤ overflowBound := two_pow_le_overflowBound (by decide)

/-- **The double nearest to a decimal is finite** exactly if the decimal is less than the bound. -/
theorem Decimal.isFinite_toFloat_iff (d : Decimal) :
    d.toFloat.isFinite = true ↔ d.value < overflowBound := by
  by_cases hsmall : d.digits < 2 ^ 53 ∧ d.exponent.natAbs ≤ 22
  · exact iff_of_true (isFinite_scaled hsmall.1 hsmall.2 _)
      (value_lt_overflowBound hsmall.1 (by omega))
  · have hexponent : (if decide (d.exponent < 0) = true then Int.negOfNat d.exponent.natAbs
        else Int.ofNat d.exponent.natAbs) = d.exponent := by
      split
      · next hnegative =>
        rw [decide_eq_true_eq] at hnegative
        rw [Int.negOfNat_eq]
        show -(d.exponent.natAbs : Int) = d.exponent
        omega
      · next hnegative =>
        rw [decide_eq_true_eq] at hnegative
        show (d.exponent.natAbs : Int) = d.exponent
        omega
    rw [toFloat, Float.ofScientific, dif_neg hsmall]
    dsimp only
    rw [hexponent]
    exact isFinite_ofScientific_iff d.digits d.exponent

/-- **The double nearest to a numeral is finite** exactly if its magnitude is less than the
bound. -/
theorem Numeral.isFinite_toFloat_iff (n : Numeral) :
    n.toFloat.isFinite = true ↔ n.magnitude.value < overflowBound := by
  rw [← n.magnitude.isFinite_toFloat_iff, toFloat]
  split
  · rw [isFinite_neg]
  · exact Iff.rfl

/-- The factor of a percent sign, and the factor without one, are not above one. -/
theorem exists_unpack_percentFactor (percent : Bool) :
    ∃ mantissa exponent h, (percentFactor percent).toModel.unpack
        = .finite .positive mantissa exponent h ∧ exponent ≤ 0 ∧
      (mantissa : ℚ) * 2 ^ exponent ≤ 1 := by
  cases percent
  · exact ⟨2 ^ 52, -52, by decide, rfl, by decide, by norm_num⟩
  · exact ⟨5764607523034235, -59, by decide, rfl, by decide, by norm_num⟩

/-- The largest double is less than the bound. -/
theorem IsDouble.value_lt {mantissa : Nat} {exponent : Int} (h : IsDouble mantissa exponent) :
    (mantissa : ℚ) * 2 ^ exponent < overflowBound := by
  have hmantissa : (mantissa : ℚ) ≤ 2 ^ 53 - 1 := by
    rw [le_sub_iff_add_le]
    exact_mod_cast h.lt
  have hunit : (0 : ℚ) < 2 ^ (970 : Int) := zpow_pos two_pos _
  calc (mantissa : ℚ) * 2 ^ exponent ≤ (2 ^ 53 - 1) * 2 ^ (1 + 970 : Int) :=
        mul_le_mul hmantissa (zpow_le_zpow_right₀ one_le_two h.greatest) (by positivity)
          (by norm_num)
    _ = (2 ^ 53 - 1) * 2 * 2 ^ (970 : Int) := by
        rw [zpow_one_add₀ two_ne_zero, mul_assoc]
    _ < overflowBound := by
        rw [overflowBound_eq]
        exact mul_lt_mul_of_pos_right (by norm_num) hunit

/-- **Multiplying with the factor of a percent sign** neither makes a number infinite nor finite. -/
theorem isFinite_mul_percentFactor (x : Float) (percent : Bool) :
    (x * percentFactor percent).isFinite = x.isFinite := by
  obtain ⟨mantissa, exponent, hpos, hfactor, hexponent, hone⟩ :=
    exists_unpack_percentFactor percent
  have hmul : (x * percentFactor percent).isFinite = (Float.Model.pack (UnpackedFloat.mul
      Format.binary64 x.toModel.unpack (percentFactor percent).toModel.unpack)).isFinite := rfl
  have hfinite : x.isFinite = x.toModel.unpack.isFinite := rfl
  have hshape := hasShape_unpack x.toModel
  rw [hmul, hfinite, hfactor]
  cases hx : x.toModel.unpack with
  | infinity sign | notANumber => exact isFinite_pack_eq_false rfl
  | zero sign => exact isFinite_pack trivial
  | finite sign m e h =>
    rw [hx] at hshape
    have hdouble : IsDouble m e := hshape
    have hgreatest := hdouble.greatest
    refine (isFinite_mul_iff (by omega)).mpr ?_
    calc (m : ℚ) * 2 ^ e * (mantissa * 2 ^ exponent) ≤ m * 2 ^ e :=
          mul_le_of_le_one_right (by positivity) hone
      _ < overflowBound := hdouble.value_lt

end CellFormula.Number
