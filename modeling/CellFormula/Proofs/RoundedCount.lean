import CellFormula.Proofs.WholePart

/-!
# Counts as doubles

A count has up to 64 digits and a double has 53, so a count above `2 ^ 53` is rounded when it
becomes a double, up or down. Rounding does not go past a double: a double that is not above the
count is not above the rounded count either. So whoever compares a double with a count that became a
double cannot miss a number up to the count, but may take one for such a number that is a little
above it.

## Main results

* `rational?_ofCount` — a count up to `2 ^ 53` is not rounded
* `exists_rational?_ofCount` — rounding a count does not go below a double
-/

namespace CellFormula.Number

open Float.Model

variable {n : Nat}

theorem toModel_ofCount (hn : n < UInt64.size) : (ofCount n).toModel = Float.Model.ofNat n := by
  show Float.Model.ofNat n.toUInt64.toNat = _
  rw [toNat_toUInt64 hn]

/-- **A count up to `2 ^ 53` is not rounded.** -/
theorem rational?_ofCount (h : n ≤ 2 ^ 53) : rational? (ofCount n) = some (n : ℚ) := by
  rcases Nat.eq_zero_or_pos n with rfl | hpos
  · rfl
  obtain ⟨digits, zeros, hdigits, hlt, hzeros, hn⟩ : ∃ digits zeros : Nat, 0 < digits ∧
      digits < 2 ^ 53 ∧ zeros ≤ 971 ∧ n = digits * 2 ^ zeros := by
    obtain hlt | rfl := h.lt_or_eq
    · exact ⟨n, 0, hpos, hlt, by decide, (Nat.mul_one n).symm⟩
    · exact ⟨1, 53, Nat.one_pos, by decide, by decide, (Nat.one_mul _).symm⟩
  obtain ⟨mantissa, exponent, hmantissa, hunpack, -, -, -, hvalue⟩ :=
    exists_unpack_ofNat hdigits hlt hzeros
  have hsize : n < UInt64.size := h.trans_lt (by decide)
  rw [rational?, toModel_ofCount hsize, hn, hunpack, ← hvalue]
  rfl

/-- **What rounding leaves of a long count** is not less than its first 53 digits. -/
theorem exists_unpack_ofCount (hlow : 2 ^ 53 ≤ n) (hn : n < UInt64.size) :
    ∃ count mantissa exponent h, 2 ^ 52 ≤ n / 2 ^ count ∧
      (ofCount n).toModel.unpack = .finite .positive mantissa exponent h ∧
      ((n / 2 ^ count : Nat) : ℚ) * 2 ^ count ≤ mantissa * 2 ^ exponent := by
  have hlog : 53 ≤ n.log2 := (Nat.le_log2 (by omega)).mpr hlow
  have hfew : n.log2 < 64 := (Nat.log2_lt (by omega)).mpr hn
  have hdropped : dropped n 0 = n.log2 - 52 := by
    rw [dropped_eq]
    omega
  have hfull : 2 ^ 52 ≤ n / 2 ^ dropped n 0 := le_div_dropped (by omega) (by omega)
  -- No zeros are added in front of the rounding.
  have hround : UnpackedFloat.round Format.binary64 .positive n 0
      = UnpackedFloat.roundWithAccuracy Format.binary64 .positive n 0 .exact := by
    have hadded : ((0 : Int) - Format.binary64.targetExponent (totalExponent n 0)).toNat = 0 := by
      rw [targetExponent_eq, totalExponent]
      omega
    rw [UnpackedFloat.round]
    dsimp only [UnpackedFloat.decreaseExponent]
    rw [hadded]
    rfl
  set first := UnpackedFloat.shiftToTargetExponent Format.binary64 n 0 .exact with hfirst
  have hmantissa : first.1.mantissa = n / 2 ^ dropped n 0 := mantissa_dropped n 0 .exact
  have hexponent : first.2 = (dropped n 0 : Int) := Int.zero_add _
  have hrounded := le_roundedMantissa first.1
  have hcarry := roundedMantissa_le first.1
  have hshort : n / 2 ^ dropped n 0 < 2 ^ 53 := div_dropped_lt n 0
  have hpack {u : UnpackedFloat} (hu : HasShape u)
      (heq : UnpackedFloat.round Format.binary64 .positive n 0 = u) :
      (ofCount n).toModel.unpack = u := by
    rw [toModel_ofCount hn, ofNat_eq_round (by omega), heq]
    exact unpack_pack hu
  have hcases := roundWithAccuracy_eq .positive n 0 .exact
  rw [← hfirst] at hcases
  dsimp only at hcases
  rw [dif_neg (by omega)] at hcases
  refine ⟨dropped n 0, ?_⟩
  by_cases hlt : first.1.roundedMantissa < 2 ^ 53
  · rw [if_pos hlt] at hcases
    refine ⟨_, _, _, hfull, hpack ?_ (hround.trans hcases), ?_⟩
    · exact ⟨hlt, by omega, by omega, .inl (by omega)⟩
    · rw [hexponent, zpow_natCast]
      refine mul_le_mul_of_nonneg_right ?_ (by positivity)
      exact_mod_cast hmantissa ▸ hrounded
  · -- A carry leaves a one and zeros.
    rw [if_neg hlt] at hcases
    refine ⟨_, _, _, hfull, hpack ?_ (hround.trans hcases), ?_⟩
    · exact ⟨by decide, by omega, by omega, .inl le_rfl⟩
    · rw [hexponent, zpow_add_one₀ two_ne_zero, zpow_natCast, mul_comm (2 ^ dropped n 0 : ℚ) 2,
        ← mul_assoc]
      refine mul_le_mul_of_nonneg_right ?_ (by positivity)
      exact_mod_cast hshort.le

/-- A double that is not above a long count is not above its first 53 digits. -/
theorem IsDouble.le_div {mantissa : Nat} {exponent : Int} (h : IsDouble mantissa exponent)
    {count : Nat} (hfull : 2 ^ 52 ≤ n / 2 ^ count) (hle : (mantissa : ℚ) * 2 ^ exponent ≤ n) :
    (mantissa : ℚ) * 2 ^ exponent ≤ ((n / 2 ^ count : Nat) : ℚ) * 2 ^ count := by
  obtain hlow | hhigh := Int.lt_or_le exponent count
  · -- The double has too few digits in front of the point.
    calc (mantissa : ℚ) * 2 ^ exponent ≤ 2 ^ 53 * 2 ^ ((count : Int) - 1) := by
          refine mul_le_mul ?_ (zpow_le_zpow_right₀ one_le_two (by omega))
            (zpow_nonneg zero_le_two _) (by positivity)
          exact_mod_cast h.lt.le
      _ = 2 ^ 52 * 2 ^ count := by
          rw [zpow_sub_one₀ two_ne_zero, zpow_natCast]
          ring
      _ ≤ ((n / 2 ^ count : Nat) : ℚ) * 2 ^ count := by
          refine mul_le_mul_of_nonneg_right ?_ (by positivity)
          exact_mod_cast hfull
  · -- The double ends in as many zeros as there are digits behind the first 53.
    obtain ⟨more, rfl⟩ := Int.le.dest hhigh
    have hvalue : (mantissa : ℚ) * 2 ^ ((count : Int) + more)
        = ((mantissa * 2 ^ more * 2 ^ count : Nat) : ℚ) := by
      rw [← Int.natCast_add, zpow_natCast, pow_add]
      push_cast
      ring
    rw [hvalue] at hle ⊢
    have hwhole : mantissa * 2 ^ more ≤ n / 2 ^ count :=
      (Nat.le_div_iff_mul_le (Nat.two_pow_pos count)).mpr (by exact_mod_cast hle)
    exact_mod_cast Nat.mul_le_mul_right _ hwhole

/-- **Rounding a count does not go below a double** that is not above the count. -/
theorem exists_rational?_ofCount (hn : n < UInt64.size) :
    ∃ r, rational? (ofCount n) = some r ∧ ∀ x q, rational? x = some q → q ≤ n → q ≤ r := by
  obtain hshort | hlong := Nat.le_total n (2 ^ 53)
  · exact ⟨n, rational?_ofCount hshort, fun _ _ _ hle => hle⟩
  · obtain ⟨count, m, e, hm, hfull, hunpack, hkept⟩ := exists_unpack_ofCount hlong hn
    refine ⟨m * 2 ^ e, by rw [rational?, hunpack]; rfl, fun x q hq hle => ?_⟩
    have hpos : (0 : ℚ) ≤ m * 2 ^ e := by positivity
    obtain ⟨-, -, rfl⟩ | ⟨sign, mantissa, exponent, _, hx, rfl⟩ := cases_of_rational hq
    · exact hpos
    · cases sign with
      | positive => exact ((isDouble_of_unpack hx).le_div hfull hle).trans hkept
      | negative => exact (neg_nonpos.mpr (by positivity)).trans hpos

end CellFormula.Number
