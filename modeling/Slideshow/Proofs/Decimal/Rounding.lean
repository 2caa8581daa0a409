import Slideshow.Proofs.Decimal.Nearest

/-
  This file proves that a significand and an exponent of any
  size are rounded to the nearest double.

  Bits are taken off a significand one by one.  The last one
  is kept aside, and of those before it whether one was set
  (`Binary.StandsFor`).  That is enough to round to the
  nearest whole number.  A significand that grows to 54
  digits by this loses one more, which is zero, so that the
  fields are canonical in the end (`Binary.IsRounded`).

  Key definitions include:
    * `Binary.StandsFor`
    * `Binary.IsStored`
    * `Binary.IsRounded`

  Main results include:
    * `Binary.StandsFor.shiftRight`
    * `Binary.StandsFor.roundedMantissa_eq`
    * `Binary.isRounded_of_standsFor`
    * `Binary.isRounded_roundWithAccuracy`
    * `Binary.isRounded_normalize`
-/

namespace Slideshow

namespace Binary

open Float.Model (UnpackedFloat Format totalExponent)
open Float.Model.UnpackedFloat
  (Sign Accuracy ExtendedMantissa shiftToExponent
    shiftToTargetExponent roundWithAccuracy
    decreaseExponent)

------------------------------------------------------------
-- Bits That Are Taken Off
------------------------------------------------------------

/-
  The fraction of a significand with two bits behind it, and
  a rest that is not zero if the second of them is set.
-/
def StandsFor
    (extended : ExtendedMantissa)
    (x : ℚ) : Prop :=
  ∃ rest : ℚ,
    0 ≤ rest ∧ rest < 1 ∧
      (rest = 0 ↔ extended.stickyBit = false) ∧
      x = extended.mantissa +
        (extended.roundBit.toNat + rest) / 2

namespace StandsFor

variable {extended : ExtendedMantissa}
variable {x : ℚ}

theorem exact (m : Nat) :
    StandsFor
      (ExtendedMantissa.ofMantissaAndAccuracy m .exact) m :=
  by
  refine ⟨0, le_rfl, zero_lt_one, ⟨fun _ => rfl, fun _ => rfl⟩,
    ?_⟩
  simp [ExtendedMantissa.ofMantissaAndAccuracy]

theorem mantissa_le_and_lt (hStands : StandsFor extended x) :
    extended.mantissa ≤ x ∧ x < extended.mantissa + 1 := by
  rcases hStands with ⟨rest, hNonneg, hLt, -, rfl⟩
  have hBit : (extended.roundBit.toNat : ℚ) ≤ 1 := by
    exact_mod_cast extended.roundBit.toNat_le
  have hBitNonneg : (0 : ℚ) ≤ extended.roundBit.toNat :=
    Nat.cast_nonneg _
  constructor <;> linarith

/- Half of a fraction moves all bits by one place. -/
theorem shiftRightOne (hStands : StandsFor extended x) :
    StandsFor extended.shiftRightOne (x / 2) := by
  rcases hStands with ⟨rest, hNonneg, hLt, hRest, rfl⟩
  rcases extended with ⟨m, roundBit, stickyBit⟩
  have hBit :
      ((m % 2 != 0).toNat : ℚ) = ((m % 2 : ℕ) : ℚ) := by
    rcases Nat.mod_two_eq_zero_or_one m with hEven | hOdd
    · rw [hEven]
      rfl
    · rw [hOdd]
      rfl
  have hHalves :
      (m : ℚ) = 2 * ((m / 2 : ℕ) : ℚ) + ((m % 2 : ℕ) : ℚ) := by
    exact_mod_cast (Nat.div_add_mod m 2).symm
  refine ⟨(roundBit.toNat + rest) / 2, by positivity, ?_, ?_,
    ?_⟩
  · cases roundBit with
    | false =>
        rw [Bool.toNat_false, Nat.cast_zero]
        linarith
    | true =>
        rw [Bool.toNat_true, Nat.cast_one]
        linarith
  · cases roundBit with
    | false =>
        simpa [ExtendedMantissa.shiftRightOne] using hRest
    | true =>
        have hSum : (1 + rest) / 2 ≠ 0 := by
          positivity
        simpa [ExtendedMantissa.shiftRightOne] using hSum
  · simp only [ExtendedMantissa.shiftRightOne, hBit]
    rw [hHalves]
    ring

/- All bits move by any number of places. -/
theorem shiftRight
    (hStands : StandsFor extended x)
    (n : Nat) :
    StandsFor (extended >>> n) (x / 2 ^ n) := by
  induction n with
  | zero =>
      rw [pow_zero, div_one]
      exact hStands
  | succ n ih =>
      rw [pow_succ, ← div_div]
      exact ih.shiftRightOne

/- Two bits are enough to round to a whole number. -/
theorem roundedMantissa_eq (hStands : StandsFor extended x) :
    (extended.roundedMantissa : ℤ) = nearestWhole x := by
  rcases hStands with ⟨rest, hNonneg, hLt, hRest, rfl⟩
  rcases extended with ⟨m, roundBit, stickyBit⟩
  have hWhole (part : ℚ) (hNonneg : 0 ≤ part) (hLt : part < 1) :
      nearestWhole (m + part) =
        if part < 1 / 2 then (m : ℤ)
        else if 1 / 2 < part then m + 1
        else m + m % 2 := by
    rw [← Int.cast_natCast, nearestWhole_add hNonneg hLt]
  cases roundBit with
  | false =>
      have hSmall : (0 + rest) / 2 < 1 / 2 := by
        linarith
      rw [Bool.toNat_false, Nat.cast_zero,
        hWhole _ (by positivity) (by linarith),
        if_pos hSmall]
      cases stickyBit with
      | false => rfl
      | true => rfl
  | true =>
      rw [Bool.toNat_true, Nat.cast_one,
        hWhole _ (by positivity) (by linarith),
        if_neg (by linarith)]
      cases stickyBit with
      | false =>
          have hHalf : rest = 0 := hRest.mpr rfl
          rw [if_neg (by linarith)]
          rfl
      | true =>
          have hPos : 0 < rest := by
            apply hNonneg.lt_of_ne'
            intro hZero
            cases hRest.mp hZero
          rw [if_pos (by linarith)]
          rfl

end StandsFor

------------------------------------------------------------
-- Shifting to an Exponent
------------------------------------------------------------

section Shifting

variable {m : Nat}
variable {q target : ℤ}
variable {accuracy : Accuracy}
variable {x : ℚ}

/- A fraction in units of a greater exponent. -/
theorem exists_shiftToExponent
    (hStands :
      StandsFor
        (ExtendedMantissa.ofMantissaAndAccuracy m accuracy)
        (x / 2 ^ q))
    (hLe : q ≤ target) :
    ∃ extended,
      shiftToExponent m q accuracy target =
          (extended, target) ∧
        StandsFor extended (x / 2 ^ target) := by
  have hAmount : ((target - q).toNat : ℤ) = target - q :=
    Int.toNat_of_nonneg (by omega)
  have hUnits :
      x / 2 ^ target = x / 2 ^ q / 2 ^ (target - q).toNat := by
    rw [← zpow_natCast, hAmount, zpow_sub₀ two_ne_zero]
    field_simp
  have hExponent : q + ((target - q).toNat : ℤ) = target := by
    omega
  rw [hUnits, shiftToExponent, hExponent]
  exact ⟨_, rfl, hStands.shiftRight _⟩

theorem shiftToExponent_of_le (hLe : target ≤ q) :
    shiftToExponent m q .exact target =
      (⟨m, false, false⟩, q) := by
  have hAmount : (target - q).toNat = 0 := by
    omega
  rw [shiftToExponent, hAmount, Int.natCast_zero, add_zero]
  rfl

/- The binary logarithm of a fraction and its whole part. -/
theorem log_of_scaled
    (hPos : 0 < m)
    (hLow : m ≤ x / 2 ^ q)
    (hHigh : x / 2 ^ q < m + 1) :
    Int.log 2 x = m.log2 + q := by
  have hPower : (0 : ℚ) < 2 ^ q := by
    positivity
  have hWhole : (0 : ℚ) < m := by
    exact_mod_cast hPos
  rw [le_div_iff₀ hPower] at hLow
  rw [div_lt_iff₀ hPower] at hHigh
  have hValue : 0 < x := (mul_pos hWhole hPower).trans_le hLow
  apply le_antisymm
  · have hBelow : (m : ℚ) + 1 ≤ 2 ^ ((m.log2 : ℤ) + 1) := by
      exact_mod_cast Nat.lt_log2_self (n := m)
    rw [← Int.lt_add_one_iff,
      ← Int.lt_zpow_iff_log_lt one_lt_two hValue,
      add_right_comm, Nat.cast_ofNat,
      zpow_add₀ two_ne_zero]
    exact hHigh.trans_le
      (mul_le_mul_of_nonneg_right hBelow hPower.le)
  · have hAbove : (2 : ℚ) ^ (m.log2 : ℤ) ≤ m := by
      exact_mod_cast Nat.log2_self_le hPos.ne'
    rw [← Int.zpow_le_iff_le_log one_lt_two hValue,
      Nat.cast_ofNat, zpow_add₀ two_ne_zero]
    exact (mul_le_mul_of_nonneg_right hAbove
      hPower.le).trans hLow

theorem log_magnitude (hPos : 0 < m) :
    Int.log 2 (magnitude m q) = m.log2 + q := by
  have hPower : (2 : ℚ) ^ q ≠ 0 := by
    positivity
  have hScaled : magnitude m q / 2 ^ q = m :=
    mul_div_cancel_right₀ _ hPower
  apply log_of_scaled hPos
  · exact hScaled.ge
  · rw [hScaled]
    exact lt_add_one _

theorem targetExponent_eq (hPos : 0 < m) :
    Format.binary64.targetExponent (totalExponent m q) =
      exponentAt (magnitude m q) := by
  have hTarget :
      Format.binary64.targetExponent (totalExponent m q) =
        max (m.log2 + 1 + q - 53) (-1074) := rfl
  rw [hTarget, exponentAt, log_magnitude hPos]
  congr 1
  ring

/-
  A whole part that is zero leaves the least exponent, and
  any other one has the exponent of the fraction.
-/
theorem targetExponent_of_scaled
    (hX : 0 < x)
    (hLow : m ≤ x / 2 ^ q)
    (hHigh : x / 2 ^ q < m + 1)
    (hLe : q ≤ exponentAt x) :
    Format.binary64.targetExponent (totalExponent m q) =
      exponentAt x := by
  have hTarget :
      Format.binary64.targetExponent (totalExponent m q) =
        max (m.log2 + 1 + q - 53) (-1074) := rfl
  rcases Nat.eq_zero_or_pos m with rfl | hPos
  · have hLeast : exponentAt x = -1074 := by
      by_contra hOther
      have hAbove : -1074 < exponentAt x :=
        lt_of_le_of_ne le_exponentAt (Ne.symm hOther)
      have hRange := le_of_lt_exponentAt hX hAbove
      rw [Nat.cast_zero, zero_add,
        div_lt_one (by positivity)] at hHigh
      have hOrder : (2 : ℚ) ^ q ≤ 2 ^ (exponentAt x + 52) :=
        zpow_le_zpow_right₀ one_le_two (by omega)
      linarith
    rw [hTarget, hLeast]
    simp only [Nat.log2_zero]
    omega
  · rw [hTarget, exponentAt, log_of_scaled hPos hLow hHigh]
    congr 1
    ring

end Shifting

------------------------------------------------------------
-- Rounded Fields
------------------------------------------------------------

/- The fields of a number that is not zero are canonical. -/
def IsStored : UnpackedFloat → Prop
  | .finite _ m q _ => IsCanonical m q
  | _ => True

/- Fields of the number that is nearest to a fraction. -/
structure IsRounded
    (u : UnpackedFloat)
    (x : ℚ) : Prop where
  stored : IsStored u
  value : (ofUnpacked u).value? = some (nearest x)

theorem nearest_signed
    (negative : Bool)
    (x : ℚ) :
    nearest (signed negative x) = signed negative (nearest x)
    := by
  cases negative with
  | false => rfl
  | true => exact nearest_neg x

/-
  A significand that grew to 54 digits loses the last one,
  which is zero.  All others are canonical as they are.
-/
theorem exists_shiftToTargetExponent
    {r : Nat}
    {t : ℤ}
    (hLe : r ≤ 2 ^ 53)
    (hLow : -1074 ≤ t)
    (hFull : -1074 < t → 2 ^ 52 ≤ r) :
    ∃ m q,
      shiftToTargetExponent Format.binary64 r t .exact =
          (⟨m, false, false⟩, q) ∧
        IsCanonical m q ∧ magnitude m q = magnitude r t := by
  have hTarget :
      Format.binary64.targetExponent (totalExponent r t) =
        max (r.log2 + 1 + t - 53) (-1074) := rfl
  rw [shiftToTargetExponent, hTarget]
  rcases hLe.lt_or_eq with hLt | rfl
  · have hLog : r.log2 < 53 := by
      rcases Nat.eq_zero_or_pos r with rfl | hPos
      · decide
      · exact (Nat.log2_lt hPos.ne').mpr hLt
    exact ⟨r, t, shiftToExponent_of_le (by omega),
      ⟨hLt, hLow, hFull⟩, rfl⟩
  · have hNext :
        max (((2 ^ 53 : ℕ).log2 : ℤ) + 1 + t - 53) (-1074) =
          t + 1 := by
      rw [Nat.log2_two_pow]
      omega
    have hOne : (t + 1 - t).toNat = 1 := by
      omega
    refine ⟨2 ^ 52, t + 1, ?_, ⟨by omega, by omega, by omega⟩,
      ?_⟩
    · rw [hNext]
      unfold shiftToExponent
      rw [hOne]
      rfl
    · rw [magnitude, magnitude, zpow_add_one₀ two_ne_zero]
      push_cast
      ring

section Fields

variable {s : Sign}
variable {m : Nat}
variable {q : ℤ}
variable {accuracy : Accuracy}
variable {x : ℚ}

/- The first shift gives the significand that is nearest. -/
theorem exists_roundedMantissa
    (hPos : 0 < x)
    (hStands :
      StandsFor
        (ExtendedMantissa.ofMantissaAndAccuracy m accuracy)
        (x / 2 ^ q))
    (hLe : q ≤ exponentAt x) :
    ∃ extended,
      shiftToTargetExponent Format.binary64 m q accuracy =
          (extended, exponentAt x) ∧
        nearest x =
          magnitude extended.roundedMantissa
            (exponentAt x) ∧
        extended.roundedMantissa ≤ 2 ^ 53 ∧
        (-1074 < exponentAt x →
          2 ^ 52 ≤ extended.roundedMantissa) := by
  have hMantissa :
      (ExtendedMantissa.ofMantissaAndAccuracy m
        accuracy).mantissa = m := by
    rcases accuracy with _ | (_ | _ | _) <;> rfl
  have hWithin := hStands.mantissa_le_and_lt
  rw [hMantissa] at hWithin
  rcases exists_shiftToExponent hStands hLe with
    ⟨extended, hShift, hShifted⟩
  have hWhole := hShifted.roundedMantissa_eq
  rw [shiftToTargetExponent,
    targetExponent_of_scaled hPos hWithin.1 hWithin.2 hLe]
  refine ⟨extended, hShift, ?_, ?_, fun hLow => ?_⟩
  · rw [nearest_of_pos hPos, ← hWhole, Int.cast_natCast]
    rfl
  · zify
    rw [hWhole]
    exact nearestWhole_le (scaled_lt hPos)
  · zify
    rw [hWhole]
    exact le_nearestWhole (le_scaled hPos hLow)

/- A fraction whose whole part has bits to take off. -/
theorem isRounded_of_standsFor
    (hPos : 0 < x)
    (hStands :
      StandsFor
        (ExtendedMantissa.ofMantissaAndAccuracy m accuracy)
        (x / 2 ^ q))
    (hLe : q ≤ exponentAt x) :
    IsRounded
      (roundWithAccuracy Format.binary64 s m q accuracy)
      (signed (isNegative s) x) := by
  rcases exists_roundedMantissa hPos hStands hLe with
    ⟨extended, hFirst, hNearest, hUpper, hFull⟩
  rcases exists_shiftToTargetExponent hUpper le_exponentAt
      hFull with
    ⟨r, t, hSecond, hCanonical, hSame⟩
  unfold roundWithAccuracy
  rw [hFirst]
  dsimp only
  rw [hSecond]
  dsimp only
  rw [← hSame] at hNearest
  by_cases hZero : r = 0
  · have hNothing : nearest x = 0 := by
      rw [hNearest, hZero, magnitude, Nat.cast_zero, zero_mul]
    rw [dif_pos hZero]
    refine ⟨trivial, ?_⟩
    rw [value?_zero, nearest_signed, hNothing, signed,
      neg_zero, ite_self]
  · rw [dif_neg hZero]
    refine ⟨hCanonical, ?_⟩
    rw [nearest_signed, hNearest]
    rfl

/- A significand with bits to take off is rounded. -/
theorem isRounded_roundWithAccuracy
    (hPos : 0 < m)
    (hLe : q ≤ exponentAt (magnitude m q)) :
    IsRounded
      (roundWithAccuracy Format.binary64 s m q .exact)
      (signed (isNegative s) (magnitude m q)) := by
  have hPower : (2 : ℚ) ^ q ≠ 0 := by
    positivity
  have hScaled : magnitude m q / 2 ^ q = m :=
    mul_div_cancel_right₀ _ hPower
  apply isRounded_of_standsFor (magnitude_pos q hPos) _ hLe
  rw [hScaled]
  exact StandsFor.exact m

theorem magnitude_shiftLeft (k : Nat) :
    magnitude (m <<< k) (q - k) = magnitude m q := by
  rw [magnitude, Nat.shiftLeft_eq, zpow_sub₀ two_ne_zero,
    zpow_natCast, magnitude]
  push_cast
  field_simp

/- A significand is rounded whatever its exponent. -/
theorem isRounded_round (hPos : 0 < m) :
    IsRounded (UnpackedFloat.round Format.binary64 s m q)
      (signed (isNegative s) (magnitude m q)) := by
  have hShifted
      (k : Nat)
      (hLe : q - k ≤ exponentAt (magnitude m q)) :
      IsRounded
        (roundWithAccuracy Format.binary64 s (m <<< k) (q - k)
          .exact)
        (signed (isNegative s) (magnitude m q)) := by
    have hPos' : 0 < m <<< k := by
      rw [Nat.shiftLeft_eq]
      positivity
    rw [← magnitude_shiftLeft k] at hLe ⊢
    exact isRounded_roundWithAccuracy hPos' hLe
  unfold UnpackedFloat.round decreaseExponent
  rw [targetExponent_eq hPos]
  exact hShifted _ (by omega)

/- A signed significand is rounded. -/
theorem isRounded_normalize
    (n : ℤ)
    (q : ℤ) :
    IsRounded
      (UnpackedFloat.normalize Format.binary64 n q .positive)
      (n * 2 ^ q) := by
  unfold UnpackedFloat.normalize
  rcases lt_trichotomy n 0 with hNegative | rfl | hPos
  · have hWhole : ((-n).toNat : ℤ) = -n :=
      Int.toNat_of_nonneg (by omega)
    have hValue :
        (n : ℚ) * 2 ^ q =
          signed (isNegative .negative)
            (magnitude (-n).toNat q) := by
      rw [isNegative, signed_true, magnitude,
        ← Int.cast_natCast, hWhole, Int.cast_neg, neg_mul,
        neg_neg]
    rw [compare_lt_iff_lt.mpr hNegative, hValue]
    exact isRounded_round (by omega)
  · rw [compare_eq_iff_eq.mpr rfl, Int.cast_zero, zero_mul]
    refine ⟨trivial, ?_⟩
    rw [nearest_zero]
    exact value?_zero .positive
  · have hWhole : (n.toNat : ℤ) = n :=
      Int.toNat_of_nonneg hPos.le
    have hValue :
        (n : ℚ) * 2 ^ q =
          signed (isNegative .positive)
            (magnitude n.toNat q) := by
      rw [isNegative, signed_false, magnitude,
        ← Int.cast_natCast, hWhole]
    rw [compare_gt_iff_gt.mpr hPos, hValue]
    exact isRounded_round (by omega)

end Fields

end Binary

end Slideshow
