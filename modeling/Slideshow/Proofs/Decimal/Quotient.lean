import Slideshow.Proofs.Decimal.Arithmetic

/-
  This file proves that the quotient of two doubles is the
  double nearest to the exact one, or infinite if that is
  out of range.

  A division shifts the first significand until the whole
  part of the quotient has enough digits, and keeps of the
  remainder only how it compares with half of the divisor.
  That is all that rounding needs
  (`Binary.StandsFor.ofFraction`).

  Main results include:
    * `Binary.StandsFor.inexact`
    * `Binary.StandsFor.ofFraction`
    * `Binary.magnitude_div_scaled`
    * `Binary.isRounded_div`
    * `Binary.rounds_div`
-/

namespace Slideshow

namespace Binary

open Float.Model (UnpackedFloat Format totalExponent)
open Float.Model.UnpackedFloat
  (Sign Accuracy ExtendedMantissa accuracyOfFraction divCore)

------------------------------------------------------------
-- Remainders
------------------------------------------------------------

/-
  A significand and how a part of one compares with half of
  one stand for their sum.
-/
theorem StandsFor.inexact
    {part : ℚ}
    (m : Nat)
    (hPos : 0 < part)
    (hLt : part < 1) :
    StandsFor
      (ExtendedMantissa.ofMantissaAndAccuracy m
        (.inexact (compare part (1 / 2))))
      (m + part) := by
  rcases lt_trichotomy part (1 / 2) with
    hLess | rfl | hMore
  · rw [compare_lt_iff_lt.mpr hLess]
    exact ⟨2 * part, by linarith, by linarith,
      by simp [ExtendedMantissa.ofMantissaAndAccuracy,
        hPos.ne'],
      by simp [ExtendedMantissa.ofMantissaAndAccuracy]⟩
  · rw [compare_eq_iff_eq.mpr rfl]
    exact ⟨0, le_rfl, zero_lt_one,
      by simp [ExtendedMantissa.ofMantissaAndAccuracy],
      by simp [ExtendedMantissa.ofMantissaAndAccuracy]⟩
  · have hRest : 2 * part - 1 ≠ 0 := by
      linarith
    rw [compare_gt_iff_gt.mpr hMore]
    refine ⟨2 * part - 1, by linarith, by linarith,
      by simp [ExtendedMantissa.ofMantissaAndAccuracy,
        hRest], ?_⟩
    simp only [ExtendedMantissa.ofMantissaAndAccuracy,
      Bool.toNat_true, Nat.cast_one]
    ring

/- A fraction is compared with one half by its parts. -/
theorem compare_div_half
    {num den : Nat}
    (hDen : 0 < den) :
    compare (num / den : ℚ) (1 / 2) =
      compare (2 * num) den := by
  have hDen' : (0 : ℚ) < den := by
    exact_mod_cast hDen
  have hLt :
      (num / den : ℚ) < 1 / 2 ↔ 2 * num < den := by
    rw [div_lt_div_iff₀ hDen' two_pos, one_mul, mul_comm]
    exact_mod_cast Iff.rfl
  have hEq :
      (num / den : ℚ) = 1 / 2 ↔ 2 * num = den := by
    rw [div_eq_div_iff hDen'.ne' two_ne_zero, one_mul,
      mul_comm]
    exact_mod_cast Iff.rfl
  rw [LinearOrder.compare_eq_compareOfLessAndEq,
    LinearOrder.compare_eq_compareOfLessAndEq,
    compareOfLessAndEq, compareOfLessAndEq]
  simp only [hLt, hEq]

/- A significand and a remainder stand for their sum. -/
theorem StandsFor.ofFraction
    {num den : Nat}
    (m : Nat)
    (hLt : num < den) :
    StandsFor
      (ExtendedMantissa.ofMantissaAndAccuracy m
        (accuracyOfFraction num den))
      (m + num / den) := by
  have hDen : 0 < den := Nat.zero_lt_of_lt hLt
  have hDen' : (0 : ℚ) < den := by
    exact_mod_cast hDen
  rw [accuracyOfFraction]
  by_cases hNone : num = 0
  · rw [if_pos hNone, hNone, Nat.cast_zero, zero_div,
      add_zero]
    exact StandsFor.exact m
  · have hSome : (0 : ℚ) < num := by
      exact_mod_cast Nat.pos_of_ne_zero hNone
    have hPart : (num : ℚ) / den < 1 := by
      rw [div_lt_one hDen']
      exact_mod_cast hLt
    rw [if_neg hNone, ← compare_div_half hDen]
    exact StandsFor.inexact m (div_pos hSome hDen') hPart

------------------------------------------------------------
-- Quotients of Fields
------------------------------------------------------------

section Fields

variable {m₁ m₂ : Nat}
variable {q₁ q₂ : ℤ}
variable (hPos₁ : 0 < m₁)
variable (hPos₂ : 0 < m₂)

include hPos₁ hPos₂

/- The exponent that a division aims at is small enough. -/
theorem targetExponent_sub_le :
    Format.binary64.targetExponent
        (totalExponent m₁ q₁ - totalExponent m₂ q₂) ≤
      exponentAt (magnitude m₁ q₁ / magnitude m₂ q₂) := by
  have hTarget :
      Format.binary64.targetExponent
          (totalExponent m₁ q₁ - totalExponent m₂ q₂) =
        max
          ((m₁.log2 + 1 + q₁) - (m₂.log2 + 1 + q₂) - 53)
          (-1074) := rfl
  have hFirst := magnitude_pos q₁ hPos₁
  have hSecond := magnitude_pos q₂ hPos₂
  have hLow : (2 : ℚ) ^ (m₁.log2 + q₁ : ℤ) ≤
      magnitude m₁ q₁ := by
    have hLog := log_magnitude (q := q₁) hPos₁
    have hLe := Int.zpow_log_le_self one_lt_two hFirst
    rw [hLog] at hLe
    exact_mod_cast hLe
  have hHigh : magnitude m₂ q₂ <
      (2 : ℚ) ^ (m₂.log2 + q₂ + 1 : ℤ) := by
    have hLog := log_magnitude (q := q₂) hPos₂
    have hLt :=
      Int.lt_zpow_succ_log_self one_lt_two (magnitude m₂ q₂)
    rw [hLog] at hLt
    exact_mod_cast hLt
  have hQuotient :
      (2 : ℚ) ^
          ((m₁.log2 + q₁) - (m₂.log2 + q₂ + 1) : ℤ) ≤
        magnitude m₁ q₁ / magnitude m₂ q₂ := by
    rw [zpow_sub₀ two_ne_zero]
    exact div_le_div₀ hFirst.le hLow hSecond hHigh.le
  have hLog :
      (m₁.log2 + q₁) - (m₂.log2 + q₂ + 1) ≤
        Int.log 2 (magnitude m₁ q₁ / magnitude m₂ q₂) := by
    rw [← Int.zpow_le_iff_le_log one_lt_two
      (div_pos hFirst hSecond)]
    exact_mod_cast hQuotient
  rw [hTarget, exponentAt]
  exact max_le_max_right _ (by omega)

omit hPos₁ in
/-
  A quotient, scaled to an exponent, is the whole quotient
  of the shifted significand and the part that remains.
-/
theorem magnitude_div_scaled
    {target : ℤ}
    (hTarget : target ≤ q₁ - q₂) :
    magnitude m₁ q₁ / magnitude m₂ q₂ / 2 ^ target =
      ((m₁ <<< (q₁ - q₂ - target).toNat / m₂ : ℕ) : ℚ) +
        (m₁ <<< (q₁ - q₂ - target).toNat % m₂ : ℕ) / m₂ := by
  have hAmount :
      ((q₁ - q₂ - target).toNat : ℤ) = q₁ - q₂ - target :=
    Int.toNat_of_nonneg (by omega)
  have hWhole : (m₂ : ℚ) ≠ 0 := by
    exact_mod_cast hPos₂.ne'
  have hShifted :
      magnitude m₁ q₁ / magnitude m₂ q₂ / 2 ^ target =
        ((m₁ <<< (q₁ - q₂ - target).toNat : ℕ) : ℚ) /
          m₂ := by
    rw [Nat.shiftLeft_eq, Nat.cast_mul, Nat.cast_pow,
      Nat.cast_ofNat, ← zpow_natCast, hAmount,
      zpow_sub₀ two_ne_zero, zpow_sub₀ two_ne_zero,
      magnitude, magnitude]
    field_simp
  generalize
    m₁ <<< (q₁ - q₂ - target).toNat = dividend at *
  have hDivided :
      (dividend : ℚ) =
        m₂ * (dividend / m₂ : ℕ) + (dividend % m₂ : ℕ) := by
    exact_mod_cast (Nat.div_add_mod dividend m₂).symm
  rw [hShifted, hDivided, add_div,
    mul_div_cancel_left₀ _ hWhole]

/- A quotient of significands is rounded. -/
theorem isRounded_divCore (s : Sign) :
    IsRounded
      (UnpackedFloat.roundWithAccuracy Format.binary64 s
        (divCore Format.binary64 m₁ q₁ m₂ q₂).1
        (divCore Format.binary64 m₁ q₁ m₂ q₂).2.1
        (divCore Format.binary64 m₁ q₁ m₂ q₂).2.2)
      (signed (isNegative s)
        (magnitude m₁ q₁ / magnitude m₂ q₂)) := by
  have hQuotient :=
    div_pos (magnitude_pos q₁ hPos₁) (magnitude_pos q₂ hPos₂)
  have hAimed :
      Format.binary64.targetExponent
          (totalExponent m₁ q₁ - totalExponent m₂ q₂) ≤
        exponentAt (magnitude m₁ q₁ / magnitude m₂ q₂) :=
    targetExponent_sub_le hPos₁ hPos₂
  unfold divCore
  dsimp only
  generalize hTarget :
    min (q₁ - q₂)
      (Format.binary64.targetExponent
        (totalExponent m₁ q₁ - totalExponent m₂ q₂)) =
      target
  apply isRounded_of_standsFor hQuotient
  · rw [magnitude_div_scaled hPos₂ (by omega)]
    exact StandsFor.ofFraction _ (Nat.mod_lt _ hPos₂)
  · rw [← hTarget]
    exact (min_le_right _ _).trans hAimed

end Fields

/- Signs and sizes are divided one by one. -/
theorem signed_div_signed
    (s₁ s₂ : Sign)
    (x y : ℚ) :
    signed (isNegative s₁) x / signed (isNegative s₂) y =
      signed (isNegative (s₁ / s₂)) (x / y) := by
  cases s₁ with
  | negative =>
      cases s₂ with
      | negative => exact neg_div_neg_eq _ _
      | positive => exact neg_div _ _
  | positive =>
      cases s₂ with
      | negative => exact div_neg _
      | positive => rfl

/- A quotient by a number that is not zero is rounded. -/
theorem isRounded_div
    {u v : UnpackedFloat}
    {x y : ℚ}
    (hX : (ofUnpacked u).value? = some x)
    (hY : (ofUnpacked v).value? = some y)
    (hNonzero : y ≠ 0) :
    IsRounded (UnpackedFloat.div Format.binary64 u v)
      (x / y) := by
  rcases value?_eq_some_cases hY with
    ⟨s₂, rfl, rfl⟩ | ⟨s₂, m₂, q₂, hPos₂, rfl, rfl⟩
  · exact absurd rfl hNonzero
  · rcases value?_eq_some_cases hX with
      ⟨s₁, rfl, rfl⟩ | ⟨s₁, m₁, q₁, hPos₁, rfl, rfl⟩
    · rw [zero_div]
      exact isRounded_zero _
    · rw [signed_div_signed]
      exact isRounded_divCore hPos₁ hPos₂ (s₁ / s₂)

------------------------------------------------------------
-- Quotients of Doubles
------------------------------------------------------------

/- The quotient of two doubles is the exact one, rounded. -/
theorem rounds_div
    {x y : Float}
    {v w : ℚ}
    (hX : exactValue? x = some v)
    (hY : exactValue? y = some w)
    (hNonzero : w ≠ 0) :
    Rounds (x / y) (v / w) :=
  rounds_of_isRounded
    (isRounded_div ((value?_unpack x).trans hX)
      ((value?_unpack y).trans hY) hNonzero)

end Binary

end Slideshow
