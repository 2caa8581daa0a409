import Slideshow.Proofs.Decimal.Arithmetic

/-
  This file defines how far apart two numbers may be of
  which one is computed from the other by a number of
  roundings, and proves that the roundings of factors add up
  in a product.

  Key definitions include:
    * `Binary.unit`
    * `Binary.IsCloseTo`
    * `Binary.IsOrdinary`

  Main results include:
    * `Binary.IsCloseTo.trans`
    * `Binary.IsCloseTo.half_le_and_le_double`
    * `Binary.IsCloseTo.mul`
    * `Binary.isCloseTo_nearest`
    * `Binary.exactValue?_of_rounds`
-/

namespace Slideshow

namespace Binary

/- The greatest share of a number that rounding changes. -/
def unit : ℚ :=
  1 / 2 ^ 53

/- One number is another one, rounded some times on the way. -/
structure IsCloseTo
    (steps : Nat)
    (x y : ℚ) : Prop where
  le : y * (1 - unit) ^ steps ≤ x
  ge : x ≤ y * (1 + unit) ^ steps

namespace IsCloseTo

variable {i j : Nat}
variable {x y z w : ℚ}

theorem refl (x : ℚ) : IsCloseTo 0 x x := by
  constructor <;> simp

/- Roundings of a rounded number come on top. -/
theorem trans
    (hFirst : IsCloseTo i x y)
    (hSecond : IsCloseTo j y z) :
    IsCloseTo (i + j) x z := by
  have hLow : (0 : ℚ) ≤ (1 - unit) ^ i := by
    norm_num [unit]
  have hHigh : (0 : ℚ) ≤ (1 + unit) ^ i := by
    norm_num [unit]
  constructor
  · calc z * (1 - unit) ^ (i + j)
        = z * (1 - unit) ^ j * (1 - unit) ^ i := by
          rw [pow_add]
          ring
      _ ≤ y * (1 - unit) ^ i :=
          mul_le_mul_of_nonneg_right hSecond.le hLow
      _ ≤ x := hFirst.le
  · calc x
        ≤ y * (1 + unit) ^ i := hFirst.ge
      _ ≤ z * (1 + unit) ^ j * (1 + unit) ^ i :=
          mul_le_mul_of_nonneg_right hSecond.ge hHigh
      _ = z * (1 + unit) ^ (i + j) := by
          rw [pow_add]
          ring

theorem pos
    (hClose : IsCloseTo i x y)
    (hPos : 0 < y) :
    0 < x := by
  have hLow : (0 : ℚ) < (1 - unit) ^ i := by
    apply pow_pos
    norm_num [unit]
  exact (mul_pos hPos hLow).trans_le hClose.le

/- A few roundings do not change the size of a number. -/
theorem half_le_and_le_double
    (hClose : IsCloseTo i x y)
    (hPos : 0 < y)
    (hFew : i ≤ 8) :
    y / 2 ≤ x ∧ x ≤ y * 2 := by
  have hLow : (1 : ℚ) / 2 ≤ (1 - unit) ^ i :=
    calc (1 : ℚ) / 2
        ≤ (1 - unit) ^ 8 := by norm_num [unit]
      _ ≤ (1 - unit) ^ i :=
          pow_le_pow_of_le_one (by norm_num [unit])
            (by norm_num [unit]) hFew
  have hHigh : (1 + unit) ^ i ≤ (2 : ℚ) :=
    calc (1 + unit) ^ i
        ≤ (1 + unit) ^ 8 :=
          pow_le_pow_right₀ (by norm_num [unit]) hFew
      _ ≤ 2 := by norm_num [unit]
  constructor
  · calc y / 2
        = y * (1 / 2) := by ring
      _ ≤ y * (1 - unit) ^ i :=
          mul_le_mul_of_nonneg_left hLow hPos.le
      _ ≤ x := hClose.le
  · calc x
        ≤ y * (1 + unit) ^ i := hClose.ge
      _ ≤ y * 2 := mul_le_mul_of_nonneg_left hHigh hPos.le

/- The roundings of both factors count in a product. -/
theorem mul
    (hFirst : IsCloseTo i x y)
    (hSecond : IsCloseTo j z w)
    (hPos : 0 < y)
    (hPos' : 0 < w) :
    IsCloseTo (i + j) (x * z) (y * w) := by
  have hLow : (0 : ℚ) < (1 - unit) ^ j := by
    apply pow_pos
    norm_num [unit]
  constructor
  · calc y * w * (1 - unit) ^ (i + j)
        = y * (1 - unit) ^ i * (w * (1 - unit) ^ j) := by
          rw [pow_add]
          ring
      _ ≤ x * z :=
          mul_le_mul hFirst.le hSecond.le
            (mul_pos hPos' hLow).le (hFirst.pos hPos).le
  · calc x * z
        ≤ y * (1 + unit) ^ i * (w * (1 + unit) ^ j) :=
          mul_le_mul hFirst.ge hSecond.ge
            (hSecond.pos hPos').le
            ((hFirst.pos hPos).le.trans hFirst.ge)
      _ = y * w * (1 + unit) ^ (i + j) := by
          rw [pow_add]
          ring

end IsCloseTo

------------------------------------------------------------
-- Rounded Numbers
------------------------------------------------------------

/- A number far from both ends of the range of doubles. -/
structure IsOrdinary (x : ℚ) : Prop where
  le : 2 ^ (-128 : ℤ) ≤ x
  ge : x ≤ 2 ^ (128 : ℤ)

section Ordinary

variable {x : ℚ}
variable (hOrdinary : IsOrdinary x)

include hOrdinary

theorem IsOrdinary.pos : 0 < x :=
  lt_of_lt_of_le (by positivity) hOrdinary.le

/- The nearest number is one rounding away. -/
theorem isCloseTo_nearest : IsCloseTo 1 (nearest x) x := by
  have hNormal : (2 : ℚ) ^ (-1022 : ℤ) ≤ x :=
    (zpow_le_zpow_right₀ one_le_two (by omega)).trans
      hOrdinary.le
  have hDistance := abs_le.mp (abs_nearest_sub_le hNormal)
  constructor
  · rw [pow_one, unit]
    linarith
  · rw [pow_one, unit]
    linarith

/- An ordinary result is the nearest double. -/
theorem exactValue?_of_rounds
    {z : Float}
    (hRounds : Rounds z x) :
    exactValue? z = some (nearest x) := by
  have hPos := hOrdinary.pos
  have hDouble :=
    ((isCloseTo_nearest hOrdinary).half_le_and_le_double hPos
      (by omega)).2
  have hRange : |nearest x| < rangeEnd := by
    rw [abs_of_nonneg (nearest_nonneg hPos)]
    calc nearest x
        ≤ x * 2 := hDouble
      _ ≤ 2 ^ (128 : ℤ) * 2 :=
          mul_le_mul_of_nonneg_right hOrdinary.ge zero_le_two
      _ = 2 ^ (129 : ℤ) := by norm_num
      _ < rangeEnd :=
          zpow_lt_zpow_right₀ one_lt_two (by omega)
  rw [Rounds, if_pos hRange] at hRounds
  exact hRounds

end Ordinary

end Binary

end Slideshow
