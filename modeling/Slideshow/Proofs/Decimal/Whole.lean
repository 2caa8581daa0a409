import Mathlib.Algebra.Order.Floor.Semifield
import Slideshow.Proofs.Decimal.Arithmetic

/-
  This file proves that a word is converted to the double
  nearest to it, which is the word itself below 2 ^ 53, and
  that a double that is not negative is cut off to its whole
  part.

  Main results include:
    * `Binary.exactValue?_word32`
    * `Binary.exactValue?_word64`
    * `Binary.exactValue?_ofNat`
    * `Binary.floorOf_eq`
    * `Binary.toNat_floorWord`
-/

namespace Slideshow

namespace Binary

open Float.Model (UnpackedFloat Format)

------------------------------------------------------------
-- Words as Doubles
------------------------------------------------------------

theorem nearest_natCast
    {n : Nat}
    (hLt : n < 2 ^ 53) :
    nearest n = n := by
  have hValue : magnitude n 0 = n := by
    simp [magnitude]
  rw [← hValue]
  exact nearest_magnitude hLt (by omega)

/- A double that rounds such a number has its value. -/
theorem exactValue?_of_rounds_natCast
    {z : Float}
    {n : Nat}
    (hRounds : Rounds z n)
    (hLt : n < 2 ^ 53) :
    exactValue? z = some (n : ℚ) := by
  have hRange : |(n : ℚ)| < rangeEnd := by
    have hPower : (2 : ℚ) ^ (53 : ℤ) < 2 ^ (1024 : ℤ) :=
      zpow_lt_zpow_right₀ one_lt_two (by omega)
    have hCast : (n : ℚ) < 2 ^ (53 : ℤ) := by
      exact_mod_cast hLt
    rw [Nat.abs_cast]
    exact hCast.trans hPower
  rw [Rounds, nearest_natCast hLt, if_pos hRange] at hRounds
  exact hRounds

theorem rounds_ofNat (n : Nat) :
    Rounds
      (Float.ofModel
        (Float.Model.pack
          (UnpackedFloat.ofNat Format.binary64 n)))
      n := by
  have hRounded := isRounded_normalize n 0
  rw [zpow_zero, mul_one, Int.cast_natCast] at hRounded
  exact rounds_of_isRounded hRounded

/- The double of a word of 32 bits has its value. -/
theorem exactValue?_word32 (n : UInt32) :
    exactValue? n.toFloat = some (n.toNat : ℚ) := by
  have hLt : n.toNat < 2 ^ 32 := n.toNat_lt
  exact exactValue?_of_rounds_natCast (rounds_ofNat n.toNat)
    (by omega)

/- So does that of a word of 64 bits, if it is small. -/
theorem exactValue?_word64
    {n : UInt64}
    (hLt : n.toNat < 2 ^ 53) :
    exactValue? n.toFloat = some (n.toNat : ℚ) :=
  exactValue?_of_rounds_natCast (rounds_ofNat n.toNat) hLt

/- So does a numeral of 53 binary digits. -/
theorem exactValue?_ofNat
    {n : Nat}
    (hLt : n < 2 ^ 53) :
    exactValue? (Float.ofNat n) = some (n : ℚ) := by
  have hWord : n.toUInt64.toNat = n :=
    UInt64.toNat_ofNat_of_lt' (by
      have hSize : UInt64.size = 2 ^ 64 := rfl
      omega)
  have hProduct : Float.ofNat n = n.toUInt64.toFloat * 1.0 := by
    show Float.ofScientific n false 0 = _
    unfold Float.ofScientific
    rw [dif_pos ⟨hLt, by decide⟩]
    rfl
  have hRounds :=
    rounds_mul (exactValue?_word64 (hWord.trans_lt hLt))
      exactValue?_one
  rw [hWord, mul_one] at hRounds
  rw [hProduct]
  exact exactValue?_of_rounds_natCast hRounds hLt

------------------------------------------------------------
-- Whole Parts
------------------------------------------------------------

/- The whole part of a significand and an exponent. -/
theorem floorOf_eq
    (m : Nat)
    (q : ℤ) :
    floorOf m q = ⌊magnitude m q⌋₊ := by
  have hExponent : q = q.toNat - (-q).toNat := by
    omega
  have hFraction :
      magnitude m q =
        ((m * twoPow q.toNat : ℕ) : ℚ) /
          (twoPow (-q).toNat : ℕ) := by
    have hPow (k : Nat) : ((twoPow k : ℕ) : ℚ) = 2 ^ k := by
      exact_mod_cast rfl
    rw [magnitude, Nat.cast_mul, hPow, hPow]
    conv_lhs => rw [hExponent]
    rw [zpow_sub₀ two_ne_zero, zpow_natCast, zpow_natCast,
      mul_div_assoc]
  rw [hFraction, Nat.floor_div_eq_div, floorOf]

/-
  A double is cut off to its whole part, as far as words of
  64 bits go: to zero below zero, and to the greatest word
  above that.
-/
theorem toNat_floorWord
    {x : Float}
    {v : ℚ}
    (hValue : exactValue? x = some v) :
    (floorWord x).toNat = min ⌊v⌋₊ (2 ^ 64 - 1) := by
  rw [exactValue?] at hValue
  unfold floorWord
  cases hFields : ofFloat x with
  | nan =>
      rw [hFields] at hValue
      cases hValue
  | infinite negative =>
      rw [hFields] at hValue
      cases hValue
  | finite negative m q =>
      rw [hFields] at hValue
      have hSigned : signed negative (magnitude m q) = v :=
        Option.some.inj hValue
      have hMagnitude : 0 ≤ magnitude m q := by
        unfold magnitude
        positivity
      cases negative with
      | true =>
          rw [signed_true] at hSigned
          rw [Nat.floor_of_nonpos (by linarith)]
          rfl
      | false =>
          rw [signed_false] at hSigned
          have hFits :
              min (floorOf m q) (UInt64.size - 1) <
                UInt64.size := by
            have hSize : 0 < UInt64.size := by decide
            omega
          dsimp only
          rw [UInt64.toNat_ofNat_of_lt' hFits, floorOf_eq,
            hSigned]
          rfl

end Binary

end Slideshow
