import Slideshow.Proofs.Decimal.Error
import Slideshow.Proofs.Decimal.Quotient
import Slideshow.Proofs.Frame.Exact

/-
  This file proves what is left of a number of frames that
  is converted to seconds and back.

  The length of a frame and the frames of a second are
  quotients that are rounded on their own, and so are the
  two products with them.  Four roundings are too few to
  reach another frame above, but one that ends below the
  number of frames costs a frame when it is cut off.

  Key definitions include:
    * `FrameRate.framesBack`
    * `FrameRate.IsPowerOfTwo`

  Main results include:
    * `FrameRate.framesBack_mem`
    * `FrameRate.floor_framesBack_mem`
    * `FrameRate.exactValue?_framesBack`
    * `FrameRate.framesBack_eq_of_isPowerOfTwo`
    * `FrameRate.framesIn_secondsOf`
-/

namespace Slideshow

namespace FrameRate

open Binary (nearest exactValue? IsCloseTo IsOrdinary)

------------------------------------------------------------
-- Frames That Come Back
------------------------------------------------------------

/-
  The number of frames that comes back, before it is cut
  off to a whole number.
-/
def framesBack
    (rate : FrameRate)
    (n : Nat) : ℚ :=
  nearest
    (nearest (n * nearest rate.exactFrameSeconds) *
      nearest rate.exactPerSecond)

/- One part of a rate is the other one, doubled some times. -/
def IsPowerOfTwo (rate : FrameRate) : Prop :=
  ∃ k : Nat,
    rate.num.toNat = rate.den.toNat * 2 ^ k ∨
      rate.den.toNat = rate.num.toNat * 2 ^ k

theorem framesBack_zero
    {rate : FrameRate} :
    rate.framesBack 0 = 0 := by
  rw [framesBack, Nat.cast_zero, zero_mul,
    Binary.nearest_zero, zero_mul, Binary.nearest_zero]

section Positive

variable {rate : FrameRate}
variable (hNum : 0 < rate.num.toNat)
variable (hDen : 0 < rate.den.toNat)

include hNum hDen

------------------------------------------------------------
-- Quotients
------------------------------------------------------------

omit hNum hDen in
/- A quotient of words is neither too small nor too large. -/
theorem quotient_bounds
    {m n : UInt32}
    (hM : 0 < m.toNat)
    (hN : 0 < n.toNat) :
    2 ^ (-32 : ℤ) ≤ (m.toNat / n.toNat : ℚ) ∧
      (m.toNat / n.toNat : ℚ) ≤ 2 ^ (32 : ℤ) := by
  have hM' : (1 : ℚ) ≤ m.toNat := by
    exact_mod_cast hM
  have hN' : (1 : ℚ) ≤ n.toNat := by
    exact_mod_cast hN
  have hMTop : (m.toNat : ℚ) ≤ 2 ^ (32 : ℤ) := by
    exact_mod_cast m.toNat_lt.le
  have hNTop : (n.toNat : ℚ) ≤ 2 ^ (32 : ℤ) := by
    exact_mod_cast n.toNat_lt.le
  have hNPos : (0 : ℚ) < n.toNat := by
    linarith
  constructor
  · rw [zpow_neg, le_div_iff₀ hNPos,
      inv_mul_le_iff₀ (by positivity)]
    nlinarith
  · rw [div_le_iff₀ hNPos]
    nlinarith

omit hNum hDen in
/- The quotient of two words is rounded once. -/
theorem exactValue?_quotient
    {m n : UInt32}
    (hM : 0 < m.toNat)
    (hN : 0 < n.toNat) :
    exactValue? (m.toFloat / n.toFloat) =
        some (nearest (m.toNat / n.toNat)) ∧
      IsCloseTo 1 (nearest (m.toNat / n.toNat))
        (m.toNat / n.toNat) := by
  rcases quotient_bounds hM hN with ⟨hLow, hHigh⟩
  have hOrdinary : IsOrdinary (m.toNat / n.toNat) :=
    ⟨(zpow_le_zpow_right₀ one_le_two (by omega)).trans hLow,
      hHigh.trans (zpow_le_zpow_right₀ one_le_two (by omega))⟩
  have hNonzero : (n.toNat : ℚ) ≠ 0 := by
    exact_mod_cast hN.ne'
  have hRounds :=
    Binary.rounds_div (Binary.exactValue?_word32 m)
      (Binary.exactValue?_word32 n) hNonzero
  exact ⟨Binary.exactValue?_of_rounds hOrdinary hRounds,
    Binary.isCloseTo_nearest hOrdinary⟩

------------------------------------------------------------
-- Products
------------------------------------------------------------

variable {n : Nat}
variable (hPos : 0 < n)
variable (hLt : n < 2 ^ 32)

include hPos hLt

/- The length of some frames, before it is rounded. -/
theorem isCloseTo_length :
    IsCloseTo 1 (n * nearest rate.exactFrameSeconds)
        (n * rate.exactFrameSeconds) ∧
      IsOrdinary (n * nearest rate.exactFrameSeconds) := by
  have hOne : (1 : ℚ) ≤ n := by
    exact_mod_cast hPos
  have hTop : (n : ℚ) ≤ 2 ^ (32 : ℤ) := by
    exact_mod_cast hLt.le
  rcases quotient_bounds hDen hNum with ⟨hLow, hHigh⟩
  have hSeconds : 0 < rate.exactFrameSeconds :=
    lt_of_lt_of_le (by positivity) hLow
  have hClose :
      IsCloseTo (0 + 1) (n * nearest rate.exactFrameSeconds)
        (n * rate.exactFrameSeconds) :=
    (IsCloseTo.refl _).mul (exactValue?_quotient hDen hNum).2
      (by linarith) hSeconds
  rw [zero_add] at hClose
  rcases hClose.half_le_and_le_double
      (mul_pos (by linarith) hSeconds) (by omega) with
    ⟨hHalf, hDouble⟩
  refine ⟨hClose, ?_, ?_⟩
  · calc (2 : ℚ) ^ (-128 : ℤ)
        ≤ 1 * 2 ^ (-32 : ℤ) / 2 := by norm_num
      _ ≤ n * rate.exactFrameSeconds / 2 := by
          gcongr
          exact hLow
      _ ≤ n * nearest rate.exactFrameSeconds := hHalf
  · calc (n : ℚ) * nearest rate.exactFrameSeconds
        ≤ n * rate.exactFrameSeconds * 2 := hDouble
      _ ≤ 2 ^ (32 : ℤ) * 2 ^ (32 : ℤ) * 2 := by
          gcongr
          exact hHigh
      _ ≤ 2 ^ (128 : ℤ) := by norm_num

/- The frames that come back, before they are rounded. -/
theorem isCloseTo_product :
    IsCloseTo 3
        (nearest (n * nearest rate.exactFrameSeconds) *
          nearest rate.exactPerSecond)
        n ∧
      IsOrdinary
        (nearest (n * nearest rate.exactFrameSeconds) *
          nearest rate.exactPerSecond) := by
  have hOne : (1 : ℚ) ≤ n := by
    exact_mod_cast hPos
  have hTop : (n : ℚ) ≤ 2 ^ (32 : ℤ) := by
    exact_mod_cast hLt.le
  have hSeconds : 0 < rate.exactFrameSeconds :=
    lt_of_lt_of_le (by positivity)
      (quotient_bounds hDen hNum).1
  have hFrames : 0 < rate.exactPerSecond :=
    lt_of_lt_of_le (by positivity)
      (quotient_bounds hNum hDen).1
  rcases isCloseTo_length hNum hDen hPos hLt with
    ⟨hLength, hOrdinary⟩
  have hInverse :
      (n : ℚ) * rate.exactFrameSeconds * rate.exactPerSecond =
        n := by
    rw [mul_assoc, exactFrameSeconds_mul hNum hDen, mul_one]
  have hClose :
      IsCloseTo (1 + 1 + 1)
        (nearest (n * nearest rate.exactFrameSeconds) *
          nearest rate.exactPerSecond)
        (n * rate.exactFrameSeconds * rate.exactPerSecond) :=
    ((Binary.isCloseTo_nearest hOrdinary).trans hLength).mul
      (exactValue?_quotient hNum hDen).2
      (mul_pos (by linarith) hSeconds) hFrames
  rw [hInverse] at hClose
  rcases hClose.half_le_and_le_double (by linarith)
      (by omega) with
    ⟨hHalf, hDouble⟩
  refine ⟨hClose, ?_, ?_⟩
  · calc (2 : ℚ) ^ (-128 : ℤ)
        ≤ 1 / 2 := by norm_num
      _ ≤ n / 2 := by linarith
      _ ≤ _ := hHalf
  · calc _ ≤ (n : ℚ) * 2 := hDouble
      _ ≤ 2 ^ (32 : ℤ) * 2 := by linarith
      _ ≤ 2 ^ (128 : ℤ) := by norm_num

omit hPos in
/- The frames that come back are less than one frame off. -/
theorem framesBack_mem :
    0 ≤ rate.framesBack n ∧
      (n : ℚ) - 1 < rate.framesBack n ∧
      rate.framesBack n < n + 1 := by
  rcases Nat.eq_zero_or_pos n with rfl | hPos
  · rw [framesBack_zero]
    norm_num
  · have hSome : (0 : ℚ) < n := by
      exact_mod_cast hPos
    have hTop : (n : ℚ) ≤ 4294967296 := by
      exact_mod_cast hLt.le
    rcases isCloseTo_product hNum hDen hPos hLt with
      ⟨hClose, hOrdinary⟩
    have hBack : IsCloseTo (1 + 3) (rate.framesBack n) n :=
      (Binary.isCloseTo_nearest hOrdinary).trans hClose
    have hLow := hBack.le
    have hHigh := hBack.ge
    norm_num [Binary.unit] at hLow hHigh
    refine ⟨(hBack.pos hSome).le, ?_, ?_⟩ <;> linarith

omit hPos in
/- Cut off, they are at most one frame less. -/
theorem floor_framesBack_mem :
    ⌊rate.framesBack n⌋₊ ≤ n ∧
      n ≤ ⌊rate.framesBack n⌋₊ + 1 := by
  rcases framesBack_mem hNum hDen hLt with
    ⟨hNonneg, hAbove, hBelow⟩
  have hMost : ⌊rate.framesBack n⌋₊ < n + 1 := by
    rw [Nat.floor_lt hNonneg]
    exact_mod_cast hBelow
  have hLeast : n < ⌊rate.framesBack n⌋₊ + 2 := by
    have hFloor := Nat.lt_floor_add_one (rate.framesBack n)
    have hCast :
        (n : ℚ) < ⌊rate.framesBack n⌋₊ + 2 := by
      linarith
    exact_mod_cast hCast
  constructor <;> omega

end Positive

------------------------------------------------------------
-- Frames
------------------------------------------------------------

section Frames

variable {rate : FrameRate}
variable (hNum : 0 < rate.num.toNat)
variable (hDen : 0 < rate.den.toNat)
variable {frames : UInt64}
variable (hLt : frames.toNat < 2 ^ 32)

include hNum hDen hLt

/- What is cut off in the end is the frames that come back. -/
theorem exactValue?_framesBack :
    exactValue? (rate.secondsOf frames * rate.perSecond) =
      some (rate.framesBack frames.toNat) := by
  have hFrames :=
    Binary.exactValue?_word64 (n := frames) (by omega)
  have hSeconds := (exactValue?_quotient hDen hNum).1
  have hPerSecond := (exactValue?_quotient hNum hDen).1
  have hLength := Binary.rounds_mul hFrames hSeconds
  rcases Nat.eq_zero_or_pos frames.toNat with hZero | hPos
  · have hNothing : ((0 : ℕ) : ℚ) = 0 := Nat.cast_zero
    have hNone : exactValue? (rate.secondsOf frames) = some 0 := by
      rw [hZero, hNothing, zero_mul, ← hNothing] at hLength
      rw [← hNothing]
      exact Binary.exactValue?_of_rounds_natCast hLength
        (by omega)
    have hProduct := Binary.rounds_mul hNone hPerSecond
    rw [zero_mul, ← hNothing] at hProduct
    rw [hZero, framesBack_zero, ← hNothing]
    exact Binary.exactValue?_of_rounds_natCast hProduct
      (by omega)
  · have hStored :=
      Binary.exactValue?_of_rounds
        (isCloseTo_length hNum hDen hPos hLt).2 hLength
    exact Binary.exactValue?_of_rounds
      (isCloseTo_product hNum hDen hPos hLt).2
      (Binary.rounds_mul hStored hPerSecond)

/- The frames that come back are cut off to whole frames. -/
theorem toNat_framesIn_secondsOf :
    (rate.framesIn (rate.secondsOf frames)).toNat =
      ⌊rate.framesBack frames.toNat⌋₊ := by
  have hMost := (floor_framesBack_mem hNum hDen hLt).1
  rw [framesIn,
    Binary.toNat_floorWord
      (exactValue?_framesBack hNum hDen hLt),
    min_eq_left (by omega)]

end Frames

/- The seconds of a frame at such a rate. -/
theorem IsPowerOfTwo.exists_exactFrameSeconds
    {rate : FrameRate}
    (hPower : rate.IsPowerOfTwo)
    (hNum : 0 < rate.num.toNat)
    (hDen : 0 < rate.den.toNat) :
    ∃ j : ℤ,
      -32 < j ∧ j < 32 ∧ rate.exactFrameSeconds = 2 ^ j := by
  have hFew {m n k : Nat}
      (hPos : 0 < n)
      (hLt : m < 2 ^ 32)
      (hEq : m = n * 2 ^ k) :
      k < 32 := by
    rw [← Nat.pow_lt_pow_iff_right (a := 2) (by omega)]
    calc 2 ^ k
        ≤ n * 2 ^ k := Nat.le_mul_of_pos_left _ hPos
      _ = m := hEq.symm
      _ < 2 ^ 32 := hLt
  have hNum' : (rate.num.toNat : ℚ) ≠ 0 := by
    exact_mod_cast hNum.ne'
  have hDen' : (rate.den.toNat : ℚ) ≠ 0 := by
    exact_mod_cast hDen.ne'
  rcases hPower with ⟨k, hNumEq | hDenEq⟩
  · have hSmall := hFew hDen rate.num.toNat_lt hNumEq
    refine ⟨-k, by omega, by omega, ?_⟩
    rw [exactFrameSeconds, hNumEq, zpow_neg, zpow_natCast]
    push_cast
    field_simp
  · have hSmall := hFew hNum rate.den.toNat_lt hDenEq
    refine ⟨k, by omega, by omega, ?_⟩
    rw [exactFrameSeconds, hDenEq, zpow_natCast]
    push_cast
    field_simp

/- Doubling is exact, so nothing is rounded at such rates. -/
theorem framesBack_eq_of_isPowerOfTwo
    {rate : FrameRate}
    {n : Nat}
    (hNum : 0 < rate.num.toNat)
    (hDen : 0 < rate.den.toNat)
    (hLt : n < 2 ^ 32)
    (hPower : rate.IsPowerOfTwo) :
    rate.framesBack n = n := by
  rcases hPower.exists_exactFrameSeconds hNum hDen with
    ⟨j, hLow, hHigh, hSeconds⟩
  have hPerSecond : rate.exactPerSecond = 2 ^ (-j) := by
    rw [zpow_neg, ← hSeconds]
    exact eq_inv_of_mul_eq_one_right
      (exactFrameSeconds_mul hNum hDen)
  have hAlone {m : Nat} {i : ℤ}
      (hm : m < 2 ^ 32)
      (hi : -32 < i) :
      nearest (m * 2 ^ i) = m * 2 ^ i :=
    Binary.nearest_magnitude (by omega) (by omega)
  have hPower {i : ℤ} (hi : -32 < i) :
      nearest (2 ^ i) = 2 ^ i := by
    have hOne := hAlone (m := 1) (by omega) hi
    rwa [Nat.cast_one, one_mul] at hOne
  have hInverse : (n : ℚ) * 2 ^ j * 2 ^ (-j) = n := by
    rw [mul_assoc, ← zpow_add₀ two_ne_zero, add_neg_cancel,
      zpow_zero, mul_one]
  rw [framesBack, hSeconds, hPerSecond, hPower hLow,
    hPower (by omega), hAlone hLt hLow, hInverse,
    Binary.nearest_natCast (by omega)]

/-
  Frames that are converted to seconds and back are the same
  or one less.  They are the same exactly if the two
  products, computed from the rounded quotients and rounded
  themselves, do not end below the number of frames, and
  they always are if one part of the rate is the other one,
  doubled some times.
-/
theorem framesIn_secondsOf
    {num den : UInt32}
    {rate : FrameRate}
    {frames : UInt64}
    (hRate : checked num den = .ok rate)
    (hLt : frames.toNat < 2 ^ 32) :
    (rate.framesIn (rate.secondsOf frames) = frames ∨
      (rate.framesIn (rate.secondsOf frames)).toNat + 1 =
        frames.toNat) ∧
      (rate.framesIn (rate.secondsOf frames) = frames ↔
        frames.toNat ≤ rate.framesBack frames.toNat) ∧
      (rate.IsPowerOfTwo →
        rate.framesIn (rate.secondsOf frames) = frames) := by
  rcases checked_eq_ok_iff.mp hRate with ⟨-, hNum, hDen⟩
  have hCut := toNat_framesIn_secondsOf hNum hDen hLt
  have hSame :
      rate.framesIn (rate.secondsOf frames) = frames ↔
        ⌊rate.framesBack frames.toNat⌋₊ = frames.toNat := by
    rw [← hCut, UInt64.toNat_inj]
  have hNonneg := (framesBack_mem hNum hDen hLt).1
  rcases floor_framesBack_mem hNum hDen hLt with
    ⟨hMost, hLeast⟩
  have hKept :
      ⌊rate.framesBack frames.toNat⌋₊ = frames.toNat ↔
        frames.toNat ≤ rate.framesBack frames.toNat := by
    rw [← Nat.le_floor_iff hNonneg]
    omega
  rw [hSame, hCut]
  refine ⟨by omega, hKept, fun hPower => hKept.mpr ?_⟩
  rw [framesBack_eq_of_isPowerOfTwo hNum hDen hLt hPower]

/- A frame of one fourth of a second comes back. -/
theorem framesIn_secondsOf_fourth :
    checked 4 1 = .ok ⟨4, 1⟩ ∧
      (1 : UInt64).toNat < 2 ^ 32 ∧
      IsPowerOfTwo ⟨4, 1⟩ ∧
      framesIn ⟨4, 1⟩ (secondsOf ⟨4, 1⟩ 1) = 1 := by
  have hRate : checked 4 1 = .ok ⟨4, 1⟩ := rfl
  have hPower : IsPowerOfTwo ⟨4, 1⟩ := ⟨2, .inl rfl⟩
  have hLt : (1 : UInt64).toNat < 2 ^ 32 := by decide
  exact ⟨hRate, hLt, hPower,
    (framesIn_secondsOf hRate hLt).2.2 hPower⟩

/- Seven frames at 24 frames a second come back as six. -/
theorem framesIn_secondsOf_seven :
    checked 24 1 = .ok ⟨24, 1⟩ ∧
      (7 : UInt64).toNat < 2 ^ 32 ∧
      framesIn ⟨24, 1⟩ (secondsOf ⟨24, 1⟩ 7) = 6 ∧
      framesIn ⟨24, 1⟩ (secondsOf ⟨24, 1⟩ 7) ≠ 7 := by
  decide +kernel

end FrameRate

end Slideshow
