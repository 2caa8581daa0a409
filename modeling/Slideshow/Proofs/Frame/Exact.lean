import Slideshow.Frame.Reading
import Slideshow.Proofs.Decimal.Whole

/-
  This file reads frame rates as fractions.

  A time is cut off to whole frames: their length is at most
  the time and falls short of it by less than one frame.

  Key definitions include:
    * `FrameRate.exactPerSecond`
    * `FrameRate.exactFrameSeconds`
    * `FrameRate.exactFramesIn`
    * `FrameRate.secondsOfFrames`
    * `FrameRate.IsCutOff`

  Main results include:
    * `FrameRate.checked_eq_ok_iff`
    * `FrameRate.toNat_framesIn`
    * `FrameRate.IsCutOff.add_left`
    * `FrameRate.isCutOff_secondsOfFrames`
-/

namespace Slideshow

/- A word is zero exactly if it is not positive. -/
theorem word_eq_zero_iff (n : UInt32) :
    n = 0 ↔ ¬ 0 < n.toNat := by
  rw [← UInt32.toNat_inj]
  simp

namespace FrameRate

------------------------------------------------------------
-- Usable Rates
------------------------------------------------------------

/- The rates that can be used have two positive parts. -/
theorem checked_eq_ok_iff
    {num den : UInt32}
    {rate : FrameRate} :
    checked num den = .ok rate ↔
      rate = ⟨num, den⟩ ∧
        0 < rate.num.toNat ∧ 0 < rate.den.toNat := by
  unfold checked
  by_cases hDen : den = 0
  · rw [if_pos hDen]
    constructor
    · intro hError
      cases hError
    · rintro ⟨rfl, -, hPos⟩
      exact absurd hPos ((word_eq_zero_iff den).mp hDen)
  · rw [if_neg hDen]
    by_cases hNum : num = 0
    · rw [if_pos hNum]
      constructor
      · intro hError
        cases hError
      · rintro ⟨rfl, hPos, -⟩
        exact absurd hPos ((word_eq_zero_iff num).mp hNum)
    · rw [if_neg hNum, Except.ok.injEq]
      rw [word_eq_zero_iff, not_not] at hDen hNum
      constructor
      · rintro rfl
        exact ⟨rfl, hNum, hDen⟩
      · rintro ⟨rfl, -, -⟩
        rfl

------------------------------------------------------------
-- Exact Rates
------------------------------------------------------------

/- The frames of a second as a fraction. -/
def exactPerSecond (rate : FrameRate) : ℚ :=
  rate.num.toNat / rate.den.toNat

/- The seconds of a frame as a fraction. -/
def exactFrameSeconds (rate : FrameRate) : ℚ :=
  rate.den.toNat / rate.num.toNat

/- The number of whole frames in an exact time. -/
def exactFramesIn
    (rate : FrameRate)
    (seconds : ℚ) : Nat :=
  ⌊seconds * rate.exactPerSecond⌋₊

/- The exact length of a number of frames. -/
def secondsOfFrames
    (rate : FrameRate)
    (frames : Nat) : ℚ :=
  frames / rate.exactPerSecond

/- A length falls short of a time by less than a frame. -/
structure IsCutOff
    (rate : FrameRate)
    (time length : ℚ) : Prop where
  le : length ≤ time
  lt_add : time < length + rate.exactFrameSeconds

/-
  What is put in front of a length does not add to what is
  cut off of it.
-/
theorem IsCutOff.add_left
    {rate : FrameRate}
    {time length : ℚ}
    (hCut : rate.IsCutOff time length)
    (before : ℚ) :
    rate.IsCutOff (before + time) (before + length) := by
  refine ⟨add_le_add_right hCut.le before, ?_⟩
  rw [add_assoc]
  exact add_lt_add_right hCut.lt_add before

/-
  Frames are counted as in exact time, as far as words of 64
  bits go, if the one product is.
-/
theorem toNat_framesIn
    {rate : FrameRate}
    {seconds : Float}
    {time : ℚ}
    (hExact :
      Binary.exactValue? (seconds * rate.perSecond) =
        some (time * rate.exactPerSecond)) :
    (rate.framesIn seconds).toNat =
      min (rate.exactFramesIn time) (2 ^ 64 - 1) :=
  Binary.toNat_floorWord hExact

section Positive

variable {rate : FrameRate}
variable (hNum : 0 < rate.num.toNat)
variable (hDen : 0 < rate.den.toNat)

include hNum hDen

theorem exactPerSecond_pos :
    0 < rate.exactPerSecond := by
  have hNum' : (0 : ℚ) < rate.num.toNat := by
    exact_mod_cast hNum
  have hDen' : (0 : ℚ) < rate.den.toNat := by
    exact_mod_cast hDen
  exact div_pos hNum' hDen'

theorem exactFrameSeconds_mul :
    rate.exactFrameSeconds * rate.exactPerSecond = 1 := by
  have hNum' : (rate.num.toNat : ℚ) ≠ 0 := by
    exact_mod_cast hNum.ne'
  have hDen' : (rate.den.toNat : ℚ) ≠ 0 := by
    exact_mod_cast hDen.ne'
  rw [exactFrameSeconds, exactPerSecond]
  field_simp

/- A time is cut off to the length of its whole frames. -/
theorem isCutOff_secondsOfFrames
    {time : ℚ}
    (hTime : 0 ≤ time) :
    rate.IsCutOff time
      (rate.secondsOfFrames (rate.exactFramesIn time)) := by
  have hRate := exactPerSecond_pos hNum hDen
  have hInverse :
      rate.exactFrameSeconds = 1 / rate.exactPerSecond :=
    eq_div_of_mul_eq hRate.ne'
      (exactFrameSeconds_mul hNum hDen)
  constructor
  · rw [secondsOfFrames, div_le_iff₀ hRate]
    exact Nat.floor_le (mul_nonneg hTime hRate.le)
  · rw [secondsOfFrames, hInverse, ← add_div,
      lt_div_iff₀ hRate]
    exact Nat.lt_floor_add_one _

end Positive

end FrameRate

end Slideshow
