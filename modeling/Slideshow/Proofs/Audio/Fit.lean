import Slideshow.Audio.Fit
import Slideshow.Audio.Wave
import Slideshow.Proofs.Decimal.Error
import Slideshow.Proofs.Decimal.Loss
import Slideshow.Proofs.Decimal.Quotient
import Slideshow.Proofs.Decimal.Whole

/-
  This file proves what is known of the lengths of a
  narration and of a film once they have been compared.

  The comparison adds the tolerance to one of the lengths
  and rounds.  It never finds a difference where there is
  none beyond the tolerance (`AudioFit.Tells.near`), and
  overlooks one only if it is beyond it by no more than one
  rounding (`AudioFit.Tells.exact`).

  Key definitions include:
    * `AudioFit.exactTolerance`
    * `AudioFit.Tells`

  Main results include:
    * `AudioFit.classify_tells`
    * `AudioFit.classify_eq_unknown_iff`
    * `WaveInfo.exists_seconds`
-/

namespace Slideshow

open Binary

namespace AudioFit

------------------------------------------------------------
-- Verdicts
------------------------------------------------------------

/- The value of the tolerance, about a thousandth. -/
def exactTolerance : ℚ :=
  4611686018427388 / 2 ^ 62

/-
  What a verdict says of the lengths of a narration and of a
  film, both without rounding.
-/
structure Tells
    (fit : AudioFit)
    (audio video : ℚ) : Prop where
  known : fit ≠ .unknown
  underrun :
    ∀ missing, fit = .underrun missing →
      audio + exactTolerance < video ∧
        Rounds missing (video - audio)
  truncated :
    ∀ excess, fit = .truncated excess →
      video + exactTolerance < audio ∧
        Rounds excess (audio - video)
  exact :
    fit = .exact →
      video ≤ (audio + exactTolerance) * (1 + unit) ∧
        audio ≤ (video + exactTolerance) * (1 + unit)
  near :
    |audio - video| ≤ exactTolerance → fit = .exact

theorem exactValue?_tolerance :
    exactValue? tolerance = some exactTolerance := by
  have hFields :
      ofFloat tolerance =
        .finite false 4611686018427388 (-62) := rfl
  rw [exactValue?, hFields, value?]
  norm_num [magnitude, exactTolerance]

theorem exactTolerance_pos : 0 < exactTolerance := by
  norm_num [exactTolerance]

section Comparing

variable {shorter longer : Float}
variable {a b : ℚ}
variable (hShorter : exactValue? shorter = some a)
variable (hLonger : exactValue? longer = some b)
variable (hNonneg : 0 ≤ a)

include hShorter hLonger hNonneg

/-
  A length that is found longer is longer by more than the
  tolerance, since rounding does not go past a double.
-/
theorem lt_of_add_tolerance_lt
    (hLt : shorter + tolerance < longer) :
    a + exactTolerance < b := by
  have hPos : 0 < a + exactTolerance :=
    add_pos_of_nonneg_of_pos hNonneg exactTolerance_pos
  rw [add_lt_iff hShorter exactValue?_tolerance hLonger hPos]
    at hLt
  have hSome : 0 < b := (nearest_nonneg hPos).trans_lt hLt
  by_contra hLe
  have hAbove : b ≤ nearest (a + exactTolerance) := by
    rw [← nearest_of_exactValue? hLonger]
    exact nearest_mono hSome (not_lt.mp hLe)
  exact absurd hLt (not_lt.mpr hAbove)

/- A length that is not is so by one rounding at most. -/
theorem le_of_not_add_tolerance_lt
    (hNot : ¬ shorter + tolerance < longer) :
    b ≤ (a + exactTolerance) * (1 + unit) := by
  have hPos : 0 < a + exactTolerance :=
    add_pos_of_nonneg_of_pos hNonneg exactTolerance_pos
  rw [add_lt_iff hShorter exactValue?_tolerance hLonger hPos,
    not_lt] at hNot
  have hNormal :
      2 ^ (-1022 : ℤ) ≤ a + exactTolerance :=
    calc (2 : ℚ) ^ (-1022 : ℤ)
        ≤ 2 ^ (-10 : ℤ) :=
          zpow_le_zpow_right₀ one_le_two (by omega)
      _ ≤ exactTolerance := by norm_num [exactTolerance]
      _ ≤ a + exactTolerance := le_add_of_nonneg_left hNonneg
  have hDistance := (abs_le.mp (abs_nearest_sub_le hNormal)).2
  rw [unit]
  linarith

end Comparing

/- What the verdict on two finite lengths says of them. -/
theorem classify_tells
    {audio video : Float}
    {a v : ℚ}
    (hAudio : exactValue? audio = some a)
    (hVideo : exactValue? video = some v)
    (hStart : 0 ≤ a)
    (hLength : 0 ≤ v) :
    (classify (some audio) video).Tells a v := by
  by_cases hShort : audio + tolerance < video
  · have hLt :=
      lt_of_add_tolerance_lt hAudio hVideo hStart hShort
    simp only [classify, if_pos hShort]
    constructor
    case known => simp
    case underrun =>
      rintro _ ⟨⟩
      exact ⟨hLt, rounds_sub hVideo hAudio⟩
    case truncated => simp
    case exact => simp
    case near =>
      intro hNear
      have hClose := (abs_le.mp hNear).1
      linarith
  · by_cases hLong : video + tolerance < audio
    · have hLt :=
        lt_of_add_tolerance_lt hVideo hAudio hLength hLong
      simp only [classify, if_neg hShort, if_pos hLong]
      constructor
      case known => simp
      case underrun => simp
      case truncated =>
        rintro _ ⟨⟩
        exact ⟨hLt, rounds_sub hAudio hVideo⟩
      case exact => simp
      case near =>
        intro hNear
        have hClose := (abs_le.mp hNear).2
        linarith
    · simp only [classify, if_neg hShort, if_neg hLong]
      constructor
      case known => simp
      case underrun => simp
      case truncated => simp
      case exact =>
        intro _
        exact ⟨le_of_not_add_tolerance_lt hAudio hVideo
            hStart hShort,
          le_of_not_add_tolerance_lt hVideo hAudio hLength
            hLong⟩
      case near => simp

/- Only of a narration of unknown length nothing is known. -/
theorem classify_eq_unknown_iff
    {audio : Option Float}
    {video : Float} :
    classify audio video = .unknown ↔ audio = none := by
  cases audio with
  | none => exact ⟨fun _ => rfl, fun _ => rfl⟩
  | some seconds =>
      unfold classify
      dsimp only
      split_ifs <;> simp

end AudioFit

------------------------------------------------------------
-- Playing Times
------------------------------------------------------------

namespace WaveInfo

/-
  The playing time that a header tells is a finite number of
  seconds and not negative.
-/
theorem exists_seconds
    {info : WaveInfo}
    (hRate : info.byteRate < 2 ^ 32) :
    ∃ t, exactValue? info.seconds = some t ∧ 0 ≤ t := by
  unfold seconds
  by_cases hNone : info.byteRate = 0
  · rw [if_pos hNone]
    exact ⟨0, exactValue?_zero, le_rfl⟩
  · rw [if_neg hNone]
    have hLow : (1 : ℚ) ≤ info.byteRate := by
      exact_mod_cast Nat.one_le_iff_ne_zero.mpr hNone
    have hHigh : (info.byteRate : ℚ) < 2 ^ 32 := by
      exact_mod_cast hRate
    have hPos : (0 : ℚ) < info.byteRate := by
      linarith
    have hQuotient :=
      rounds_div (exactValue?_word32 info.dataLength)
        (exactValue?_ofNat (by omega)) hPos.ne'
    rcases Nat.eq_zero_or_pos info.dataLength.toNat with
      hEmpty | hSome
    · have hRange : 0 < rangeEnd := zpow_pos two_pos _
      rw [hEmpty, Nat.cast_zero, zero_div, Rounds,
        nearest_zero, abs_zero, if_pos hRange] at hQuotient
      exact ⟨0, hQuotient, le_rfl⟩
    · have hByte : (1 : ℚ) ≤ info.dataLength.toNat := by
        exact_mod_cast hSome
      have hLength :
          (info.dataLength.toNat : ℚ) < 2 ^ 32 := by
        exact_mod_cast info.dataLength.toNat_lt
      have hTime :
          IsOrdinary
            (info.dataLength.toNat / info.byteRate) := by
        constructor
        · rw [le_div_iff₀ hPos]
          norm_num
          linarith
        · rw [div_le_iff₀ hPos]
          norm_num
          linarith
      exact ⟨_, exactValue?_of_rounds hTime hQuotient,
        nearest_nonneg hTime.pos⟩

end WaveInfo

end Slideshow
