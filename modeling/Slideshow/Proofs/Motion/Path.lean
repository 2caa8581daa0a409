import Slideshow.Motion.Path
import Slideshow.Proofs.Decimal.Exact
import Slideshow.Proofs.Outcome

/-
  This file proves what the planning of a camera path checks
  and what the path is made of.

  Main results include:
    * `ZoomBounds.validate_eq_ok_iff`
    * `ZoomBounds.exists_exact_of_validate`
    * `MotionPath.plan_eq_ok_iff`
-/

namespace Slideshow

------------------------------------------------------------
-- Zoom Bounds
------------------------------------------------------------

namespace ZoomBounds

variable {bounds : ZoomBounds Float}

/- All that the check of zoom bounds asks for. -/
theorem validate_eq_ok_iff :
    bounds.validate = .ok () ↔
      bounds.min.isFinite = true ∧
        bounds.max.isFinite = true ∧
        ¬ bounds.min < 1.0 ∧
        ¬ bounds.max < bounds.min := by
  unfold validate
  constructor
  · intro hValid
    split at hValid
    · cases hValid
    · rename_i hFinite
      split at hValid
      · cases hValid
      · rename_i hLow
        split at hValid
        · cases hValid
        · rename_i hOrder
          rw [Bool.or_eq_true, not_or] at hFinite
          exact ⟨by simpa using hFinite.1,
            by simpa using hFinite.2, hLow, hOrder⟩
  · rintro ⟨hMin, hMax, hLow, hOrder⟩
    simp [hMin, hMax, hLow, hOrder]

/- Bounds in use have values in order, at least one. -/
theorem exists_exact_of_validate
    (hValid : bounds.validate = .ok ()) :
    ∃ low high,
      Binary.exactValue? bounds.min = some low ∧
        Binary.exactValue? bounds.max = some high ∧
        1 ≤ low ∧ low ≤ high := by
  rcases validate_eq_ok_iff.mp hValid with
    ⟨hMin, hMax, hLow, hOrder⟩
  rcases Binary.exists_exactValue?_iff.mpr hMin with
    ⟨low, hMin⟩
  rcases Binary.exists_exactValue?_iff.mpr hMax with
    ⟨high, hMax⟩
  rw [Binary.lt_iff hMin Binary.exactValue?_one, not_lt] at hLow
  rw [Binary.lt_iff hMax hMin, not_lt] at hOrder
  exact ⟨low, high, hMin, hMax, hLow, hOrder⟩

end ZoomBounds

------------------------------------------------------------
-- Planning
------------------------------------------------------------

namespace MotionPath

/- All that planning a path does. -/
theorem plan_eq_ok_iff
    {effect : MotionEffect}
    {seconds : Float}
    {rate : FrameRate}
    {bounds : ZoomBounds Float}
    {path : MotionPath} :
    plan effect seconds rate bounds = .ok path ↔
      bounds.validate = .ok () ∧
        seconds.isFinite = true ∧ ¬ seconds ≤ 0.0 ∧
        1 ≤ rate.framesIn seconds ∧
        path =
          ⟨effect, rate.framesIn seconds,
            effect.camera bounds⟩ := by
  unfold plan
  rw [Outcome.bind_eq_ok_iff]
  simp only [Outcome.guard_eq_ok_iff]
  constructor
  · rintro ⟨⟨⟩, hBounds, hSeconds, hFrames, hEq⟩
    cases hEq
    rw [Bool.or_eq_true, not_or] at hSeconds
    refine ⟨hBounds, by simpa using hSeconds.1,
      by simpa using hSeconds.2, ?_, rfl⟩
    rw [UInt64.le_iff_toNat_le]
    have hNonzero : (rate.framesIn seconds).toNat ≠ 0 := by
      intro hZero
      exact hFrames (UInt64.toNat_inj.mp hZero)
    exact Nat.one_le_iff_ne_zero.mpr hNonzero
  · rintro ⟨hBounds, hFinite, hPositive, hFrames, rfl⟩
    refine ⟨(), hBounds, by simp [hFinite, hPositive], ?_,
      rfl⟩
    intro hZero
    rw [hZero] at hFrames
    exact absurd hFrames (by decide)

end MotionPath

end Slideshow
