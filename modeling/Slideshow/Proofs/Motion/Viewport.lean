import Slideshow.Motion.Viewport
import Slideshow.Proofs.Outcome

/-
  This file proves what the check of a camera path is good
  for: a path that passes has a window inside the source at
  every frame up to the one after the last.

  Key definitions include:
    * `MotionPath.StaysWithin`

  Main results include:
    * `MotionPath.checkFrames_eq_ok_iff`
    * `MotionPath.checkBounds_eq_ok_iff`
-/

namespace Slideshow

namespace MotionPath

variable {path : MotionPath}
variable {source : FrameSize}

/- There is a window at a frame, and it is inside. -/
def IsWithinAt
    (path : MotionPath)
    (source : FrameSize)
    (frame : UInt64) : Prop :=
  ∃ window,
    path.sample frame source = .ok window ∧
      window.isWithin source = true

/- The window is inside the source at every frame. -/
def StaysWithin
    (path : MotionPath)
    (source : FrameSize) : Prop :=
  ∀ frame,
    frame ≤ path.totalFrames → path.IsWithinAt source frame

/- The check of one frame. -/
theorem checkFrame_eq_ok_iff
    {frame : Nat} :
    path.checkFrame source frame = .ok () ↔
      path.IsWithinAt source frame.toUInt64 := by
  unfold checkFrame IsWithinAt
  simp only [Outcome.bind_eq_ok_iff,
    Outcome.mapError_eq_ok_iff]
  constructor
  · rintro ⟨window, hSample, hCheck⟩
    split at hCheck
    · rename_i hWithin
      exact ⟨window, hSample, hWithin⟩
    · cases hCheck
  · rintro ⟨window, hSample, hWithin⟩
    exact ⟨window, hSample, by rw [if_pos hWithin]⟩

/- The check of some frames is that of each of them. -/
theorem checkFrames_eq_ok_iff
    {frame count : Nat} :
    path.checkFrames source frame count = .ok () ↔
      ∀ later, frame ≤ later → later < frame + count →
        path.IsWithinAt source later.toUInt64 := by
  induction count generalizing frame with
  | zero =>
      simp only [checkFrames, Nat.add_zero, true_iff]
      intro later hFrom hBefore
      omega
  | succ count ih =>
      rw [checkFrames]
      constructor
      · intro hCheck later hFrom hBefore
        split at hCheck
        · rename_i hFirst
          rcases Nat.eq_or_lt_of_le hFrom with rfl | hFrom
          · exact checkFrame_eq_ok_iff.mp hFirst
          · exact ih.mp hCheck later hFrom (by omega)
        · cases hCheck
      · intro hWithin
        have hFirst :
            path.checkFrame source frame = .ok () :=
          checkFrame_eq_ok_iff.mpr
            (hWithin frame (Nat.le_refl _) (by omega))
        rw [hFirst]
        apply ih.mpr
        intro later hFrom hBefore
        exact hWithin later (by omega) (by omega)

/- The check of a path is that of all its frames. -/
theorem checkBounds_eq_ok_iff :
    path.checkBounds source = .ok () ↔
      path.StaysWithin source := by
  unfold checkBounds StaysWithin
  rw [checkFrames_eq_ok_iff]
  constructor
  · intro hWithin frame hFrame
    have hBefore :
        frame.toNat < 0 + (path.totalFrames.toNat + 1) := by
      have hLe := UInt64.le_iff_toNat_le.mp hFrame
      omega
    have hSame : frame.toNat.toUInt64 = frame :=
      UInt64.ofNat_toNat
    rw [← hSame]
    exact hWithin frame.toNat (Nat.zero_le _) hBefore
  · intro hWithin frame _ hBefore
    apply hWithin
    -- No frame is lost: all of them fit into a word.
    have hBound := path.totalFrames.toNat_lt
    rw [UInt64.le_iff_toNat_le, Nat.toUInt64,
      UInt64.toNat_ofNat', Nat.mod_eq_of_lt (by omega)]
    omega

end MotionPath

end Slideshow
