import Slideshow.Proofs.Motion.Exact

/-
  This file proves how the window of each camera move goes
  through a clip, over exact fractions.

  The window of a move has a closed form: a zoom that goes
  evenly between its bounds, and shares of the margins that
  the zoom leaves.  Two moves are the same one in opposite
  directions if zooms and shares at what remains of a clip
  are those at its progress.  A sweep never turns back since
  neither its share nor the margin falls, even where the
  margin grows with the zoom.

  Key definitions include:
    * `MotionEffect.exactWindow`
    * `ExactViewport.IsCentredAcross`
    * `ExactViewport.IsCentredDown`
    * `MotionPath.SweepsRight`
    * `MotionPath.SweepsUp`

  Main results include:
    * `MotionPath.exactSample?_eq`
    * `MotionEffect.exactWindow_reversed`
    * `MotionEffect.exactWindow_x_mono`
    * `MotionPath.sweepsRight_exactWindow`
    * `MotionPath.exactSample?_sweeps`
-/

namespace Slideshow

------------------------------------------------------------
-- Closed Forms
------------------------------------------------------------

namespace ExactViewport

/- The greatest offset along a side at the zoom. -/
def margin
    (window : ExactViewport)
    (length : ℚ) : ℚ :=
  length - length / window.zoom

/- As much of the source is left of the window as right. -/
def IsCentredAcross
    (window : ExactViewport)
    (source : FrameSize) : Prop :=
  window.x = window.margin source.width.toNat / 2

/- As much of the source is above the window as below. -/
def IsCentredDown
    (window : ExactViewport)
    (source : FrameSize) : Prop :=
  window.y = window.margin source.height.toNat / 2

end ExactViewport

namespace MotionEffect

/- The zoom of a move within bounds at a progress. -/
def exactZoom
    (low high progress : ℚ) :
    MotionEffect → ℚ
  | .zoomIn => low + (high - low) * progress
  | .zoomOut => high - (high - low) * progress
  | .panLeft => high
  | .panRight => high
  | .panUp => high
  | .zoomPanRight => low + (high - low) * progress

/- The share of the margin that is left of the window. -/
def shareAcross
    (progress : ℚ) :
    MotionEffect → ℚ
  | .panLeft => 1 - progress
  | .panRight => progress
  | .zoomPanRight => progress
  | _ => 1 / 2

/- The share of the margin that is above the window. -/
def shareDown
    (progress : ℚ) :
    MotionEffect → ℚ
  | .panUp => 1 - progress
  | _ => 1 / 2

/- The window of a move at a progress. -/
def exactWindow
    (effect : MotionEffect)
    (low high : ℚ)
    (source : FrameSize)
    (progress : ℚ) : ExactViewport :=
  let width : ℚ := source.width.toNat
  let height : ℚ := source.height.toNat
  let zoom := effect.exactZoom low high progress
  ⟨zoom, (width - width / zoom) * effect.shareAcross progress,
    (height - height / zoom) * effect.shareDown progress⟩

/- A move sweeps from one side to the other. -/
def sweepsAcross : MotionEffect → Bool
  | .panLeft => true
  | .panRight => true
  | .zoomPanRight => true
  | _ => false

------------------------------------------------------------
-- Values
------------------------------------------------------------

section Values

variable {env : Env ℚ}
variable {bounds : ZoomBounds Float}

/- The value of the zoom of each move. -/
theorem exactValue?_zoom
    {low high : ℚ}
    (effect : MotionEffect)
    (hMin : Binary.exactValue? bounds.min = some low)
    (hMax : Binary.exactValue? bounds.max = some high) :
    (effect.camera bounds).zoom.exactValue? env =
      some (effect.exactZoom low high env.progress) := by
  cases effect with
  | zoomIn => exact exactValue?_zoomUp hMin hMax
  | zoomOut => exact exactValue?_zoomDown hMin hMax
  | panLeft => exact hMax
  | panRight => exact hMax
  | panUp => exact hMax
  | zoomPanRight => exact exactValue?_zoomUp hMin hMax

section Offsets

variable {side : Variable}
variable {length zoom : ℚ}
variable (hSide : env.lookup? side = some length)
variable (hZoom : env.zoom = some zoom)
variable (hNonzero : zoom ≠ 0)

include hSide hZoom hNonzero

theorem exactValue?_centred :
    (centred side : Expr Float).exactValue? env =
      some ((length - length / zoom) * (1 / 2)) := by
  rw [← div_eq_mul_one_div]
  exact Expr.exactValue?_div
    (exactValue?_margin hSide hZoom hNonzero)
    exactValue?_const_two two_ne_zero

theorem exactValue?_forwards :
    (margin side * .var .progress : Expr Float).exactValue?
        env =
      some ((length - length / zoom) * env.progress) :=
  Expr.exactValue?_mul
    (exactValue?_margin hSide hZoom hNonzero) rfl

theorem exactValue?_backwards :
    (margin side * remaining : Expr Float).exactValue? env =
      some
        ((length - length / zoom) * (1 - env.progress)) :=
  Expr.exactValue?_mul
    (exactValue?_margin hSide hZoom hNonzero)
    exactValue?_remaining

end Offsets

/- The values of the offsets of each move. -/
theorem exactValue?_offsets
    {zoom : ℚ}
    (effect : MotionEffect)
    (bounds : ZoomBounds Float)
    (hZoom : env.zoom = some zoom)
    (hNonzero : zoom ≠ 0) :
    (effect.camera bounds).x.exactValue? env =
        some
          ((env.inputWidth - env.inputWidth / zoom) *
            effect.shareAcross env.progress) ∧
      (effect.camera bounds).y.exactValue? env =
        some
          ((env.inputHeight - env.inputHeight / zoom) *
            effect.shareDown env.progress) := by
  have hWidth :
      env.lookup? .inputWidth = some env.inputWidth := rfl
  have hHeight :
      env.lookup? .inputHeight = some env.inputHeight := rfl
  have hCentredX := exactValue?_centred hWidth hZoom hNonzero
  have hCentredY :=
    exactValue?_centred hHeight hZoom hNonzero
  have hForwardsX :=
    exactValue?_forwards hWidth hZoom hNonzero
  have hBackwardsX :=
    exactValue?_backwards hWidth hZoom hNonzero
  have hBackwardsY :=
    exactValue?_backwards hHeight hZoom hNonzero
  cases effect with
  | zoomIn => exact ⟨hCentredX, hCentredY⟩
  | zoomOut => exact ⟨hCentredX, hCentredY⟩
  | panLeft => exact ⟨hBackwardsX, hCentredY⟩
  | panRight => exact ⟨hForwardsX, hCentredY⟩
  | panUp => exact ⟨hCentredX, hBackwardsY⟩
  | zoomPanRight => exact ⟨hForwardsX, hCentredY⟩

end Values

------------------------------------------------------------
-- Windows
------------------------------------------------------------

section Windows

variable {low high : ℚ}
variable {source : FrameSize}

/- A zoom is at least one. -/
theorem one_le_exactZoom
    (effect : MotionEffect)
    {progress : ℚ}
    (hLow : 1 ≤ low)
    (hOrder : low ≤ high)
    (hStart : 0 ≤ progress)
    (hEnd : progress ≤ 1) :
    1 ≤ effect.exactZoom low high progress := by
  have hRange : 0 ≤ high - low := by
    linarith
  have hNonneg : 0 ≤ (high - low) * progress :=
    mul_nonneg hRange hStart
  have hAtMost : (high - low) * progress ≤ high - low :=
    mul_le_of_le_one_right hRange hEnd
  cases effect <;> simp only [exactZoom] <;> linarith

/- Zooms and pans sideways come in opposite directions. -/
theorem exactWindow_reversed (progress : ℚ) :
    zoomOut.exactWindow low high source progress =
        zoomIn.exactWindow low high source (1 - progress) ∧
      panLeft.exactWindow low high source progress =
        panRight.exactWindow low high source
          (1 - progress) := by
  have hZoom :
      zoomOut.exactZoom low high progress =
        zoomIn.exactZoom low high (1 - progress) := by
    simp only [exactZoom]
    ring
  refine ⟨?_, rfl⟩
  unfold exactWindow
  rw [hZoom]
  rfl

/- The margin grows with the zoom. -/
theorem margin_mono
    {length z z' : ℚ}
    (hLength : 0 ≤ length)
    (hZoom : 1 ≤ z)
    (hLe : z ≤ z') :
    0 ≤ length - length / z ∧
      length - length / z ≤ length - length / z' := by
  have hPos : 0 < z := by
    linarith
  exact ⟨sub_nonneg.mpr (div_le_self hLength hZoom),
    sub_le_sub_left
      (div_le_div_of_nonneg_left hLength hPos hLe) length⟩

/- A sweep to the right does not turn back. -/
theorem exactWindow_x_mono
    {effect : MotionEffect}
    {p p' : ℚ}
    (hEffect : effect = .panRight ∨ effect = .zoomPanRight)
    (hLow : 1 ≤ low)
    (hOrder : low ≤ high)
    (hStart : 0 ≤ p)
    (hLe : p ≤ p')
    (hEnd : p' ≤ 1) :
    (effect.exactWindow low high source p).x ≤
      (effect.exactWindow low high source p').x := by
  have hWidth : (0 : ℚ) ≤ source.width.toNat :=
    Nat.cast_nonneg _
  have hZoom :
      effect.exactZoom low high p ≤
        effect.exactZoom low high p' := by
    rcases hEffect with rfl | rfl
    · exact le_rfl
    · have hGrows :
          (high - low) * p ≤ (high - low) * p' :=
        mul_le_mul_of_nonneg_left hLe (by linarith)
      simp only [exactZoom]
      linarith
  have hShare :
      effect.shareAcross p = p ∧
        effect.shareAcross p' = p' := by
    rcases hEffect with rfl | rfl <;> exact ⟨rfl, rfl⟩
  have hOne :=
    effect.one_le_exactZoom hLow hOrder hStart
      (hLe.trans hEnd)
  rcases margin_mono hWidth hOne hZoom with
    ⟨hNonneg, hGrows⟩
  unfold exactWindow
  dsimp only
  rw [hShare.1, hShare.2]
  exact mul_le_mul hGrows hLe hStart (hNonneg.trans hGrows)

/- A sweep upwards does not turn back. -/
theorem exactWindow_y_anti
    {p p' : ℚ}
    (hHigh : 1 ≤ high)
    (hLe : p ≤ p') :
    (panUp.exactWindow low high source p').y ≤
      (panUp.exactWindow low high source p).y := by
  have hHeight : (0 : ℚ) ≤ source.height.toNat :=
    Nat.cast_nonneg _
  have hMargin := (margin_mono hHeight hHigh le_rfl).1
  have hShare : 1 - p' ≤ 1 - p := by
    linarith
  exact mul_le_mul_of_nonneg_left hShare hMargin

/- Where a move does not sweep sideways it is centred. -/
theorem exactWindow_isCentredAcross
    {effect : MotionEffect}
    {progress : ℚ}
    (hStill : effect.sweepsAcross = false) :
    (effect.exactWindow low high source
      progress).IsCentredAcross source := by
  have hShare : effect.shareAcross progress = 1 / 2 := by
    cases effect with
    | zoomIn => rfl
    | zoomOut => rfl
    | panLeft => cases hStill
    | panRight => cases hStill
    | panUp => rfl
    | zoomPanRight => cases hStill
  unfold ExactViewport.IsCentredAcross exactWindow
  dsimp only
  rw [hShare, mul_one_div]
  rfl

/- All moves but the one upwards are centred the other way. -/
theorem exactWindow_isCentredDown
    {effect : MotionEffect}
    {progress : ℚ}
    (hOther : effect ≠ .panUp) :
    (effect.exactWindow low high source
      progress).IsCentredDown source := by
  have hShare : effect.shareDown progress = 1 / 2 := by
    cases effect with
    | panUp => exact absurd rfl hOther
    | _ => rfl
  unfold ExactViewport.IsCentredDown exactWindow
  dsimp only
  rw [hShare, mul_one_div]
  rfl

end Windows

end MotionEffect

------------------------------------------------------------
-- Clips
------------------------------------------------------------

namespace MotionPath

open MotionEffect

/- Windows go from the left edge to the right one. -/
structure SweepsRight
    (window : UInt64 → ExactViewport)
    (frames : UInt64)
    (source : FrameSize) : Prop where
  first : (window 0).x = 0
  last :
    (window frames).x =
      (window frames).margin source.width.toNat
  mono :
    ∀ f g, f ≤ g → g ≤ frames → (window f).x ≤ (window g).x

/- Windows go from the bottom edge to the top one. -/
structure SweepsUp
    (window : UInt64 → ExactViewport)
    (frames : UInt64)
    (source : FrameSize) : Prop where
  first :
    (window 0).y = (window 0).margin source.height.toNat
  last : (window frames).y = 0
  anti :
    ∀ f g, f ≤ g → g ≤ frames → (window g).y ≤ (window f).y

/- The progress at a frame of a clip. -/
def frameProgress (frames frame : UInt64) : ℚ :=
  frame.toNat / frames.toNat

section Frames

variable {frames : UInt64}
variable (hFrames : 1 ≤ frames)

include hFrames

theorem frameProgress_ends :
    frameProgress frames 0 = 0 ∧
      frameProgress frames frames = 1 := by
  have hPos : 0 < frames.toNat :=
    UInt64.le_iff_toNat_le.mp hFrames
  have hTotal : (frames.toNat : ℚ) ≠ 0 := by
    exact_mod_cast hPos.ne'
  exact ⟨by simp [frameProgress], div_self hTotal⟩

omit hFrames in
/- The progress does not fall. -/
theorem frameProgress_mono
    {f g : UInt64}
    (hLe : f ≤ g) :
    0 ≤ frameProgress frames f ∧
      frameProgress frames f ≤ frameProgress frames g := by
  have hNat : (f.toNat : ℚ) ≤ g.toNat := by
    exact_mod_cast UInt64.le_iff_toNat_le.mp hLe
  unfold frameProgress
  constructor
  · positivity
  · exact div_le_div_of_nonneg_right hNat (Nat.cast_nonneg _)

/- At as many frames before the end, so much remains. -/
theorem frameProgress_sub
    {frame : UInt64}
    (hLe : frame ≤ frames) :
    frameProgress frames (frames - frame) =
      1 - frameProgress frames frame := by
  have hNat := UInt64.le_iff_toNat_le.mp hLe
  have hWhole := (frameProgress_ends hFrames).2
  unfold frameProgress at hWhole ⊢
  rw [UInt64.toNat_sub_of_le _ _ hLe, Nat.cast_sub hNat,
    sub_div, hWhole]

/- The window of a clip has the closed form of its move. -/
theorem exactSample?_eq
    {bounds : ZoomBounds Float}
    {low high : ℚ}
    (effect : MotionEffect)
    (source : FrameSize)
    {frame : UInt64}
    (hMin : Binary.exactValue? bounds.min = some low)
    (hMax : Binary.exactValue? bounds.max = some high)
    (hLow : 1 ≤ low)
    (hOrder : low ≤ high)
    (hLe : frame ≤ frames) :
    exactSample? ⟨effect, frames, effect.camera bounds⟩ frame
        source =
      some
        (effect.exactWindow low high source
          (frameProgress frames frame)) := by
  have hProgress :
      exactProgress
          ⟨effect, frames, effect.camera bounds⟩ frame =
        frameProgress frames frame := by
    rw [exactProgress,
      min_eq_left (UInt64.le_iff_toNat_le.mp hLe)]
    rfl
  rcases frameProgress_mono hLe with
    ⟨hStart, hEnd⟩
  rw [(frameProgress_ends hFrames).2] at hEnd
  have hOne :=
    effect.one_le_exactZoom hLow hOrder hStart hEnd
  have hNonzero :
      effect.exactZoom low high
        (frameProgress frames frame) ≠ 0 := by
    linarith
  let bound : Env ℚ :=
    ⟨frameProgress frames frame, source.width.toNat,
      source.height.toNat,
      some
        (effect.exactZoom low high
          (frameProgress frames frame))⟩
  have hZoom :
      bound.zoom =
        some
          (effect.exactZoom low high
            (frameProgress frames frame)) := rfl
  rcases effect.exactValue?_offsets bounds hZoom hNonzero
    with ⟨hX, hY⟩
  simp only [exactSample?, hProgress]
  rw [effect.exactValue?_zoom hMin hMax]
  simp only [Option.bind_eq_bind, Option.bind_some]
  rw [hX, hY]
  rfl

variable {low high : ℚ}
variable {source : FrameSize}

/- A sweep to the right goes from edge to edge. -/
theorem sweepsRight_exactWindow
    {effect : MotionEffect}
    (hEffect : effect = .panRight ∨ effect = .zoomPanRight)
    (hLow : 1 ≤ low)
    (hOrder : low ≤ high) :
    SweepsRight
      (fun frame =>
        effect.exactWindow low high source
          (frameProgress frames frame))
      frames source := by
  rcases frameProgress_ends hFrames with ⟨hFirst, hLast⟩
  refine ⟨?_, ?_, ?_⟩
  · rcases hEffect with rfl | rfl <;>
      simp [exactWindow, shareAcross, hFirst]
  · rcases hEffect with rfl | rfl <;>
      simp [exactWindow, shareAcross, hLast,
        ExactViewport.margin]
  · intro f g hf hg
    rcases frameProgress_mono hf with ⟨hStart, hLe⟩
    have hEnd : frameProgress frames g ≤ 1 :=
      (frameProgress_mono hg).2.trans_eq hLast
    exact exactWindow_x_mono hEffect hLow hOrder hStart hLe
      hEnd

/- The sweep upwards goes from edge to edge. -/
theorem sweepsUp_exactWindow
    (hHigh : 1 ≤ high) :
    SweepsUp
      (fun frame =>
        panUp.exactWindow low high source
          (frameProgress frames frame))
      frames source := by
  rcases frameProgress_ends hFrames with ⟨hFirst, hLast⟩
  refine ⟨?_, ?_, ?_⟩
  · simp [exactWindow, shareDown, hFirst,
      ExactViewport.margin]
  · simp [exactWindow, shareDown, hLast]
  · intro f g hf _
    exact exactWindow_y_anti hHigh (frameProgress_mono hf).2

end Frames

/-
  Over exact fractions every camera move that is planned has
  a window at every frame of its clip, and so has its camera
  over any other number of frames.  Zooming out is zooming in played
  backwards, and so is panning left panning right.  Both
  sweeps to the right begin at the left edge, never turn
  back and end at the right edge, and the sweep upwards does
  so from the bottom to the top.  Where a move does not
  sweep its window is centred.
-/
theorem exactSample?_sweeps
    {bounds : ZoomBounds Float}
    {frames : UInt64}
    (source : FrameSize)
    (hBounds : bounds.validate = .ok ())
    (hFrames : 1 ≤ frames) :
    ∃ window : MotionEffect → UInt64 → ExactViewport,
      (∀ effect seconds rate path,
        plan effect seconds rate bounds = .ok path →
          path.totalFrames = frames →
            ∀ frame, frame ≤ frames →
              exactSample? path frame source =
                some (window effect frame)) ∧
        (∀ effect frame, frame ≤ frames →
          exactSample?
              ⟨effect, frames, effect.camera bounds⟩ frame
              source =
            some (window effect frame)) ∧
        (∀ frame, frame ≤ frames →
          window .zoomOut frame =
              window .zoomIn (frames - frame) ∧
            window .panLeft frame =
              window .panRight (frames - frame)) ∧
        SweepsRight (window .panRight) frames source ∧
        SweepsRight (window .zoomPanRight) frames source ∧
        SweepsUp (window .panUp) frames source ∧
        ∀ effect frame, frame ≤ frames →
          (effect.sweepsAcross = false →
            (window effect frame).IsCentredAcross source) ∧
          (effect ≠ .panUp →
            (window effect frame).IsCentredDown source) := by
  rcases ZoomBounds.exists_exact_of_validate hBounds with
    ⟨low, high, hMin, hMax, hLow, hOrder⟩
  have hWindow (effect : MotionEffect) (frame : UInt64) :
      frame ≤ frames →
        exactSample?
            ⟨effect, frames, effect.camera bounds⟩ frame
            source =
          some (effect.exactWindow low high source
            (frameProgress frames frame)) :=
    exactSample?_eq hFrames effect source hMin hMax hLow
      hOrder
  refine ⟨fun effect frame =>
    effect.exactWindow low high source
      (frameProgress frames frame), ?_, hWindow, ?_,
    sweepsRight_exactWindow hFrames (.inl rfl) hLow hOrder,
    sweepsRight_exactWindow hFrames (.inr rfl) hLow hOrder,
    sweepsUp_exactWindow hFrames (hLow.trans hOrder), ?_⟩
  · intro effect seconds rate path hPlan hTotal frame hLe
    rcases plan_eq_ok_iff.mp hPlan with ⟨_, _, _, _, rfl⟩
    cases hTotal
    exact hWindow effect frame hLe
  · intro frame hLe
    dsimp only
    rw [frameProgress_sub hFrames hLe]
    exact exactWindow_reversed _
  · intro effect frame _
    exact ⟨exactWindow_isCentredAcross,
      exactWindow_isCentredDown⟩

/- Eight seconds of zooming out, one fourth of the way. -/
theorem exactSample?_sweeps_backwards :
    ZoomBounds.standard.validate = .ok () ∧
      (1 : UInt64) ≤ 192 ∧
      ∃ back forth window,
        plan .zoomOut 8.0 ⟨24, 1⟩ .standard = .ok back ∧
          plan .zoomIn 8.0 ⟨24, 1⟩ .standard = .ok forth ∧
          exactSample? back 48 ⟨3840, 2160⟩ = some window ∧
          exactSample? forth 144 ⟨3840, 2160⟩ =
            some window := by
  have hBounds : ZoomBounds.standard.validate = .ok () := rfl
  have hFrames : (1 : UInt64) ≤ 192 := by decide
  have hPlan (effect : MotionEffect) :
      plan effect 8.0 ⟨24, 1⟩ .standard =
        .ok ⟨effect, 192, effect.camera .standard⟩ := rfl
  rcases exactSample?_sweeps ⟨3840, 2160⟩ hBounds hFrames with
    ⟨window, hWindow, -, hReversed, -⟩
  have hBack : window .zoomOut 48 = window .zoomIn 144 :=
    (hReversed 48 (by decide)).1
  refine ⟨hBounds, hFrames, _, _, window .zoomIn 144,
    hPlan .zoomOut, hPlan .zoomIn, ?_,
    hWindow _ _ _ _ (hPlan .zoomIn) rfl 144 (by decide)⟩
  rw [← hBack]
  exact hWindow _ _ _ _ (hPlan .zoomOut) rfl 48 (by decide)

end MotionPath

end Slideshow
