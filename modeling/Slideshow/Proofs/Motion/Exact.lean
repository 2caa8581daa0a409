import Mathlib.Tactic.FieldSimp
import Mathlib.Tactic.Linarith
import Slideshow.Motion.Viewport
import Slideshow.Proofs.Expr.Exact
import Slideshow.Proofs.Motion.Path

/-
  This file proves that over exact fractions the visible
  window of a camera never leaves the picture.

  Every offset is a share of the margin that the zoom of the
  frame leaves (`Expr.TakesShare`): one half where the
  window is centred, the progress or what remains of it
  where the window sweeps.  So the bounds of the offsets do
  not depend on how the zoom moves, as long as it is at
  least one.

  Key definitions include:
    * `MotionPath.exactProgress`
    * `MotionPath.exactSample?`
    * `ExactViewport.IsWithin`

  Main results include:
    * `MotionEffect.exists_zoom`
    * `MotionEffect.takesShare_offsets`
    * `MotionPath.exactSample?_isWithin`
-/

namespace Slideshow

------------------------------------------------------------
-- Exact Windows
------------------------------------------------------------

/- The visible window at one frame, without rounding. -/
structure ExactViewport where
  zoom : ℚ
  x : ℚ
  y : ℚ

/-
  The zoom is between its bounds, and the window lies inside
  a source.
-/
structure ExactViewport.IsWithin
    (window : ExactViewport)
    (low high : ℚ)
    (source : FrameSize) : Prop where
  low_le : low ≤ window.zoom
  le_high : window.zoom ≤ high
  x_nonneg : 0 ≤ window.x
  x_le :
    window.x ≤
      source.width.toNat - source.width.toNat / window.zoom
  y_nonneg : 0 ≤ window.y
  y_le :
    window.y ≤
      source.height.toNat -
        source.height.toNat / window.zoom

namespace MotionPath

/- The progress at a frame, at most one. -/
def exactProgress
    (path : MotionPath)
    (frame : UInt64) : ℚ :=
  (min frame.toNat path.totalFrames.toNat : ℕ) /
    path.totalFrames.toNat

/-
  The window at a frame over a source, if no formula divides
  by zero.  The offsets refer to the zoom of the frame.
-/
def exactSample?
    (path : MotionPath)
    (frame : UInt64)
    (source : FrameSize) : Option ExactViewport := do
  let env : Env ℚ :=
    ⟨path.exactProgress frame, source.width.toNat,
      source.height.toNat, none⟩
  let zoom ← path.camera.zoom.exactValue? env
  let env := { env with zoom := some zoom }
  let x ← path.camera.x.exactValue? env
  let y ← path.camera.y.exactValue? env
  return ⟨zoom, x, y⟩

end MotionPath

/-
  An offset is a share of the margin that a zoom leaves of a
  side, between nothing and all of it.
-/
def Expr.TakesShare
    (offset : Expr Float)
    (env : Env ℚ)
    (length zoom : ℚ) : Prop :=
  ∃ share,
    0 ≤ share ∧ share ≤ 1 ∧
      offset.exactValue? env =
        some ((length - length / zoom) * share)

------------------------------------------------------------
-- Zooms
------------------------------------------------------------

namespace MotionEffect

variable {env : Env ℚ}
variable {bounds : ZoomBounds Float}

theorem exactValue?_const_one :
    (Expr.const 1 : Expr Float).exactValue? env = some 1 := by
  have hFields :
      Binary.ofFloat 1 =
        .finite false 4503599627370496 (-52) := rfl
  rw [Expr.exactValue?, Binary.exactValue?, hFields,
    Binary.value?]
  norm_num [Binary.magnitude]

theorem exactValue?_const_two :
    (Expr.const 2 : Expr Float).exactValue? env = some 2 := by
  have hFields :
      Binary.ofFloat 2 =
        .finite false 4503599627370496 (-51) := rfl
  rw [Expr.exactValue?, Binary.exactValue?, hFields,
    Binary.value?]
  norm_num [Binary.magnitude]

theorem exactValue?_remaining :
    (remaining : Expr Float).exactValue? env =
      some (1 - env.progress) :=
  Expr.exactValue?_sub exactValue?_const_one rfl

section Zoom

variable {low high : ℚ}
variable (hMin : Binary.exactValue? bounds.min = some low)
variable (hMax : Binary.exactValue? bounds.max = some high)

include hMin hMax

theorem exactValue?_zoomUp :
    (zoomUp bounds).exactValue? env =
      some (low + (high - low) * env.progress) :=
  Expr.exactValue?_add hMin
    (Expr.exactValue?_mul (Expr.exactValue?_sub hMax hMin)
      rfl)

theorem exactValue?_zoomDown :
    (zoomDown bounds).exactValue? env =
      some (high - (high - low) * env.progress) :=
  Expr.exactValue?_sub hMax
    (Expr.exactValue?_mul (Expr.exactValue?_sub hMax hMin)
      rfl)

/- Every zoom has a value, and it is between the bounds. -/
theorem exists_zoom
    (effect : MotionEffect)
    (hOrder : low ≤ high)
    (hStart : 0 ≤ env.progress)
    (hEnd : env.progress ≤ 1) :
    ∃ zoom,
      (effect.camera bounds).zoom.exactValue? env =
          some zoom ∧
        low ≤ zoom ∧ zoom ≤ high := by
  have hRange : 0 ≤ high - low := by
    linarith
  have hNonneg : 0 ≤ (high - low) * env.progress :=
    mul_nonneg hRange hStart
  have hAtMost :
      (high - low) * env.progress ≤ high - low :=
    mul_le_of_le_one_right hRange hEnd
  have hUp :
      ∃ zoom,
        (zoomUp bounds).exactValue? env = some zoom ∧
          low ≤ zoom ∧ zoom ≤ high :=
    ⟨_, exactValue?_zoomUp hMin hMax, by linarith,
      by linarith⟩
  have hDown :
      ∃ zoom,
        (zoomDown bounds).exactValue? env = some zoom ∧
          low ≤ zoom ∧ zoom ≤ high :=
    ⟨_, exactValue?_zoomDown hMin hMax, by linarith,
      by linarith⟩
  have hHeld :
      ∃ zoom,
        (Expr.const bounds.max).exactValue? env =
            some zoom ∧
          low ≤ zoom ∧ zoom ≤ high :=
    ⟨high, hMax, hOrder, le_refl high⟩
  cases effect with
  | zoomIn => exact hUp
  | zoomOut => exact hDown
  | panLeft => exact hHeld
  | panRight => exact hHeld
  | panUp => exact hHeld
  | zoomPanRight => exact hUp

end Zoom

------------------------------------------------------------
-- Offsets
------------------------------------------------------------

section Offsets

variable {side : Variable}
variable {length zoom : ℚ}
variable (hSide : env.lookup? side = some length)
variable (hZoom : env.zoom = some zoom)
variable (hNonzero : zoom ≠ 0)

include hSide hZoom hNonzero

theorem exactValue?_margin :
    (margin side : Expr Float).exactValue? env =
      some (length - length / zoom) :=
  Expr.exactValue?_sub hSide
    (Expr.exactValue?_div hSide hZoom hNonzero)

theorem takesShare_centred :
    (centred side).TakesShare env length zoom := by
  refine ⟨1 / 2, by norm_num, by norm_num, ?_⟩
  have hHalf :=
    Expr.exactValue?_div
      (exactValue?_margin hSide hZoom hNonzero)
      exactValue?_const_two two_ne_zero
  rw [div_eq_mul_one_div] at hHalf
  exact hHalf

variable (hStart : 0 ≤ env.progress)
variable (hEnd : env.progress ≤ 1)

include hStart hEnd

theorem takesShare_forwards :
    (margin side * .var .progress : Expr Float).TakesShare
      env length zoom :=
  ⟨env.progress, hStart, hEnd,
    Expr.exactValue?_mul
      (exactValue?_margin hSide hZoom hNonzero) rfl⟩

theorem takesShare_backwards :
    (margin side * remaining : Expr Float).TakesShare env
      length zoom :=
  ⟨1 - env.progress, by linarith, by linarith,
    Expr.exactValue?_mul
      (exactValue?_margin hSide hZoom hNonzero)
      exactValue?_remaining⟩

end Offsets

/- Both offsets of every move are shares of their margins. -/
theorem takesShare_offsets
    (effect : MotionEffect)
    (bounds : ZoomBounds Float)
    {zoom : ℚ}
    (hZoom : env.zoom = some zoom)
    (hNonzero : zoom ≠ 0)
    (hStart : 0 ≤ env.progress)
    (hEnd : env.progress ≤ 1) :
    (effect.camera bounds).x.TakesShare env env.inputWidth
        zoom ∧
      (effect.camera bounds).y.TakesShare env
        env.inputHeight zoom := by
  have hWidth :
      env.lookup? .inputWidth = some env.inputWidth := rfl
  have hHeight :
      env.lookup? .inputHeight = some env.inputHeight := rfl
  have hCentredX :=
    takesShare_centred hWidth hZoom hNonzero
  have hCentredY :=
    takesShare_centred hHeight hZoom hNonzero
  have hForwardsX :=
    takesShare_forwards hWidth hZoom hNonzero hStart hEnd
  have hBackwardsX :=
    takesShare_backwards hWidth hZoom hNonzero hStart hEnd
  have hBackwardsY :=
    takesShare_backwards hHeight hZoom hNonzero hStart hEnd
  cases effect with
  | zoomIn => exact ⟨hCentredX, hCentredY⟩
  | zoomOut => exact ⟨hCentredX, hCentredY⟩
  | panLeft => exact ⟨hBackwardsX, hCentredY⟩
  | panRight => exact ⟨hForwardsX, hCentredY⟩
  | panUp => exact ⟨hCentredX, hBackwardsY⟩
  | zoomPanRight => exact ⟨hForwardsX, hCentredY⟩

end MotionEffect

/- A share of a margin lies within the margin. -/
theorem Expr.TakesShare.exists_within
    {offset : Expr Float}
    {env : Env ℚ}
    {length zoom : ℚ}
    (hShare : offset.TakesShare env length zoom)
    (hLength : 0 ≤ length)
    (hZoom : 1 ≤ zoom) :
    ∃ x,
      offset.exactValue? env = some x ∧
        0 ≤ x ∧ x ≤ length - length / zoom := by
  rcases hShare with ⟨share, hNonneg, hAtMost, hValue⟩
  have hMargin : 0 ≤ length - length / zoom :=
    sub_nonneg.mpr (div_le_self hLength hZoom)
  exact ⟨_, hValue, mul_nonneg hMargin hNonneg,
    mul_le_of_le_one_right hMargin hAtMost⟩

------------------------------------------------------------
-- Paths
------------------------------------------------------------

namespace MotionPath

/- The progress is between nothing and all of the clip. -/
theorem exactProgress_mem
    (path : MotionPath)
    (frame : UInt64)
    (hFrames : 1 ≤ path.totalFrames) :
    0 ≤ path.exactProgress frame ∧
      path.exactProgress frame ≤ 1 := by
  have hFrames : 0 < path.totalFrames.toNat :=
    UInt64.le_iff_toNat_le.mp hFrames
  have hTotal : (0 : ℚ) < path.totalFrames.toNat := by
    exact_mod_cast hFrames
  unfold exactProgress
  refine ⟨by positivity, ?_⟩
  rw [div_le_one hTotal]
  exact_mod_cast Nat.min_le_right _ _

/-
  Every planned path has a frame and the camera of its move
  within bounds that are in order.  Over exact fractions
  such a camera has a window at every frame over every
  source: no formula divides by zero, and the window stays
  inside.
-/
theorem exactSample?_isWithin :
    (∀ effect seconds rate bounds path,
        plan effect seconds rate bounds = .ok path →
          bounds.validate = .ok () ∧
            1 ≤ path.totalFrames ∧
            path =
              ⟨effect, path.totalFrames,
                effect.camera bounds⟩) ∧
      ∀ (effect : MotionEffect) (bounds : ZoomBounds Float)
        (frames frame : UInt64) (source : FrameSize),
        bounds.validate = .ok () →
          1 ≤ frames →
            ∃ low high window,
              Binary.exactValue? bounds.min = some low ∧
                Binary.exactValue? bounds.max = some high ∧
                exactSample?
                    ⟨effect, frames, effect.camera bounds⟩
                    frame source =
                  some window ∧
                window.IsWithin low high source := by
  refine ⟨?_, ?_⟩
  · intro effect seconds rate bounds path hPlan
    rcases plan_eq_ok_iff.mp hPlan with
      ⟨hBounds, _, _, hFrames, rfl⟩
    exact ⟨hBounds, hFrames, rfl⟩
  · intro effect bounds frames frame source hBounds hFrames
    rcases ZoomBounds.exists_exact_of_validate hBounds with
      ⟨low, high, hMin, hMax, hLow, hOrder⟩
    rcases exactProgress_mem
        ⟨effect, frames, effect.camera bounds⟩ frame
        hFrames with
      ⟨hStart, hEnd⟩
    let unbound : Env ℚ :=
      ⟨exactProgress
          ⟨effect, frames, effect.camera bounds⟩ frame,
        source.width.toNat, source.height.toNat, none⟩
    have hZoomed :=
      MotionEffect.exists_zoom hMin hMax effect hOrder
        (show 0 ≤ unbound.progress from hStart) hEnd
    rcases hZoomed with ⟨zoom, hZoom, hLeast, hMost⟩
    have hOne : 1 ≤ zoom := hLow.trans hLeast
    have hNonzero : zoom ≠ 0 := by
      linarith
    let bound : Env ℚ := { unbound with zoom := some zoom }
    have hShares :=
      MotionEffect.takesShare_offsets effect bounds
        (show bound.zoom = some zoom from rfl) hNonzero
        hStart hEnd
    rcases hShares with ⟨hShareX, hShareY⟩
    rcases hShareX.exists_within (Nat.cast_nonneg _)
        hOne with
      ⟨x, hX, hXNonneg, hXLe⟩
    rcases hShareY.exists_within (Nat.cast_nonneg _)
        hOne with
      ⟨y, hY, hYNonneg, hYLe⟩
    refine
      ⟨low, high, ⟨zoom, x, y⟩, hMin, hMax, ?_,
        ⟨hLeast, hMost, hXNonneg, hXLe, hYNonneg, hYLe⟩⟩
    simp only [exactSample?]
    rw [hZoom]
    simp only [Option.bind_eq_bind, Option.bind_some]
    rw [hX, hY]
    rfl

/- Eight seconds of the sweep that zooms, half-way. -/
theorem exactSample?_isWithin_sweep :
    plan .zoomPanRight 8.0 ⟨24, 1⟩ .standard =
        .ok ⟨.zoomPanRight, 192,
          MotionEffect.zoomPanRight.camera .standard⟩ ∧
      ∃ low high window,
        Binary.exactValue? ZoomBounds.standard.min =
            some low ∧
          Binary.exactValue? ZoomBounds.standard.max =
            some high ∧
          exactSample?
              ⟨.zoomPanRight, 192,
                MotionEffect.zoomPanRight.camera .standard⟩
              96 ⟨3840, 2160⟩ =
            some window ∧
          window.IsWithin low high ⟨3840, 2160⟩ := by
  have hPlan :
      plan .zoomPanRight 8.0 ⟨24, 1⟩ .standard =
        .ok ⟨.zoomPanRight, 192,
          MotionEffect.zoomPanRight.camera .standard⟩ := rfl
  rcases exactSample?_isWithin.1 _ _ _ _ _ hPlan with
    ⟨hBounds, hFrames, _⟩
  exact ⟨hPlan,
    exactSample?_isWithin.2 _ _ _ _ _ hBounds hFrames⟩

end MotionPath

end Slideshow
