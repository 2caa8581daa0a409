import Slideshow.Error

/-
  This file defines the camera path of a clip: the zoom and
  the offset of the visible window, as expressions in the
  progress through the clip.

  Pans hold the greatest zoom, so that there is something to
  pan over.  Every offset refers to the zoom of the current
  frame, so that a centred window stays centred while the
  zoom changes.

  Key definitions include:
    * `ZoomBounds`
    * `ZoomBounds.validate`
    * `Camera`
    * `MotionEffect.camera`
    * `MotionPath`
    * `MotionPath.plan`
-/

namespace Slideshow

------------------------------------------------------------
-- Zoom Bounds
------------------------------------------------------------

/- The least and the greatest zoom of a move. -/
structure ZoomBounds (ν : Type) where
  min : ν
  max : ν
deriving Repr

namespace ZoomBounds

/- From the whole picture to a tenth more than that. -/
def standard : ZoomBounds Float :=
  ⟨1.0, 1.1⟩

/- Bounds are finite, at least one, and in order. -/
def validate
    (bounds : ZoomBounds Float) :
    Except MotionFault Unit :=
  if !bounds.min.isFinite || !bounds.max.isFinite then
    .error .zoomNotFinite
  else if bounds.min < 1.0 then .error .zoomBelowOne
  else if bounds.max < bounds.min then .error .zoomReversed
  else .ok ()

end ZoomBounds

------------------------------------------------------------
-- Cameras
------------------------------------------------------------

/- The zoom and the offset of the visible window. -/
structure Camera (ν : Type) where
  zoom : Expr ν
  x : Expr ν
  y : Expr ν
deriving Repr

namespace MotionEffect

variable {ν : Type}
variable [OfNat ν 1] [OfNat ν 2]

/- The greatest offset along a side of the frame. -/
def margin (side : Variable) : Expr ν :=
  .var side - .var side / .var .zoom

/- The offset that centres the window along a side. -/
def centred (side : Variable) : Expr ν :=
  margin side / .const 2

/- The part of the clip that is still to come. -/
def remaining : Expr ν :=
  .const 1 - .var .progress

/- The zoom that grows through the clip. -/
def zoomUp (bounds : ZoomBounds ν) : Expr ν :=
  .const bounds.min +
    (.const bounds.max - .const bounds.min) * .var .progress

/- The zoom that shrinks through the clip. -/
def zoomDown (bounds : ZoomBounds ν) : Expr ν :=
  .const bounds.max -
    (.const bounds.max - .const bounds.min) * .var .progress

/- The camera of a move within zoom bounds. -/
def camera
    (bounds : ZoomBounds ν) :
    MotionEffect → Camera ν
  | .zoomIn =>
      ⟨zoomUp bounds, centred .inputWidth,
        centred .inputHeight⟩
  | .zoomOut =>
      ⟨zoomDown bounds, centred .inputWidth,
        centred .inputHeight⟩
  | .panLeft =>
      ⟨.const bounds.max, margin .inputWidth * remaining,
        centred .inputHeight⟩
  | .panRight =>
      ⟨.const bounds.max,
        margin .inputWidth * .var .progress,
        centred .inputHeight⟩
  | .panUp =>
      ⟨.const bounds.max, centred .inputWidth,
        margin .inputHeight * remaining⟩
  | .zoomPanRight =>
      ⟨zoomUp bounds, margin .inputWidth * .var .progress,
        centred .inputHeight⟩

end MotionEffect

------------------------------------------------------------
-- Paths
------------------------------------------------------------

/- A camera over a whole number of frames. -/
structure MotionPath where
  effect : MotionEffect
  totalFrames : UInt64
  camera : Camera Float
deriving Repr

namespace MotionPath

/-
  The path of a move over a time at a frame rate.  The time
  has to hold at least one frame.
-/
def plan
    (effect : MotionEffect)
    (seconds : Float)
    (rate : FrameRate)
    (bounds : ZoomBounds Float) :
    Except MotionFault MotionPath := do
  bounds.validate
  if !seconds.isFinite || seconds ≤ 0.0 then
    .error (.duration seconds)
  let frames := rate.framesIn seconds
  if frames = 0 then
    .error (.underOneFrame seconds rate)
  return ⟨effect, frames, effect.camera bounds⟩

end MotionPath

end Slideshow
