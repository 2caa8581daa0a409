import Slideshow.Expr.Eval
import Slideshow.Motion.Path

/-
  This file defines the visible window of a camera at one
  frame and the check that it never leaves the picture.

  Key definitions include:
    * `Viewport`
    * `Viewport.isWithin`
    * `MotionPath.sample`
    * `MotionPath.checkBounds`
-/

namespace Slideshow

------------------------------------------------------------
-- Windows
------------------------------------------------------------

/- The visible window, in pixels of the source. -/
structure Viewport where
  zoom : Float
  x : Float
  y : Float

namespace Viewport

/- The greatest offset along a side at this zoom. -/
def margin
    (window : Viewport)
    (side : Float) : Float :=
  side - side / window.zoom

/- The window lies inside a source. -/
def isWithin
    (window : Viewport)
    (source : FrameSize) : Bool :=
  let right := window.margin source.width.toFloat
  let bottom := window.margin source.height.toFloat
  1.0 ≤ window.zoom &&
    (0.0 ≤ window.x && window.x ≤ right) &&
    (0.0 ≤ window.y && window.y ≤ bottom)

end Viewport

------------------------------------------------------------
-- Sampling
------------------------------------------------------------

namespace MotionPath

/- The progress at a frame, at most one. -/
def progressAt
    (path : MotionPath)
    (frame : UInt64) : Float :=
  (min frame path.totalFrames).toFloat /
    path.totalFrames.toFloat

/-
  The window at a frame over a source.  The zoom is computed
  first, and the offsets refer to it.
-/
def sample
    (path : MotionPath)
    (frame : UInt64)
    (source : FrameSize) :
    Except ExprFault Viewport := do
  let env : Env Float :=
    ⟨path.progressAt frame, source.width.toFloat,
      source.height.toFloat, none⟩
  let zoom ← path.camera.zoom.eval env
  let env := { env with zoom := some zoom }
  let x ← path.camera.x.eval env
  let y ← path.camera.y.eval env
  return ⟨zoom, x, y⟩

/- Check the window at one frame. -/
def checkFrame
    (path : MotionPath)
    (source : FrameSize)
    (frame : Nat) : Except Error Unit := do
  let window ←
    (path.sample frame.toUInt64 source).mapError
      Error.ofExpr
  if window.isWithin source then .ok ()
  else
    .error <| .ofMotion <|
      .outOfBounds path.effect frame window.zoom window.x
        window.y

/- Check `count` frames, from `frame` on. -/
def checkFrames
    (path : MotionPath)
    (source : FrameSize)
    (frame : Nat) :
    Nat → Except Error Unit
  | 0 => .ok ()
  | count + 1 =>
      match path.checkFrame source frame with
      | .ok () => path.checkFrames source (frame + 1) count
      | .error e => .error e

/-
  Check every frame from the first to the one after the
  last, and fail at the first window that leaves the source.
-/
def checkBounds
    (path : MotionPath)
    (source : FrameSize) : Except Error Unit :=
  path.checkFrames source 0 (path.totalFrames.toNat + 1)

end MotionPath

end Slideshow
