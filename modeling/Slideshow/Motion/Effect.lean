import Slideshow.Frame.Basic

/-
  This file defines the camera moves, their names, and the
  faults of moves that cannot be made.

  Key definitions include:
    * `MotionEffect`
    * `MotionEffect.name`
    * `MotionFault`
-/

namespace Slideshow

/- The camera move of one clip. -/
inductive MotionEffect where
| zoomIn
| zoomOut
| panLeft
| panRight
| panUp
| zoomPanRight
deriving DecidableEq, Repr

namespace MotionEffect

/- All camera moves. -/
def all : List MotionEffect :=
  [.zoomIn, .zoomOut, .panLeft, .panRight, .panUp,
    .zoomPanRight]

/- The name of a move. -/
def name : MotionEffect → String
  | .zoomIn => "zoom_in"
  | .zoomOut => "zoom_out"
  | .panLeft => "pan_left"
  | .panRight => "pan_right"
  | .panUp => "pan_up"
  | .zoomPanRight => "zoom_pan_right"

end MotionEffect

/- Why a camera move cannot be made. -/
inductive MotionFault where
| unnamed
| panDown
| unknown (name : String)
| zoomNotFinite
| zoomBelowOne
| zoomReversed
| duration (seconds : Float)
| underOneFrame (seconds : Float) (rate : FrameRate)
| outOfBounds
    (effect : MotionEffect)
    (frame : Nat)
    (zoom x y : Float)

/- A fault in words. -/
def MotionFault.text : MotionFault → String
  | .unnamed => "motion effect must be non-empty"
  | .panDown =>
      "pan_down is not part of the motion effect set"
  | .unknown name => "unknown motion effect '" ++ name ++ "'"
  | .zoomNotFinite => "zoom bounds must be finite"
  | .zoomBelowOne => "zoom.min must be >= 1.0"
  | .zoomReversed => "zoom.max must be >= zoom.min"
  | .duration seconds =>
      "motion duration must be > 0, got " ++
        Decimal.plain seconds
  | .underOneFrame seconds rate =>
      "motion duration " ++ Decimal.plain seconds ++
        "s is shorter than one frame at " ++ rate.text ++
        " fps"
  | .outOfBounds effect frame zoom x y =>
      effect.name ++ " viewport out of bounds at frame " ++
        Numeral.write frame ++ ": zoom=" ++
        Decimal.plain zoom ++ " x=" ++ Decimal.plain x ++
        " y=" ++ Decimal.plain y

end Slideshow
