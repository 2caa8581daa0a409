import Slideshow.Decimal.Layout

/-
  This file defines frame rates and frame sizes, the
  conversion between seconds and frames, and the faults of
  rates and sizes that cannot be used.

  Key definitions include:
    * `FrameRate`
    * `FrameRate.secondsOf`
    * `FrameRate.framesIn`
    * `FrameSize`
    * `FrameFault`
-/

namespace Slideshow

------------------------------------------------------------
-- Frame Rates
------------------------------------------------------------

/- A rate of `num / den` frames a second. -/
structure FrameRate where
  num : UInt32
  den : UInt32
deriving DecidableEq, Repr

namespace FrameRate

/- Frames in a second. -/
def perSecond (rate : FrameRate) : Float :=
  rate.num.toFloat / rate.den.toFloat

/- Seconds in a frame. -/
def frameSeconds (rate : FrameRate) : Float :=
  rate.den.toFloat / rate.num.toFloat

/- The length of a number of frames in seconds. -/
def secondsOf
    (rate : FrameRate)
    (frames : UInt64) : Float :=
  frames.toFloat * rate.frameSeconds

/- The number of whole frames in a time. -/
def framesIn
    (rate : FrameRate)
    (seconds : Float) : UInt64 :=
  Binary.floorWord (seconds * rate.perSecond)

/- A rate as text; a denominator of one is left out. -/
def text (rate : FrameRate) : String :=
  if rate.den = 1 then Numeral.write rate.num.toNat
  else
    Numeral.write rate.num.toNat ++ "/" ++
      Numeral.write rate.den.toNat

end FrameRate

------------------------------------------------------------
-- Frame Sizes
------------------------------------------------------------

/- The width and height of a frame in pixels. -/
structure FrameSize where
  width : UInt32
  height : UInt32
deriving DecidableEq, Repr

namespace FrameSize

/- Both sides are even. -/
def isEven (size : FrameSize) : Bool :=
  size.width % 2 == 0 && size.height % 2 == 0

/- A size as text. -/
def text (size : FrameSize) : String :=
  Numeral.write size.width.toNat ++ "x" ++
    Numeral.write size.height.toNat

end FrameSize

------------------------------------------------------------
-- Faults
------------------------------------------------------------

/- Why a rate or a size cannot be used. -/
inductive FrameFault where
| zeroDenominator
| zeroNumerator
| zeroSide
| tooLarge (size : FrameSize) (factor : UInt32)
deriving DecidableEq, Repr

/- A fault in words. -/
def FrameFault.text : FrameFault → String
  | .zeroDenominator => "Fps den must be > 0"
  | .zeroNumerator => "Fps num must be > 0"
  | .zeroSide => "resolution width/height must be non-zero"
  | .tooLarge size factor =>
      "resolution " ++ size.text ++ " scaled by " ++
        Numeral.write factor.toNat ++ " overflows"

end Slideshow
