import Slideshow.Error

/-
  This file defines the blur ramps that turn a cross-fade
  into a blur-dissolve: three equal steps over the overlap,
  from sharp to blurred at the tail of one clip and from
  blurred to sharp at the head of the next.

  Times may be any kind of number, so that the same ramps
  can be computed with doubles and with exact fractions.

  Key definitions include:
    * `BlurLevels`
    * `BlurWindow`
    * `BlurRamp`
    * `BlurRamp.outgoingTail`
    * `BlurRamp.incomingHead`
    * `ClipBlur`
    * `ClipBlur.annotate`
-/

namespace Slideshow

------------------------------------------------------------
-- Levels
------------------------------------------------------------

/- The blur radii of the three steps of a ramp. -/
structure BlurLevels (τ : Type) where
  low : τ
  mid : τ
  high : τ
deriving Repr

namespace BlurLevels

/- The levels used where none are given. -/
def standard : BlurLevels Float :=
  ⟨2.0, 5.0, 10.0⟩

/- A radius that blurs: finite and positive. -/
def isRadius (x : Float) : Bool :=
  x.isFinite && 0.0 < x

/- Levels are radii and increase strictly. -/
def validate
    (levels : BlurLevels Float) :
    Except BlurFault Unit :=
  if !isRadius levels.low || !isRadius levels.mid ||
      !isRadius levels.high then
    .error .level
  else if levels.low < levels.mid &&
      levels.mid < levels.high then
    .ok ()
  else .error .order

end BlurLevels

------------------------------------------------------------
-- Ramps
------------------------------------------------------------

/-
  The side of a transition on which a ramp lies: on the head
  of the incoming clip or on the tail of the outgoing one.
-/
inductive RampSide where
| incoming
| outgoing
deriving DecidableEq, Repr

/- The name of a side. -/
def RampSide.name : RampSide → String
  | .incoming => "incoming"
  | .outgoing => "outgoing"

/-
  One step of a ramp: a radius and the time in the clip in
  which it applies, without its end.
-/
structure BlurWindow (τ : Type) where
  start : τ
  stop : τ
  radius : τ
deriving Repr

/- The three steps of a ramp and its side. -/
structure BlurRamp (τ : Type) where
  side : RampSide
  first : BlurWindow τ
  second : BlurWindow τ
  third : BlurWindow τ
deriving Repr

namespace BlurRamp

variable {τ : Type}

/- The steps in order. -/
def windows (ramp : BlurRamp τ) : List (BlurWindow τ) :=
  [ramp.first, ramp.second, ramp.third]

variable [Add τ] [Mul τ] [Div τ]
variable [OfNat τ 0] [OfNat τ 1] [OfNat τ 2] [OfNat τ 3]

/-
  Three steps of equal length from `start` on.  The last one
  ends exactly one overlap after the start, whatever the
  rounding of the steps.
-/
def spread
    (side : RampSide)
    (start overlap : τ)
    (radius₁ radius₂ radius₃ : τ) : BlurRamp τ :=
  let step := overlap / 3
  let second := start + step * 1
  let third := start + step * 2
  { side
    first := ⟨start + step * 0, second, radius₁⟩
    second := ⟨second, third, radius₂⟩
    third := ⟨third, start + overlap, radius₃⟩ }

/-
  The ramp over the tail of an outgoing clip, which begins
  at the end of its own duration.
-/
def outgoingTail
    (baseDuration overlap : τ)
    (levels : BlurLevels τ) : BlurRamp τ :=
  spread .outgoing baseDuration overlap
    levels.low levels.mid levels.high

/- The ramp over the head of an incoming clip. -/
def incomingHead
    (overlap : τ)
    (levels : BlurLevels τ) : BlurRamp τ :=
  spread .incoming 0 overlap
    levels.high levels.mid levels.low

end BlurRamp

------------------------------------------------------------
-- Clips
------------------------------------------------------------

/- The ramps on one clip. -/
structure ClipBlur (τ : Type) where
  head : Option (BlurRamp τ)
  tail : Option (BlurRamp τ)
deriving Repr

namespace ClipBlur

variable {τ : Type}

/- A clip without blur. -/
def none : ClipBlur τ :=
  ⟨.none, .none⟩

/- The ramps in the order in which they are applied. -/
def stages (blur : ClipBlur τ) : List (BlurRamp τ) :=
  blur.head.toList ++ blur.tail.toList

variable [Add τ] [Mul τ] [Div τ]
variable [OfNat τ 0] [OfNat τ 1] [OfNat τ 2] [OfNat τ 3]

/-
  The ramps of the clip at a position among `count` clips.
  Nothing dissolves into the first clip, and the last one
  runs out without blur.
-/
def annotate
    (position count : Nat)
    (baseDuration overlap : τ)
    (levels : BlurLevels τ) : ClipBlur τ where
  head :=
    if 0 < position then
      some (BlurRamp.incomingHead overlap levels)
    else .none
  tail :=
    if position + 1 < count then
      some
        (BlurRamp.outgoingTail baseDuration overlap levels)
    else .none

end ClipBlur

end Slideshow
