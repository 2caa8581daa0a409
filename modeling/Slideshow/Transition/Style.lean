/-
  This file defines the styles in which one clip gives way
  to the next, and the policies by which a style is chosen.

  Key definitions include:
    * `TransitionStyle`
    * `TransitionStyle.filterName`
    * `TransitionStyle.name`
    * `TransitionPolicy`
    * `TransitionFault`
-/

namespace Slideshow

------------------------------------------------------------
-- Styles
------------------------------------------------------------

/- How the next clip appears over the previous one. -/
inductive TransitionStyle where
| fade
| slideLeft
| slideRight
| wipeLeft
| wipeRight
deriving DecidableEq, Repr

namespace TransitionStyle

/- All styles. -/
def all : List TransitionStyle :=
  [.fade, .slideLeft, .slideRight, .wipeLeft, .wipeRight]

/- The name of a style in a filter. -/
def filterName : TransitionStyle → String
  | .fade => "fade"
  | .slideLeft => "slideleft"
  | .slideRight => "slideright"
  | .wipeLeft => "wipeleft"
  | .wipeRight => "wiperight"

/- The name of a style in a document. -/
def name : TransitionStyle → String
  | .fade => "fade"
  | .slideLeft => "slide_left"
  | .slideRight => "slide_right"
  | .wipeLeft => "wipe_left"
  | .wipeRight => "wipe_right"

end TransitionStyle

------------------------------------------------------------
-- Policies
------------------------------------------------------------

/-
  How the style at a boundary is chosen: always a fade, with
  blurred clips on both sides of it, or at random from a
  list, without blur.
-/
inductive TransitionPolicy where
| blurDissolve
| random (styles : List TransitionStyle)
deriving DecidableEq, Repr

namespace TransitionPolicy

/- The clips on both sides of a boundary are blurred. -/
def usesBlur : TransitionPolicy → Bool
  | .blurDissolve => true
  | .random _ => false

end TransitionPolicy

------------------------------------------------------------
-- Faults
------------------------------------------------------------

/- Why a style or a policy cannot be used. -/
inductive TransitionFault where
| unnamed
| unknown (name : String)
| noStyles
deriving DecidableEq, Repr

/- A fault in words. -/
def TransitionFault.text : TransitionFault → String
  | .unnamed => "transition style must be non-empty"
  | .unknown name =>
      "unknown transition style '" ++ name ++ "'"
  | .noStyles =>
      "random transition policy needs at least one style"

end Slideshow
