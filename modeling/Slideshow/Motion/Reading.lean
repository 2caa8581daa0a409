import Slideshow.Motion.Effect
import Slideshow.Text.Basic

/-
  This file defines how camera moves are read from text.

  Key definitions include:
    * `MotionEffect.ofName?`
    * `MotionEffect.read`
-/

namespace Slideshow

namespace MotionEffect

/- The move that a name in lower case stands for. -/
def ofAlias? (s : String) : Option MotionEffect :=
  if s = "zoom_in" ∨ s = "zoomin" then some .zoomIn
  else if s = "zoom_out" ∨ s = "zoomout" then some .zoomOut
  else if s = "pan_left" ∨ s = "panleft" then some .panLeft
  else if s = "pan_right" ∨ s = "panright" then
    some .panRight
  else if s = "pan_up" ∨ s = "panup" then some .panUp
  else if s = "zoom_pan_right" ∨ s = "zoom_and_pan_right" ∨
      s = "zoom_pan_combo" then some .zoomPanRight
  else none

/-
  Read a move.  Case, blanks around it and the choice of
  hyphen or underscore do not matter.  There is no move
  downwards, and asking for one has an answer of its own.
-/
def read (s : String) : Except MotionFault MotionEffect :=
  let name :=
    Text.replaceText "-" "_" (Text.lower (Text.trim s))
  if name.isEmpty then .error .unnamed
  else
    match ofAlias? name with
    | some effect => .ok effect
    | none =>
        if name = "pan_down" ∨ name = "pandown" then
          .error .panDown
        else .error (.unknown name)

/- The move with a given name in a document. -/
def ofName? (s : String) : Option MotionEffect :=
  all.find? fun effect => effect.name == s

end MotionEffect

end Slideshow
