/-
  This file defines how the length of a narration compares
  with the length of the film, which always wins.

  Key definitions include:
    * `AudioFit`
    * `AudioFit.classify`
    * `AudioTrack`
-/

namespace Slideshow

/-
  How a narration fits a film: it fits, it ends early, it is
  cut off, or its length is not known.
-/
inductive AudioFit where
| exact
| underrun (missing : Float)
| truncated (excess : Float)
| unknown
deriving Repr

namespace AudioFit

/- Differences up to this many seconds do not count. -/
def tolerance : Float :=
  0.001

/- Compare the length of a narration with that of a film. -/
def classify
    (audio : Option Float)
    (video : Float) : AudioFit :=
  match audio with
  | none => .unknown
  | some a =>
      if a + tolerance < video then .underrun (video - a)
      else if video + tolerance < a then
        .truncated (a - video)
      else .exact

end AudioFit

/- A narration that is bound to a film. -/
structure AudioTrack where
  path : String
  duration : Option Float
  fit : AudioFit
deriving Repr

end Slideshow
