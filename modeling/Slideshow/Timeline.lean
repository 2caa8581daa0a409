import Slideshow.Config.Basic
import Slideshow.Motion.Viewport
import Slideshow.Scenario.Resolve
import Slideshow.Schedule

/-
  This file defines the timeline of a film: one clip for
  each shot, the transitions between them, and the length of
  the whole.

  Key definitions include:
    * `Clip`
    * `Timeline`
    * `Shot.chooseEffect`
    * `Shot.clip`
    * `Timeline.build`
-/

namespace Slideshow

------------------------------------------------------------
-- Clips
------------------------------------------------------------

/-
  A shot in its place in the film.  It is rendered for one
  overlap longer than the shot lasts, so that the next clip
  has something to dissolve over.
-/
structure Clip where
  index : Nat
  shotId : String
  image : String
  baseDuration : Float
  renderDuration : Float
  motion : MotionPath
  blur : ClipBlur Float
deriving Repr

/- The clips of a film and the transitions between them. -/
structure Timeline where
  clips : List Clip
  transitions : List (Transition Float)
  overlap : Float
  totalDuration : Float
deriving Repr

namespace Shot

/-
  The move of a shot: the one it names, or else one that is
  drawn from the settings.
-/
def chooseEffect
    {σ : Type}
    [WordSource σ]
    (shot : Shot)
    (config : Config)
    (s : σ) : Except ValueFault (MotionEffect × σ) :=
  match shot.motion with
  | some effect => .ok (effect, s)
  | none =>
      match WordSource.choose config.effects s with
      | (some effect, s) => .ok (effect, s)
      | (none, _) => .error .noEffectEnabled

/- The blur of a clip under a policy. -/
def blur
    (shot : Shot)
    (config : Config)
    (index count : Nat) : ClipBlur Float :=
  if config.transitions.usesBlur then
    .annotate index count shot.baseDuration config.overlap
      config.blur
  else .none

/-
  The clip of the shot at a position among `count` shots.
  Its camera must not leave the picture.
-/
def clip
    {σ : Type}
    [WordSource σ]
    (shot : Shot)
    (config : Config)
    (working : FrameSize)
    (index count : Nat)
    (s : σ) : Except Error (Clip × σ) := do
  let length := shot.baseDuration + config.overlap
  let (effect, s) ←
    (shot.chooseEffect config s).mapError .validation
  let motion ←
    (MotionPath.plan effect length config.rate
      config.zoom).mapError Error.ofMotion
  motion.checkBounds working
  let blur := shot.blur config index count
  return (⟨index, shot.id, shot.image, shot.baseDuration,
    length, motion, blur⟩, s)

end Shot

------------------------------------------------------------
-- Timelines
------------------------------------------------------------

namespace Timeline

/- The clips of shots, the first at the given position. -/
def clipsFrom
    {σ : Type}
    [WordSource σ]
    (config : Config)
    (working : FrameSize)
    (index count : Nat)
    (s : σ) :
    List Shot → Except Error (List Clip × σ)
  | [] => .ok ([], s)
  | shot :: rest => do
      let (first, s) ←
        shot.clip config working index count s
      let (more, s) ←
        clipsFrom config working (index + 1) count s rest
      return (first :: more, s)

/-
  Lay out shots.  All moves are drawn before the styles of
  the transitions.
-/
def build
    {σ : Type}
    [WordSource σ]
    (shots : List Shot)
    (config : Config)
    (s : σ) : Except Error (Timeline × σ) := do
  if shots.isEmpty then .error (.validation .noShots)
  config.validate
  let working ← config.workingSize.mapError Error.ofFrame
  let (clips, s) ←
    clipsFrom config working 0 shots.length s shots
  let durations := clips.map Clip.baseDuration
  let (transitions, s) ←
    (Schedule.transitions durations config.overlap
      config.transitions s).mapError Error.ofTransition
  let total := Schedule.total durations config.overlap
  return (⟨clips, transitions, config.overlap, total⟩, s)

end Timeline

end Slideshow
