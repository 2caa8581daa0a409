import Slideshow.Motion.Document
import Slideshow.Timeline

/-
  This file defines the documents of blur ramps, transitions
  and timelines.

  Key definitions include:
    * `BlurRamp.document`
    * `Transition.document`
    * `Timeline.document`
-/

namespace Slideshow

open Json (Document)

/- The document of one step of a ramp. -/
def BlurWindow.document
    (window : BlurWindow Float) : Document :=
  .record [
    ("start", .real window.start),
    ("end", .real window.stop),
    ("radius", .real window.radius)]

/- The document of a ramp. -/
def BlurRamp.document (ramp : BlurRamp Float) : Document :=
  .record [
    ("side", .text ramp.side.name),
    ("windows",
      .list (ramp.windows.map BlurWindow.document))]

/- The document of the ramps on a clip. -/
def ClipBlur.document (blur : ClipBlur Float) : Document :=
  .record [
    ("head", .optional BlurRamp.document blur.head),
    ("tail", .optional BlurRamp.document blur.tail)]

/- The document of a transition. -/
def Transition.document (t : Transition Float) : Document :=
  .record [
    ("boundary", .natural t.boundary),
    ("style", .text t.style.name),
    ("duration", .real t.duration),
    ("offset", .real t.offset)]

/- The document of a clip. -/
def Clip.document (clip : Clip) : Document :=
  .record [
    ("index", .natural clip.index),
    ("shot_id", .text clip.shotId),
    ("image", .text clip.image),
    ("base_duration", .real clip.baseDuration),
    ("render_duration", .real clip.renderDuration),
    ("motion", clip.motion.document),
    ("blur", clip.blur.document)]

/- The document of a timeline. -/
def Timeline.document (timeline : Timeline) : Document :=
  .record [
    ("clips", .list (timeline.clips.map Clip.document)),
    ("transitions",
      .list (timeline.transitions.map Transition.document)),
    ("overlap", .real timeline.overlap),
    ("total_duration", .real timeline.totalDuration)]

end Slideshow
