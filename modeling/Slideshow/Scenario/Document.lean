import Slideshow.Config.Encode
import Slideshow.Scenario.Resolve

/-
  This file defines the documents of shots, kept and
  skipped.

  Key definitions include:
    * `Shot.document`
    * `SkippedShot.document`
    * `ShotList.document`
-/

namespace Slideshow

open Json (Document)

/- The document of a time range. -/
def TimeRange.document (range : TimeRange) : Document :=
  .record [
    ("start", .real range.start),
    ("end", .real range.stop)]

/- The document of a shot. -/
def Shot.document (shot : Shot) : Document :=
  .record [
    ("id", .text shot.id),
    ("image", .text shot.image),
    ("source", shot.source.document),
    ("range", shot.range.document),
    ("motion", .optional
      (fun effect => .text effect.name) shot.motion)]

/- The document of the reason why a shot is skipped. -/
def SkipReason.document : SkipReason → Document
  | .missing => .text "missing"
  | .unreadable => .tagged "unreadable" (.bool true)

/- The document of a skipped shot. -/
def SkippedShot.document (shot : SkippedShot) : Document :=
  .record [
    ("id", .text shot.id),
    ("image", .text shot.image),
    ("reason", shot.reason.document)]

/- The document of the shots of a scenario. -/
def ShotList.document (list : ShotList) : Document :=
  .record [
    ("shots", .list (list.shots.map Shot.document)),
    ("skipped",
      .list (list.skipped.map SkippedShot.document))]

end Slideshow
