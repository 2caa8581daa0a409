import Slideshow.Config.Encode
import Slideshow.Graph.Basic
import Slideshow.Timeline.Document

/-
  This file defines the documents of narrations and graphs.

  Key definitions include:
    * `AudioTrack.document`
    * `Stage.document`
    * `RenderGraph.document`
-/

namespace Slideshow

open Json (Document)

------------------------------------------------------------
-- Narrations
------------------------------------------------------------

/- The document of a fit. -/
def AudioFit.document : AudioFit → Document
  | .exact => .record [("kind", .text "exact")]
  | .underrun missing =>
      .record [
        ("kind", .text "underrun"),
        ("missing_secs", .real missing)]
  | .truncated excess =>
      .record [
        ("kind", .text "truncated"),
        ("excess_secs", .real excess)]
  | .unknown => .record [("kind", .text "unknown")]

/- The document of a narration. -/
def AudioTrack.document (track : AudioTrack) : Document :=
  .record [
    ("path", .text track.path),
    ("duration", .optional .real track.duration),
    ("fit", track.fit.document)]

------------------------------------------------------------
-- Graphs
------------------------------------------------------------

/- The document of what a node reads. -/
def Pad.document : Pad → Document
  | .input i => .tagged "input" (.natural i)
  | .label name => .tagged "label" (.text name)

/- The document of a stage. -/
def Stage.document : Stage → Document
  | .normalize size pixelFormat =>
      .record [
        ("kind", .text "normalize"),
        ("size", size.document),
        ("pix_fmt", .text pixelFormat)]
  | .motion path size rate =>
      .record [
        ("kind", .text "motion"),
        ("path", path.document),
        ("size", size.document),
        ("fps", rate.document)]
  | .blur ramp =>
      .record [
        ("kind", .text "blur"),
        ("ramp", ramp.document)]
  | .transition t =>
      .record [
        ("kind", .text "transition"),
        ("transition", t.document)]
  | .resize size =>
      .record [
        ("kind", .text "resize"),
        ("size", size.document)]

/- The document of a node. -/
def Node.document (node : Node) : Document :=
  .record [
    ("inputs", .list (node.inputs.map Pad.document)),
    ("stage", node.stage.document),
    ("output", .text node.output)]

/- The document of a graph. -/
def RenderGraph.document (graph : RenderGraph) : Document :=
  .record [
    ("inputs", .list (graph.inputs.map .text)),
    ("nodes", .list (graph.nodes.map Node.document)),
    ("output", .text graph.output),
    ("total_duration", .real graph.totalDuration),
    ("audio", .optional AudioTrack.document graph.audio)]

end Slideshow
