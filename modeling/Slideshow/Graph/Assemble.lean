import Slideshow.Graph.Wiring
import Slideshow.Timeline

/-
  This file defines the graph of a timeline: the chain of
  each clip, the transitions as a fold over the ends of the
  chains, and the final size.

  Key definitions include:
    * `Clip.chain`
    * `Timeline.joins`
    * `Timeline.graph`
    * `Timeline.assemble`
-/

namespace Slideshow

------------------------------------------------------------
-- Labels
------------------------------------------------------------

namespace Label

/- The label of a normalized image. -/
def normalized (i : Nat) : String :=
  "sc" ++ Numeral.write i

/- The label of a clip with its camera move. -/
def moved (i : Nat) : String :=
  "kb" ++ Numeral.write i

/- The label of a clip after a blur ramp. -/
def blurred
    (side : RampSide)
    (i : Nat) : String :=
  match side with
  | .incoming => "bh" ++ Numeral.write i
  | .outgoing => "bt" ++ Numeral.write i

/- The label of the film up to the clip after a boundary. -/
def joined (boundary : Nat) : String :=
  "vt" ++ Numeral.write (boundary + 1)

end Label

------------------------------------------------------------
-- Chains
------------------------------------------------------------

/-
  Put blur ramps behind a stream.  The second result is the
  label of the last stream.
-/
def blurNodes
    (i : Nat)
    (source : String) :
    List (BlurRamp Float) → List Node × String
  | [] => ([], source)
  | ramp :: rest =>
      let label := Label.blurred ramp.side i
      let (nodes, last) := blurNodes i label rest
      (⟨[.label source], .blur ramp, label⟩ :: nodes, last)

/-
  The chain of the clip at a position: normalize the image,
  move the camera, blur.  The second result is the label of
  its end.
-/
def Clip.chain
    (clip : Clip)
    (config : Config)
    (working : FrameSize)
    (i : Nat) : List Node × String :=
  let (blurs, last) :=
    blurNodes i (Label.moved i) clip.blur.stages
  let normalize : Node :=
    ⟨[.input i],
      .normalize working config.encoder.pixelFormat,
      Label.normalized i⟩
  let move : Node :=
    ⟨[.label (Label.normalized i)],
      .motion clip.motion working config.rate,
      Label.moved i⟩
  (normalize :: move :: blurs, last)

------------------------------------------------------------
-- Graphs
------------------------------------------------------------

/-
  Fold the ends of chains into one stream, beginning with
  `source`.  The second result is the label of the whole.
-/
def joinNodes
    (source : String) :
    List (Transition Float × String) → List Node × String
  | [] => ([], source)
  | (t, next) :: rest =>
      let label := Label.joined t.boundary
      let (nodes, last) := joinNodes label rest
      (⟨[.label source, .label next], .transition t,
        label⟩ :: nodes, last)

namespace Timeline

/- The chains of all clips, in order. -/
def chains
    (timeline : Timeline)
    (config : Config)
    (working : FrameSize) :
    List (List Node × String) :=
  timeline.clips.mapIdx fun i clip =>
    clip.chain config working i

/- The graph of a timeline with at least one clip. -/
def graph
    (timeline : Timeline)
    (config : Config)
    (working : FrameSize) : RenderGraph :=
  let chains := timeline.chains config working
  let ends := chains.map Prod.snd
  let (joins, whole) :=
    joinNodes (ends.headD "")
      (timeline.transitions.zip ends.tail)
  let finish : Node :=
    ⟨[.label whole], .resize config.size,
      RenderGraph.finalLabel⟩
  { inputs := timeline.clips.map Clip.image
    nodes :=
      chains.flatMap Prod.fst ++ joins ++ [finish]
    output := RenderGraph.finalLabel
    totalDuration := timeline.totalDuration
    audio := none }

/-
  The graph of a timeline, checked.  A timeline has a clip,
  and one transition less than it has clips.
-/
def assemble
    (timeline : Timeline)
    (config : Config) : Except Error RenderGraph := do
  let clips := timeline.clips.length
  let transitions := timeline.transitions.length
  if clips = 0 then .error (.validation .emptyTimeline)
  if transitions + 1 ≠ clips then
    .error
      (.validation (.transitionCount clips transitions))
  let working ← config.workingSize.mapError Error.ofFrame
  let graph := timeline.graph config working
  graph.validate.mapError Error.ofWiring
  return graph

end Timeline

end Slideshow
