import Slideshow.Audio.Fit
import Slideshow.Blur
import Slideshow.Motion.Path
import Slideshow.Schedule

/-
  This file defines the filter graph of a film.  Each image
  flows through a chain of its own, transitions fold the
  chains together, and the result is brought to its final
  size.

  Key definitions include:
    * `Pad`
    * `Stage`
    * `Node`
    * `RenderGraph`
-/

namespace Slideshow

------------------------------------------------------------
-- Nodes
------------------------------------------------------------

/-
  What a node reads: the pictures of an input file, or the
  stream that a label names.
-/
inductive Pad where
| input (i : Nat)
| label (name : String)
deriving DecidableEq, Repr

/- What a node does to the streams it reads. -/
inductive Stage where
| normalize (size : FrameSize) (pixelFormat : String)
| motion
    (path : MotionPath)
    (size : FrameSize)
    (rate : FrameRate)
| blur (ramp : BlurRamp Float)
| transition (t : Transition Float)
| resize (size : FrameSize)
deriving Repr

/- A stage with what it reads and the label it defines. -/
structure Node where
  inputs : List Pad
  stage : Stage
  output : String
deriving Repr

------------------------------------------------------------
-- Graphs
------------------------------------------------------------

/-
  The image files in order, the nodes, each behind those it
  reads from, and the label of the result.
-/
structure RenderGraph where
  inputs : List String
  nodes : List Node
  output : String
  totalDuration : Float
  audio : Option AudioTrack
deriving Repr

namespace RenderGraph

/- The label of the result of a film. -/
def finalLabel : String :=
  "final"

/- The graph with a narration. -/
def withAudio
    (graph : RenderGraph)
    (track : AudioTrack) : RenderGraph :=
  { graph with audio := some track }

/- The number of the narration among the input files. -/
def audioInput (graph : RenderGraph) : Nat :=
  graph.inputs.length

/- The first node that defines a label. -/
def node?
    (graph : RenderGraph)
    (label : String) : Option Node :=
  graph.nodes.find? fun node => node.output == label

end RenderGraph

end Slideshow
