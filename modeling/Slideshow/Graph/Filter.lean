import Slideshow.Expr.Lower
import Slideshow.Graph.Basic

/-
  This file defines the filter text of a graph: for each
  node its pads, what its stage does, and its label.

  Key definitions include:
    * `secondsText`
    * `Pad.filterText`
    * `Stage.filterText`
    * `Node.filterText`
    * `RenderGraph.filterText`
-/

namespace Slideshow

/- Seconds as text, rounded to microseconds. -/
def secondsText (x : Float) : String :=
  Decimal.plain (Binary.roundMicros x)

------------------------------------------------------------
-- Parts
------------------------------------------------------------

/- The two sides of a frame between a colon. -/
def FrameSize.filterText (size : FrameSize) : String :=
  Numeral.write size.width.toNat ++ ":" ++
    Numeral.write size.height.toNat

/-
  One step of a ramp.  It applies from its start up to its
  end without that, so that two steps never apply at once.
-/
def BlurWindow.filterText
    (window : BlurWindow Float) : String :=
  "gblur=sigma=" ++ Decimal.plain window.radius ++
    ":enable='gte(t," ++ secondsText window.start ++
    ")*lt(t," ++ secondsText window.stop ++ ")'"

/- The steps of a ramp. -/
def BlurRamp.filterText
    (ramp : BlurRamp Float) : String :=
  Text.join "," (ramp.windows.map BlurWindow.filterText)

/- A camera path at a size and a frame rate. -/
def MotionPath.filterText
    (path : MotionPath)
    (size : FrameSize)
    (rate : FrameRate) : String :=
  let frames := path.totalFrames
  "zoompan=z='" ++ path.camera.zoom.lower frames ++
    "':d=" ++ Numeral.write frames.toNat ++
    ":x='" ++ path.camera.x.lower frames ++
    "':y='" ++ path.camera.y.lower frames ++
    "':s=" ++ size.text ++ ":fps=" ++ rate.text

/- A transition. -/
def Transition.filterText
    (t : Transition Float) : String :=
  "xfade=transition=" ++ t.style.filterName ++
    ":duration=" ++ secondsText t.duration ++
    ":offset=" ++ secondsText t.offset

------------------------------------------------------------
-- Graphs
------------------------------------------------------------

/- What a stage does. -/
def Stage.filterText : Stage → String
  | .normalize size pixelFormat =>
      "format=" ++ pixelFormat ++ ",scale=" ++
        size.filterText ++
        ":force_original_aspect_ratio=increase,crop=" ++
        size.filterText ++ ",setsar=1"
  | .motion path size rate => path.filterText size rate
  | .blur ramp => ramp.filterText
  | .transition t => t.filterText
  | .resize size => "scale=" ++ size.filterText

/- A label in brackets. -/
def bracketed (label : String) : String :=
  "[" ++ label ++ "]"

/- What is read, in brackets. -/
def Pad.filterText : Pad → String
  | .input i => bracketed (Numeral.write i ++ ":v")
  | .label name => bracketed name

/- The pads, the stage and the label of a node. -/
def Node.filterText (node : Node) : String :=
  String.join (node.inputs.map Pad.filterText) ++
    node.stage.filterText ++ bracketed node.output

/- The filter text of a graph. -/
def RenderGraph.filterText
    (graph : RenderGraph) : String :=
  Text.join ";" (graph.nodes.map Node.filterText)

end Slideshow
