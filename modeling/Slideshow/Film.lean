import Slideshow.Audio.Track
import Slideshow.Graph.Assemble
import Slideshow.Graph.Fingerprint
import Slideshow.Render.Atomic
import Slideshow.Scenario.Resolve

/-
  This file defines the film of a scenario: its shots, its
  timeline, its graph with the narration, and the
  fingerprint of the graph.

  Key definitions include:
    * `Film`
    * `Film.compile`
    * `Film.command`
    * `Film.render`
-/

namespace Slideshow

/- A film that is ready to be rendered. -/
structure Film where
  shots : ShotList
  timeline : Timeline
  graph : RenderGraph
  fingerprint : UInt64
deriving Repr

namespace Film

/-
  Bind a narration, if there is one, to the graph of a film
  of the given length.
-/
def bindAudio
    (tree : FileTree)
    (audio : Option String)
    (total : Float)
    (graph : RenderGraph) : Except Error RenderGraph :=
  match audio with
  | none => .ok graph
  | some path =>
      (AudioTrack.bind tree path total).map graph.withAudio

/-
  Compile the film of a scenario: resolve the shots, lay
  them out, assemble the graph, and bind the narration.
-/
def compile
    [PictureReader]
    {σ : Type}
    [WordSource σ]
    (scenario : Scenario)
    (tree : FileTree)
    (limit : Option Nat)
    (audio : Option String)
    (config : Config)
    (s : σ) : Except Error (Film × σ) := do
  config.validate
  let shots ← scenario.resolve tree limit
  let (timeline, s) ← Timeline.build shots.shots config s
  let graph ← timeline.assemble config
  let graph ←
    bindAudio tree audio timeline.totalDuration graph
  return (⟨shots, timeline, graph, graph.fingerprint⟩, s)

/- The command that renders a film into a file. -/
def command
    (film : Film)
    (config : Config)
    (output : String) : Command :=
  film.graph.command config.encoder output

/- Render a film into a file. -/
def render
    [TempNaming]
    {σ : Type}
    (renderer : Renderer σ)
    (film : Film)
    (config : Config)
    (output : String)
    (s : σ)
    (tree : FileTree) : Performed σ Command :=
  film.graph.render renderer config.encoder output s tree

end Film

end Slideshow
