import Slideshow.Graph.Filter
import Slideshow.Hash

/-
  This file defines the fingerprint of a graph: the hash of
  everything that its rendering depends on, apart from the
  settings of the encoder and the path of the result.

  Key definitions include:
    * `RenderGraph.identity`
    * `RenderGraph.fingerprint`
-/

namespace Slideshow

namespace RenderGraph

/-
  The bytes that tell graphs apart: the input paths, the
  filter text, the length in microseconds, and the path of
  the narration, if there is one.
-/
def identity (graph : RenderGraph) : Bytes :=
  graph.inputs.flatMap Hash.textBytes ++
    Hash.textBytes graph.filterText ++
    Hash.wordBytes
      (Binary.roundMicros graph.totalDuration).toBits ++
    (match graph.audio with
      | some track => Hash.textBytes track.path
      | none => [])

/- The hash of the identity of a graph. -/
def fingerprint (graph : RenderGraph) : UInt64 :=
  Hash.ofBytes graph.identity

end RenderGraph

end Slideshow
