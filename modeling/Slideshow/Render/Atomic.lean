import Slideshow.Command
import Slideshow.Render.Temp

/-
  This file defines how a graph is rendered: into a
  temporary file beside the output, which takes the place of
  the output only when the renderer has succeeded.

  Key definitions include:
    * `Performed`
    * `Renderer`
    * `Performed.ofFiles`
    * `RenderGraph.render`
-/

namespace Slideshow

/-
  What is left of a job: its result, the state of the
  collaborator that took part in it, and the files.
-/
structure Performed (σ α : Type) where
  result : Except Error α
  state : σ
  tree : FileTree

namespace Performed

variable {σ α β : Type}

/- A job on the files alone. -/
def ofFiles
    (run : FileM Error α)
    (s : σ)
    (tree : FileTree) : Performed σ α :=
  let (result, tree) := run.run tree
  ⟨result, s, tree⟩

/- Go on with a job that succeeded. -/
def andThen
    (first : Performed σ α)
    (next : α → σ → FileTree → Performed σ β) :
    Performed σ β :=
  match first.result with
  | .ok a => next a first.state first.tree
  | .error e => ⟨.error e, first.state, first.tree⟩

/- Clean up the files after a job that failed. -/
def onFailure
    (first : Performed σ α)
    (cleanup : StateM FileTree Unit) : Performed σ α :=
  match first.result with
  | .ok _ => first
  | .error _ =>
      { first with tree := (cleanup.run first.tree).2 }

end Performed

/- What carries out a command on the files. -/
abbrev Renderer (σ : Type) :=
  Command → σ → FileTree → Performed σ Unit

namespace RenderGraph

/-
  Create the temporary file of an output, and remove what
  interrupted runs have left beside it.
-/
def prepare
    [TempNaming]
    (output : String) : FileM Error String := do
  let temp ← Temp.create output []
  let _ ← (Temp.sweep (Temp.directory output)
    Temp.staleAge : StateM FileTree Nat)
  return temp

/-
  Render a graph into a file.  If the renderer fails, the
  temporary file is removed.  If its result cannot be moved,
  the error holds the temporary file.
-/
def render
    [TempNaming]
    {σ : Type}
    (renderer : Renderer σ)
    (graph : RenderGraph)
    (encoder : EncoderSettings)
    (output : String)
    (s : σ)
    (tree : FileTree) : Performed σ Command :=
  (Performed.ofFiles (prepare output) s tree).andThen
    fun temp s tree =>
      let command := graph.command encoder temp
      ((renderer command s tree).onFailure
        (FileM.removeFile temp)).andThen
        fun _ s tree =>
          .ofFiles (do
            FileM.during (.moveRender output temp)
              (FileM.move temp output)
            return command) s tree

end RenderGraph

end Slideshow
