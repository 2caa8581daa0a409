import Slideshow.Config.Basic
import Slideshow.Graph.Filter
import Slideshow.Shell.Quote

/-
  This file defines the command that renders a graph into a
  file.

  Key definitions include:
    * `Command`
    * `Command.shellText`
    * `RenderGraph.command`
-/

namespace Slideshow

/- A program and its arguments. -/
structure Command where
  program : String
  args : List String
deriving DecidableEq, Repr

/- The command as a line for a shell. -/
def Command.shellText (command : Command) : String :=
  Shell.line (command.program :: command.args)

------------------------------------------------------------
-- Rendering
------------------------------------------------------------

/- The name of the program that renders. -/
def rendererName : String :=
  "ffmpeg"

namespace RenderGraph

/- The input files, the narration behind the images. -/
def inputArgs (graph : RenderGraph) : List String :=
  let paths :=
    graph.inputs ++ (graph.audio.map (·.path)).toList
  paths.flatMap fun path => ["-i", path]

/- The arguments for the narration, if there is one. -/
def audioArgs
    (graph : RenderGraph)
    (encoder : EncoderSettings) : List String :=
  match graph.audio with
  | some _ =>
      ["-map", Numeral.write graph.audioInput ++ ":a",
        "-c:a", encoder.audioCodec]
  | none => []

/- The arguments for the pictures. -/
def videoArgs
    (encoder : EncoderSettings) : List String :=
  ["-c:v", encoder.videoCodec, "-preset", encoder.preset,
    "-crf", Numeral.write encoder.crf.toNat, "-pix_fmt",
    encoder.pixelFormat]

/-
  The command that renders a graph into a file.  The result
  is always cut to the length of the film.
-/
def command
    (graph : RenderGraph)
    (encoder : EncoderSettings)
    (output : String) : Command where
  program := rendererName
  args :=
    ["-y", "-hide_banner", "-loglevel", "error"] ++
      graph.inputArgs ++
      ["-filter_complex", graph.filterText, "-map",
        bracketed graph.output] ++
      graph.audioArgs encoder ++ videoArgs encoder ++
      ["-t", secondsText graph.totalDuration, output]

end RenderGraph

end Slideshow
