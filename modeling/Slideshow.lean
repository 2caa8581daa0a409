import Slideshow.Audio.Fit
import Slideshow.Audio.Track
import Slideshow.Audio.Wave
import Slideshow.Blur
import Slideshow.Command
import Slideshow.CommandLine.Options
import Slideshow.CommandLine.Run
import Slideshow.Config.Basic
import Slideshow.Config.Decode
import Slideshow.Config.Encode
import Slideshow.Decimal.Binary
import Slideshow.Decimal.Layout
import Slideshow.Decimal.Reading
import Slideshow.Decimal.Shortest
import Slideshow.Error
import Slideshow.Expr.Basic
import Slideshow.Expr.Eval
import Slideshow.Expr.Lower
import Slideshow.FileTree.Basic
import Slideshow.FileTree.Change
import Slideshow.FileTree.Path
import Slideshow.Film
import Slideshow.Film.Document
import Slideshow.Frame.Basic
import Slideshow.Frame.Reading
import Slideshow.Graph.Assemble
import Slideshow.Graph.Basic
import Slideshow.Graph.Document
import Slideshow.Graph.Filter
import Slideshow.Graph.Fingerprint
import Slideshow.Graph.Wiring
import Slideshow.Hash
import Slideshow.Host
import Slideshow.Json.Decoder
import Slideshow.Json.Document
import Slideshow.Json.Number
import Slideshow.Json.Reader
import Slideshow.Json.Value
import Slideshow.Motion.Document
import Slideshow.Motion.Effect
import Slideshow.Motion.Path
import Slideshow.Motion.Reading
import Slideshow.Motion.Viewport
import Slideshow.Picture.Checksum
import Slideshow.Picture.Generate
import Slideshow.Picture.Plan
import Slideshow.Picture.Png
import Slideshow.Picture.Reader
import Slideshow.Picture.Request
import Slideshow.Picture.Selection
import Slideshow.Proofs.Audio.Chunks
import Slideshow.Proofs.Audio.Fit
import Slideshow.Proofs.Audio.Positions
import Slideshow.Proofs.Audio.Wave
import Slideshow.Proofs.Choice
import Slideshow.Proofs.CommandLine.Early
import Slideshow.Proofs.CommandLine.Failure
import Slideshow.Proofs.CommandLine.Run
import Slideshow.Proofs.Config.Reading
import Slideshow.Proofs.Decimal.Arithmetic
import Slideshow.Proofs.Decimal.Error
import Slideshow.Proofs.Decimal.Exact
import Slideshow.Proofs.Decimal.Loss
import Slideshow.Proofs.Decimal.Nearest
import Slideshow.Proofs.Decimal.Quotient
import Slideshow.Proofs.Decimal.Reading
import Slideshow.Proofs.Decimal.Rounding
import Slideshow.Proofs.Decimal.Sum
import Slideshow.Proofs.Decimal.Whole
import Slideshow.Proofs.Expr.Exact
import Slideshow.Proofs.Expr.Lower
import Slideshow.Proofs.Expr.Value
import Slideshow.Proofs.FileTree.Change
import Slideshow.Proofs.FileTree.Lookup
import Slideshow.Proofs.FileTree.Path
import Slideshow.Proofs.FileTree.Tree
import Slideshow.Proofs.Film
import Slideshow.Proofs.Film.Length
import Slideshow.Proofs.Film.Readable
import Slideshow.Proofs.Formula.Grammar
import Slideshow.Proofs.Formula.Reader
import Slideshow.Proofs.Frame.Exact
import Slideshow.Proofs.Frame.RoundTrip
import Slideshow.Proofs.Frame.Written
import Slideshow.Proofs.Graph.Assembly
import Slideshow.Proofs.Graph.Filter
import Slideshow.Proofs.Graph.Fingerprint
import Slideshow.Proofs.Graph.Flow
import Slideshow.Proofs.Graph.Labels
import Slideshow.Proofs.Graph.Tree
import Slideshow.Proofs.Graph.Unfolding
import Slideshow.Proofs.Graph.Wiring
import Slideshow.Proofs.Json.Decoder
import Slideshow.Proofs.Json.Document
import Slideshow.Proofs.Json.Layout
import Slideshow.Proofs.Json.Tree
import Slideshow.Proofs.Motion.Exact
import Slideshow.Proofs.Motion.Path
import Slideshow.Proofs.Motion.Sample
import Slideshow.Proofs.Motion.Sweep
import Slideshow.Proofs.Motion.Viewport
import Slideshow.Proofs.Numeral
import Slideshow.Proofs.Outcome
import Slideshow.Proofs.Picture.Generate
import Slideshow.Proofs.Picture.Plan
import Slideshow.Proofs.Picture.Prompt
import Slideshow.Proofs.Picture.Reference
import Slideshow.Proofs.Picture.Selection
import Slideshow.Proofs.Playback.Dissolve
import Slideshow.Proofs.Playback.Footage
import Slideshow.Proofs.Playback.Reel
import Slideshow.Proofs.Render.Arguments
import Slideshow.Proofs.Render.Atomic
import Slideshow.Proofs.Render.Prepare
import Slideshow.Proofs.Render.Temp
import Slideshow.Proofs.Render.Write
import Slideshow.Proofs.Scenario.Declared
import Slideshow.Proofs.Scenario.Duration
import Slideshow.Proofs.Scenario.Resolve
import Slideshow.Proofs.Schedule
import Slideshow.Proofs.Shell.Fields
import Slideshow.Proofs.Shell.Split
import Slideshow.Proofs.Speech.Chunk
import Slideshow.Proofs.Speech.Counting
import Slideshow.Proofs.Speech.Files
import Slideshow.Proofs.Speech.Grouping
import Slideshow.Proofs.Speech.Sentence
import Slideshow.Proofs.Speech.Track
import Slideshow.Proofs.Text.Blank
import Slideshow.Proofs.Text.Case
import Slideshow.Proofs.Text.Occurrence
import Slideshow.Proofs.Text.Replace
import Slideshow.Proofs.Text.Separator
import Slideshow.Proofs.Text.Utf8
import Slideshow.Proofs.Timeline
import Slideshow.Proofs.Timeline.Append
import Slideshow.Proofs.Timeline.Draws
import Slideshow.Proofs.Timeline.Offsets
import Slideshow.Proofs.Timing
import Slideshow.Proofs.Timing.Written
import Slideshow.Proofs.Transition.Reading
import Slideshow.Random.Cipher
import Slideshow.Random.Source
import Slideshow.Render.Atomic
import Slideshow.Render.Program
import Slideshow.Render.Recording
import Slideshow.Render.Temp
import Slideshow.Scenario.Basic
import Slideshow.Scenario.Document
import Slideshow.Scenario.Reading
import Slideshow.Scenario.Resolve
import Slideshow.Schedule
import Slideshow.Shell.Quote
import Slideshow.Shell.Run
import Slideshow.Shell.Script
import Slideshow.Shell.State
import Slideshow.Shell.Token
import Slideshow.Shell.Tool
import Slideshow.Speech.Chunk
import Slideshow.Speech.Sentence
import Slideshow.Speech.Track
import Slideshow.Text.Basic
import Slideshow.Text.Chars
import Slideshow.Text.Numeral
import Slideshow.Text.Utf8
import Slideshow.Timeline
import Slideshow.Timeline.Document
import Slideshow.Timing
import Slideshow.Transition.Policy
import Slideshow.Transition.Style
