import Slideshow.Audio.Wave
import Slideshow.Config.Basic
import Slideshow.Render.Temp
import Slideshow.Speech.Chunk

/-
  This file defines how a narration is synthesized, one
  request for each chunk, and how it is written to files.

  Key definitions include:
    * `Synthesizer`
    * `SpeechTrack`
    * `SpeechTrack.synthesize`
    * `SpeechTrack.wave`
    * `SpeechTrack.writeTo`
-/

namespace Slideshow

/-
  What speaks a text in a voice: the samples, of 16 bits and
  one channel.
-/
abbrev Synthesizer (σ : Type) :=
  String → String → σ → Except Error Bytes × σ

/- A chunk with its samples. -/
structure SpeechChunk where
  text : String
  samples : Bytes
deriving DecidableEq, Repr

/- A narration in its chunks. -/
structure SpeechTrack where
  voice : String
  sampleRate : UInt32
  chunks : List SpeechChunk
deriving DecidableEq, Repr

namespace SpeechTrack

------------------------------------------------------------
-- Synthesis
------------------------------------------------------------

/- Speak one text; no samples at all are a failure. -/
def speak
    {σ : Type}
    (synthesizer : Synthesizer σ)
    (voice text : String)
    (s : σ) : Except Error SpeechChunk × σ :=
  match synthesizer text voice s with
  | (.error e, s) => (.error e, s)
  | (.ok [], s) => (.error (.generation .emptyResponse), s)
  | (.ok samples, s) => (.ok ⟨text, samples⟩, s)

/- Speak texts in order, up to the first failure. -/
def speakAll
    {σ : Type}
    (synthesizer : Synthesizer σ)
    (voice : String)
    (s : σ) :
    List String → Except Error (List SpeechChunk) × σ
  | [] => (.ok [], s)
  | text :: rest =>
      match speak synthesizer voice text s with
      | (.error e, s) => (.error e, s)
      | (.ok chunk, s) =>
          match speakAll synthesizer voice s rest with
          | (.error e, s) => (.error e, s)
          | (.ok chunks, s) => (.ok (chunk :: chunks), s)

/- Synthesize the narration of a text. -/
def synthesize
    {σ : Type}
    (synthesizer : Synthesizer σ)
    (text : String)
    (config : SpeechConfig)
    (s : σ) :
    Except Panic (Except Error SpeechTrack) × σ :=
  match config.validate with
  | .error fault => (.ok (.error (.ofSetting fault)), s)
  | .ok () =>
      match speechChunks config.chunkWords
          config.chunkTolerance text with
      | .error panic => (.error panic, s)
      | .ok [] =>
          (.ok (.error (.validation .noSpeechText)), s)
      | .ok chunks =>
          let (result, s) :=
            speakAll synthesizer config.voice s chunks
          (.ok (result.map fun chunks =>
            ⟨config.voice, config.sampleRate, chunks⟩), s)

------------------------------------------------------------
-- Files
------------------------------------------------------------

/- The WAVE file of all chunks, under one header. -/
def wave
    (track : SpeechTrack) : Except ValueFault Bytes :=
  Wave.ofSamples (track.chunks.flatMap (·.samples))
    track.sampleRate

/- A WAVE file for each chunk. -/
def parts
    (track : SpeechTrack) :
    Except ValueFault (List Bytes) :=
  track.chunks.mapM fun chunk =>
    Wave.ofSamples chunk.samples track.sampleRate

/- The path of the file of the `n`-th part. -/
def partPath
    (track : SpeechTrack)
    (directory : String)
    (n : Nat) : String :=
  Path.join directory
    (track.voice ++ "_part_" ++ Numeral.write n ++ ".wav")

/- The path of the file of the whole. -/
def fullPath
    (track : SpeechTrack)
    (directory : String) : String :=
  Path.join directory (track.voice ++ "_full.wav")

/- Write parts, the first one under the number `n`. -/
def writeParts
    [TempNaming]
    (track : SpeechTrack)
    (directory : String)
    (n : Nat) :
    List Bytes → FileM Error (List String)
  | [] => return []
  | part :: rest => do
      let path := track.partPath directory n
      Temp.write path part
      let paths ←
        track.writeParts directory (n + 1) rest
      return path :: paths

/-
  Write the parts and then the whole into a directory.  The
  result is the list of paths.
-/
def writeTo
    [TempNaming]
    (track : SpeechTrack)
    (directory : String) : FileM Error (List String) := do
  let parts ← FileM.ofExcept
    (track.parts.mapError Error.validation)
  let paths ← track.writeParts directory 1 parts
  let wave ← FileM.ofExcept
    (track.wave.mapError Error.validation)
  let full := track.fullPath directory
  Temp.write full wave
  return paths ++ [full]

end SpeechTrack

end Slideshow
