import Slideshow.Config.Basic
import Slideshow.FileTree.Basic
import Slideshow.Json.Decoder
import Slideshow.Motion.Reading

/-
  This file defines how settings are read from JSON text
  and from files.  Every field of the settings may be left
  out.

  Key definitions include:
    * `TransitionPolicy.decode?`
    * `Config.decode`
    * `Config.read`
    * `Config.load`
    * `SpeechConfig.read`
-/

namespace Slideshow

open Json (Value Decoder)

------------------------------------------------------------
-- Parts
------------------------------------------------------------

/- A frame rate from its two fields. -/
def FrameRate.decode? : Decoder FrameRate := fun v => do
  let [num, den] ← Decoder.parts? ["num", "den"] v | none
  return ⟨← Decoder.required .word32 num,
    ← Decoder.required .word32 den⟩

/- A frame size from its two fields. -/
def FrameSize.decode? : Decoder FrameSize := fun v => do
  let [width, height] ←
    Decoder.parts? ["width", "height"] v | none
  return ⟨← Decoder.required .word32 width,
    ← Decoder.required .word32 height⟩

/- Zoom bounds from their two fields. -/
def ZoomBounds.decode? :
    Decoder (ZoomBounds Float) := fun v => do
  let [min, max] ← Decoder.parts? ["min", "max"] v | none
  return ⟨← Decoder.required .float min,
    ← Decoder.required .float max⟩

/- Blur levels from their three fields. -/
def BlurLevels.decode? :
    Decoder (BlurLevels Float) := fun v => do
  let [low, mid, high] ←
    Decoder.parts? ["low", "mid", "high"] v | none
  return ⟨← Decoder.required .float low,
    ← Decoder.required .float mid,
    ← Decoder.required .float high⟩

/- Encoder settings, each field with its default. -/
def EncoderSettings.decode? :
    Decoder EncoderSettings := fun v => do
  let base := EncoderSettings.standard
  let [video, preset, crf, pixel, audio] ←
    Decoder.parts? ["video_codec", "preset", "crf",
      "pix_fmt", "audio_codec"] v | none
  return {
    videoCodec := ← Decoder.orElse .text base.videoCodec video
    preset := ← Decoder.orElse .text base.preset preset
    crf := ← Decoder.orElse .word8 base.crf crf
    pixelFormat :=
      ← Decoder.orElse .text base.pixelFormat pixel
    audioCodec :=
      ← Decoder.orElse .text base.audioCodec audio }

------------------------------------------------------------
-- Transition Policies
------------------------------------------------------------

namespace TransitionPolicy

/-
  The nesting that is left inside a policy: the settings
  around it take up one of 127 levels.
-/
def nestingLimit : Nat := 126

/-
  A style in a policy.  The record form may also map the
  name to an empty record.
-/
def style? : Decoder TransitionStyle
  | .record [(key, .record [])] =>
      key.whole?.bind TransitionStyle.ofName?
  | v => Decoder.unit? TransitionStyle.ofName? v

/- The policy of a kind and its styles, if given. -/
def ofKind?
    (kind : String)
    (styles : Option Value) : Option TransitionPolicy :=
  if kind = "blur_dissolve" then some .blurDissolve
  else if kind = "random" then
    styles.bind fun v =>
      (Decoder.list style? v).map .random
  else none

/-
  A policy: a record with its kind, or a list of the kind
  and the styles that belong to it.
-/
def decode? : Decoder TransitionPolicy := fun v =>
  if !v.isSound nestingLimit then none
  else
    match v with
    | .record fields => do
        let some kind ← Decoder.single? fields "kind" | none
        let kind ← Decoder.text kind
        if kind = "random" then
          ofKind? kind (← Decoder.single? fields "styles")
        else ofKind? kind none
    | .list [kind] => do
        let kind ← Decoder.text kind
        ofKind? kind none
    | .list [kind, styles] => do
        let kind ← Decoder.text kind
        if kind = "random" then ofKind? kind (some styles)
        else none
    | _ => none

end TransitionPolicy

------------------------------------------------------------
-- Settings
------------------------------------------------------------

namespace Config

/- The keys of the settings of a film. -/
def keys : List String :=
  ["fps", "resolution", "supersample", "overlap_secs",
    "zoom", "blur", "transitions", "effects", "encoder"]

/- The settings of a JSON value. -/
def ofValue? : Decoder Config := fun v => do
  let base := Config.standard
  let [rate, size, supersample, overlap, zoom, blur,
      transitions, effects, encoder] ←
    Decoder.parts? keys v | none
  return {
    rate := ← Decoder.orElse FrameRate.decode? base.rate rate
    size := ← Decoder.orElse FrameSize.decode? base.size size
    supersample :=
      ← Decoder.orElse .word32 base.supersample supersample
    overlap := ← Decoder.orElse .float base.overlap overlap
    zoom :=
      ← Decoder.orElse ZoomBounds.decode? base.zoom zoom
    blur :=
      ← Decoder.orElse BlurLevels.decode? base.blur blur
    transitions :=
      ← Decoder.orElse TransitionPolicy.decode?
        base.transitions transitions
    effects :=
      ← Decoder.orElse
        (.list (Decoder.unit? MotionEffect.ofName?))
        base.effects effects
    encoder :=
      ← Decoder.orElse EncoderSettings.decode?
        base.encoder encoder }

/- The settings of a JSON text, usable or not. -/
def decode
    (s : String) : Except Error Config :=
  match (Json.read? s).bind ofValue? with
  | some config => .ok config
  | none => .error (.document .config)

/- The settings of a JSON text, if they can be used. -/
def read
    (s : String) : Except Error Config := do
  let config ← decode s
  config.validate
  return config

/- The settings in a file, if they can be used. -/
def load
    (tree : FileTree)
    (path : String) : Except Error Config := do
  if !tree.pathExists path then
    .error (.missing (.config path))
  let text ← (tree.readText path).mapError
    (.system (.readConfig path))
  read text

end Config

namespace SpeechConfig

/- The keys of the settings of a narration. -/
def keys : List String :=
  ["chunk_words", "chunk_tolerance", "sample_rate", "voice"]

/- The settings of a JSON value. -/
def ofValue? : Decoder SpeechConfig := fun v => do
  let base := SpeechConfig.standard
  let [words, tolerance, rate, voice] ←
    Decoder.parts? keys v | none
  return {
    chunkWords := ← Decoder.orElse .word base.chunkWords words
    chunkTolerance :=
      ← Decoder.orElse .word base.chunkTolerance tolerance
    sampleRate :=
      ← Decoder.orElse .word32 base.sampleRate rate
    voice := ← Decoder.orElse .text base.voice voice }

/- The settings of a JSON text, usable or not. -/
def read
    (s : String) : Except Error SpeechConfig :=
  match (Json.read? s).bind ofValue? with
  | some config => .ok config
  | none => .error (.document .speechConfig)

end SpeechConfig

end Slideshow
