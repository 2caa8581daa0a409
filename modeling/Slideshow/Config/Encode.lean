import Slideshow.Config.Basic
import Slideshow.Json.Document

/-
  This file defines the documents of settings, in which
  every field is written out.

  Key definitions include:
    * `TransitionPolicy.document`
    * `Config.document`
    * `SpeechConfig.document`
-/

namespace Slideshow

open Json (Document)

/- The document of a frame rate. -/
def FrameRate.document (rate : FrameRate) : Document :=
  .record [
    ("num", .natural rate.num.toNat),
    ("den", .natural rate.den.toNat)]

/- The document of a frame size. -/
def FrameSize.document (size : FrameSize) : Document :=
  .record [
    ("width", .natural size.width.toNat),
    ("height", .natural size.height.toNat)]

/- The document of zoom bounds. -/
def ZoomBounds.document
    (bounds : ZoomBounds Float) : Document :=
  .record [("min", .real bounds.min), ("max", .real bounds.max)]

/- The document of blur levels. -/
def BlurLevels.document
    (levels : BlurLevels Float) : Document :=
  .record [
    ("low", .real levels.low),
    ("mid", .real levels.mid),
    ("high", .real levels.high)]

/- The document of encoder settings. -/
def EncoderSettings.document
    (encoder : EncoderSettings) : Document :=
  .record [
    ("video_codec", .text encoder.videoCodec),
    ("preset", .text encoder.preset),
    ("crf", .natural encoder.crf.toNat),
    ("pix_fmt", .text encoder.pixelFormat),
    ("audio_codec", .text encoder.audioCodec)]

/- The document of a policy. -/
def TransitionPolicy.document :
    TransitionPolicy → Document
  | .blurDissolve =>
      .record [("kind", .text "blur_dissolve")]
  | .random styles =>
      .record [
        ("kind", .text "random"),
        ("styles", .list
          (styles.map fun style => .text style.name))]

/- The document of the settings of a film. -/
def Config.document (config : Config) : Document :=
  .record [
    ("fps", config.rate.document),
    ("resolution", config.size.document),
    ("supersample", .natural config.supersample.toNat),
    ("overlap_secs", .real config.overlap),
    ("zoom", config.zoom.document),
    ("blur", config.blur.document),
    ("transitions", config.transitions.document),
    ("effects", .list
      (config.effects.map fun effect => .text effect.name)),
    ("encoder", config.encoder.document)]

/- The document of the settings of a narration. -/
def SpeechConfig.document
    (config : SpeechConfig) : Document :=
  .record [
    ("chunk_words", .natural config.chunkWords.toNat),
    ("chunk_tolerance",
      .natural config.chunkTolerance.toNat),
    ("sample_rate", .natural config.sampleRate.toNat),
    ("voice", .text config.voice)]

end Slideshow
