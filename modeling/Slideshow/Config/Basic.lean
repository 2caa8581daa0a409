import Slideshow.Blur
import Slideshow.Frame.Reading
import Slideshow.Motion.Path
import Slideshow.Transition.Policy

/-
  This file defines the settings of a film and of its
  narration, their defaults, and which of them are usable.

  Key definitions include:
    * `EncoderSettings`
    * `Config`
    * `Config.workingSize`
    * `Config.validate`
    * `SpeechConfig`
    * `SpeechConfig.validate`
-/

namespace Slideshow

------------------------------------------------------------
-- Films
------------------------------------------------------------

/- The settings of the encoder. -/
structure EncoderSettings where
  videoCodec : String
  preset : String
  crf : UInt8
  pixelFormat : String
  audioCodec : String
deriving DecidableEq, Repr

/- The encoder settings used where none are given. -/
def EncoderSettings.standard : EncoderSettings where
  videoCodec := "libx264"
  preset := "fast"
  crf := 23
  pixelFormat := "yuv420p"
  audioCodec := "aac"

/-
  The settings of a film.  Clips and transitions are made at
  `supersample` times the final size.  `overlap` is the
  length of every transition in seconds, and `effects` are
  the moves to choose from for shots that name none.
-/
structure Config where
  rate : FrameRate
  size : FrameSize
  supersample : UInt32
  overlap : Float
  zoom : ZoomBounds Float
  blur : BlurLevels Float
  transitions : TransitionPolicy
  effects : List MotionEffect
  encoder : EncoderSettings
deriving Repr

namespace Config

/- The settings used where none are given. -/
def standard : Config where
  rate := ⟨24, 1⟩
  size := ⟨1920, 1080⟩
  supersample := 2
  overlap := 1.0
  zoom := .standard
  blur := .standard
  transitions := .blurDissolve
  effects := MotionEffect.all
  encoder := .standard

/- The size at which clips and transitions are made. -/
def workingSize
    (config : Config) : Except FrameFault FrameSize :=
  config.size.scaled config.supersample

/- Check the frame rate and the sizes. -/
def validateFrames
    (config : Config) : Except Error Unit := do
  let _ ← (FrameRate.checked config.rate.num
    config.rate.den).mapError Error.ofFrame
  let _ ← (FrameSize.checked config.size.width
    config.size.height).mapError Error.ofFrame
  if !config.size.isEven then
    .error (.ofSetting (.oddSize config.size))
  if config.supersample = 0 then
    .error (.ofSetting .supersample)
  let _ ← config.workingSize.mapError Error.ofFrame

/- Check that the settings can be used together. -/
def validate
    (config : Config) : Except Error Unit := do
  config.validateFrames
  if !config.overlap.isFinite || config.overlap ≤ 0.0 then
    .error (.ofSetting .overlap)
  config.zoom.validate.mapError Error.ofMotion
  config.blur.validate.mapError Error.ofBlur
  config.transitions.validate.mapError Error.ofTransition
  if config.effects.isEmpty then
    .error (.ofSetting .noEffects)

end Config

------------------------------------------------------------
-- Narration
------------------------------------------------------------

/-
  The settings of a narration: how many words go into one
  request, how far a request may deviate from that, the
  sample rate of the replies, and the voice.
-/
structure SpeechConfig where
  chunkWords : UInt64
  chunkTolerance : UInt64
  sampleRate : UInt32
  voice : String
deriving DecidableEq, Repr

namespace SpeechConfig

/- The settings used where none are given. -/
def standard : SpeechConfig where
  chunkWords := 400
  chunkTolerance := 30
  sampleRate := 24000
  voice := "Algenib"

/- Check that the settings can be used together. -/
def validate
    (config : SpeechConfig) :
    Except SettingFault Unit :=
  if config.chunkWords = 0 then .error .chunkWords
  else if config.chunkWords ≤ config.chunkTolerance then
    .error .chunkTolerance
  else if config.sampleRate = 0 then .error .sampleRate
  else .ok ()

end SpeechConfig

end Slideshow
