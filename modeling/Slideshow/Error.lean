import Slideshow.Expr.Basic
import Slideshow.Motion.Effect
import Slideshow.Transition.Style

/-
  This file defines everything that can go wrong, as causes,
  and the words and exit codes that go with them.

  Key definitions include:
    * `Panic`
    * `FormatFault`
    * `MissingFile`
    * `GenerationFailure`
    * `WiringFault`
    * `SettingFault`
    * `ValueFault`
    * `SystemFault`
    * `Error`
    * `Error.message`
    * `Error.chain`
    * `Error.exitCode`
-/

namespace Slideshow

------------------------------------------------------------
-- Malformed Text and Bytes
------------------------------------------------------------

/- Why bytes are no WAVE file. -/
inductive WaveFault where
| noMagic
| shortFormat
| dataBeforeFormat
| byteRateTooLarge
| noData
deriving DecidableEq, Repr

/- A fault in words. -/
def WaveFault.text : WaveFault → String
  | .noMagic => "missing RIFF/WAVE magic"
  | .shortFormat => "short fmt chunk"
  | .dataBeforeFormat => "data chunk before fmt chunk"
  | .byteRateTooLarge =>
      "byte rate overflows the fmt chunk"
  | .noData => "no data chunk"

/- Why a text or a file cannot be read as what it names. -/
inductive FormatFault where
| frameRate (text : String)
| frameSize (text : String)
| interval (text : String)
| clock (text : String)
| clockField (field clock : String)
| infiniteField (field clock : String)
| emptyShot (shot timing : String)
| aspect (text : String)
| shotRange (part : String)
| wave (fault : WaveFault)
| inShot (shot : String) (fault : FormatFault)
deriving DecidableEq, Repr

/- A fault in words. -/
def FormatFault.text : FormatFault → String
  | .frameRate s => "invalid frame rate '" ++ s ++ "'"
  | .frameSize s =>
      "invalid resolution '" ++ s ++ "' (expected WxH)"
  | .interval s =>
      "invalid timing '" ++ s ++
        "': expected '<start> - <end>'"
  | .clock s =>
      "invalid clock '" ++ s ++ "': expected H:M:S"
  | .clockField field whole =>
      "invalid clock field '" ++ field ++ "' in '" ++
        whole ++ "'"
  | .infiniteField field whole =>
      "clock field '" ++ field ++ "' in '" ++ whole ++
        "' must be finite"
  | .emptyShot shot timing =>
      "shot " ++ shot ++ ": timing '" ++ timing ++
        "' has non-positive duration"
  | .aspect s =>
      "unsupported aspect ratio '" ++ s ++
        "' (expected 1:1, 16:9, 4:3, 9:16 or 3:4)"
  | .shotRange part =>
      "invalid shot range '" ++ part ++ "' (expected A-B)"
  | .wave fault => "not a wav file: " ++ fault.text
  | .inShot shot fault => "shot " ++ shot ++ ": " ++ fault.text

------------------------------------------------------------
-- The System
------------------------------------------------------------

/- Why the system refused an operation on files. -/
inductive SystemFault where
| notFound
| notDirectory
| isDirectory
| alreadyExists
| notEmpty
| busy
| invalid
| nameTooLong
| accessDenied
| notProgram
| nulInName
| notText
deriving DecidableEq, Repr

/- A fault in the words of the system. -/
def SystemFault.text : SystemFault → String
  | .notFound => "No such file or directory (os error 2)"
  | .notDirectory => "Not a directory (os error 20)"
  | .isDirectory => "Is a directory (os error 21)"
  | .alreadyExists => "File exists (os error 17)"
  | .notEmpty => "Directory not empty (os error 39)"
  | .busy => "Device or resource busy (os error 16)"
  | .invalid => "Invalid argument (os error 22)"
  | .nameTooLong => "File name too long (os error 36)"
  | .accessDenied => "Permission denied (os error 13)"
  | .notProgram => "Exec format error (os error 8)"
  | .nulInName =>
      "file name contained an unexpected NUL byte"
  | .notText => "stream did not contain valid UTF-8"

/-
  What was being done when the system refused.  A move that
  was refused leaves a temporary file behind.
-/
inductive Action where
| readConfig (path : String)
| readScenario (path : String)
| writePlaceholder (path : String)
| runProgram (program : String)
| createDirectory (path : String)
| createTemp (directory : String)
| writeFile (path : String)
| moveRender (path temp : String)
| moveFile (path temp : String)
deriving DecidableEq, Repr

namespace Action

/- An action in words. -/
def text : Action → String
  | readConfig path => "read config '" ++ path ++ "'"
  | readScenario path => "read scenario '" ++ path ++ "'"
  | writePlaceholder path =>
      "failed to write placeholder '" ++ path ++ "'"
  | runProgram program =>
      "failed to run '" ++ program ++
        "' (is it installed and on PATH?)"
  | createDirectory path =>
      "failed to create output directory '" ++ path ++ "'"
  | createTemp directory =>
      "failed to create temp file in '" ++ directory ++ "'"
  | writeFile path => "failed to write '" ++ path ++ "'"
  | moveRender path _ =>
      "failed to move render into '" ++ path ++ "'"
  | moveFile path _ =>
      "failed to move file into '" ++ path ++ "'"

/-
  The causes behind an action, outermost first.  A failed
  move names itself once more before the refusal.
-/
def causes
    (cause : SystemFault) :
    Action → List String
  | moveRender _ _ | moveFile _ _ =>
      ["failed to persist temporary file: " ++ cause.text,
        cause.text]
  | _ => [cause.text]

/- The temporary file that is left behind. -/
def temp? : Action → Option String
  | moveRender _ temp => some temp
  | moveFile _ temp => some temp
  | _ => none

end Action

/- A file that is referred to and cannot be had. -/
inductive MissingFile where
| config (path : String)
| scenario (path : String)
| audio (path : String)
| unreadableAudio (path : String) (cause : SystemFault)
deriving DecidableEq, Repr

/- A missing file in words. -/
def MissingFile.text : MissingFile → String
  | .config path => "config file '" ++ path ++ "' not found"
  | .scenario path =>
      "scenario file '" ++ path ++ "' not found"
  | .audio path => "audio file '" ++ path ++ "' not found"
  | .unreadableAudio path cause =>
      "cannot read audio '" ++ path ++ "': " ++ cause.text

------------------------------------------------------------
-- Generation
------------------------------------------------------------

/-
  Why a request for an image or for speech produced nothing
  that can be used.
-/
inductive GenerationFailure where
| safetyFilter (reason : String)
| transport (message : String)
| emptyResponse
deriving DecidableEq, Repr

/- A failure in words. -/
def GenerationFailure.text : GenerationFailure → String
  | .safetyFilter reason =>
      "rejected by safety filter: " ++ reason
  | .transport message => "transport failure: " ++ message
  | .emptyResponse => "response contained no media data"

------------------------------------------------------------
-- Unusable Values
------------------------------------------------------------

/- Why blur levels cannot be used. -/
inductive BlurFault where
| level
| order
deriving DecidableEq, Repr

/- A fault in words. -/
def BlurFault.text : BlurFault → String
  | .level => "blur levels must be finite and > 0"
  | .order =>
      "blur levels must be strictly increasing " ++
        "(low < mid < high)"

/- Why settings cannot be used. -/
inductive SettingFault where
| oddSize (size : FrameSize)
| supersample
| overlap
| noEffects
| chunkWords
| chunkTolerance
| sampleRate
deriving DecidableEq, Repr

/- A fault in words. -/
def SettingFault.text : SettingFault → String
  | .oddSize size =>
      "resolution " ++ size.text ++
        " must have even width/height " ++
        "(required for yuv420p output)"
  | .supersample => "supersample must be >= 1"
  | .overlap => "overlap_secs must be > 0"
  | .noEffects =>
      "at least one motion effect must be enabled"
  | .chunkWords => "chunk_words must be > 0"
  | .chunkTolerance =>
      "chunk_tolerance must be smaller than chunk_words"
  | .sampleRate => "sample_rate must be > 0"

/- Why a filter graph is not wired correctly. -/
inductive WiringFault where
| missingInput (node : String) (input : Nat)
| undefined (node label : String)
| consumedTwice (label : String)
| definedTwice (label : String)
| inputReads (input count : Nat)
| dangling (label : String)
deriving DecidableEq, Repr

/- A fault in words. -/
def WiringFault.text : WiringFault → String
  | .missingInput node input =>
      "node '" ++ node ++ "' reads missing input " ++
        Numeral.write input
  | .undefined node label =>
      "node '" ++ node ++ "' reads '" ++ label ++
        "' before it is defined"
  | .consumedTwice label =>
      "label '" ++ label ++ "' is consumed more than once"
  | .definedTwice label =>
      "label '" ++ label ++ "' is defined more than once"
  | .inputReads input count =>
      "input " ++ Numeral.write input ++ " is read " ++
        Numeral.write count ++ " times"
  | .dangling label =>
      "label '" ++ label ++
        "' is left dangling or the output is consumed"

/- Why a value that is well formed cannot be used. -/
inductive ValueFault where
| frame (fault : FrameFault)
| expr (fault : ExprFault)
| motion (fault : MotionFault)
| blur (fault : BlurFault)
| transition (fault : TransitionFault)
| setting (fault : SettingFault)
| wiring (fault : WiringFault)
| noShots
| noEffectEnabled
| emptyTimeline
| transitionCount (clips transitions : Nat)
| scenarioNotList
| noValidShots (skipped : Nat)
| payloadTooLarge
| sampleRateTooHigh (rate : UInt32)
| noSpeechText
| inShot (shot : String) (fault : ValueFault)

/- A fault in words. -/
def ValueFault.text : ValueFault → String
  | .frame fault => fault.text
  | .expr fault => fault.text
  | .motion fault => fault.text
  | .blur fault => fault.text
  | .transition fault => fault.text
  | .setting fault => fault.text
  | .wiring fault => fault.text
  | .noShots => "timeline needs at least one shot"
  | .noEffectEnabled => "no motion effects enabled"
  | .emptyTimeline => "cannot assemble an empty timeline"
  | .transitionCount clips transitions =>
      Numeral.write clips ++ " clips need " ++
        Numeral.write (clips - 1) ++ " transitions, got " ++
        Numeral.write transitions
  | .scenarioNotList =>
      "scenario root must be a list of shot objects"
  | .noValidShots skipped =>
      "no valid shots found (" ++ Numeral.write skipped ++
        " skipped)"
  | .payloadTooLarge =>
      "pcm payload too large for a wav file"
  | .sampleRateTooHigh rate =>
      "sample rate " ++ Numeral.write rate.toNat ++
        " is too high for a wav file"
  | .noSpeechText => "no text to synthesize"
  | .inShot shot fault => "shot " ++ shot ++ ": " ++ fault.text

/- The documents that are read from JSON. -/
inductive DocumentKind where
| config
| scenario
| shotRecord
| speechConfig
deriving DecidableEq, Repr

/- What is wrong with a document that cannot be read. -/
def DocumentKind.text : DocumentKind → String
  | .config => "invalid config json"
  | .scenario => "invalid scenario json"
  | .shotRecord => "invalid shot record"
  | .speechConfig => "invalid speech config"

------------------------------------------------------------
-- Panics
------------------------------------------------------------

/-
  What stops a program on the spot.  It is no error, and no
  result is left.
-/
inductive Panic where
| addOverflow
deriving DecidableEq, Repr

/- A panic in words. -/
def Panic.text : Panic → String
  | .addOverflow => "attempt to add with overflow"

------------------------------------------------------------
-- Errors
------------------------------------------------------------

/- The classes of errors. -/
inductive ErrorKind where
| format
| missingResource
| generation
| render
| validation
| serialization
| other
deriving DecidableEq, Repr

/- The words in front of an error of a class. -/
def ErrorKind.headline : ErrorKind → String
  | .format => "format error: "
  | .missingResource => "missing resource: "
  | .generation => "generation error: "
  | .render => "render error: "
  | .validation => "validation error: "
  | .serialization => "serialization error: "
  | .other => ""

/-
  Everything that can go wrong.  An error that a renderer, a
  generator or a synthesizer words itself is `reported`.
-/
inductive Error where
| format (fault : FormatFault)
| missing (file : MissingFile)
| generation (failure : GenerationFailure)
| render (status : Option Int) (stderr : String)
| validation (fault : ValueFault)
| document (kind : DocumentKind)
| system (action : Action) (cause : SystemFault)
| reported (kind : ErrorKind) (text : String)

namespace Error

/- A fault of a frame rate or size, as an error. -/
def ofFrame (fault : FrameFault) : Error :=
  validation (.frame fault)

/- A fault of an expression, as an error. -/
def ofExpr (fault : ExprFault) : Error :=
  validation (.expr fault)

/- A fault of a camera move, as an error. -/
def ofMotion (fault : MotionFault) : Error :=
  validation (.motion fault)

/- A fault of blur levels, as an error. -/
def ofBlur (fault : BlurFault) : Error :=
  validation (.blur fault)

/- A fault of a transition, as an error. -/
def ofTransition (fault : TransitionFault) : Error :=
  validation (.transition fault)

/- A fault of settings, as an error. -/
def ofSetting (fault : SettingFault) : Error :=
  validation (.setting fault)

/- A fault of the wiring of a graph, as an error. -/
def ofWiring (fault : WiringFault) : Error :=
  validation (.wiring fault)

/- The class of an error. -/
def kind : Error → ErrorKind
  | format _ => .format
  | missing _ => .missingResource
  | generation _ => .generation
  | render _ _ => .render
  | validation _ => .validation
  | document _ => .serialization
  | system _ _ => .other
  | reported kind _ => kind

/- How a renderer ended. -/
def statusText : Option Int → String
  | some code => "status " ++ toString code
  | none => "no status (terminated by signal)"

/- An error in words, without its class. -/
def detail : Error → String
  | format fault => fault.text
  | missing file => file.text
  | generation failure => failure.text
  | render status stderr =>
      "renderer exited with " ++ statusText status ++ ": " ++
        stderr
  | validation fault => fault.text
  | document kind => kind.text
  | system action _ => action.text
  | reported _ text => text

/- An error in words. -/
def message (e : Error) : String :=
  e.kind.headline ++ e.detail

/- An error in words, followed by what caused it. -/
def chain (e : Error) : String :=
  match e with
  | system action cause =>
      ": ".intercalate
        (action.text :: action.causes cause)
  | _ => e.message

/-
  The temporary file that an error holds.  It stays until
  the error is dropped.
-/
def held? : Error → Option String
  | system action _ => action.temp?
  | _ => none

/-
  The exit code that an error suggests: that of the renderer
  where there is one, and one otherwise.
-/
def exitCode : Error → Int
  | render (some code) _ => if code ≠ 0 then code else 1
  | _ => 1

end Error

end Slideshow
