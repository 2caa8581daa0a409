import Slideshow.Frame.Reading
import Slideshow.Transition.Policy

/-
  This file defines the options of the command line and how
  they are read from its arguments.

  Key definitions include:
    * `Options`
    * `Draft`
    * `Invocation`
    * `Invocation.read`
-/

namespace Slideshow

/-
  What the command line asks for.  A limit of zero is none,
  and the output is seen from the directory of the scenario.
-/
structure Options where
  scenario : String
  limit : UInt64
  output : String
  rate : Option FrameRate
  size : Option FrameSize
  audio : Option String
  isDryRun : Bool
  describes : Bool
  seed : Option UInt64
  transitions : Option TransitionPolicy
  config : Option String
  isVerbose : Bool
deriving Repr

/- What a command line comes to. -/
inductive Invocation where
| run (options : Options)
| version
| help
| misuse
deriving Repr

------------------------------------------------------------
-- Names
------------------------------------------------------------

/- The options that take a value. -/
inductive OptionName where
| limit
| output
| rate
| size
| audio
| seed
| transitions
| config
deriving DecidableEq, Repr

/- The options that take none. -/
inductive FlagName where
| dryRun
| describe
| verbose
| version
| help
deriving DecidableEq, Repr

/- The option with a long name. -/
def OptionName.ofLong? (s : String) : Option OptionName :=
  [("limit", limit), ("output", output), ("fps", rate),
    ("resolution", size), ("audio", audio), ("seed", seed),
    ("transitions", transitions),
    ("config", config)].lookup s

/- The flag with a long name. -/
def FlagName.ofLong? (s : String) : Option FlagName :=
  [("dry-run", dryRun), ("describe", describe),
    ("verbose", verbose), ("version", version),
    ("help", help)].lookup s

/- The flag with a short name. -/
def FlagName.ofShort? (c : Char) : Option FlagName :=
  [('v', verbose), ('V', version), ('h', help)].lookup c

------------------------------------------------------------
-- Drafts
------------------------------------------------------------

/-
  The options that were given so far.  Nothing may be given
  twice.
-/
structure Draft where
  scenario : Option String
  limit : Option UInt64
  output : Option String
  rate : Option FrameRate
  size : Option FrameSize
  audio : Option String
  isDryRun : Bool
  describes : Bool
  seed : Option UInt64
  transitions : Option TransitionPolicy
  config : Option String
  isVerbose : Bool
deriving Repr

namespace Draft

/- Nothing was given. -/
def empty : Draft where
  scenario := none
  limit := none
  output := none
  rate := none
  size := none
  audio := none
  isDryRun := false
  describes := false
  seed := none
  transitions := none
  config := none
  isVerbose := false

/- A value for what was not given yet. -/
def once
    {α : Type}
    (old new : Option α) : Option (Option α) :=
  match old, new with
  | none, some a => some (some a)
  | _, _ => none

/- A path is any text but the empty one. -/
def readPath? (s : String) : Option String :=
  if s.isEmpty then none else some s

/- Read a whole number of 64 bits. -/
def readWord? (s : String) : Option UInt64 :=
  (Numeral.readBelow? UInt64.size s.toList).map Nat.toUInt64

/- Give the path of the scenario. -/
def setScenario?
    (draft : Draft)
    (s : String) : Option Draft := do
  let scenario ← once draft.scenario (readPath? s)
  return { draft with scenario }

/- Give an option its value. -/
def setOption?
    (draft : Draft)
    (s : String) :
    OptionName → Option Draft
  | .limit => do
      let limit ← once draft.limit (readWord? s)
      return { draft with limit }
  | .output => do
      let output ← once draft.output (readPath? s)
      return { draft with output }
  | .rate => do
      let rate ← once draft.rate (FrameRate.read s).toOption
      return { draft with rate }
  | .size => do
      let size ← once draft.size (FrameSize.read s).toOption
      return { draft with size }
  | .audio => do
      let audio ← once draft.audio (readPath? s)
      return { draft with audio }
  | .seed => do
      let seed ← once draft.seed (readWord? s)
      return { draft with seed }
  | .transitions => do
      let transitions ← once draft.transitions
        (TransitionPolicy.read s).toOption
      return { draft with transitions }
  | .config => do
      let config ← once draft.config (readPath? s)
      return { draft with config }

/-
  Set a flag.  Asking for the version or for help ends the
  reading at once.
-/
def setFlag
    (draft : Draft) :
    FlagName → Except Invocation Draft
  | .version => .error .version
  | .help => .error .help
  | .dryRun =>
      if draft.isDryRun then .error .misuse
      else .ok { draft with isDryRun := true }
  | .describe =>
      if draft.describes then .error .misuse
      else .ok { draft with describes := true }
  | .verbose =>
      if draft.isVerbose then .error .misuse
      else .ok { draft with isVerbose := true }

/- Set the flags of short names in one argument. -/
def setFlags
    (draft : Draft) :
    List Char → Except Invocation Draft
  | [] => .ok draft
  | c :: rest =>
      match FlagName.ofShort? c with
      | none => .error .misuse
      | some flag => do
          let draft ← draft.setFlag flag
          draft.setFlags rest

/-
  The options with their defaults.  A scenario has to be
  named, and only a dry run can be described.
-/
def finish (draft : Draft) : Invocation :=
  match draft.scenario with
  | none => .misuse
  | some scenario =>
      if draft.describes && !draft.isDryRun then .misuse
      else
        .run {
          scenario
          limit := draft.limit.getD 12
          output := draft.output.getD "output_video.mp4"
          rate := draft.rate
          size := draft.size
          audio := draft.audio
          isDryRun := draft.isDryRun
          describes := draft.describes
          seed := draft.seed
          transitions := draft.transitions
          config := draft.config
          isVerbose := draft.isVerbose }

end Draft

------------------------------------------------------------
-- Arguments
------------------------------------------------------------

/- The kinds of arguments. -/
inductive Argument where
| separator
| long (name : String) (value : Option String)
| short (names : List Char)
| plain (s : String)
deriving DecidableEq, Repr

/-
  The kind of an argument.  A single hyphen is a plain text,
  and two alone end the options.
-/
def Argument.ofText (s : String) : Argument :=
  match s.toList with
  | ['-', '-'] => .separator
  | '-' :: '-' :: cs =>
      let text := String.ofList cs
      match Text.splitOnce '=' text with
      | some (name, value) => .long name (some value)
      | none => .long text none
  | ['-'] => .plain s
  | '-' :: cs => .short cs
  | _ => .plain s

/-
  An argument that was given: the options so far, and the
  option whose value has to come next, if there is one.
-/
abbrev Progress :=
  Draft × Option OptionName

namespace Draft

/- A draft that was changed, unless that was misuse. -/
def accept (draft? : Option Draft) :
    Except Invocation Progress :=
  match draft? with
  | some draft => .ok (draft, none)
  | none => .error .misuse

/- Give a long option, with its value or without it. -/
def takeLong
    (draft : Draft)
    (name : String)
    (value : Option String) :
    Except Invocation Progress :=
  match FlagName.ofLong? name, OptionName.ofLong? name,
      value with
  | some flag, _, none =>
      (draft.setFlag flag).map fun draft => (draft, none)
  | _, some key, some s => accept (draft.setOption? s key)
  | _, some key, none => .ok (draft, some key)
  | _, _, _ => .error .misuse

/-
  Take an argument in front of the end of the options.  The
  value of an option is a plain argument.
-/
def take
    (draft : Draft)
    (pending : Option OptionName)
    (arg : Argument) : Except Invocation Progress :=
  match pending, arg with
  | some key, .plain s => accept (draft.setOption? s key)
  | none, .plain s => accept (draft.setScenario? s)
  | none, .long name value => draft.takeLong name value
  | none, .short names =>
      (draft.setFlags names).map fun draft => (draft, none)
  | _, _ => .error .misuse

end Draft

namespace Invocation

/- Read arguments behind the end of the options. -/
def readPlain
    (draft : Draft) :
    List String → Invocation
  | [] => draft.finish
  | s :: rest =>
      match draft.setScenario? s with
      | some draft => readPlain draft rest
      | none => .misuse

/- Read arguments from the left, up to the first fault. -/
def readFrom
    (draft : Draft)
    (pending : Option OptionName) :
    List String → Invocation
  | [] => if pending.isNone then draft.finish else .misuse
  | s :: rest =>
      match pending, Argument.ofText s with
      | none, .separator => readPlain draft rest
      | _, arg =>
          match draft.take pending arg with
          | .ok (draft, pending) =>
              readFrom draft pending rest
          | .error result => result

/- Read the arguments of a command line. -/
def read (args : List String) : Invocation :=
  readFrom .empty none args

end Invocation

end Slideshow
