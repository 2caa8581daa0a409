import Slideshow.FileTree.Change
import Slideshow.Shell.State
import Slideshow.Shell.Tool

/-
  This file defines how shell scripts run on a file tree.

  Key definitions include:
    * `Shell.ShellM`
    * `Shell.Streams`
    * `Shell.SimpleCommand.run`
    * `Shell.Script.run`
-/

namespace Slideshow

namespace Shell

------------------------------------------------------------
-- Steps
------------------------------------------------------------

/- How a script ends before its end. -/
inductive Ending where
| exited (code : Nat)
| killed
deriving DecidableEq, Repr

/- A step of a script. -/
abbrev ShellM :=
  ExceptT Ending (StateM State)

/- Where a stream of bytes goes. -/
inductive Sink where
| nowhere
| errors
| file (path : String)
deriving DecidableEq, Repr

/- Change the files, and say whether that succeeded. -/
def onFiles
    (run : FileM SystemFault Unit) :
    ShellM (Except SystemFault Unit) := do
  let state ← get
  let (result, tree) := run.run state.tree
  set { state with tree }
  return result

/- Write bytes where a stream goes. -/
def emit
    (sink : Sink)
    (bytes : Bytes) : ShellM Unit := do
  match sink with
  | .nowhere => return ()
  | .errors =>
      modify fun state =>
        { state with errors := state.errors ++ bytes }
  | .file path =>
      let state ← get
      match state.tree.read path with
      | .ok content =>
          let _ ← onFiles
            (FileM.writeFile path (content ++ bytes))
      | .error _ => return ()

/- Write a message of the shell itself. -/
def complain
    (sink : Sink)
    (message : String) : ShellM Unit := do
  let state ← get
  emit sink <| Utf8.encode <|
    state.name ++ ": 1: " ++ message ++ "\n"

------------------------------------------------------------
-- Redirections
------------------------------------------------------------

/- Where the streams of a command go, and what it reads. -/
structure Streams where
  input : Bytes
  output : Sink
  errors : Sink

/- The streams of a command without redirections. -/
def Streams.standard : Streams :=
  ⟨[], .nowhere, .errors⟩

/- Let a stream go elsewhere. -/
def Streams.set
    (streams : Streams)
    (stream : Nat)
    (sink : Sink) : Streams :=
  if stream = 1 then { streams with output := sink }
  else if stream = 2 then { streams with errors := sink }
  else streams

/- Why a file cannot be written, in the shell's words. -/
def openFailure : SystemFault → String
  | .isDirectory => "Is a directory"
  | .accessDenied => "Permission denied"
  | .nameTooLong => "File name too long"
  | _ => "Directory nonexistent"

/- Open the target of a redirection, or say why not. -/
def redirect
    (streams : Streams)
    (r : Redirect) : ShellM (Except String Streams) := do
  let state ← get
  let target := state.text r.target
  match r.kind with
  | .copy =>
      if target = "1" then
        return .ok (streams.set r.stream streams.output)
      else if target = "2" then
        return .ok (streams.set r.stream streams.errors)
      else return .ok (streams.set r.stream .nowhere)
  | .read =>
      match state.tree.read target with
      | .ok input => return .ok { streams with input }
      | .error _ =>
          return .error
            ("cannot open " ++ target ++ ": No such file")
  | .append =>
      if state.tree.isFile target then
        return .ok (streams.set r.stream (.file target))
      else openFresh target
  | .write => openFresh target
where
  openFresh
      (target : String) :
      ShellM (Except String Streams) := do
    if target = "/dev/null" then
      return .ok (streams.set r.stream .nowhere)
    match ← onFiles (FileM.writeFile target []) with
    | .ok () =>
        return .ok (streams.set r.stream (.file target))
    | .error fault =>
        return .error
          ("cannot create " ++ target ++ ": " ++
            openFailure fault)

/- Open the targets of redirections in order. -/
def redirectAll
    (streams : Streams) :
    List Redirect → ShellM (Except String Streams)
  | [] => return .ok streams
  | r :: rest => do
      match ← redirect streams r with
      | .ok streams => redirectAll streams rest
      | .error message => return .error message

------------------------------------------------------------
-- Commands
------------------------------------------------------------

/- Signals that do not end a process. -/
def harmlessSignals : List String :=
  ["0", "17", "18", "23", "28", "CHLD", "CONT", "URG",
    "WINCH"]

/- Send a signal to the process with a number. -/
def kill (args : List String) : ShellM Nat := do
  let (signal, target) :=
    match args with
    | ["-s", signal, target] => (signal, target)
    | [signal, target] =>
        (String.ofList (signal.toList.drop 1), target)
    | [target] => ("TERM", target)
    | _ => ("0", "")
  if target ≠ processId then return 1
  else if harmlessSignals.contains signal then return 0
  else throw .killed

/- The bytes of files, or of the input if none are named. -/
def concatenate
    (streams : Streams)
    (args : List String) : ShellM Nat := do
  if args.isEmpty then
    emit streams.output streams.input
    return 0
  let mut status := 0
  for path in args do
    let state ← get
    match state.tree.read path with
    | .ok content => emit streams.output content
    | .error fault =>
        status := 1
        let reason :=
          if fault = .isDirectory then "Is a directory"
          else if fault = .notDirectory then
            "Not a directory"
          else "No such file or directory"
        emit streams.errors <| Utf8.encode <|
          "cat: " ++ path ++ ": " ++ reason ++ "\n"
  return status

/- Exit with a code, that of the last command by default. -/
def exit
    (streams : Streams)
    (args : List String) : ShellM Nat := do
  match args with
  | [] => throw (.exited (← get).status)
  | code :: _ =>
      match Numeral.value? code.toList with
      | some n => throw (.exited (n % 256))
      | none =>
          complain streams.errors
            ("exit: Illegal number: " ++ code)
          throw (.exited 2)

/- Run a command with its arguments. -/
def runCommand
    (streams : Streams)
    (command : String)
    (args : List String) : ShellM Nat := do
  match command with
  | ":" => return 0
  | "true" => return 0
  | "false" => return 1
  | "echo" => emit streams.output (echo args); return 0
  | "printf" => emit streams.output (printf args); return 0
  | "test" => return test (← get).tree args
  | "[" =>
      if args.getLast? = some "]" then
        return test (← get).tree args.dropLast
      else return 2
  | "exit" => exit streams args
  | "kill" => kill args
  | "read" => return 1
  | "shift" =>
      modify fun state =>
        { state with args := state.args.tail }
      return 0
  | _ =>
      if command = "cat" ∧ (← get).hasTools then
        concatenate streams args
      else if command = "sleep" ∧ (← get).hasTools then
        return 0
      else
        complain streams.errors (command ++ ": not found")
        return 127

/- Give a variable its value. -/
def assign
    (assignment : String × Word) : ShellM Unit :=
  modify fun state =>
    { state with
      bindings :=
        (assignment.1, state.text assignment.2) ::
          state.bindings }

/- Run a simple command. -/
def SimpleCommand.run
    (command : SimpleCommand) : ShellM Nat := do
  let state ← get
  let words := command.words.flatMap state.fields
  match ← redirectAll .standard command.redirects with
  | .error message =>
      complain .errors message
      return 2
  | .ok streams =>
      command.assignments.forM assign
      match words with
      | [] => return 0
      | name :: args => runCommand streams name args

------------------------------------------------------------
-- Scripts
------------------------------------------------------------

/- Keep the exit code of a command for what follows. -/
def keepStatus (run : ShellM Nat) : ShellM Nat := do
  let status ← run
  modify fun state => { state with status }
  return status

/- How often the body of a loop is run at most. -/
def loopLimit : Nat :=
  100000

/-
  Run a loop while its condition succeeds.  The result is
  the exit code of the last pass.
-/
def runLoop
    (fuel : Nat)
    (cond body : ShellM Nat)
    (last : Nat) : ShellM Nat :=
  match fuel with
  | 0 => return last
  | fuel + 1 => do
      let status ← cond
      if status = 0 then
        let last ← body
        runLoop fuel cond body last
      else
        modify fun state => { state with status := last }
        return last

/- Run a script; its result is its last exit code. -/
def Script.run : Script → ShellM Nat
  | .nothing => return (← get).status
  | .simple command => keepStatus command.run
  | .sequence first second => do
      let _ ← first.run
      second.run
  | .both first second => do
      let status ← first.run
      if status = 0 then second.run else return status
  | .either first second => do
      let status ← first.run
      if status = 0 then return 0 else second.run
  | .negated body => keepStatus do
      let status ← body.run
      return if status = 0 then 1 else 0
  | .forEach name values body => do
      let state ← get
      modify fun state => { state with status := 0 }
      let mut status := 0
      for value in values.flatMap state.fields do
        modify fun state =>
          { state with
            bindings := (name, value) :: state.bindings }
        status ← body.run
      return status
  | .loop cond body => runLoop loopLimit cond.run body.run 0
  | .branch cond yes no => do
      let status ← cond.run
      modify fun state => { state with status := 0 }
      if status = 0 then yes.run else no.run

end Shell

end Slideshow
