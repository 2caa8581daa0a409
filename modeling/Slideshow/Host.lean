import Slideshow.Render.Program
import Slideshow.Shell.Quote
import Slideshow.Shell.Run

/-
  This file defines the programs that are installed on a
  host, and how they are found and started.  A host is one
  way to start programs: its programs are scripts, which an
  interpreter runs on the files.

  Key definitions include:
    * `Host`
    * `Host.run`
    * `Host.launcher`
-/

namespace Slideshow

/- Run the text of a script. -/
def Shell.runText
    (name text : String)
    (args : List String)
    (hasTools : Bool)
    (tree : FileTree) : Exit × FileTree :=
  match Script.read? text.toList with
  | none =>
      (⟨some 2,
        Utf8.encode (name ++ ": 1: Syntax error\n")⟩, tree)
  | some script =>
      let start : State :=
        ⟨name, args, hasTools, [], 0, [], tree⟩
      let (result, state) := script.run.run.run start
      let code :=
        match result with
        | .ok status => some status
        | .error (.exited code) => some code
        | .error .killed => none
      (⟨code, state.errors⟩, state.tree)

/-
  What is installed: scripts under their names, and whether
  the shell and the common tools are.
-/
structure Host where
  scripts : List (String × String)
  hasTools : Bool
deriving DecidableEq, Repr

namespace Host

/- A host on which nothing is installed. -/
def bare : Host :=
  ⟨[], false⟩

/- A host with the shell and the common tools alone. -/
def common : Host :=
  ⟨[], true⟩

/- The shells that the first line of a script may name. -/
def shells : List String :=
  ["/bin/sh", "/usr/bin/sh", "/bin/dash", "/bin/bash",
    "/usr/bin/bash"]

/- The interpreter that the first line of a script names. -/
def interpreter? (text : String) : Option String :=
  match text.toList with
  | '#' :: '!' :: rest =>
      let line := rest.takeWhile (· != '\n')
      ((Chars.words line).head?).map String.ofList
  | _ => none

/- Start the text of a script as a program. -/
def runScript
    (host : Host)
    (name text : String)
    (args : List String)
    (tree : FileTree) :
    Except SystemFault Exit × FileTree :=
  match interpreter? text with
  | none => (.error .notProgram, tree)
  | some interpreter =>
      if shells.contains interpreter then
        let (e, tree) :=
          Shell.runText name text args host.hasTools tree
        (.ok e, tree)
      else (.error .notFound, tree)

/- Start the shell with its own arguments. -/
def runShell
    (host : Host)
    (args : List String)
    (tree : FileTree) : Exit × FileTree :=
  match args with
  | "-c" :: text :: name :: rest =>
      Shell.runText name text rest host.hasTools tree
  | ["-c", text] =>
      Shell.runText "sh" text [] host.hasTools tree
  | path :: rest =>
      match tree.readText path with
      | .ok text =>
          Shell.runText path text rest host.hasTools tree
      | .error _ =>
          (⟨some 2, Utf8.encode
            ("sh: 0: cannot open " ++ path ++
              ": No such file\n")⟩, tree)
  | [] => (⟨some 0, []⟩, tree)

/- The tools that can be started as programs. -/
def tools : List String :=
  ["true", "false", "echo", "printf", "test", "[", "cat",
    "kill", "sleep"]

/- Start a program that is given by a path. -/
def runPath
    (path : String)
    (tree : FileTree) : SystemFault :=
  match tree.find path with
  | .ok _ => .accessDenied
  | .error fault => fault

/- Start a program with arguments. -/
def run
    (host : Host)
    (program : String)
    (args : List String)
    (tree : FileTree) :
    Except SystemFault Exit × FileTree :=
  match host.scripts.lookup program with
  | some text => host.runScript program text args tree
  | none =>
      if program.toList.contains '\x00' then
        (.error .nulInName, tree)
      else if program.toList.contains '/' then
        if host.hasTools ∧ Host.shells.contains program then
          let (e, tree) := host.runShell args tree
          (.ok e, tree)
        else (.error (runPath program tree), tree)
      else if host.hasTools ∧ program = "sh" then
        let (e, tree) := host.runShell args tree
        (.ok e, tree)
      else if host.hasTools ∧ tools.contains program then
        let line := Shell.line (program :: args)
        let (e, tree) :=
          Shell.runText program line [] true tree
        (.ok e, tree)
      else (.error .notFound, tree)

/- Start programs on a host. -/
def launcher (host : Host) : Launcher :=
  host.run

end Host

end Slideshow
