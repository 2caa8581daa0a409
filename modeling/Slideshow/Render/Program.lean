import Slideshow.Render.Atomic

/-
  This file defines the renderer that starts the program of
  a command, and the test whether that program is there.
  Whatever starts programs is given (`Launcher`).

  Key definitions include:
    * `Exit`
    * `Launcher`
    * `Launcher.renderer`
    * `Launcher.hasRenderer`
-/

namespace Slideshow

/-
  How a program ended: its exit code, unless a signal ended
  it, and what it wrote to its error stream.
-/
structure Exit where
  code : Option Nat
  errors : Bytes
deriving DecidableEq, Repr

/- The program has succeeded. -/
def Exit.isSuccess (e : Exit) : Bool :=
  e.code == some 0

/-
  What starts a program with arguments on files and waits
  for its end, or says why it cannot be started.
-/
abbrev Launcher :=
  String → List String → FileTree →
    Except SystemFault Exit × FileTree

namespace Launcher

/-
  Start the program of a command and wait for its end.  What
  it has written to its error stream becomes part of the
  error if it fails.
-/
def renderer
    {σ : Type}
    (launch : Launcher) : Renderer σ :=
  fun command s tree =>
    let (result, tree) :=
      launch command.program command.args tree
    match result with
    | .error cause =>
        ⟨.error (.system (.runProgram command.program)
          cause), s, tree⟩
    | .ok e =>
        if e.isSuccess then ⟨.ok (), s, tree⟩
        else
          let text := Text.trim (Utf8.decodeLossy e.errors)
          ⟨.error (.render (e.code.map Int.ofNat) text), s,
            tree⟩

/-
  The rendering program can be started and knows its own
  version.
-/
def hasRenderer
    (launch : Launcher)
    (tree : FileTree) : Bool :=
  match (launch rendererName ["-version"] tree).1 with
  | .ok e => e.isSuccess
  | .error _ => false

end Launcher

end Slideshow
