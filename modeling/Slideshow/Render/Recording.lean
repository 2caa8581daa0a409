import Slideshow.Render.Atomic

/-
  This file defines a renderer for rehearsals.  It records
  every command and writes a placeholder where the film
  would go, or fails with a given exit code.

  Key definitions include:
    * `Recording`
    * `Recording.renderer`
-/

namespace Slideshow

/-
  The commands so far, in order, and the exit code with
  which every render fails, if there is one.
-/
structure Recording where
  commands : List Command
  failWith : Option Int
deriving Repr

namespace Recording

/- A recording with nothing on it. -/
def fresh (failWith : Option Int) : Recording :=
  ⟨[], failWith⟩

/- What stands in a placeholder. -/
def placeholder : Bytes :=
  Utf8.encode "rendered"

/- Write the placeholder at the last argument. -/
def writePlaceholder
    (command : Command) : FileM Error Unit :=
  match command.args.getLast? with
  | none => return ()
  | some output =>
      FileM.during (.writePlaceholder output)
        (FileM.writeFile output placeholder)

/- Record a command, then fail or write the placeholder. -/
def renderer : Renderer Recording :=
  fun command recording tree =>
    let recording :=
      { recording with
        commands := recording.commands ++ [command] }
    match recording.failWith with
    | some code =>
        ⟨.error (.render (some code)
          "simulated renderer failure"), recording, tree⟩
    | none =>
        .ofFiles (writePlaceholder command) recording tree

end Recording

end Slideshow
