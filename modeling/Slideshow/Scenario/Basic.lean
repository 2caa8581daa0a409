import Slideshow.FileTree.Path
import Slideshow.Text.Numeral

/-
  This file defines the records of a scenario, the ids of
  their shots, and where their images are.

  Key definitions include:
    * `SceneId`
    * `ShotRecord`
    * `ShotRecord.shotId`
    * `Scenario`
    * `Scenario.imagePath`
-/

namespace Slideshow

------------------------------------------------------------
-- Shot Ids
------------------------------------------------------------

/- What a record calls its scene: a text or a number. -/
inductive SceneId where
| text (s : String)
| number (n : UInt64)
deriving DecidableEq, Repr

/- The name of a scene. -/
def SceneId.name : SceneId → String
  | .text s => Text.trim s
  | .number n => Numeral.write n.toNat

/- The id of a scene: its name, of two characters at least. -/
def padId (name : String) : String :=
  Text.padStart 2 '0' name

------------------------------------------------------------
-- Records
------------------------------------------------------------

/- One shot as the scenario declares it. -/
structure ShotRecord where
  scene : Option SceneId
  timing : Option String
  image : Option String
  motion : Option String
  imagePrompt : Option String
  referenceImages : Option String
deriving DecidableEq, Repr

namespace ShotRecord

/- The name of the scene; the position if none is given. -/
def sceneName
    (record : ShotRecord)
    (position : Nat) : String :=
  match record.scene with
  | some scene => scene.name
  | none => Numeral.write (position + 1)

/- The id of the shot at a position, counted from zero. -/
def shotId
    (record : ShotRecord)
    (position : Nat) : String :=
  padId (record.sceneName position)

end ShotRecord

------------------------------------------------------------
-- Scenarios
------------------------------------------------------------

/-
  The records of a film and the directory to which their
  paths refer.
-/
structure Scenario where
  root : String
  records : List ShotRecord
deriving DecidableEq, Repr

namespace Scenario

/- The directory of generated images below the root. -/
def generationsDirectory : String :=
  "generations"

/-
  The path of the image of a shot: the one that its record
  gives, or else that of the image generated for its id.
-/
def imagePath
    (scenario : Scenario)
    (record : ShotRecord)
    (id : String) : String :=
  match record.image with
  | some path => Path.join scenario.root path
  | none =>
      Path.join
        (Path.join scenario.root generationsDirectory)
        ("shot_" ++ id ++ ".png")

end Scenario

end Slideshow
