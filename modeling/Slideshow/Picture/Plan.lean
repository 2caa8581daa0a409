import Slideshow.FileTree.Basic
import Slideshow.Picture.Request
import Slideshow.Picture.Selection

/-
  This file defines which pictures a scenario asks for, and
  where the pictures that a request refers to are found.

  Key definitions include:
    * `Reference.find?`
    * `Reference.findAll`
    * `PlannedImage`
    * `Scenario.plan`
-/

namespace Slideshow

------------------------------------------------------------
-- References
------------------------------------------------------------

namespace Reference

/- The endings that are tried behind the stem of a name. -/
def endings : List String :=
  ["jpg", "jpeg", "png", "webp"]

/- The paths at which a picture may be, the best first. -/
def candidates
    (directory name : String) : List String :=
  Path.join directory name ::
    match Path.fileStem? name with
    | none => []
    | some stem =>
        endings.map fun ending =>
          Path.join directory (stem ++ "." ++ ending)

/- The path of the picture of a name. -/
def find?
    (tree : FileTree)
    (directory name : String) : Option String :=
  (candidates directory name).find? tree.isFile

/- The names in a list between commas. -/
def names (s : String) : List String :=
  ((Text.split ',' s).map Text.trim).filter fun name =>
    !name.isEmpty

/- The paths of the pictures that are found, in order. -/
def findAll
    (tree : FileTree)
    (s directory : String) : List String :=
  (names s).filterMap (find? tree directory)

end Reference

------------------------------------------------------------
-- Plans
------------------------------------------------------------

/- A picture to be generated for a shot. -/
structure PlannedImage where
  shotId : String
  request : ImageRequest
  output : String
deriving DecidableEq, Repr

namespace Scenario

/- The directory of reference pictures below the root. -/
def picturesDirectory : String :=
  "pictures"

/- The picture that a record with a prompt asks for. -/
def planRecord
    (scenario : Scenario)
    (tree : FileTree)
    (aspect : AspectRatio)
    (model id : String)
    (record : ShotRecord) : Option PlannedImage :=
  record.imagePrompt.map fun prompt =>
    let directory :=
      Path.join scenario.root picturesDirectory
    let references :=
      match record.referenceImages with
      | some names => Reference.findAll tree names directory
      | none => []
    { shotId := id
      request :=
        ⟨Prompt.clean prompt, references, aspect, model⟩
      output := scenario.imagePath record id }

/- A shot takes part in a plan. -/
def isSelected
    (selection : Option Selection)
    (id : String) : Bool :=
  match selection with
  | none => true
  | some chosen => chosen.contains id

/-
  The pictures of all records with a prompt, or of those
  that are selected.  They go where the images of the shots
  are looked for.
-/
def plan
    (scenario : Scenario)
    (tree : FileTree)
    (selection : Option Selection)
    (aspect : AspectRatio)
    (model : String) : List PlannedImage :=
  scenario.records.zipIdx.filterMap fun (record, position) =>
    let id := record.shotId position
    if isSelected selection id then
      scenario.planRecord tree aspect model id record
    else none

end Scenario

end Slideshow
