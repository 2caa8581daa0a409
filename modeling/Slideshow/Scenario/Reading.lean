import Slideshow.FileTree.Basic
import Slideshow.Json.Decoder
import Slideshow.Scenario.Basic

/-
  This file defines how scenarios are read from JSON text
  and from files.

  Key definitions include:
    * `ShotRecord.decode?`
    * `Scenario.read`
    * `Scenario.load`
-/

namespace Slideshow

open Json (Value Decoder)

------------------------------------------------------------
-- Records
------------------------------------------------------------

/- A scene, given by a text or by a whole number. -/
def SceneId.decode? : Decoder SceneId
  | .text t => t.whole?.map SceneId.text
  | .number n => n.toWord?.map SceneId.number
  | _ => none

namespace ShotRecord

/- The keys of a record. -/
def keys : List String :=
  ["scene", "timing", "image", "motion", "image_prompt",
    "reference_images"]

/-
  The values of the keys, null where there is none.  Of a
  repeated key the last value counts.
-/
def parts? : Decoder (List Value)
  | .record fields =>
      some (keys.map fun key =>
        (Value.lastField? key fields).getD .null)
  | .list items =>
      if items.length ≤ keys.length then
        some (items ++
          List.replicate (keys.length - items.length) .null)
      else none
  | _ => none

/- A value that may be null. -/
def nullable
    {α : Type}
    (decode : Decoder α) : Decoder (Option α)
  | .null => some none
  | v => (decode v).map some

/- A record, each of whose fields may be left out. -/
def decode? : Decoder ShotRecord := fun v => do
  let [scene, timing, image, motion, prompt, references] ←
    parts? v | none
  return {
    scene := ← nullable SceneId.decode? scene
    timing := ← nullable .text timing
    image := ← nullable .text image
    motion := ← nullable .text motion
    imagePrompt := ← nullable .text prompt
    referenceImages := ← nullable .text references }

end ShotRecord

------------------------------------------------------------
-- Scenarios
------------------------------------------------------------

namespace Scenario

/- How deeply the values of a scenario may be nested. -/
def nestingLimit : Nat := 127

/- Read the scenario of a JSON text. -/
def read
    (root s : String) : Except Error Scenario :=
  match Json.read? s with
  | none => .error (.document .scenario)
  | some v =>
      if !v.isSound nestingLimit then
        .error (.document .scenario)
      else
        match v with
        | .list items =>
            match items.mapM ShotRecord.decode? with
            | some records => .ok ⟨root, records⟩
            | none => .error (.document .shotRecord)
        | _ => .error (.validation .scenarioNotList)

/-
  Read a scenario file.  Its paths refer to the directory in
  which the file lies.
-/
def load
    (tree : FileTree)
    (path : String) : Except Error Scenario := do
  if !tree.pathExists path then
    .error (.missing (.scenario path))
  let text ← (tree.readText path).mapError
    (.system (.readScenario path))
  read ((Path.parent? path).getD ".") text

end Scenario

end Slideshow
