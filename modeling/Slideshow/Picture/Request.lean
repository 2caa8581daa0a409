import Slideshow.Error
import Slideshow.Text.Basic

/-
  This file defines the requests for generated pictures: the
  shape of the picture and the text that asks for it.

  Key definitions include:
    * `AspectRatio`
    * `AspectRatio.read`
    * `Prompt.clean`
    * `ImageRequest`
-/

namespace Slideshow

------------------------------------------------------------
-- Shapes
------------------------------------------------------------

/- The shapes that a picture can be asked for in. -/
inductive AspectRatio where
| square
| landscape
| standard
| portrait
| portraitStandard
deriving DecidableEq, Repr

namespace AspectRatio

/- All shapes. -/
def all : List AspectRatio :=
  [.square, .landscape, .standard, .portrait,
    .portraitStandard]

/- Width and height in proportion. -/
def text : AspectRatio → String
  | .square => "1:1"
  | .landscape => "16:9"
  | .standard => "4:3"
  | .portrait => "9:16"
  | .portraitStandard => "3:4"

/- Read a shape, with blanks around it. -/
def read (s : String) : Except FormatFault AspectRatio :=
  let s := Text.trim s
  match all.find? fun ratio => ratio.text == s with
  | some ratio => .ok ratio
  | none => .error (.aspect s)

end AspectRatio

------------------------------------------------------------
-- Prompts
------------------------------------------------------------

/-
  Drop the marks of bold text, and put line breaks in the
  place of their tags.
-/
def Prompt.clean (s : String) : String :=
  Text.replaceText "<br>" "\n" (Text.replaceText "**" "" s)

/- A request for a picture. -/
structure ImageRequest where
  prompt : String
  references : List String
  aspect : AspectRatio
  model : String
deriving DecidableEq, Repr

/- The model that is asked if none is named. -/
def ImageRequest.standardModel : String :=
  "gemini-3-pro-image-preview"

end Slideshow
