import Slideshow.Error
import Slideshow.Random.Source
import Slideshow.Text.Basic

/-
  This file defines how transition styles and policies are
  read, which policies are usable, and how a policy picks
  the style of a boundary.

  Key definitions include:
    * `TransitionStyle.read`
    * `TransitionPolicy.read`
    * `TransitionPolicy.validate`
    * `TransitionPolicy.pick`
-/

namespace Slideshow

------------------------------------------------------------
-- Styles
------------------------------------------------------------

namespace TransitionStyle

/-
  The style that a name in lower case without hyphens and
  underscores stands for.
-/
def ofAlias? (s : String) : Option TransitionStyle :=
  if s = "fade" ∨ s = "crossfade" ∨ s = "dissolve" then
    some .fade
  else if s = "slideleft" then some .slideLeft
  else if s = "slideright" then some .slideRight
  else if s = "wipeleft" then some .wipeLeft
  else if s = "wiperight" then some .wipeRight
  else none

/-
  Read a style.  Case, blanks around it, hyphens and
  underscores do not matter.
-/
def read
    (s : String) :
    Except TransitionFault TransitionStyle :=
  let name :=
    Text.without ['-', '_'] (Text.lower (Text.trim s))
  if name.isEmpty then .error .unnamed
  else
    match ofAlias? name with
    | some style => .ok style
    | none => .error (.unknown name)

/- The style with a given name in a document. -/
def ofName? (s : String) : Option TransitionStyle :=
  all.find? fun style => style.name == s

/- The style with a given name in a filter. -/
def ofFilterName? (s : String) : Option TransitionStyle :=
  all.find? fun style => style.filterName == s

end TransitionStyle

------------------------------------------------------------
-- Policies
------------------------------------------------------------

namespace TransitionPolicy

/-
  Read a policy: the blur-dissolve, any style at random, or
  a list of styles between commas.
-/
def read
    (s : String) :
    Except TransitionFault TransitionPolicy :=
  let name := Text.lower (Text.trim s)
  if name = "blur" ∨ name = "blur_dissolve" ∨
      name = "blur-dissolve" then
    .ok .blurDissolve
  else if name = "random" then
    .ok (.random TransitionStyle.all)
  else do
    let styles ←
      (Text.split ',' name).mapM TransitionStyle.read
    return .random styles

/- A random policy has styles to choose from. -/
def validate :
    TransitionPolicy → Except TransitionFault Unit
  | .random [] => .error .noStyles
  | _ => .ok ()

/-
  Pick the style of one boundary.  The blur-dissolve draws
  no words.
-/
def pick
    {σ : Type}
    [WordSource σ]
    (policy : TransitionPolicy)
    (s : σ) :
    Except TransitionFault (TransitionStyle × σ) :=
  match policy with
  | .blurDissolve => .ok (.fade, s)
  | .random styles =>
      match WordSource.choose styles s with
      | (some style, s) => .ok (style, s)
      | (none, _) => .error .noStyles

end TransitionPolicy

end Slideshow
