import Slideshow.Error
import Slideshow.Text.Basic

/-
  This file defines which frame rates and frame sizes are
  usable, how sizes are scaled, and how both are read from
  text.

  Key definitions include:
    * `FrameRate.checked`
    * `FrameRate.read`
    * `FrameSize.checked`
    * `FrameSize.scaled`
    * `FrameSize.read`
-/

namespace Slideshow

------------------------------------------------------------
-- Frame Rates
------------------------------------------------------------

namespace FrameRate

/- A rate whose parts are both positive. -/
def checked
    (num den : UInt32) :
    Except FrameFault FrameRate :=
  if den = 0 then .error .zeroDenominator
  else if num = 0 then .error .zeroNumerator
  else .ok ⟨num, den⟩

/- The two numerals of a written rate. -/
def readParts?
    (s : String) : Option (UInt32 × UInt32) :=
  match Text.splitOnce '/' s with
  | some (num, den) => do
      let num ← Numeral.readUInt32? (Text.trim num)
      let den ← Numeral.readUInt32? (Text.trim den)
      return (num, den)
  | none =>
      (Numeral.readUInt32? s).map fun num => (num, 1)

/-
  Read a whole rate or a fraction, with blanks around it and
  around each part.
-/
def read (s : String) : Except Error FrameRate :=
  let s := Text.trim s
  match readParts? s with
  | none => .error (.format (.frameRate s))
  | some (num, den) =>
      match checked num den with
      | .ok rate => .ok rate
      | .error _ => .error (.format (.frameRate s))

end FrameRate

------------------------------------------------------------
-- Frame Sizes
------------------------------------------------------------

namespace FrameSize

/- A size whose sides are both positive. -/
def checked
    (width height : UInt32) :
    Except FrameFault FrameSize :=
  if width = 0 ∨ height = 0 then .error .zeroSide
  else .ok ⟨width, height⟩

/- Multiply both sides, as far as they fit 32 bits. -/
def scaled
    (size : FrameSize)
    (factor : UInt32) :
    Except FrameFault FrameSize :=
  if size.width.toNat * factor.toNat < UInt32.size ∧
      size.height.toNat * factor.toNat < UInt32.size then
    checked (size.width * factor) (size.height * factor)
  else .error (.tooLarge size factor)

/- The two numerals of a written size. -/
def readParts?
    (s : String) : Option (UInt32 × UInt32) := do
  let (width, height) ← Text.splitOnce 'x' (Text.trim s)
  let width ← Numeral.readUInt32? width
  let height ← Numeral.readUInt32? height
  return (width, height)

/- Read a width and a height, with blanks around both. -/
def read (s : String) : Except Error FrameSize :=
  match readParts? s with
  | none => .error (.format (.frameSize s))
  | some (width, height) =>
      match checked width height with
      | .ok size => .ok size
      | .error _ => .error (.format (.frameSize s))

end FrameSize

end Slideshow
