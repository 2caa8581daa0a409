import Slideshow.Json.Document
import Slideshow.Motion.Path

/-
  This file defines the documents of expressions and of
  camera paths.

  Key definitions include:
    * `Expr.document`
    * `MotionPath.document`
-/

namespace Slideshow

open Json (Document)

/- The name of a variable in a document. -/
def Variable.name : Variable → String
  | .progress => "Progress"
  | .inputWidth => "InputWidth"
  | .inputHeight => "InputHeight"
  | .zoom => "Zoom"

/- The name of an operator in a document. -/
def Operator.name : Operator → String
  | .add => "Add"
  | .sub => "Sub"
  | .mul => "Mul"
  | .div => "Div"

/- The document of an expression. -/
def Expr.document : Expr Float → Document
  | .const c => .tagged "Const" (.real c)
  | .var v => .tagged "Var" (.text v.name)
  | .binary op left right =>
      .tagged "Binary" <| .record [
        ("op", .text op.name),
        ("left", left.document),
        ("right", right.document)]

/- The document of a camera path. -/
def MotionPath.document (path : MotionPath) : Document :=
  .record [
    ("effect", .text path.effect.name),
    ("total_frames", .natural path.totalFrames.toNat),
    ("zoom", path.camera.zoom.document),
    ("x", path.camera.x.document),
    ("y", path.camera.y.document)]

end Slideshow
