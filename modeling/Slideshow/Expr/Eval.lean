import Slideshow.Error

/-
  This file defines the value of an expression.

  Key definitions include:
    * `Env`
    * `Operator.apply`
    * `Expr.eval`
-/

namespace Slideshow

/-
  What the variables stand for.  The zoom is not bound while
  the zoom itself is computed.
-/
structure Env (ν : Type) where
  progress : ν
  inputWidth : ν
  inputHeight : ν
  zoom : Option ν

namespace Env

/- The value of a variable, if it is bound. -/
def lookup?
    {ν : Type}
    (env : Env ν) :
    Variable → Option ν
  | .progress => some env.progress
  | .inputWidth => some env.inputWidth
  | .inputHeight => some env.inputHeight
  | .zoom => env.zoom

end Env

/- The operation of an operator. -/
def Operator.apply
    {ν : Type}
    [Add ν] [Sub ν] [Mul ν] [Div ν]
    (op : Operator)
    (a b : ν) : ν :=
  match op with
  | .add => a + b
  | .sub => a - b
  | .mul => a * b
  | .div => a / b

namespace Expr

/- A value that is a finite number. -/
def finite
    (env : Env Float)
    (x : Float) : Except ExprFault Float :=
  if x.isFinite then .ok x
  else .error (.notFinite env.progress)

/-
  The value of an expression.  Every value on the way has to
  be finite.
-/
def eval
    (env : Env Float) :
    Expr Float → Except ExprFault Float
  | .const c => finite env c
  | .var v =>
      match env.lookup? v with
      | some x => finite env x
      | none => .error .unboundZoom
  | .binary op left right => do
      let a ← left.eval env
      let b ← right.eval env
      finite env (op.apply a b)

end Expr

end Slideshow
