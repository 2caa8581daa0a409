import Slideshow.Decimal.Layout

/-
  This file defines the closed-form expressions that a
  camera move is made of.  They are built over any kind of
  number, so that the same move can be computed with doubles
  and with exact fractions.

  Key definitions include:
    * `Variable`
    * `Operator`
    * `Expr`
    * `Expr.references`
    * `ExprFault`
-/

namespace Slideshow

------------------------------------------------------------
-- Expressions
------------------------------------------------------------

/-
  What an expression may refer to: the progress through the
  clip, the size of the source frame, and the zoom factor of
  the current frame.
-/
inductive Variable where
| progress
| inputWidth
| inputHeight
| zoom
deriving DecidableEq, Repr

/- The four operations. -/
inductive Operator where
| add
| sub
| mul
| div
deriving DecidableEq, Repr

/- An expression with constants in `ν`. -/
inductive Expr (ν : Type) where
| const (value : ν)
| var (v : Variable)
| binary (op : Operator) (left right : Expr ν)
deriving Repr

namespace Expr

variable {ν : Type}

instance : Add (Expr ν) := ⟨binary .add⟩

instance : Sub (Expr ν) := ⟨binary .sub⟩

instance : Mul (Expr ν) := ⟨binary .mul⟩

instance : Div (Expr ν) := ⟨binary .div⟩

/- A variable occurs in an expression. -/
def references
    (v : Variable) :
    Expr ν → Bool
  | const _ => false
  | var w => w == v
  | binary _ left right =>
      left.references v || right.references v

end Expr

------------------------------------------------------------
-- Faults
------------------------------------------------------------

/- Why an expression has no value. -/
inductive ExprFault where
| unboundZoom
| notFinite (progress : Float)

/- A fault in words. -/
def ExprFault.text : ExprFault → String
  | .unboundZoom => "expression references unbound zoom"
  | .notFinite progress =>
      "expression evaluated to non-finite value " ++
        "at progress " ++ Decimal.plain progress

end Slideshow
