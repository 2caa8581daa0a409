import Slideshow.Expr.Basic

/-
  This file defines the filter text of an expression: infix,
  with parentheses only where the usual precedence of the
  operators would read the text otherwise.

  Key definitions include:
    * `Operator.precedence`
    * `Expr.needsParens`
    * `Expr.chars`
    * `Expr.lower`
-/

namespace Slideshow

namespace Operator

/- How tightly an operator binds. -/
def precedence : Operator → Nat
  | .add | .sub => 1
  | .mul | .div => 2

/- The sign of an operator. -/
def symbol : Operator → Char
  | .add => '+'
  | .sub => '-'
  | .mul => '*'
  | .div => '/'

end Operator

/- Which operand of an operation an expression is. -/
inductive Side where
| left
| right
deriving DecidableEq, Repr

namespace Expr

/-
  An operand stands in parentheses when it binds less
  tightly than the operation around it, and on the right
  also when it binds equally, since operations of equal
  precedence are read from the left.
-/
def needsParens
    {ν : Type}
    (outer : Operator)
    (side : Side) :
    Expr ν → Bool
  | .binary op _ _ =>
      op.precedence < outer.precedence ||
        (side == .right &&
          op.precedence == outer.precedence)
  | _ => false

/- Put parentheses around a text, or not. -/
def parenthesize
    (needed : Bool)
    (cs : List Char) : List Char :=
  if needed then '(' :: (cs ++ [')']) else cs

/- The text of a constant; negative ones are enclosed. -/
def constantChars (c : Float) : List Char :=
  parenthesize (c < 0.0) (Decimal.plain c).toList

/-
  The text of a variable.  Progress is the number of the
  frame over the number of frames.
-/
def variableChars
    (frames : UInt64) :
    Variable → List Char
  | .progress =>
      "(on/".toList ++
        (Numeral.write frames.toNat).toList ++ [')']
  | .inputWidth => ['i', 'w']
  | .inputHeight => ['i', 'h']
  | .zoom => ['z', 'o', 'o', 'm']

/- The text of an expression in a clip of `frames` frames. -/
def chars
    (frames : UInt64) :
    Expr Float → List Char
  | .const c => constantChars c
  | .var v => variableChars frames v
  | .binary op left right =>
      parenthesize (needsParens op .left left)
          (chars frames left) ++
        op.symbol ::
          parenthesize (needsParens op .right right)
            (chars frames right)

/- The filter text of an expression. -/
def lower
    (frames : UInt64)
    (e : Expr Float) : String :=
  String.ofList (chars frames e)

end Expr

end Slideshow
