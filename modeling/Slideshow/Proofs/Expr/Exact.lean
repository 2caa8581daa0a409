import Mathlib.Algebra.Field.Rat
import Slideshow.Expr.Eval
import Slideshow.Proofs.Decimal.Exact

/-
  This file defines the value of an expression over exact
  fractions: constants have their exact values, nothing is
  rounded, and a division by zero has no value.

  The laws say what the operations do to expressions that
  have values, so that the value of a formula is found
  without looking into the evaluation.

  Key definitions include:
    * `Operator.exactValue?`
    * `Expr.exactValue?`

  Main results include:
    * `Expr.exactValue?_add`
    * `Expr.exactValue?_sub`
    * `Expr.exactValue?_mul`
    * `Expr.exactValue?_div`
-/

namespace Slideshow

/- The exact result of an operation, if there is one. -/
def Operator.exactValue?
    (op : Operator)
    (x y : ℚ) : Option ℚ :=
  if op = .div ∧ y = 0 then none
  else some (op.apply x y)

namespace Expr

/- The exact value of an expression, if it has one. -/
def exactValue?
    (env : Env ℚ) :
    Expr Float → Option ℚ
  | .const c => Binary.exactValue? c
  | .var v => env.lookup? v
  | .binary op left right => do
      let x ← left.exactValue? env
      let y ← right.exactValue? env
      op.exactValue? x y

------------------------------------------------------------
-- Operations
------------------------------------------------------------

variable {env : Env ℚ}
variable {a b : Expr Float}
variable {x y : ℚ}

theorem exactValue?_binary
    {op : Operator}
    (hLeft : a.exactValue? env = some x)
    (hRight : b.exactValue? env = some y) :
    (binary op a b).exactValue? env = op.exactValue? x y := by
  rw [exactValue?, hLeft, hRight]
  rfl

/- A sum of expressions that have values. -/
theorem exactValue?_add
    (hLeft : a.exactValue? env = some x)
    (hRight : b.exactValue? env = some y) :
    (a + b).exactValue? env = some (x + y) :=
  exactValue?_binary hLeft hRight

/- A difference of expressions that have values. -/
theorem exactValue?_sub
    (hLeft : a.exactValue? env = some x)
    (hRight : b.exactValue? env = some y) :
    (a - b).exactValue? env = some (x - y) :=
  exactValue?_binary hLeft hRight

/- A product of expressions that have values. -/
theorem exactValue?_mul
    (hLeft : a.exactValue? env = some x)
    (hRight : b.exactValue? env = some y) :
    (a * b).exactValue? env = some (x * y) :=
  exactValue?_binary hLeft hRight

/- A quotient by an expression whose value is not zero. -/
theorem exactValue?_div
    (hLeft : a.exactValue? env = some x)
    (hRight : b.exactValue? env = some y)
    (hNonzero : y ≠ 0) :
    (a / b).exactValue? env = some (x / y) := by
  have hDefined :
      Operator.div.exactValue? x y = some (x / y) := by
    simp [Operator.exactValue?, Operator.apply, hNonzero]
  rw [← hDefined]
  exact exactValue?_binary hLeft hRight

end Expr

end Slideshow
