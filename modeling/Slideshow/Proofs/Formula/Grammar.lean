import Slideshow.Expr.Basic

/-
  This file defines the infix grammar of filter formulas, as
  rules and as a reader.

  A formula is a sum of products of factors.  The rules are
  left-recursive, so that operators of a level are read from
  the left.  The reader is not: it reads the first operand
  of a level and goes on while operators of the level
  follow.

  Key definitions include:
    * `Formula`
    * `Formula.Reads`
    * `Formula.read?`
-/

namespace Slideshow

------------------------------------------------------------
-- Formulas
------------------------------------------------------------

/- What the filter knows: two lengths, the zoom, a frame. -/
inductive FilterName where
| width
| height
| zoom
| frame
deriving DecidableEq, Repr

/- The text of a name. -/
def FilterName.chars : FilterName → List Char
  | .width => ['i', 'w']
  | .height => ['i', 'h']
  | .zoom => ['z', 'o', 'o', 'm']
  | .frame => ['o', 'n']

/- A formula as the filter understands it. -/
inductive Formula where
| name (n : FilterName)
| literal (text : List Char)
| binary (op : Operator) (left right : Formula)
deriving DecidableEq, Repr

namespace Formula

------------------------------------------------------------
-- The Rules
------------------------------------------------------------

/- Digits, at least one. -/
structure IsDigits (cs : List Char) : Prop where
  nonempty : cs ≠ []
  digits : ∀ c ∈ cs, c.isDigit = true

/- A decimal without a sign. -/
inductive IsMagnitude : List Char → Prop where
| whole
    {cs : List Char}
    (hWhole : IsDigits cs) :
    IsMagnitude cs
| fraction
    {cs ds : List Char}
    (hWhole : IsDigits cs)
    (hFraction : IsDigits ds) :
    IsMagnitude (cs ++ '.' :: ds)

/- A decimal, with a minus in front or not. -/
inductive IsLiteral : List Char → Prop where
| plain
    {cs : List Char}
    (hMagnitude : IsMagnitude cs) :
    IsLiteral cs
| negative
    {cs : List Char}
    (hMagnitude : IsMagnitude cs) :
    IsLiteral ('-' :: cs)

/- The operators between the products of a sum. -/
def sumOperator? : Char → Option Operator
  | '+' => some .add
  | '-' => some .sub
  | _ => none

/- The operators between the factors of a product. -/
def productOperator? : Char → Option Operator
  | '*' => some .mul
  | '/' => some .div
  | _ => none

/- The levels of the grammar, the loosest first. -/
inductive Level where
| sum
| product
| factor
deriving DecidableEq, Repr

/-
  A text reads as a formula at a level.  Operators of a
  level are read from the left, and parentheses make a sum a
  factor.
-/
inductive Reads :
    Level → List Char → Formula → Prop where
| name
    (n : FilterName) :
    Reads .factor n.chars (.name n)
| literal
    {cs : List Char}
    (hLiteral : IsLiteral cs) :
    Reads .factor cs (.literal cs)
| parens
    {cs : List Char}
    {t : Formula}
    (hSum : Reads .sum cs t) :
    Reads .factor ('(' :: (cs ++ [')'])) t
| ofFactor
    {cs : List Char}
    {t : Formula}
    (hFactor : Reads .factor cs t) :
    Reads .product cs t
| times
    {cs ds : List Char}
    {c : Char}
    {op : Operator}
    {a b : Formula}
    (hOperator : productOperator? c = some op)
    (hLeft : Reads .product cs a)
    (hRight : Reads .factor ds b) :
    Reads .product (cs ++ c :: ds) (.binary op a b)
| ofProduct
    {cs : List Char}
    {t : Formula}
    (hProduct : Reads .product cs t) :
    Reads .sum cs t
| plus
    {cs ds : List Char}
    {c : Char}
    {op : Operator}
    {a b : Formula}
    (hOperator : sumOperator? c = some op)
    (hLeft : Reads .sum cs a)
    (hRight : Reads .product ds b) :
    Reads .sum (cs ++ c :: ds) (.binary op a b)

------------------------------------------------------------
-- The Reader
------------------------------------------------------------

/- Take a name off the front of a text. -/
def takeName? :
    List Char → Option (FilterName × List Char)
  | 'i' :: 'w' :: rest => some (.width, rest)
  | 'i' :: 'h' :: rest => some (.height, rest)
  | 'z' :: 'o' :: 'o' :: 'm' :: rest => some (.zoom, rest)
  | 'o' :: 'n' :: rest => some (.frame, rest)
  | _ => none

/- Take as many digits as there are, at least one. -/
def takeDigits?
    (cs : List Char) : Option (List Char × List Char) :=
  if cs.takeWhile Char.isDigit = [] then none
  else
    some (cs.takeWhile Char.isDigit,
      cs.dropWhile Char.isDigit)

/- Take a decimal without a sign off the front. -/
def takeMagnitude?
    (cs : List Char) : Option (List Char × List Char) :=
  match takeDigits? cs with
  | none => none
  | some (whole, '.' :: rest) =>
      match takeDigits? rest with
      | none => some (whole, '.' :: rest)
      | some (fraction, rest) =>
          some (whole ++ '.' :: fraction, rest)
  | some (whole, rest) => some (whole, rest)

/- Take a decimal off the front of a text. -/
def takeLiteral? :
    List Char → Option (List Char × List Char)
  | '-' :: cs =>
      (takeMagnitude? cs).map fun taken =>
        ('-' :: taken.1, taken.2)
  | cs => takeMagnitude? cs

/- What a reader makes of a text, and what is left of it. -/
abbrev Reader : Type :=
  List Char → Option (Formula × List Char)

/- Read a name or a literal. -/
def atom? : Reader := fun cs =>
  match takeName? cs with
  | some (n, rest) => some (.name n, rest)
  | none =>
      (takeLiteral? cs).map fun taken =>
        (.literal taken.1, taken.2)

/-
  Go on behind an operand while operators of the level
  follow, for `fuel` operators at most.
-/
def chain?
    (operator? : Char → Option Operator)
    (operand? : Reader) :
    Nat → Formula → Reader
  | fuel + 1, left, c :: cs =>
      match operator? c with
      | none => some (left, c :: cs)
      | some op =>
          match operand? cs with
          | none => none
          | some (right, rest) =>
              chain? operator? operand? fuel
                (.binary op left right) rest
  | _, left, cs => some (left, cs)

/- Read operands and the operators between them. -/
def level?
    (operator? : Char → Option Operator)
    (operand? : Reader) : Reader := fun cs =>
  match operand? cs with
  | none => none
  | some (first, rest) =>
      chain? operator? operand? rest.length first rest

/- Read a product of factors. -/
def product? (factor? : Reader) : Reader :=
  level? productOperator? factor?

/- Read a sum of products of factors. -/
def sum? (factor? : Reader) : Reader :=
  level? sumOperator? (product? factor?)

/- Read a factor with parentheses up to a depth. -/
def factor? : Nat → Reader
  | depth + 1, '(' :: cs =>
      match sum? (factor? depth) cs with
      | some (t, ')' :: rest) => some (t, rest)
      | _ => none
  | _, cs => atom? cs

/- Read a whole text. -/
def read? (cs : List Char) : Option Formula :=
  match sum? (factor? cs.length) cs with
  | some (t, []) => some t
  | _ => none

example : read? "1-(2-on/8)".toList =
    some (.binary .sub (.literal ['1'])
      (.binary .sub (.literal ['2'])
        (.binary .div (.name .frame) (.literal ['8'])))) := by
  decide +kernel

example : read? "1--0*iw".toList =
    some (.binary .sub (.literal ['1'])
      (.binary .mul (.literal ['-', '0']) (.name .width))) := by
  decide +kernel

end Formula

end Slideshow
