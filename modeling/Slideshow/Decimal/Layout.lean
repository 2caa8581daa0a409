import Slideshow.Decimal.Shortest
import Slideshow.Text.Numeral

/-
  This file defines the two written forms of a double: the
  plain form used in commands and messages, and the form of
  a number in a JSON document.

  Key definitions include:
    * `Decimal.plainText`
    * `Decimal.plain`
    * `Decimal.numberText`
-/

namespace Slideshow

namespace Decimal

------------------------------------------------------------
-- Placing the Point
------------------------------------------------------------

/- A run of zeros. -/
def zeros (count : Nat) : List Char :=
  List.replicate count '0'

/-
  Write a decimal without an exponent, and without a point
  where the value is whole.
-/
def positional (d : Decimal) : List Char :=
  let digits := Nat.toDigits 10 d.digits
  if 0 ≤ d.exponent then
    digits ++ zeros d.exponent.toNat
  else
    let places := (-d.exponent).toNat
    if places < digits.length then
      let whole := digits.length - places
      digits.take whole ++ '.' :: digits.drop whole
    else
      '0' :: '.' ::
        (zeros (places - digits.length) ++ digits)

/- The exponent of the leading digit. -/
def leading (d : Decimal) : Int :=
  d.exponent + ((Nat.toDigits 10 d.digits).length : Int) - 1

/- Write a decimal with one digit before the point. -/
def scientific (d : Decimal) : List Char :=
  let power := (toString (leading d)).toList
  match Nat.toDigits 10 d.digits with
  | [] => []
  | [lead] => lead :: 'e' :: power
  | lead :: rest => lead :: '.' :: (rest ++ 'e' :: power)

/- Put the minus sign in front of a negative value. -/
def signed
    (negative : Bool)
    (digits : List Char) : List Char :=
  if negative then '-' :: digits else digits

------------------------------------------------------------
-- The Written Forms
------------------------------------------------------------

/-
  The plain form of a decoded double: the fewest digits that
  identify it, never an exponent, ties upwards.
-/
def plainText : Binary → List Char
  | .nan => ['N', 'a', 'N']
  | .infinite negative => signed negative ['i', 'n', 'f']
  | .finite negative m q =>
      signed negative <|
        if m = 0 then ['0']
        else positional (shortest .up m q)

/- The plain form of a double. -/
def plain (x : Float) : String :=
  String.ofList (plainText (Binary.ofFloat x))

/-
  The digits of a number in a JSON document: positional from
  the fifth place after the point up to sixteen digits, with
  a fraction always shown, and scientific beyond.
-/
def numberDigits (d : Decimal) : List Char :=
  if -5 ≤ leading d ∧ leading d ≤ 15 then
    if 0 ≤ d.exponent then positional d ++ ['.', '0']
    else positional d
  else scientific d

/-
  A double in a JSON document.  Values that are no finite
  number have no such form and stand as null.
-/
def numberText (x : Float) : String :=
  match Binary.ofFloat x with
  | .finite negative m q =>
      String.ofList <| signed negative <|
        if m = 0 then ['0', '.', '0']
        else numberDigits (shortest .even m q)
  | _ => "null"

end Decimal

end Slideshow
