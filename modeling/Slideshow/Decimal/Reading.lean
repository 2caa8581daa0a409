import Slideshow.Text.Numeral

/-
  This file defines the decimal numerals that are accepted
  as doubles, and the double each one denotes.

  Key definitions include:
    * `Decimal.nearest`
    * `Decimal.read?`
-/

namespace Slideshow

namespace Decimal

------------------------------------------------------------
-- The Nearest Double
------------------------------------------------------------

/-
  The double nearest to `digits * 10 ^ exponent`, ties to
  even.  Values far outside the range are settled by their
  order of magnitude, before any power is computed.
-/
def nearest
    (digits : Nat)
    (exponent : Int) : Float :=
  let size := exponent + ((Nat.toDigits 10 digits).length : Int)
  if digits = 0 then 0.0
  else if 400 < size then 1.0 / 0.0
  else if size < -400 then 0.0
  else
    Float.ofScientific digits
      (decide (exponent < 0)) exponent.natAbs

------------------------------------------------------------
-- The Accepted Numerals
------------------------------------------------------------

/- Take the sign off a numeral; `true` is a minus. -/
def takeSign :
    List Char → Bool × List Char
  | '-' :: rest => (true, rest)
  | '+' :: rest => (false, rest)
  | rest => (false, rest)

/- A decimal digit. -/
def isDigit (c : Char) : Bool :=
  (Numeral.digit? c).isSome

/- Read the exponent part, if there is one. -/
def readExponent? :
    List Char → Option Int
  | [] => some 0
  | mark :: rest =>
      if mark = 'e' ∨ mark = 'E' then
        let (negative, digits) := takeSign rest
        (Numeral.value? digits).map fun n =>
          if negative then -(n : Int) else n
      else none

/-
  Read an unsigned numeral: digits with an optional point
  among, before or behind them, and an optional exponent.
-/
def readMagnitude?
    (cs : List Char) : Option Float :=
  let whole := cs.takeWhile isDigit
  let afterWhole := cs.dropWhile isDigit
  let (fraction, tail) :=
    match afterWhole with
    | '.' :: rest =>
        (rest.takeWhile isDigit, rest.dropWhile isDigit)
    | _ => ([], afterWhole)
  match Numeral.value? (whole ++ fraction),
      readExponent? tail with
  | some digits, some power =>
      some (nearest digits (power - fraction.length))
  | _, _ => none

/- The words that stand for values beyond the numerals. -/
def readWord?
    (cs : List Char) : Option Float :=
  let word := String.ofList (cs.map Char.toLower)
  if word = "inf" ∨ word = "infinity" then
    some (1.0 / 0.0)
  else if word = "nan" then some (0.0 / 0.0)
  else none

/- Read a double, with an optional sign in front. -/
def read?
    (cs : List Char) : Option Float :=
  let (negative, rest) := takeSign cs
  let magnitude :=
    match readWord? rest with
    | some x => some x
    | none => readMagnitude? rest
  magnitude.map fun x => if negative then -x else x

end Decimal

end Slideshow
