import Slideshow.Json.Value
import Slideshow.Text.Numeral

/-
  This file defines the numbers that JSON numerals denote:
  machine integers where the numeral is a whole one that
  fits, and doubles otherwise.

  A numeral becomes a double in two steps: as many leading
  digits as fit 64 bits are taken as a whole number, which
  is then multiplied or divided by a power of ten.  Each
  step rounds, so the result may differ in the last place
  from the nearest double.

  Key definitions include:
    * `Json.Number.toWord?`
    * `Json.Number.toFloat?`
    * `Json.Value.isSound`
-/

namespace Slideshow

namespace Json

namespace Number

------------------------------------------------------------
-- Whole Numbers
------------------------------------------------------------

/- The value of a run of digits. -/
def digitsValue (cs : List Char) : Nat :=
  (Numeral.valueFrom? 0 cs).getD 0

/- A numeral without fraction and exponent. -/
def isWhole (n : Number) : Bool :=
  n.fraction.isNone && n.exponent.isNone

/-
  The value of a whole numeral without sign that fits 64
  bits.
-/
def toWord? (n : Number) : Option UInt64 :=
  let value := digitsValue n.whole
  if n.isWhole ∧ !n.negative ∧ value < UInt64.size then
    some value.toUInt64
  else none

------------------------------------------------------------
-- Doubles
------------------------------------------------------------

/-
  Append digits to a significand while the result fits 64
  bits.  The second result is the number of digits that were
  appended.
-/
def appendDigits
    (significand count : Nat) :
    List Char → Nat × Nat
  | [] => (significand, count)
  | c :: cs =>
      let next :=
        10 * significand + (Numeral.digit? c).getD 0
      if next < UInt64.size then
        appendDigits next (count + 1) cs
      else (significand, count)

/-
  The significand of a numeral and the power of ten that
  belongs to it before the written exponent.  Digits of the
  whole part that no longer fit raise the power; those of
  the fraction are dropped.
-/
def significand (n : Number) : Nat × Int :=
  let (whole, used) := appendDigits 0 0 n.whole
  let (all, places) :=
    appendDigits whole 0 (n.fraction.getD [])
  (all, ((n.whole.length - used : Nat) : Int) - places)

/- The double of a power of ten up to the largest one. -/
def powerOfTen (k : Nat) : Float :=
  Float.ofScientific 1 false k

/-
  Scale by a power of ten; `none` is a value beyond the
  range of doubles.
-/
def scale?
    (x : Float)
    (power : Int) : Option Float :=
  let k := power.natAbs
  if 0 ≤ power then
    if k ≤ 308 then
      let y := x * powerOfTen k
      if y.isInf then none else some y
    else if x == 0.0 then some x
    else none
  else if k ≤ 308 then some (x / powerOfTen k)
  else if k ≤ 616 then
    some (x / powerOfTen 308 / powerOfTen (k - 308))
  else some 0.0

/- The written exponent, bounded to 32 bits by `none`. -/
def writtenExponent? (n : Number) : Option Int :=
  match n.exponent with
  | none => some 0
  | some (negative, digits) =>
      let k := digitsValue digits
      if k < UInt32.size / 2 then
        some (if negative then -(k : Int) else k)
      else none

/- The size of a numeral as a double. -/
def magnitude? (n : Number) : Option Float :=
  let (digits, power) := n.significand
  match n.writtenExponent? with
  | some written =>
      scale? (Float.ofNat digits) (power + written)
  | none =>
      match n.exponent with
      | some (false, _) =>
          if digits = 0 then some 0.0 else none
      | _ => some 0.0

/-
  The double of a numeral; `none` is a numeral beyond the
  range of doubles.
-/
def toFloat? (n : Number) : Option Float :=
  n.magnitude?.map fun x =>
    if n.negative then -x else x

end Number

------------------------------------------------------------
-- Sound Values
------------------------------------------------------------

/-
  A value that can be kept in memory as a whole: its strings
  are texts, its numbers are within the range of doubles,
  and at most `limit` lists and records are nested in it.
-/
def Value.isSound :
    Nat → Value → Bool
  | _, .null => true
  | _, .bool _ => true
  | _, .number n => n.toFloat?.isSome
  | _, .text t => t.whole?.isSome
  | 0, .list _ => false
  | 0, .record _ => false
  | limit + 1, .list items =>
      items.all (Value.isSound limit)
  | limit + 1, .record fields =>
      fields.all fun field =>
        field.1.whole?.isSome && field.2.isSound limit

end Json

end Slideshow
