/-
  This file defines the exact meaning of a double-precision
  number and the two roundings to whole numbers that are
  computed from it.

  Key definitions include:
    * `twoPow`
    * `tenPow`
    * `Binary`
    * `Binary.ofFloat`
    * `Binary.floorWord`
    * `Binary.roundWhole`
    * `Binary.roundMicros`
-/

namespace Slideshow

------------------------------------------------------------
-- Powers
------------------------------------------------------------

/- A power of two. -/
def twoPow (k : Nat) : Nat :=
  Nat.pow 2 k

/- A power of ten. -/
def tenPow (k : Nat) : Nat :=
  Nat.pow 10 k

------------------------------------------------------------
-- Decoding
------------------------------------------------------------

/-
  The meaning of a double: no number, an infinity, or the
  signed value `significand * 2 ^ exponent`.
-/
inductive Binary where
| nan
| infinite (negative : Bool)
| finite
    (negative : Bool)
    (significand : Nat)
    (exponent : Int)
deriving DecidableEq, Repr

namespace Binary

/- Decode the sign, exponent and fraction fields. -/
def ofBits (bits : UInt64) : Binary :=
  let word : Nat := bits.toNat
  let negative := decide (twoPow 63 ≤ word)
  let field : Nat := word / twoPow 52 % twoPow 11
  let fraction : Nat := word % twoPow 52
  if field = 2047 then
    if fraction = 0 then .infinite negative else .nan
  else if field = 0 then
    .finite negative fraction (-1074)
  else
    .finite negative (twoPow 52 + fraction)
      ((field : Int) - 1075)

/- The meaning of a double. -/
def ofFloat (x : Float) : Binary :=
  ofBits x.toBits

------------------------------------------------------------
-- Rounding to Whole Numbers
------------------------------------------------------------

/- The greatest whole number up to `m * 2 ^ q`. -/
def floorOf
    (m : Nat)
    (q : Int) : Nat :=
  m * twoPow q.toNat / twoPow (-q).toNat

/- The whole number nearest to `m * 2 ^ q`, halves up. -/
def roundOf
    (m : Nat)
    (q : Int) : Nat :=
  (2 * m * twoPow q.toNat + twoPow (-q).toNat) /
    (2 * twoPow (-q).toNat)

/-
  The greatest whole number up to `x`, kept within the range
  of a 64-bit word.  A value that is no number counts as
  zero.
-/
def floorWord (x : Float) : UInt64 :=
  match ofFloat x with
  | .nan => 0
  | .infinite true => 0
  | .infinite false => UInt64.ofNat (UInt64.size - 1)
  | .finite true _ _ => 0
  | .finite false m q =>
      UInt64.ofNat (min (floorOf m q) (UInt64.size - 1))

/-
  The whole number nearest to `x`, halves away from zero.
  The sign stays, also that of a zero.
-/
def roundWhole (x : Float) : Float :=
  match ofFloat x with
  | .finite negative m q =>
      if 0 ≤ q then x
      else
        let y := Float.ofNat (roundOf m q)
        if negative then -y else y
  | _ => x

/-
  Round a number of seconds to whole microseconds, which
  takes the noise of binary fractions off printed times.
-/
def roundMicros (seconds : Float) : Float :=
  roundWhole (seconds * 1000000.0) / 1000000.0

end Binary

end Slideshow
