import Slideshow.Decimal.Binary

/-
  This file defines the shortest decimal that identifies a
  double: the fewest digits that round back to it, and of
  those the decimal nearest to its exact value.

  Key definitions include:
    * `Decimal`
    * `Decimal.Tie`
    * `Decimal.Interval`
    * `Decimal.shortest`
-/

namespace Slideshow

/- The value `digits * 10 ^ exponent`. -/
structure Decimal where
  digits : Nat
  exponent : Int
deriving DecidableEq, Repr

namespace Decimal

/- Which of two equally near decimals is taken. -/
inductive Tie where
| even
| up
deriving DecidableEq, Repr

------------------------------------------------------------
-- The Rounding Interval
------------------------------------------------------------

/-
  The reals that round to `m * 2 ^ q`, in quarters of the
  last binary place: from `low` to `high` times
  `2 ^ (q - 2)`, with the ends included when `closed`.
-/
structure Interval where
  low : Nat
  high : Nat
  scale : Int
  closed : Bool

/-
  The interval of a positive double.  Below a power of two
  the next double is only half as far away, except at the
  bottom of the range, where the spacing no longer halves.
-/
def Interval.of
    (m : Nat)
    (q : Int) : Interval where
  low :=
    if m = twoPow 52 ∧ -1074 < q then 4 * m - 1
    else 4 * m - 2
  high := 4 * m + 2
  scale := q - 2
  closed := m % 2 == 0

/- Compare a decimal with `n * 2 ^ scale`, exactly. -/
def compareBinary
    (d : Decimal)
    (n : Nat)
    (scale : Int) : Ordering :=
  compare
    (d.digits * tenPow d.exponent.toNat *
      twoPow (-scale).toNat)
    (n * twoPow scale.toNat * tenPow (-d.exponent).toNat)

/- A decimal that rounds back to the double. -/
def Interval.holds
    (i : Interval)
    (d : Decimal) : Bool :=
  let low := d.compareBinary i.low i.scale
  let high := d.compareBinary i.high i.scale
  (low == .gt || (i.closed && low == .eq)) &&
    (high == .lt || (i.closed && high == .eq))

------------------------------------------------------------
-- The Search
------------------------------------------------------------

/-
  The number of decimal digits in front of the point of
  `m * 2 ^ q`; zero or negative below one tenth.
-/
def magnitude
    (m : Nat)
    (q : Int) : Int :=
  let top := m * twoPow q.toNat
  let bottom := twoPow (-q).toNat
  if bottom ≤ top then
    ((Nat.toDigits 10 (top / bottom)).length : Int)
  else
    let inverse := (Nat.toDigits 10 (bottom / top)).length
    if bottom ≤ top * tenPow (inverse - 1) then
      2 - (inverse : Int)
    else
      1 - (inverse : Int)

/- The decimal places at a power of ten, rounded down. -/
def floorAt
    (m : Nat)
    (q place : Int) : Nat :=
  m * twoPow q.toNat * tenPow (-place).toNat /
    (twoPow (-q).toNat * tenPow place.toNat)

/-
  Whether twice the value is below, at or above the middle
  between two neighbouring decimals at a power of ten.
-/
def compareMiddle
    (m : Nat)
    (q : Int)
    (below : Decimal) : Ordering :=
  let middle : Decimal :=
    ⟨2 * below.digits + 1, below.exponent⟩
  (middle.compareBinary (2 * m) q).swap

/- The better of the two neighbours of the value. -/
def chooseNearer
    (tie : Tie)
    (m : Nat)
    (q : Int)
    (below above : Decimal) : Decimal :=
  match compareMiddle m q below, tie with
  | .lt, _ => below
  | .gt, _ => above
  | .eq, .up => above
  | .eq, .even =>
      if below.digits % 2 = 0 then below else above

/-
  The decimal with its last digit at the given place that
  rounds back to the double, if there is one.
-/
def atPlace?
    (tie : Tie)
    (m : Nat)
    (q place : Int) : Option Decimal :=
  let interval := Interval.of m q
  let below : Decimal := ⟨floorAt m q place, place⟩
  let above : Decimal := ⟨below.digits + 1, place⟩
  match interval.holds below, interval.holds above with
  | true, true => some (chooseNearer tie m q below above)
  | true, false => some below
  | false, true => some above
  | false, false => none

/- Move the zeros at the end into the exponent. -/
def stripZeros
    (fuel : Nat)
    (d : Decimal) : Decimal :=
  match fuel with
  | 0 => d
  | fuel + 1 =>
      if d.digits ≠ 0 ∧ d.digits % 10 = 0 then
        stripZeros fuel ⟨d.digits / 10, d.exponent + 1⟩
      else d

/- The exact value, which always rounds back. -/
def exact
    (m : Nat)
    (q : Int) : Decimal :=
  if 0 ≤ q then ⟨m * twoPow q.toNat, 0⟩
  else ⟨m * Nat.pow 5 (-q).toNat, q⟩

/-
  The shortest decimal of the positive value `m * 2 ^ q`.
  Seventeen digits always suffice; the exact value stands
  behind the search so that the answer is right without
  that fact.
-/
def shortest
    (tie : Tie)
    (m : Nat)
    (q : Int) : Decimal :=
  let size := magnitude m q
  let found :=
    (List.range 17).findSome? fun count =>
      atPlace? tie m q (size - (count + 1 : Nat))
  let best := found.getD (exact m q)
  stripZeros (Nat.toDigits 10 best.digits).length best

end Decimal

end Slideshow
