import Slideshow.Text.Chars

/-
  This file defines how unsigned whole numbers are written
  and read in base ten.

  Key definitions include:
    * `Numeral.write`
    * `Numeral.value?`
    * `Numeral.readBelow?`
-/

namespace Slideshow

namespace Numeral

/- The decimal digits of a number, without leading zeros. -/
def write (n : Nat) : String :=
  String.ofList (Nat.toDigits 10 n)

/- The value of a decimal digit. -/
def digit?
    (c : Char) : Option Nat :=
  if '0' ≤ c ∧ c ≤ '9' then some (c.toNat - '0'.toNat)
  else none

/-
  The value of a run of digits that continues a numeral
  read so far as `acc`.
-/
def valueFrom?
    (acc : Nat) :
    List Char → Option Nat
  | [] => some acc
  | c :: cs =>
      match digit? c with
      | none => none
      | some d => valueFrom? (10 * acc + d) cs

/- The value of a non-empty run of digits. -/
def value? : List Char → Option Nat
  | [] => none
  | c :: cs => valueFrom? 0 (c :: cs)

/-
  Read a numeral below `bound`: digits, with leading zeros
  and one plus sign in front allowed.
-/
def readBelow?
    (bound : Nat)
    (cs : List Char) : Option Nat :=
  let digits :=
    match cs with
    | '+' :: rest => rest
    | _ => cs
  match value? digits with
  | none => none
  | some n => if n < bound then some n else none

/- Read a numeral that fits 32 bits. -/
def readUInt32?
    (s : String) : Option UInt32 :=
  (readBelow? UInt32.size s.toList).map Nat.toUInt32

end Numeral

end Slideshow
