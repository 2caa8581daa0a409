/-
  This file defines the character classes and the cutting
  operations on lists of characters that every reader of
  the library is built from.

  Key definitions include:
    * `isBlank`
    * `Chars.trim`
    * `Chars.words`
    * `Chars.splitOnce`
    * `Chars.splitText`
    * `Chars.replaceText`
-/

namespace Slideshow

------------------------------------------------------------
-- Blank Characters
------------------------------------------------------------

/-
  The code points with the Unicode property White_Space, as
  closed ranges, ascending and apart.
-/
def blankRanges : List (Nat × Nat) :=
  [(0x09, 0x0D), (0x20, 0x20), (0x85, 0x85),
   (0xA0, 0xA0), (0x1680, 0x1680), (0x2000, 0x200A),
   (0x2028, 0x2029), (0x202F, 0x202F),
   (0x205F, 0x205F), (0x3000, 0x3000)]

/- A character is blank when it has that property. -/
def isBlank (c : Char) : Bool :=
  blankRanges.any fun range =>
    range.1 ≤ c.toNat && c.toNat ≤ range.2

namespace Chars

------------------------------------------------------------
-- Trimming and Words
------------------------------------------------------------

/- Drop the blanks at the end. -/
def trimEnd
    (cs : List Char) : List Char :=
  (cs.reverse.dropWhile isBlank).reverse

/- Drop the blanks on both sides. -/
def trim
    (cs : List Char) : List Char :=
  trimEnd (cs.dropWhile isBlank)

/- The maximal runs of characters that are not blank. -/
def words
    (cs : List Char) : List (List Char) :=
  (cs.splitOnP isBlank).filter fun word => !word.isEmpty

------------------------------------------------------------
-- Cutting at a Separator
------------------------------------------------------------

/- The pieces between the occurrences of one character. -/
def split
    (sep : Char)
    (cs : List Char) : List (List Char) :=
  cs.splitOnP (· == sep)

/-
  The parts before and after the first occurrence of a
  character.
-/
def splitOnce
    (sep : Char)
    (cs : List Char) :
    Option (List Char × List Char) :=
  match cs.dropWhile (· != sep) with
  | [] => none
  | _ :: rest => some (cs.takeWhile (· != sep), rest)

/- Put a character in front of the first piece. -/
def consHead
    (c : Char) :
    List (List Char) → List (List Char)
  | [] => [[c]]
  | piece :: pieces => (c :: piece) :: pieces

/-
  Cut at the occurrences of `sep`, found from the left and
  never overlapping.  `skip` counts the characters of the
  last occurrence that are still to be passed over.
-/
def splitTextFrom
    (sep : List Char)
    (skip : Nat) :
    List Char → List (List Char)
  | [] => [[]]
  | c :: cs =>
      match skip with
      | skip + 1 => splitTextFrom sep skip cs
      | 0 =>
          if sep.isPrefixOf (c :: cs) then
            [] :: splitTextFrom sep (sep.length - 1) cs
          else
            consHead c (splitTextFrom sep 0 cs)

/-
  The pieces between the occurrences of a separator that is
  not empty.
-/
def splitText
    (sep cs : List Char) : List (List Char) :=
  splitTextFrom sep 0 cs

/- Put `new` in the place of every occurrence of `old`. -/
def replaceText
    (old new cs : List Char) : List Char :=
  new.intercalate (splitText old cs)

/- Lower-case the ASCII letters and keep all else. -/
def lower
    (cs : List Char) : List Char :=
  cs.map Char.toLower

end Chars

end Slideshow
