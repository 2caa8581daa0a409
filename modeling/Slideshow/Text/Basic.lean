import Slideshow.Text.Chars

/-
  This file lifts the cutting operations on characters to
  strings.

  Key definitions include:
    * `Text.trim`
    * `Text.split`
    * `Text.splitOnce`
    * `Text.splitText`
    * `Text.replaceText`
    * `Text.padStart`
-/

namespace Slideshow

namespace Text

/- Drop the blanks on both sides. -/
def trim
    (s : String) : String :=
  String.ofList (Chars.trim s.toList)

/- Drop the blanks at the end. -/
def trimEnd
    (s : String) : String :=
  String.ofList (Chars.trimEnd s.toList)

/- The pieces between the occurrences of one character. -/
def split
    (sep : Char)
    (s : String) : List String :=
  (Chars.split sep s.toList).map String.ofList

/-
  The parts before and after the first occurrence of a
  character.
-/
def splitOnce
    (sep : Char)
    (s : String) : Option (String × String) :=
  (Chars.splitOnce sep s.toList).map fun parts =>
    (String.ofList parts.1, String.ofList parts.2)

/- The pieces between the occurrences of a separator. -/
def splitText
    (sep s : String) : List String :=
  (Chars.splitText sep.toList s.toList).map String.ofList

/- Put `new` in the place of every occurrence of `old`. -/
def replaceText
    (old new s : String) : String :=
  String.ofList
    (Chars.replaceText old.toList new.toList s.toList)

/- Lower-case the ASCII letters and keep all else. -/
def lower
    (s : String) : String :=
  String.ofList (Chars.lower s.toList)

/- Remove every occurrence of the given characters. -/
def without
    (drop : List Char)
    (s : String) : String :=
  String.ofList (s.toList.filter fun c => !drop.contains c)

/- Fill up with a character on the left. -/
def padStart
    (width : Nat)
    (fill : Char)
    (s : String) : String :=
  String.ofList (s.toList.leftpad width fill)

/- Join the pieces with a separator. -/
def join
    (sep : String)
    (pieces : List String) : String :=
  sep.intercalate pieces

end Text

end Slideshow
