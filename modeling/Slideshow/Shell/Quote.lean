import Slideshow.Text.Basic

/-
  This file defines how words are written for a POSIX shell,
  so that it reads them back as they are.

  Key definitions include:
    * `Shell.isPlain`
    * `Shell.quoteChars`
    * `Shell.quote`
    * `Shell.line`
-/

namespace Slideshow

namespace Shell

/- The marks that stand for themselves outside quotes. -/
def plainMarks : List Char :=
  "_-./:=,+@%".toList

/- A character that stands for itself outside quotes. -/
def isPlain (c : Char) : Bool :=
  c.isAlphanum || plainMarks.contains c

/-
  A quote cannot stand between quotes: close them, write it
  behind a backslash, and open them again.
-/
def escapeChar (c : Char) : List Char :=
  if c = '\'' then ['\'', '\\', '\'', '\''] else [c]

/-
  The written form of a word: itself when it has plain
  characters only and at least one, and otherwise the word
  between single quotes.
-/
def quoteChars (cs : List Char) : List Char :=
  if !cs.isEmpty && cs.all isPlain then cs
  else '\'' :: (cs.flatMap escapeChar ++ ['\''])

/- The written form of a word. -/
def quote (word : String) : String :=
  String.ofList (quoteChars word.toList)

/- The written form of words on one line. -/
def line (words : List String) : String :=
  Text.join " " (words.map quote)

end Shell

end Slideshow
