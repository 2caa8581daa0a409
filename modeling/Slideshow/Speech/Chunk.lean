import Slideshow.Error
import Slideshow.Speech.Sentence

/-
  This file defines how sentences are gathered into chunks
  of about equal length, each for one request.

  Key definitions include:
    * `ChunkBounds`
    * `ChunkBounds.around`
    * `ChunkBounds.checked`
    * `Chunk.gather`
    * `speechChunks`
-/

namespace Slideshow

/-
  The number of words at which a chunk is closed, and the
  number that it may not exceed unless one sentence does so
  alone.
-/
structure ChunkBounds where
  low : Nat
  high : Nat
deriving DecidableEq, Repr

/-
  The bounds at a distance from a target.  The lower one is
  at least zero.
-/
def ChunkBounds.around
    (target tolerance : UInt64) : ChunkBounds where
  low := target.toNat - tolerance.toNat
  high := target.toNat + tolerance.toNat

/- The bounds, if the upper one is a word of 64 bits. -/
def ChunkBounds.checked
    (target tolerance : UInt64) : Except Panic ChunkBounds :=
  let bounds := around target tolerance
  if bounds.high < UInt64.size then .ok bounds
  else .error .addOverflow

namespace Chunk

/- The number of words in a text. -/
def wordCount (cs : List Char) : Nat :=
  (Chars.words cs).length

/- Close a chunk; blanks alone are none. -/
def close (cs : List Char) : List (List Char) :=
  let chunk := Chars.trim cs
  if chunk.isEmpty then [] else [chunk]

/-
  Gather sentences, beginning with an open chunk of a number
  of words.  A sentence that does not fit closes the open
  chunk and begins another.
-/
def gather
    (bounds : ChunkBounds)
    (opened : List Char)
    (words : Nat) :
    List (List Char) → List (List Char)
  | [] => close opened
  | sentence :: rest =>
      let more := wordCount sentence
      if words + more ≤ bounds.high then
        if bounds.low ≤ words + more then
          close (opened ++ sentence) ++
            gather bounds [] 0 rest
        else
          gather bounds (opened ++ sentence) (words + more)
            rest
      else
        close opened ++ gather bounds sentence more rest

/- The chunks of a text. -/
def split
    (bounds : ChunkBounds)
    (cs : List Char) : List (List Char) :=
  gather bounds [] 0 (Sentence.split cs)

end Chunk

/- The chunks of a text, each without blanks around it. -/
def chunksWithin
    (bounds : ChunkBounds)
    (s : String) : List String :=
  (Chunk.split bounds s.toList).map String.ofList

/-
  The chunks of a text about a number of words.  The bounds
  are fixed before the text is looked at.
-/
def speechChunks
    (target tolerance : UInt64)
    (s : String) : Except Panic (List String) := do
  let bounds ← ChunkBounds.checked target tolerance
  return chunksWithin bounds s

end Slideshow
