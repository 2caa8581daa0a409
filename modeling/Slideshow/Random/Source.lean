/-
  This file defines sources of random words and the fair
  choice of a list element from them.

  Key definitions include:
    * `WordSource`
    * `WordSource.index`
    * `WordSource.choose`
    * `WordScript`
-/

namespace Slideshow

------------------------------------------------------------
-- Sources
------------------------------------------------------------

/- A state that yields 32-bit words one after another. -/
class WordSource (σ : Type) where
  next : σ → UInt32 × σ

namespace WordSource

variable {σ : Type}
variable [WordSource σ]

/-
  Draw an index below `n`.  The high half of `word * n` is
  the index; where its low half is so large that the
  fraction could carry, a second word settles the carry, so
  that the bias stays below one in 2 ^ 32.
-/
def index
    (n : Nat)
    (s : σ) : Nat × σ :=
  let (word, s) := next s
  let high := word.toNat * n / UInt32.size
  let low := word.toNat * n % UInt32.size
  if UInt32.size - n < low then
    let (word, s) := next s
    let more := word.toNat * n / UInt32.size
    if UInt32.size ≤ low + more then (high + 1, s)
    else (high, s)
  else (high, s)

/-
  Choose an element.  An empty list has none, and then no
  word is drawn.
-/
def choose
    {α : Type}
    (items : List α)
    (s : σ) : Option α × σ :=
  if items.isEmpty then (none, s)
  else
    let (i, s) := index items.length s
    (items[i]?, s)

end WordSource

------------------------------------------------------------
-- Scripted Words
------------------------------------------------------------

/- A fixed list of words, given out over and over again. -/
structure WordScript where
  words : List UInt32
  left : List UInt32

namespace WordScript

/- A script at its beginning. -/
def ofList (words : List UInt32) : WordScript :=
  ⟨words, words⟩

/- The next word, starting over at the end. -/
def next (s : WordScript) : UInt32 × WordScript :=
  match s.left with
  | word :: left => (word, { s with left })
  | [] =>
      match s.words with
      | word :: left => (word, { s with left })
      | [] => (0, s)

instance : WordSource WordScript where
  next := next

end WordScript

end Slideshow
